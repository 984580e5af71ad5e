import MouseAide.Base.Fifo
import MouseAide.Firmware.RingBuffer

/-!
# Runs of the ring buffer

Library `MouseFirmware`. A ring under any sequence of its calls,
`arduino_mouse_16u2/Lib/LightweightRingBuff.h:79–195`. With inserts guarded by
`RingBuffer_IsFull` and removals by `RingBuffer_IsEmpty` it is a bounded queue for every
size the header allows. `RingBuffer_InitBuffer` restores both pointers and leaves `Count`
as it was, so it empties a ring exactly when the count is zero already.
-/

namespace MouseAide.Firmware

open MouseAide.Base

/-- A ring with the numbers of bytes inserted and removed since its last initialisation;
only the bytes between the two are pending. -/
structure RingSession (bufferSize : Nat) where
  ring : RingBuff bufferSize
  inserted : Nat
  removed : Nat
  deriving DecidableEq, Repr

namespace RingSession

variable {bufferSize : Nat}

/-- A removal returns a pending byte. -/
def pending (s : RingSession bufferSize) : Bool := s.removed < s.inserted

/-- One call of the ring's interface; a removal with nothing pending returns no byte that
was inserted, and nothing is said about it. -/
def step (s : RingSession bufferSize) :
    QueueOp UInt8 → RingSession bufferSize × List (QueueResult UInt8)
  | .reset => (⟨RingBuffer.initBuffer s.ring, 0, 0⟩, [])
  | .insert data =>
    ({ s with ring := RingBuffer.insert s.ring data, inserted := s.inserted + 1 }, [])
  | .remove =>
    ({ s with ring := (RingBuffer.remove s.ring).2, removed := s.removed + 1 },
      if s.pending then [.removed (RingBuffer.remove s.ring).1] else [])
  | .getCount => (s, [.count (RingBuffer.getCount s.ring).toNat])
  | .isFull => (s, [.full (RingBuffer.isFull s.ring)])
  | .isEmpty => (s, [.empty (RingBuffer.isEmpty s.ring)])

end RingSession

namespace RingBuffer

variable {bufferSize : Nat}

/-- The calls made on a ring from a given state on. -/
def machine (b : RingBuff bufferSize) :
    Machine (RingSession bufferSize) (QueueOp UInt8) (QueueResult UInt8) :=
  ⟨⟨b, 0, 0⟩, RingSession.step⟩

/-- A ring freshly powered up and initialised. -/
def fresh (bufferSize : Nat) : RingBuff bufferSize := initBuffer (powerUp bufferSize)

/-! ### A bounded queue -/

/-- The discipline the header asks for: no insert into a full ring, no removal from an empty
one, and no further initialisation. -/
def Guarded (s : RingSession bufferSize) (_ : List (QueueResult UInt8)) : QueueOp UInt8 → Prop
  | .reset => False
  | .insert _ => isFull s.ring = false
  | .remove => isEmpty s.ring = false
  | .getCount | .isFull | .isEmpty => True

instance (s : RingSession bufferSize) (o : List (QueueResult UInt8)) :
    (op : QueueOp UInt8) → Decidable (Guarded s o op)
  | .reset => inferInstanceAs (Decidable False)
  | .insert _ => inferInstanceAs (Decidable (_ = false))
  | .remove => inferInstanceAs (Decidable (_ = false))
  | .getCount => inferInstanceAs (Decidable True)
  | .isFull => inferInstanceAs (Decidable True)
  | .isEmpty => inferInstanceAs (Decidable True)

/-- The ring holds the items of a queue: they are the unread end of the bytes stored, both
pointers stand at the residues of the totals, and the count is their number. -/
structure Queues (s : RingSession bufferSize) (items : List UInt8) : Prop where
  stored : ∃ stream, Stores s.ring stream ∧ s.inserted = stream.length ∧
    items = stream.drop s.removed
  out : s.ring.outPtr = s.removed % bufferSize
  length : s.removed + items.length = s.inserted
  count : s.ring.count.toNat = items.length
  bounded : items.length ≤ bufferSize

namespace Queues

variable {s : RingSession bufferSize} {items : List UInt8}

/-- A fresh ring holds the empty queue. -/
theorem start : Queues ⟨fresh bufferSize, 0, 0⟩ [] where
  stored := ⟨[], Stores.init _, rfl, rfl⟩
  out := (Nat.zero_mod _).symm
  length := rfl
  count := rfl
  bounded := Nat.zero_le _

/-- The full test compares the number of items with the capacity. -/
theorem isFull_eq (h : Queues s items) : isFull s.ring = (items.length == bufferSize) := by
  rw [isFull, getCount, h.count]

/-- The empty test tells whether there is an item. -/
theorem isEmpty_eq (h : Queues s items) : isEmpty s.ring = items.isEmpty := by
  rw [isEmpty, getCount, Bool.eq_iff_iff, beq_iff_eq, List.isEmpty_iff,
    ← List.length_eq_zero_iff, ← h.count, ← UInt8.toNat_inj]
  rfl

/-- An insert into a ring with room appends an item. -/
theorem insert (h : Queues s items) (hn : 0 < bufferSize) (hn' : bufferSize ≤ 255)
    (hroom : isFull s.ring = false) (data : UInt8) :
    Queues (s.step (.insert data)).1 (items ++ [data]) := by
  obtain ⟨stream, hstores, hin, hitems⟩ := h.stored
  have hlen := h.length
  have hbounded := h.bounded
  have hlt : items.length < bufferSize := by
    rw [h.isFull_eq, beq_eq_false_iff_ne] at hroom
    omega
  have hnew : (items ++ [data]).length = items.length + 1 := List.length_append
  constructor
  · refine ⟨stream ++ [data], hstores.insert hn data, ?_, ?_⟩
    · simp [RingSession.step, hin]
    · rw [hitems]
      exact (List.drop_append_of_le_length (by omega)).symm
  · exact h.out
  · rw [hnew]
    simp only [RingSession.step]
    omega
  · rw [hnew]
    simp only [RingSession.step, RingBuffer.insert, UInt8.toNat_add, h.count]
    exact Nat.mod_eq_of_lt (by have : (1 : UInt8).toNat = 1 := rfl; omega)
  · omega

/-- A removal from a ring that is not empty takes the first item. -/
theorem remove (h : Queues s items) (hsome : isEmpty s.ring = false) :
    Queues (s.step .remove).1 items.tail ∧
      (s.step .remove).2 = items.head?.toList.map .removed := by
  obtain ⟨stream, hstores, hin, hitems⟩ := h.stored
  have hlen := h.length
  have hbounded := h.bounded
  have hcount := h.count
  have hpos : 0 < items.length := by
    rw [h.isEmpty_eq, List.isEmpty_eq_false_iff] at hsome
    exact List.length_pos_of_ne_nil hsome
  have hpending : s.pending = true := by simp only [RingSession.pending, decide_eq_true_eq]; omega
  have hread : stream[s.removed]? = some (removeRead s.ring) :=
    hstores.removeRead_recent h.out (by omega) (by omega)
  constructor
  · constructor
    · refine ⟨stream, hstores.congr rfl rfl, hin, ?_⟩
      rw [hitems, List.tail_drop]
      rfl
    · simp only [RingSession.step, remove_outPtr, h.out]
      exact wrap_succ_mod _ _
    · rw [List.length_tail]
      simp only [RingSession.step]
      omega
    · have hone : (1 : UInt8).toNat = 1 := rfl
      have := s.ring.count.toNat_lt
      rw [List.length_tail]
      simp only [RingSession.step, remove_count, UInt8.toNat_sub]
      omega
    · rw [List.length_tail]
      omega
  · rw [hitems, List.head?_drop, hread]
    simp [RingSession.step, hpending, RingBuffer.remove]

end Queues

/-- For every size the header allows, a ring used with its guards is the bounded queue. -/
theorem refines_fifo (hn : 1 ≤ bufferSize) (hn' : bufferSize ≤ 255) {ops : List (QueueOp UInt8)}
    (h : (machine (fresh bufferSize)).Meets Guarded ops) :
    Queues ((machine (fresh bufferSize)).state ops) ((fifo UInt8 bufferSize).state ops) ∧
      (machine (fresh bufferSize)).trace ops = (fifo UInt8 bufferSize).trace ops := by
  apply Machine.simulation Queues.start _ h
  intro s items o op hq hok
  cases op with
  | reset => exact hok.elim
  | insert data => exact ⟨hq.insert hn hn' hok data, rfl⟩
  | remove => exact hq.remove hok
  | getCount => exact ⟨hq, by simp [machine, fifo, fifoStep, RingSession.step, getCount, hq.count]⟩
  | isFull => exact ⟨hq, by simp [machine, fifo, fifoStep, RingSession.step, hq.isFull_eq]⟩
  | isEmpty => exact ⟨hq, by simp [machine, fifo, fifoStep, RingSession.step, hq.isEmpty_eq]⟩

/-- The session counts the calls made on it. -/
private theorem totals_eq {b : RingBuff bufferSize} {ops : List (QueueOp UInt8)}
    (h : .reset ∉ ops) :
    ((machine b).state ops).inserted = (inserted ops).length ∧
      ((machine b).state ops).removed = removals ops := by
  induction ops using List.reverseRecOn with
  | nil => exact ⟨rfl, rfl⟩
  | append_singleton ops op ih =>
    obtain ⟨hi, hr⟩ := ih fun hmem ↦ h (List.mem_append_left _ hmem)
    rw [Machine.state_concat, inserted_append, removals_append, List.length_append, ← hi, ← hr]
    cases op with
    | reset => simp at h
    | insert _ | remove | getCount | isFull | isEmpty => exact ⟨rfl, rfl⟩

/-- A guarded run never initialises again. -/
private theorem reset_notMem {b : RingBuff bufferSize} {ops : List (QueueOp UInt8)}
    (h : (machine b).Meets Guarded ops) : .reset ∉ ops := by
  intro hmem
  obtain ⟨pre, rest, rfl⟩ := List.append_of_mem hmem
  exact h pre .reset ⟨rest, by simp⟩

/-- For every legal size and every guarded run, the bytes removed are the bytes inserted, in
order; the count, both tests and both pointers follow from the two totals alone. -/
theorem boundedFifo (bufferSize : Nat) (hn : 1 ≤ bufferSize) (hn' : bufferSize ≤ 255)
    (ops : List (QueueOp UInt8)) (h : (machine (fresh bufferSize)).Meets Guarded ops) :
    removed ((machine (fresh bufferSize)).trace ops) = (inserted ops).take (removals ops) ∧
      removals ops ≤ (inserted ops).length ∧
      (getCount ((machine (fresh bufferSize)).state ops).ring).toNat =
        (inserted ops).length - removals ops ∧
      (isEmpty ((machine (fresh bufferSize)).state ops).ring = true ↔
        (inserted ops).length = removals ops) ∧
      (isFull ((machine (fresh bufferSize)).state ops).ring = true ↔
        (inserted ops).length = removals ops + bufferSize) ∧
      ((machine (fresh bufferSize)).state ops).ring.inPtr =
        (inserted ops).length % bufferSize ∧
      ((machine (fresh bufferSize)).state ops).ring.outPtr = removals ops % bufferSize ∧
      ((machine (fresh bufferSize)).state ops).ring.inPtr < bufferSize ∧
      ((machine (fresh bufferSize)).state ops).ring.outPtr < bufferSize := by
  have hreset := reset_notMem h
  obtain ⟨hq, htrace⟩ := refines_fifo hn hn' h
  obtain ⟨hi, hr⟩ := totals_eq (b := fresh bufferSize) hreset
  have hlaw := fifo_conservation bufferSize ops hreset
  obtain ⟨stream, hstores, hin, -⟩ := hq.stored
  have hlen := hq.length
  have hout := hq.out
  have hinPtr := hstores.inPtr_eq
  rw [hi, hr] at hlen
  rw [hr] at hout
  rw [← hin, hi] at hinPtr
  have hremoved : (removed ((fifo UInt8 bufferSize).trace ops)).length = removals ops := by
    have := congrArg List.length hlaw
    rw [List.length_append] at this
    omega
  refine ⟨?_, by omega, ?_, ?_, ?_, hinPtr, hout, ?_, ?_⟩
  · rw [htrace, ← hlaw, ← hremoved, List.take_left]
  · rw [getCount, hq.count]
    omega
  · rw [hq.isEmpty_eq, List.isEmpty_iff, ← List.length_eq_zero_iff]
    omega
  · rw [hq.isFull_eq, beq_iff_eq]
    omega
  · rw [hinPtr]
    exact Nat.mod_lt _ hn
  · rw [hout]
    exact Nat.mod_lt _ hn

/-- A ring of a single byte, filled and emptied twice. -/
theorem boundedFifo_single :
    removed ((machine (fresh 1)).trace [.insert 7, .remove, .insert 9, .isFull, .remove]) =
      [7, 9] :=
  (boundedFifo 1 (by decide) (by decide) [.insert 7, .remove, .insert 9, .isFull, .remove]
    (by decide)).1

/-! ### Initialising again -/

/-- After `RingBuffer_InitBuffer` the ring is empty, and no later sequence of calls tells it
from a fresh one. -/
def Resets (b : RingBuff bufferSize) : Prop :=
  getCount (initBuffer b) = 0 ∧ isEmpty (initBuffer b) = true ∧
    ∀ ops, (machine (initBuffer b)).trace ops = (machine (fresh bufferSize)).trace ops

/-- Two sessions no caller can tell apart: the same totals and count, both pointers at the
residues of the totals, and the same byte in every cell written since the initialisation. -/
structure Alike (s s' : RingSession bufferSize) : Prop where
  inserted : s'.inserted = s.inserted
  removed : s'.removed = s.removed
  inPtr : s.ring.inPtr = s.inserted % bufferSize ∧ s'.ring.inPtr = s.inserted % bufferSize
  outPtr : s.ring.outPtr = s.removed % bufferSize ∧ s'.ring.outPtr = s.removed % bufferSize
  count : s'.ring.count = s.ring.count
  cells : ∀ p, p < s.inserted →
    s'.ring.buffer[p % bufferSize]? = s.ring.buffer[p % bufferSize]?

namespace Alike

variable {s s' : RingSession bufferSize}

/-- Initialisation makes rings of one count alike. -/
theorem init {b b' : RingBuff bufferSize} (h : b'.count = b.count) :
    Alike ⟨initBuffer b, 0, 0⟩ ⟨initBuffer b', 0, 0⟩ where
  inserted := rfl
  removed := rfl
  inPtr := ⟨(Nat.zero_mod _).symm, (Nat.zero_mod _).symm⟩
  outPtr := ⟨(Nat.zero_mod _).symm, (Nat.zero_mod _).symm⟩
  count := h
  cells := fun p hp ↦ absurd hp (Nat.not_lt_zero p)

/-- An insert writes the same cell of both. -/
theorem insert (h : Alike s s') (data : UInt8) :
    Alike (s.step (.insert data)).1 (s'.step (.insert data)).1 := by
  obtain ⟨hin, hin'⟩ := h.inPtr
  constructor
  · simp only [RingSession.step, h.inserted]
  · exact h.removed
  · simp only [RingSession.step, RingBuffer.insert, hin, hin', wrap_succ_mod, and_self]
  · exact h.outPtr
  · simp only [RingSession.step, RingBuffer.insert, h.count]
  · intro p hp
    simp only [RingSession.step, RingBuffer.insert, hin, hin', Vector.getElem?_setIfInBounds]
    split
    · rfl
    · next hne =>
      have hp : p < s.inserted + 1 := hp
      apply h.cells p
      have : p ≠ s.inserted := fun he ↦ hne (he ▸ rfl)
      omega

/-- A removal moves both, and returns the same byte if one is pending. -/
theorem remove (h : Alike s s') :
    Alike (s.step .remove).1 (s'.step .remove).1 ∧ (s.step .remove).2 = (s'.step .remove).2 := by
  obtain ⟨hout, hout'⟩ := h.outPtr
  constructor
  · constructor
    · exact h.inserted
    · simp only [RingSession.step, h.removed]
    · exact h.inPtr
    · simp only [RingSession.step, remove_outPtr, hout, hout', wrap_succ_mod, and_self]
    · simp only [RingSession.step, remove_count, h.count]
    · exact h.cells
  · have hpending : s'.pending = s.pending := by
      rw [RingSession.pending, RingSession.pending, h.inserted, h.removed]
    simp only [RingSession.step, hpending]
    split
    · next hp =>
      -- A pending byte stands in a cell that has been written.
      have hcell := h.cells s.removed (by simpa [RingSession.pending] using hp)
      simp only [RingBuffer.remove, removeRead, hout, hout', hcell]
    · rfl

/-- Sessions that are alike stay so and return the same results. -/
theorem step (h : Alike s s') (op : QueueOp UInt8) :
    Alike (s.step op).1 (s'.step op).1 ∧ (s.step op).2 = (s'.step op).2 := by
  cases op with
  | reset => exact ⟨init h.count, rfl⟩
  | insert data => exact ⟨h.insert data, rfl⟩
  | remove => exact h.remove
  | getCount => exact ⟨h, by simp only [RingSession.step, getCount, h.count]⟩
  | isFull => exact ⟨h, by simp only [RingSession.step, isFull, getCount, h.count]⟩
  | isEmpty => exact ⟨h, by simp only [RingSession.step, isEmpty, getCount, h.count]⟩

end Alike

/-- The count is all that initialisation leaves of the past. -/
theorem resets_iff_isEmpty (b : RingBuff bufferSize) : Resets b ↔ isEmpty b = true := by
  constructor
  · rintro ⟨-, hempty, -⟩
    exact hempty
  · intro hempty
    have hcount : b.count = 0 := beq_iff_eq.mp hempty
    refine ⟨hcount, hempty, fun ops ↦ ?_⟩
    have hall : (machine (initBuffer b)).Meets (fun _ _ _ ↦ True) ops := fun _ _ _ ↦ trivial
    have hbase : Alike ⟨initBuffer b, 0, 0⟩ ⟨fresh bufferSize, 0, 0⟩ := .init hcount.symm
    exact (Machine.simulation hbase (fun _ _ _ op h _ ↦ h.step op) hall).2

/-- Over any history, initialisations included, the count follows the two totals. -/
private theorem counts_history (bufferSize : Nat) (history : List (QueueOp UInt8)) :
    Counts ((machine (powerUp bufferSize)).state history).ring.count
      (inserted history).length (removals history) := by
  induction history using List.reverseRecOn with
  | nil => exact Counts.zero
  | append_singleton history op ih =>
    rw [Machine.state_concat, inserted_append, removals_append, List.length_append]
    cases op with
    | insert data => exact ih.increment
    | remove => exact ih.decrement
    | reset | getCount | isFull | isEmpty => exact ih

/-- A ring of any history is reset by `RingBuffer_InitBuffer` exactly when its count is zero
before the call, that is when as many bytes were removed as inserted, modulo 256. -/
theorem initBuffer_resets_iff (bufferSize : Nat) (history : List (QueueOp UInt8)) :
    (Resets ((machine (powerUp bufferSize)).state history).ring ↔
        isEmpty ((machine (powerUp bufferSize)).state history).ring = true) ∧
      (isEmpty ((machine (powerUp bufferSize)).state history).ring = true ↔
        (inserted history).length % 256 = removals history % 256) := by
  refine ⟨resets_iff_isEmpty _, ?_⟩
  have hcounts := counts_history bufferSize history
  have hlt := ((machine (powerUp bufferSize)).state history).ring.count.toNat_lt
  unfold Counts at hcounts
  rw [isEmpty, getCount, beq_iff_eq, ← UInt8.toNat_inj, UInt8.toNat_zero]
  omega

/-- With one byte pending, the initialised ring still counts it. -/
theorem initBuffer_pending_fails :
    ¬ Resets ((machine (powerUp 128)).state [.reset, .insert 7]).ring := by
  rintro ⟨hcount, -⟩
  revert hcount
  decide +kernel

end RingBuffer

end MouseAide.Firmware
