import MouseAide.Base.Circular
import Mathlib.Data.Vector.Basic

/-!
# The lightweight ring buffer

Library `MouseFirmware`. `arduino_mouse_16u2/Lib/LightweightRingBuff.h:46–195` for any
`BUFFER_SIZE` up to 255, which selects the 8-bit `Count`. `In` and `Out` are offsets from
`Buffer`; the offset `BUFFER_SIZE` is the end pointer both wraps compare with.
`RingBuffer_Remove` is also kept as its four statements, since an interrupt may run
between any two of them.
-/

namespace MouseAide.Firmware

open MouseAide.Base

/-- `RingBuff_t`, `LightweightRingBuff.h:70–75`. -/
structure RingBuff (bufferSize : Nat) where
  buffer : Vector UInt8 bufferSize
  inPtr : Nat
  outPtr : Nat
  count : UInt8
  deriving DecidableEq, Repr

namespace RingBuffer

variable {bufferSize : Nat}

/-- The zeroed storage of a reset; its pointers are meaningless before `initBuffer`. -/
def powerUp (bufferSize : Nat) : RingBuff bufferSize :=
  ⟨Vector.replicate bufferSize 0, 0, 0, 0⟩

/-- `RingBuffer_InitBuffer`, `LightweightRingBuff.h:85–92`: both pointers, and no count. -/
def initBuffer (b : RingBuff bufferSize) : RingBuff bufferSize :=
  { b with inPtr := 0, outPtr := 0 }

/-- `RingBuffer_GetCount`, `LightweightRingBuff.h:107–117`. -/
def getCount (b : RingBuff bufferSize) : UInt8 := b.count

/-- `RingBuffer_IsFull`, `LightweightRingBuff.h:127–130`. -/
def isFull (b : RingBuff bufferSize) : Bool := (getCount b).toNat == bufferSize

/-- `RingBuffer_IsEmpty`, `LightweightRingBuff.h:144–147`. -/
def isEmpty (b : RingBuff bufferSize) : Bool := getCount b == 0

/-- The wrap both pointers share: the end pointer becomes the start of the storage. -/
def wrap (bufferSize ptr : Nat) : Nat := if ptr = bufferSize then 0 else ptr

/-- `RingBuffer_Insert`, `LightweightRingBuff.h:158–171`. -/
def insert (b : RingBuff bufferSize) (data : UInt8) : RingBuff bufferSize :=
  { buffer := b.buffer.setIfInBounds b.inPtr data
    inPtr := wrap bufferSize (b.inPtr + 1)
    outPtr := b.outPtr
    count := b.count + 1 }

/-- `RingBuff_Data_t Data = *Buffer->Out`, `LightweightRingBuff.h:184`. -/
def removeRead (b : RingBuff bufferSize) : UInt8 := b.buffer[b.outPtr]?.getD 0

/-- `++Buffer->Out`, `LightweightRingBuff.h:186`. -/
def removeAdvance (b : RingBuff bufferSize) : RingBuff bufferSize :=
  { b with outPtr := b.outPtr + 1 }

/-- The wrap of `Out` at the end of the storage, `LightweightRingBuff.h:186–187`. -/
def removeWrap (b : RingBuff bufferSize) : RingBuff bufferSize :=
  { b with outPtr := wrap bufferSize b.outPtr }

/-- `Buffer->Count--`, `LightweightRingBuff.h:189–192`. -/
def removeDecrement (b : RingBuff bufferSize) : RingBuff bufferSize :=
  { b with count := b.count - 1 }

/-- `RingBuffer_Remove`, `LightweightRingBuff.h:182–195`, with nothing in between. -/
def remove (b : RingBuff bufferSize) : UInt8 × RingBuff bufferSize :=
  (removeRead b, removeDecrement (removeWrap (removeAdvance b)))

@[simp] theorem remove_outPtr (b : RingBuff bufferSize) :
    (remove b).2.outPtr = wrap bufferSize (b.outPtr + 1) := rfl

@[simp] theorem remove_count (b : RingBuff bufferSize) : (remove b).2.count = b.count - 1 := rfl

/-- Stepping a residue and wrapping it is stepping the counter, for every size. -/
theorem wrap_succ_mod (n k : Nat) : wrap n (k % n + 1) = (k + 1) % n := by
  rw [← Nat.mod_add_mod k n 1]
  unfold wrap
  split
  · next h => rw [h, Nat.mod_self]
  · next h =>
    rcases Nat.eq_zero_or_pos n with rfl | hn
    · rw [Nat.mod_zero, Nat.mod_zero]
    · have hlt := Nat.mod_lt k hn
      exact (Nat.mod_eq_of_lt (by omega)).symm

/-- The 8-bit count is the difference of two running totals, whatever their size. -/
def Counts (count : UInt8) (inserted removed : Nat) : Prop :=
  (count.toNat + removed) % 256 = inserted % 256

/-- A fresh count agrees with equal totals. -/
theorem Counts.zero : Counts 0 0 0 := rfl

/-- Incrementing the count is one more item inserted. -/
theorem Counts.increment {count : UInt8} {i r : Nat} (h : Counts count i r) :
    Counts (count + 1) (i + 1) r := by
  unfold Counts at h ⊢
  rw [UInt8.toNat_add]
  have : (1 : UInt8).toNat = 1 := rfl
  omega

/-- Decrementing the count is one more item removed. -/
theorem Counts.decrement {count : UInt8} {i r : Nat} (h : Counts count i r) :
    Counts (count - 1) i (r + 1) := by
  unfold Counts at h ⊢
  rw [UInt8.toNat_sub]
  have : (1 : UInt8).toNat = 1 := rfl
  have := count.toNat_lt
  omega

/-- A count of at least `k` proves that at least `k` items are there to remove. -/
theorem Counts.le_of_le {count : UInt8} {i r k : Nat} (h : Counts count i r) (hr : r ≤ i)
    (hk : k ≤ count.toNat) : r + k ≤ i := by
  unfold Counts at h
  have := count.toNat_lt
  omega

/-- While fewer than 256 items are there, the count is their exact number. -/
theorem Counts.eq_of_lt {count : UInt8} {i r : Nat} (h : Counts count i r) (hr : r ≤ i)
    (hlt : i - r < 256) : count.toNat = i - r := by
  unfold Counts at h
  have := count.toNat_lt
  omega

/-- The cells of a ring as a store. -/
def cell (b : RingBuff bufferSize) (i : Nat) : Option UInt8 := b.buffer[i]?

/-- `In` stands at the residue of the stream, and the last items are in their cells. -/
structure Stores (b : RingBuff bufferSize) (stream : List UInt8) : Prop where
  inPtr_eq : b.inPtr = stream.length % bufferSize
  holds : Holds bufferSize (cell b) stream

/-- An initialised ring stores the empty stream. -/
theorem Stores.init (b : RingBuff bufferSize) : Stores (initBuffer b) [] :=
  ⟨(Nat.zero_mod _).symm, Holds.nil⟩

/-- Inserting a byte appends it to the stream, full or not. -/
theorem Stores.insert {b : RingBuff bufferSize} {stream : List UInt8} (h : Stores b stream)
    (hn : 0 < bufferSize) (data : UInt8) : Stores (insert b data) (stream ++ [data]) := by
  have hlt := Nat.mod_lt stream.length hn
  constructor
  · simp only [RingBuffer.insert, h.inPtr_eq, wrap_succ_mod, List.length_append,
      List.length_cons, List.length_nil, Nat.zero_add]
  · apply h.holds.push
    · simp [cell, RingBuffer.insert, h.inPtr_eq, hlt]
    · intro i hi
      simp [cell, RingBuffer.insert, h.inPtr_eq, Ne.symm hi]

/-- Only the cells and `In` matter for what is stored. -/
theorem Stores.congr {b b' : RingBuff bufferSize} {stream : List UInt8} (h : Stores b stream)
    (hb : b'.buffer = b.buffer) (hi : b'.inPtr = b.inPtr) : Stores b' stream := by
  obtain ⟨h1, h2⟩ := h
  refine ⟨hi.trans h1, ?_⟩
  intro p x hx hp
  have := h2 p x hx hp
  simpa [cell, hb] using this

/-- `*Out` at the residue of `r` is item `r`, while the stream is at most a buffer ahead. -/
theorem Stores.removeRead_recent {b : RingBuff bufferSize} {stream : List UInt8} {r : Nat}
    (h : Stores b stream) (hout : b.outPtr = r % bufferSize) (hr : r < stream.length)
    (hn : stream.length ≤ r + bufferSize) : stream[r]? = some (removeRead b) := by
  have hcell := h.holds.read_recent hr hn
  rw [List.getElem?_eq_getElem hr] at hcell ⊢
  rw [removeRead, hout]
  change b.buffer[r % bufferSize]? = _ at hcell
  rw [hcell, Option.getD_some]

/-- `*Out` at the residue of `r` is an item of that residue, however far ahead the stream is. -/
theorem Stores.removeRead_lapped {b : RingBuff bufferSize} {stream : List UInt8} {r : Nat}
    (h : Stores b stream) (hn : 0 < bufferSize) (hout : b.outPtr = r % bufferSize)
    (hr : r < stream.length) :
    ∃ p, p % bufferSize = r % bufferSize ∧ stream[p]? = some (removeRead b) := by
  obtain ⟨p, hp, he, hcell⟩ := h.holds.read_lapped hn hr
  refine ⟨p, he, ?_⟩
  rw [List.getElem?_eq_getElem hp] at hcell ⊢
  rw [removeRead, hout]
  change b.buffer[r % bufferSize]? = _ at hcell
  rw [hcell, Option.getD_some]

end RingBuffer

end MouseAide.Firmware
