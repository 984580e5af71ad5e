import MouseAide.Firmware.Steps

/-!
# The receive path of the 16U2

Library `MouseFirmware`. What `ISR(USART1_RX_vect)` inserts, what the main loop removes and
what it assigns, `arduino_mouse_16u2/Mouse.c:79–92,191–196`. `receive_cases` says once what
a step can do to the receive side; the byte accounts hold for every interleaving, however
far the main loop falls behind.
-/

namespace MouseAide.Firmware

open MouseAide.Base

/-! ### The receive side of a trace -/

/-- Bytes the receive interrupt inserted. -/
def accepted (o : List Obs) : List UInt8 :=
  o.filterMap fun | .accepted b => some b | _ => none

/-- Bytes the receive interrupt took, each with whether it was inserted or dropped. -/
def received (o : List Obs) : List (UInt8 × Bool) :=
  o.filterMap fun | .accepted b => some (b, true) | .dropped b => some (b, false) | _ => none

/-- Bytes read from `*Out`, each with its place in a frame. -/
def reads (o : List Obs) : List (Fin 4 × UInt8) :=
  o.filterMap fun | .read ind b => some (ind, b) | _ => none

/-- Triples assigned to `mouseReport`. -/
def assigned (o : List Obs) : List MouseReportData :=
  o.filterMap fun | .assigned r => some r | _ => none

@[simp] theorem accepted_nil : accepted [] = [] := rfl

@[simp] theorem received_nil : received [] = [] := rfl

@[simp] theorem reads_nil : reads [] = [] := rfl

@[simp] theorem assigned_nil : assigned [] = [] := rfl

@[simp] theorem accepted_cons (x : Obs) (o : List Obs) :
    accepted (x :: o) = (match x with | .accepted b => [b] | _ => []) ++ accepted o := by
  cases x <;> rfl

@[simp] theorem received_cons (x : Obs) (o : List Obs) :
    received (x :: o) =
      (match x with | .accepted b => [(b, true)] | .dropped b => [(b, false)] | _ => []) ++
        received o := by
  cases x <;> rfl

@[simp] theorem reads_cons (x : Obs) (o : List Obs) :
    reads (x :: o) = (match x with | .read ind b => [(ind, b)] | _ => []) ++ reads o := by
  cases x <;> rfl

@[simp] theorem assigned_cons (x : Obs) (o : List Obs) :
    assigned (x :: o) = (match x with | .assigned r => [r] | _ => []) ++ assigned o := by
  cases x <;> rfl

@[simp] theorem accepted_append (o o' : List Obs) :
    accepted (o ++ o') = accepted o ++ accepted o' :=
  List.filterMap_append

@[simp] theorem received_append (o o' : List Obs) :
    received (o ++ o') = received o ++ received o' :=
  List.filterMap_append

@[simp] theorem reads_append (o o' : List Obs) : reads (o ++ o') = reads o ++ reads o' :=
  List.filterMap_append

@[simp] theorem assigned_append (o o' : List Obs) :
    assigned (o ++ o') = assigned o ++ assigned o' :=
  List.filterMap_append

/-- The inserted bytes are those of the received ones that were not dropped. -/
theorem accepted_eq_filter (o : List Obs) :
    accepted o = ((received o).filter (·.2)).map (·.1) := by
  induction o with
  | nil => rfl
  | cons x o ih =>
    rw [accepted_cons, received_cons, ih]
    cases x <;> rfl

/-- Bytes that arrive on the serial line in a run. -/
def rxBytes (events : List Event) : List UInt8 :=
  events.filterMap fun | .usart1Rx b => some b | _ => none

@[simp] theorem rxBytes_append (events events' : List Event) :
    rxBytes (events ++ events') = rxBytes events ++ rxBytes events' :=
  List.filterMap_append

/-- Observations that say nothing about the receive side. -/
structure Unrelated (o : List Obs) : Prop where
  accepted_eq : accepted o = []
  received_eq : received o = []
  reads_eq : reads o = []
  assigned_eq : assigned o = []

/-! ### What a step does to the receive side -/

/-- The receive-side cases of a step, each with its guard and its whole effect. -/
inductive ReceiveStep (s : Mcu) : Event → Mcu × List Obs → Prop where
  | insert (b : UInt8) (configured : s.usb.deviceState = .configured) :
      ReceiveStep s (.usart1Rx b)
        ({ s with ring := RingBuffer.insert s.ring b }, [.accepted b])
  | drop (b : UInt8) (configured : s.usb.deviceState ≠ .configured) :
      ReceiveStep s (.usart1Rx b) (s, [.dropped b])
  | other {e : Event} {s' : Mcu} {o : List Obs} (rx : rxBytes [e] = [])
      (ring : s'.ring = s.ring) (newReport : s'.newReport = s.newReport)
      (mouseReport : s'.mouseReport = s.mouseReport)
      (pc : s'.pc = s.pc ∨ s.pc.extracting = false ∧ s'.pc.extracting = false)
      (obs : Unrelated o) : ReceiveStep s e (s', o)
  | claim (hw : Hardware) (pc : s.pc = .getCount) (count : 4 ≤ RingBuffer.getCount s.ring) :
      ReceiveStep s (.main hw)
        ({ s with pc := .remove 0 .read }, [.counted (RingBuffer.getCount s.ring)])
  | remove (hw : Hardware) (ind : Fin 4) (removal : Removal) (pc : s.pc = .remove ind removal) :
      ReceiveStep s (.main hw) (removeStep ind removal s)
  | assignButton (hw : Hardware) (pc : s.pc = .assignButton) :
      ReceiveStep s (.main hw)
        ({ s with mouseReport.button := s.newReport.button, pc := .assignX }, [])
  | assignX (hw : Hardware) (pc : s.pc = .assignX) :
      ReceiveStep s (.main hw) ({ s with mouseReport.x := s.newReport.x, pc := .assignY }, [])
  | assignY (hw : Hardware) (pc : s.pc = .assignY) :
      ReceiveStep s (.main hw) ({ s with mouseReport.y := s.newReport.y, pc := .hidTask },
        [.assigned { s.mouseReport with y := s.newReport.y }])

/-- Control replies are no part of the receive side. -/
private theorem Plain.unrelated {o : List Obs} (h : Plain o) : Unrelated o := by
  obtain rfl | ⟨v, rfl⟩ := h
  · exact ⟨rfl, rfl, rfl, rfl⟩
  · exact ⟨rfl, rfl, rfl, rfl⟩

/-- Every event, seen from the receive side. -/
theorem receive_cases (s : Mcu) (e : Event) : ReceiveStep s e (step s e) := by
  have hcases := step_cases s e
  generalize Firmware.step s e = r at *
  cases hcases with
  | insert b configured => exact .insert b configured
  | drop b configured => exact .drop b configured
  | interrupt f usb hid => exact .other rfl rfl rfl rfl (.inl rfl) ⟨rfl, rfl, rfl, rfl⟩
  | pass hw usb hid before after obs =>
    exact .other rfl rfl rfl rfl (.inr ⟨Pc.idle_of_passing before, after.1⟩) obs.unrelated
  | claim hw pc count => exact .claim hw pc count
  | decline hw pc _ =>
    exact .other rfl rfl rfl rfl (.inr ⟨by rw [pc]; rfl, rfl⟩) ⟨rfl, rfl, rfl, rfl⟩
  | remove hw ind removal pc => exact .remove hw ind removal pc
  | assignButton hw pc => exact .assignButton hw pc
  | assignX hw pc => exact .assignX hw pc
  | assignY hw pc => exact .assignY hw pc
  -- The host side of the task runs between two extractions.
  | create hw pc =>
    exact .other rfl rfl rfl rfl (.inr ⟨by rw [pc]; rfl, rfl⟩) ⟨rfl, rfl, rfl, rfl⟩
  | send hw data pc =>
    exact .other rfl rfl rfl rfl (.inr ⟨by rw [pc]; rfl, rfl⟩) ⟨rfl, rfl, rfl, rfl⟩
  | suppress hw data pc =>
    exact .other rfl rfl rfl rfl (.inr ⟨by rw [pc]; rfl, rfl⟩) ⟨rfl, rfl, rfl, rfl⟩
  | getReport hw r pc setup hid =>
    exact .other rfl rfl rfl rfl (.inr ⟨by rw [pc]; rfl, rfl⟩) ⟨rfl, rfl, rfl, rfl⟩

/-! ### The byte accounts -/

/-- Calls of `RingBuffer_Remove` completed for the frame being extracted. -/
def Pc.removed : Pc → Nat
  | .remove ind _ => ind
  | .assignButton | .assignX | .assignY => 4
  | _ => 0

/-- Bytes of the frame being extracted that have been read from `*Out`. -/
def Pc.taken : Pc → Nat
  | .remove ind .read => ind
  | .remove ind _ => ind + 1
  | .assignButton | .assignX | .assignY => 4
  | _ => 0

/-- Bytes the extraction in progress is entitled to. -/
def Pc.claimed (pc : Pc) : Nat := if pc.extracting then 4 else 0

/-- Position of `Out` after `removed` completed removals, at each point of the next one. -/
def Pc.outAt (removed : Nat) : Pc → Nat
  | .remove _ (.wrap _) => removed % 128 + 1
  | .remove _ (.decrement _) => (removed + 1) % 128
  | _ => removed % 128

/-- An idle main loop has claimed, taken and removed nothing. -/
theorem Pc.idle {pc : Pc} (h : pc.extracting = false) :
    pc.removed = 0 ∧ pc.taken = 0 ∧ pc.claimed = 0 ∧ ∀ n, pc.outAt n = n % 128 := by
  cases pc with
  | remove _ _ | assignButton | assignX | assignY => cases h
  | _ => exact ⟨rfl, rfl, rfl, fun _ ↦ rfl⟩

/-- No extraction takes more than it has claimed. -/
theorem Pc.taken_le_claimed (pc : Pc) : pc.taken ≤ pc.claimed := by
  cases pc with
  | remove ind removal =>
    have hind := ind.isLt
    cases removal <;> simp only [Pc.taken, Pc.claimed, Pc.extracting, if_true] <;> omega
  | _ => simp [Pc.taken, Pc.claimed, Pc.extracting]

/-- The running totals of the receive path at a program point, for the stream inserted so
far and the numbers of frames assigned and of bytes read. `Count` follows the completed
removals modulo 256, `Out` the reads modulo 128, and a frame is only claimed when its four
bytes are there. -/
structure Balanced (ring : RingBuff 128) (pc : Pc) (stream : List UInt8)
    (frames bytesRead : Nat) : Prop where
  stores : RingBuffer.Stores ring stream
  counts : RingBuffer.Counts ring.count stream.length (4 * frames + pc.removed)
  out : ring.outPtr = pc.outAt (4 * frames + pc.removed)
  taken : bytesRead = 4 * frames + pc.taken
  claimed : 4 * frames + pc.claimed ≤ stream.length

namespace Balanced

variable {ring : RingBuff 128} {pc pc' : Pc} {stream : List UInt8} {frames bytesRead : Nat}

/-- An initialised ring is balanced. -/
theorem start (b : RingBuff 128) (h : b.count = 0) :
    Balanced (RingBuffer.initBuffer b) .getCount [] 0 0 where
  stores := RingBuffer.Stores.init b
  counts := h ▸ RingBuffer.Counts.zero
  out := rfl
  taken := rfl
  claimed := Nat.le_refl 0

/-- Going on from one idle point to another changes no total. -/
theorem idle (h : Balanced ring pc stream frames bytesRead) (hpc : pc.extracting = false)
    (hpc' : pc'.extracting = false) : Balanced ring pc' stream frames bytesRead := by
  obtain ⟨hr, ht, hc, ho⟩ := Pc.idle hpc
  obtain ⟨hr', ht', hc', ho'⟩ := Pc.idle hpc'
  obtain ⟨h1, h2, h3, h4, h5⟩ := h
  rw [hr] at h2
  rw [hr, ho] at h3
  rw [ht] at h4
  rw [hc] at h5
  exact ⟨h1, by rw [hr']; exact h2, by rw [hr', ho']; exact h3, by rw [ht']; exact h4,
    by rw [hc']; exact h5⟩

/-- The interrupt inserts a byte wherever the main loop is. -/
theorem insert (h : Balanced ring pc stream frames bytesRead) (b : UInt8) :
    Balanced (RingBuffer.insert ring b) pc (stream ++ [b]) frames bytesRead := by
  have hlen : (stream ++ [b]).length = stream.length + 1 := List.length_append
  constructor
  · exact h.stores.insert (by decide) b
  · rw [hlen]
    exact h.counts.increment
  · exact h.out
  · exact h.taken
  · have := h.claimed
    omega

/-- A count of four proves that the next frame is there. -/
theorem claim (h : Balanced ring .getCount stream frames bytesRead)
    (hc : 4 ≤ RingBuffer.getCount ring) :
    Balanced ring (.remove 0 .read) stream frames bytesRead := by
  refine ⟨h.stores, h.counts, h.out, h.taken, ?_⟩
  exact h.counts.le_of_le h.claimed hc

/-- The read takes one more byte. -/
theorem read {ind : Fin 4} (h : Balanced ring (.remove ind .read) stream frames bytesRead)
    (data : UInt8) :
    Balanced ring (.remove ind (.advance data)) stream frames (bytesRead + 1) :=
  ⟨h.stores, h.counts, h.out, congrArg (· + 1) h.taken, h.claimed⟩

/-- The pointer advances. -/
theorem advance {ind : Fin 4} {data : UInt8}
    (h : Balanced ring (.remove ind (.advance data)) stream frames bytesRead) :
    Balanced (RingBuffer.removeAdvance ring) (.remove ind (.wrap data)) stream frames
      bytesRead :=
  ⟨h.stores.congr rfl rfl, h.counts, congrArg (· + 1) h.out, h.taken, h.claimed⟩

/-- The pointer wraps. -/
theorem wrap {ind : Fin 4} {data : UInt8}
    (h : Balanced ring (.remove ind (.wrap data)) stream frames bytesRead) :
    Balanced (RingBuffer.removeWrap ring) (.remove ind (.decrement data)) stream frames
      bytesRead := by
  refine ⟨h.stores.congr rfl rfl, h.counts, ?_, h.taken, h.claimed⟩
  rw [RingBuffer.removeWrap, h.out]
  exact RingBuffer.wrap_succ_mod 128 _

/-- The count catches up, and the next byte of the frame is due. -/
theorem decrement {ind : Fin 4} {data : UInt8}
    (h : Balanced ring (.remove ind (.decrement data)) stream frames bytesRead) :
    Balanced (RingBuffer.removeDecrement ring) (afterRemove ind) stream frames bytesRead := by
  have hc := h.counts.decrement
  have hs : RingBuffer.Stores (RingBuffer.removeDecrement ring) stream := h.stores.congr rfl rfl
  match ind with
  | 0 => exact ⟨hs, hc, h.out, h.taken, h.claimed⟩
  | 1 => exact ⟨hs, hc, h.out, h.taken, h.claimed⟩
  | 2 => exact ⟨hs, hc, h.out, h.taken, h.claimed⟩
  | 3 => exact ⟨hs, hc, h.out, h.taken, h.claimed⟩

/-- The last assignment closes the frame. -/
theorem assign (h : Balanced ring .assignY stream frames bytesRead) :
    Balanced ring .hidTask stream (frames + 1) bytesRead :=
  ⟨h.stores, h.counts, h.out, h.taken, h.claimed⟩

end Balanced

/-- The totals of a trace are balanced at the program point of a state. -/
def Accounting (s : Mcu) (o : List Obs) : Prop :=
  Balanced s.ring s.pc (accepted o) (assigned o).length (reads o).length

/-- Every step keeps the accounts. -/
theorem Accounting.step {s : Mcu} {o : List Obs} (h : Accounting s o) (e : Event) :
    Accounting (step s e).1 (o ++ (step s e).2) := by
  have hcases := receive_cases s e
  unfold Accounting at *
  generalize Firmware.step s e = r at *
  cases hcases with
  | other _ ring _ _ pc obs =>
    simp only [accepted_append, reads_append, assigned_append, obs.accepted_eq, obs.reads_eq,
      obs.assigned_eq, List.append_nil, ring]
    rcases pc with hpc | ⟨h1, h2⟩
    · rw [hpc]
      exact h
    · exact h.idle h1 h2
  | insert b _ => simpa using h.insert b
  | drop b _ => simpa using h
  | claim _ pc count =>
    rw [pc] at h
    simpa using h.claim count
  | remove _ ind removal pc =>
    rw [pc] at h
    cases removal with
    | read => simpa [removeStep] using h.read _
    | advance data => simpa [removeStep] using h.advance
    | wrap data => simpa [removeStep] using h.wrap
    | decrement data => simpa [removeStep] using h.decrement
  | assignButton _ pc =>
    rw [pc] at h
    simpa using ⟨h.stores, h.counts, h.out, h.taken, h.claimed⟩
  | assignX _ pc =>
    rw [pc] at h
    simpa using ⟨h.stores, h.counts, h.out, h.taken, h.claimed⟩
  | assignY _ pc =>
    rw [pc] at h
    simpa using h.assign

/-- The accounts balance after every run. -/
theorem accounting (events : List Event) :
    Accounting (firmware.state events) (firmware.trace events) :=
  Machine.invariant_all (Balanced.start _ rfl) (fun _ _ e h ↦ h.step e) events

/-- At a read the next byte of the frame is there, and `Out` stands at its residue. -/
theorem Accounting.at_read {s : Mcu} {o : List Obs} {ind : Fin 4} (h : Accounting s o)
    (hpc : s.pc = .remove ind .read) :
    (reads o).length % 4 = ind ∧ (reads o).length < (accepted o).length ∧
      s.ring.outPtr = (reads o).length % 128 := by
  unfold Accounting at h
  rw [hpc] at h
  have htaken : (reads o).length = 4 * (assigned o).length + ind := h.taken
  have hclaimed : 4 * (assigned o).length + 4 ≤ (accepted o).length := h.claimed
  have hind := ind.isLt
  refine ⟨by omega, by omega, ?_⟩
  rw [htaken]
  exact h.out

/-! ### Where the bytes come from -/

/-- `USB_DeviceState` is Configured whenever a byte arrives. -/
def ConfiguredAtRx (s : Mcu) (_ : List Obs) (e : Event) : Prop :=
  ∀ b, e = .usart1Rx b → s.usb.deviceState = .configured

instance (s : Mcu) (o : List Obs) : (e : Event) → Decidable (ConfiguredAtRx s o e)
  | .usart1Rx _ => decidable_of_iff (s.usb.deviceState = .configured)
      ⟨fun h _ _ ↦ h, fun h ↦ h _ rfl⟩
  | .usbGen _ => isTrue fun _ h ↦ nomatch h
  | .main _ => isTrue fun _ h ↦ nomatch h

/-- The accepted bytes not yet read fit the ring. -/
def NoOverrun (_ : Mcu) (o : List Obs) : Prop := (accepted o).length ≤ (reads o).length + 128

instance (s : Mcu) (o : List Obs) : Decidable (NoOverrun s o) :=
  inferInstanceAs (Decidable (_ ≤ _))

/-- With the device Configured at every byte, every byte is accepted. -/
theorem accepted_eq_rxBytes {events : List Event} (h : firmware.Meets ConfiguredAtRx events) :
    accepted (firmware.trace events) = rxBytes events := by
  induction events using List.reverseRecOn with
  | nil => rfl
  | append_singleton events e ih =>
    have ih := ih (h.of_prefix (List.prefix_append _ _))
    have hlast := h.last
    rw [Machine.trace_concat, accepted_append, ih, rxBytes_append]
    congr 1
    have hcases := receive_cases (firmware.state events) e
    generalize hr : step (firmware.state events) e = r at hcases
    change accepted (step (firmware.state events) e).2 = _
    rw [hr]
    cases hcases with
    | insert b _ => rfl
    | drop b hb => exact absurd (hlast b rfl) hb
    | other rx _ _ _ _ obs => exact obs.accepted_eq.trans rx.symm
    | claim _ _ _ => rfl
    | remove _ ind removal _ => cases removal <;> rfl
    | assignButton _ _ => rfl
    | assignX _ _ => rfl
    | assignY _ _ => rfl

/-! ### The exact count -/

/-- Bytes read from `*Out` whose `Count--` is still to come. -/
def Pc.ahead : Pc → Nat
  | .remove _ .read => 0
  | .remove _ _ => 1
  | _ => 0

theorem Pc.taken_eq (pc : Pc) : pc.taken = pc.removed + pc.ahead := by
  cases pc with
  | remove ind removal => cases removal <;> rfl
  | _ => rfl

theorem Pc.ahead_le_one (pc : Pc) : pc.ahead ≤ 1 := by
  unfold Pc.ahead
  split <;> decide

/-- Without overrun the count is the number of unread bytes, and one more while the byte
just read is still counted. -/
theorem Accounting.count_eq {s : Mcu} {o : List Obs} (h : Accounting s o) (hroom : NoOverrun s o) :
    s.ring.count.toNat + (reads o).length = (accepted o).length + s.pc.ahead := by
  have hroom : (accepted o).length ≤ (reads o).length + 128 := hroom
  have htaken := h.taken
  have hclaimed := h.claimed
  have hle := s.pc.taken_le_claimed
  have hahead := s.pc.taken_eq
  have hone := s.pc.ahead_le_one
  have hcount := h.counts.eq_of_lt (by omega) (by omega)
  omega

/-- At an evaluation of the count the main loop has nothing half read. -/
theorem Accounting.count_at_getCount {s : Mcu} {o : List Obs} (h : Accounting s o)
    (hroom : NoOverrun s o) (hpc : s.pc = .getCount) :
    (RingBuffer.getCount s.ring).toNat + (reads o).length = (accepted o).length := by
  have hcount := h.count_eq hroom
  rw [hpc] at hcount
  exact hcount

end MouseAide.Firmware
