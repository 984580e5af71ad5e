import MouseAide.Base.Backlog
import MouseAide.Firmware.Receive

/-!
# Overrun of the receive ring

Library `MouseFirmware`. `ISR(USART1_RX_vect)` inserts without asking `RingBuffer_IsFull`,
`arduino_mouse_16u2/Mouse.c:191–196`, so a byte that arrives while 128 accepted bytes are
unread is stored over the oldest of them. That is the only way to lose one, and a bound on
the arrivals between the evaluations of `RingBuffer_GetCount` excludes it.
-/

namespace MouseAide.Firmware

open MouseAide.Base

/-! ### Bytes stored over unread ones -/

/-- A step accepts a byte only as a receive interrupt in the Configured state. -/
theorem accepted_step (s : Mcu) (e : Event) :
    accepted (step s e).2 = [] ∨
      ∃ b, e = .usart1Rx b ∧ s.usb.deviceState = .configured ∧ accepted (step s e).2 = [b] := by
  have hcases := receive_cases s e
  generalize Firmware.step s e = r at *
  cases hcases with
  | insert b configured => exact Or.inr ⟨b, rfl, configured, rfl⟩
  | other _ _ _ _ _ obs => exact Or.inl obs.accepted_eq
  | remove _ ind removal _ => cases removal <;> exact Or.inl rfl
  | _ => exact Or.inl rfl

/-- Every accepted byte was accepted at some step of the run. -/
theorem exists_acceptance {events : List Event} {k : Nat}
    (hk : k < (accepted (firmware.trace events)).length) :
    ∃ pre b mid, events = pre ++ [.usart1Rx b] ++ mid ∧
      (firmware.state pre).usb.deviceState = .configured ∧
        (accepted (firmware.trace pre)).length = k := by
  induction events using List.reverseRecOn with
  | nil => exact absurd hk (Nat.not_lt_zero k)
  | append_singleton events e ih =>
    rw [Machine.trace_concat, accepted_append, List.length_append] at hk
    change _ < _ + (accepted (step _ _).2).length at hk
    by_cases hlt : k < (accepted (firmware.trace events)).length
    · obtain ⟨pre, b, mid, rfl, hconf, hlen⟩ := ih hlt
      exact ⟨pre, b, mid ++ [e], by simp, hconf, hlen⟩
    · rcases accepted_step (firmware.state events) e with hnone | ⟨b, rfl, hconf, hone⟩
      · rw [hnone, List.length_nil] at hk
        omega
      · rw [hone, List.length_singleton] at hk
        exact ⟨events, b, [], (List.append_nil _).symm, hconf, by omega⟩

/-- No accepted byte is overwritten unread: when the interrupt stores at the same `In` as for
an earlier byte, the main loop has made more reads than there were bytes before that one. -/
def NoOverwrite (events : List Event) : Prop :=
  ∀ pre b mid b', pre ++ [.usart1Rx b] ++ mid ++ [.usart1Rx b'] <+: events →
    (firmware.state pre).usb.deviceState = .configured →
      (firmware.state (pre ++ [.usart1Rx b] ++ mid)).usb.deviceState = .configured →
        (firmware.state (pre ++ [.usart1Rx b] ++ mid)).ring.inPtr =
            (firmware.state pre).ring.inPtr →
          (accepted (firmware.trace pre)).length <
            (reads (firmware.trace (pre ++ [.usart1Rx b] ++ mid))).length

/-- `In` stands at the residue of the number of bytes accepted. -/
theorem inPtr_eq (events : List Event) :
    (firmware.state events).ring.inPtr = (accepted (firmware.trace events)).length % 128 :=
  (accounting events).stores.inPtr_eq

private theorem accepted_length_mono {pre events : List Event} (h : pre <+: events) :
    (accepted (firmware.trace pre)).length ≤ (accepted (firmware.trace events)).length :=
  ((firmware.trace_mono h).filterMap _).length_le

private theorem reads_length_mono {pre events : List Event} (h : pre <+: events) :
    (reads (firmware.trace pre)).length ≤ (reads (firmware.trace events)).length :=
  ((firmware.trace_mono h).filterMap _).length_le

/-- A byte received in the Configured state is one more byte accepted, and none read. -/
theorem lengths_rx {events : List Event} (b : UInt8)
    (hconf : (firmware.state events).usb.deviceState = .configured) :
    (accepted (firmware.trace (events ++ [.usart1Rx b]))).length =
        (accepted (firmware.trace events)).length + 1 ∧
      (reads (firmware.trace (events ++ [.usart1Rx b]))).length =
        (reads (firmware.trace events)).length := by
  have hstep : (firmware.step (firmware.state events) (.usart1Rx b)).2 = [.accepted b] := by
    change (usart1Rx b _).2 = _
    rw [usart1Rx, if_pos hconf]
  rw [Machine.trace_concat, accepted_append, reads_append, hstep]
  exact ⟨List.length_append, congrArg _ (List.append_nil _)⟩

/-- Any other step accepts nothing, and never takes a read back. -/
theorem lengths_quiet {events : List Event} {e : Event}
    (h : accepted (step (firmware.state events) e).2 = []) :
    (accepted (firmware.trace (events ++ [e]))).length =
        (accepted (firmware.trace events)).length ∧
      (reads (firmware.trace events)).length ≤
        (reads (firmware.trace (events ++ [e]))).length := by
  refine ⟨?_, reads_length_mono (List.prefix_append events [e])⟩
  rw [Machine.trace_concat, accepted_append]
  exact congrArg List.length ((congrArg _ h).trans (List.append_nil _))

/-- A byte that arrives at a ring full of unread bytes is stored over the oldest of them. -/
private theorem room_of_noOverwrite {events : List Event} {b' : UInt8}
    (h : NoOverwrite (events ++ [.usart1Rx b'])) (hroom : firmware.Always NoOverrun events)
    (hconf' : (firmware.state events).usb.deviceState = .configured) :
    (accepted (firmware.trace events)).length < (reads (firmware.trace events)).length + 128 := by
  have hlast : (accepted (firmware.trace events)).length ≤
    (reads (firmware.trace events)).length + 128 := hroom.last
  by_contra hover
  have hfull : (accepted (firmware.trace events)).length =
    (reads (firmware.trace events)).length + 128 := by omega
  have hunread : (reads (firmware.trace events)).length <
    (accepted (firmware.trace events)).length := by omega
  obtain ⟨pre, b, mid, rfl, hconf, hlen⟩ := exists_acceptance hunread
  have hcell : (firmware.state (pre ++ [.usart1Rx b] ++ mid)).ring.inPtr =
      (firmware.state pre).ring.inPtr := by
    rw [inPtr_eq, inPtr_eq, hfull, hlen]
    exact Nat.add_mod_right _ _
  have hread := h pre b mid b' (List.prefix_refl _) hconf hconf' hcell
  omega

/-- Nothing is overwritten unread exactly when at most 128 accepted bytes are ever unread. -/
theorem noOverwrite_iff (events : List Event) :
    NoOverwrite events ↔ firmware.Always NoOverrun events := by
  constructor
  · intro h
    induction events using List.reverseRecOn with
    | nil =>
      intro pre hp
      rw [List.prefix_nil.mp hp]
      exact Nat.zero_le _
    | append_singleton events e ih =>
      have hall := ih fun pre b mid b' hp ↦ h pre b mid b' (hp.trans (List.prefix_append _ _))
      refine Machine.always_concat.mpr ⟨hall, ?_⟩
      change (accepted _).length ≤ (reads _).length + 128
      rcases accepted_step (firmware.state events) e with hnone | ⟨b', rfl, hconf', -⟩
      · have hlast : (accepted (firmware.trace events)).length ≤
          (reads (firmware.trace events)).length + 128 := hall.last
        obtain ⟨hacc, hreads⟩ := lengths_quiet hnone
        omega
      · have hlt := room_of_noOverwrite h hall hconf'
        obtain ⟨hacc, hreads⟩ := lengths_rx b' hconf'
        omega
  · intro h pre b mid b' hp hconf hconf' hin
    rw [inPtr_eq, inPtr_eq] at hin
    have hfirst := (lengths_rx b hconf).1
    obtain ⟨hsecond, hreads⟩ := lengths_rx b' hconf'
    have hmono := accepted_length_mono (List.prefix_append (pre ++ [.usart1Rx b]) mid)
    have hroom : (accepted (firmware.trace (pre ++ [.usart1Rx b] ++ mid ++
      [.usart1Rx b']))).length ≤ (reads (firmware.trace (pre ++ [.usart1Rx b] ++ mid ++
        [.usart1Rx b']))).length + 128 := h _ hp
    -- Two stores at one cell are a whole ring of bytes apart.
    omega

/-! ### The missing test -/

/-- The main loop goes on without a frame only when fewer than four accepted bytes are
unread. -/
def DeclinesWhenShort (events : List Event) : Prop :=
  ∀ pre hw, pre ++ [.main hw] <+: events → (firmware.state pre).pc = .getCount →
    (step (firmware.state pre) (.main hw)).1.pc = .hidTask →
      (accepted (firmware.trace pre)).length < (reads (firmware.trace pre)).length + 4

/-- A byte to be accepted finds the count below `BUFFER_SIZE`, apart from a byte that a
removal in progress has read already. -/
def RoomAtRx (s : Mcu) (_ : List Obs) (e : Event) : Prop :=
  ∀ b, e = .usart1Rx b → s.usb.deviceState = .configured → s.ring.count.toNat < 128 + s.pc.ahead

/-- The ring is never overrun exactly when every byte accepted finds room. -/
theorem noOverrun_iff_room (events : List Event) :
    firmware.Always NoOverrun events ↔ firmware.Meets RoomAtRx events := by
  induction events using List.reverseRecOn with
  | nil =>
    refine ⟨fun _ pre e hp ↦ ?_, fun _ pre hp ↦ ?_⟩
    · simpa using hp.length_le
    · rw [List.prefix_nil.mp hp]
      exact Nat.zero_le _
  | append_singleton events e ih =>
    rw [Machine.always_concat, Machine.meets_concat, ih]
    apply and_congr_right
    intro hroom
    have hlast := (ih.mpr hroom).last
    have hcount := (accounting events).count_eq hlast
    have hlast : (accepted (firmware.trace events)).length ≤
      (reads (firmware.trace events)).length + 128 := hlast
    change (accepted _).length ≤ (reads _).length + 128 ↔ _
    rcases accepted_step (firmware.state events) e with hnone | ⟨b, rfl, hconf, -⟩
    · obtain ⟨hacc, hreads⟩ := lengths_quiet hnone
      refine iff_of_true (by omega) ?_
      rintro b rfl hconf
      rw [step, usart1Rx, if_pos hconf] at hnone
      cases hnone
    · obtain ⟨hacc, hreads⟩ := lengths_rx b hconf
      rw [hacc, hreads]
      constructor
      · intro h _ _ _
        omega
      · intro h
        have := h b rfl hconf
        omega

/-- Without overrun the count is exact when the main loop looks at it. -/
theorem declinesWhenShort {events : List Event} (h : firmware.Always NoOverrun events) :
    DeclinesWhenShort events := by
  intro pre hw hp hpc hdecline
  have hcount := (accounting pre).count_at_getCount
    (h pre ((List.prefix_append _ _).trans hp)) hpc
  have hcases := step_cases (firmware.state pre) (.main hw)
  generalize step (firmware.state pre) (.main hw) = r at *
  cases hcases with
  | decline _ _ hshort =>
    have : (RingBuffer.getCount (firmware.state pre).ring).toNat < 4 := Nat.not_le.mp hshort
    omega
  | claim _ _ _ => cases hdecline
  | pass _ _ _ before _ _ =>
    rw [hpc] at before
    cases before
  | remove _ _ _ pc | assignButton _ pc | assignX _ pc | assignY _ pc | create _ pc
  | send _ _ pc | suppress _ _ pc | getReport _ _ pc _ _ =>
    rw [hpc] at pc
    cases pc

/-- In every run, no accepted byte is overwritten unread and no frame is declined while it is
there, exactly when each byte accepted finds room; the interrupt never asks. -/
theorem neverOverrun_iff (events : List Event) :
    NoOverwrite events ∧ DeclinesWhenShort events ↔ firmware.Meets RoomAtRx events := by
  rw [noOverwrite_iff, ← noOverrun_iff_room]
  exact and_iff_left_of_imp declinesWhenShort

/-- The main loop is in the HID task while 129 bytes arrive. -/
def stalled : List Event :=
  enumeration ++ [turn, turn] ++ List.replicate 128 (.usart1Rx 1) ++ [.usart1Rx 7]

/-- The last of them is stored over the first, which has not been read. -/
theorem neverOverrun_stalled_fails :
    firmware.Meets ConfiguredAtRx stalled ∧
      ¬ (NoOverwrite stalled ∧ DeclinesWhenShort stalled) := by
  refine ⟨by decide +kernel, fun h ↦ ?_⟩
  have hread := h.1 (enumeration ++ [turn, turn]) 1 (List.replicate 127 (.usart1Rx 1)) 7
    (List.prefix_refl _) (by decide +kernel) (by decide +kernel) (by decide +kernel)
  exact absurd hread (by decide +kernel)

/-! ### An arrival budget -/

/-- Bytes accepted between the evaluations of `RingBuffer_GetCount`, newest interval first;
the stretch before the first evaluation is an interval too. -/
def intervals (o : List Obs) : List Nat :=
  o.foldl (fun l x ↦ match x with | .counted _ => 0 :: l | .accepted _ => arrive l | _ => l) [0]

@[simp] theorem intervals_nil : intervals [] = [0] := rfl

@[simp] theorem intervals_concat (o : List Obs) (x : Obs) :
    intervals (o ++ [x]) =
      match x with
      | .counted _ => 0 :: intervals o
      | .accepted _ => arrive (intervals o)
      | _ => intervals o := by
  unfold intervals
  rw [List.foldl_append]
  rfl

/-- A budget held at every earlier moment of a trace. -/
theorem budget_of_prefix {q c : Nat} {o o' : List Obs} (h : Budget q c (intervals o'))
    (hp : o <+: o') : Budget q c (intervals o) := by
  obtain ⟨rest, rfl⟩ := hp
  induction rest using List.reverseRecOn with
  | nil => rwa [List.append_nil] at h
  | append_singleton rest x ih =>
    rw [← List.append_assoc, intervals_concat] at h
    apply ih
    cases x with
    | counted _ => exact h.of_cons
    | accepted _ => exact h.of_arrive
    | _ => exact h

/-- Bytes accepted beyond the frames assigned are covered by a window of arrivals; the frame
being extracted has its batch still open. -/
def Backlog (s : Mcu) (o : List Obs) : Prop :=
  Behind 4 (7 + s.pc.claimed) (intervals o) ((accepted o).length - 4 * (assigned o).length)

private theorem backlog_quiet {s s' : Mcu} {o o' : List Obs} (h : Backlog s o)
    (hpc : s'.pc.claimed = s.pc.claimed) (hi : intervals (o ++ o') = intervals o)
    (ha : accepted o' = []) (hf : assigned o' = []) : Backlog s' (o ++ o') := by
  unfold Backlog at *
  rw [hpc, hi, accepted_append, assigned_append, ha, hf, List.append_nil, List.append_nil]
  exact h

/-- Every step from a ring that is not overrun keeps the backlog covered. -/
theorem Backlog.step {s : Mcu} {o : List Obs} (h : Backlog s o) (ha : Accounting s o)
    (hroom : NoOverrun s o) (e : Event) : Backlog (step s e).1 (o ++ (step s e).2) := by
  have hcases := step_cases s e
  have hclaimed := ha.claimed
  generalize Firmware.step s e = r at *
  cases hcases with
  | insert b _ =>
    have hlen : (accepted (o ++ [.accepted b])).length = (accepted o).length + 1 := by simp
    have hnone : assigned (o ++ [.accepted b]) = assigned o := by simp
    unfold Backlog
    rw [intervals_concat, hlen, hnone, Nat.sub_add_comm (by omega)]
    exact h.arrive
  | drop b _ => exact backlog_quiet h rfl (intervals_concat o _) rfl rfl
  | interrupt f usb hid => exact backlog_quiet h rfl (by rw [List.append_nil]) rfl rfl
  | pass hw usb hid before after obs =>
    have hidle := (Pc.idle (Pc.idle_of_passing before)).2.2.1
    have hidle' := (Pc.idle after.1).2.2.1
    obtain rfl | ⟨v, rfl⟩ := obs
    · exact backlog_quiet h (hidle'.trans hidle.symm) (by rw [List.append_nil]) rfl rfl
    · exact backlog_quiet h (hidle'.trans hidle.symm) (intervals_concat o _) rfl rfl
  | claim hw pc count =>
    unfold Backlog at *
    rw [pc] at h
    rw [intervals_concat, accepted_append, assigned_append]
    simpa [Pc.claimed, Pc.extracting] using h.serve
  | decline hw pc count =>
    have hshort : (RingBuffer.getCount s.ring).toNat < 4 := Nat.not_le.mp count
    have hcount := ha.count_at_getCount hroom pc
    have htaken := ha.taken
    rw [pc] at htaken
    have htaken : (reads o).length = 4 * (assigned o).length := htaken
    unfold Backlog
    rw [intervals_concat, accepted_append, assigned_append]
    apply Behind.rest
    simp only [accepted_cons, assigned_cons, accepted_nil, assigned_nil, List.append_nil]
    omega
  | remove hw ind removal pc =>
    cases removal with
    | read => exact backlog_quiet h (by rw [pc]; rfl) (intervals_concat o _) rfl rfl
    | advance _ => exact backlog_quiet h (by rw [pc]; rfl) (by simp [removeStep]) rfl rfl
    | wrap _ => exact backlog_quiet h (by rw [pc]; rfl) (by simp [removeStep]) rfl rfl
    | decrement _ =>
      have hnext : ∀ ind, (afterRemove ind).claimed = 4 := by decide
      exact backlog_quiet h (by rw [pc]; exact hnext ind) (by simp [removeStep]) rfl rfl
  | assignButton hw pc | assignX hw pc =>
    exact backlog_quiet h (by rw [pc]; rfl) (by rw [List.append_nil]) rfl rfl
  | assignY hw pc =>
    rw [pc] at hclaimed
    have hclaimed : 4 * (assigned o).length + 4 ≤ (accepted o).length := hclaimed
    unfold Backlog at *
    rw [pc] at h
    rw [intervals_concat, accepted_append, assigned_append]
    simp only [accepted_cons, assigned_cons, accepted_nil, assigned_nil, List.append_nil,
      List.length_append, List.length_singleton]
    apply Behind.done (k := 4)
    rw [show (accepted o).length - 4 * ((assigned o).length + 1) + 4 =
      (accepted o).length - 4 * (assigned o).length by omega]
    exact h
  | create hw pc => exact backlog_quiet h (by rw [pc]; rfl) (by rw [List.append_nil]) rfl rfl
  | send hw data pc =>
    have hi : intervals (o ++ [.inReport data, .serviced]) = intervals o := by
      rw [List.append_cons, intervals_concat, intervals_concat]
    exact backlog_quiet h (by rw [pc]; rfl) hi rfl rfl
  | suppress hw data pc => exact backlog_quiet h (by rw [pc]; rfl) (intervals_concat o _) rfl rfl
  | getReport hw r pc _ _ =>
    exact backlog_quiet h (by rw [pc]; rfl) (intervals_concat o _) rfl rfl

/-- Within the budget a covered backlog fits the ring. -/
theorem Backlog.noOverrun {s : Mcu} {o : List Obs} (h : Backlog s o) (ha : Accounting s o)
    (hb : Budget 4 117 (intervals o)) : NoOverrun s o := by
  have hlevel := Behind.le h hb
  have hclaimed : s.pc.claimed ≤ 4 := by
    unfold Pc.claimed
    split <;> decide
  have htaken := ha.taken
  change (accepted o).length ≤ (reads o).length + 128
  omega

/-- No step makes the 8-bit count wrap, up or down. -/
def NoCountWrap (s : Mcu) (_ : List Obs) (e : Event) : Prop :=
  (∀ b, e = .usart1Rx b → s.usb.deviceState = .configured → s.ring.count ≠ 255) ∧
    ∀ hw ind data, e = .main hw → s.pc = .remove ind (.decrement data) → s.ring.count ≠ 0

/-- In every run in which any `k` consecutive intervals accept at most `4 * k + 117` bytes, at
most 128 accepted bytes are ever unread, none is overwritten and the count never wraps. -/
theorem overrunBudget (events : List Event)
    (h : Budget 4 117 (intervals (firmware.trace events))) :
    firmware.Always NoOverrun events ∧ NoOverwrite events ∧
      firmware.Meets NoCountWrap events := by
  have hbudget : ∀ pre, pre <+: events → Budget 4 117 (intervals (firmware.trace pre)) :=
    fun pre hp ↦ budget_of_prefix h (firmware.trace_mono hp)
  have hroom : firmware.Always NoOverrun events := by
    intro pre hp
    have hok : firmware.Meets (fun s o _ ↦ Accounting s o ∧ Budget 4 117 (intervals o)) pre :=
      fun p e hpe ↦ ⟨accounting p,
        hbudget p (((List.prefix_append p [e]).trans hpe).trans hp)⟩
    have hbacklog : Backlog (firmware.state pre) (firmware.trace pre) := by
      apply Machine.invariant _ _ hok
      · exact Behind.rest (Nat.le_of_lt (by decide))
      · intro s o e hs hok
        exact hs.step hok.1 (hs.noOverrun hok.1 hok.2) e
    exact hbacklog.noOverrun (accounting pre) (hbudget pre hp)
  refine ⟨hroom, (noOverwrite_iff events).mpr hroom, fun pre e hp ↦ ?_⟩
  have hpre : firmware.Always NoOverrun pre := hroom.of_prefix ((List.prefix_append _ _).trans hp)
  have hcount := (accounting pre).count_eq hpre.last
  have hlast : (accepted (firmware.trace pre)).length ≤
    (reads (firmware.trace pre)).length + 128 := hpre.last
  have hone := (firmware.state pre).pc.ahead_le_one
  constructor
  · rintro b - - hwrap
    rw [hwrap] at hcount
    have : (255 : UInt8).toNat = 255 := rfl
    omega
  · rintro hw ind data - hpc hwrap
    rw [hwrap, hpc] at hcount
    have hahead : (Pc.remove ind (.decrement data)).ahead = 1 := rfl
    have : (0 : UInt8).toNat = 0 := rfl
    have htaken := (accounting pre).taken
    have hclaimed := (accounting pre).claimed
    have hle := (firmware.state pre).pc.taken_le_claimed
    omega

/-- The whole budget of one interval in a burst, read out one frame a turn of the loop. -/
def burst : List Event :=
  enumeration ++ [turn, turn] ++ List.replicate 121 (.usart1Rx 1) ++ List.replicate 60 turn

/-- The burst never fills the ring. -/
theorem overrunBudget_burst : firmware.Always NoOverrun burst :=
  (overrunBudget burst (by decide +kernel)).1

-- One byte more over three intervals overruns: three bytes wait, and the rest arrives around
-- an evaluation that still declines and before the first read after the next one.
example : ∃ events, Budget 4 118 (intervals (firmware.trace events)) ∧
    ¬ NoOverrun (firmware.state events) (firmware.trace events) :=
  ⟨enumeration ++ List.replicate 3 (.usart1Rx 1) ++ [turn] ++ List.replicate 63 (.usart1Rx 1) ++
    List.replicate 5 turn ++ List.replicate 63 (.usart1Rx 1), by decide +kernel, by decide +kernel⟩

end MouseAide.Firmware
