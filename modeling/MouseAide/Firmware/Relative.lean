import MouseAide.Firmware.Reports

/-!
# Relative motion across the report register

Library `MouseFirmware`. `mouseReport` keeps a frame's displacement until the next frame,
and `CALLBACK_HID_Device_CreateHIDReport` returns false, so the change detector decides
what is written, `arduino_mouse_16u2/Mouse.c:79–96,161–170` with
`LUFA/Drivers/USB/Class/Device/HID.c:149–189`. A repeated frame is suppressed and a frame
that stays is written again when the idle period is over; both are fixed here exactly.
-/

namespace MouseAide.Firmware

open MouseAide.Base

/-- A report that displaces the pointer. -/
def MouseReportData.moves (r : MouseReportData) : Bool := r.x != 0 || r.y != 0

/-! ### The tenure of a frame -/

/-- What has been written since the last assignment is the frame assigned, the buffer then
holds it, and a pending send is of that frame. -/
structure Tenure (s : Mcu) (o : List Obs) : Prop where
  decoding : Decoding s o
  written_eq : ∀ w ∈ written o, w = lastTriple (assigned o)
  prev_eq : written o ≠ [] → s.prevReportINBuffer = lastTriple (assigned o)
  sending_eq : ∀ data send, s.pc = .hidSend data send →
    data = lastTriple (assigned o) ∧ s.prevReportINBuffer = data

@[simp] theorem written_send (o : List Obs) (r : MouseReportData) :
    written (o ++ [.inReport r, .serviced]) = written o ++ [r] := by
  rw [List.append_cons, written_concat, written_concat]

/-- Every step keeps the tenure. -/
theorem Tenure.step {s : Mcu} {o : List Obs} (h : Tenure s o) (e : Event) :
    Tenure (step s e).1 (o ++ (step s e).2) := by
  have hcases := host_cases s e
  have hd := h.decoding.step e
  generalize Firmware.step s e = r at *
  obtain ⟨hreg, hw, hp, hs⟩ := h
  cases hcases with
  | other _ prev _ pc obs =>
    obtain ⟨-, hw', ha', -⟩ := silent_append o _ obs
    refine ⟨hd, by rw [hw', ha']; exact hw, by rw [hw', ha', prev]; exact hp, ?_⟩
    intro data send hpc'
    rw [ha', prev]
    rcases pc with hpc | ⟨-, hpc⟩
    · exact hs data send (hpc ▸ hpc')
    · rw [hpc'] at hpc
      cases hpc
  | assign _ pc => exact ⟨hd, by simp, by simp, nofun⟩
  | create _ pc =>
    have hreg := hreg.register_of_idle (by rw [pc]; rfl)
    rw [List.append_nil] at hd ⊢
    refine ⟨hd, hw, fun _ ↦ hreg, ?_⟩
    rintro data send ⟨⟩
    exact ⟨hreg, rfl⟩
  | send _ data pc =>
    obtain ⟨hdata, hprev⟩ := hs data true pc
    refine ⟨hd, ?_, fun _ ↦ ?_, nofun⟩
    · intro w hmem
      rw [written_send, List.mem_append, List.mem_singleton] at hmem
      rcases hmem with hmem | rfl
      · simpa using hw w hmem
      · simpa using hdata
    · simpa using hprev.trans hdata
  | suppress _ data pc => exact ⟨hd, by simpa using hw, by simpa using hp, nofun⟩
  | getReport _ _ pc _ _ =>
    have hreg := hreg.register_of_idle (by rw [pc]; rfl)
    exact ⟨hd, by simpa using hw, fun _ ↦ by simpa using hreg, nofun⟩

/-- The tenure holds after every run. -/
theorem tenure (events : List Event) :
    Tenure (firmware.state events) (firmware.trace events) :=
  Machine.invariant_all ⟨decoding [], by simp, by simp, nofun⟩ (fun _ _ e h ↦ h.step e) events

/-- The frame has been written as soon as anything has in its tenure. -/
theorem Tenure.mem_written_iff {s : Mcu} {o : List Obs} (h : Tenure s o) :
    lastTriple (assigned o) ∈ written o ↔ written o ≠ [] := by
  constructor
  · exact List.ne_nil_of_mem
  · intro hne
    obtain ⟨w, hw⟩ := List.exists_mem_of_ne_nil _ hne
    exact h.written_eq w hw ▸ hw

/-- In a tenure with a report written, the register equals the buffer. -/
theorem Tenure.register_eq {s : Mcu} {o : List Obs} (h : Tenure s o)
    (hpc : s.pc.extracting = false) (hw : written o ≠ []) :
    s.mouseReport = s.prevReportINBuffer :=
  (h.decoding.register_of_idle hpc).trans (h.prev_eq hw).symm

/-! ### Replay -/

/-- No report with motion is written after another one of the same frame. -/
def NoReplay (o : List Obs) : Prop :=
  ∀ pre r, pre ++ [.inReport r] <+: o → r.moves = true → ∀ w ∈ written pre, w.moves = false

/-- The law is asked of every observation, with what came before it. -/
private theorem noReplay_iff_forall (o : List Obs) :
    NoReplay o ↔ ∀ pre x, pre ++ [x] <+: o → ∀ r, x = .inReport r → r.moves = true →
      ∀ w ∈ written pre, w.moves = false := by
  constructor
  · rintro h pre x hp r rfl
    exact h pre r hp
  · intro h pre r hp
    exact h pre _ hp r rfl

/-- Appending one observation can only break the law by a second report of the frame. -/
theorem noReplay_concat (o : List Obs) (x : Obs) :
    NoReplay (o ++ [x]) ↔ NoReplay o ∧
      ∀ r, x = .inReport r → r.moves = true → ∀ w ∈ written o, w.moves = false := by
  rw [noReplay_iff_forall, noReplay_iff_forall]
  exact forall_prefix_concat

private theorem noReplay_silent (o o' : List Obs) (h : ∀ x ∈ o', ∀ r, x ≠ .inReport r) :
    NoReplay (o ++ o') ↔ NoReplay o := by
  rw [noReplay_iff_forall, noReplay_iff_forall]
  exact forall_prefix_append fun x hx _ r hr ↦ absurd hr (h x hx r)

/-- The law so far, and no pending send will break it. -/
def Unreplayed (s : Mcu) (o : List Obs) : Prop :=
  NoReplay o ∧ ∀ data, s.pc = .hidSend data true → data.moves = true → written o = []

/-- At an evaluation of `HID_Device_USBTask`, the idle period of a frame with motion that
has already been written is not over. -/
def Quiet (s : Mcu) (o : List Obs) (e : Event) : Prop :=
  ∀ hw, e = .main hw → s.pc = .hidCreate → s.mouseReport.moves = true → written o ≠ [] →
    s.hid.idlePeriodElapsed = false

private theorem ne_inReport_of_silent {o : List Obs} (h : ∀ x ∈ o, x.silent = true) :
    ∀ x ∈ o, ∀ r, x ≠ .inReport r := by
  rintro x hx r rfl
  exact absurd (h _ hx) (by simp [Obs.silent])

private theorem quiet_of_ne {s : Mcu} {o : List Obs} {e : Event}
    (h : ∀ hw, e = .main hw → s.pc ≠ .hidCreate) : Quiet s o e :=
  fun hw he hpc ↦ absurd hpc (h hw he)

private theorem unreplayed_of_not_sending {s : Mcu} {o : List Obs}
    (h : ∀ data, s.pc ≠ .hidSend data true) : Unreplayed s o ↔ NoReplay o :=
  and_iff_left fun data hpc ↦ absurd hpc (h data)

private theorem ne_hidSend {s : Mcu} (h : s.pc.sending = false) :
    ∀ data, s.pc ≠ .hidSend data true := by
  intro data hpc
  rw [hpc] at h
  cases h

/-- A pending send keeps the law exactly when the frame has not been written before. -/
private theorem noReplay_send {s : Mcu} {o : List Obs} {data : MouseReportData} (ht : Tenure s o)
    (hpc : s.pc = .hidSend data true) :
    NoReplay (o ++ [.inReport data, .serviced]) ↔ Unreplayed s o := by
  have hdata := (ht.sending_eq data true hpc).1
  unfold Unreplayed
  rw [List.append_cons, noReplay_concat, noReplay_concat]
  constructor
  · rintro ⟨⟨hn, hfirst⟩, -⟩
    refine ⟨hn, fun data' hpc' hmoves ↦ ?_⟩
    obtain rfl : data = data' := by simpa [hpc] using hpc'
    -- A report written earlier is the same frame, so it would move too.
    apply List.eq_nil_iff_forall_not_mem.mpr
    intro w hw
    have hstill := hfirst data rfl hmoves w hw
    rw [ht.written_eq w hw, ← hdata, hmoves] at hstill
    cases hstill
  · rintro ⟨hn, hempty⟩
    refine ⟨⟨hn, fun r hr hmoves w hw ↦ ?_⟩, nofun⟩
    obtain rfl : data = r := by simpa using hr
    rw [hempty data hpc hmoves] at hw
    cases hw

/-- The law does not see a step that sends nothing and has no send pending before it. -/
private theorem unreplayed_idle {s s' : Mcu} {o o' : List Obs} (hpc : s.pc.sending = false)
    (hpc' : s'.pc.sending = false) (ho : ∀ x ∈ o', ∀ r, x ≠ .inReport r) :
    Unreplayed s' (o ++ o') ↔ Unreplayed s o := by
  rw [unreplayed_of_not_sending (ne_hidSend hpc), unreplayed_of_not_sending (ne_hidSend hpc'),
    noReplay_silent o o' ho]

/-- A step keeps the law exactly when it is quiet. -/
theorem unreplayed_step {s : Mcu} {o : List Obs} (ht : Tenure s o) (e : Event) :
    Unreplayed (step s e).1 (o ++ (step s e).2) ↔ Unreplayed s o ∧ Quiet s o e := by
  have hcases := host_cases s e
  generalize Firmware.step s e = r at *
  cases hcases with
  | other main _ _ pc obs =>
    rw [and_iff_left (quiet_of_ne fun hw he ↦ (main hw he).1)]
    have hsilent := ne_inReport_of_silent obs
    rcases pc with hpc | ⟨h1, h2⟩
    · unfold Unreplayed
      rw [hpc, noReplay_silent _ _ hsilent, (silent_append o _ obs).2.1]
    · exact unreplayed_idle h1 h2 hsilent
  | assign _ pc =>
    rw [and_iff_left (quiet_of_ne fun _ _ ↦ by simp [pc])]
    exact unreplayed_idle (by rw [pc]; rfl) rfl (by simp)
  | create hw pc =>
    have hreg := ht.register_eq (by rw [pc]; rfl)
    unfold Unreplayed Quiet
    rw [List.append_nil]
    simp only [pc, Pc.hidSend.injEq, Bool.or_eq_true, bne_iff_ne, ne_eq]
    constructor
    · rintro ⟨hn, hsend⟩
      refine ⟨⟨hn, nofun⟩, fun _ _ _ hmoves hw ↦ ?_⟩
      by_contra hidle
      exact hw (hsend _ ⟨rfl, Or.inr (by simpa using hidle)⟩ hmoves)
    · rintro ⟨⟨hn, -⟩, hquiet⟩
      refine ⟨hn, ?_⟩
      rintro data ⟨rfl, hsend⟩ hmoves
      by_contra hw'
      -- The frame has been written, so only the idle period can have asked for a send.
      have hidle := hquiet hw rfl trivial hmoves hw'
      rcases hsend with hne | he
      · exact hne (hreg hw')
      · rw [hidle] at he
        cases he
  | send _ data pc =>
    rw [and_iff_left (quiet_of_ne fun _ _ ↦ by simp [pc]), ← noReplay_send ht pc]
    exact and_iff_left nofun
  | suppress _ data pc =>
    rw [and_iff_left (quiet_of_ne fun _ _ ↦ by simp [pc])]
    unfold Unreplayed
    rw [noReplay_silent _ _ (by simp)]
    simp [pc]
  | getReport _ _ pc _ _ =>
    rw [and_iff_left (quiet_of_ne fun _ _ ↦ by simp [pc])]
    exact unreplayed_idle (by rw [pc]; rfl) rfl (by simp)

/-- Runs without replay, and without a replay pending, are those with quiet steps only. -/
theorem unreplayed_iff (events : List Event) :
    Unreplayed (firmware.state events) (firmware.trace events) ↔ firmware.Meets Quiet events := by
  apply Machine.invariant_iff tenure
  · refine ⟨fun pre r hp ↦ ?_, nofun⟩
    simpa using hp.length_le
  · intro s o e ht
    exact unreplayed_step ht e

/-- The law of a run with its next statement holds exactly when every evaluation of the
run was quiet; the next statement is the send itself. -/
theorem noReplay_iff (events : List Event) (hw : Hardware) :
    NoReplay (firmware.trace (events ++ [.main hw])) ↔ firmware.Meets Quiet events := by
  have ht := tenure events
  rw [← unreplayed_iff, Machine.trace_concat]
  change NoReplay (_ ++ (step _ _).2) ↔ _
  generalize firmware.state events = s, firmware.trace events = o at *
  have hcases := host_cases s (.main hw)
  generalize Firmware.step s (.main hw) = r at *
  cases hcases with
  | other main _ _ _ obs =>
    rw [unreplayed_of_not_sending (ne_hidSend (main hw rfl).2.2)]
    exact noReplay_silent o _ (ne_inReport_of_silent obs)
  | assign _ pc =>
    rw [unreplayed_of_not_sending (ne_hidSend (by rw [pc]; rfl))]
    exact noReplay_silent o _ (by simp)
  | create _ pc =>
    rw [unreplayed_of_not_sending (ne_hidSend (by rw [pc]; rfl))]
    exact noReplay_silent o _ (by simp)
  | send _ data pc => exact noReplay_send ht pc
  | suppress _ data pc =>
    rw [unreplayed_of_not_sending (by simp [pc])]
    exact noReplay_silent o _ (by simp)
  | getReport _ _ pc _ _ =>
    rw [unreplayed_of_not_sending (ne_hidSend (by rw [pc]; rfl))]
    exact noReplay_silent o _ (by simp)

/-- One frame is written, and the host selects the configuration once more: the class state
is zeroed, so the idle period is over at once. -/
def reconfigured : List Event :=
  enumeration ++ [0, 5, 0, 0].map .usart1Rx ++ List.replicate 23 turn ++
    [.main ⟨true, true, some ⟨0x00, 0x09, 1, 0, 0⟩⟩] ++ List.replicate 6 turn

/-- The displacement of the frame is then written a second time. -/
theorem noReplay_reconfigured_fails : ¬ NoReplay (firmware.trace reconfigured) := by
  intro h
  have hstill := h (firmware.trace reconfigured).dropLast.dropLast ⟨0, 5, 0⟩ (by decide +kernel) rfl
    ⟨0, 5, 0⟩ (by decide +kernel)
  cases hstill

/-! ### Lost updates -/

/-- The newest triple changes the buttons of the one before it, or moves. -/
def significant (triples : List MouseReportData) : Bool :=
  match triples.getLast? with
  | none => false
  | some r => r.moves || r.button != (lastTriple triples.dropLast).button

/-- Every significant frame of the trace `o`, the one in the register at its end included, is
written in `o'`, which goes on from `o`, before the next frame is assigned. -/
def NoLostUpdate (o o' : List Obs) : Prop :=
  ∀ pre r, pre ++ [.assigned r] <+: o → significant (assigned pre ++ [r]) = true →
    ∃ mid, pre ++ .assigned r :: mid <+: o' ∧ assigned mid = [] ∧ .inReport r ∈ mid

/-- `HID_Device_USBTask` would send now: the register is news, or the idle period is over. -/
def Due (s : Mcu) : Bool :=
  s.mouseReport != s.prevReportINBuffer || s.hid.idlePeriodElapsed

/-- Since the last assignment the HID task has evaluated a due register. -/
def Offered (events : List Event) : Prop :=
  ∃ mid hw, mid ++ [.main hw] <+: events ∧
    (assigned (firmware.trace mid)).length = (assigned (firmware.trace events)).length ∧
      (firmware.state mid).pc = .hidCreate ∧ Due (firmware.state mid) = true

private theorem assigned_length_le {pre events : List Event} (h : pre <+: events) :
    (assigned (firmware.trace pre)).length ≤ (assigned (firmware.trace events)).length :=
  ((firmware.trace_mono h).filterMap _).length_le

/-- A step offers the register by evaluating it when due, and an assignment opens a new
tenure. -/
private theorem offered_concat (events : List Event) (e : Event) :
    Offered (events ++ [e]) ↔ assigned (step (firmware.state events) e).2 = [] ∧
      (Offered events ∨ ∃ hw, e = .main hw ∧ (firmware.state events).pc = .hidCreate ∧
        Due (firmware.state events) = true) := by
  have hlen : (assigned (firmware.trace (events ++ [e]))).length =
      (assigned (firmware.trace events)).length +
        (assigned (step (firmware.state events) e).2).length := by
    rw [Machine.trace_concat, assigned_append]
    exact List.length_append
  unfold Offered
  constructor
  · rintro ⟨mid, hw, hp, hn, hpc, hdue⟩
    rcases concat_prefix_concat_iff.mp hp with ⟨rfl, rfl⟩ | hp
    · exact ⟨List.eq_nil_of_length_eq_zero (by omega), Or.inr ⟨hw, rfl, hpc, hdue⟩⟩
    · have hle := assigned_length_le ((List.prefix_append mid _).trans hp)
      refine ⟨List.eq_nil_of_length_eq_zero (by omega), Or.inl ⟨mid, hw, hp, ?_, hpc, hdue⟩⟩
      omega
  · rintro ⟨hnil, h⟩
    rw [hnil, List.length_nil, Nat.add_zero] at hlen
    rcases h with ⟨mid, hw, hp, hn, hpc, hdue⟩ | ⟨hw, rfl, hpc, hdue⟩
    · exact ⟨mid, hw, hp.trans (List.prefix_append _ _), hn.trans hlen.symm, hpc, hdue⟩
    · exact ⟨events, hw, List.prefix_refl _, hlen.symm, hpc, hdue⟩

/-- The frame of the tenure has been written, or its send is pending. -/
def Shipped (s : Mcu) (o : List Obs) : Prop :=
  written o ≠ [] ∨ ∃ data, s.pc = .hidSend data true

private theorem shipped_of_not_sending {s : Mcu} {o : List Obs} (h : s.pc.sending = false) :
    Shipped s o ↔ written o ≠ [] := by
  refine or_iff_left ?_
  rintro ⟨data, hpc⟩
  exact ne_hidSend h data hpc

/-- Only an evaluation of a due register ships a frame, and only an assignment ends that. -/
private theorem shipped_step (s : Mcu) (o : List Obs) (e : Event) :
    Shipped (step s e).1 (o ++ (step s e).2) ↔ assigned (step s e).2 = [] ∧
      (Shipped s o ∨ ∃ hw, e = .main hw ∧ s.pc = .hidCreate ∧ Due s = true) := by
  have hcases := host_cases s e
  generalize Firmware.step s e = r at *
  cases hcases with
  | other main _ _ pc obs =>
    obtain ⟨-, hw, ha, -⟩ := silent_append [] _ obs
    have hquiet : ¬ ∃ hw, e = .main hw ∧ s.pc = .hidCreate ∧ Due s = true := by
      rintro ⟨hw, he, hpc, -⟩
      exact (main hw he).1 hpc
    rw [List.nil_append, assigned_nil] at ha
    rw [and_iff_right ha, or_iff_left hquiet]
    rcases pc with hpc | ⟨h1, h2⟩
    · unfold Shipped
      rw [hpc, (silent_append o _ obs).2.1]
    · rw [shipped_of_not_sending h1, shipped_of_not_sending h2, (silent_append o _ obs).2.1]
  | assign _ pc => simp [Shipped]
  | create hw pc => simp [Shipped, pc, Due]
  | send _ data pc => simp [Shipped, pc]
  | suppress _ data pc => simp [Shipped, pc]
  | getReport _ _ pc _ _ => simp [Shipped, pc]

/-- A frame has been offered exactly when it has been written or its send is pending. -/
theorem offered_iff (events : List Event) :
    Offered events ↔ Shipped (firmware.state events) (firmware.trace events) := by
  induction events using List.reverseRecOn with
  | nil =>
    constructor
    · rintro ⟨mid, hw, hp, -⟩
      simpa using hp.length_le
    · rintro (h | ⟨data, h⟩)
      · exact absurd rfl h
      · cases h
  | append_singleton events e ih =>
    rw [offered_concat, ih, Machine.trace_concat, Machine.state_concat]
    exact (shipped_step _ _ _).symm

/-- Every significant frame that was replaced had been written. -/
private def ReplacedWritten (_ : Mcu) (o : List Obs) : Prop :=
  ∀ pre r, pre ++ [.assigned r] <+: o → significant (assigned pre) = true →
    lastTriple (assigned pre) ∈ written pre

private theorem replacedWritten_iff_forall (s : Mcu) (o : List Obs) :
    ReplacedWritten s o ↔ ∀ pre x, pre ++ [x] <+: o → ∀ r, x = .assigned r →
      significant (assigned pre) = true → lastTriple (assigned pre) ∈ written pre := by
  constructor
  · rintro h pre x hp r rfl
    exact h pre r hp
  · intro h pre r hp
    exact h pre _ hp r rfl

private theorem replacedWritten_concat (s : Mcu) (o : List Obs) (x : Obs) :
    ReplacedWritten s (o ++ [x]) ↔ ReplacedWritten s o ∧ ∀ r, x = .assigned r →
      significant (assigned o) = true → lastTriple (assigned o) ∈ written o := by
  rw [replacedWritten_iff_forall, replacedWritten_iff_forall]
  exact forall_prefix_concat

private theorem replacedWritten_quiet (s s' : Mcu) (o o' : List Obs)
    (h : ∀ x ∈ o', ∀ r, x ≠ .assigned r) :
    ReplacedWritten s' (o ++ o') ↔ ReplacedWritten s o := by
  rw [replacedWritten_iff_forall, replacedWritten_iff_forall]
  exact forall_prefix_append fun x hx _ r hr ↦ absurd hr (h x hx r)

/-- A significant frame about to be replaced has been written. -/
def Kept (s : Mcu) (o : List Obs) (e : Event) : Prop :=
  ∀ hw, e = .main hw → s.pc = .assignY → significant (assigned o) = true →
    lastTriple (assigned o) ∈ written o

/-- A step loses an update only by replacing the register. -/
private theorem replacedWritten_step (s : Mcu) (o : List Obs) (e : Event) :
    ReplacedWritten (step s e).1 (o ++ (step s e).2) ↔ ReplacedWritten s o ∧ Kept s o e := by
  have hother : (∀ hw, e = .main hw → s.pc ≠ .assignY) → Kept s o e :=
    fun h hw he hpc ↦ absurd hpc (h hw he)
  have hcases := host_cases s e
  generalize Firmware.step s e = r at *
  cases hcases with
  | other main _ _ _ obs =>
    rw [and_iff_left (hother fun hw he ↦ (main hw he).2.1)]
    apply replacedWritten_quiet
    rintro x hx r rfl
    exact absurd (obs _ hx) (by simp [Obs.silent])
  | assign hw pc =>
    rw [replacedWritten_concat]
    apply and_congr Iff.rfl
    exact ⟨fun h _ _ _ ↦ h _ rfl, fun h _ _ ↦ h hw rfl pc⟩
  | create _ pc =>
    rw [and_iff_left (hother fun _ _ ↦ by simp [pc])]
    exact replacedWritten_quiet _ _ _ _ (by simp)
  | send _ data pc =>
    rw [and_iff_left (hother fun _ _ ↦ by simp [pc])]
    exact replacedWritten_quiet _ _ _ _ (by simp)
  | suppress _ data pc =>
    rw [and_iff_left (hother fun _ _ ↦ by simp [pc])]
    exact replacedWritten_quiet _ _ _ _ (by simp)
  | getReport _ _ pc _ _ =>
    rw [and_iff_left (hother fun _ _ ↦ by simp [pc])]
    exact replacedWritten_quiet _ _ _ _ (by simp)

/-- The replaced frames of a run are those whose tenure an assignment ends. -/
private theorem replacedWritten_iff (events : List Event) :
    ReplacedWritten (firmware.state events) (firmware.trace events) ↔
      ∀ pre hw, pre ++ [.main hw] <+: events → (firmware.state pre).pc = .assignY →
        significant (assigned (firmware.trace pre)) = true → Offered pre := by
  have hmeets : ReplacedWritten (firmware.state events) (firmware.trace events) ↔
      firmware.Meets Kept events := by
    apply Machine.invariant_iff tenure
    · intro pre r hp
      simpa using hp.length_le
    · intro s o e _
      exact replacedWritten_step s o e
  -- While a frame is assigned nothing is pending, so what was offered has been written.
  have hwritten : ∀ pre, (firmware.state pre).pc = .assignY →
      (lastTriple (assigned (firmware.trace pre)) ∈ written (firmware.trace pre) ↔
        Offered pre) := by
    intro pre hpc
    rw [offered_iff, shipped_of_not_sending (by rw [hpc]; rfl)]
    exact (tenure pre).mem_written_iff
  rw [hmeets]
  constructor
  · intro h pre hw hp hpc hsig
    exact (hwritten pre hpc).mp (h pre _ hp hw rfl hpc hsig)
  · intro h pre e hp hw he hpc hsig
    subst he
    exact (hwritten pre hpc).mpr (h pre hw hp hpc hsig)

/-! ### Tenures in a trace -/

/-- A report is written in the frame's tenure. -/
private def WrittenAfter (pre : List Obs) (r : MouseReportData) (o : List Obs) : Prop :=
  ∃ mid, pre ++ .assigned r :: mid <+: o ∧ assigned mid = [] ∧ .inReport r ∈ mid

/-- What is written since an assignment is what `written` keeps. -/
private theorem mem_written_tenure (pre : List Obs) (r w : MouseReportData) {mid : List Obs}
    (h : assigned mid = []) :
    w ∈ written (pre ++ .assigned r :: mid) ↔ .inReport w ∈ mid := by
  induction mid using List.reverseRecOn with
  | nil => simp
  | append_singleton mid x ih =>
    rw [assigned_append, List.append_eq_nil_iff] at h
    rw [← List.cons_append, ← List.append_assoc, written_concat]
    cases x with
    | assigned _ => exact absurd h.2 (by simp)
    | inReport r' => simp [ih h.1]
    | _ => simp [ih h.1]

/-- A tenure does not reach past the next assignment. -/
private theorem writtenAfter_assigned {pre o rest : List Obs} {r r' : MouseReportData}
    (hp : pre ++ [.assigned r] <+: o) :
    WrittenAfter pre r (o ++ .assigned r' :: rest) ↔ WrittenAfter pre r o := by
  constructor
  · rintro ⟨mid, hmid, hnone, hmem⟩
    refine ⟨mid, ?_, hnone, hmem⟩
    rcases List.prefix_or_prefix_of_prefix hmid (List.prefix_append o _) with h | ⟨t, ht⟩
    · exact h
    · obtain ⟨u, rfl⟩ := hp
      cases t with
      | nil => exact ⟨[], by rw [List.append_nil] at ht ⊢; exact ht.symm⟩
      | cons x t =>
        -- The assignment would be in the tenure.
        have hcut : mid = u ++ x :: t := by simpa using ht.symm
        rw [← ht] at hmid
        have hx : x = .assigned r' ∧ t <+: rest := by
          simpa using (List.prefix_append_right_inj _).mp hmid
        rw [hcut, hx.1, assigned_append] at hnone
        exact absurd hnone (by simp)
  · rintro ⟨mid, hmid, hnone, hmem⟩
    exact ⟨mid, hmid.trans (List.prefix_append _ _), hnone, hmem⟩

private theorem noLostUpdate_concat (o o' : List Obs) (x : Obs) :
    NoLostUpdate (o ++ [x]) o' ↔ NoLostUpdate o o' ∧ ∀ r, x = .assigned r →
      significant (assigned o ++ [r]) = true → WrittenAfter o r o' := by
  have hall : ∀ o, NoLostUpdate o o' ↔ ∀ pre x, pre ++ [x] <+: o → ∀ r, x = .assigned r →
      significant (assigned pre ++ [r]) = true → WrittenAfter pre r o' := by
    refine fun o ↦ ⟨?_, fun h pre r hp ↦ h pre _ hp r rfl⟩
    rintro h pre x hp r rfl
    exact h pre r hp
  rw [hall, hall]
  exact forall_prefix_concat

/-- Frames whose tenure ends in an assignment are done by then. -/
private theorem noLostUpdate_assigned (o rest : List Obs) (r : MouseReportData) :
    NoLostUpdate o (o ++ .assigned r :: rest) ↔ NoLostUpdate o o := by
  constructor
  · intro h pre r' hp hsig
    exact (writtenAfter_assigned hp).mp (h pre r' hp hsig)
  · intro h pre r' hp hsig
    exact (writtenAfter_assigned hp).mpr (h pre r' hp hsig)

/-- The frames of a trace: those replaced, and the one in the register. -/
private theorem noLostUpdate_append (s : Mcu) (o : List Obs) {y : List Obs}
    (hy : assigned y = []) :
    NoLostUpdate o (o ++ y) ↔ ReplacedWritten s o ∧ (significant (assigned o) = true →
      lastTriple (assigned o) ∈ written (o ++ y)) := by
  induction o using List.reverseRecOn generalizing y with
  | nil =>
    refine iff_of_true ?_ ⟨?_, by simp [significant]⟩
    · intro pre r hp
      simpa using hp.length_le
    · intro pre r hp
      simpa using hp.length_le
  | append_singleton o x ih =>
    rw [noLostUpdate_concat, replacedWritten_concat s, List.append_assoc, List.singleton_append]
    by_cases hx : ∃ r, x = .assigned r
    · obtain ⟨r, rfl⟩ := hx
      have hbefore := ih (y := []) assigned_nil
      rw [List.append_nil] at hbefore
      have hlast : WrittenAfter o r (o ++ .assigned r :: y) ↔
          r ∈ written (o ++ .assigned r :: y) := by
        rw [mem_written_tenure o r r hy]
        constructor
        · rintro ⟨mid, hmid, -, hmem⟩
          have hle : mid <+: y := by simpa using (List.prefix_append_right_inj _).mp hmid
          exact hle.subset hmem
        · exact fun hmem ↦ ⟨y, List.prefix_refl _, hy, hmem⟩
      rw [noLostUpdate_assigned, hbefore, assigned_append]
      simp [hlast]
    · have hnone : assigned [x] = [] := by
        cases x with
        | assigned r => exact absurd ⟨r, rfl⟩ hx
        | _ => rfl
      have hmore : assigned (x :: y) = [] := by
        rw [← List.singleton_append, assigned_append, hnone, hy, List.append_nil]
      rw [ih hmore, assigned_append, hnone, List.append_nil]
      have hvacuous : ∀ {P : MouseReportData → Prop}, ∀ r, x = .assigned r → P r :=
        fun r hr ↦ absurd ⟨r, hr⟩ hx
      rw [and_iff_left hvacuous, and_iff_left hvacuous]

/-- The next statement writes the register exactly if its frame has been shipped before. -/
private theorem noLostUpdate_main (events : List Event) (hw : Hardware) :
    NoLostUpdate (firmware.trace events) (firmware.trace (events ++ [.main hw])) ↔
      ReplacedWritten (firmware.state events) (firmware.trace events) ∧
        (significant (assigned (firmware.trace events)) = true →
          Shipped (firmware.state events) (firmware.trace events)) := by
  have ht := tenure events
  rw [Machine.trace_concat]
  change NoLostUpdate _ (_ ++ (step _ _).2) ↔ _
  generalize firmware.state events = s, firmware.trace events = o at *
  -- A statement that sends nothing leaves what has been written.
  have hidle : ∀ y, assigned y = [] → written (o ++ y) = written o → s.pc.sending = false →
      (NoLostUpdate o (o ++ y) ↔ ReplacedWritten s o ∧
        (significant (assigned o) = true → Shipped s o)) := by
    intro y hy hw' hpc
    rw [noLostUpdate_append s o hy, hw', shipped_of_not_sending hpc, ht.mem_written_iff]
  have hcases := host_cases s (.main hw)
  generalize Firmware.step s (.main hw) = r at *
  cases hcases with
  | other main _ _ _ obs =>
    obtain ⟨-, hw', -, -⟩ := silent_append o _ obs
    obtain ⟨-, -, ha, -⟩ := silent_append [] _ obs
    exact hidle _ ha hw' (main hw rfl).2.2
  | assign _ pc =>
    have hend := hidle [] assigned_nil (by rw [List.append_nil]) (by rw [pc]; rfl)
    rw [List.append_nil] at hend
    exact (noLostUpdate_assigned o [] _).trans hend
  | create _ pc => exact hidle [] assigned_nil (by rw [List.append_nil]) (by rw [pc]; rfl)
  | send _ data pc =>
    have hdata := (ht.sending_eq data true pc).1
    rw [noLostUpdate_append s o rfl, written_send, ← hdata]
    simp [Shipped, pc]
  | suppress _ data pc =>
    have hend := noLostUpdate_append s o (y := [.serviced]) rfl
    rw [hend, written_concat, ht.mem_written_iff]
    simp [Shipped, pc]
  | getReport _ _ pc _ _ => exact hidle _ rfl (by simp) (by rw [pc]; rfl)

/-- The tenure of a frame of `events` ends with the run `pre`: the next statement replaces it, or
the run is over. -/
def EndsTenure (events pre : List Event) : Prop :=
  pre = events ∨ ∃ hw, pre ++ [.main hw] <+: events ∧ (firmware.state pre).pc = .assignY

/-- No update of a run is lost, the next statement included as it is the send itself, exactly when
each significant frame meets in its tenure an evaluation of `HID_Device_USBTask` at which it is not
yet in the buffer or the idle period is over. -/
theorem noLostUpdate_iff (events : List Event) (hw : Hardware) :
    NoLostUpdate (firmware.trace events) (firmware.trace (events ++ [.main hw])) ↔
      ∀ pre, EndsTenure events pre → significant (assigned (firmware.trace pre)) = true →
        Offered pre := by
  rw [noLostUpdate_main, replacedWritten_iff, ← offered_iff]
  constructor
  · rintro ⟨hreplaced, hlast⟩ pre (rfl | ⟨hw', hp, hpc⟩)
    · exact hlast
    · exact hreplaced pre hw' hp hpc
  · intro h
    exact ⟨fun pre hw' hp hpc ↦ h pre (Or.inr ⟨hw', hp, hpc⟩), h events (Or.inl rfl)⟩

/-- The same motion twice and a third frame, the endpoint writable all the time. -/
def repeated : List Event :=
  enumeration ++ [0, 5, 0, 0, 0, 5, 0, 0, 0, 0, 7, 0].map .usart1Rx ++ List.replicate 72 turn

/-- The second frame equals the buffer and is replaced without ever being written. -/
theorem noLostUpdate_repeated_fails :
    firmware.Meets ConfiguredAtRx repeated ∧ firmware.Always NoOverrun repeated ∧
      ¬ NoLostUpdate (firmware.trace repeated) (firmware.trace (repeated ++ [turn])) := by
  refine ⟨by decide +kernel, by decide +kernel, fun h ↦ ?_⟩
  have hlost := ((noLostUpdate_main repeated ⟨true, true, none⟩).mp h).1
    ((firmware.trace repeated).take 33) ⟨0, 0, 7⟩ (by decide +kernel) (by decide +kernel)
  exact absurd hlost (by decide +kernel)

end MouseAide.Firmware
