import MouseAide.Base.Sampling
import MouseAide.Firmware.Framing

/-!
# Reports to the host

Library `MouseFirmware`. `HID_Device_USBTask` compares the `mouseReport` register with
`PrevMouseHIDReportBuffer` and writes the IN endpoint; `GET_REPORT` refills the buffer and
answers on the control endpoint, `LUFA/Drivers/USB/Class/Device/HID.c:38–72,149–189`. The
buffer mirrors the report delivered last on either path, so a suppressed report is always
one the host already has.
-/

namespace MouseAide.Firmware

open MouseAide.Base

/-! ### The host side of a trace -/

/-- Reports the host has received whole, from the IN endpoint or by `GET_REPORT`. -/
def delivered (o : List Obs) : List MouseReportData :=
  o.filterMap fun
    | .inReport r => some r
    | .getReport r size => if size = 3 then some r else none
    | _ => none

/-- Reports written to the IN endpoint since the last triple was assigned. -/
def written (o : List Obs) : List MouseReportData :=
  o.foldl (fun w x ↦ match x with | .assigned _ => [] | .inReport r => w ++ [r] | _ => w) []

/-- The HID task has been served since the last triple was assigned. -/
def served (o : List Obs) : Bool :=
  o.foldl (fun b x ↦ match x with | .assigned _ => false | .serviced => true | _ => b) false

@[simp] theorem delivered_nil : delivered [] = [] := rfl

@[simp] theorem written_nil : written [] = [] := rfl

@[simp] theorem delivered_cons (x : Obs) (o : List Obs) :
    delivered (x :: o) =
      (match x with
      | .inReport r => [r]
      | .getReport r size => if size = 3 then [r] else []
      | _ => []) ++ delivered o := by
  cases x with
  | getReport r size => by_cases h : size = 3 <;> simp [delivered, h]
  | _ => rfl

@[simp] theorem delivered_append (o o' : List Obs) :
    delivered (o ++ o') = delivered o ++ delivered o' :=
  List.filterMap_append

@[simp] theorem written_concat (o : List Obs) (x : Obs) :
    written (o ++ [x]) =
      match x with
      | .assigned _ => []
      | .inReport r => written o ++ [r]
      | _ => written o := by
  unfold written
  rw [List.foldl_append]
  rfl

@[simp] theorem served_concat (o : List Obs) (x : Obs) :
    served (o ++ [x]) =
      match x with
      | .assigned _ => false
      | .serviced => true
      | _ => served o := by
  unfold served
  rw [List.foldl_append]
  rfl

/-- A service lasts until the next assignment. -/
theorem served_append {o o' : List Obs} (h : served o = true) (ha : assigned o' = []) :
    served (o ++ o') = true := by
  induction o' using List.reverseRecOn with
  | nil => simpa using h
  | append_singleton o' x ih =>
    rw [assigned_append, List.append_eq_nil_iff] at ha
    rw [← List.append_assoc, served_concat]
    have hx := ha.2
    cases x with
    | assigned _ => cases hx
    | serviced => rfl
    | _ => exact ih ha.1

/-- Observations that neither assign a triple nor answer the host. -/
def Obs.silent : Obs → Bool
  | .assigned _ | .inReport _ | .getReport _ _ | .serviced => false
  | _ => true

/-- Silent observations leave the host side of a trace as it was. -/
theorem silent_append (o o' : List Obs) (h : ∀ x ∈ o', x.silent = true) :
    delivered (o ++ o') = delivered o ∧ written (o ++ o') = written o ∧
      assigned (o ++ o') = assigned o ∧ served (o ++ o') = served o := by
  induction o' using List.reverseRecOn with
  | nil => simp
  | append_singleton o' x ih =>
    obtain ⟨hd, hw, ha, hs⟩ := ih fun y hy ↦ h y (List.mem_append_left _ hy)
    have hx := h x (by simp)
    rw [assigned_append] at ha
    rw [delivered_append] at hd
    rw [← List.append_assoc, delivered_append, delivered_append, written_concat, assigned_append,
      assigned_append, served_concat, ha, hd, hw, hs]
    cases x with
    | assigned _ | inReport _ | getReport _ _ | serviced => cases hx
    | _ => exact ⟨List.append_nil _, rfl, List.append_nil _, rfl⟩

/-! ### What a step does to the host side -/

/-- A pending send is no extraction. -/
theorem Pc.idle_of_sending {pc : Pc} (h : pc.sending = true) : pc.extracting = false := by
  cases pc with
  | hidSend _ _ => rfl
  | _ => cases h

/-- The host-side cases of a step, each with its guard and its whole effect. -/
inductive HostStep (s : Mcu) : Event → Mcu × List Obs → Prop where
  | other {e : Event} {s' : Mcu} {o : List Obs}
      (main : ∀ hw, e = .main hw →
        s.pc ≠ .hidCreate ∧ s.pc ≠ .assignY ∧ s.pc.sending = false)
      (prev : s'.prevReportINBuffer = s.prevReportINBuffer)
      (register : s.pc.extracting = false → s'.mouseReport = s.mouseReport)
      (pc : s'.pc = s.pc ∨ s.pc.sending = false ∧ s'.pc.sending = false)
      (obs : ∀ x ∈ o, x.silent = true) : HostStep s e (s', o)
  | assign (hw : Hardware) (pc : s.pc = .assignY) :
      HostStep s (.main hw) ({ s with mouseReport.y := s.newReport.y, pc := .hidTask },
        [.assigned { s.mouseReport with y := s.newReport.y }])
  | create (hw : Hardware) (pc : s.pc = .hidCreate) :
      HostStep s (.main hw)
        ({ s with
            prevReportINBuffer := s.mouseReport
            pc := .hidSend s.mouseReport
              (s.mouseReport != s.prevReportINBuffer || s.hid.idlePeriodElapsed) }, [])
  | send (hw : Hardware) (data : MouseReportData) (pc : s.pc = .hidSend data true) :
      HostStep s (.main hw)
        ({ s with hid.idleMSRemaining := s.hid.idleCount, pc := .usbTask },
          [.inReport data, .serviced])
  | suppress (hw : Hardware) (data : MouseReportData) (pc : s.pc = .hidSend data false) :
      HostStep s (.main hw) ({ s with pc := .usbTask }, [.serviced])
  | getReport (hw : Hardware) (r : ControlRequest) (pc : s.pc = .usbTask)
      (setup : hw.setup = some r) (hid : r.hid = some .getReport) :
      HostStep s (.main hw)
        ({ s with prevReportINBuffer := s.mouseReport, pc := .getCount },
          [.getReport s.mouseReport (min 3 r.wLength.toNat)])

/-- Control replies are silent. -/
private theorem Plain.silent {o : List Obs} (h : Plain o) : ∀ x ∈ o, x.silent = true := by
  obtain rfl | ⟨v, rfl⟩ := h <;> simp [Obs.silent]

private theorem HostStep.silent {s s' : Mcu} {o : List Obs} (hw : Hardware) {pc : Pc}
    (hpc : s.pc = pc) (hcreate : pc ≠ .hidCreate) (hassign : pc ≠ .assignY)
    (hsend : pc.sending = false)
    (prev : s'.prevReportINBuffer = s.prevReportINBuffer)
    (register : pc.extracting = false → s'.mouseReport = s.mouseReport)
    (hsend' : s'.pc.sending = false) (obs : ∀ x ∈ o, x.silent = true) :
    HostStep s (.main hw) (s', o) := by
  subst hpc
  exact .other (fun _ _ ↦ ⟨hcreate, hassign, hsend⟩) prev register (.inr ⟨hsend, hsend'⟩) obs

private theorem afterRemove_sending : ∀ ind, (afterRemove ind).sending = false := by decide

private theorem removeStep_host (hw : Hardware) (s : Mcu) (ind : Fin 4) (removal : Removal)
    (hpc : s.pc = .remove ind removal) : HostStep s (.main hw) (removeStep ind removal s) := by
  cases removal with
  | read => exact .silent hw hpc nofun nofun rfl rfl (fun _ ↦ rfl) rfl (by simp [Obs.silent])
  | advance _ => exact .silent hw hpc nofun nofun rfl rfl (fun _ ↦ rfl) rfl (by simp)
  | wrap _ => exact .silent hw hpc nofun nofun rfl rfl (fun _ ↦ rfl) rfl (by simp)
  | decrement _ =>
    exact .silent hw hpc nofun nofun rfl rfl (fun _ ↦ rfl) (afterRemove_sending ind) (by simp)

/-- Every event, seen from the host side. -/
theorem host_cases (s : Mcu) (e : Event) : HostStep s e (step s e) := by
  have hcases := step_cases s e
  generalize Firmware.step s e = r at *
  cases hcases with
  | insert b _ => exact .other nofun rfl (fun _ ↦ rfl) (.inl rfl) (by simp [Obs.silent])
  | drop b _ => exact .other nofun rfl (fun _ ↦ rfl) (.inl rfl) (by simp [Obs.silent])
  | interrupt f usb hid => exact .other nofun rfl (fun _ ↦ rfl) (.inl rfl) (by simp)
  | pass hw usb hid before after obs =>
    exact .silent hw rfl (Pc.ne_of_passing before rfl) (Pc.ne_of_passing before rfl)
      (Pc.not_sending_of_passing before) rfl (fun _ ↦ rfl) after.2 obs.silent
  -- The receive path leaves the buffer alone; only its last statement completes a triple.
  | claim hw pc _ | decline hw pc _ =>
    exact .silent hw pc nofun nofun rfl rfl (fun _ ↦ rfl) rfl (by simp [Obs.silent])
  | remove hw ind removal pc => exact removeStep_host hw s ind removal pc
  | assignButton hw pc => exact .silent hw pc nofun nofun rfl rfl nofun rfl (by simp)
  | assignX hw pc => exact .silent hw pc nofun nofun rfl rfl nofun rfl (by simp)
  | assignY hw pc => exact .assign hw pc
  | create hw pc => exact .create hw pc
  | send hw data pc => exact .send hw data pc
  | suppress hw data pc => exact .suppress hw data pc
  | getReport hw r pc setup hid => exact .getReport hw r pc setup hid

/-- Only the send branch of `HID_Device_USBTask` ends a service. -/
theorem serviced_step {s : Mcu} {e : Event} (h : .serviced ∈ (step s e).2) (o : List Obs) :
    s.pc.sending = true ∧ (step s e).1.pc = .usbTask ∧ assigned (step s e).2 = [] ∧
      served (o ++ (step s e).2) = true := by
  have hcases := host_cases s e
  generalize Firmware.step s e = r at *
  cases hcases with
  | other _ _ _ _ obs => exact absurd (obs _ h) (by decide)
  | assign _ _ => simp at h
  | create _ _ => simp at h
  | send _ data pc =>
    refine ⟨by rw [pc]; rfl, rfl, rfl, ?_⟩
    rw [List.append_cons, served_concat]
  | suppress _ data pc => exact ⟨by rw [pc]; rfl, rfl, rfl, served_concat o .serviced⟩
  | getReport _ _ _ _ _ => simp at h

/-! ### The buffer mirrors the last delivery -/

/-- Every `GET_REPORT` the USB task answers asks for the three bytes of a report. -/
def FullGetReport (s : Mcu) (_ : List Obs) (e : Event) : Prop :=
  ∀ hw r, e = .main hw → s.pc = .usbTask → hw.setup = some r → r.hid = some .getReport →
    3 ≤ r.wLength.toNat

instance (s : Mcu) (o : List Obs) : (e : Event) → Decidable (FullGetReport s o e)
  | .main hw => decidable_of_iff
      (s.pc = .usbTask → ∀ r ∈ hw.setup, r.hid = some .getReport → 3 ≤ r.wLength.toNat)
      ⟨fun h _ r he ↦ by cases he; exact fun hpc hr ↦ h hpc r hr,
        fun h hpc r hr ↦ h hw r rfl hpc hr⟩
  | .usart1Rx _ => isTrue fun _ _ h ↦ nomatch h
  | .usbGen _ => isTrue fun _ _ h ↦ nomatch h

/-- `PrevReportINBuffer` against the report delivered last; between comparison and send it
runs ahead by the report about to be sent. -/
def Pc.Mirrors (register prev last : MouseReportData) : Pc → Prop
  | .hidSend data send => data = register ∧ prev = data ∧ (send = false → last = data)
  | _ => prev = last

/-- The buffer mirrors the last delivery, and the deliveries sample the register. -/
structure Mirror (s : Mcu) (o : List Obs) : Prop where
  mirrors : s.pc.Mirrors s.mouseReport s.prevReportINBuffer (lastTriple (delivered o))
  samples : Samples (.zero :: assigned o) (delivered o)

private theorem mirrors_idle {register prev last : MouseReportData} {pc : Pc}
    (h : pc.sending = false) : pc.Mirrors register prev last ↔ prev = last := by
  cases pc with
  | hidSend _ _ => cases h
  | _ => exact Iff.rfl

/-- The register's history ends with the triple assigned last. -/
theorem getLast?_history (triples : List MouseReportData) :
    (.zero :: triples : List MouseReportData).getLast? = some (lastTriple triples) :=
  List.getLast?_cons

private theorem mirror_other {s s' : Mcu} {o o' : List Obs} (h : Mirror s o)
    (prev : s'.prevReportINBuffer = s.prevReportINBuffer)
    (register : s.pc.extracting = false → s'.mouseReport = s.mouseReport)
    (pc : s'.pc = s.pc ∨ s.pc.sending = false ∧ s'.pc.sending = false)
    (obs : ∀ x ∈ o', x.silent = true) : Mirror s' (o ++ o') := by
  obtain ⟨hd, -, ha, -⟩ := silent_append o o' obs
  obtain ⟨hm, hs⟩ := h
  refine ⟨?_, by rw [hd, ha]; exact hs⟩
  rw [hd, prev]
  rcases pc with hpc | ⟨h1, h2⟩
  · cases hsend : s.pc.sending with
    | true =>
      rw [hpc, register (Pc.idle_of_sending hsend)]
      exact hm
    | false =>
      rw [mirrors_idle hsend] at hm
      rw [hpc, mirrors_idle hsend]
      exact hm
  · rw [mirrors_idle h1] at hm
    rw [mirrors_idle h2]
    exact hm

/-- Every step keeps the buffer a mirror. -/
theorem Mirror.step {s : Mcu} {o : List Obs} {e : Event} (h : Mirror s o) (hd : Decoding s o)
    (hfull : FullGetReport s o e) : Mirror (step s e).1 (o ++ (step s e).2) := by
  have hcases := host_cases s e
  generalize Firmware.step s e = r at *
  cases hcases with
  | other _ prev register pc obs => exact mirror_other h prev register pc obs
  | assign _ pc =>
    obtain ⟨hm, hs⟩ := h
    rw [pc] at hm
    refine ⟨by simpa [Pc.Mirrors] using hm, ?_⟩
    simpa using hs.append
  | create _ pc =>
    obtain ⟨hm, hs⟩ := h
    rw [pc] at hm
    refine ⟨⟨rfl, rfl, fun hsend ↦ ?_⟩, by rw [List.append_nil]; exact hs⟩
    -- Nothing is sent only when the register equals the buffer.
    have hsame : s.mouseReport = s.prevReportINBuffer := by
      simpa using (Bool.or_eq_false_iff.mp hsend).1
    rw [List.append_nil, hsame]
    exact hm.symm
  | send _ data pc =>
    obtain ⟨hm, hs⟩ := h
    have hreg := hd.register_of_idle (by rw [pc]; rfl)
    rw [pc] at hm
    obtain ⟨hdata, hprev, -⟩ := hm
    refine ⟨by simpa [Pc.Mirrors] using hprev, ?_⟩
    simpa [hdata, hreg] using hs.send_last (getLast?_history _)
  | suppress _ data pc =>
    obtain ⟨hm, hs⟩ := h
    rw [pc] at hm
    obtain ⟨-, hprev, hlast⟩ := hm
    refine ⟨by simpa [Pc.Mirrors] using hprev.trans (hlast rfl).symm, by simpa using hs⟩
  | getReport hw r pc setup hid =>
    have hsize : min 3 r.wLength.toNat = 3 := Nat.min_eq_left (hfull hw r rfl pc setup hid)
    have hreg := hd.register_of_idle (by rw [pc]; rfl)
    rw [hsize]
    refine ⟨by simp [Pc.Mirrors], ?_⟩
    simpa [hreg] using h.samples.send_last (getLast?_history _)

/-- The buffer is a mirror after every run. -/
theorem mirror {events : List Event} (hfull : firmware.Meets FullGetReport events) :
    Mirror (firmware.state events) (firmware.trace events) := by
  apply Machine.invariant _ _ ((Machine.meets_reach decoding events).and hfull)
  · exact ⟨rfl, Samples.nil⟩
  · intro s o e h hok
    exact h.step hok.1 hok.2

/-- Once served, the host has the triple assigned last. -/
def UpToDate (_ : Mcu) (o : List Obs) : Prop :=
  served o = true → lastTriple (delivered o) = lastTriple (assigned o)

/-- Every step keeps the host up to date. -/
theorem UpToDate.step {s : Mcu} {o : List Obs} {e : Event} (h : UpToDate s o) (hd : Decoding s o)
    (hm : Mirror s o) (hfull : FullGetReport s o e) :
    UpToDate (step s e).1 (o ++ (step s e).2) := by
  have hcases := host_cases s e
  have hmirror := hm.mirrors
  generalize Firmware.step s e = r at *
  unfold UpToDate at *
  cases hcases with
  | other _ _ _ _ obs =>
    obtain ⟨hd', -, ha', hs'⟩ := silent_append o _ obs
    rw [hd', ha', hs']
    exact h
  | assign _ _ => simp
  | create _ _ => simpa using h
  | send _ data pc =>
    have hreg := hd.register_of_idle (by rw [pc]; rfl)
    rw [pc] at hmirror
    intro _
    simpa using hmirror.1.trans hreg
  | suppress _ data pc =>
    have hreg := hd.register_of_idle (by rw [pc]; rfl)
    rw [pc] at hmirror
    intro _
    simpa using (hmirror.2.2 rfl).trans (hmirror.1.trans hreg)
  | getReport hw r pc setup hid =>
    have hsize : min 3 r.wLength.toNat = 3 := Nat.min_eq_left (hfull hw r rfl pc setup hid)
    have hreg := hd.register_of_idle (by rw [pc]; rfl)
    intro _
    simpa [hsize] using hreg

/-- The host is up to date in every run. -/
theorem upToDate {events : List Event} (hfull : firmware.Meets FullGetReport events) :
    UpToDate (firmware.state events) (firmware.trace events) := by
  have hdec := Machine.meets_reach decoding events
  have hmir : firmware.Meets (fun s o _ ↦ Mirror s o) events := fun pre _ hp ↦
    mirror (hfull.of_prefix ((List.prefix_append _ _).trans hp))
  apply Machine.invariant _ _ ((hdec.and hmir).and hfull)
  · nofun
  · intro s o e h hok
    exact h.step hok.1.1 hok.1.2 hok.2

/-- In every run the reports delivered are the register's values, zero first, at a
non-decreasing sequence of indices; and when `HID_Device_USBTask` has run in the Configured
state with the endpoint writable, the report delivered last is the register. -/
theorem deliveredReports (events : List Event) (hfull : firmware.Meets FullGetReport events) :
    Samples (.zero :: assigned (firmware.trace events)) (delivered (firmware.trace events)) ∧
      ∀ pre e, pre ++ [e] <+: events → .serviced ∈ (step (firmware.state pre) e).2 →
        lastTriple (delivered (firmware.trace (pre ++ [e]))) =
          (firmware.state (pre ++ [e])).mouseReport := by
  refine ⟨(mirror hfull).samples, fun pre e hpre hserviced ↦ ?_⟩
  obtain ⟨-, hpc, -, hserved⟩ := serviced_step hserviced (firmware.trace pre)
  have hnew : UpToDate _ _ := upToDate (hfull.of_prefix hpre)
  have hreg := (decoding (pre ++ [e])).register_of_idle
  rw [Machine.state_concat, Machine.trace_concat] at *
  exact (hnew hserved).trans (hreg (by change (step _ _).1.pc.extracting = _; rw [hpc]; rfl)).symm

/-- A frame written to the IN endpoint and then read out once more by `GET_REPORT`. -/
def polled : List Event :=
  enumeration ++ [1, 2, 3, 0].map .usart1Rx ++ List.replicate 23 turn ++
    [.main ⟨true, true, some ⟨0xA1, 0x01, 0x0100, 0, 3⟩⟩] ++ List.replicate 4 turn

/-- Both deliveries are the one triple assigned. -/
theorem deliveredReports_polled :
    delivered (firmware.trace polled) = [⟨1, 2, 3⟩, ⟨1, 2, 3⟩] ∧
      Samples (.zero :: assigned (firmware.trace polled)) (delivered (firmware.trace polled)) :=
  ⟨by decide +kernel, (deliveredReports polled (by decide +kernel)).1⟩

end MouseAide.Firmware
