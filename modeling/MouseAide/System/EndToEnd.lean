import MouseAide.Firmware.Link
import MouseAide.Firmware.Reports
import MouseAide.Translator.Buttons

/-!
# Mouse to host

Library `MouseSystem`. The 328P sketch, an in-order lossless serial line and the 16U2
firmware as one machine. Polled reports, byte arrivals, USB interrupts and main-loop
statements interleave freely. Every system run contains a firmware run whose received bytes
are what has arrived of the sketch's byte stream, so the laws of both sides compose.
-/

namespace MouseAide.System

open MouseAide.Base MouseAide.Translator MouseAide.Firmware

/-- Both controllers, and how many of the bytes written have arrived. -/
structure Aide where
  sketch : Sketch
  arrived : Nat
  mcu : Mcu
  deriving DecidableEq, Repr

/-- One step of the system: a polled report, the arrival of the next byte on the line, a USB
interrupt or a main-loop statement of the 16U2. -/
inductive Input where
  | mouse (mi : MouseInfo)
  | arrive
  | usbGen (udint : Udint)
  | main (hw : Hardware)
  deriving DecidableEq, Repr

/-- The firmware event of an input, if it has one; an idle line delivers nothing. -/
def Aide.event (s : Aide) : Input → Option Event
  | .mouse _ => none
  | .arrive => s.sketch.serialBytes[s.arrived]?.map .usart1Rx
  | .usbGen f => some (.usbGen f)
  | .main hw => some (.main hw)

/-- The sketch after an input: only a polled report moves it. -/
def Aide.sketchAfter (s : Aide) : Input → Sketch
  | .mouse mi => parse s.sketch mi
  | _ => s.sketch

/-- The sketch runs on polled reports and the firmware on its events. -/
def Aide.step (s : Aide) (i : Input) : Aide × List Obs :=
  match s.event i with
  | none => ({ s with sketch := s.sketchAfter i }, [])
  | some e =>
    ({ sketch := s.sketchAfter i
       arrived := s.arrived + (rxBytes [e]).length
       mcu := (Firmware.step s.mcu e).1 }, (Firmware.step s.mcu e).2)

/-- Both controllers after `setup`, the line empty. -/
def system (keyLow : Bool) : Machine Aide Input Obs :=
  ⟨⟨setup keyLow, 0, Firmware.start⟩, Aide.step⟩

/-- The reports polled from the physical mouse in a run. -/
def mouseReports (inputs : List Input) : List MouseInfo :=
  inputs.filterMap fun | .mouse mi => some mi | _ => none

/-- A firmware condition, asked of every firmware event of the system. -/
def OnEvents (ok : Mcu → List Obs → Event → Prop) (s : Aide) (o : List Obs) (i : Input) : Prop :=
  ∀ e ∈ s.event i, ok s.mcu o e

instance (ok : Mcu → List Obs → Event → Prop) [∀ s o e, Decidable (ok s o e)] (s : Aide)
    (o : List Obs) (i : Input) : Decidable (OnEvents ok s o i) :=
  inferInstanceAs (Decidable (∀ e ∈ s.event i, _))

variable {keyLow : Bool}

/-! ### The sketch inside a run -/

private theorem step_sketch (s : Aide) (i : Input) : (s.step i).1.sketch = s.sketchAfter i := by
  unfold Aide.step
  split <;> rfl

/-- The sketch has parsed the polled reports. -/
theorem sketch_eq (inputs : List Input) :
    ((system keyLow).state inputs).sketch = parseAll (setup keyLow) (mouseReports inputs) := by
  induction inputs using List.reverseRecOn with
  | nil => rfl
  | append_singleton inputs i ih =>
    have hreports : mouseReports (inputs ++ [i]) = mouseReports inputs ++ mouseReports [i] :=
      List.filterMap_append
    rw [Machine.state_concat, hreports]
    refine (step_sketch _ i).trans ?_
    cases i with
    | mouse mi =>
      refine (congrArg (parse · mi) ih).trans ?_
      exact (parseAll_concat _ _ mi).symm
    | arrive => exact ih.trans (congrArg _ (List.append_nil _).symm)
    | usbGen f => exact ih.trans (congrArg _ (List.append_nil _).symm)
    | main hw => exact ih.trans (congrArg _ (List.append_nil _).symm)

/-- The byte stream only grows. -/
private theorem serialBytes_mono (keyLow : Bool) (inputs : List Input) (i : Input) :
    ((system keyLow).state inputs).sketch.serialBytes <+:
      (((system keyLow).state inputs).sketchAfter i).serialBytes := by
  cases i with
  | mouse mi =>
    have hy : ((system keyLow).state inputs).sketch.mouseReport.y = 0 := by
      rw [sketch_eq]
      exact parseAll_y _ _ (setup_y keyLow)
    exact (serial_parse_mono _ mi hy).flatMap _
  | arrive => exact List.prefix_refl _
  | usbGen f => exact List.prefix_refl _
  | main hw => exact List.prefix_refl _

/-! ### The firmware run inside a system run -/

private theorem step_none {s : Aide} {i : Input} (h : s.event i = none) :
    s.step i = ({ s with sketch := s.sketchAfter i }, []) := by
  unfold Aide.step
  rw [h]

private theorem step_some {s : Aide} {i : Input} {e : Event} (h : s.event i = some e) :
    s.step i =
      ({ sketch := s.sketchAfter i
         arrived := s.arrived + (rxBytes [e]).length
         mcu := (Firmware.step s.mcu e).1 }, (Firmware.step s.mcu e).2) := by
  unfold Aide.step
  rw [h]

/-- The byte an event receives is the next one of the stream. -/
private theorem arrived_event {s : Aide} {i : Input} {e : Event} (h : s.event i = some e)
    (hle : s.arrived ≤ s.sketch.serialBytes.length) :
    s.arrived + (rxBytes [e]).length ≤ s.sketch.serialBytes.length ∧
      s.sketch.serialBytes.take s.arrived ++ rxBytes [e] =
        s.sketch.serialBytes.take (s.arrived + (rxBytes [e]).length) := by
  cases i with
  | mouse mi => cases h
  | arrive =>
    obtain ⟨b, hb, rfl⟩ := Option.map_eq_some_iff.mp h
    have hlt := (List.getElem?_eq_some_iff.mp hb).1
    refine ⟨hlt, ?_⟩
    change _ ++ [b] = List.take (s.arrived + 1) _
    rw [List.take_add_one, hb]
    rfl
  | usbGen f =>
    cases h
    exact ⟨hle, List.append_nil _⟩
  | main hw =>
    cases h
    exact ⟨hle, List.append_nil _⟩

/-- A firmware run that goes through the firmware part of a system run, on the bytes that
have arrived, under the same conditions. -/
structure Projects (keyLow : Bool) (ok : Mcu → List Obs → Event → Prop)
    (P : Mcu → List Obs → Prop) (inputs : List Input) (events : List Event) : Prop where
  mcu_eq : ((system keyLow).state inputs).mcu = firmware.state events
  trace_eq : (system keyLow).trace inputs = firmware.trace events
  arrived_le : ((system keyLow).state inputs).arrived ≤
    ((system keyLow).state inputs).sketch.serialBytes.length
  rx_eq : rxBytes events = ((system keyLow).state inputs).sketch.serialBytes.take
    ((system keyLow).state inputs).arrived
  meets : firmware.Meets ok events
  always : firmware.Always P events

/-- Every system run projects to a firmware run: what arrives is the sketch's byte stream,
in order and without loss. -/
theorem exists_projection {ok : Mcu → List Obs → Event → Prop} {P : Mcu → List Obs → Prop}
    {inputs : List Input} (hok : (system keyLow).Meets (OnEvents ok) inputs)
    (hP : (system keyLow).Always (fun s o ↦ P s.mcu o) inputs) :
    ∃ events, Projects keyLow ok P inputs events := by
  induction inputs using List.reverseRecOn with
  | nil =>
    refine ⟨[], rfl, rfl, Nat.zero_le _, rfl, ?_, ?_⟩
    · intro pre e hp
      simpa using hp.length_le
    · intro pre hp
      rw [List.prefix_nil.mp hp]
      exact hP.last
  | append_singleton inputs i ih =>
    obtain ⟨hok, hlast⟩ := Machine.meets_concat.mp hok
    obtain ⟨hP, hPlast⟩ := Machine.always_concat.mp hP
    obtain ⟨events, hmcu, htrace, hle, hrx, hmeets, halways⟩ := ih hok hP
    obtain ⟨rest, hrest⟩ := serialBytes_mono keyLow inputs i
    generalize hs : (system keyLow).state inputs = s at *
    have hstate : (system keyLow).state (inputs ++ [i]) = (s.step i).1 := by
      rw [Machine.state_concat, hs]
      rfl
    have htrace' : (system keyLow).trace (inputs ++ [i]) =
        (system keyLow).trace inputs ++ (s.step i).2 := by
      rw [Machine.trace_concat, hs]
      rfl
    cases he : s.event i with
    | none =>
      rw [step_none he] at hstate htrace'
      refine ⟨events, ?_, ?_, ?_, ?_, hmeets, halways⟩
      · rw [hstate]
        exact hmcu
      · rw [htrace', List.append_nil]
        exact htrace
      · rw [hstate]
        simp only [← hrest, List.length_append]
        omega
      · rw [hstate]
        simp only [← hrest]
        rw [List.take_append_of_le_length hle]
        exact hrx
    | some e =>
      rw [step_some he] at hstate htrace'
      obtain ⟨hle', hrx'⟩ := arrived_event he hle
      have hmcu' : (Firmware.step s.mcu e).1 = firmware.state (events ++ [e]) := by
        rw [Machine.state_concat, ← hmcu]
        rfl
      have htr' : (system keyLow).trace inputs ++ (Firmware.step s.mcu e).2 =
          firmware.trace (events ++ [e]) := by
        rw [Machine.trace_concat, ← hmcu, ← htrace]
        rfl
      refine ⟨events ++ [e], ?_, ?_, ?_, ?_, ?_, ?_⟩
      · rw [hstate]
        exact hmcu'
      · rw [htrace']
        exact htr'
      · rw [hstate]
        simp only [← hrest, List.length_append]
        omega
      · rw [hstate, rxBytes_append, hrx]
        simp only [← hrest]
        rw [List.take_append_of_le_length hle', hrx']
      · refine Machine.meets_concat.mpr ⟨hmeets, ?_⟩
        rw [← hmcu, ← htrace]
        exact hlast e he
      · refine Machine.always_concat.mpr ⟨halways, ?_⟩
        rw [← hmcu', ← htr']
        rw [hstate, htrace'] at hPlast
        exact hPlast

/-! ### Buttons end to end -/

/-- All bytes emitted in the run have been read, and `HID_Device_USBTask` has since run in
the Configured state with the endpoint writable. -/
def Settled (keyLow : Bool) (inputs : List Input) : Prop :=
  ∃ pre i, pre ++ [i] <+: inputs ∧
    (reads ((system keyLow).trace pre)).length =
      ((system keyLow).state inputs).sketch.serialBytes.length ∧
    .serviced ∈ (((system keyLow).state pre).step i).2

/-- The button of the newest triple is that of the newest frame. -/
private theorem lastTriple_button (frames : List MouseReport) :
    (lastTriple (frames.map triple)).button = (frames.getLast?.map (·.buttons)).getD 0 := by
  unfold lastTriple
  rw [List.getLast?_map]
  cases frames.getLast? <;> rfl

/-- In a settled run the triples are all the sketch's frames, and the host has been served
since the last of them. -/
private theorem settled_spec {inputs : List Input} (hsettled : Settled keyLow inputs)
    (hconf : (system keyLow).Meets (OnEvents ConfiguredAtRx) inputs)
    (hroom : (system keyLow).Always (fun s o ↦ NoOverrun s.mcu o) inputs) :
    assigned ((system keyLow).trace inputs) =
        ((system keyLow).state inputs).sketch.serial.map triple ∧
      served ((system keyLow).trace inputs) = true := by
  obtain ⟨pre, i, hpre, hreads, hserviced⟩ := hsettled
  have hpi : pre <+: inputs := (List.prefix_append pre [i]).trans hpre
  obtain ⟨events, hev⟩ := exists_projection hconf hroom
  obtain ⟨before, hbefore⟩ := exists_projection (hconf.of_prefix hpi) (hroom.of_prefix hpi)
  have hacc : Accounting ((system keyLow).state pre).mcu ((system keyLow).trace pre) := by
    rw [hbefore.mcu_eq, hbefore.trace_eq]
    exact accounting before
  have hsent : assigned ((system keyLow).trace inputs) <+:
      ((system keyLow).state inputs).sketch.serial.map triple := by
    rw [hev.trace_eq]
    refine assigned_prefix_frames ?_ hev.meets hev.always
    rw [hev.rx_eq]
    exact List.take_prefix _ _
  have hbytes : ((system keyLow).state inputs).sketch.serialBytes.length =
      4 * ((system keyLow).state inputs).sketch.serial.length := length_flatMap_toBytes _
  obtain ⟨rest, hrest⟩ := (system keyLow).trace_mono hpre
  rw [Machine.trace_concat] at hrest
  change _ ++ (((system keyLow).state pre).step i).2 ++ rest = _ at hrest
  cases he : ((system keyLow).state pre).event i with
  | none =>
    rw [step_none he] at hserviced
    cases hserviced
  | some e =>
    rw [step_some he] at hserviced hrest
    obtain ⟨hsend, -, hnone, hserved⟩ := serviced_step hserviced ((system keyLow).trace pre)
    have htaken := hacc.taken
    rw [(Pc.idle (Pc.idle_of_sending hsend)).2.1, hreads, hbytes] at htaken
    have hsplit : assigned ((system keyLow).trace inputs) =
        assigned ((system keyLow).trace pre) ++ assigned rest := by
      rw [← hrest, assigned_append, assigned_append]
      exact congrArg (· ++ assigned rest) ((congrArg _ hnone).trans (List.append_nil _))
    -- Every frame was assigned before the service, so nothing is assigned after it.
    have hle := hsent.length_le
    rw [hsplit, List.length_append, List.length_map] at hle
    constructor
    · apply hsent.eq_of_length_le
      rw [hsplit, List.length_append, List.length_map]
      omega
    · rw [← hrest]
      exact served_append hserved (List.eq_nil_of_length_eq_zero (by omega))

/-- In a settled run the host's button byte is within the last held set. -/
theorem settled_within {inputs : List Input}
    (hconf : (system keyLow).Meets (OnEvents ConfiguredAtRx) inputs)
    (hroom : (system keyLow).Always (fun s o ↦ NoOverrun s.mcu o) inputs)
    (hfull : (system keyLow).Meets (OnEvents FullGetReport) inputs)
    (hsettled : Settled keyLow inputs) :
    Within (lastTriple (delivered ((system keyLow).trace inputs))).button
      (held (lastByte (mouseReports inputs))) := by
  obtain ⟨hall, hserved⟩ := settled_spec hsettled hconf hroom
  obtain ⟨events, hev⟩ := exists_projection hfull hroom
  have hupdate : UpToDate (firmware.state events) (firmware.trace events) := upToDate hev.meets
  rw [hev.trace_eq] at hall hserved
  rw [hev.trace_eq, hupdate hserved, hall, lastTriple_button, sketch_eq, setup_eq,
    lastFrame_buttons]
  exact buttons_within_held _ _

/-- Nothing is within the empty set but itself. -/
theorem within_released {b h : UInt8} (hwithin : Within b h) (hreleased : h = 0) : b = 0 := by
  rw [hreleased] at hwithin
  unfold Within at hwithin
  rw [← hwithin, UInt8.and_zero]

/-- No stuck or phantom button. In every run of the system, once the bytes emitted have been
read and the HID task has run, each button in the report the host received last is held in
the last physical report; with all buttons released it is zero. -/
theorem noPhantomButton (keyLow : Bool) (inputs : List Input)
    (hconf : (system keyLow).Meets (OnEvents ConfiguredAtRx) inputs)
    (hroom : (system keyLow).Always (fun s o ↦ NoOverrun s.mcu o) inputs)
    (hfull : (system keyLow).Meets (OnEvents FullGetReport) inputs)
    (hsettled : Settled keyLow inputs) :
    Within (lastTriple (delivered ((system keyLow).trace inputs))).button
        (held (lastByte (mouseReports inputs))) ∧
      (held (lastByte (mouseReports inputs)) = 0 →
        (lastTriple (delivered ((system keyLow).trace inputs))).button = 0) := by
  have hwithin := settled_within hconf hroom hfull hsettled
  exact ⟨hwithin, within_released hwithin⟩

/-- A left press is polled, arrives and is delivered; then the release, likewise. -/
def click : List Input :=
  [.usbGen ⟨false, false, true, false⟩, .main ⟨true, true, none⟩, .main ⟨true, true, none⟩,
      .main ⟨true, true, some ⟨0x00, 0x09, 1, 0, 0⟩⟩, .main ⟨true, true, none⟩,
      .main ⟨true, true, none⟩, .mouse ⟨1, 0, 0⟩, .mouse ⟨0, 0, 0⟩] ++
    List.replicate 12 .arrive ++ List.replicate 71 (.main ⟨true, true, none⟩)

/-- The host is left with no button pressed. -/
theorem noPhantomButton_click :
    (lastTriple (delivered ((system false).trace click))).button = 0 :=
  (noPhantomButton false click (by decide +kernel) (by decide +kernel) (by decide +kernel)
    ⟨click.dropLast, .main ⟨true, true, none⟩, by decide +kernel, by decide +kernel,
      by decide +kernel⟩).2 rfl

end MouseAide.System
