import MouseAide.Host.Polls
import MouseAide.System.EndToEnd

/-!
# From the bus to the host

Library `MouseSystem`. `HidMouse` hands its reports to `Prs`, `arduino_mouse_328p.ino:78–96`, so the
driver and the system run in series: a method of the driver is called, and the sketch parses
what it hands over, among the steps of the line and of the 16U2. The packets of the mouse then
take the place of the polled reports.
-/

namespace MouseAide.System

open MouseAide.Base MouseAide.Host MouseAide.Translator MouseAide.Firmware

/-- `MOUSEINFO *pmi = (MOUSEINFO*)buf`, `hidboot.cpp:21`. -/
def mouseInfo (r : Report) : MouseInfo :=
  ⟨r.buf[0]?.getD 0, (r.buf[1]?.getD 0).toInt8, (r.buf[2]?.getD 0).toInt8⟩

/-- One step of the device: `Usb.Task()` calls a method of `HidMouse`, the next byte arrives on the
line, or the 16U2 is interrupted or runs a statement. -/
inductive Step where
  | hidMouse (b : HidBoot.BootCall)
  | arrive
  | usbGen (udint : Udint)
  | main (hw : Hardware)

/-- The calls of methods of `HidMouse`. -/
def hidMouseCalls (steps : List Step) : List HidBoot.BootCall :=
  steps.filterMap fun | .hidMouse b => some b | _ => none

variable {n : Nat} {keyLow : Bool} {slot : Fin 16} {s s' : Usb n × HidBoot} {steps : List Step}

/-- The shield with `HidMouse` in `slot`: what it hands over is what the sketch polls. -/
def shield (slot : Fin 16) (s : Usb n × HidBoot) :
    Machine (Option (Usb n × HidBoot)) Step Input where
  init := some s
  step h
    | .hidMouse b =>
      let r := (HidBoot.machine 0x02 slot s).step h b
      (r.1, r.2.map fun report ↦ .mouse (mouseInfo report))
    | .arrive => (h, [.arrive])
    | .usbGen udint => (h, [.usbGen udint])
    | .main hw => (h, [.main hw])

/-- The shield, and behind it the sketch, the line and the 16U2. -/
def device (keyLow : Bool) (slot : Fin 16) (s : Usb n × HidBoot) :
    Machine (Option (Usb n × HidBoot) × Aide) Step Obs := (shield slot s).andThen (system keyLow)

/-! ### The driver inside a run -/

private theorem hidMouseCalls_concat (steps : List Step) (i : Step) :
    hidMouseCalls (steps ++ [i]) = hidMouseCalls steps ++ hidMouseCalls [i] :=
  List.filterMap_append

/-- The driver goes through its own calls. -/
theorem shield_state (slot : Fin 16) (s : Usb n × HidBoot) (steps : List Step) :
    (shield slot s).state steps = (HidBoot.machine 0x02 slot s).state (hidMouseCalls steps) := by
  induction steps using List.reverseRecOn with
  | nil => rfl
  | append_singleton steps i ih =>
    rw [Machine.state_concat, hidMouseCalls_concat]
    cases i with
    | hidMouse b =>
      change _ = (HidBoot.machine 0x02 slot s).state (hidMouseCalls steps ++ [b])
      rw [ih, Machine.state_concat]
      rfl
    | arrive => exact ih.trans (congrArg _ (List.append_nil _).symm)
    | usbGen udint => exact ih.trans (congrArg _ (List.append_nil _).symm)
    | main hw => exact ih.trans (congrArg _ (List.append_nil _).symm)

private theorem mouseReports_map (reports : List Report) :
    mouseReports (reports.map fun r ↦ .mouse (mouseInfo r)) = reports.map mouseInfo := by
  induction reports with
  | nil => rfl
  | cons r reports ih => exact congrArg (mouseInfo r :: ·) ih

/-- The reports the sketch polls are those the driver hands over. -/
theorem mouseReports_shield (slot : Fin 16) (s : Usb n × HidBoot) (steps : List Step) :
    mouseReports ((shield slot s).trace steps) =
      ((HidBoot.machine 0x02 slot s).trace (hidMouseCalls steps)).map mouseInfo := by
  induction steps using List.reverseRecOn with
  | nil => rfl
  | append_singleton steps i ih =>
    have hsplit : ∀ inputs inputs' : List Input, mouseReports (inputs ++ inputs') =
        mouseReports inputs ++ mouseReports inputs' := fun _ _ ↦ List.filterMap_append
    -- A step of the line or of the 16U2 is no report and no call.
    have hkeep : mouseReports ((shield slot s).trace steps) ++ [] =
        ((HidBoot.machine 0x02 slot s).trace (hidMouseCalls steps ++ [])).map mouseInfo := by
      rw [List.append_nil, List.append_nil, ih]
    rw [Machine.trace_concat, hsplit, hidMouseCalls_concat]
    cases i with
    | hidMouse b =>
      change _ = ((HidBoot.machine 0x02 slot s).trace (hidMouseCalls steps ++ [b])).map mouseInfo
      rw [Machine.trace_concat, List.map_append, ih, ← shield_state]
      exact congrArg (_ ++ ·) (mouseReports_map _)
    | arrive => exact hkeep
    | usbGen udint => exact hkeep
    | main hw => exact hkeep

/-- The sketch has parsed what the driver has handed over. -/
theorem device_sketch (keyLow : Bool) (slot : Fin 16) (s : Usb n × HidBoot) (steps : List Step) :
    ((device keyLow slot s).state steps).2.sketch = parseAll (setup keyLow)
      (((HidBoot.machine 0x02 slot s).trace (hidMouseCalls steps)).map mouseInfo) := by
  rw [device, Machine.state_andThen, sketch_eq, mouseReports_shield]

/-! ### From the packets of the mouse -/

/-- The reports in the packets that polls of `HidMouse` take among the answers `used`. -/
def reportsIn (slot : Fin 16) (s : Usb n × HidBoot) (used : Script) : List MouseInfo :=
  ((accepted ⟨s.2.bAddress, (s.1.epInfoAt (.driver slot, 1)).epAddr, .tokIn⟩ used).filterMap
    (HidBoot.bootReport 0 (s.1.epInfoAt (.driver slot, 1)).maxPktSize)).map mouseInfo

/-- All bytes have arrived in the Configured state and found room, each `GET_REPORT` was answered in
full, and the host has been served since the last byte was read. -/
structure Served (keyLow : Bool) (inputs : List Input) : Prop where
  configured : (system keyLow).Meets (OnEvents ConfiguredAtRx) inputs
  room : (system keyLow).Always (fun s o ↦ NoOverrun s.mcu o) inputs
  full : (system keyLow).Meets (OnEvents FullGetReport) inputs
  settled : Settled keyLow inputs

/-- What comes of the packets that polls have taken, `used` being theirs of the answers: the sketch
has parsed the reports in them, in order and each once; and once the host is served, each button it
was last told of is held in the last of them, and with all released there it was told of none. -/
structure Heard (keyLow : Bool) (slot : Fin 16) (s : Usb n × HidBoot) (steps : List Step)
    (used : List Script) : Prop where
  takes : HidBoot.Takes 0x02 slot s (hidMouseCalls steps) used
  sketch : ((device keyLow slot s).state steps).2.sketch =
    parseAll (setup keyLow) (reportsIn slot s used.flatten)
  within (h : Served keyLow ((shield slot s).trace steps)) :
    Within (lastTriple (delivered ((device keyLow slot s).trace steps))).button
      (held (lastByte (reportsIn slot s used.flatten)))
  released (h : Served keyLow ((shield slot s).trace steps))
    (hnone : held (lastByte (reportsIn slot s used.flatten)) = 0) :
    (lastTriple (delivered ((device keyLow slot s).trace steps))).button = 0

/-- A click of a mouse with address 1: two packets, the frames of both on the line, and time for the
16U2 to serve them. -/
def packetClick : List Step :=
  [.usbGen ⟨false, false, true, false⟩, .main ⟨true, true, none⟩, .main ⟨true, true, none⟩,
      .main ⟨true, true, some ⟨0x00, 0x09, 1, 0, 0⟩⟩, .main ⟨true, true, none⟩,
      .main ⟨true, true, none⟩, .hidMouse (.poll 5 7 [dataAnswer [1, 0, 0]]),
      .hidMouse (.poll 20 22 [dataAnswer [0, 0, 0]])] ++
    List.replicate 12 .arrive ++ List.replicate 71 (.main ⟨true, true, none⟩)

/-- From the bus to the host: while an attached mouse is polled, whatever it and the bus answer and
however the polls, the line and the 16U2 interleave, the packets taken are what the sketch and the
host hear of, as long as the driver has left no buffer. -/
theorem buttons_of_packets {p : AddressPool n} (hatt : HidBoot.Attached 0x02 slot p s.1 s.2)
    (htable : HidBoot.EpTable 0x02 slot s.1 s.2.bNumEP)
    (hep : (s.1.epInfoAt (.driver slot, 1)).epAddr ≠ 0)
    (hparser : s.2.pRptParser[0]?.getD false = true)
    (hpolls : ∀ b ∈ hidMouseCalls steps, b.IsPoll)
    (hend : (shield slot s).state steps = some s') (hin : s'.2.overrun = false) :
    ∃ used, Heard keyLow slot s steps used := by
  have hlisten := hatt.listening rfl htable hep hparser
  rw [shield_state] at hend
  obtain ⟨-, used, huses, htrace⟩ :=
    hlisten.machine_delivers rfl hpolls hend (by rw [hin]; decide)
  have hreports : ((HidBoot.machine 0x02 slot s).trace (hidMouseCalls steps)).map mouseInfo =
      reportsIn slot s used.flatten := congrArg (List.map mouseInfo) htrace
  have hwithin : Served keyLow ((shield slot s).trace steps) →
      Within (lastTriple (delivered ((device keyLow slot s).trace steps))).button
        (held (lastByte (reportsIn slot s used.flatten))) := by
    intro h
    rw [device, Machine.trace_andThen, ← hreports, ← mouseReports_shield]
    exact settled_within h.configured h.room h.full h.settled
  refine ⟨used, huses, ?_, hwithin, fun h ↦ within_released (hwithin h)⟩
  rw [device_sketch, hreports]

/-- The host hears of both packets. -/
theorem buttons_of_packets_click :
    (∃ used, Heard false ⟨0, by decide⟩ (HidBoot.reportingMouse.usb, HidBoot.reportingMouse.hid)
        packetClick used) ∧
      Served false ((shield ⟨0, by decide⟩ (HidBoot.reportingMouse.usb,
        HidBoot.reportingMouse.hid)).trace packetClick) := by
  have hclick : (shield ⟨0, by decide⟩ (HidBoot.reportingMouse.usb,
      HidBoot.reportingMouse.hid)).trace packetClick = click := by decide +kernel
  obtain ⟨s', hend, hin⟩ := Option.map_eq_some_iff.mp
    (show ((shield ⟨0, by decide⟩ (HidBoot.reportingMouse.usb,
      HidBoot.reportingMouse.hid)).state packetClick).map (·.2.overrun) = some false by
        decide +kernel)
  constructor
  · exact buttons_of_packets HidBoot.attached_reportingMouse HidBoot.epTable_reportingMouse
      (by decide) (by decide) (by decide) hend hin
  · rw [hclick]
    exact ⟨by decide +kernel, by decide +kernel, by decide +kernel, click.dropLast,
      .main ⟨true, true, none⟩, by decide +kernel, by decide +kernel, by decide +kernel⟩

end MouseAide.System
