import MouseAide.Firmware.Main

/-!
# What a step can do

Library `MouseFirmware`. One case for each effect a step of the 16U2 can have on its ring,
its report registers and its trace, with the guard it is taken under,
`arduino_mouse_16u2/Mouse.c:78–96,191–196`. Every invariant of the firmware is derived from
these cases and never from the step function.
-/

namespace MouseAide.Firmware

/-- A frame is being extracted: its four bytes are claimed from the ring. -/
def Pc.extracting : Pc → Bool
  | .remove _ _ | .assignButton | .assignX | .assignY => true
  | _ => false

/-- The send branch of `HID_Device_USBTask` is next. -/
def Pc.sending : Pc → Bool
  | .hidSend _ _ => true
  | _ => false

/-- The next statement touches neither the ring nor a report register. -/
def Pc.passing : Pc → Bool
  | .hidTask | .usbTask | .setAddress _ | .setConfiguration | .configurationChanged => true
  | _ => false

/-- A passing statement is no part of an extraction. -/
theorem Pc.idle_of_passing {pc : Pc} (h : pc.passing = true) : pc.extracting = false := by
  cases pc with
  | remove _ _ | assignButton | assignX | assignY => cases h
  | _ => rfl

/-- A passing statement is no send. -/
theorem Pc.not_sending_of_passing {pc : Pc} (h : pc.passing = true) : pc.sending = false := by
  cases pc with
  | hidSend _ _ => cases h
  | _ => rfl

/-- A passing statement is none of the others. -/
theorem Pc.ne_of_passing {pc pc' : Pc} (h : pc.passing = true) (h' : pc'.passing = false) :
    pc ≠ pc' := by
  rintro rfl
  rw [h] at h'
  cases h'

/-- At most a control reply is observed. -/
def Plain (o : List Obs) : Prop := o = [] ∨ ∃ v, o = [.reply v]

/-- The cases of a step, each with its guard and its whole effect; `pass` leaves open what
happens to the USB and class state. -/
inductive StepCase (s : Mcu) : Event → Mcu × List Obs → Prop where
  | insert (b : UInt8) (configured : s.usb.deviceState = .configured) :
      StepCase s (.usart1Rx b) ({ s with ring := RingBuffer.insert s.ring b }, [.accepted b])
  | drop (b : UInt8) (configured : s.usb.deviceState ≠ .configured) :
      StepCase s (.usart1Rx b) (s, [.dropped b])
  | interrupt (f : Udint) (usb : UsbDevice) (hid : HidState) :
      StepCase s (.usbGen f) ({ s with usb, hid }, [])
  | pass (hw : Hardware) (usb : UsbDevice) (hid : HidState) {pc : Pc} {o : List Obs}
      (before : s.pc.passing = true) (after : pc.extracting = false ∧ pc.sending = false)
      (obs : Plain o) : StepCase s (.main hw) ({ s with usb, hid, pc }, o)
  | claim (hw : Hardware) (pc : s.pc = .getCount) (count : 4 ≤ RingBuffer.getCount s.ring) :
      StepCase s (.main hw)
        ({ s with pc := .remove 0 .read }, [.counted (RingBuffer.getCount s.ring)])
  | decline (hw : Hardware) (pc : s.pc = .getCount)
      (count : ¬ 4 ≤ RingBuffer.getCount s.ring) :
      StepCase s (.main hw) ({ s with pc := .hidTask }, [.counted (RingBuffer.getCount s.ring)])
  | remove (hw : Hardware) (ind : Fin 4) (removal : Removal) (pc : s.pc = .remove ind removal) :
      StepCase s (.main hw) (removeStep ind removal s)
  | assignButton (hw : Hardware) (pc : s.pc = .assignButton) :
      StepCase s (.main hw)
        ({ s with mouseReport.button := s.newReport.button, pc := .assignX }, [])
  | assignX (hw : Hardware) (pc : s.pc = .assignX) :
      StepCase s (.main hw) ({ s with mouseReport.x := s.newReport.x, pc := .assignY }, [])
  | assignY (hw : Hardware) (pc : s.pc = .assignY) :
      StepCase s (.main hw) ({ s with mouseReport.y := s.newReport.y, pc := .hidTask },
        [.assigned { s.mouseReport with y := s.newReport.y }])
  | create (hw : Hardware) (pc : s.pc = .hidCreate) :
      StepCase s (.main hw)
        ({ s with
            prevReportINBuffer := s.mouseReport
            pc := .hidSend s.mouseReport
              (s.mouseReport != s.prevReportINBuffer || s.hid.idlePeriodElapsed) }, [])
  | send (hw : Hardware) (data : MouseReportData) (pc : s.pc = .hidSend data true) :
      StepCase s (.main hw)
        ({ s with hid.idleMSRemaining := s.hid.idleCount, pc := .usbTask },
          [.inReport data, .serviced])
  | suppress (hw : Hardware) (data : MouseReportData) (pc : s.pc = .hidSend data false) :
      StepCase s (.main hw) ({ s with pc := .usbTask }, [.serviced])
  | getReport (hw : Hardware) (r : ControlRequest) (pc : s.pc = .usbTask)
      (setup : hw.setup = some r) (hid : r.hid = some .getReport) :
      StepCase s (.main hw)
        ({ s with prevReportINBuffer := s.mouseReport, pc := .getCount },
          [.getReport s.mouseReport (min 3 r.wLength.toNat)])

section USBTask

variable {s : Mcu} (hw : Hardware) (hpc : s.pc = .usbTask)

include hpc in
/-- Back to the top of the loop from the USB task, with nothing said about a report. -/
private theorem StepCase.back (usb : UsbDevice) (hid : HidState) {o : List Obs} (ho : Plain o) :
    StepCase s (.main hw) ({ s with usb, hid, pc := .getCount }, o) :=
  .pass hw usb hid (by rw [hpc]; rfl) ⟨rfl, rfl⟩ ho

include hpc in
private theorem hidProcessControlRequest_cases {r : ControlRequest} (hsetup : hw.setup = some r) :
    StepCase s (.main hw) (hidProcessControlRequest r s) := by
  unfold hidProcessControlRequest
  split
  · next hid => exact .getReport hw r hpc hsetup hid
  · exact .back hw hpc _ _ (.inr ⟨_, rfl⟩)
  · exact .back hw hpc _ _ (.inl rfl)
  · exact .back hw hpc _ _ (.inl rfl)
  · exact .back hw hpc _ _ (.inr ⟨_, rfl⟩)
  · exact .back hw hpc _ _ (.inl rfl)
  · exact .back hw hpc _ _ (.inl rfl)

include hpc in
private theorem processControlRequest_cases {r : ControlRequest} (hsetup : hw.setup = some r) :
    StepCase s (.main hw) (processControlRequest r s) := by
  have hpass : s.pc.passing = true := by rw [hpc]; rfl
  unfold processControlRequest
  split
  · exact .pass hw _ _ hpass ⟨rfl, rfl⟩ (.inl rfl)
  · split
    · exact .back hw hpc _ _ (.inl rfl)
    · exact .pass hw _ _ hpass ⟨rfl, rfl⟩ (.inl rfl)
  · exact .back hw hpc _ _ (.inr ⟨_, rfl⟩)
  · exact .back hw hpc _ _ (.inl rfl)
  · exact .back hw hpc _ _ (.inl rfl)
  · exact .back hw hpc _ _ (.inl rfl)
  · exact hidProcessControlRequest_cases hw hpc hsetup

include hpc in
private theorem usbTask_cases : StepCase s (.main hw) (usbTask hw s) := by
  unfold usbTask
  split
  · exact .back hw hpc _ _ (.inl rfl)
  · split
    · exact .back hw hpc _ _ (.inl rfl)
    · next hsetup => exact processControlRequest_cases hw hpc hsetup

end USBTask

private theorem mainStep_cases (hw : Hardware) (s : Mcu) :
    StepCase s (.main hw) (mainStep hw s) := by
  unfold mainStep
  split
  · next hpc =>
    dsimp only
    split
    · next hc => exact .claim hw hpc hc
    · next hc => exact .decline hw hpc hc
  · next hpc => exact .remove hw _ _ hpc
  · next hpc => exact .assignButton hw hpc
  · next hpc => exact .assignX hw hpc
  · next hpc => exact .assignY hw hpc
  · next hpc =>
    split
    · exact .pass hw _ _ (by rw [hpc]; rfl) ⟨rfl, rfl⟩ (.inl rfl)
    · exact .pass hw _ _ (by rw [hpc]; rfl) ⟨rfl, rfl⟩ (.inl rfl)
  · next hpc => exact .create hw hpc
  · next data send hpc =>
    cases send with
    | true => exact .send hw data hpc
    | false => exact .suppress hw data hpc
  · next hpc => exact usbTask_cases hw hpc
  · next hpc =>
    have hpass : s.pc.passing = true := by rw [hpc]; rfl
    split
    · exact .pass hw _ _ hpass ⟨rfl, rfl⟩ (.inl rfl)
    · split
      · exact .pass hw _ _ hpass ⟨rfl, rfl⟩ (.inl rfl)
      · exact .pass hw s.usb s.hid hpass (by rw [hpc]; exact ⟨rfl, rfl⟩) (.inl rfl)
  · next hpc => exact .pass hw _ _ (by rw [hpc]; rfl) ⟨rfl, rfl⟩ (.inl rfl)
  · next hpc => exact .pass hw _ _ (by rw [hpc]; rfl) ⟨rfl, rfl⟩ (.inl rfl)

/-- Every event has one of the effects listed. -/
theorem step_cases (s : Mcu) (e : Event) : StepCase s e (step s e) := by
  cases e with
  | usart1Rx b =>
    change StepCase s _ (usart1Rx b s)
    unfold usart1Rx
    split
    · next h => exact .insert b h
    · next h => exact .drop b h
  | usbGen f => exact .interrupt f _ _
  | main hw => exact mainStep_cases hw s

end MouseAide.Firmware
