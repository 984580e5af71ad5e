import Mathlib.Data.UInt

/-!
# USB device state and HID class state

Library `MouseFirmware`. The parts of the vendored USB stack that the firmware's control
flow reads: `LUFA/Drivers/USB/HighLevel/USBInterrupt.c:68–163` as compiled for the
ATmega16U2 (a series 2 controller, so no VBUS interrupt and suspend counts as detached),
`LowLevel/DevChapter9.c:49–212` and `Class/Device/HID.c:38–147`. Interrupt flags, endpoint
readiness and setup packets come from the host and are inputs.
-/

namespace MouseAide.Firmware

/-- `USB_Device_States_t`, `LUFA/Drivers/USB/LowLevel/Device.h:146–172`. -/
inductive DeviceState where
  | unattached | powered | default | addressed | configured | suspended
  deriving DecidableEq, Repr

/-- The enable bits of `UDIEN` the stack uses. -/
structure Udien where
  suspe : Bool
  wakeupe : Bool
  eorste : Bool
  sofe : Bool
  deriving DecidableEq, Repr

/-- The flags of `UDINT` found pending when the general interrupt is taken. -/
structure Udint where
  suspi : Bool
  wakeupi : Bool
  eorsti : Bool
  sofi : Bool
  deriving DecidableEq, Repr

/-- `USB_DeviceState`, `USB_ConfigurationNumber` and the interrupt enables. -/
structure UsbDevice where
  deviceState : DeviceState
  configurationNumber : UInt8
  udien : Udien
  deriving DecidableEq, Repr

/-- `USB_ResetInterface`, `LowLevel/LowLevel.c:134–218`: detached, waiting for suspend or reset. -/
def UsbDevice.resetInterface : UsbDevice :=
  { deviceState := .unattached
    configurationNumber := 0
    udien := { suspe := true, wakeupe := false, eorste := true, sofe := false } }

/-- The `State` part of `USB_ClassInfo_HID_Device_t`, `HID.h:105–113`. -/
structure HidState where
  usingReportProtocol : Bool
  idleCount : UInt16
  idleMSRemaining : UInt16
  deriving DecidableEq, Repr

/-- The zeroed class state of a reset. -/
def HidState.powerUp : HidState := ⟨false, 0, 0⟩

/-- `HID_Device_ConfigureEndpoints`, `HID.c:133–147`. -/
def HidState.configureEndpoints : HidState := ⟨true, 500, 0⟩

/-- `HID_Device_MillisecondElapsed`, `HID.h:181–185`. -/
def HidState.millisecondElapsed (h : HidState) : HidState :=
  if h.idleMSRemaining ≠ 0 then { h with idleMSRemaining := h.idleMSRemaining - 1 } else h

/-- `IdlePeriodElapsed` of `HID_Device_USBTask`, `HID.c:167`. -/
def HidState.idlePeriodElapsed (h : HidState) : Bool :=
  h.idleCount != 0 && h.idleMSRemaining == 0

/-! ### The general USB interrupt -/

/-- The suspend branch, `USBInterrupt.c:89–108`: a series 2 controller counts as detached. -/
def suspendInterrupt (f : Udint) (u : UsbDevice) : UsbDevice :=
  if f.suspi && u.udien.suspe then
    { u with
      deviceState := .unattached
      udien := { u.udien with suspe := false, wakeupe := true } }
  else u

/-- The wake-up branch, `USBInterrupt.c:110–132`. -/
def wakeUpInterrupt (f : Udint) (u : UsbDevice) : UsbDevice :=
  if f.wakeupi && u.udien.wakeupe then
    { u with
      deviceState := if u.configurationNumber ≠ 0 then .configured else .powered
      udien := { u.udien with wakeupe := false, suspe := true } }
  else u

/-- The end-of-reset branch, `USBInterrupt.c:134–156`. -/
def endOfResetInterrupt (f : Udint) (u : UsbDevice) : UsbDevice :=
  if f.eorsti && u.udien.eorste then
    { deviceState := .default
      configurationNumber := 0
      udien := { u.udien with suspe := false, wakeupe := true } }
  else u

/-- The start-of-frame branch, `USBInterrupt.c:158–163`, with `EVENT_USB_Device_StartOfFrame`. -/
def startOfFrameInterrupt (f : Udint) (u : UsbDevice) (h : HidState) : HidState :=
  if f.sofi && u.udien.sofe then h.millisecondElapsed else h

/-- `ISR(USB_GEN_vect)`: the four branches in their order. -/
def usbGen (f : Udint) (u : UsbDevice) (h : HidState) : UsbDevice × HidState :=
  let u := suspendInterrupt f u
  let u := wakeUpInterrupt f u
  let u := endOfResetInterrupt f u
  (u, startOfFrameInterrupt f u h)

/-! ### Control requests -/

/-- `USB_Request_Header_t`, `StdRequestType.h:148–155`. -/
structure ControlRequest where
  bmRequestType : UInt8
  bRequest : UInt8
  wValue : UInt16
  wIndex : UInt16
  wLength : UInt16
  deriving DecidableEq, Repr

/-- The standard requests the device handles itself. -/
inductive StandardRequest where
  | getStatus | clearSetFeature | setAddress | getDescriptor | getConfiguration | setConfiguration
  deriving DecidableEq, Repr

/-- The `switch` of `USB_Device_ProcessControlRequest`, `DevChapter9.c:59–110`. -/
def ControlRequest.standard (r : ControlRequest) : Option StandardRequest :=
  match r.bRequest with
  | 0x00 =>
    if r.bmRequestType = 0x80 ∨ r.bmRequestType = 0x82 then some .getStatus else none
  | 0x01 | 0x03 =>
    if r.bmRequestType = 0x00 ∨ r.bmRequestType = 0x02 then some .clearSetFeature else none
  | 0x05 => if r.bmRequestType = 0x00 then some .setAddress else none
  | 0x06 =>
    if r.bmRequestType = 0x80 ∨ r.bmRequestType = 0x81 then some .getDescriptor else none
  | 0x08 => if r.bmRequestType = 0x80 then some .getConfiguration else none
  | 0x09 => if r.bmRequestType = 0x00 then some .setConfiguration else none
  | _ => none

/-- The class requests of a HID interface. -/
inductive HidRequest where
  | getReport | setReport | getProtocol | setProtocol | setIdle | getIdle
  deriving DecidableEq, Repr

/-- The guard and `switch` of `HID_Device_ProcessControlRequest`, `HID.c:38–131`. -/
def ControlRequest.hid (r : ControlRequest) : Option HidRequest :=
  if r.wIndex ≠ 0 then none
  else match r.bRequest with
    | 0x01 => if r.bmRequestType = 0xA1 then some .getReport else none
    | 0x09 => if r.bmRequestType = 0x21 then some .setReport else none
    | 0x03 => if r.bmRequestType = 0xA1 then some .getProtocol else none
    | 0x0B => if r.bmRequestType = 0x21 then some .setProtocol else none
    | 0x0A => if r.bmRequestType = 0x21 then some .setIdle else none
    | 0x02 => if r.bmRequestType = 0xA1 then some .getIdle else none
    | _ => none

/-- The idle period `REQ_SetIdle` stores: four times its high byte, `HID.c:112`. -/
def ControlRequest.idlePeriod (r : ControlRequest) : UInt16 := (r.wValue &&& 0xFF00) >>> 6

end MouseAide.Firmware
