import MouseAide.Base.Machine
import MouseAide.Firmware.RingBuffer
import MouseAide.Firmware.Device

/-!
# The 16U2 firmware

Library `MouseFirmware`. `arduino_mouse_16u2/Mouse.c:42–196` on the ring buffer and the USB
stack. The main loop is a program counter over its statements; an interrupt may be taken
between any two of them, in any order and any number. `RingBuffer_Remove` is four
statements, a frame assignment three, `HID_Device_USBTask` three and a
`SET_CONFIGURATION` request three. Endpoint writes are assumed to complete.
-/

namespace MouseAide.Firmware

open MouseAide.Base

/-- `USB_MouseReport_Data_t`, `LUFA/Drivers/USB/Class/Common/HID.h:156–161`. -/
structure MouseReportData where
  button : UInt8
  x : Int8
  y : Int8
  deriving DecidableEq, Repr

/-- The all-zero report. -/
def MouseReportData.zero : MouseReportData := ⟨0, 0, 0⟩

/-- `((uint8_t*)&newReport)[ind] = data`; the fourth byte of a frame is discarded. -/
def MouseReportData.setByte (r : MouseReportData) (ind : Fin 4) (data : UInt8) :
    MouseReportData :=
  match ind with
  | 0 => { r with button := data }
  | 1 => { r with x := data.toInt8 }
  | 2 => { r with y := data.toInt8 }
  | 3 => r

/-- The next statement of one `RingBuffer_Remove` call, with its local `Data`. -/
inductive Removal where
  | read
  | advance (data : UInt8)
  | wrap (data : UInt8)
  | decrement (data : UInt8)
  deriving DecidableEq, Repr

/-- The next statement of the main loop. -/
inductive Pc where
  | getCount
  | remove (ind : Fin 4) (removal : Removal)
  | assignButton
  | assignX
  | assignY
  | hidTask
  | hidCreate
  | hidSend (reportINData : MouseReportData) (send : Bool)
  | usbTask
  | setAddress (deviceAddress : UInt8)
  | setConfiguration
  | configurationChanged
  deriving DecidableEq, Repr

/-- Every global of the firmware, `main`'s `newReport` and the program counter. -/
structure Mcu where
  ring : RingBuff 128
  newReport : MouseReportData
  mouseReport : MouseReportData
  prevReportINBuffer : MouseReportData
  hid : HidState
  usb : UsbDevice
  pc : Pc
  deriving DecidableEq, Repr

/-- What the hardware shows a statement of the main loop. -/
structure Hardware where
  isReadWriteAllowed : Bool
  isINReady : Bool
  setup : Option ControlRequest
  deriving DecidableEq, Repr

/-- One step of a run: a received byte, a USB interrupt, or a main-loop statement. -/
inductive Event where
  | usart1Rx (udr1 : UInt8)
  | usbGen (udint : Udint)
  | main (hw : Hardware)
  deriving DecidableEq, Repr

/-- What a run shows: the serial side, the frame decoder, and the reports to the host. -/
inductive Obs where
  | accepted (receivedByte : UInt8)
  | dropped (receivedByte : UInt8)
  | counted (bufferCount : UInt8)
  | read (ind : Fin 4) (data : UInt8)
  | assigned (report : MouseReportData)
  | inReport (report : MouseReportData)
  | getReport (report : MouseReportData) (size : Nat)
  | reply (value : UInt8)
  | serviced
  deriving DecidableEq, Repr

/-! ### Interrupts -/

/-- `ISR(USART1_RX_vect)`, `Mouse.c:191–196`. -/
def usart1Rx (udr1 : UInt8) (s : Mcu) : Mcu × List Obs :=
  if s.usb.deviceState = .configured then
    ({ s with ring := RingBuffer.insert s.ring udr1 }, [.accepted udr1])
  else (s, [.dropped udr1])

/-- `ISR(USB_GEN_vect)` on the firmware's globals. -/
def usbInterrupt (f : Udint) (s : Mcu) : Mcu × List Obs :=
  ({ s with usb := (usbGen f s.usb s.hid).1, hid := (usbGen f s.usb s.hid).2 }, [])

/-! ### Control requests -/

/-- `CALLBACK_HID_Device_CreateHIDReport`, `Mouse.c:161–170`: the report, its size, no force. -/
def createHIDReport (s : Mcu) : MouseReportData × Nat × Bool := (s.mouseReport, 3, false)

/-- `HID_Device_ProcessControlRequest`, `HID.c:38–131`. -/
def hidProcessControlRequest (r : ControlRequest) (s : Mcu) : Mcu × List Obs :=
  match r.hid with
  | some .getReport =>
    let (report, size, _) := createHIDReport s
    ({ s with prevReportINBuffer := report, pc := .getCount },
      [.getReport report (min size r.wLength.toNat)])
  | some .getProtocol =>
    ({ s with pc := .getCount }, [.reply (if s.hid.usingReportProtocol then 1 else 0)])
  | some .setProtocol =>
    ({ s with hid.usingReportProtocol := r.wValue &&& 0xFF != 0, pc := .getCount }, [])
  | some .setIdle => ({ s with hid.idleCount := r.idlePeriod, pc := .getCount }, [])
  | some .getIdle =>
    ({ s with pc := .getCount }, [.reply (s.hid.idleCount >>> 2).toUInt8])
  | some .setReport | none => ({ s with pc := .getCount }, [])

/-- `USB_Device_ProcessControlRequest`, `DevChapter9.c:49–123`, up to the first wait. -/
def processControlRequest (r : ControlRequest) (s : Mcu) : Mcu × List Obs :=
  match r.standard with
  | some .setAddress => ({ s with pc := .setAddress (r.wValue &&& 0x7F).toUInt8 }, [])
  | some .setConfiguration =>
    if r.wValue.toUInt8 > 1 then ({ s with pc := .getCount }, [])
    else ({ s with usb.configurationNumber := r.wValue.toUInt8, pc := .setConfiguration }, [])
  | some .getConfiguration => ({ s with pc := .getCount }, [.reply s.usb.configurationNumber])
  | some .getStatus | some .clearSetFeature | some .getDescriptor =>
    ({ s with pc := .getCount }, [])
  | none => hidProcessControlRequest r s

/-- `USB_DeviceTask`, `USBTask.c:61–74`. -/
def usbTask (hw : Hardware) (s : Mcu) : Mcu × List Obs :=
  if s.usb.deviceState = .unattached then ({ s with pc := .getCount }, [])
  else match hw.setup with
    | none => ({ s with pc := .getCount }, [])
    | some r => processControlRequest r s

/-! ### The main loop -/

/-- Where the main loop goes on after the call of `RingBuffer_Remove` for byte `ind`. -/
def afterRemove : Fin 4 → Pc
  | 0 => .remove 1 .read
  | 1 => .remove 2 .read
  | 2 => .remove 3 .read
  | 3 => .assignButton

/-- One statement of `RingBuffer_Remove` called for byte `ind` of a frame. -/
def removeStep (ind : Fin 4) (removal : Removal) (s : Mcu) : Mcu × List Obs :=
  match removal with
  | .read =>
    let data := RingBuffer.removeRead s.ring
    ({ s with pc := .remove ind (.advance data) }, [.read ind data])
  | .advance data =>
    ({ s with ring := RingBuffer.removeAdvance s.ring, pc := .remove ind (.wrap data) }, [])
  | .wrap data =>
    ({ s with ring := RingBuffer.removeWrap s.ring, pc := .remove ind (.decrement data) }, [])
  | .decrement data =>
    ({ s with
        ring := RingBuffer.removeDecrement s.ring
        newReport := s.newReport.setByte ind data
        pc := afterRemove ind }, [])

/-- The comparison and copy of `HID_Device_USBTask`, `HID.c:156–173`. -/
def hidCreate (s : Mcu) : Mcu × List Obs :=
  let (reportINData, size, forceSend) := createHIDReport s
  let statesChanged := reportINData != s.prevReportINBuffer
  let send := size != 0 && (forceSend || statesChanged || s.hid.idlePeriodElapsed)
  ({ s with prevReportINBuffer := reportINData, pc := .hidSend reportINData send }, [])

/-- The send branch of `HID_Device_USBTask`, `HID.c:175–187`. -/
def hidSend (reportINData : MouseReportData) (send : Bool) (s : Mcu) :
    Mcu × List Obs :=
  if send then
    ({ s with hid.idleMSRemaining := s.hid.idleCount, pc := .usbTask },
      [.inReport reportINData, .serviced])
  else ({ s with pc := .usbTask }, [.serviced])

/-- One statement of `main`'s loop, `Mouse.c:78–96`. -/
def mainStep (hw : Hardware) (s : Mcu) : Mcu × List Obs :=
  match s.pc with
  | .getCount =>
    let bufferCount := RingBuffer.getCount s.ring
    ({ s with pc := if 4 ≤ bufferCount then .remove 0 .read else .hidTask },
      [.counted bufferCount])
  | .remove ind removal => removeStep ind removal s
  | .assignButton => ({ s with mouseReport.button := s.newReport.button, pc := .assignX }, [])
  | .assignX => ({ s with mouseReport.x := s.newReport.x, pc := .assignY }, [])
  | .assignY =>
    let mouseReport := { s.mouseReport with y := s.newReport.y }
    ({ s with mouseReport, pc := .hidTask }, [.assigned mouseReport])
  | .hidTask =>
    if s.usb.deviceState = .configured ∧ hw.isReadWriteAllowed then
      ({ s with pc := .hidCreate }, [])
    else ({ s with pc := .usbTask }, [])
  | .hidCreate => hidCreate s
  | .hidSend reportINData send => hidSend reportINData send s
  | .usbTask => usbTask hw s
  | .setAddress deviceAddress =>
    -- `USB_Device_SetAddress` waits for the status stage or for the device to be detached.
    if hw.isINReady then
      ({ s with
          usb.deviceState := if deviceAddress ≠ 0 then .addressed else s.usb.deviceState
          pc := .getCount }, [])
    else if s.usb.deviceState = .unattached then ({ s with pc := .getCount }, [])
    else (s, [])
  | .setConfiguration =>
    ({ s with
        usb.deviceState := if s.usb.configurationNumber ≠ 0 then .configured else .addressed
        pc := .configurationChanged }, [])
  | .configurationChanged =>
    ({ s with hid := .configureEndpoints, usb.udien.sofe := true, pc := .getCount }, [])

/-- One event of a run. -/
def step (s : Mcu) : Event → Mcu × List Obs
  | .usart1Rx udr1 => usart1Rx udr1 s
  | .usbGen f => usbInterrupt f s
  | .main hw => mainStep hw s

/-- The firmware at the first `RingBuffer_GetCount`: hardware set up, ring initialised. -/
def start : Mcu where
  ring := RingBuffer.initBuffer (RingBuffer.powerUp 128)
  newReport := .zero
  mouseReport := .zero
  prevReportINBuffer := .zero
  hid := .powerUp
  usb := .resetInterface
  pc := .getCount

/-- The 16U2 as a machine over its events. -/
def firmware : Machine Mcu Event Obs := ⟨start, step⟩

/-- A main-loop statement with the endpoints ready and no setup packet waiting. -/
def turn : Event := .main ⟨true, true, none⟩

/-- From reset to Configured: the bus reset, then `SET_CONFIGURATION 1` in the first pass. -/
def enumeration : List Event :=
  [.usbGen ⟨false, false, true, false⟩, turn, turn,
    .main ⟨true, true, some ⟨0x00, 0x09, 1, 0, 0⟩⟩, turn, turn]

example : (firmware.state enumeration).usb.deviceState = .configured := by decide

end MouseAide.Firmware
