import MouseAide.Host.ConfigParser
import MouseAide.Host.Transfer

/-!
# The boot-protocol driver

Library `MouseHost`. `USB_Host_Shield_2.0/hidboot.h:26–34,186–625` with the requests of
`usbhid.cpp:34–68` it makes, as built without `DEBUG_USB_HOST`. `proto` is the template argument
`BOOT_PROTOCOL`, which is `USB_HID_PROTOCOL_MOUSE` in the sketch, and `slot` the driver's place in
`devConfig`. The array `epInfo` is the record `.driver slot` of the shield, where the transfers
find it. Where the code leaves a buffer on the stack the model raises `overrun` and stops: what a
driver does from there on is not modelled.
-/

namespace MouseAide.Host

/-- `USB_DEV_CONFIG_ERROR_DEVICE_NOT_SUPPORTED`, `UsbCore.h:81`. -/
def errorDeviceNotSupported : UInt8 := 0xD1

/-- `USB_ERROR_OUT_OF_ADDRESS_SPACE_IN_POOL`, `UsbCore.h:84`. -/
def errorOutOfAddressSpaceInPool : UInt8 := 0xD4

/-- `USB_ERROR_CLASS_INSTANCE_ALREADY_IN_USE`, `UsbCore.h:89`. -/
def errorClassInstanceAlreadyInUse : UInt8 := 0xD9

/-- `USB_NAK_NOWAIT`, `address.h:29`. -/
def usbNakNoWait : Fin 64 := ⟨1, by decide⟩

/-- The members of `HIDBoot`; of the report parsers, which are set. `overrun` is not a member. -/
structure HidBoot where
  bAddress : UInt8
  bConfNum : UInt8
  bNumEP : UInt8
  bInterval : UInt8
  qNextPollTime : UInt32
  bPollEnable : Bool
  bRptProtoEnable : Bool
  pRptParser : List Bool
  overrun : Bool
  deriving DecidableEq, Repr

/-- What the stack held where `Init` and `getConfDescr` read one configuration: the members the
parser's constructor leaves alone, and the buffer. -/
structure ConfStack where
  varBuffer : Vector UInt8 16
  valueSize : Nat
  isGoodInterface : Bool
  confValue : UInt8
  protoValue : UInt8
  ifaceNumber : UInt8
  ifaceAltSet : UInt8
  buf : List UInt8

/-- `confDescrParser`, as constructed. -/
def ConfStack.parser (s : ConfStack) : ConfigDescParser :=
  .init s.varBuffer s.valueSize s.isGoodInterface s.confValue s.protoValue s.ifaceNumber
    s.ifaceAltSet

/-- `BOOT_PROTOCOL & USB_HID_PROTOCOL_KEYBOARD`. -/
def hasKeyboard (proto : UInt8) : Bool := proto &&& 0x01 != 0

/-- `BOOT_PROTOCOL & USB_HID_PROTOCOL_MOUSE`. -/
def hasMouse (proto : UInt8) : Bool := proto &&& 0x02 != 0

/-- `totalEndpoints`, `hidboot.h:32–33`. -/
def totalEndpoints (proto : UInt8) : UInt8 := if hasKeyboard proto && hasMouse proto then 3 else 2

/-- `epMUL`, `hidboot.h:34`. -/
def epMUL (proto : UInt8) : Nat :=
  (if hasKeyboard proto then 1 else 0) + if hasMouse proto then 1 else 0

/-- The template arguments of the parser, `hidboot.h:391–396`, `hidboot.h:407–411` and
`hidboot.h:423–427`, and `SetOR`. -/
def bootMask (proto : UInt8) : InterfaceMask :=
  ⟨3, 1, proto &&& 3, 7, hasKeyboard proto && hasMouse proto⟩

/-- A method of the driver under way: the last request's answer, and the members. -/
structure Call (n : Nat) extends Reply n where
  hid : HidBoot

/-- A call of `pRptParser[id]->Parse(this, 0, len, buf)`. -/
structure Report where
  id : Nat
  len : UInt8
  buf : List UInt8
  deriving DecidableEq, Repr

namespace Usb

variable {n : Nat}

/-- `SetProtocol`, `usbhid.cpp:66–68`. -/
def setProtocol (u : Usb n) (addr iface protocol : UInt8) (script : Script) : Option (Reply n) :=
  u.ctrlReq addr 0 ⟨0x21, 0x0B, protocol, 0x00, iface.toUInt16, 0⟩ 0 none script

/-- `SetIdle`, `usbhid.cpp:62–64`. -/
def setIdle (u : Usb n) (addr iface reportID duration : UInt8) (script : Script) :
    Option (Reply n) :=
  u.ctrlReq addr 0 ⟨0x21, 0x0A, reportID, duration, iface.toUInt16, 0⟩ 0 none script

/-- `GetReportDescr` with a parser, `usbhid.cpp:34–43`. -/
def getReportDescr (u : Usb n) (addr : UInt8) (wIndex : UInt16) (script : Script) :
    Option (Reply n) :=
  u.ctrlReq addr 0 ⟨0x81, 0x06, 0x00, 0x22, wIndex, 128⟩ 64 (some []) script

/-- `SetReport`, `usbhid.cpp:50–52`. -/
def setReport (u : Usb n) (addr ep iface report_type report_id : UInt8) (data : List UInt8)
    (script : Script) : Option (Reply n) :=
  u.ctrlReq addr ep ⟨0x21, 0x09, report_id, report_type, iface.toUInt16, UInt16.ofNat data.length⟩
    (UInt16.ofNat data.length) (some data) script

end Usb

namespace HidBoot

variable {n : Nat}

/-- The constructor, `hidboot.h:255–268`, of a driver in static storage. -/
def start (proto : UInt8) (bRptProtoEnable : Bool) : HidBoot :=
  { bAddress := 0, bConfNum := 0, bNumEP := 1, bInterval := 0, qNextPollTime := 0
    bPollEnable := false, bRptProtoEnable, pRptParser := List.replicate (epMUL proto) false
    overrun := false }

/-- The table `Initialize` fills in, `hidboot.h:272–278`. -/
def initEpInfo (proto : UInt8) : List EpInfo :=
  controlEp :: List.replicate ((totalEndpoints proto).toNat - 1) ⟨0, 0, false, false, usbNakNoWait⟩

/-- `SetReportParser`, `hidboot.h:224–227`, with a parser. -/
def setReportParser (h : HidBoot) (id : Nat) : HidBoot :=
  { h with pRptParser := h.pRptParser.set id true }

/-- `EndpointXtract`, `hidboot.h:539–561`. -/
def endpointXtract (proto : UInt8) (slot : Fin 16) (s : Usb n × HidBoot) (pep : EndpointCall) :
    Usb n × HidBoot :=
  let (u, h) := s
  if h.bNumEP = totalEndpoints proto then (u, h)
  else
    let h := { h with bConfNum := pep.conf }
    if pep.bmAttributes &&& 0x03 = 0x03 ∧ pep.bEndpointAddress &&& 0x80 = 0x80 then
      (u.setEpInfo (.driver slot, h.bNumEP.toNat)
        ⟨pep.bEndpointAddress &&& 0x0F, pep.wMaxPacketSize.toUInt8, false, false, usbNakNoWait⟩,
        { h with bInterval := max h.bInterval pep.bInterval, bNumEP := h.bNumEP + 1 })
    else (u, h)

/-- `Release`, `hidboot.h:563–575`. -/
def release (u : Usb n) (h : HidBoot) : Option (Usb n × HidBoot) :=
  (u.addrPool.freeAddress h.bAddress).map fun pool ↦
    ({ u with addrPool := pool },
      { h with
        bConfNum := 0, bNumEP := 1, bAddress := 0, qNextPollTime := 0, bPollEnable := false })

end HidBoot

namespace Call

variable {n : Nat}

/-- A request over the bus. -/
def request (c : Call n) (f : Usb n → Script → Option (Reply n)) : Option (Call n) :=
  (f c.usb c.script).map fun r ↦ ⟨r, c.hid⟩

/-- `if(rcode) goto Fail…`. -/
def andThen (c : Option (Call n)) (f : Call n → Option (Call n)) : Option (Call n) :=
  c.bind fun c ↦ if c.rcode ≠ 0 then some c else f c

/-- The label `Fail`, to which the ones before it fall through, `hidboot.h:494–535`. -/
def fail (c : Call n) : Option (Call n) :=
  (HidBoot.release c.usb c.hid).map fun r ↦ { c with usb := r.1, hid := r.2 }

end Call

namespace HidBoot

variable {n : Nat} (proto : UInt8) (slot : Fin 16)

/-- The first eight bytes of the device descriptor, `hidboot.h:308–344`; entry 0 points at the
driver's own endpoints meanwhile. -/
def firstDescr (c : Call n) (lowspeed : Bool) : Option (Call n) :=
  let oldep_ptr := c.usb.addrPool.epinfo
  let pool := (c.usb.addrPool.setEpinfo (.driver slot)).setLowspeed 0 lowspeed
  (Call.request { c with usb.addrPool := pool } fun u ↦ u.getDevDescr 0 0 8).map fun c ↦
    { c with usb.addrPool := c.usb.addrPool.setEpinfo oldep_ptr }

/-- The new address, `hidboot.h:346–376`; an error here is returned without `Release`. -/
def giveAddress (c : Call n) (parent port : UInt8) (lowspeed : Bool) (bMaxPacketSize0 : UInt8) :
    Option (Call n) :=
  let (pool, bAddress) := c.usb.addrPool.allocAddress parent false port
  let c : Call n := { c with usb.addrPool := pool, hid.bAddress := bAddress }
  if bAddress = 0 then some { c with rcode := errorOutOfAddressSpaceInPool }
  else
    let ep := { c.usb.epInfoAt (.driver slot, 0) with maxPktSize := bMaxPacketSize0 }
    (Call.request { c with usb := c.usb.setEpInfo (.driver slot, 0) ep } fun u ↦
      u.setAddr 0 0 bAddress).bind fun c ↦
        let c : Call n := { c with usb.addrPool := c.usb.addrPool.setLowspeed 0 false }
        if c.rcode ≠ 0 then
          (c.usb.addrPool.freeAddress bAddress).map fun pool ↦
            { c with usb.addrPool := pool, hid.bAddress := 0 }
        else
          match c.usb.addrPool.getUsbDevicePtr bAddress with
          | none => some { c with rcode := errorAddressNotFoundInPool }
          | some _ =>
            some { c with usb.addrPool := c.usb.addrPool.setLowspeed bAddress lowspeed }

/-- `Parse` reads the bytes stored and no others: it is told of more than the buffer holds when a
packet lies across its end. -/
def inBuffer (c : ParseCall) : Bool := c.len.toNat == c.data.length

/-- `pUsb->getConfDescr(bAddress, 0, i, &confDescrParser)`, whose result is dropped. The calls of
`EndpointXtract` come with the data; no transfer of this request looks at what they write. -/
def readConf (i : UInt8) (buf : List UInt8) (p : ConfigDescParser) (c : Call n) :
    Option (ConfigDescParser × Call n) :=
  (c.request fun u ↦ u.parseConfDescr c.hid.bAddress 0 i buf).bind fun c ↦
    (p.parsePieces (bootMask proto) ((c.reads.takeWhile inBuffer).map ParseCall.data)).map
      fun (p, peps) ↦
        let (u, h) := peps.foldl (endpointXtract proto slot) (c.usb, c.hid)
        (p, { c with
          rcode := 0, usb := u
          hid := { h with overrun := h.overrun || p.overrun || !c.reads.all inBuffer } })

/-- The loops over the configurations, `hidboot.h:389–436`. The driver of both protocols has one
parser for all of them, the others construct one for each. -/
def tryConfs (stack : UInt8 → ConfStack) :
    List UInt8 → ConfigDescParser → Call n → Option (Call n)
  | [], _, c => some c
  | i :: is, p, c =>
    let p := if hasKeyboard proto && hasMouse proto then p else (stack i).parser
    (readConf proto slot i (stack i).buf p c).bind fun (p, c) ↦
      if c.hid.overrun ∨ c.hid.bNumEP = totalEndpoints proto then some c else tryConfs stack is p c

/-- The requests to one interface, `hidboot.h:463–473`, of which only the first may not fail. -/
def setInterface (i : UInt8) (c : Call n) : Option (Call n) :=
  Call.andThen (c.request fun u ↦
      u.setProtocol c.hid.bAddress i (if c.hid.bRptProtoEnable then 0x01 else 0x00)) fun c ↦
    (c.request fun u ↦ u.setIdle c.hid.bAddress i 0 0).bind fun c ↦
      (c.request fun u ↦ u.getReportDescr c.hid.bAddress i.toUInt16).map fun c ↦
        { c with rcode := 0 }

/-- The loop over the interfaces, `hidboot.h:462`. -/
def setInterfaces : List UInt8 → Call n → Option (Call n)
  | [], c => some c
  | i :: is, c => Call.andThen (setInterface i c) (setInterfaces is)

/-- The values of `rcode` in the loop that wakes a keyboard, `hidboot.h:481–487`. -/
def twinkle : List UInt8 → Call n → Option (Call n)
  | [], c => some c
  | leds :: rest, c =>
    (c.request fun u ↦ u.setReport c.hid.bAddress 0 0 2 0 [leds]).bind fun c ↦
      twinkle rest { c with rcode := 0 }

/-- `Init` once the device has its address, `hidboot.h:378–492`; `buf` holds the start of its
descriptor. -/
def configure (stack : UInt8 → ConfStack) (buf : List UInt8) (c : Call n) : Option (Call n) :=
  let len := min (buf[0]?.getD 0) 18
  let second :=
    if len = 0 then some { c with reads := [] }
    else c.request fun u ↦ u.getDevDescr c.hid.bAddress 0 len.toUInt16
  Call.andThen second fun c ↦
  let num_of_conf := (Usb.buffer buf c.reads)[17]?.getD 0
  let confs :=
    if hasKeyboard proto || hasMouse proto then
      tryConfs proto slot stack ((List.range num_of_conf.toNat).map UInt8.ofNat) (stack 0).parser c
    else some c
  confs.bind fun c ↦
  if c.hid.overrun then some c
  else if c.hid.bNumEP ≠ totalEndpoints proto then some { c with rcode := errorDeviceNotSupported }
  else
    let c : Call n := { c with
      usb.addrPool := c.usb.addrPool.setEpInfoEntry c.hid.bAddress c.hid.bNumEP (.driver slot) }
    Call.andThen (c.request fun u ↦ u.setConf c.hid.bAddress 0 c.hid.bConfNum) fun c ↦
    Call.andThen (setInterfaces ((List.range (epMUL proto)).map UInt8.ofNat) c) fun c ↦
    (if hasKeyboard proto then twinkle [0x10, 0x08, 0x04, 0x02, 0x01, 0x00] c else some c).map
      fun c ↦ { c with rcode := 0, hid.bPollEnable := true }

/-- `Init`, `hidboot.h:285–536`, over what the stack held at its buffer. -/
def init (c : Call n) (parent port : UInt8) (lowspeed : Bool) (buf : List UInt8)
    (stack : UInt8 → ConfStack) : Option (Call n) :=
  if c.hid.bAddress ≠ 0 then some { c with rcode := errorClassInstanceAlreadyInUse }
  else
    let c : Call n := { c with hid.bInterval := 0 }
    if c.usb.addrPool.epinfo = .null then some { c with rcode := errorEpInfoIsNull }
    else
      (firstDescr slot c lowspeed).bind fun c ↦
      if c.rcode ≠ 0 then c.fail
      else
        let buf := Usb.buffer buf c.reads
        Call.andThen (giveAddress slot c parent port lowspeed (buf[7]?.getD 0)) fun c ↦
        (configure proto slot stack buf c).bind fun c ↦
          if c.hid.overrun = false ∧ c.rcode ≠ 0 then c.fail else some c

/-- `(int32_t)((uint32_t)millis() - qNextPollTime) >= 0L`. -/
def due (now qNextPollTime : UInt32) : Bool := now - qNextPollTime < 0x80000000

/-- One round of the loop of `Poll`, `hidboot.h:585–598`, with the reports given to the parser; the
transfer has stored into the sixteen bytes of `buf`. -/
def pollOne (i : Nat) (c : Call n) : Option (Call n × List Report) :=
  let ep := c.usb.epInfoAt (.driver slot, 1 + i)
  (c.request fun u ↦ u.inTransfer c.hid.bAddress ep.epAddr ep.maxPktSize.toUInt16).map fun c ↦
    match c.reads with
    | [] => (c, [])
    | r :: _ =>
      if 16 < r.data.length then ({ c with hid.overrun := true }, [])
      else if c.rcode = 0 ∧ r.len > 2 ∧ c.hid.pRptParser[i]?.getD false then
        (c, [⟨i, r.len.toUInt8, r.data⟩])
      else (c, [])

/-- The loop of `Poll`, `hidboot.h:584`. -/
def pollAll : List Nat → Call n → Option (Call n × List Report)
  | [], c => some (c, [])
  | i :: is, c =>
    (pollOne slot i c).bind fun (c, reports) ↦
      if c.hid.overrun then some (c, reports)
      else (pollAll is c).map fun (c, more) ↦ (c, reports ++ more)

/-- `Poll`, `hidboot.h:577–625`; the clock shows `now` before the transfers and `later` after. -/
def poll (c : Call n) (now later : UInt32) : Option (Call n × List Report) :=
  if c.hid.bPollEnable ∧ due now c.hid.qNextPollTime then
    (pollAll slot (List.range (epMUL proto)) { c with rcode := 0 }).map fun (c, reports) ↦
      ({ c with hid.qNextPollTime := later + c.hid.bInterval.toUInt32 }, reports)
  else some ({ c with rcode := 0 }, [])

end HidBoot

end MouseAide.Host
