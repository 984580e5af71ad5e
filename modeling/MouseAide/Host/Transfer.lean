import MouseAide.Host.AddressPool

/-!
# Transfers of the host shield

Library `MouseHost`. `USB_Host_Shield_2.0/Usb.cpp:44–59` and `Usb.cpp:80–428`, with the requests
`Usb.cpp:772–818` makes of them. A transfer is launched by writing the controller's `HXFR` and
read back from its registers; what it finds there is up to the bus, so a run is given a script
with one answer a launch. The clock is read at the tests of the loops: `expired` says that the
test after a launch failed. The test before the first launch follows the clock reading the limit
is made of, and is taken as passed. `none` says that the script ran out.
-/

namespace MouseAide.Host

/-- `hrSUCCESS`, `max3421e.h:207`. -/
def hrSuccess : UInt8 := 0x00

/-- `hrNAK`, `max3421e.h:211`. -/
def hrNak : UInt8 := 0x04

/-- `hrSTALL`, `max3421e.h:212`. -/
def hrStall : UInt8 := 0x05

/-- `hrTOGERR`, `max3421e.h:213`. -/
def hrTogErr : UInt8 := 0x06

/-- `hrTIMEOUT`, `max3421e.h:221`. -/
def hrTimeout : UInt8 := 0x0E

/-- `USB_RETRY_LIMIT`, `UsbCore.h:100`. -/
def usbRetryLimit : UInt8 := 3

/-- `USB_NAK_MAX_POWER`, `address.h:27`. -/
def usbNakMaxPower : Nat := 15

/-- A control endpoint as `AddressPoolImpl`, `address.h:170–174`, and the drivers set it up. -/
def controlEp : EpInfo := ⟨0, 8, false, false, ⟨usbNakMaxPower, by decide⟩⟩

/-- The receive error of `InTransfer`, `Usb.cpp:249`. -/
def receiveError : UInt8 := 0xf0

/-- `USB_ERROR_ADDRESS_NOT_FOUND_IN_POOL`, `UsbCore.h:86`. -/
def errorAddressNotFoundInPool : UInt8 := 0xD6

/-- `USB_ERROR_EPINFO_IS_NULL`, `UsbCore.h:87`. -/
def errorEpInfoIsNull : UInt8 := 0xD7

/-- `USB_ERROR_INVALID_MAX_PKT_SIZE`, `UsbCore.h:90`. -/
def errorInvalidMaxPktSize : UInt8 := 0xDA

/-- `USB_ERROR_EP_NOT_FOUND_IN_TBL`, `UsbCore.h:91`. -/
def errorEpNotFoundInTbl : UInt8 := 0xDB

/-- `SETUP_PKT`, `UsbCore.h:167–190`. -/
structure SetupPkt where
  bmRequestType : UInt8
  bRequest : UInt8
  wValueLo : UInt8
  wValueHi : UInt8
  wIndex : UInt16
  wLength : UInt16
  deriving DecidableEq, Repr

/-- The tokens of `max3421e.h:188–192`, with what the FIFO of each holds when it is launched. -/
inductive Token where
  | tokSetup (pkt : SetupPkt)
  | tokIn
  | tokOut (bytes : List UInt8)
  | tokInHs
  | tokOutHs
  deriving DecidableEq, Repr

/-- One write of `HXFR`, with the address in `PERADDR`. -/
structure Launch where
  perAddr : UInt8
  ep : UInt8
  token : Token
  deriving DecidableEq, Repr

/-- The registers after a launch: `HRSL`, the flag `RCVDAVIRQ`, and the receive FIFO, whose length
is `RCVBC`; and whether the clock has passed the limit by then. -/
structure Attempt where
  hrsl : UInt8
  rcvDav : Bool
  rcvFifo : { bytes : List UInt8 // bytes.length ≤ 64 }
  expired : Bool
  deriving DecidableEq, Repr

namespace Attempt

/-- `regRd(rHRSL) & 0x0f`. -/
def rcode (a : Attempt) : UInt8 := a.hrsl &&& 0x0f

/-- `regRd(rHRSL) & bmRCVTOGRD`. -/
def rcvTogRd (a : Attempt) : Bool := a.hrsl &&& 0x10 != 0

/-- `regRd(rHRSL) & bmSNDTOGRD`. -/
def sndTogRd (a : Attempt) : Bool := a.hrsl &&& 0x20 != 0

end Attempt

/-- The answers of the bus, one a launch. -/
abbrev Script := List (Launch → Attempt)

/-- The loop of `dispatchPkt`, `Usb.cpp:384–427`; its result is the `rcode` of the last answer. -/
def dispatchLoop (l : Launch) (nakLimit : UInt16) :
    UInt8 → UInt16 → Script → Option (Attempt × Script)
  | _, _, [] => none
  | retryCount, nakCount, answer :: script =>
    let a := answer l
    if a.rcode = hrNak then
      if (nakLimit ≠ 0 ∧ nakCount + 1 = nakLimit) ∨ a.expired then some (a, script)
      else dispatchLoop l nakLimit retryCount (nakCount + 1) script
    else if a.rcode = hrTimeout then
      if retryCount + 1 = usbRetryLimit ∨ a.expired then some (a, script)
      else dispatchLoop l nakLimit (retryCount + 1) nakCount script
    else some (a, script)

/-- `dispatchPkt`, `Usb.cpp:377–428`. -/
def dispatchPkt (l : Launch) (nakLimit : UInt16) (script : Script) :
    Option (Attempt × Script) := dispatchLoop l nakLimit 0 0 script

/-- What `InTransfer` leaves: its result, `*nbytesptr`, the bytes stored from `data` on, the
endpoint, `HRSL` and the rest of the script. -/
structure InResult where
  rcode : UInt8
  read : UInt16
  data : List UInt8
  pep : EpInfo
  hrsl : UInt8
  script : Script

/-- `mem_left`, `Usb.cpp:263–266`: a difference of two `int16_t`, and 0 when it is negative. -/
def memLeft (nbytes read : UInt16) : Nat := ((nbytes.toNat - read.toNat : Int).bmod 65536).toNat

/-- The loop of `InTransfer`, `Usb.cpp:233–285`, on fuel. The delay between packets stores
nothing. -/
def inLoop (l : Launch) (nakLimit nbytes : UInt16) :
    Nat → EpInfo → UInt16 → List UInt8 → Script → Option InResult
  | 0, _, _, _, _ => none
  | fuel + 1, pep, read, data, script =>
    match dispatchPkt l nakLimit script with
    | none => none
    | some (a, script) =>
      if a.rcode = hrTogErr then
        inLoop l nakLimit nbytes fuel { pep with bmRcvToggle := !a.rcvTogRd } read data script
      else if a.rcode ≠ hrSuccess then some ⟨a.rcode, read, data, pep, a.hrsl, script⟩
      else if !a.rcvDav then some ⟨receiveError, read, data, pep, a.hrsl, script⟩
      else
        let pktsize := min a.rcvFifo.val.length nbytes.toNat
        let data := data ++ a.rcvFifo.val.take (min pktsize (memLeft nbytes read))
        let read := read + UInt16.ofNat pktsize
        if pktsize < pep.maxPktSize.toNat ∨ nbytes ≤ read then
          some ⟨hrSuccess, read, data, { pep with bmRcvToggle := a.rcvTogRd }, a.hrsl, script⟩
        else inLoop l nakLimit nbytes fuel pep read data script

/-- `InTransfer`, `Usb.cpp:221–287`. Every round takes an answer, so the script is fuel enough. -/
def inTransfer (perAddr : UInt8) (pep : EpInfo) (nakLimit nbytes : UInt16) (script : Script) :
    Option InResult :=
  inLoop ⟨perAddr, pep.epAddr, .tokIn⟩ nakLimit nbytes script.length pep 0 [] script

/-- What one packet of `OutTransfer` leaves: whether the loop goes on with the next one, the last
answer, the endpoint and the rest of the script. -/
structure OutPacket where
  next : Bool
  last : Attempt
  pep : EpInfo
  script : Script

/-- The launches of one packet, `Usb.cpp:321–362`. -/
def outPacket (l : Launch) (nakLimit : UInt16) :
    UInt8 → UInt16 → EpInfo → Script → Option OutPacket
  | _, _, _, [] => none
  | retryCount, nakCount, pep, answer :: script =>
    let a := answer l
    if a.rcode = hrSuccess ∨ a.expired then some ⟨true, a, pep, script⟩
    else if a.rcode = hrNak then
      if nakLimit ≠ 0 ∧ nakCount + 1 = nakLimit then some ⟨false, a, pep, script⟩
      else outPacket l nakLimit retryCount (nakCount + 1) pep script
    else if a.rcode = hrTimeout then
      if retryCount + 1 = usbRetryLimit then some ⟨false, a, pep, script⟩
      else outPacket l nakLimit (retryCount + 1) nakCount pep script
    else if a.rcode = hrTogErr then
      outPacket l nakLimit retryCount nakCount { pep with bmSndToggle := !a.sndTogRd } script
    else some ⟨false, a, pep, script⟩

/-- What `OutTransfer` leaves. `lasts` keeps each packet with its last answer, for the
statements. -/
structure OutResult where
  rcode : UInt8
  pep : EpInfo
  lasts : List (List UInt8 × Attempt)
  script : Script

/-- The loop of `OutTransfer`, `Usb.cpp:320–370`, with the toggle saved after it. -/
def outLoop (perAddr : UInt8) (nakLimit : UInt16) :
    Nat → EpInfo → List UInt8 → UInt8 → Bool → Script → Option OutResult
  | 0, _, _, _, _, _ => none
  | fuel + 1, pep, data, rcode, sndTog, script =>
    if data = [] then some ⟨rcode, { pep with bmSndToggle := sndTog }, [], script⟩
    else
      let bytes := data.take pep.maxPktSize.toNat
      match outPacket ⟨perAddr, pep.epAddr, .tokOut bytes⟩ nakLimit 0 0 pep script with
      | none => none
      | some o =>
        if o.next then
          (outLoop perAddr nakLimit fuel o.pep (data.drop pep.maxPktSize.toNat) o.last.rcode
            o.last.sndTogRd o.script).map fun r ↦ { r with lasts := (bytes, o.last) :: r.lasts }
        else
          some ⟨o.last.rcode, { o.pep with bmSndToggle := o.last.sndTogRd }, [(bytes, o.last)],
            o.script⟩

/-- `OutTransfer`, `Usb.cpp:305–370`, of the bytes at `data`; `sndTog` is the toggle `HRSL` shows
before it. -/
def outTransfer (perAddr : UInt8) (pep : EpInfo) (nakLimit : UInt16) (data : List UInt8)
    (sndTog : Bool) (script : Script) : Option OutResult :=
  if pep.maxPktSize < 1 ∨ pep.maxPktSize > 64 then
    some ⟨errorInvalidMaxPktSize, pep, [], script⟩
  else outLoop perAddr nakLimit (data.length + 1) pep data hrSuccess sndTog script

/-- A call of `USBReadParser::Parse`, `Usb.cpp:182`: `len`, the bytes the transfer stored in the
buffer, and `offset`. -/
structure ParseCall where
  len : UInt16
  data : List UInt8
  offset : UInt16
  deriving DecidableEq, Repr

/-- What `ctrlReq` leaves. `reads` are the finished data transfers, which the parser is called for
and each of which is stored from the start of the buffer. -/
structure CtrlResult where
  rcode : UInt8
  reads : List ParseCall
  pep : EpInfo
  script : Script

/-- The IN data stage of `ctrlReq`, `Usb.cpp:161–188`, on fuel. -/
def dataLoop (perAddr : UInt8) (nakLimit total nbytes : UInt16) :
    Nat → EpInfo → UInt16 → Script → Option CtrlResult
  | 0, _, _, _ => none
  | fuel + 1, pep, left, script =>
    if left = 0 then some ⟨hrSuccess, [], pep, script⟩
    else
      match inTransfer perAddr pep nakLimit nbytes script with
      | none => none
      | some r =>
        if r.rcode = hrTogErr then
          dataLoop perAddr nakLimit total nbytes fuel
            { r.pep with bmRcvToggle := !(r.hrsl &&& 0x20 != 0) } left r.script
        else if r.rcode ≠ hrSuccess then some ⟨r.rcode, [], r.pep, r.script⟩
        else if r.read < nbytes then
          some ⟨hrSuccess, [⟨r.read, r.data, total - left⟩], r.pep, r.script⟩
        else
          (dataLoop perAddr nakLimit total nbytes fuel r.pep (left - r.read) r.script).map
            fun c ↦ { c with reads := ⟨r.read, r.data, total - left⟩ :: c.reads }

/-- The status stage, `Usb.cpp:198`. -/
def statusStage (perAddr ep : UInt8) (nakLimit : UInt16) (direction : Bool) (c : CtrlResult) :
    Option CtrlResult :=
  (dispatchPkt ⟨perAddr, ep, if direction then .tokOutHs else .tokInHs⟩ nakLimit c.script).map
    fun r ↦ { c with rcode := r.1.rcode, script := r.2 }

/-- `ctrlReq` once `SetAddress` has found the endpoint, `Usb.cpp:141–199`. -/
def ctrlReqAt (perAddr ep : UInt8) (pep : EpInfo) (nakLimit : UInt16) (pkt : SetupPkt)
    (nbytes : UInt16) (dataptr : Option (List UInt8)) (script : Script) : Option CtrlResult :=
  let direction := decide (pkt.bmRequestType &&& 0x80 > 0)
  match dispatchPkt ⟨perAddr, ep, .tokSetup pkt⟩ nakLimit script with
  | none => none
  | some (a, script) =>
    if a.rcode ≠ hrSuccess then some ⟨a.rcode, [], pep, script⟩
    else
      match dataptr with
      | none => statusStage perAddr ep nakLimit direction ⟨hrSuccess, [], pep, script⟩
      | some bytes =>
        if direction then
          match dataLoop perAddr nakLimit pkt.wLength nbytes (script.length + 1)
              { pep with bmRcvToggle := true } pkt.wLength script with
          | none => none
          | some c =>
            if c.rcode ≠ hrSuccess then some c else statusStage perAddr ep nakLimit direction c
        else
          match outTransfer perAddr { pep with bmSndToggle := true } nakLimit
              (bytes.take nbytes.toNat) a.sndTogRd script with
          | none => none
          | some r =>
            if r.rcode ≠ hrSuccess then some ⟨r.rcode, [], r.pep, r.script⟩
            else statusStage perAddr ep nakLimit direction ⟨hrSuccess, [], r.pep, r.script⟩

/-- The two members of class `USB` the transfers use: the pool, and the records of endpoints behind
the `epinfo` pointers of its entries. -/
structure Usb (n : Nat) where
  addrPool : AddressPool n
  epRecords : EpPtr → List EpInfo

/-- What a transfer leaves: its result, the finished data transfers, the tables and the script. -/
structure Reply (n : Nat) where
  rcode : UInt8
  reads : List ParseCall
  usb : Usb n
  script : Script

namespace Usb

variable {n : Nat}

/-- `getEpInfoEntry`, `Usb.cpp:44–59`: the record and the index in it. -/
def getEpInfoEntry (u : Usb n) (addr ep : UInt8) : Option (EpPtr × Nat) :=
  match u.addrPool.getUsbDevicePtr addr with
  | none => none
  | some i =>
    let p := u.addrPool.thePool i
    if p.epinfo = .null then none
    else
      (((u.epRecords p.epinfo).take p.epcount.toNat).findIdx? (·.epAddr == ep)).map fun k ↦
        (p.epinfo, k)

/-- The endpoint behind a pointer. -/
def epInfoAt (u : Usb n) (ppep : EpPtr × Nat) : EpInfo :=
  (u.epRecords ppep.1)[ppep.2]?.getD ⟨0, 0, false, false, 0⟩

/-- A store through a pointer to an endpoint. -/
def setEpInfo (u : Usb n) (ppep : EpPtr × Nat) (pep : EpInfo) : Usb n :=
  { u with
    epRecords := Function.update u.epRecords ppep.1 ((u.epRecords ppep.1).set ppep.2 pep) }

/-- `SetAddress`, `Usb.cpp:80–118`: the endpoint and its NAK limit. The speed it sets in `MODE`
changes no later step. -/
def setAddress (u : Usb n) (addr ep : UInt8) : Except UInt8 ((EpPtr × Nat) × UInt16) :=
  match u.addrPool.getUsbDevicePtr addr with
  | none => .error errorAddressNotFoundInPool
  | some i =>
    if (u.addrPool.thePool i).epinfo = .null then .error errorEpInfoIsNull
    else
      match u.getEpInfoEntry addr ep with
      | none => .error errorEpNotFoundInTbl
      | some ppep =>
        .ok (ppep, UInt16.ofNat (2 ^ min (u.epInfoAt ppep).bmNakPower.val usbNakMaxPower - 1))

/-- `ctrlReq`, `Usb.cpp:126–199`, with `total` in the packet. -/
def ctrlReq (u : Usb n) (addr ep : UInt8) (pkt : SetupPkt) (nbytes : UInt16)
    (dataptr : Option (List UInt8)) (script : Script) : Option (Reply n) :=
  match u.setAddress addr ep with
  | .error rcode => some ⟨rcode, [], u, script⟩
  | .ok (ppep, nakLimit) =>
    (ctrlReqAt addr ep (u.epInfoAt ppep) nakLimit pkt nbytes dataptr script).map fun c ↦
      ⟨c.rcode, c.reads, u.setEpInfo ppep c.pep, c.script⟩

/-- `inTransfer`, `Usb.cpp:206–219`; `*nbytesptr` and the bytes are the one element of `reads`. -/
def inTransfer (u : Usb n) (addr ep : UInt8) (nbytes : UInt16) (script : Script) :
    Option (Reply n) :=
  match u.setAddress addr ep with
  | .error rcode => some ⟨rcode, [], u, script⟩
  | .ok (ppep, nakLimit) =>
    (Host.inTransfer addr (u.epInfoAt ppep) nakLimit nbytes script).map fun r ↦
      ⟨r.rcode, [⟨r.read, r.data, 0⟩], u.setEpInfo ppep r.pep, r.script⟩

/-- The request for a standard descriptor, `bmREQ_GET_DESCR` and `USB_REQUEST_GET_DESCRIPTOR`. -/
def getDescrPkt (type index : UInt8) (langid total : UInt16) : SetupPkt :=
  ⟨0x80, 0x06, index, type, langid, total⟩

/-- `getDevDescr`, `Usb.cpp:772–774`. -/
def getDevDescr (u : Usb n) (addr ep : UInt8) (nbytes : UInt16) (script : Script) :
    Option (Reply n) :=
  u.ctrlReq addr ep (getDescrPkt 0x01 0x00 0x0000 nbytes) nbytes (some []) script

/-- `getConfDescr` into a buffer, `Usb.cpp:777–779`. -/
def getConfDescr (u : Usb n) (addr ep : UInt8) (nbytes : UInt16) (conf : UInt8)
    (script : Script) : Option (Reply n) :=
  u.ctrlReq addr ep (getDescrPkt 0x02 conf 0x0000 nbytes) nbytes (some []) script

/-- The buffer after the transfers of a request, each stored from its start. -/
def buffer (buf : List UInt8) (reads : List ParseCall) : List UInt8 :=
  reads.foldl (fun buf c ↦ c.data ++ buf.drop c.data.length) buf

/-- `ucd->wTotalLength`, the bytes 2 and 3 of the buffer. -/
def wTotalLength (buf : List UInt8) : UInt16 :=
  UInt16.ofNat ((buf[2]?.getD 0).toNat + 256 * (buf[3]?.getD 0).toNat)

/-- `getConfDescr` into a parser, `Usb.cpp:783–798`, over what the stack held at `buf`. -/
def parseConfDescr (u : Usb n) (addr ep conf : UInt8) (buf : List UInt8) (script : Script) :
    Option (Reply n) :=
  (u.getConfDescr addr ep 9 conf script).bind fun r ↦
    if r.rcode ≠ 0 then some { r with reads := [] }
    else
      r.usb.ctrlReq addr ep (getDescrPkt 0x02 conf 0x0000 (wTotalLength (buffer buf r.reads))) 64
        (some []) r.script

/-- `setAddr`, `Usb.cpp:807–813`. -/
def setAddr (u : Usb n) (oldaddr ep newaddr : UInt8) (script : Script) : Option (Reply n) :=
  u.ctrlReq oldaddr ep ⟨0x00, 0x05, newaddr, 0x00, 0x0000, 0⟩ 0 none script

/-- `setConf`, `Usb.cpp:816–818`. -/
def setConf (u : Usb n) (addr ep conf_value : UInt8) (script : Script) : Option (Reply n) :=
  u.ctrlReq addr ep ⟨0x00, 0x09, conf_value, 0x00, 0x0000, 0⟩ 0 none script

end Usb

end MouseAide.Host
