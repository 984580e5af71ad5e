import Mathlib.Data.Vector.Basic

/-!
# The configuration descriptor parser

Library `MouseHost`. `USB_Host_Shield_2.0/confdescparser.h:32–177` with the two readers it is
built on, `parsetools.h:23–78` and `parsetools.cpp:19–32`. The parser is handed a configuration
descriptor in the pieces the control transfer delivers, and keeps its place between them.
The members its constructor leaves alone are arguments of `init`. A store past the end of
`varBuffer` would write over the members behind it: there the model raises `overrun` and stops.
-/

namespace MouseAide.Host

/-- `USB_DESCRIPTOR_CONFIGURATION`, `usb_ch9.h:64`. -/
def descriptorConfiguration : UInt8 := 0x02

/-- `USB_DESCRIPTOR_INTERFACE`, `usb_ch9.h:66`. -/
def descriptorInterface : UInt8 := 0x04

/-- `USB_DESCRIPTOR_ENDPOINT`, `usb_ch9.h:67`. -/
def descriptorEndpoint : UInt8 := 0x05

/-- The template arguments `CLASS_ID`, `SUBCLASS_ID`, `PROTOCOL_ID` and `MASK`, and `SetOR`. -/
structure InterfaceMask where
  classId : UInt8
  subclassId : UInt8
  protocolId : UInt8
  mask : UInt8
  useOr : Bool
  deriving DecidableEq, Repr

/-- `MultiByteValueParser`, `parsetools.h:28–48`; `pBuf` is an offset into `varBuffer`. -/
structure MultiByteValueParser where
  pBuf : Nat
  countDown : Nat
  valueSize : Nat
  deriving DecidableEq, Repr

/-- `ByteSkipper`, `parsetools.h:50–78`. -/
structure ByteSkipper where
  nStage : Nat
  countDown : Nat
  deriving DecidableEq, Repr

/-- A call of `EndpointXtract`, with the `USB_ENDPOINT_DESCRIPTOR` fields read from the buffer. -/
structure EndpointCall where
  conf : UInt8
  iface : UInt8
  alt : UInt8
  proto : UInt8
  bEndpointAddress : UInt8
  bmAttributes : UInt8
  wMaxPacketSize : UInt16
  bInterval : UInt8
  deriving DecidableEq, Repr

/-- `ConfigDescParser`, `confdescparser.h:39–58`. -/
structure ConfigDescParser where
  pValue : Nat
  valParser : MultiByteValueParser
  theSkipper : ByteSkipper
  varBuffer : Vector UInt8 16
  stateParseDescr : Nat
  dscrLen : UInt8
  dscrType : UInt8
  isGoodInterface : Bool
  confValue : UInt8
  protoValue : UInt8
  ifaceNumber : UInt8
  ifaceAltSet : UInt8
  overrun : Bool
  deriving DecidableEq, Repr

namespace ConfigDescParser

/-- The constructor, `confdescparser.h:71–81`, over whatever the stack held. -/
def init (varBuffer : Vector UInt8 16) (valueSize : Nat) (isGoodInterface : Bool)
    (confValue protoValue ifaceNumber ifaceAltSet : UInt8) : ConfigDescParser :=
  { pValue := 0
    valParser := ⟨0, valueSize, valueSize⟩
    theSkipper := ⟨0, 0⟩
    varBuffer, stateParseDescr := 0, dscrLen := 0, dscrType := 0, isGoodInterface
    confValue, protoValue, ifaceNumber, ifaceAltSet, overrun := false }

/-- Where in `varBuffer` the next byte goes: `pBuf[valueSize - countDown]`. -/
def offset (s : ConfigDescParser) : Nat :=
  s.valParser.pBuf + (s.valParser.valueSize - s.valParser.countDown)

/-- `pBuf[valueSize - countDown] = **pp` and the steps of the loop, `parsetools.cpp:24–25`. -/
def storeByte (s : ConfigDescParser) (b : UInt8) : ConfigDescParser :=
  { s with
    varBuffer := s.varBuffer.setIfInBounds s.offset b
    valParser.countDown := s.valParser.countDown - 1 }

/-- The end of `MultiByteValueParser::Parse`, `parsetools.cpp:27–32`. -/
def endValue (s : ConfigDescParser) (bytes : List UInt8) :
    Bool × ConfigDescParser × List UInt8 :=
  if s.valParser.countDown ≠ 0 then (false, s, bytes)
  else (true, { s with valParser.countDown := s.valParser.valueSize }, bytes)

/-- `MultiByteValueParser::Parse`, `parsetools.cpp:19–32`, with the bytes left over; it stops
before a byte that would be stored outside `varBuffer`. -/
def parseValue : ConfigDescParser → List UInt8 → Bool × ConfigDescParser × List UInt8
  | s, [] => s.endValue []
  | s, b :: bytes =>
    if s.valParser.countDown = 0 then s.endValue (b :: bytes)
    else if s.offset < 16 then parseValue (s.storeByte b) bytes
    else (false, { s with overrun := true }, [])

/-- `ByteSkipper::Skip`, `parsetools.h:65–77`. -/
def skip (s : ConfigDescParser) (bytes : List UInt8) (bytesToSkip : Nat) :
    Bool × ConfigDescParser × List UInt8 :=
  let k : ByteSkipper := if s.theSkipper.nStage = 0 then ⟨1, bytesToSkip⟩ else s.theSkipper
  let countDown := k.countDown - bytes.length
  (countDown == 0,
    { s with theSkipper := ⟨if countDown = 0 then 0 else k.nStage, countDown⟩ },
    bytes.drop k.countDown)

/-- A field of the descriptor structures laid over `varBuffer`. -/
def fieldAt (v : Vector UInt8 16) (i : Nat) : UInt8 := v[i]?.getD 0

/-- The tests on the interface descriptor, `confdescparser.h:141–151`. -/
def interfaceMatches (m : InterfaceMask) (bInterfaceClass bInterfaceSubClass
    bInterfaceProtocol : UInt8) : Bool :=
  !(m.mask &&& 1 != 0 && bInterfaceClass != m.classId) &&
    !(m.mask &&& 2 != 0 && bInterfaceSubClass != m.subclassId) &&
    if m.useOr then m.mask &&& 4 != 0 && bInterfaceProtocol != 0
    else !(m.mask &&& 4 != 0 && bInterfaceProtocol != m.protocolId)

/-- What a complete descriptor does, `confdescparser.h:133–163`, after its value is read. -/
def useValue (m : InterfaceMask) (s : ConfigDescParser) : ConfigDescParser × List EndpointCall :=
  let v := s.varBuffer
  if s.dscrType = descriptorConfiguration then ({ s with confValue := fieldAt v 5 }, [])
  else if s.dscrType = descriptorInterface then
    if interfaceMatches m (fieldAt v 5) (fieldAt v 6) (fieldAt v 7) then
      ({ s with
        isGoodInterface := true, ifaceNumber := fieldAt v 2, ifaceAltSet := fieldAt v 3
        protoValue := fieldAt v 7 }, [])
    else (s, [])
  else if s.isGoodInterface then
    (s, [{
      conf := s.confValue, iface := s.ifaceNumber, alt := s.ifaceAltSet, proto := s.protoValue
      bEndpointAddress := fieldAt v 2, bmAttributes := fieldAt v 3
      wMaxPacketSize := UInt16.ofNat ((fieldAt v 4).toNat + 256 * (fieldAt v 5).toNat)
      bInterval := fieldAt v 6 }])
  else (s, [])

/-- The descriptor types whose body is read into `varBuffer`. -/
def isRead (dscrType : UInt8) : Bool :=
  dscrType == descriptorConfiguration || dscrType == descriptorInterface ||
    dscrType == descriptorEndpoint

/-- The lines after the inner `switch`, `confdescparser.h:173–174`. -/
def restart (s : ConfigDescParser) : ConfigDescParser :=
  { s with pValue := 0, stateParseDescr := 0 }

/-- `case 4` of `ParseDescriptor`, `confdescparser.h:131–174`. -/
def parseBody (m : InterfaceMask) (s : ConfigDescParser) (bytes : List UInt8) :
    Bool × ConfigDescParser × List UInt8 × List EndpointCall :=
  if isRead s.dscrType then
    match s.parseValue bytes with
    | (false, s, rest) => (false, s, rest, [])
    | (true, s, rest) => (true, (s.useValue m).1.restart, rest, (s.useValue m).2)
  else
    match s.skip bytes ((s.dscrLen.toNat + 65534) % 65536) with
    | (false, s, rest) => (false, s, rest, [])
    | (true, s, rest) => (true, s.restart, rest, [])

/-- `case 2` and `case 3`, `confdescparser.h:110–130`, falling through to `case 4`. -/
def enterBody (s : ConfigDescParser) : ConfigDescParser :=
  { s with
    pValue := 2
    isGoodInterface := s.isGoodInterface && s.dscrType != descriptorInterface
    valParser := ⟨2, (s.dscrLen - 2).toNat, (s.dscrLen - 2).toNat⟩
    stateParseDescr := 4 }

/-- `case 1`, `confdescparser.h:104–109`, falling through. -/
def parseHeader (m : InterfaceMask) (s : ConfigDescParser) (bytes : List UInt8) :
    Bool × ConfigDescParser × List UInt8 × List EndpointCall :=
  match s.parseValue bytes with
  | (false, s, rest) => (false, s, rest, [])
  | (true, s, rest) =>
    parseBody m { s with
      dscrLen := fieldAt s.varBuffer s.pValue, dscrType := fieldAt s.varBuffer (s.pValue + 1)
      }.enterBody rest

/-- `ParseDescriptor`, `confdescparser.h:96–177`. States 2 and 3 are passed through in one call. -/
def parseDescriptor (m : InterfaceMask) (s : ConfigDescParser) (bytes : List UInt8) :
    Bool × ConfigDescParser × List UInt8 × List EndpointCall :=
  match s.stateParseDescr with
  | 0 => parseHeader m { s with valParser := ⟨s.pValue, 2, 2⟩, stateParseDescr := 1 } bytes
  | 1 => parseHeader m s bytes
  | 2 => parseBody m s.enterBody bytes
  | 3 => parseBody m { s.enterBody with
      pValue := s.pValue
      valParser := ⟨s.pValue, (s.dscrLen - 2).toNat, (s.dscrLen - 2).toNat⟩ } bytes
  | 4 => parseBody m s bytes
  | _ => (true, s, bytes, [])

/-- The loop of `Parse`, `confdescparser.h:88–90`; `none` when the fuel runs out. -/
def parseLoop (m : InterfaceMask) :
    Nat → ConfigDescParser → List UInt8 → Option (ConfigDescParser × List EndpointCall)
  | _, s, [] => some (s, [])
  | 0, _, _ :: _ => none
  | fuel + 1, s, b :: bytes =>
    match parseDescriptor m s (b :: bytes) with
    | (false, s, _, calls) => some (s, calls)
    | (true, s, rest, calls) => (parseLoop m fuel s rest).map fun r ↦ (r.1, calls ++ r.2)

/-- `Parse`, `confdescparser.h:84–91`, on one piece of the descriptor. Nothing is said of a parser
that has left `varBuffer`: the model leaves it as it was then. -/
def parse (m : InterfaceMask) (s : ConfigDescParser) (bytes : List UInt8) :
    Option (ConfigDescParser × List EndpointCall) :=
  if s.overrun then some (s, []) else parseLoop m bytes.length s bytes

/-- The calls of `Parse` for the pieces of a descriptor, one after another. -/
def parsePieces (m : InterfaceMask) :
    ConfigDescParser → List (List UInt8) → Option (ConfigDescParser × List EndpointCall)
  | s, [] => some (s, [])
  | s, piece :: pieces =>
    (parse m s piece).bind fun r ↦
      (parsePieces m r.1 pieces).map fun r' ↦ (r'.1, r.2 ++ r'.2)

end ConfigDescParser

end MouseAide.Host
