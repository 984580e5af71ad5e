import MouseAide.Base.Machine
import MouseAide.Base.Records
import MouseAide.Host.ConfigParser

/-!
# The configuration descriptor as a list of descriptors

Library `MouseHost`. What `ConfigDescParser` is for: a configuration descriptor is a list of
descriptors, each beginning with its own length and type, and the endpoints behind a matching
interface are handed to the driver. The parser of `confdescparser.h` does that on any bytes,
in any pieces, whatever the lengths in them say, up to the first descriptor that does not fit its
buffer.
-/

namespace MouseAide.Host

open MouseAide.Base

namespace ConfigDescParser

/-- Bytes of a descriptor after its length and type; a length below 2 wraps. -/
def bodyLength (dscrLen dscrType : UInt8) : Nat :=
  if isRead dscrType then (dscrLen - 2).toNat else (dscrLen.toNat + 65534) % 65536

/-- A run of stores from an offset on; those past the end of the buffer are lost. -/
def storeAt (v : Vector UInt8 16) : Nat → List UInt8 → Vector UInt8 16
  | _, [] => v
  | offset, b :: bytes => storeAt (v.setIfInBounds offset b) (offset + 1) bytes

/-- What the parser carries from one descriptor to the next. -/
structure Context where
  varBuffer : Vector UInt8 16
  isGoodInterface : Bool
  confValue : UInt8
  protoValue : UInt8
  ifaceNumber : UInt8
  ifaceAltSet : UInt8
  overrun : Bool
  deriving DecidableEq, Repr

/-- The part of a descriptor that is stored: all of it, or its length and type. -/
def stored : List UInt8 → List UInt8
  | dscrLen :: dscrType :: body => dscrLen :: dscrType :: if isRead dscrType then body else []
  | d => d

/-- A descriptor whose header says it is an interface. -/
def opensInterface : List UInt8 → Bool
  | _ :: dscrType :: _ => dscrType == descriptorInterface
  | _ => false

/-- The context with a descriptor stored over it; an interface ends the one before. -/
def Context.load (c : Context) (d : List UInt8) : Context :=
  { c with
    varBuffer := storeAt c.varBuffer 0 (stored d)
    isGoodInterface := c.isGoodInterface && !opensInterface d
    overrun := c.overrun || decide (16 < (stored d).length) }

/-- What a descriptor of a type does with the fields in the buffer. -/
def Context.use (m : InterfaceMask) (c : Context) (dscrType : UInt8) :
    Context × List EndpointCall :=
  let v := c.varBuffer
  if dscrType = descriptorConfiguration then ({ c with confValue := fieldAt v 5 }, [])
  else if dscrType = descriptorInterface then
    if interfaceMatches m (fieldAt v 5) (fieldAt v 6) (fieldAt v 7) then
      ({ c with
        isGoodInterface := true, ifaceNumber := fieldAt v 2, ifaceAltSet := fieldAt v 3
        protoValue := fieldAt v 7 }, [])
    else (c, [])
  else if dscrType = descriptorEndpoint then
    if c.isGoodInterface then
      (c, [{
        conf := c.confValue, iface := c.ifaceNumber, alt := c.ifaceAltSet, proto := c.protoValue
        bEndpointAddress := fieldAt v 2, bmAttributes := fieldAt v 3
        wMaxPacketSize := UInt16.ofNat ((fieldAt v 4).toNat + 256 * (fieldAt v 5).toNat)
        bInterval := fieldAt v 6 }])
    else (c, [])
  else (c, [])

/-- What a whole descriptor does. -/
def Context.descriptor (m : InterfaceMask) (c : Context) : List UInt8 →
    Context × List EndpointCall
  | dscrLen :: dscrType :: body => (c.load (dscrLen :: dscrType :: body)).use m dscrType
  | d => (c.load d, [])

/-- Descriptors as records: one ends when its body is as long as its length says. One that does
not fit the buffer never ends: the walk stops there. -/
def reader (m : InterfaceMask) : RecordReader Context UInt8 EndpointCall where
  done
    | dscrLen :: dscrType :: body => body.length == bodyLength dscrLen dscrType &&
        decide ((stored (dscrLen :: dscrType :: body)).length ≤ 16)
    | _ => false
  process := Context.descriptor m

/-! ### The readers -/

/-- Stores made in two runs. -/
theorem storeAt_append (v : Vector UInt8 16) (offset : Nat) (xs ys : List UInt8) :
    storeAt v offset (xs ++ ys) = storeAt (storeAt v offset xs) (offset + xs.length) ys := by
  induction xs generalizing v offset with
  | nil => rfl
  | cons b xs ih =>
    rw [List.cons_append, storeAt, storeAt, ih, List.length_cons, Nat.add_assoc, Nat.add_comm 1]

/-- Stores from the end of the buffer on are lost. -/
theorem storeAt_of_le (v : Vector UInt8 16) {offset : Nat} (h : 16 ≤ offset) (xs : List UInt8) :
    storeAt v offset xs = v := by
  induction xs generalizing offset with
  | nil => rfl
  | cons b xs ih =>
    rw [storeAt, Vector.setIfInBounds_eq_of_size_le h]
    exact ih (Nat.le_succ_of_le h)

/-- Only the bytes up to the end of the buffer are stored. -/
theorem storeAt_take (v : Vector UInt8 16) {offset : Nat} (h : offset ≤ 16) (xs : List UInt8) :
    storeAt v offset (xs.take (16 - offset)) = storeAt v offset xs := by
  conv_rhs => rw [← List.take_append_drop (16 - offset) xs, storeAt_append]
  by_cases hlen : 16 - offset ≤ xs.length
  · have hend : 16 ≤ offset + (xs.take (16 - offset)).length := by
      rw [List.length_take]
      omega
    rw [storeAt_of_le _ hend]
  · rw [List.drop_eq_nil_of_le (by omega), storeAt]

/-- The parser after it has read some of the bytes it is counting down. -/
def readBytes (s : ConfigDescParser) (xs : List UInt8) : ConfigDescParser :=
  { s with
    varBuffer := storeAt s.varBuffer s.offset xs
    valParser.countDown := s.valParser.countDown - xs.length }

@[simp] theorem readBytes_nil (s : ConfigDescParser) : s.readBytes [] = s := rfl

/-- The next byte goes behind the one just stored. -/
theorem offset_storeByte (s : ConfigDescParser) (b : UInt8) (h : s.valParser.countDown ≠ 0)
    (hn : s.valParser.countDown ≤ s.valParser.valueSize) :
    (s.storeByte b).offset = s.offset + 1 := by
  simp only [offset, storeByte]
  omega

/-- Reading one byte more at the front. -/
theorem readBytes_storeByte (s : ConfigDescParser) (b : UInt8) (xs : List UInt8)
    (h : s.valParser.countDown ≠ 0) (hn : s.valParser.countDown ≤ s.valParser.valueSize) :
    (s.storeByte b).readBytes xs = s.readBytes (b :: xs) := by
  have hcount : s.valParser.countDown - 1 - xs.length =
      s.valParser.countDown - (xs.length + 1) := by omega
  rw [readBytes, offset_storeByte s b h hn, readBytes]
  simp only [storeByte, storeAt, hcount, List.length_cons]

/-- Within the buffer `MultiByteValueParser::Parse` waits for more, or reads its value and leaves
the rest. -/
theorem parseValue_eq (s : ConfigDescParser) (bytes : List UInt8)
    (hn : s.valParser.countDown ≤ s.valParser.valueSize)
    (hfit : s.offset + min bytes.length s.valParser.countDown ≤ 16) : s.parseValue bytes =
      if bytes.length < s.valParser.countDown then (false, s.readBytes bytes, [])
      else (true, { s.readBytes (bytes.take s.valParser.countDown) with
        valParser.countDown := s.valParser.valueSize }, bytes.drop s.valParser.countDown) := by
  induction bytes generalizing s with
  | nil =>
    rw [parseValue, endValue]
    by_cases h : s.valParser.countDown = 0
    · simp [h]
    · simp [h, Nat.pos_of_ne_zero h]
  | cons b bytes ih =>
    rw [parseValue]
    by_cases h : s.valParser.countDown = 0
    · simp [h, endValue]
    · obtain ⟨k, hk⟩ := Nat.exists_eq_succ_of_ne_zero h
      have hcount : (s.storeByte b).valParser.countDown = k := by simp [storeByte, hk]
      have hsize : (s.storeByte b).valParser.valueSize = s.valParser.valueSize := rfl
      rw [List.length_cons] at hfit
      rw [if_neg h, if_pos (by omega),
        ih _ (by omega) (by rw [offset_storeByte s b h hn]; omega), hcount, hsize,
        readBytes_storeByte s b _ h hn, readBytes_storeByte s b _ h hn, hk]
      simp only [List.length_cons, Nat.succ_eq_add_one, Nat.add_lt_add_iff_right,
        List.take_succ_cons, List.drop_succ_cons]

/-- `MultiByteValueParser::Parse` stops at the end of the buffer. -/
theorem parseValue_overrun (s : ConfigDescParser) (bytes : List UInt8)
    (hn : s.valParser.countDown ≤ s.valParser.valueSize) (hle : s.offset ≤ 16)
    (hover : 16 < s.offset + min bytes.length s.valParser.countDown) : s.parseValue bytes =
      (false, { s.readBytes (bytes.take (16 - s.offset)) with overrun := true }, []) := by
  induction bytes generalizing s with
  | nil =>
    rw [List.length_nil, Nat.zero_min] at hover
    omega
  | cons b bytes ih =>
    have h : s.valParser.countDown ≠ 0 := by
      rintro h
      rw [h, Nat.min_zero] at hover
      omega
    rw [parseValue, if_neg h]
    rw [List.length_cons] at hover
    by_cases hin : s.offset < 16
    · have hoffset := offset_storeByte s b h hn
      have hcount : (s.storeByte b).valParser.countDown = s.valParser.countDown - 1 := rfl
      have hsize : (s.storeByte b).valParser.valueSize = s.valParser.valueSize := rfl
      obtain ⟨k, hk⟩ : ∃ k, 16 - s.offset = k + 1 := ⟨15 - s.offset, by omega⟩
      rw [if_pos hin, ih _ (by omega) (by omega) (by omega), hoffset, ← Nat.sub_sub, hk,
        Nat.add_sub_cancel, readBytes_storeByte s b _ h hn, List.take_succ_cons]
    · rw [if_neg hin, Nat.sub_eq_zero_of_le (not_lt.mp hin), List.take_zero, readBytes_nil]

/-! ### The parser between two pieces -/

/-- The part of the parser that outlives a descriptor. -/
def context (s : ConfigDescParser) : Context :=
  ⟨s.varBuffer, s.isGoodInterface, s.confValue, s.protoValue, s.ifaceNumber, s.ifaceAltSet,
    s.overrun⟩

/-- Where the parser stands once it has read the bytes `d` of a descriptor. -/
def Place (s : ConfigDescParser) : List UInt8 → Prop
  | [] => s.stateParseDescr = 0 ∧ s.pValue = 0 ∧ s.theSkipper.nStage = 0
  | [_] => s.stateParseDescr = 1 ∧ s.pValue = 0 ∧ s.theSkipper.nStage = 0 ∧
      s.valParser = ⟨0, 1, 2⟩
  | dscrLen :: dscrType :: body =>
    s.stateParseDescr = 4 ∧ s.dscrLen = dscrLen ∧ s.dscrType = dscrType ∧
      if isRead dscrType then
        s.theSkipper.nStage = 0 ∧ s.valParser =
          ⟨2, bodyLength dscrLen dscrType - body.length, bodyLength dscrLen dscrType⟩
      else s.theSkipper = ⟨1, bodyLength dscrLen dscrType - body.length⟩ ∨
        body = [] ∧ s.theSkipper.nStage = 0

/-- The descriptor `d` is not over yet. -/
def Unfinished : List UInt8 → Prop
  | dscrLen :: dscrType :: body => body.length < bodyLength dscrLen dscrType
  | _ => True

/-- The parser has read the bytes `d` of a descriptor it found in context `c`. Once it has left
the buffer only the context counts. -/
structure Reads (s : ConfigDescParser) (c : Context) (d : List UInt8) : Prop where
  clean : c.overrun = false
  context : s.context = c.load d
  place : s.overrun = false → Place s d
  unfinished : s.overrun = false → Unfinished d

/-- A descriptor of which nothing has been read changes nothing. -/
@[simp] theorem Context.load_nil (c : Context) : c.load [] = c := by
  simp [load, stored, storeAt, opensInterface]

/-- More of a body that is read is stored behind what was stored of it. -/
theorem Context.load_body (c : Context) {dscrLen dscrType : UInt8}
    (hread : isRead dscrType = true) (body xs : List UInt8) :
    c.load (dscrLen :: dscrType :: (body ++ xs)) =
      { c.load (dscrLen :: dscrType :: body) with
        varBuffer := storeAt (c.load (dscrLen :: dscrType :: body)).varBuffer (2 + body.length) xs
        overrun := c.overrun || decide (16 < 2 + body.length + xs.length) } := by
  have hstore : storeAt c.varBuffer 0 (dscrLen :: dscrType :: (body ++ xs)) =
      storeAt (storeAt c.varBuffer 0 (dscrLen :: dscrType :: body)) (2 + body.length) xs := by
    have happ := storeAt_append c.varBuffer 0 (dscrLen :: dscrType :: body) xs
    rw [List.length_cons, List.length_cons] at happ
    rw [show 2 + body.length = 0 + (body.length + 1 + 1) by omega, ← happ]
    rfl
  have hlen : body.length + xs.length + 1 + 1 = 2 + body.length + xs.length := by omega
  simp only [load, stored, hread, if_true, hstore, List.length_cons, List.length_append, hlen,
    opensInterface]

/-- The body of a descriptor that is skipped leaves no trace. -/
theorem Context.load_skip (c : Context) {dscrLen dscrType : UInt8}
    (hread : ¬ isRead dscrType = true) (body xs : List UInt8) :
    c.load (dscrLen :: dscrType :: (body ++ xs)) = c.load (dscrLen :: dscrType :: body) := by
  simp only [load, stored, hread, if_false, opensInterface, Bool.false_eq_true]

/-- What is stored of a descriptor with a header. -/
theorem length_stored (dscrLen dscrType : UInt8) (body : List UInt8) :
    (stored (dscrLen :: dscrType :: body)).length =
      if isRead dscrType then 2 + body.length else 2 := by
  by_cases hread : isRead dscrType = true
  · simp [stored, hread, Nat.add_comm 2]
  · simp [stored, hread]

/-- Of a descriptor that has left the buffer nothing more is stored. -/
theorem Context.load_past (c : Context) {d : List UInt8} (h : 16 < (stored d).length)
    (xs : List UInt8) : c.load (d ++ xs) = c.load d ∧ 16 < (stored (d ++ xs)).length := by
  match d, h with
  | [], h => simp [stored] at h
  | [_], h => simp [stored] at h
  | dscrLen :: dscrType :: body, h =>
    have hread : isRead dscrType = true := by
      by_contra hno
      rw [length_stored, if_neg hno] at h
      omega
    rw [length_stored, if_pos hread] at h
    have hself := @Context.load_body c dscrLen dscrType hread body []
    rw [List.append_nil] at hself
    constructor
    · rw [List.cons_append, List.cons_append, c.load_body hread, storeAt_of_le _ h.le,
        decide_eq_true (by omega)]
      conv_rhs => rw [hself, storeAt, decide_eq_true (by rw [List.length_nil]; omega)]
    · rw [List.cons_append, List.cons_append, length_stored, if_pos hread, List.length_append]
      omega

/-- A read descriptor is used in the context it has made. -/
theorem useValue_eq (m : InterfaceMask) (s : ConfigDescParser) (h : isRead s.dscrType = true) :
    ((s.useValue m).1.context, (s.useValue m).2) = s.context.use m s.dscrType := by
  have hcases : s.dscrType ≠ descriptorConfiguration → s.dscrType ≠ descriptorInterface →
      s.dscrType = descriptorEndpoint := by
    intro h1 h2
    simpa [isRead, h1, h2] using h
  unfold useValue Context.use
  by_cases h1 : s.dscrType = descriptorConfiguration
  · rw [if_pos h1, if_pos h1]
    rfl
  · rw [if_neg h1, if_neg h1]
    by_cases h2 : s.dscrType = descriptorInterface
    · rw [if_pos h2, if_pos h2]
      by_cases hm : interfaceMatches m (fieldAt s.varBuffer 5) (fieldAt s.varBuffer 6)
          (fieldAt s.varBuffer 7) = true
      · rw [if_pos hm]
        exact (if_pos hm).symm
      · rw [if_neg hm]
        exact (if_neg hm).symm
    · rw [if_neg h2, if_neg h2, if_pos (hcases h1 h2)]
      by_cases hg : s.isGoodInterface = true
      · rw [if_pos hg]
        exact (if_pos hg).symm
      · rw [if_neg hg]
        exact (if_neg hg).symm

/-- A whole descriptor that is read is used as the records say. -/
theorem useValue_descriptor (m : InterfaceMask) {s : ConfigDescParser} {c : Context}
    {dscrLen dscrType : UInt8} {body : List UInt8} (htype : s.dscrType = dscrType)
    (hread : isRead dscrType = true) (hctx : s.context = c.load (dscrLen :: dscrType :: body)) :
    (s.useValue m).1.context = (c.descriptor m (dscrLen :: dscrType :: body)).1 ∧
      (s.useValue m).2 = (c.descriptor m (dscrLen :: dscrType :: body)).2 := by
  have huse := useValue_eq m s (htype ▸ hread)
  rw [hctx, htype] at huse
  exact Prod.mk.inj huse

/-- Using a descriptor leaves the readers where they were. -/
theorem useValue_theSkipper (m : InterfaceMask) (s : ConfigDescParser) :
    (s.useValue m).1.theSkipper = s.theSkipper := by
  unfold useValue
  dsimp only
  split
  · rfl
  split
  · split <;> rfl
  · split <;> rfl

/-- Using a descriptor stores nothing. -/
theorem useValue_overrun (m : InterfaceMask) (s : ConfigDescParser) :
    (s.useValue m).1.overrun = s.overrun := by
  unfold useValue
  dsimp only
  split
  · rfl
  split
  · split <;> rfl
  · split <;> rfl

/-! ### One call of `ParseDescriptor` -/

/-- The parser at a body, within its buffer: its context is the header's and its place is in the
body. -/
structure InBody (s : ConfigDescParser) (c : Context) (dscrLen dscrType : UInt8)
    (body : List UInt8) : Prop where
  inside : s.overrun = false
  context : s.context = c.load (dscrLen :: dscrType :: body)
  place : Place s (dscrLen :: dscrType :: body)
  le : body.length ≤ bodyLength dscrLen dscrType

/-- When a descriptor with a header ends. -/
theorem done_iff {m : InterfaceMask} {dscrLen dscrType : UInt8} {body : List UInt8} :
    (reader m).done (dscrLen :: dscrType :: body) = true ↔
      body.length = bodyLength dscrLen dscrType ∧
        (stored (dscrLen :: dscrType :: body)).length ≤ 16 := by
  simp [reader]

/-- A body that the bytes do not complete, or that does not fit the buffer, stays open. -/
private theorem walk_body_open (m : InterfaceMask) (c : Context) {dscrLen dscrType : UInt8}
    {body bytes : List UInt8} (h : body.length + bytes.length < bodyLength dscrLen dscrType ∨
      isRead dscrType = true ∧ 14 < bodyLength dscrLen dscrType) :
    (reader m).walk (c, dscrLen :: dscrType :: body) bytes =
      ((c, dscrLen :: dscrType :: (body ++ bytes)), []) := by
  refine (reader m).walk_open c _ fun pre hpre _ ↦ ?_
  have hle := hpre.length_le
  rw [List.cons_append, List.cons_append, ← Bool.not_eq_true, done_iff, length_stored,
    List.length_append]
  rintro ⟨hlen, hfit⟩
  rcases h with h | ⟨hread, h⟩
  · omega
  · rw [if_pos hread] at hfit
    omega

/-- A body that the bytes complete within the buffer is used. -/
private theorem walk_body_close (m : InterfaceMask) (c : Context) {dscrLen dscrType : UInt8}
    {body bytes : List UInt8} (hne : bytes ≠ [])
    (h : body.length + bytes.length = bodyLength dscrLen dscrType)
    (hfit : isRead dscrType = true → bodyLength dscrLen dscrType ≤ 14) :
    (reader m).walk (c, dscrLen :: dscrType :: body) bytes =
      (((c.descriptor m (dscrLen :: dscrType :: (body ++ bytes))).1, []),
        (c.descriptor m (dscrLen :: dscrType :: (body ++ bytes))).2) := by
  refine (reader m).walk_close c _ hne ?_ fun pre hpre _ hlt ↦ ?_
  · rw [List.cons_append, List.cons_append, done_iff, length_stored, List.length_append, h]
    refine ⟨rfl, ?_⟩
    split
    · next hread =>
      have := hfit hread
      omega
    · omega
  · have hle := hpre.length_le
    have hlen : pre.length ≠ bytes.length := fun heq ↦ hlt (hpre.eq_of_length heq)
    rw [List.cons_append, List.cons_append, ← Bool.not_eq_true, done_iff, List.length_append]
    omega

/-- A parser within its buffer has found it clean, and the bytes read so far fit. -/
theorem InBody.fits {s : ConfigDescParser} {c : Context} {dscrLen dscrType : UInt8}
    {body : List UInt8} (h : InBody s c dscrLen dscrType body) :
    c.overrun = false ∧ (isRead dscrType = true → 2 + body.length ≤ 16) := by
  have hover : s.overrun = (c.overrun || decide (16 < _)) := congrArg Context.overrun h.context
  rw [h.inside, eq_comm, Bool.or_eq_false_iff, decide_eq_false_iff_not, not_lt,
    length_stored] at hover
  refine ⟨hover.1, fun hread ↦ ?_⟩
  rw [if_pos hread] at hover
  exact hover.2

/-- Where the reader stands in a body that is read. -/
theorem InBody.offset {s : ConfigDescParser} {c : Context} {dscrLen dscrType : UInt8}
    {body : List UInt8} (h : InBody s c dscrLen dscrType body) (hread : isRead dscrType = true) :
    s.offset = 2 + body.length := by
  have hplace := h.place.2.2.2
  rw [if_pos hread] at hplace
  have hle := h.le
  rw [ConfigDescParser.offset, hplace.2]
  dsimp only
  omega

/-- Reading more of a body, as far as the buffer goes, leaves the context of the longer body. -/
theorem InBody.readBytes_context {s : ConfigDescParser} {c : Context} {dscrLen dscrType : UInt8}
    {body : List UInt8} (h : InBody s c dscrLen dscrType body) (hread : isRead dscrType = true)
    (xs : List UInt8) :
    { (s.readBytes xs).context with overrun := decide (16 < 2 + body.length + xs.length) } =
      c.load (dscrLen :: dscrType :: (body ++ xs)) := by
  rw [c.load_body hread, ← h.context, h.fits.1, Bool.false_or]
  simp only [readBytes, h.offset hread]
  rfl

/-- Reading more of a body within the buffer. -/
theorem InBody.readBytes_context_of_le {s : ConfigDescParser} {c : Context}
    {dscrLen dscrType : UInt8} {body : List UInt8} (h : InBody s c dscrLen dscrType body)
    (hread : isRead dscrType = true) {xs : List UInt8} (hfit : 2 + body.length + xs.length ≤ 16) :
    (s.readBytes xs).context = c.load (dscrLen :: dscrType :: (body ++ xs)) := by
  rw [← h.readBytes_context hread, decide_eq_false (by omega), ← h.inside]
  rfl

/-- `Skip` counts down to the end of the body, wherever the skipper was started. -/
theorem InBody.skip_eq {s : ConfigDescParser} {c : Context} {dscrLen dscrType : UInt8}
    {body : List UInt8} (h : InBody s c dscrLen dscrType body) (hread : ¬ isRead dscrType = true)
    (bytes : List UInt8) : s.skip bytes ((s.dscrLen.toNat + 65534) % 65536) =
      (bodyLength dscrLen dscrType - body.length - bytes.length == 0,
        { s with theSkipper :=
          ⟨if bodyLength dscrLen dscrType - body.length - bytes.length = 0 then 0 else 1,
            bodyLength dscrLen dscrType - body.length - bytes.length⟩ },
        bytes.drop (bodyLength dscrLen dscrType - body.length)) := by
  obtain ⟨-, hlen, -, hplace⟩ := h.place
  rw [if_neg hread] at hplace
  have hbody : bodyLength dscrLen dscrType = (dscrLen.toNat + 65534) % 65536 := if_neg hread
  rcases hplace with hstage | ⟨rfl, hstage⟩
  · simp [skip, hstage]
  · simp [skip, hstage, hlen, hbody]

/-- `case 4` waits for the rest of the body. -/
def BodyWaits (m : InterfaceMask) (s : ConfigDescParser) (c : Context) (dscrLen dscrType : UInt8)
    (body bytes : List UInt8) : Prop :=
  ∃ s', parseBody m s bytes = (false, s', [], []) ∧
    Reads s' c (dscrLen :: dscrType :: (body ++ bytes))

/-- `case 4` uses the descriptor and starts afresh. -/
def BodyEnds (m : InterfaceMask) (s : ConfigDescParser) (c : Context) (dscrLen dscrType : UInt8)
    (body bytes : List UInt8) : Prop :=
  ∃ s', parseBody m s bytes = (true, s', bytes.drop (bodyLength dscrLen dscrType - body.length),
      (c.descriptor m (dscrLen :: dscrType :: (body ++
        bytes.take (bodyLength dscrLen dscrType - body.length)))).2) ∧
    Reads s' (c.descriptor m (dscrLen :: dscrType :: (body ++
      bytes.take (bodyLength dscrLen dscrType - body.length)))).1 []

section Body

variable {s : ConfigDescParser} {c : Context} {dscrLen dscrType : UInt8} {body bytes : List UInt8}

/-- A body that is read runs past the end of the buffer: the reader stops there. -/
theorem parseBody_overrun (m : InterfaceMask) (h : InBody s c dscrLen dscrType body)
    (hread : isRead dscrType = true)
    (hover : 16 < 2 + body.length +
      min bytes.length (bodyLength dscrLen dscrType - body.length)) :
    BodyWaits m s c dscrLen dscrType body bytes := by
  obtain ⟨-, -, htype, hplace⟩ := h.place
  rw [if_pos hread] at hplace
  have hoffset := h.offset hread
  obtain ⟨hclean, hle⟩ := h.fits
  have hcount : s.valParser.countDown = bodyLength dscrLen dscrType - body.length := by
    rw [hplace.2]
  have hsize : s.valParser.valueSize = bodyLength dscrLen dscrType := by rw [hplace.2]
  have hrun := parseValue_overrun s bytes (by omega) (by have := hle hread; omega) (by omega)
  refine ⟨_, by rw [parseBody, if_pos (htype ▸ hread), hrun], hclean, ?_, ?_, ?_⟩
  · rw [← h.readBytes_context hread, decide_eq_true (by omega)]
    simp only [readBytes, storeAt_take _ (hoffset.le.trans (hle hread))]
    rfl
  · exact fun hno ↦ Bool.noConfusion hno
  · exact fun hno ↦ Bool.noConfusion hno

/-- A body that is read, within the buffer. -/
private theorem parseBody_read (m : InterfaceMask) (h : InBody s c dscrLen dscrType body)
    (hread : isRead dscrType = true)
    (hin : 2 + body.length +
      min bytes.length (bodyLength dscrLen dscrType - body.length) ≤ 16) :
    if bytes.length < bodyLength dscrLen dscrType - body.length then
      BodyWaits m s c dscrLen dscrType body bytes
    else BodyEnds m s c dscrLen dscrType body bytes := by
  obtain ⟨hstate, hlen, htype, hplace⟩ := h.place
  rw [if_pos hread] at hplace
  obtain ⟨hstage, hval⟩ := hplace
  have hle := h.le
  have hcount : s.valParser.countDown = bodyLength dscrLen dscrType - body.length := by rw [hval]
  have hsize : s.valParser.valueSize = bodyLength dscrLen dscrType := by rw [hval]
  have hoffset := h.offset hread
  have hrun := parseValue_eq s bytes (by omega) (by omega)
  rw [hcount] at hrun
  split
  · next hshort =>
    rw [BodyWaits, parseBody, if_pos (htype ▸ hread), hrun, if_pos hshort]
    refine ⟨_, rfl, h.fits.1, h.readBytes_context_of_le hread (by omega), fun _ ↦ ?_, fun _ ↦ ?_⟩
    · refine ⟨hstate, hlen, htype, ?_⟩
      rw [if_pos hread, List.length_append, ← Nat.sub_sub]
      refine ⟨hstage, ?_⟩
      simp only [readBytes, hval]
    · rw [Unfinished, List.length_append]
      omega
  · next hshort =>
    rw [BodyEnds, parseBody, if_pos (htype ▸ hread), hrun, if_neg hshort]
    set xs := bytes.take (bodyLength dscrLen dscrType - body.length) with hxs
    have hxlen : xs.length = bodyLength dscrLen dscrType - body.length := by
      rw [hxs, List.length_take]
      omega
    obtain ⟨hnext, hcalls⟩ := useValue_descriptor m (s := { s.readBytes xs with
      valParser.countDown := s.valParser.valueSize }) htype hread
      (h.readBytes_context_of_le hread (by omega))
    refine ⟨_, by rw [← hcalls], ?_, ?_, fun _ ↦ ?_, fun _ ↦ trivial⟩
    · rw [← hnext]
      exact (useValue_overrun m _).trans h.inside
    · rw [Context.load_nil, ← hnext]
      rfl
    · refine ⟨rfl, rfl, ?_⟩
      rw [restart, useValue_theSkipper]
      exact hstage

/-- A descriptor that is skipped is of no use. -/
private theorem descriptor_skip (m : InterfaceMask) (c : Context)
    (hread : ¬ isRead dscrType = true) (body xs : List UInt8) :
    c.descriptor m (dscrLen :: dscrType :: (body ++ xs)) =
      (c.load (dscrLen :: dscrType :: body), []) := by
  rw [Context.descriptor, c.load_skip hread]
  have h1 : dscrType ≠ descriptorConfiguration := by
    rintro rfl
    exact hread rfl
  have h2 : dscrType ≠ descriptorInterface := by
    rintro rfl
    exact hread rfl
  have h3 : dscrType ≠ descriptorEndpoint := by
    rintro rfl
    exact hread rfl
  simp [Context.use, h1, h2, h3]

/-- A body that is skipped. -/
private theorem parseBody_skip (m : InterfaceMask) (h : InBody s c dscrLen dscrType body)
    (hread : ¬ isRead dscrType = true) (bytes : List UInt8) :
    if bytes.length < bodyLength dscrLen dscrType - body.length then
      BodyWaits m s c dscrLen dscrType body bytes
    else BodyEnds m s c dscrLen dscrType body bytes := by
  obtain ⟨hstate, hlen, htype, -⟩ := h.place
  split
  · next hshort =>
    have hzero : bodyLength dscrLen dscrType - body.length - bytes.length ≠ 0 := by omega
    rw [BodyWaits, parseBody, if_neg (htype ▸ hread), h.skip_eq hread,
      beq_eq_false_iff_ne.mpr hzero, if_neg hzero, List.drop_eq_nil_of_le (by omega)]
    refine ⟨_, rfl, h.fits.1, ?_, fun _ ↦ ?_, fun _ ↦ ?_⟩
    · rw [c.load_skip hread]
      exact h.context
    · refine ⟨hstate, hlen, htype, ?_⟩
      rw [if_neg hread, List.length_append, ← Nat.sub_sub]
      exact Or.inl rfl
    · rw [Unfinished, List.length_append]
      omega
  · next hshort =>
    have hzero : bodyLength dscrLen dscrType - body.length - bytes.length = 0 := by omega
    rw [BodyEnds, parseBody, if_neg (htype ▸ hread), h.skip_eq hread, hzero, if_pos rfl,
      descriptor_skip m c hread]
    refine ⟨_, rfl, ?_, ?_, fun _ ↦ ⟨rfl, rfl, rfl⟩, fun _ ↦ trivial⟩
    · rw [← h.context]
      exact h.inside
    · rw [Context.load_nil, ← h.context]
      rfl

/-- `case 4` waits for the rest of the body, for ever if it does not fit, or uses the descriptor
and starts afresh. -/
theorem parseBody_spec (m : InterfaceMask) (h : InBody s c dscrLen dscrType body)
    (bytes : List UInt8) :
    ((body.length + bytes.length < bodyLength dscrLen dscrType ∨
        isRead dscrType = true ∧ 14 < bodyLength dscrLen dscrType) ∧
      body.length < bodyLength dscrLen dscrType ∧ BodyWaits m s c dscrLen dscrType body bytes) ∨
    (bodyLength dscrLen dscrType ≤ body.length + bytes.length ∧
      (isRead dscrType = true → bodyLength dscrLen dscrType ≤ 14) ∧
      BodyEnds m s c dscrLen dscrType body bytes) := by
  have hle := h.le
  by_cases hread : isRead dscrType = true
  · have hfit := h.fits.2 hread
    rcases Nat.lt_or_ge 16 (2 + body.length +
        min bytes.length (bodyLength dscrLen dscrType - body.length)) with hover | hin
    · exact Or.inl ⟨Or.inr ⟨hread, by omega⟩, by omega, parseBody_overrun m h hread hover⟩
    · have hbody := parseBody_read m h hread hin
      split at hbody
      · exact Or.inl ⟨Or.inl (by omega), by omega, hbody⟩
      · exact Or.inr ⟨by omega, fun _ ↦ by omega, hbody⟩
  · have hbody := parseBody_skip m h hread bytes
    split at hbody
    · exact Or.inl ⟨Or.inl (by omega), by omega, hbody⟩
    · exact Or.inr ⟨by omega, fun hyes ↦ absurd hyes hread, hbody⟩

end Body

/-- What one call has done: it consumed `pre` of the bytes, all of them unless a descriptor ended,
and the parser and its calls are those of the walk from `(c, d)` on `before ++ pre`. -/
def Consumed (m : InterfaceMask) (c : Context) (d before bytes : List UInt8)
    (r : Bool × ConfigDescParser × List UInt8 × List EndpointCall) : Prop :=
  ∃ pre c' d', bytes = pre ++ r.2.2.1 ∧ before ++ pre ≠ [] ∧
    (if r.1 then d' = [] else r.2.2.1 = []) ∧
    (reader m).walk (c, d) (before ++ pre) = ((c', d'), r.2.2.2) ∧ Reads r.2.1 c' d'

/-- `case 4` goes on with the walk that led to the body. -/
theorem parseBody_consumed (m : InterfaceMask) {s : ConfigDescParser} {c c₀ : Context}
    {d₀ before : List UInt8} {dscrLen dscrType : UInt8} {body : List UInt8}
    (h : InBody s c dscrLen dscrType body)
    (hopen : body.length < bodyLength dscrLen dscrType → (reader m).walk (c₀, d₀) before =
      ((c, dscrLen :: dscrType :: body), []))
    (hclosed : body.length = bodyLength dscrLen dscrType → (reader m).walk (c₀, d₀) before =
      (((c.descriptor m (dscrLen :: dscrType :: body)).1, []),
        (c.descriptor m (dscrLen :: dscrType :: body)).2))
    {bytes : List UInt8}
    (hgo : before ≠ [] ∨ bytes ≠ [] ∧ body.length < bodyLength dscrLen dscrType) :
    Consumed m c₀ d₀ before bytes (parseBody m s bytes) := by
  rcases parseBody_spec m h bytes with
    ⟨hstay, hlt, s', hrun, hreads⟩ | ⟨hge, hfit, s', hrun, hreads⟩
  · rw [hrun]
    refine ⟨bytes, c, _, by simp, ?_, rfl, ?_, hreads⟩
    · rcases hgo with hgo | hgo <;> simp [hgo]
    rw [RecordReader.walk_append, hopen hlt, walk_body_open m c hstay]
    rfl
  · rw [hrun]
    refine ⟨bytes.take (bodyLength dscrLen dscrType - body.length), _, [],
      (List.take_append_drop _ _).symm, ?_, rfl, ?_, hreads⟩
    · rcases hgo with hgo | ⟨hgo, hlt⟩
      · simp [hgo]
      · simp [hgo, Nat.sub_eq_zero_iff_le, hlt]
    have hle := h.le
    rcases hle.lt_or_eq with hlt | heq
    · rw [RecordReader.walk_append, hopen hlt, walk_body_close m c]
      · rfl
      · intro hnil
        have hlen := congrArg List.length hnil
        rw [List.length_take, List.length_nil] at hlen
        omega
      · rw [List.length_take]
        omega
      · exact hfit
    · rw [heq, Nat.sub_self, List.take_zero, List.append_nil, List.append_nil, hclosed heq]

/-- The two header bytes as they are found in the buffer. -/
theorem storeAt_header (v : Vector UInt8 16) (dscrLen dscrType : UInt8) :
    fieldAt (storeAt v 0 [dscrLen, dscrType]) 0 = dscrLen ∧
      fieldAt (storeAt v 0 [dscrLen, dscrType]) 1 = dscrType := by
  simp [storeAt, fieldAt]

/-- A header that ends where the body begins, or with the descriptor. -/
private theorem walk_header (m : InterfaceMask) (c : Context) {d xs : List UInt8}
    {dscrLen dscrType : UInt8} (hne : xs ≠ []) (h : d ++ xs = [dscrLen, dscrType]) :
    (0 < bodyLength dscrLen dscrType →
      (reader m).walk (c, d) xs = ((c, [dscrLen, dscrType]), [])) ∧
    (0 = bodyLength dscrLen dscrType → (reader m).walk (c, d) xs =
      (((c.descriptor m [dscrLen, dscrType]).1, []), (c.descriptor m [dscrLen, dscrType]).2)) := by
  have hshort : ∀ pre, pre <+: xs → pre ≠ [] → pre ≠ xs → (reader m).done (d ++ pre) = false := by
    intro pre hpre _ hlt
    have hlen := congrArg List.length h
    have hlt' : pre.length < xs.length :=
      lt_of_le_of_ne hpre.length_le fun heq ↦ hlt (hpre.eq_of_length heq)
    have htwo : (d ++ pre).length < 2 := by
      simp only [List.length_append, List.length_cons, List.length_nil] at hlen ⊢
      omega
    match d ++ pre, htwo with
    | [], _ => rfl
    | [_], _ => rfl
  constructor
  · intro hpos
    have hopen := (reader m).walk_open c d fun pre (hpre : pre <+: xs) hne' ↦ by
      by_cases heq : pre = xs
      · rw [heq, h, ← Bool.not_eq_true, done_iff]
        exact fun hdone ↦ hpos.ne hdone.1
      · exact hshort pre hpre hne' heq
    rwa [h] at hopen
  · intro hzero
    have hclose := (reader m).walk_close c d hne (by
      rw [h, done_iff, length_stored]
      exact ⟨hzero, by split <;> decide⟩) hshort
    rw [h] at hclose
    exact hclose

/-- A header stored in the buffer, the body entered: the context is the header's. -/
private theorem context_enterBody {s : ConfigDescParser} {c : Context} {dscrLen dscrType : UInt8}
    (hp : s.pValue = 0) (hv : s.varBuffer = storeAt c.varBuffer 0 [dscrLen, dscrType])
    (hctx : s.context = { c with varBuffer := storeAt c.varBuffer 0 [dscrLen, dscrType] })
    (hn : s.theSkipper.nStage = 0) (hclean : c.overrun = false) :
    InBody ({ s with
      dscrLen := fieldAt s.varBuffer s.pValue, dscrType := fieldAt s.varBuffer (s.pValue + 1)
      }.enterBody) c dscrLen dscrType [] := by
  obtain ⟨hlen, htype⟩ := storeAt_header c.varBuffer dscrLen dscrType
  rw [hp, hv, Nat.zero_add, hlen, htype]
  have hbuffer := congrArg Context.varBuffer hctx
  have hgood := congrArg Context.isGoodInterface hctx
  have hconf := congrArg Context.confValue hctx
  have hproto := congrArg Context.protoValue hctx
  have hiface := congrArg Context.ifaceNumber hctx
  have halt := congrArg Context.ifaceAltSet hctx
  have hover := congrArg Context.overrun hctx
  simp only [context] at hbuffer hgood hconf hproto hiface halt hover
  refine ⟨hover.trans hclean, ?_, ⟨rfl, rfl, rfl, ?_⟩, Nat.zero_le _⟩
  · simp only [context, enterBody, Context.load, stored, ite_self, opensInterface, hgood,
      hconf, hproto, hiface, halt, hover]
    simp [bne]
  · by_cases hread : isRead dscrType = true
    · rw [if_pos hread]
      exact ⟨hn, by simp [enterBody, bodyLength, hread]⟩
    · rw [if_neg hread]
      exact Or.inr ⟨rfl, hn⟩

/-- `case 1` goes on with a header of which less than two bytes were read. -/
theorem parseHeader_consumed (m : InterfaceMask) {s : ConfigDescParser} {c : Context}
    {d : List UInt8} (hd : d.length < 2) (hstate : s.stateParseDescr = 1) (hp : s.pValue = 0)
    (hn : s.theSkipper.nStage = 0) (hval : s.valParser = ⟨0, 2 - d.length, 2⟩)
    (hctx : s.context = { c with varBuffer := storeAt c.varBuffer 0 d })
    (hclean : c.overrun = false) {bytes : List UInt8} (hne : bytes ≠ []) :
    Consumed m c d [] bytes (parseHeader m s bytes) := by
  have hcount : s.valParser.countDown = 2 - d.length := by rw [hval]
  have hsize : s.valParser.valueSize = 2 := by rw [hval]
  have hoffset : s.offset = 0 + d.length := by
    rw [offset, hval]
    dsimp only
    omega
  have hread : ∀ xs, (s.readBytes xs).context =
      { c with varBuffer := storeAt c.varBuffer 0 (d ++ xs) } := by
    intro xs
    rw [storeAt_append]
    simp only [readBytes, hoffset]
    change ({ s.context with
      varBuffer := storeAt s.context.varBuffer (0 + d.length) xs } : Context) = _
    rw [hctx]
  rw [parseHeader, parseValue_eq s bytes (by omega) (by omega), hcount]
  by_cases hshort : bytes.length < 2 - d.length
  · rw [if_pos hshort]
    have hpos := List.length_pos_iff.mpr hne
    obtain ⟨b, rfl⟩ : ∃ b, bytes = [b] := List.length_eq_one_iff.mp (by omega)
    obtain rfl : d = [] := List.eq_nil_of_length_eq_zero (by simp at hshort; omega)
    refine ⟨[b], c, [b], rfl, by simp, rfl, rfl, hclean, ?_,
      fun _ ↦ ⟨hstate, hp, hn, ?_⟩, fun _ ↦ trivial⟩
    · rw [hread [b]]
      simp [Context.load, stored, opensInterface]
    · simp only [readBytes, hval]
      rfl
  · rw [if_neg hshort]
    set xs := bytes.take (2 - d.length) with hxs
    have hlen : (d ++ xs).length = 2 := by
      rw [List.length_append, hxs, List.length_take]
      omega
    obtain ⟨dscrLen, dscrType, heq⟩ : ∃ a b, d ++ xs = [a, b] := List.length_eq_two.mp hlen
    have hxs0 : xs ≠ [] := by
      intro hnil
      rw [hnil, List.append_nil] at hlen
      omega
    have hctx' := hread xs
    rw [heq] at hctx'
    have hbody := context_enterBody (s := { s.readBytes xs with
      valParser.countDown := s.valParser.valueSize }) hp
      (congrArg Context.varBuffer hctx') hctx' hn hclean
    obtain ⟨hopen, hclosed⟩ := walk_header m c hxs0 heq
    obtain ⟨pre, c', d', hsplit, hgo, hdone, hwalk, hreads⟩ :=
      parseBody_consumed m hbody hopen hclosed (Or.inl hxs0)
    refine ⟨xs ++ pre, c', d', ?_, hgo, hdone, hwalk, hreads⟩
    rw [List.append_assoc, ← hsplit, hxs, List.take_append_drop]

/-- One call of `ParseDescriptor` goes on with the walk, and consumes something. -/
theorem parseDescriptor_consumed (m : InterfaceMask) {s : ConfigDescParser} {c : Context}
    {d bytes : List UInt8} (h : Reads s c d) (hin : s.overrun = false) (hne : bytes ≠ []) :
    Consumed m c d [] bytes (parseDescriptor m s bytes) := by
  obtain ⟨hclean, hctx, hplace, hopen⟩ := h
  replace hplace := hplace hin
  replace hopen := hopen hin
  match d, hctx, hplace, hopen with
  | [], hctx, ⟨hstate, hp, hn⟩, _ =>
    rw [parseDescriptor, hstate]
    rw [Context.load_nil] at hctx
    exact parseHeader_consumed m
      (s := { s with valParser := ⟨s.pValue, 2, 2⟩, stateParseDescr := 1 }) (d := [])
      (by simp) rfl hp hn (by rw [hp]; rfl) hctx hclean hne
  | [_], hctx, ⟨hstate, hp, hn, hval⟩, _ =>
    rw [parseDescriptor, hstate]
    refine parseHeader_consumed m (d := [_]) (by simp) hstate hp hn hval ?_ hclean hne
    rw [hctx]
    simp [Context.load, stored, opensInterface]
  | dscrLen :: dscrType :: body, hctx, hplace, hopen =>
    rw [parseDescriptor, hplace.1]
    refine parseBody_consumed m ⟨hin, hctx, hplace, hopen.le⟩ (fun _ ↦ rfl) (fun heq ↦ ?_)
      (Or.inr ⟨hne, hopen⟩)
    exact absurd heq (Nat.ne_of_lt hopen)

/-! ### Any pieces of any bytes -/

/-- A parser between two descriptors is within its buffer. -/
theorem Reads.inside {s : ConfigDescParser} {c : Context} (h : Reads s c []) :
    s.overrun = false := by
  have hctx := h.context
  rw [Context.load_nil] at hctx
  exact (congrArg Context.overrun hctx).trans h.clean

/-- Bytes that come once the parser has left its buffer lengthen the open descriptor, no more. -/
theorem Reads.walk_overrun (m : InterfaceMask) {s : ConfigDescParser} {c : Context}
    {d : List UInt8} (h : Reads s c d) (hover : s.overrun = true) (bytes : List UInt8) :
    (reader m).walk (c, d) bytes = ((c, d ++ bytes), []) ∧ Reads s c (d ++ bytes) := by
  have hctx : s.overrun = (c.overrun || decide (16 < (stored d).length)) :=
    congrArg Context.overrun h.context
  rw [hover, h.clean, Bool.false_or, eq_comm, decide_eq_true_eq] at hctx
  constructor
  · refine (reader m).walk_open c d fun pre _ _ ↦ ?_
    have hlong := (c.load_past hctx pre).2
    match hd : d ++ pre with
    | [] => rfl
    | [_] => rfl
    | dscrLen :: dscrType :: body =>
      rw [← Bool.not_eq_true, done_iff, ← hd]
      omega
  · refine ⟨h.clean, h.context.trans (c.load_past hctx bytes).1.symm, ?_, ?_⟩
    · exact fun hno ↦ absurd (hover.symm.trans hno) (by decide)
    · exact fun hno ↦ absurd (hover.symm.trans hno) (by decide)

/-- The loop of `Parse` returns, having walked over all the bytes. -/
theorem parseLoop_walk (m : InterfaceMask) {fuel : Nat} {s : ConfigDescParser} {c : Context}
    {d bytes : List UInt8} (h : Reads s c d) (hin : s.overrun = false)
    (hfuel : bytes.length ≤ fuel) : ∃ s' c' d' calls, parseLoop m fuel s bytes = some (s', calls) ∧
      (reader m).walk (c, d) bytes = ((c', d'), calls) ∧ Reads s' c' d' := by
  induction fuel generalizing s c d bytes with
  | zero =>
    obtain rfl := List.eq_nil_of_length_eq_zero (Nat.le_zero.mp hfuel)
    exact ⟨s, c, d, [], by rw [parseLoop], rfl, h⟩
  | succ fuel ih =>
    match bytes with
    | [] => exact ⟨s, c, d, [], by rw [parseLoop], rfl, h⟩
    | b :: bytes =>
      obtain ⟨pre, c₁, d₁, hsplit, hgo, hdone, hwalk, hreads⟩ :=
        parseDescriptor_consumed m h hin (List.cons_ne_nil b bytes)
      rw [List.nil_append] at hgo hwalk
      rw [parseLoop]
      obtain ⟨done, s₁, rest, calls, hr⟩ : ∃ done s₁ rest calls,
          parseDescriptor m s (b :: bytes) = (done, s₁, rest, calls) := ⟨_, _, _, _, rfl⟩
      rw [hr] at hsplit hdone hwalk hreads ⊢
      cases done with
      | false =>
        refine ⟨s₁, c₁, d₁, calls, rfl, ?_, hreads⟩
        rw [hsplit, show rest = [] from hdone, List.append_nil, hwalk]
      | true =>
        have hpos := List.length_pos_iff.mpr hgo
        have hlen := congrArg List.length hsplit
        rw [List.length_append] at hlen
        dsimp only at hlen
        have hrest : rest.length ≤ fuel := by
          rw [List.length_cons] at hfuel hlen
          omega
        obtain rfl : d₁ = [] := hdone
        obtain ⟨s₂, c₂, d₂, calls₂, hrun, hwalk₂, hreads₂⟩ := ih hreads hreads.inside hrest
        refine ⟨s₂, c₂, d₂, calls ++ calls₂, ?_, ?_, hreads₂⟩
        · exact congrArg (Option.map fun r ↦ (r.1, calls ++ r.2)) hrun
        · rw [hsplit, RecordReader.walk_append, hwalk, hwalk₂]

/-- `Parse` returns on a piece, having walked over its bytes; once it has left the buffer, the
walk stands still as well. -/
theorem parse_walk (m : InterfaceMask) {s : ConfigDescParser} {c : Context} {d : List UInt8}
    (h : Reads s c d) (bytes : List UInt8) :
    ∃ s' c' d' calls, parse m s bytes = some (s', calls) ∧
      (reader m).walk (c, d) bytes = ((c', d'), calls) ∧ Reads s' c' d' := by
  cases hover : s.overrun with
  | true =>
    obtain ⟨hwalk, hreads⟩ := h.walk_overrun m hover bytes
    exact ⟨s, c, d ++ bytes, [], by rw [parse, if_pos hover], hwalk, hreads⟩
  | false =>
    rw [parse, hover]
    exact parseLoop_walk m h hover le_rfl

/-- The parser handed the bytes in pieces is the walk over the bytes put together. -/
theorem parsePieces_walk (m : InterfaceMask) {s : ConfigDescParser} {c : Context} {d : List UInt8}
    (h : Reads s c d) (pieces : List (List UInt8)) :
    ∃ s' c' d' calls, parsePieces m s pieces = some (s', calls) ∧
      (reader m).walk (c, d) pieces.flatten = ((c', d'), calls) ∧ Reads s' c' d' := by
  induction pieces generalizing s c d with
  | nil => exact ⟨s, c, d, [], rfl, rfl, h⟩
  | cons piece pieces ih =>
    obtain ⟨s₁, c₁, d₁, calls₁, hrun₁, hwalk₁, hreads₁⟩ := parse_walk m h piece
    obtain ⟨s₂, c₂, d₂, calls₂, hrun₂, hwalk₂, hreads₂⟩ := ih hreads₁
    refine ⟨s₂, c₂, d₂, calls₁ ++ calls₂, ?_, ?_, hreads₂⟩
    · rw [parsePieces, hrun₁, Option.bind_some, hrun₂, Option.map_some]
    · rw [List.flatten_cons, RecordReader.walk_append, hwalk₁, hwalk₂]

/-- A parser fresh from its constructor has read nothing. -/
theorem reads_init (v : Vector UInt8 16) (size : Nat) (good : Bool) (conf proto iface alt : UInt8) :
    Reads (init v size good conf proto iface alt) ⟨v, good, conf, proto, iface, alt, false⟩ [] where
  clean := rfl
  context := by rw [Context.load_nil]; rfl
  place _ := ⟨rfl, rfl, rfl⟩
  unfinished _ := trivial

/-- The context and calls a new parser owes for some bytes, however they are cut. -/
def outcome (m : InterfaceMask) (c : Context) (bytes : List UInt8) :
    Context × List EndpointCall :=
  let r := (reader m).walk (c, []) bytes
  (r.1.1.load r.1.2, r.2)

/-- Whatever the bytes and wherever the transfers cut them, `Parse` returns on every piece, and
the endpoints handed to the driver and what is left in the parser are those of the walk over
the descriptors in the bytes put together, up to the first byte that leaves the buffer. -/
theorem parsePieces_outcome (m : InterfaceMask) (v : Vector UInt8 16) (size : Nat) (good : Bool)
    (conf proto iface alt : UInt8) (pieces : List (List UInt8)) :
    (parsePieces m (init v size good conf proto iface alt) pieces).map
        (fun r ↦ (r.1.context, r.2)) =
      some (outcome m ⟨v, good, conf, proto, iface, alt, false⟩ pieces.flatten) := by
  obtain ⟨s', c', d', calls, hrun, hwalk, hreads⟩ :=
    parsePieces_walk m (reads_init v size good conf proto iface alt) pieces
  rw [hrun, Option.map_some, outcome, hwalk, ← hreads.context]

/-! ### When the buffer is overrun -/

/-- Using a descriptor stores nothing. -/
theorem Context.use_overrun (m : InterfaceMask) (c : Context) (dscrType : UInt8) :
    (c.use m dscrType).1.overrun = c.overrun := by
  unfold Context.use
  dsimp only
  split
  · rfl
  split
  · split <;> rfl
  split
  · split <;> rfl
  · rfl

/-- One more byte overruns the buffer if it is the seventeenth of a descriptor that is read. -/
theorem outcome_overrun_concat (m : InterfaceMask) (c : Context) (bytes : List UInt8) (b : UInt8) :
    (outcome m c (bytes ++ [b])).1.overrun = ((outcome m c bytes).1.overrun ||
      decide (16 < (stored (((reader m).walk (c, []) bytes).1.2 ++ [b])).length)) := by
  obtain ⟨c', d', calls, hw⟩ : ∃ c' d' calls,
      (reader m).walk (c, []) bytes = ((c', d'), calls) := ⟨_, _, _, rfl⟩
  rw [hw]
  have hmono : 16 < (stored d').length → 16 < (stored (d' ++ [b])).length := by
    intro hlt
    match d', hlt with
    | [], hlt => simp [stored] at hlt
    | [_], hlt => simp [stored] at hlt
    | dscrLen :: dscrType :: body, hlt =>
      by_cases hread : isRead dscrType = true
      · simp only [stored, hread, if_true, List.cons_append, List.length_cons,
          List.length_append] at hlt ⊢
        omega
      · simp [stored, hread] at hlt
  have hjoin : (decide (16 < (stored d').length) || decide (16 < (stored (d' ++ [b])).length)) =
      decide (16 < (stored (d' ++ [b])).length) := by
    rw [← Bool.decide_or, decide_eq_decide]
    exact or_iff_right_of_imp hmono
  have hload : (outcome m c bytes).1.overrun =
      (c'.overrun || decide (16 < (stored d').length)) := by rw [outcome, hw]; rfl
  dsimp only
  rw [hload, Bool.or_assoc, hjoin, outcome, RecordReader.walk_append, hw, RecordReader.walk_cons,
    RecordReader.walk_nil]
  dsimp only
  unfold RecordReader.feed
  split
  · next hdone =>
    match hd : d' ++ [b], hdone with
    | dscrLen :: dscrType :: body, hdone =>
      rw [Context.load_nil]
      exact Context.use_overrun m _ dscrType
  · rfl

/-- The bytes whose arrival overruns the buffer. -/
theorem outcome_overrun_iff (m : InterfaceMask) {c : Context} (hc : c.overrun = false)
    (bytes : List UInt8) : (outcome m c bytes).1.overrun = true ↔
      ∃ pre b, pre ++ [b] <+: bytes ∧
        16 < (stored (((reader m).walk (c, []) pre).1.2 ++ [b])).length := by
  induction bytes using List.reverseRecOn with
  | nil =>
    refine iff_of_false ?_ ?_
    · rw [outcome, RecordReader.walk_nil, Context.load_nil, hc]
      decide
    · rintro ⟨pre, b, hpre, -⟩
      simpa using hpre.length_le
  | append_singleton bytes b ih =>
    rw [outcome_overrun_concat, Bool.or_eq_true, ih, decide_eq_true_eq]
    constructor
    · rintro (⟨pre, b', hpre, h⟩ | h)
      · exact ⟨pre, b', hpre.trans (List.prefix_append _ _), h⟩
      · exact ⟨bytes, b, List.prefix_refl _, h⟩
    · rintro ⟨pre, b', hpre, h⟩
      rcases concat_prefix_concat_iff.mp hpre with ⟨rfl, rfl⟩ | hpre
      · exact Or.inr h
      · exact Or.inl ⟨pre, b', hpre, h⟩

/-- `Parse` stores past `varBuffer` exactly when the seventeenth byte of a configuration,
interface or endpoint descriptor arrives, whatever the pieces. -/
theorem overrun_iff (m : InterfaceMask) (v : Vector UInt8 16) (size : Nat) (good : Bool)
    (conf proto iface alt : UInt8) (pieces : List (List UInt8)) :
    (parsePieces m (init v size good conf proto iface alt) pieces).map (·.1.overrun) = some true ↔
      ∃ pre b, pre ++ [b] <+: pieces.flatten ∧ 16 < (stored (((reader m).walk
        (⟨v, good, conf, proto, iface, alt, false⟩, []) pre).1.2 ++ [b])).length := by
  obtain ⟨s', c', d', calls, hrun, hwalk, hreads⟩ :=
    parsePieces_walk m (reads_init v size good conf proto iface alt) pieces
  have hover := congrArg Context.overrun hreads.context
  rw [← outcome_overrun_iff m rfl, hrun, Option.map_some, Option.some.injEq, outcome, hwalk]
  exact iff_of_eq (congrArg (· = true) hover)

end ConfigDescParser

end MouseAide.Host
