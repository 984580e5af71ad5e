import Mathlib.Data.UInt

/-!
# What a HID report descriptor declares

Library `MouseBase`. A report descriptor is a list of short items: a prefix byte with the
size of its data, its type and its tag, then the data. Global items set the current logical
range, field size and field count; each Input item lays out that many fields behind the
earlier ones. A report conforms when every field, read little-endian from its bit offset, is
zero if it is constant and in its logical range if it is not.
-/

namespace MouseAide.Base

/-- A field of an input report. -/
structure ReportField where
  offset : Nat
  size : Nat
  constant : Bool
  logicalMin : Int
  logicalMax : Int
  deriving DecidableEq, Repr

/-- The global items in force, and the number of bits laid out. -/
structure ItemState where
  reportSize : Nat
  reportCount : Nat
  logicalMin : Int
  logicalMax : Int
  offset : Nat
  deriving DecidableEq, Repr

/-- Little-endian value of a byte list. -/
def littleEndian : List UInt8 → Nat
  | [] => 0
  | b :: bytes => b.toNat + 256 * littleEndian bytes

/-- Two's complement reading of a value of `size` bits. -/
def signed (size value : Nat) : Int :=
  if 2 * value < 2 ^ size then value else value - 2 ^ size

/-- Number of data bytes behind an item prefix. -/
def itemDataSize (item : UInt8) : Nat :=
  match item &&& 0x03 with
  | 0 => 0
  | 1 => 1
  | 2 => 2
  | _ => 4

/-- One item: a new state and, for an Input item, its fields. -/
def ItemState.read (s : ItemState) (item : UInt8) (data : List UInt8) :
    ItemState × List ReportField :=
  match item &&& 0xFC with
  | 0x14 => ({ s with logicalMin := signed (8 * data.length) (littleEndian data) }, [])
  | 0x24 => ({ s with logicalMax := signed (8 * data.length) (littleEndian data) }, [])
  | 0x74 => ({ s with reportSize := littleEndian data }, [])
  | 0x94 => ({ s with reportCount := littleEndian data }, [])
  | 0x80 =>
    ({ s with offset := s.offset + s.reportCount * s.reportSize },
      (List.range s.reportCount).map fun i ↦
        { offset := s.offset + i * s.reportSize
          size := s.reportSize
          constant := littleEndian data % 2 == 1
          logicalMin := s.logicalMin
          logicalMax := s.logicalMax })
  | _ => (s, [])

/-- The fields declared by at most `fuel` items. -/
def readItems : Nat → ItemState → List UInt8 → List ReportField
  | 0, _, _ => []
  | _ + 1, _, [] => []
  | fuel + 1, s, item :: bytes =>
    (s.read item (bytes.take (itemDataSize item))).2 ++
      readItems fuel (s.read item (bytes.take (itemDataSize item))).1
        (bytes.drop (itemDataSize item))

/-- The input fields of a descriptor; no descriptor has more items than bytes. -/
def inputFields (descriptor : List UInt8) : List ReportField :=
  readItems descriptor.length ⟨0, 0, 0, 0, 0⟩ descriptor

/-- The bits of a field in a report. -/
def ReportField.bits (f : ReportField) (report : List UInt8) : Nat :=
  littleEndian report / 2 ^ f.offset % 2 ^ f.size

/-- The value of a field, signed when its range goes below zero. -/
def ReportField.value (f : ReportField) (report : List UInt8) : Int :=
  if f.logicalMin < 0 then signed f.size (f.bits report) else f.bits report

/-- A constant field is zero, a data field in its logical range. -/
def ReportField.Admits (f : ReportField) (report : List UInt8) : Prop :=
  if f.constant then f.bits report = 0
  else f.logicalMin ≤ f.value report ∧ f.value report ≤ f.logicalMax

instance (f : ReportField) (report : List UInt8) : Decidable (f.Admits report) :=
  inferInstanceAs (Decidable (ite _ _ _))

/-- Every field of the descriptor admits the report. -/
def Conforms (descriptor report : List UInt8) : Prop :=
  ∀ f ∈ inputFields descriptor, f.Admits report

instance (descriptor report : List UInt8) : Decidable (Conforms descriptor report) :=
  inferInstanceAs (Decidable (∀ _ ∈ _, _))

/-- A signed byte is the two's complement reading of its bits. -/
theorem signed_toUInt8 (x : Int8) : signed 8 x.toUInt8.toNat = x.toInt := by
  have h : x.toInt = x.toBitVec.toInt := rfl
  have hn : x.toUInt8.toNat = x.toBitVec.toNat := rfl
  rw [h, BitVec.toInt_eq_toNat_cond, hn]
  rfl

end MouseAide.Base
