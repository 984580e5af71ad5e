import MouseAide.Base.ReportDescriptor
import MouseAide.Firmware.Framing

/-!
# The report descriptor

Library `MouseFirmware`. `arduino_mouse_16u2/Descriptors.c:46–74`: three button bits, five
constant bits and two relative bytes declared from -127 to 127. The storage type of `X` and
`Y` reaches one further down, which is all a register value can violate besides the padding.
-/

namespace MouseAide.Firmware

open MouseAide.Base

/-- `MouseReport`, `Descriptors.c:46–74`. -/
def mouseReportDescriptor : List UInt8 :=
  [0x05, 0x01,  -- Usage Page (Generic Desktop)
   0x09, 0x02,  -- Usage (Mouse)
   0xA1, 0x01,  -- Collection (Application)
   0x09, 0x01,  --   Usage (Pointer)
   0xA1, 0x00,  --   Collection (Application)
   0x95, 0x03,  --     Report Count (3)
   0x75, 0x01,  --     Report Size (1)
   0x05, 0x09,  --     Usage Page (Button)
   0x19, 0x01,  --     Usage Minimum (Button 1)
   0x29, 0x03,  --     Usage Maximum (Button 3)
   0x15, 0x00,  --     Logical Minimum (0)
   0x25, 0x01,  --     Logical Maximum (1)
   0x81, 0x02,  --     Input (Data, Variable, Absolute)
   0x95, 0x01,  --     Report Count (1)
   0x75, 0x05,  --     Report Size (5)
   0x81, 0x01,  --     Input (Constant)
   0x75, 0x08,  --     Report Size (8)
   0x95, 0x02,  --     Report Count (2)
   0x05, 0x01,  --     Usage Page (Generic Desktop Control)
   0x09, 0x30,  --     Usage X
   0x09, 0x31,  --     Usage Y
   0x15, 0x81,  --     Logical Minimum (-127)
   0x25, 0x7F,  --     Logical Maximum (127)
   0x81, 0x06,  --     Input (Data, Variable, Relative)
   0xC0,        --   End Collection
   0xC0]        -- End Collection

/-- The fields the host reads off the descriptor. -/
theorem inputFields_mouseReport :
    inputFields mouseReportDescriptor =
      [⟨0, 1, false, 0, 1⟩, ⟨1, 1, false, 0, 1⟩, ⟨2, 1, false, 0, 1⟩, ⟨3, 5, true, 0, 1⟩,
        ⟨8, 8, false, -127, 127⟩, ⟨16, 8, false, -127, 127⟩] := by
  decide

private theorem littleEndian_bytes (r : MouseReportData) :
    littleEndian r.bytes =
      r.button.toNat + 256 * (r.x.toUInt8.toNat + 256 * r.y.toUInt8.toNat) := rfl

private theorem padding_bitVec : ∀ v : BitVec 8, v &&& 0xF8 = 0 ↔ v.toNat / 8 % 32 = 0 := by
  decide

/-- The padding bits of the button byte. -/
theorem padding_eq_zero_iff (b : UInt8) : b &&& 0xF8 = 0 ↔ b.toNat / 8 % 32 = 0 := by
  rw [← UInt8.toBitVec_inj]
  exact padding_bitVec b.toBitVec

section Fields

variable (r : MouseReportData)

/-- Every button bit is in the declared range. -/
private theorem admits_button (offset : Nat) :
    ReportField.Admits ⟨offset, 1, false, 0, 1⟩ r.bytes := by
  have hlt : ReportField.bits ⟨offset, 1, false, 0, 1⟩ r.bytes < 2 :=
    Nat.mod_lt _ Nat.two_pos
  simp only [ReportField.Admits, ReportField.value]
  constructor
  · exact Int.natCast_nonneg _
  · exact Int.ofNat_le.mpr (Nat.le_of_lt_succ hlt)

private theorem bits_padding :
    ReportField.bits ⟨3, 5, true, 0, 1⟩ r.bytes = r.button.toNat / 8 % 32 := by
  simp only [ReportField.bits, littleEndian_bytes]
  omega

private theorem value_x :
    ReportField.value ⟨8, 8, false, -127, 127⟩ r.bytes = r.x.toInt := by
  have hbits : ReportField.bits ⟨8, 8, false, -127, 127⟩ r.bytes = r.x.toUInt8.toNat := by
    have hb := r.button.toNat_lt
    have hx := r.x.toUInt8.toNat_lt
    simp only [ReportField.bits, littleEndian_bytes]
    omega
  rw [← signed_toUInt8, ← hbits]
  rfl

private theorem value_y :
    ReportField.value ⟨16, 8, false, -127, 127⟩ r.bytes = r.y.toInt := by
  have hbits : ReportField.bits ⟨16, 8, false, -127, 127⟩ r.bytes = r.y.toUInt8.toNat := by
    have hb := r.button.toNat_lt
    have hx := r.x.toUInt8.toNat_lt
    have hy := r.y.toUInt8.toNat_lt
    simp only [ReportField.bits, littleEndian_bytes]
    omega
  rw [← signed_toUInt8, ← hbits]
  rfl

end Fields

/-- A report conforms exactly when its padding is zero and neither displacement is the one
value below the declared range. -/
theorem conforms_iff (r : MouseReportData) :
    Conforms mouseReportDescriptor r.bytes ↔
      r.button &&& 0xF8 = 0 ∧ -127 ≤ r.x.toInt ∧ -127 ≤ r.y.toInt := by
  have hx : r.x.toInt ≤ 127 := Int.le_of_lt_add_one r.x.toInt_lt
  have hy : r.y.toInt ≤ 127 := Int.le_of_lt_add_one r.y.toInt_lt
  have hpadding : ReportField.Admits ⟨3, 5, true, 0, 1⟩ r.bytes ↔ r.button &&& 0xF8 = 0 := by
    rw [padding_eq_zero_iff, ← bits_padding]
    exact Iff.rfl
  have hX : ReportField.Admits ⟨8, 8, false, -127, 127⟩ r.bytes ↔ -127 ≤ r.x.toInt := by
    simp only [ReportField.Admits, value_x]
    exact and_iff_left hx
  have hY : ReportField.Admits ⟨16, 8, false, -127, 127⟩ r.bytes ↔ -127 ≤ r.y.toInt := by
    simp only [ReportField.Admits, value_y]
    exact and_iff_left hy
  simp only [Conforms, inputFields_mouseReport, List.forall_mem_cons, admits_button, hpadding, hX,
    hY, true_and, List.not_mem_nil, false_implies, implies_true, and_true]

end MouseAide.Firmware
