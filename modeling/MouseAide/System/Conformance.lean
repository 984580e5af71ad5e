import MouseAide.Firmware.Descriptors
import MouseAide.Firmware.Progress
import MouseAide.Firmware.Relative
import MouseAide.Translator.Range

/-!
# Conformance to the report descriptor

Library `MouseSystem`. The range -127..127 is promised by the 16U2,
`arduino_mouse_16u2/Descriptors.c:46–74`, and kept, if at all, by the 328P, which copies
`dX` and negates `dY`, `arduino_mouse_328p.ino:29–41`; nothing between the two looks at a
value. So conformance is a property of the reports polled, exactly.
-/

namespace MouseAide.System

open MouseAide.Base MouseAide.Translator MouseAide.Firmware

/-! ### Every report is a triple -/

/-- A report written to the IN endpoint, or answered to `GET_REPORT` in whole or in part. -/
def Reported (o : List Obs) (r : MouseReportData) : Prop :=
  .inReport r ∈ o ∨ ∃ size, .getReport r size ∈ o

theorem reported_append (o o' : List Obs) (r : MouseReportData) :
    Reported (o ++ o') r ↔ Reported o r ∨ Reported o' r := by
  simp only [Reported, List.mem_append, exists_or]
  exact or_or_or_comm

/-- What the host has received whole was reported. -/
theorem reported_of_delivered {o : List Obs} {r : MouseReportData} (h : r ∈ delivered o) :
    Reported o r := by
  obtain ⟨x, hx, hr⟩ := List.mem_filterMap.mp h
  cases x with
  | inReport r' =>
    obtain rfl : r' = r := by simpa using hr
    exact Or.inl hx
  | getReport r' size =>
    obtain ⟨-, rfl⟩ : size = 3 ∧ r' = r := by simpa using hr
    exact Or.inr ⟨size, hx⟩
  | _ => cases hr

/-- Every report is the zero register of a reset or a triple assigned. -/
def Sourced (_ : Mcu) (o : List Obs) : Prop := ∀ r, Reported o r → r ∈ .zero :: assigned o

/-- A step reports the triple assigned last, or nothing. -/
theorem reported_step {s : Mcu} {o : List Obs} (h : Tenure s o) (e : Event) {r : MouseReportData}
    (hr : Reported (step s e).2 r) : r ∈ .zero :: assigned o := by
  have hlast : lastTriple (assigned o) ∈ MouseReportData.zero :: assigned o :=
    List.mem_of_getLast? (getLast?_history _)
  have hcases := host_cases s e
  generalize Firmware.step s e = c at *
  cases hcases with
  | other _ _ _ _ obs =>
    rcases hr with hr | ⟨size, hr⟩
    · exact absurd (obs _ hr) (by simp [Obs.silent])
    · exact absurd (obs _ hr) (by simp [Obs.silent])
  | assign _ _ => simp [Reported] at hr
  | create _ _ => simp [Reported] at hr
  | send _ data pc =>
    obtain rfl : r = data := by simpa [Reported] using hr
    rw [(h.sending_eq r true pc).1]
    exact hlast
  | suppress _ _ _ => simp [Reported] at hr
  | getReport _ _ pc _ _ =>
    obtain rfl : r = s.mouseReport := by simpa [Reported] using hr
    rw [h.decoding.register_of_idle (by rw [pc]; rfl)]
    exact hlast

/-- Every report of a run is the zero register or a triple assigned in it. -/
theorem sourced (events : List Event) :
    Sourced (firmware.state events) (firmware.trace events) := by
  apply Machine.invariant _ _ (Machine.meets_reach tenure events)
  · rintro r (hr | ⟨size, hr⟩) <;> cases hr
  · intro s o e h ht r hr
    have hsub : MouseReportData.zero :: assigned o ⊆ .zero :: assigned (o ++ (step s e).2) := by
      rw [assigned_append]
      exact List.cons_subset_cons _ (List.subset_append_left _ _)
    rcases (reported_append _ _ _).mp hr with hr | hr
    · exact hsub (h r hr)
    · exact hsub (reported_step ht e hr)

/-! ### Conformance -/

/-- Whatever has arrived of the sketch's byte stream, every report to the host conforms to
the descriptor; and the frame of each motion report carries the exact negation of its `dY`. -/
structure Conformance (keyLow : Bool) (reports : List MouseInfo) : Prop where
  conform : ∀ events, rxBytes events <+: (parseAll (setup keyLow) reports).serialBytes →
    firmware.Meets ConfiguredAtRx events → firmware.Always NoOverrun events →
      ∀ r, Reported (firmware.trace events) r → Conforms mouseReportDescriptor r.bytes
  negated : ∀ pre mi, pre ++ [mi] <+: reports → mi.dX ≠ 0 ∨ mi.dY ≠ 0 →
    ∃ f, (parseAll (setup keyLow) (pre ++ [mi])).serial.getLast? = some f ∧
      f.y.toInt = -mi.dY.toInt

/-- A triple conforms when its frame is in range. -/
theorem conforms_triple {f : MouseReport} (h : f.InRange) :
    Conforms mouseReportDescriptor (triple f).bytes :=
  (conforms_iff _).mpr ⟨h.padding, h.x, h.y⟩

/-- The zero report conforms. -/
theorem conforms_zero : Conforms mouseReportDescriptor MouseReportData.zero.bytes :=
  (conforms_iff _).mpr (by decide)

/-- A history in range conforms in every run. -/
private theorem conformance_of_displacements {keyLow : Bool} {reports : List MouseInfo}
    (h : ∀ mi ∈ reports, Displacement mi.dX ∧ Displacement mi.dY) :
    Conformance keyLow reports := by
  constructor
  · intro events hlink hconf hroom r hr
    have hframes := ((setup_inRange keyLow).parseAll h).frames
    rcases List.mem_cons.mp (sourced events r hr) with rfl | hr
    · exact conforms_zero
    · have hsent := (assigned_prefix_frames hlink hconf hroom).subset hr
      obtain ⟨f, hf, rfl⟩ := List.mem_map.mp hsent
      exact conforms_triple (hframes f hf)
  · intro pre mi hp hm
    have hmem : mi ∈ reports := hp.subset (by simp)
    rw [parseAll_concat]
    obtain ⟨f, hf, -, hy⟩ := parse_getLast? _ mi (parseAll_y _ pre (setup_y keyLow)) hm
    exact ⟨f, hf, by rw [hy]; exact (toInt_neg_iff _).mpr (h mi hmem).2⟩

/-- In a conforming history the last frame of every shorter one is delivered in some run, so
it is in range. -/
private theorem displacement_of_conform {keyLow : Bool} {reports pre : List MouseInfo}
    (h : Conformance keyLow reports) (hp : pre <+: reports) {f : MouseReport}
    (hf : (parseAll (setup keyLow) pre).serial.getLast? = some f) : Displacement f.x := by
  obtain ⟨events, hev, hrx, -, hlast⟩ := exists_delivery (parseAll (setup keyLow) pre).serial
  have hlink : rxBytes events <+: (parseAll (setup keyLow) reports).serialBytes := by
    rw [hrx]
    exact (serial_parseAll_mono _ (setup_y keyLow) hp).flatMap _
  have htriple : lastTriple ((parseAll (setup keyLow) pre).serial.map triple) = triple f := by
    rw [lastTriple, List.getLast?_map, hf]
    rfl
  have hmem : triple f ∈ MouseReportData.zero :: delivered (firmware.trace events) := by
    rw [← htriple, ← hlast]
    exact List.mem_of_getLast? (getLast?_history _)
  have hconforms : Conforms mouseReportDescriptor (triple f).bytes := by
    rcases List.mem_cons.mp hmem with hzero | hdelivered
    · rw [hzero]
      exact conforms_zero
    · exact h.conform events hlink hev.configured hev.room _ (reported_of_delivered hdelivered)
  exact ((conforms_iff _).mp hconforms).2.1

/-- Delivered reports conform to the descriptor in every run, with exact negation, precisely
for the histories without a displacement of -128. -/
theorem conformance_iff (keyLow : Bool) (reports : List MouseInfo) :
    Conformance keyLow reports ↔
      ∀ mi ∈ reports, Displacement mi.dX ∧ Displacement mi.dY := by
  refine ⟨fun h mi hmem ↦ ?_, conformance_of_displacements⟩
  by_cases hm : mi.dX ≠ 0 ∨ mi.dY ≠ 0
  · obtain ⟨pre, rest, rfl⟩ := List.append_of_mem hmem
    have hp : pre ++ [mi] <+: pre ++ mi :: rest := ⟨rest, by simp⟩
    obtain ⟨f, hf, hx, hy⟩ := parse_getLast? _ mi (parseAll_y _ pre (setup_y keyLow)) hm
    rw [← parseAll_concat] at hf
    obtain ⟨f', hf', hneg⟩ := h.negated pre mi hp hm
    obtain rfl : f' = f := Option.some.inj (hf'.symm.trans hf)
    rw [hy] at hneg
    have hX := displacement_of_conform h hp hf
    rw [hx] at hX
    exact ⟨hX, (toInt_neg_iff _).mp hneg⟩
  · obtain ⟨hx, hy⟩ : mi.dX = 0 ∧ mi.dY = 0 := by simpa using not_or.mp hm
    rw [hx, hy]
    decide

/-- One frame with `x = -128` arrives and is delivered. -/
def minimumX : List Event :=
  enumeration ++ [0x00, 0x80, 0x00, 0x00].map .usart1Rx ++ List.replicate 25 turn

/-- The report delivered is below the declared range, and the negation of -128 is not exact. -/
theorem conformance_minimum_fails :
    ¬ Conformance false [⟨0, -128, 0⟩] ∧ ¬ Conformance false [⟨0, 0, -128⟩] := by
  constructor
  · intro h
    have hreported : Reported (firmware.trace minimumX) ⟨0, -128, 0⟩ :=
      Or.inl (by decide +kernel)
    have hconforms := h.conform minimumX (by decide +kernel) (by decide +kernel)
      (by decide +kernel) _ hreported
    exact absurd hconforms (by decide)
  · intro h
    obtain ⟨f, hf, hy⟩ := h.negated [] ⟨0, 0, -128⟩ (List.prefix_refl _) (by decide)
    obtain rfl : ⟨0, 0, -128, 0⟩ = f := Option.some.inj hf
    exact absurd hy (by decide)

end MouseAide.System
