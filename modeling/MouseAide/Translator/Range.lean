import MouseAide.Translator.Motion

/-!
# Range of the translator's frames

Library `MouseTranslator`. Which values the handlers of `arduino_mouse_328p.ino:29–74` can
put into a frame: the button byte is one of their four constants, `y` a kick or a negated
`dY`, and `x` a `dX` as it came. The negation and the copy stay above -128 exactly for
displacements that do.
-/

namespace MouseAide.Translator

/-- A displacement in the range of the 16U2's report; `int8_t` reaches one further down. -/
def Displacement (d : Int8) : Prop := -127 ≤ d.toInt

instance (d : Int8) : Decidable (Displacement d) := inferInstanceAs (Decidable (_ ≤ _))

/-- Negation keeps exactly the declared range: `-(-128)` wraps. -/
theorem toInt_neg_iff (d : Int8) : (-d).toInt = -d.toInt ↔ Displacement d := by
  constructor
  · intro h
    have hlt := (-d).toInt_lt
    unfold Displacement
    omega
  · intro h
    exact toInt_neg_of_range d h

/-- The negation of a displacement is one. -/
theorem Displacement.neg {d : Int8} (h : Displacement d) : Displacement (-d) := by
  have hlt := d.toInt_lt
  unfold Displacement
  rw [(toInt_neg_iff d).mpr h]
  omega

/-- Only the three button bits are set, and both displacements are in range. -/
structure MouseReport.InRange (m : MouseReport) : Prop where
  padding : m.buttons &&& 0xF8 = 0
  x : Displacement m.x
  y : Displacement m.y

/-- The kick, the pending report and every frame written are in range. -/
structure Sketch.InRange (s : Sketch) : Prop where
  kick : Displacement s.dy
  report : s.mouseReport.InRange
  frames : ∀ f ∈ s.serial, f.InRange

/-- Both settings of the `key` pin start in range. -/
theorem setup_inRange (keyLow : Bool) : (setup keyLow).InRange := by
  cases keyLow with
  | true => exact ⟨by decide, ⟨by decide, by decide, by decide⟩, nofun⟩
  | false => exact ⟨by decide, ⟨by decide, by decide, by decide⟩, nofun⟩

/-! ### The handlers -/

namespace Sketch.InRange

variable {s : Sketch} {mi : MouseInfo}

/-- The pending report is written as it is. -/
theorem serialWrite (h : s.InRange) : s.serialWrite.InRange := by
  refine ⟨h.kick, h.report, fun f hf ↦ ?_⟩
  rcases List.mem_append.mp hf with hf | hf
  · exact h.frames f hf
  · rw [List.mem_singleton.mp hf]
    exact h.report

/-- The vertical field takes a displacement. -/
theorem setY (h : s.InRange) {y : Int8} (hy : Displacement y) :
    Sketch.InRange { s with mouseReport.y := y } :=
  ⟨h.kick, ⟨h.report.padding, h.report.x, hy⟩, h.frames⟩

/-- The shared body of the button handlers, for a byte without padding bits. -/
theorem sendButtons (h : s.InRange) {buttons : UInt8} (hb : buttons &&& 0xF8 = 0) :
    (Translator.sendButtons buttons s).InRange :=
  serialWrite (s := { s with mouseReport.buttons := buttons })
    ⟨h.kick, ⟨hb, h.report.x, h.report.y⟩, h.frames⟩

/-- A left press sends the press and the kick. -/
theorem onLeftButtonDown (h : s.InRange) : (Translator.onLeftButtonDown mi s).InRange := by
  have hpress := h.sendButtons (by decide : (1 : UInt8) &&& 0xF8 = 0)
  have hkick := (hpress.setY h.kick).serialWrite
  exact hkick.setY (by decide)

/-- An edge keeps the range when both of its handlers do. -/
theorem onEdge {bm : UInt8 → Bool} {down up : MouseInfo → Sketch → Sketch} (h : s.InRange)
    (hdown : (down mi s).InRange) (hup : (up mi s).InRange) :
    (Translator.onEdge bm down up mi s).InRange := by
  unfold Translator.onEdge
  split
  · split
    · exact hdown
    · exact hup
  · exact h

/-- The left edge keeps the range. -/
theorem leftEdge (h : s.InRange) (mi : MouseInfo) :
    (Translator.onEdge bmLeftButton Translator.onLeftButtonDown onLeftButtonUp mi s).InRange :=
  h.onEdge h.onLeftButtonDown (h.sendButtons (by decide))

/-- An edge that only assigns the byte keeps the range. -/
theorem sendEdge (h : s.InRange) (bm : UInt8 → Bool) {mask : UInt8} (hmask : mask &&& 0xF8 = 0)
    (mi : MouseInfo) :
    (Translator.onEdge bm (fun _ ↦ Translator.sendButtons mask)
      (fun _ ↦ Translator.sendButtons 0) mi s).InRange :=
  h.onEdge (h.sendButtons hmask) (h.sendButtons (by decide))

/-- A motion report in range keeps the range. -/
theorem onMouseMove (h : s.InRange) (hx : Displacement mi.dX) (hy : Displacement mi.dY) :
    (Translator.onMouseMove mi s).InRange := by
  have hmove : Sketch.InRange { s with mouseReport.x := mi.dX } :=
    ⟨h.kick, ⟨h.report.padding, hx, h.report.y⟩, h.frames⟩
  have hsent := (hmove.setY hy.neg).serialWrite
  exact hsent.setY (by decide)

/-- A report in range keeps the range. -/
theorem parse (h : s.InRange) (hx : Displacement mi.dX) (hy : Displacement mi.dY) :
    (Translator.parse s mi).InRange := by
  have hleft := h.leftEdge mi
  have hright := hleft.sendEdge bmRightButton (by decide : (2 : UInt8) &&& 0xF8 = 0) mi
  have hmiddle := hright.sendEdge bmMiddleButton (by decide : (4 : UInt8) &&& 0xF8 = 0) mi
  have hmove := hmiddle.onMouseMove hx hy
  unfold Translator.parse
  dsimp only
  split
  · exact ⟨hmove.kick, hmove.report, hmove.frames⟩
  · exact ⟨hmiddle.kick, hmiddle.report, hmiddle.frames⟩

/-- Reports in range keep the range. -/
theorem parseAll {reports : List MouseInfo} (h : s.InRange)
    (hrange : ∀ mi ∈ reports, Displacement mi.dX ∧ Displacement mi.dY) :
    (Translator.parseAll s reports).InRange := by
  induction reports generalizing s with
  | nil => exact h
  | cons mi reports ih =>
    obtain ⟨hx, hy⟩ := hrange mi List.mem_cons_self
    exact ih (h.parse hx hy) fun r hr ↦ hrange r (List.mem_cons_of_mem mi hr)

end Sketch.InRange

/-! ### The frame of a motion report -/

/-- The frame a motion report writes last carries its `dX` and its negated `dY`. -/
theorem parse_getLast? (s : Sketch) (mi : MouseInfo) (hy : s.mouseReport.y = 0)
    (hm : mi.dX ≠ 0 ∨ mi.dY ≠ 0) :
    ∃ f, (parse s mi).serial.getLast? = some f ∧ f.x = mi.dX ∧ f.y = -mi.dY := by
  rw [parse_eq s mi hy, moveFrames, if_pos hm]
  dsimp only
  rw [← List.append_assoc]
  exact ⟨_, List.getLast?_concat, rfl, rfl⟩

end MouseAide.Translator
