import MouseAide.Translator.Parser
import Mathlib.Algebra.BigOperators.Group.List.Basic
import Mathlib.Tactic.Ring

/-!
# Motion through the 328P translator

Library `MouseTranslator`. Exact integer accounts of the `x` and `y` fields of all frames
against the `dX` and `dY` of all reports, `arduino_mouse_328p.ino:29–74`. The handlers put
`y` back to zero after every send, so `y` is accounted frame by frame. They never put `x`
back, so every frame of a button edge repeats the `x` of the last motion report.
-/

namespace MouseAide.Translator

/-- Sum of the horizontal fields of a list of frames, in exact integers. -/
def xSum (frames : List MouseReport) : Int := (frames.map fun f ↦ f.x.toInt).sum

/-- Sum of the vertical fields of a list of frames, in exact integers. -/
def ySum (frames : List MouseReport) : Int := (frames.map fun f ↦ f.y.toInt).sum

@[simp] theorem xSum_nil : xSum [] = 0 := rfl

@[simp] theorem ySum_nil : ySum [] = 0 := rfl

@[simp] theorem xSum_append (fs gs : List MouseReport) : xSum (fs ++ gs) = xSum fs + xSum gs := by
  simp [xSum]

@[simp] theorem ySum_append (fs gs : List MouseReport) : ySum (fs ++ gs) = ySum fs + ySum gs := by
  simp [ySum]

/-! ### Vertical motion -/

/-- A button bit goes from released to pressed. -/
def pressed (bm : UInt8 → Bool) (prev next : UInt8) : Bool := !bm prev && bm next

/-- Number of reports that press the left button, given the byte before the first. -/
def leftPresses : UInt8 → List MouseInfo → Nat
  | _, [] => 0
  | prev, mi :: reports =>
    (if pressed bmLeftButton prev mi.buttons then 1 else 0) + leftPresses mi.buttons reports

/-- The `y` fields of a left edge: rest and kick for a press, rest for a release. -/
theorem leftFrames_y (dy : Int8) (m : MouseReport) (prev next : Bool) (hy : m.y = 0) :
    (leftFrames dy m prev next).map (·.y) =
      if prev = next then [] else if next then [0, dy] else [0] := by
  cases prev <;> cases next <;> simp [leftFrames, hy]

/-- The `y` field of a right or middle edge is at rest. -/
theorem edgeFrames_y (mask : UInt8) (m : MouseReport) (prev next : Bool) (hy : m.y = 0) :
    (edgeFrames mask m prev next).map (·.y) = if prev = next then [] else [0] := by
  cases prev <;> cases next <;> simp [edgeFrames, hy]

/-- The `y` field of a right edge is at rest. -/
theorem rightFrames_y (m : MouseReport) (prev next : UInt8) (hy : m.y = 0) :
    (rightFrames m prev next).map (·.y) =
      if bmRightButton prev = bmRightButton next then [] else [0] :=
  edgeFrames_y 2 _ _ _ hy

/-- The `y` field of a middle edge is at rest. -/
theorem middleFrames_y (m : MouseReport) (prev next : UInt8) (hy : m.y = 0) :
    (middleFrames m prev next).map (·.y) =
      if bmMiddleButton prev = bmMiddleButton next then [] else [0] :=
  edgeFrames_y 4 _ _ _ hy

/-- The `y` field of a motion report is the negated `dY`. -/
theorem moveFrames_y (m : MouseReport) (mi : MouseInfo) :
    (moveFrames m mi).map (·.y) = if mi.dX ≠ 0 ∨ mi.dY ≠ 0 then [-mi.dY] else [] := by
  by_cases hm : mi.dX ≠ 0 ∨ mi.dY ≠ 0 <;> simp [moveFrames, hm]

/-- Within the declared range the negation of a report's `dY` is exact. -/
theorem toInt_neg_of_range (d : Int8) (h : -127 ≤ d.toInt) : (-d).toInt = -d.toInt := by
  have hlt := d.toInt_lt
  rw [Int8.toInt_neg]
  apply Int.bmod_eq_of_le <;> omega

private theorem ySum_of_map {fs : List MouseReport} {ys : List Int8} (h : fs.map (·.y) = ys) :
    ySum fs = (ys.map Int8.toInt).sum := by
  rw [← h, List.map_map]
  rfl

private theorem ySum_buttonFrames (dy : Int8) (m : MouseReport) (prev next : UInt8)
    (hy : m.y = 0) :
    ySum (buttonFrames dy m prev next) =
      if pressed bmLeftButton prev next then dy.toInt else 0 := by
  have hright : ySum (rightFrames m prev next) = 0 := by
    rw [ySum_of_map (rightFrames_y m prev next hy)]
    split <;> simp
  have hmiddle : ySum (middleFrames m prev next) = 0 := by
    rw [ySum_of_map (middleFrames_y m prev next hy)]
    split <;> simp
  rw [buttonFrames, ySum_append, ySum_append, hright, hmiddle,
    ySum_of_map (leftFrames_y dy m _ _ hy), pressed]
  cases bmLeftButton prev <;> cases bmLeftButton next <;> simp

private theorem ySum_moveFrames (m : MouseReport) (mi : MouseInfo) (h : -127 ≤ mi.dY.toInt) :
    ySum (moveFrames m mi) = -mi.dY.toInt := by
  rw [ySum_of_map (moveFrames_y m mi)]
  by_cases hm : mi.dX ≠ 0 ∨ mi.dY ≠ 0
  · simp [hm, toInt_neg_of_range mi.dY h]
  · have hd : mi.dY = 0 := by simpa using (not_or.mp hm).2
    rw [if_neg hm, hd]
    rfl

/-- Vertical account of a report history, from any sketch whose `y` is at rest. -/
theorem ySum_parseAll (s : Sketch) (reports : List MouseInfo) (hy : s.mouseReport.y = 0)
    (hd : ∀ mi ∈ reports, -127 ≤ mi.dY.toInt) :
    ySum (parseAll s reports).serial =
      ySum s.serial + s.dy.toInt * leftPresses s.prevState reports -
        (reports.map fun mi ↦ mi.dY.toInt).sum := by
  induction reports generalizing s with
  | nil => simp [leftPresses]
  | cons mi reports ih =>
    have hmi := hd mi (List.mem_cons_self)
    have hrest : ∀ r ∈ reports, -127 ≤ r.dY.toInt := fun r hr ↦ hd r (List.mem_cons_of_mem _ hr)
    rw [parseAll_cons, ih _ (parse_y s mi hy) hrest, parse_dy s mi hy, parse_eq s mi hy]
    simp only [ySum_append, ySum_buttonFrames _ _ _ _ hy, ySum_moveFrames _ _ hmi, leftPresses,
      List.map_cons, List.sum_cons, Nat.cast_add]
    split
    · push_cast
      ring
    · push_cast
      ring

/-- Over every history `y` adds up to the kicks minus all `dY`. In every single report a
left press sends a still frame and one kick, every other edge a still frame only, and the
motion frame the exact negation of `dY`. -/
theorem verticalAccounting (keyLow : Bool) (reports : List MouseInfo)
    (hd : ∀ mi ∈ reports, -127 ≤ mi.dY.toInt ∧ mi.dY.toInt ≤ 127) :
    ySum (parseAll (setup keyLow) reports).serial =
        (setup keyLow).dy.toInt * leftPresses 0 reports -
          (reports.map fun mi ↦ mi.dY.toInt).sum ∧
      ∀ pre mi, pre ++ [mi] <+: reports →
        ∃ left right middle move : List MouseReport,
          (parse (parseAll (setup keyLow) pre) mi).serial =
              (parseAll (setup keyLow) pre).serial ++ (left ++ right ++ middle ++ move) ∧
            left.map (·.y) =
              (if bmLeftButton (lastByte pre) = bmLeftButton mi.buttons then []
                else if bmLeftButton mi.buttons then [0, (setup keyLow).dy] else [0]) ∧
            right.map (·.y) =
              (if bmRightButton (lastByte pre) = bmRightButton mi.buttons then [] else [0]) ∧
            middle.map (·.y) =
              (if bmMiddleButton (lastByte pre) = bmMiddleButton mi.buttons then [] else [0]) ∧
            move.map (·.y.toInt) =
              (if mi.dX ≠ 0 ∨ mi.dY ≠ 0 then [-mi.dY.toInt] else []) := by
  have hy := setup_y keyLow
  have hp : (setup keyLow).prevState = 0 := by cases keyLow <;> rfl
  have hs : (setup keyLow).serial = [] := by cases keyLow <;> rfl
  constructor
  · have h := ySum_parseAll (setup keyLow) reports hy (fun mi hmi ↦ (hd mi hmi).1)
    rw [hs, hp, ySum_nil, Int.zero_add] at h
    exact h
  · intro pre mi hpre
    have hmem : mi ∈ reports := hpre.subset (by simp)
    have hyp := parseAll_y (setup keyLow) pre hy
    have hprev := prevState_parseAll (setup keyLow) pre hp
    have hdy := parseAll_dy (setup keyLow) pre hy
    rw [parse_eq _ _ hyp, hprev, hdy]
    generalize parseAll (setup keyLow) pre = s at *
    refine ⟨_, _, _, _, rfl, leftFrames_y _ _ _ _ hyp, rightFrames_y _ _ _ hyp,
      middleFrames_y _ _ _ hyp, ?_⟩
    have hmove := congrArg (List.map Int8.toInt) (moveFrames_y
      { s.mouseReport with
        buttons := nextButtons (lastByte pre) mi.buttons s.mouseReport.buttons } mi)
    rw [List.map_map] at hmove
    refine hmove.trans ?_
    split
    · rw [List.map_singleton, toInt_neg_of_range mi.dY (hd mi hmem).1]
    · rfl

/-- A left press and move, a right press, then a move and both releases. -/
theorem verticalAccounting_click :
    ySum (parseAll (setup false) [⟨1, 3, -2⟩, ⟨3, 0, 0⟩, ⟨0, 0, 5⟩]).serial = 8 * 1 - 3 :=
  (verticalAccounting false [⟨1, 3, -2⟩, ⟨3, 0, 0⟩, ⟨0, 0, 5⟩] (by decide)).1

/-! ### Horizontal motion -/

/-- Number of frames the button edges of a report send. -/
def edgeCount (prev next : UInt8) : Nat :=
  (if bmLeftButton prev = bmLeftButton next then 0 else if bmLeftButton next then 2 else 1) +
    (if bmRightButton prev = bmRightButton next then 0 else 1) +
    (if bmMiddleButton prev = bmMiddleButton next then 0 else 1)

/-- `dX` of the newest report that moves, or zero before the first one. -/
def lastX (reports : List MouseInfo) : Int8 := reports.foldl nextX 0

/-- Displacement repeated by button frames: each adds the `dX` of the last motion report. -/
def staleDisplacement : UInt8 → Int8 → List MouseInfo → Int
  | _, _, [] => 0
  | prev, x, mi :: reports =>
    edgeCount prev mi.buttons * x.toInt + staleDisplacement mi.buttons (nextX x mi) reports

/-- There are as many button frames as the edges call for. -/
theorem length_buttonFrames (dy : Int8) (m : MouseReport) (prev next : UInt8) :
    (buttonFrames dy m prev next).length = edgeCount prev next := by
  simp only [buttonFrames, leftFrames, rightFrames, middleFrames, edgeFrames, edgeCount,
    List.length_append, apply_ite List.length, List.length_cons, List.length_nil, Nat.zero_add,
    Nat.reduceAdd]

/-- Every button frame repeats the current horizontal field. -/
theorem buttonFrames_x (dy : Int8) (m : MouseReport) (prev next : UInt8) :
    ∀ f ∈ buttonFrames dy m prev next, f.x = m.x := by
  intro f hf
  simp only [buttonFrames, List.mem_append, leftFrames, rightFrames, middleFrames,
    edgeFrames] at hf
  rcases hf with (hf | hf) | hf
  · split at hf
    · simp at hf
    · split at hf
      · simp only [List.mem_cons, List.not_mem_nil, or_false] at hf
        rcases hf with rfl | rfl <;> rfl
      · simp only [List.mem_singleton] at hf
        rw [hf]
  · split at hf
    · simp at hf
    · simp only [List.mem_singleton] at hf
      rw [hf]
  · split at hf
    · simp at hf
    · simp only [List.mem_singleton] at hf
      rw [hf]

private theorem xSum_const {fs : List MouseReport} {x : Int8} (h : ∀ f ∈ fs, f.x = x) :
    xSum fs = fs.length * x.toInt := by
  induction fs with
  | nil => simp
  | cons f fs ih =>
    have hf := h f List.mem_cons_self
    have hrest := ih fun g hg ↦ h g (List.mem_cons_of_mem _ hg)
    rw [xSum, List.map_cons, List.sum_cons, hf]
    change x.toInt + xSum fs = _
    rw [hrest, List.length_cons]
    push_cast
    ring

private theorem xSum_moveFrames (m : MouseReport) (mi : MouseInfo) :
    xSum (moveFrames m mi) = mi.dX.toInt := by
  by_cases hm : mi.dX ≠ 0 ∨ mi.dY ≠ 0
  · simp [moveFrames, hm, xSum]
  · have hd : mi.dX = 0 := by simpa using (not_or.mp hm).1
    rw [moveFrames, if_neg hm, hd]
    rfl

/-- Horizontal account of a report history, from any sketch whose `y` is at rest. -/
theorem xSum_parseAll (s : Sketch) (reports : List MouseInfo) (hy : s.mouseReport.y = 0) :
    xSum (parseAll s reports).serial =
      xSum s.serial + (reports.map fun mi ↦ mi.dX.toInt).sum +
        staleDisplacement s.prevState s.mouseReport.x reports := by
  induction reports generalizing s with
  | nil => simp [staleDisplacement]
  | cons mi reports ih =>
    rw [parseAll_cons, ih _ (parse_y s mi hy), parse_eq s mi hy]
    simp only [xSum_append, xSum_moveFrames, xSum_const (buttonFrames_x _ _ _ _),
      length_buttonFrames, staleDisplacement, List.map_cons, List.sum_cons]
    ring

/-- The horizontal field of the sketch is the newest motion report's `dX`. -/
theorem x_parseAll (dy : Int8) (reports : List MouseInfo) :
    (parseAll (powerUp dy) reports).mouseReport.x = lastX reports := by
  induction reports using List.reverseRecOn with
  | nil => rfl
  | append_singleton reports mi ih =>
    rw [parseAll_concat, parse_eq _ _ (parseAll_y _ _ rfl), lastX, List.foldl_append, ← lastX]
    simp [ih]

/-- The horizontal fields of all frames add up to the `dX` of all reports. -/
def HorizontalConservation (dy : Int8) (reports : List MouseInfo) : Prop :=
  xSum (parseAll (powerUp dy) reports).serial = (reports.map fun mi ↦ mi.dX.toInt).sum

/-- No frame sent for a button edge displaces the pointer horizontally. -/
def EdgesStill (dy : Int8) (reports : List MouseInfo) : Prop :=
  ∀ pre mi, pre ++ [mi] <+: reports →
    ∃ edges move : List MouseReport,
      (parse (parseAll (powerUp dy) pre) mi).serial =
          (parseAll (powerUp dy) pre).serial ++ (edges ++ move) ∧
        edges.length = edgeCount (lastByte pre) mi.buttons ∧ ∀ f ∈ edges, f.x = 0

/-- No report with a button edge follows a motion report with `dX ≠ 0` as the newest one. -/
def EdgesAtRest (reports : List MouseInfo) : Prop :=
  ∀ pre mi, pre ++ [mi] <+: reports →
    edgeCount (lastByte pre) mi.buttons = 0 ∨ lastX pre = 0

private theorem edgesStill_iff (dy : Int8) (reports : List MouseInfo) :
    EdgesStill dy reports ↔ EdgesAtRest reports := by
  apply forall_congr'
  intro pre
  apply forall_congr'
  intro mi
  apply imp_congr_right
  intro _
  have hlen := length_buttonFrames (parseAll (powerUp dy) pre).dy
    (parseAll (powerUp dy) pre).mouseReport (lastByte pre) mi.buttons
  have hx := buttonFrames_x (parseAll (powerUp dy) pre).dy
    (parseAll (powerUp dy) pre).mouseReport (lastByte pre) mi.buttons
  rw [x_parseAll] at hx
  rw [parse_eq _ _ (parseAll_y _ _ rfl), prevState_parseAll _ _ rfl]
  constructor
  · rintro ⟨edges, move, he, hl, hz⟩
    have hf := (List.append_inj (List.append_cancel_left he) (by rw [hlen, hl])).1
    rw [← hf] at hz
    by_cases hc : edgeCount (lastByte pre) mi.buttons = 0
    · exact Or.inl hc
    · right
      obtain ⟨f, hmem⟩ := List.exists_mem_of_length_pos (by rw [hlen]; omega)
      exact (hx f hmem).symm.trans (hz f hmem)
  · intro h
    refine ⟨_, _, rfl, hlen, ?_⟩
    intro f hf
    rcases h with hc | hz
    · rw [hc] at hlen
      rw [List.eq_nil_of_length_eq_zero hlen] at hf
      exact absurd hf List.not_mem_nil
    · exact (hx f hf).trans hz

private theorem staleDisplacement_of_atRest (reports : List MouseInfo) :
    ∀ seen, (∀ pre mi, pre ++ [mi] <+: reports →
        edgeCount (lastByte (seen ++ pre)) mi.buttons = 0 ∨ lastX (seen ++ pre) = 0) →
      staleDisplacement (lastByte seen) (lastX seen) reports = 0 := by
  induction reports with
  | nil => intro _ _; rfl
  | cons mi reports ih =>
    intro seen h
    have hfirst := h [] mi ((List.prefix_append [mi] reports))
    have hx : nextX (lastX seen) mi = lastX (seen ++ [mi]) := by simp [lastX]
    have hrest := ih (seen ++ [mi]) fun pre r hp ↦ by
      rw [List.append_assoc]
      exact h (mi :: pre) r (List.cons_prefix_cons.mpr ⟨rfl, hp⟩)
    rw [lastByte_concat, ← hx] at hrest
    rw [List.append_nil] at hfirst
    rw [staleDisplacement, hrest]
    rcases hfirst with hc | hz
    · simp [hc]
    · simp [hz]

/-- Both halves of the horizontal law hold exactly for histories whose button edges find the
pointer at rest; the sum alone holds exactly when the repeated displacements cancel. -/
theorem horizontalConservation_iff (dy : Int8) (reports : List MouseInfo) :
    (HorizontalConservation dy reports ∧ EdgesStill dy reports ↔ EdgesAtRest reports) ∧
      (HorizontalConservation dy reports ↔ staleDisplacement 0 0 reports = 0) := by
  have hsum : HorizontalConservation dy reports ↔ staleDisplacement 0 0 reports = 0 := by
    have h := xSum_parseAll (powerUp dy) reports rfl
    unfold HorizontalConservation
    rw [h]
    change 0 + _ + staleDisplacement 0 0 reports = _ ↔ _
    omega
  refine ⟨?_, hsum⟩
  rw [edgesStill_iff]
  refine ⟨fun h ↦ h.2, fun h ↦ ⟨?_, h⟩⟩
  exact hsum.mpr (staleDisplacement_of_atRest reports [] h)

/-- A left press right after a move sends the move's `x` twice more. -/
theorem horizontalConservation_press_fails :
    ¬ HorizontalConservation 8 [⟨0, 5, 0⟩, ⟨1, 0, 0⟩] := by
  unfold HorizontalConservation
  decide

end MouseAide.Translator
