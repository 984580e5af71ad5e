import MouseAide.Base.Machine
import MouseAide.Translator.Parser
import Mathlib.Data.List.Chain

/-!
# Buttons of the 328P translator

Library `MouseTranslator`. Each handler of `arduino_mouse_328p.ino:42–74` assigns the whole
button byte, so after a report with an edge it is the mask of the last edge tested, and
nothing else that is held. The byte therefore never names a button that is up, and it
names all held buttons exactly for histories of single buttons that are never handed down.
-/

namespace MouseAide.Translator

/-- The button set of a report's first byte, as the low three bits. -/
def held (b : UInt8) : UInt8 := b &&& 7

/-- The button set as a function of the three bit-fields. -/
def maskOf (left right middle : Bool) : UInt8 :=
  (if left then 1 else 0) ||| (if right then 2 else 0) ||| (if middle then 4 else 0)

private theorem held_bitVec :
    ∀ v : BitVec 8, held ⟨v⟩ = maskOf (v.getLsbD 0) (v.getLsbD 1) (v.getLsbD 2) := by decide

/-- The held set is read off the three bit-fields. -/
theorem held_eq_maskOf (b : UInt8) :
    held b = maskOf (bmLeftButton b) (bmRightButton b) (bmMiddleButton b) :=
  held_bitVec b.toBitVec

/-! ### The byte never names a button that is up -/

/-- Every bit of the first byte is set in the second. -/
def Within (b h : UInt8) : Prop := b &&& h = b

instance (b h : UInt8) : Decidable (Within b h) := inferInstanceAs (Decidable (_ = _))

/-- A button byte within the held set of one report is carried into that of the next. -/
theorem nextButtons_within (prev next b : UInt8) (h : Within b (held prev)) :
    Within (nextButtons prev next b) (held next) := by
  rw [held_eq_maskOf] at h ⊢
  simp only [nextButtons, buttonsAfterRight, buttonsAfterLeft]
  generalize bmLeftButton prev = lp, bmRightButton prev = rp, bmMiddleButton prev = mp at *
  generalize bmLeftButton next = ln, bmRightButton next = rn, bmMiddleButton next = mn at *
  by_cases hsame : lp = ln ∧ rp = rn ∧ mp = mn
  · obtain ⟨rfl, rfl, rfl⟩ := hsame
    simpa [edgeButtons] using h
  · -- Some edge assigns the byte, so the old value is gone.
    revert hsame
    clear h
    cases lp <;> cases rp <;> cases mp <;> cases ln <;> cases rn <;> cases mn <;>
      simp [edgeButtons] <;> decide

/-- After every report history the button byte names held buttons only. -/
theorem buttons_within_held (dy : Int8) (reports : List MouseInfo) :
    Within (parseAll (powerUp dy) reports).mouseReport.buttons (held (lastByte reports)) := by
  induction reports using List.reverseRecOn with
  | nil => exact (by decide : Within 0 (held 0))
  | append_singleton reports mi ih =>
    rw [lastByte_concat, parseAll_concat, parse_eq _ _ (parseAll_y _ _ rfl)]
    rw [← prevState_parseAll (powerUp dy) reports rfl] at ih
    exact nextButtons_within _ _ _ ih

/-! ### The last frame carries the current byte -/

private theorem buttonFrames_last (dy : Int8) (m : MouseReport) (prev next : UInt8) :
    (buttonFrames dy m prev next = [] ∧ nextButtons prev next m.buttons = m.buttons) ∨
      ∃ f, (buttonFrames dy m prev next).getLast? = some f ∧
        f.buttons = nextButtons prev next m.buttons := by
  simp only [buttonFrames, leftFrames, rightFrames, middleFrames, edgeFrames, nextButtons,
    buttonsAfterRight, buttonsAfterLeft]
  generalize bmLeftButton prev = lp, bmRightButton prev = rp, bmMiddleButton prev = mp
  generalize bmLeftButton next = ln, bmRightButton next = rn, bmMiddleButton next = mn
  cases lp <;> cases ln <;> cases rp <;> cases rn <;> cases mp <;> cases mn <;>
    simp [edgeButtons]

/-- The newest frame, if any was sent, carries the current button byte. -/
theorem lastFrame_buttons (dy : Int8) (reports : List MouseInfo) :
    ((parseAll (powerUp dy) reports).serial.getLast?.map (·.buttons)).getD 0 =
      (parseAll (powerUp dy) reports).mouseReport.buttons := by
  induction reports using List.reverseRecOn with
  | nil => rfl
  | append_singleton reports mi ih =>
    rw [parseAll_concat, parse_eq _ _ (parseAll_y _ _ rfl)]
    generalize parseAll (powerUp dy) reports = s at *
    rcases buttonFrames_last s.dy s.mouseReport s.prevState mi.buttons with ⟨hb, hn⟩ | ⟨f, hf, hn⟩
    · by_cases hm : mi.dX ≠ 0 ∨ mi.dY ≠ 0
      · simp [hb, moveFrames, hm]
      · simp [hb, hn, moveFrames, hm, ih]
    · by_cases hm : mi.dX ≠ 0 ∨ mi.dY ≠ 0
      · simp [moveFrames, hm]
      · simp [List.getLast?_append, hf, hn, moveFrames, hm]

/-! ### When the byte names every held button -/

/-- After every call of `Parse` the byte, and the newest frame if any, is the held set. -/
def ButtonFidelity (dy : Int8) (reports : List MouseInfo) : Prop :=
  ∀ pre mi, pre ++ [mi] <+: reports →
    (parse (parseAll (powerUp dy) pre) mi).mouseReport.buttons = held mi.buttons ∧
      ∀ f, (parse (parseAll (powerUp dy) pre) mi).serial.getLast? = some f →
        f.buttons = held mi.buttons

/-- At most one button is held, and a press never comes with the release of a button
that `Parse` tests later. -/
def SingleHandover (prev next : UInt8) : Prop :=
  (next = 0 ∨ next = 1 ∨ next = 2 ∨ next = 4) ∧ (next = 0 ∨ prev ≤ next)

instance (prev next : UInt8) : Decidable (SingleHandover prev next) :=
  inferInstanceAs (Decidable (_ ∧ _))

/-- Every report of the history, with the one before it, is a single handover. -/
def SingleHanded (reports : List MouseInfo) : Prop :=
  (0 :: reports.map fun mi ↦ held mi.buttons).IsChain SingleHandover

private theorem nextButtons_eq_held_iff (prev next : UInt8)
    (hp : SingleHandover 0 (held prev)) :
    nextButtons prev next (held prev) = held next ↔ SingleHandover (held prev) (held next) := by
  rw [held_eq_maskOf] at hp
  rw [held_eq_maskOf prev, held_eq_maskOf next]
  simp only [nextButtons, buttonsAfterRight, buttonsAfterLeft]
  generalize bmLeftButton prev = lp, bmRightButton prev = rp, bmMiddleButton prev = mp at *
  generalize bmLeftButton next = ln, bmRightButton next = rn, bmMiddleButton next = mn
  revert hp
  revert lp rp mp ln rn mn
  decide

private theorem singleHanded_concat (reports : List MouseInfo) (mi : MouseInfo) :
    SingleHanded (reports ++ [mi]) ↔
      SingleHanded reports ∧ SingleHandover (held (lastByte reports)) (held mi.buttons) := by
  unfold SingleHanded
  rw [List.map_append, ← List.cons_append, List.isChain_append]
  cases reports using List.reverseRecOn with
  | nil => simp [lastByte, held]
  | append_singleton reports r =>
    rw [lastByte_concat]
    simp [List.getLast?_cons]

private theorem singleHandover_lastByte (reports : List MouseInfo) (h : SingleHanded reports) :
    SingleHandover 0 (held (lastByte reports)) := by
  cases reports using List.reverseRecOn with
  | nil => exact (by decide : SingleHandover 0 (held 0))
  | append_singleton reports mi =>
    have hs := ((singleHanded_concat reports mi).mp h).2
    rw [lastByte_concat]
    exact ⟨hs.1, Or.inr (UInt8.zero_le)⟩

private theorem buttonFidelity_concat (dy : Int8) (reports : List MouseInfo) (mi : MouseInfo) :
    ButtonFidelity dy (reports ++ [mi]) ↔
      ButtonFidelity dy reports ∧
        (parse (parseAll (powerUp dy) reports) mi).mouseReport.buttons = held mi.buttons := by
  refine Base.forall_prefix_concat.trans (and_congr_right fun _ ↦ ⟨And.left, fun hlast ↦ ?_⟩)
  refine ⟨hlast, fun f hf ↦ ?_⟩
  have hb := lastFrame_buttons dy (reports ++ [mi])
  rw [parseAll_concat, hf, hlast] at hb
  exact hb

private theorem buttons_eq_held (dy : Int8) (reports : List MouseInfo)
    (h : ButtonFidelity dy reports) :
    (parseAll (powerUp dy) reports).mouseReport.buttons = held (lastByte reports) := by
  cases reports using List.reverseRecOn with
  | nil => exact (by decide : 0 = held 0)
  | append_singleton reports mi =>
    rw [parseAll_concat, lastByte_concat]
    exact ((buttonFidelity_concat dy reports mi).mp h).2

/-- The byte is the held set after every report exactly for single-handed histories. -/
theorem buttonFidelity_iff (dy : Int8) (reports : List MouseInfo) :
    ButtonFidelity dy reports ↔ SingleHanded reports := by
  induction reports using List.reverseRecOn with
  | nil =>
    refine ⟨fun _ ↦ List.isChain_singleton 0, ?_⟩
    intro _ pre mi hp
    simp at hp
  | append_singleton reports mi ih =>
    rw [buttonFidelity_concat, singleHanded_concat, ih]
    -- Both sides agree on the older reports; one more report is one more handover.
    apply and_congr_right
    intro hs
    have hb := buttons_eq_held dy reports (ih.mpr hs)
    have hh := singleHandover_lastByte reports hs
    rw [parse_eq _ _ (parseAll_y _ _ rfl)]
    rw [← prevState_parseAll (powerUp dy) reports rfl] at hb hh ⊢
    rw [hb]
    exact nextButtons_eq_held_iff _ _ hh

/-- Pressing right while left is held makes the byte forget the left button. -/
theorem buttonFidelity_chord_fails :
    ¬ ButtonFidelity 8 [⟨1, 0, 0⟩, ⟨3, 0, 0⟩] := by
  intro h
  exact absurd (h [⟨1, 0, 0⟩] ⟨3, 0, 0⟩ (List.prefix_refl _)).1 (by decide)

end MouseAide.Translator
