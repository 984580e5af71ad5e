import MouseAide.Base.Machine
import MouseAide.Translator.Motion

/-!
# The kick and nothing else

Library `MouseTranslator`. Two runs of the sketch on the same reports under two settings of
`Dy`, `arduino_mouse_328p.ino:9–74`. The setting is written to the shared `y` once, for the
second frame of a left press, and is gone before the next handler runs; so the runs agree
frame by frame everywhere else and are in the same state after every report.
-/

namespace MouseAide.Translator

/-- The `i`-th frame of a run is the second one of a left press. -/
def IsKick (dy : Int8) (reports : List MouseInfo) (i : Nat) : Prop :=
  ∃ pre mi, pre ++ [mi] <+: reports ∧ pressed bmLeftButton (lastByte pre) mi.buttons = true ∧
    i = (parseAll (powerUp dy) pre).serial.length + 1

/-- Frames of two settings: equal but for a kick, whose `y` is the setting. -/
structure FrameMatch (d₁ d₂ : Int8) (kick : Prop) (f₁ f₂ : MouseReport) : Prop where
  buttons : f₁.buttons = f₂.buttons
  x : f₁.x = f₂.x
  wheel : f₁.wheel = f₂.wheel
  y_kick : kick → f₁.y = d₁ ∧ f₂.y = d₂
  y_still : ¬ kick → f₁.y = f₂.y

/-- Frame lists of two settings, matched position by position. -/
structure RunMatch (d₁ d₂ : Int8) (kick : Nat → Prop) (l₁ l₂ : List MouseReport) : Prop where
  length_eq : l₁.length = l₂.length
  frames : ∀ i f₁ f₂, l₁[i]? = some f₁ → l₂[i]? = some f₂ → FrameMatch d₁ d₂ (kick i) f₁ f₂

namespace RunMatch

variable {d₁ d₂ : Int8} {kick kick' : Nat → Prop} {l₁ l₂ m₁ m₂ : List MouseReport}

/-- A list without a kick matches itself. -/
theorem same (l : List MouseReport) (h : ∀ i, i < l.length → ¬ kick i) :
    RunMatch d₁ d₂ kick l l := by
  refine ⟨rfl, fun i f₁ f₂ h₁ h₂ ↦ ?_⟩
  obtain rfl : f₁ = f₂ := Option.some.inj (h₁.symm.trans h₂)
  exact ⟨rfl, rfl, rfl, fun hk ↦ absurd hk (h i (List.getElem?_eq_some_iff.mp h₁).1), fun _ ↦ rfl⟩

/-- Matched lists are appended with the kicks of the second one shifted. -/
theorem append (h : RunMatch d₁ d₂ kick l₁ l₂)
    (h' : RunMatch d₁ d₂ (fun j ↦ kick (l₁.length + j)) m₁ m₂) :
    RunMatch d₁ d₂ kick (l₁ ++ m₁) (l₂ ++ m₂) := by
  constructor
  · rw [List.length_append, List.length_append, h.length_eq, h'.length_eq]
  · intro i f₁ f₂ h₁ h₂
    rcases Nat.lt_or_ge i l₁.length with hi | hi
    · rw [List.getElem?_append_left hi] at h₁
      rw [List.getElem?_append_left (h.length_eq ▸ hi)] at h₂
      exact h.frames i f₁ f₂ h₁ h₂
    · obtain ⟨j, rfl⟩ := Nat.exists_eq_add_of_le hi
      rw [List.getElem?_append_right hi, Nat.add_sub_cancel_left] at h₁
      rw [List.getElem?_append_right (h.length_eq ▸ hi), ← h.length_eq,
        Nat.add_sub_cancel_left] at h₂
      exact h'.frames j f₁ f₂ h₁ h₂

/-- Only the positions that exist matter. -/
theorem congr (h : RunMatch d₁ d₂ kick l₁ l₂)
    (hk : ∀ i, i < l₁.length → (kick' i ↔ kick i)) : RunMatch d₁ d₂ kick' l₁ l₂ := by
  refine ⟨h.length_eq, fun i f₁ f₂ h₁ h₂ ↦ ?_⟩
  have hi := hk i (List.getElem?_eq_some_iff.mp h₁).1
  obtain ⟨hb, hx, hw, hy, hy'⟩ := h.frames i f₁ f₂ h₁ h₂
  exact ⟨hb, hx, hw, fun hk' ↦ hy (hi.mp hk'), fun hk' ↦ hy' (mt hi.mpr hk')⟩

end RunMatch

/-- The frames of a left edge match, the second one of a press being the kick. -/
theorem leftFrames_match (d₁ d₂ : Int8) (m : MouseReport) (prev next : UInt8) :
    RunMatch d₁ d₂ (fun j ↦ pressed bmLeftButton prev next = true ∧ j = 1)
      (leftFrames d₁ m (bmLeftButton prev) (bmLeftButton next))
      (leftFrames d₂ m (bmLeftButton prev) (bmLeftButton next)) := by
  unfold pressed
  cases bmLeftButton prev <;> cases bmLeftButton next
  · exact .same [] (by simp)
  · refine ⟨rfl, fun i f₁ f₂ h₁ h₂ ↦ ?_⟩
    match i with
    | 0 =>
      cases h₁
      cases h₂
      exact ⟨rfl, rfl, rfl, by simp, fun _ ↦ rfl⟩
    | 1 =>
      cases h₁
      cases h₂
      exact ⟨rfl, rfl, rfl, fun _ ↦ ⟨rfl, rfl⟩, by simp⟩
    | i + 2 => cases h₁
  · exact .same [{ m with buttons := 0 }] (by simp)
  · exact .same [] (by simp)

/-- A left press writes two frames before anything else. -/
theorem leftFrames_length (dy : Int8) (m : MouseReport) (prev next : UInt8)
    (h : pressed bmLeftButton prev next = true) :
    (leftFrames dy m (bmLeftButton prev) (bmLeftButton next)).length = 2 := by
  obtain ⟨hprev, hnext⟩ : bmLeftButton prev = false ∧ bmLeftButton next = true := by
    simpa [pressed] using h
  rw [hprev, hnext]
  rfl

/-- The frames of one report match, the kick being the second one of a left press. -/
theorem reportFrames_match (d₁ d₂ : Int8) (m m' : MouseReport) (prev : UInt8) (mi : MouseInfo) :
    RunMatch d₁ d₂ (fun j ↦ pressed bmLeftButton prev mi.buttons = true ∧ j = 1)
      (buttonFrames d₁ m prev mi.buttons ++ moveFrames m' mi)
      (buttonFrames d₂ m prev mi.buttons ++ moveFrames m' mi) := by
  unfold buttonFrames
  rw [List.append_assoc, List.append_assoc, List.append_assoc, List.append_assoc]
  apply (leftFrames_match d₁ d₂ m prev mi.buttons).append
  apply RunMatch.same
  rintro j - ⟨hp, hj⟩
  rw [leftFrames_length d₁ m prev mi.buttons hp] at hj
  omega

section TwoRuns

variable (dy : Int8) (reports : List MouseInfo) (mi : MouseInfo)

/-- A report's frames stand after those of the older ones. -/
private theorem serial_concat :
    (parseAll (powerUp dy) (reports ++ [mi])).serial =
      (parseAll (powerUp dy) reports).serial ++
        (buttonFrames dy (parseAll (powerUp dy) reports).mouseReport (lastByte reports)
            mi.buttons ++
          moveFrames { (parseAll (powerUp dy) reports).mouseReport with
            buttons := nextButtons (lastByte reports) mi.buttons
              (parseAll (powerUp dy) reports).mouseReport.buttons } mi) := by
  have hdy : (parseAll (powerUp dy) reports).dy = dy := parseAll_dy _ reports rfl
  rw [parseAll_concat, parse_eq _ _ (parseAll_y _ _ rfl), prevState_parseAll _ _ rfl, hdy]

/-- The newest report adds its own kick. -/
private theorem isKick_concat (i : Nat) :
    IsKick dy (reports ++ [mi]) i ↔ IsKick dy reports i ∨
      pressed bmLeftButton (lastByte reports) mi.buttons = true ∧
        i = (parseAll (powerUp dy) reports).serial.length + 1 := by
  constructor
  · rintro ⟨pre, r, hp, hr, hi⟩
    rcases Base.concat_prefix_concat_iff.mp hp with ⟨rfl, rfl⟩ | hp
    · exact Or.inr ⟨hr, hi⟩
    · exact Or.inl ⟨pre, r, hp, hr, hi⟩
  · rintro (⟨pre, r, hp, hr, hi⟩ | ⟨hr, hi⟩)
    · exact ⟨pre, r, hp.trans (List.prefix_append _ _), hr, hi⟩
    · exact ⟨reports, mi, List.prefix_refl _, hr, hi⟩

/-- A kick is a frame of the run. -/
theorem isKick_lt {i : Nat} (h : IsKick dy reports i) :
    i < (parseAll (powerUp dy) reports).serial.length := by
  induction reports using List.reverseRecOn with
  | nil =>
    obtain ⟨pre, mi, hp, -⟩ := h
    simp at hp
  | append_singleton reports mi ih =>
    rw [serial_concat, List.length_append, List.length_append, buttonFrames, List.length_append,
      List.length_append]
    rcases (isKick_concat dy reports mi i).mp h with h | ⟨hp, rfl⟩
    · have := ih h
      omega
    · have := leftFrames_length dy (parseAll (powerUp dy) reports).mouseReport _ _ hp
      omega

end TwoRuns

/-- After the same reports the two settings have left the sketch in the same state. -/
theorem state_eq (d₁ d₂ : Int8) (reports : List MouseInfo) :
    (parseAll (powerUp d₁) reports).mouseReport = (parseAll (powerUp d₂) reports).mouseReport ∧
      (parseAll (powerUp d₁) reports).prevState = (parseAll (powerUp d₂) reports).prevState := by
  induction reports using List.reverseRecOn with
  | nil => exact ⟨rfl, rfl⟩
  | append_singleton reports mi ih =>
    obtain ⟨hm, hp⟩ := ih
    rw [parseAll_concat, parseAll_concat, parse_eq _ _ (parseAll_y _ _ rfl),
      parse_eq _ _ (parseAll_y _ _ rfl), hm, hp]
    exact ⟨rfl, rfl⟩

/-- Two runs on the same reports match frame by frame. -/
theorem run_match (d₁ d₂ : Int8) (reports : List MouseInfo) :
    RunMatch d₁ d₂ (IsKick d₁ reports) (parseAll (powerUp d₁) reports).serial
      (parseAll (powerUp d₂) reports).serial := by
  induction reports using List.reverseRecOn with
  | nil => exact .same [] (by simp)
  | append_singleton reports mi ih =>
    have hm := (state_eq d₁ d₂ reports).1
    rw [serial_concat, serial_concat, ← hm]
    apply RunMatch.append
    · apply ih.congr
      intro i hi
      rw [isKick_concat]
      exact or_iff_left fun h ↦ by omega
    · apply (reportFrames_match d₁ d₂ _ _ (lastByte reports) mi).congr
      intro j _
      rw [isKick_concat]
      constructor
      · rintro (h | ⟨hp, hj⟩)
        · have := isKick_lt d₁ reports h
          omega
        · exact ⟨hp, by omega⟩
      · rintro ⟨hp, rfl⟩
        exact Or.inr ⟨hp, rfl⟩

/-- Under any two settings the same reports make the same number of frames, equal in every
field but the `y` of the kicks, and leave the same state after every report; and every left press
has its kick, a second frame in both runs. -/
theorem kickOnly (d₁ d₂ : Int8) (reports : List MouseInfo) :
    RunMatch d₁ d₂ (IsKick d₁ reports) (parseAll (powerUp d₁) reports).serial
        (parseAll (powerUp d₂) reports).serial ∧
      (∀ i, IsKick d₁ reports i → i < (parseAll (powerUp d₁) reports).serial.length ∧
        i < (parseAll (powerUp d₂) reports).serial.length) ∧
      ∀ pre, pre <+: reports →
        (parseAll (powerUp d₁) pre).mouseReport = (parseAll (powerUp d₂) pre).mouseReport ∧
          (parseAll (powerUp d₁) pre).prevState = (parseAll (powerUp d₂) pre).prevState := by
  have hmatch := run_match d₁ d₂ reports
  refine ⟨hmatch, fun i hi ↦ ?_, fun pre _ ↦ state_eq d₁ d₂ pre⟩
  have hlt := isKick_lt d₁ reports hi
  exact ⟨hlt, hmatch.length_eq ▸ hlt⟩

end MouseAide.Translator
