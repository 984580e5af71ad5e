import Mathlib.Data.List.Infix

/-!
# Cutting a stream into records

Library `MouseBase`. A stream of symbols is cut into records by a test on the symbols of the
record so far, and each finished record acts on a context and emits observations. A reader
of such a stream may stop anywhere and go on later; the laws here say what it owes: the cut
points of the input do not matter, and a stream of whole records is a fold over the records.
-/

namespace MouseAide.Base

universe u v w

/-- How records end and what they do. -/
structure RecordReader (σ : Type u) (β : Type v) (ω : Type w) where
  done : List β → Bool
  process : σ → List β → σ × List ω

namespace RecordReader

variable {σ : Type u} {β : Type v} {ω : Type w} (R : RecordReader σ β ω)

/-- One symbol joins the open record, and acts if it ends it. -/
def feed (c : σ × List β) (b : β) : (σ × List β) × List ω :=
  if R.done (c.2 ++ [b]) then
    (((R.process c.1 (c.2 ++ [b])).1, []), (R.process c.1 (c.2 ++ [b])).2)
  else ((c.1, c.2 ++ [b]), [])

/-- A whole input from a context with an open record. -/
def walk : σ × List β → List β → (σ × List β) × List ω
  | c, [] => (c, [])
  | c, b :: bs => ((walk (R.feed c b).1 bs).1, (R.feed c b).2 ++ (walk (R.feed c b).1 bs).2)

@[simp] theorem walk_nil (c : σ × List β) : R.walk c [] = (c, []) := rfl

/-- The first symbol acts before the rest. -/
theorem walk_cons (c : σ × List β) (b : β) (bs : List β) : R.walk c (b :: bs) =
    ((R.walk (R.feed c b).1 bs).1, (R.feed c b).2 ++ (R.walk (R.feed c b).1 bs).2) := rfl

/-- An input read in two parts is read as one. -/
theorem walk_append (c : σ × List β) (xs ys : List β) : R.walk c (xs ++ ys) =
    ((R.walk (R.walk c xs).1 ys).1, (R.walk c xs).2 ++ (R.walk (R.walk c xs).1 ys).2) := by
  induction xs generalizing c with
  | nil => rfl
  | cons b xs ih => rw [List.cons_append, walk_cons, walk_cons, ih, List.append_assoc]

/-- Symbols that do not end the open record only lengthen it. -/
theorem walk_open (s : σ) (cur : List β) {xs : List β}
    (h : ∀ pre, pre <+: xs → pre ≠ [] → R.done (cur ++ pre) = false) :
    R.walk (s, cur) xs = ((s, cur ++ xs), []) := by
  induction xs generalizing cur with
  | nil => rw [walk_nil, List.append_nil]
  | cons b xs ih =>
    have hb : R.done (cur ++ [b]) = false := h [b] ⟨xs, rfl⟩ (List.cons_ne_nil b [])
    have hfeed : R.feed (s, cur) b = ((s, cur ++ [b]), []) := by simp [feed, hb]
    have hrest := ih (cur ++ [b]) fun pre hpre _ ↦ by
      rw [List.append_assoc]
      exact h (b :: pre) (List.cons_prefix_cons.mpr ⟨rfl, hpre⟩) (List.cons_ne_nil b pre)
    rw [walk_cons, hfeed, hrest, List.append_assoc]
    rfl

/-- The symbol that ends the open record makes it act. -/
theorem walk_close (s : σ) (cur : List β) {xs : List β} (hxs : xs ≠ [])
    (hdone : R.done (cur ++ xs) = true)
    (h : ∀ pre, pre <+: xs → pre ≠ [] → pre ≠ xs → R.done (cur ++ pre) = false) :
    R.walk (s, cur) xs =
      (((R.process s (cur ++ xs)).1, []), (R.process s (cur ++ xs)).2) := by
  obtain ⟨ys, b, rfl⟩ : ∃ ys b, xs = ys ++ [b] :=
    ⟨xs.dropLast, xs.getLast hxs, (List.dropLast_append_getLast hxs).symm⟩
  have hopen : R.walk (s, cur) ys = ((s, cur ++ ys), []) := by
    refine R.walk_open s cur fun pre hpre hne ↦ h pre (hpre.trans (List.prefix_append _ _)) hne ?_
    rintro rfl
    exact absurd hpre.length_le (by simp)
  rw [← List.append_assoc] at hdone ⊢
  rw [walk_append, hopen, walk_cons, walk_nil]
  simp only [feed, hdone, if_true, List.append_nil, List.nil_append]

/-- A whole record: it ends at its last symbol and nowhere before. -/
def IsRecord (d : List β) : Prop :=
  d ≠ [] ∧ R.done d = true ∧ ∀ pre, pre <+: d → pre ≠ [] → pre ≠ d → R.done pre = false

/-- What a list of records does, one after another. -/
def fold : σ → List (List β) → σ × List ω
  | s, [] => (s, [])
  | s, d :: ds =>
    ((fold (R.process s d).1 ds).1, (R.process s d).2 ++ (fold (R.process s d).1 ds).2)

/-- A stream of whole records acts as the records do, and leaves none open. -/
theorem walk_flatten {s : σ} {ds : List (List β)} (h : ∀ d ∈ ds, R.IsRecord d) :
    R.walk (s, []) ds.flatten = (((R.fold s ds).1, []), (R.fold s ds).2) := by
  induction ds generalizing s with
  | nil => rfl
  | cons d ds ih =>
    obtain ⟨hne, hdone, hpre⟩ := h d List.mem_cons_self
    have hclose := R.walk_close s [] hne hdone hpre
    rw [List.nil_append] at hclose
    rw [List.flatten_cons, walk_append, hclose, ih fun e he ↦ h e (List.mem_cons_of_mem d he)]
    rfl

end RecordReader

end MouseAide.Base
