import Mathlib.Algebra.BigOperators.Group.List.Basic
import Mathlib.Algebra.Ring.Nat
import Mathlib.Data.List.Infix

/-!
# Batch service under a windowed arrival budget

Library `MouseBase`. Time is cut into intervals, listed newest first by the number of items
that arrive in each. A server takes `q` items in an interval or none, and rests only when it
has too few. The level it leaves is then accounted for by the arrivals of one window that
ends now, so a bound on all windows bounds the level at every moment.
-/

namespace MouseAide.Base

/-- Any `k ≥ 1` consecutive intervals bring at most `q * k + c` items. -/
def Budget (q c : Nat) (intervals : List Nat) : Prop :=
  ∀ w, w <:+: intervals → w ≠ [] → w.sum ≤ q * w.length + c

instance (q c : Nat) (intervals : List Nat) : Decidable (Budget q c intervals) :=
  decidable_of_iff
    (∀ t ∈ intervals.tails, ∀ w ∈ t.inits, w ≠ [] → w.sum ≤ q * w.length + c) <| by
    simp only [List.mem_tails, List.mem_inits]
    constructor
    · intro h w hw
      obtain ⟨t, hwt, ht⟩ := List.infix_iff_prefix_suffix.mp hw
      exact h t ht w hwt
    · intro h t ht w hwt
      exact h w (List.infix_iff_prefix_suffix.mpr ⟨t, hwt, ht⟩)

/-- One more item arrives in the newest interval. -/
def arrive : List Nat → List Nat
  | [] => [1]
  | n :: intervals => (n + 1) :: intervals

namespace Budget

variable {q c n : Nat} {intervals : List Nat}

/-- A budget holds of the older intervals. -/
theorem of_cons (h : Budget q c (n :: intervals)) : Budget q c intervals :=
  fun w hw ↦ h w (List.infix_cons hw)

/-- A budget held before the newest item arrived. -/
theorem of_arrive (h : Budget q c (arrive intervals)) : Budget q c intervals := by
  intro w hw hne
  cases intervals with
  | nil => exact absurd (List.infix_nil.mp hw) hne
  | cons n intervals =>
    rcases List.infix_cons_iff.mp hw with hw | hw
    · -- A window that ends now has grown by the item.
      obtain ⟨m, w', rfl⟩ := List.exists_cons_of_ne_nil hne
      obtain ⟨rfl, hw'⟩ := List.cons_prefix_cons.mp hw
      have hgrown := h ((m + 1) :: w') (List.cons_prefix_cons.mpr ⟨rfl, hw'⟩).isInfix
        (List.cons_ne_nil _ _)
      simp only [List.sum_cons, List.length_cons] at hgrown ⊢
      omega
    · exact h w (List.infix_cons hw) hne

end Budget

/-- The level is covered by a window that ends now: with one batch for each of its intervals
it does not exceed what arrived in it by more than `base`. -/
def Behind (q base : Nat) (intervals : List Nat) (level : Nat) : Prop :=
  ∃ w, w ≠ [] ∧ w <+: intervals ∧ level + q * w.length ≤ w.sum + base

namespace Behind

variable {q base c level : Nat} {intervals : List Nat}

/-- A budget bounds the level. -/
theorem le (h : Behind q base intervals level) (hb : Budget q c intervals) :
    level ≤ base + c := by
  obtain ⟨w, hne, hw, hlevel⟩ := h
  have := hb w hw.isInfix hne
  omega

/-- An arrival raises the level and every window that ends now. -/
theorem arrive (h : Behind q base intervals level) :
    Behind q base (arrive intervals) (level + 1) := by
  obtain ⟨w, hne, hw, hlevel⟩ := h
  obtain ⟨n, w, rfl⟩ := List.exists_cons_of_ne_nil hne
  obtain ⟨rest, rfl⟩ := hw
  refine ⟨(n + 1) :: w, List.cons_ne_nil _ _, List.prefix_append _ rest, ?_⟩
  simp only [List.sum_cons, List.length_cons] at hlevel ⊢
  omega

/-- An interval with service opens: the window grows by it, one batch is promised. -/
theorem serve (h : Behind q base intervals level) :
    Behind q (base + q) (0 :: intervals) level := by
  obtain ⟨w, -, hw, hlevel⟩ := h
  refine ⟨0 :: w, List.cons_ne_nil _ _, List.cons_prefix_cons.mpr ⟨rfl, hw⟩, ?_⟩
  simp only [List.sum_cons, List.length_cons, Nat.mul_succ]
  omega

/-- An interval without service opens at a low level: a new window begins. -/
theorem rest (h : level + q ≤ base) : Behind q base (0 :: intervals) level :=
  ⟨[0], List.cons_ne_nil _ _, List.prefix_append [0] intervals, by simpa using h⟩

/-- A finished batch leaves the level and keeps the promise. -/
theorem done {k : Nat} (h : Behind q (base + k) intervals (level + k)) :
    Behind q base intervals level := by
  obtain ⟨w, hne, hw, hlevel⟩ := h
  exact ⟨w, hne, hw, by omega⟩

end Behind

end MouseAide.Base
