import Mathlib.Data.List.Infix

/-!
# Samples of a register

Library `MouseBase`. A register takes a sequence of values; a sender ships some of them,
possibly the same one several times and possibly none of others. `Samples` says that what
was sent is the register's history at a non-decreasing sequence of indices, so nothing was
invented or sent out of order.
-/

namespace MouseAide.Base

universe u

variable {α : Type u} {values more sent : List α} {x : α}

/-- What was sent is `values` read at a non-decreasing sequence of indices. -/
def Samples (values sent : List α) : Prop :=
  ∃ indices : List Nat, indices.Pairwise (· ≤ ·) ∧
    sent.map some = indices.map fun i ↦ values[i]?

namespace Samples

/-- Nothing sent is a sample of any history. -/
theorem nil : Samples values [] := ⟨[], List.Pairwise.nil, rfl⟩

private theorem index_lt {indices : List Nat}
    (h : sent.map some = indices.map fun i ↦ values[i]?) : ∀ i ∈ indices, i < values.length := by
  intro i hi
  have hmem : values[i]? ∈ sent.map some := by
    rw [h]
    exact List.mem_map_of_mem hi
  obtain ⟨y, -, hy⟩ := List.mem_map.mp hmem
  exact (List.getElem?_eq_some_iff.mp hy.symm).1

/-- New register values leave the samples valid. -/
theorem append (h : Samples values sent) : Samples (values ++ more) sent := by
  obtain ⟨indices, hsorted, hs⟩ := h
  refine ⟨indices, hsorted, hs.trans ?_⟩
  apply List.map_congr_left
  intro i hi
  exact (List.getElem?_append_left (index_lt hs i hi)).symm

/-- The newest register value may be sent at any time. -/
theorem send_last (h : Samples values sent) (hx : values.getLast? = some x) :
    Samples values (sent ++ [x]) := by
  obtain ⟨indices, hsorted, hs⟩ := h
  refine ⟨indices ++ [values.length - 1], ?_, ?_⟩
  · apply List.pairwise_append.mpr
    refine ⟨hsorted, List.pairwise_singleton _ _, ?_⟩
    intro i hi j hj
    have := index_lt hs i hi
    have hj : j = values.length - 1 := by simpa using hj
    omega
  · rw [List.map_append, List.map_append, hs, List.map_singleton, List.map_singleton, ← hx,
      List.getLast?_eq_getElem?]

end Samples

end MouseAide.Base
