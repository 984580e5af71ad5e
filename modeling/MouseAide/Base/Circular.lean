import Mathlib.Data.List.Infix

/-!
# Circular stores under a growing stream

Library `MouseBase`. Item `p` of a stream is written to cell `p % n`, so a store of `n`
cells always holds the last `n` items of the stream. A reader at position `r` finds item
`r` itself while it is at most `n` behind, and an item of the same residue modulo `n`
however often it has been lapped.
-/

namespace MouseAide.Base

universe u

/-- Each of the last `n` stream items is still in the cell of its residue. -/
def Holds {α : Type u} (n : Nat) (cell : Nat → Option α) (stream : List α) : Prop :=
  ∀ p x, stream[p]? = some x → stream.length ≤ p + n → cell (p % n) = some x

namespace Holds

variable {α : Type u} {n : Nat} {cell cell' : Nat → Option α} {stream : List α}

/-- Any store holds the empty stream. -/
theorem nil : Holds n cell [] := by
  intro p x hx
  simp at hx

/-- Writing the next item to the cell of the stream's length keeps the law. -/
theorem push {x : α} (h : Holds n cell stream)
    (hnew : cell' (stream.length % n) = some x)
    (hold : ∀ i, i ≠ stream.length % n → cell' i = cell i) :
    Holds n cell' (stream ++ [x]) := by
  intro p y hy hp
  have hlt : p < stream.length + 1 := by
    have := (List.getElem?_eq_some_iff.mp hy).1
    simpa using this
  simp only [List.length_append, List.length_cons, List.length_nil, Nat.zero_add] at hp
  by_cases hl : p = stream.length
  · subst hl
    rw [List.getElem?_concat_length] at hy
    rw [hnew, hy]
  · rw [List.getElem?_append_left (by omega)] at hy
    -- A shorter distance than `n` keeps the two residues apart.
    have hne : p % n ≠ stream.length % n := by
      intro he
      have hd : n ∣ stream.length - p :=
        Nat.dvd_of_mod_eq_zero (Nat.sub_mod_eq_zero_of_mod_eq he.symm)
      have := Nat.le_of_dvd (by omega) hd
      omega
    rw [hold _ hne]
    exact h p y hy (by omega)

/-- A reader at most `n` items behind finds its own item. -/
theorem read_recent {r : Nat} (h : Holds n cell stream) (hr : r < stream.length)
    (hn : stream.length ≤ r + n) : cell (r % n) = stream[r]? := by
  rw [List.getElem?_eq_getElem hr]
  exact h r _ (List.getElem?_eq_getElem hr) hn

/-- A reader of any age finds an item that was written at its own residue. -/
theorem read_lapped {r : Nat} (h : Holds n cell stream) (hn : 0 < n) (hr : r < stream.length) :
    ∃ p, p < stream.length ∧ p % n = r % n ∧ cell (r % n) = stream[p]? := by
  -- The last position of the residue of `r` below the stream's length.
  let p := r + n * ((stream.length - 1 - r) / n)
  have hm : n * ((stream.length - 1 - r) / n) ≤ stream.length - 1 - r := Nat.mul_div_le _ _
  have hs : stream.length - 1 - r < n * ((stream.length - 1 - r) / n) + n := by
    have := Nat.div_add_mod (stream.length - 1 - r) n
    have := Nat.mod_lt (stream.length - 1 - r) hn
    omega
  have hp : p < stream.length := by omega
  have he : p % n = r % n := Nat.add_mul_mod_self_left _ _ _
  refine ⟨p, hp, he, ?_⟩
  rw [← he]
  exact h.read_recent hp (by omega)

end Holds

end MouseAide.Base
