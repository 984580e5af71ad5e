import Mathlib.Data.List.Infix

/-!
# Streams cut into blocks of four

Library `MouseBase`. `quads` cuts a stream into its complete blocks of four items and
drops an incomplete rest. Encoding a list block by block and cutting it again is the
identity, and cutting a longer stream only appends blocks.
-/

namespace MouseAide.Base

universe u v

variable {α : Type u} {β : Type v}

/-- The complete blocks of four items, in order. -/
def quads : List α → List (α × α × α × α)
  | a :: b :: c :: d :: rest => (a, b, c, d) :: quads rest
  | _ => []

/-- The four items of a block. -/
def quadItems (q : α × α × α × α) : List α := [q.1, q.2.1, q.2.2.1, q.2.2.2]

/-- Cutting distributes over appending at a block boundary. -/
theorem quads_append {xs : List α} (ys : List α) (h : 4 ∣ xs.length) :
    quads (xs ++ ys) = quads xs ++ quads ys := by
  induction xs using quads.induct with
  | case1 a b c d rest ih =>
    simp only [List.length_cons] at h
    simp [quads, ih (by omega)]
  | case2 xs hshort =>
    have hnil : xs = [] := by
      match xs with
      | [] => rfl
      | [_] => simp at h
      | [_, _] => simp at h
      | [_, _, _] => simp at h
      | a :: b :: c :: d :: rest => exact absurd rfl (hshort a b c d rest)
    simp [hnil, quads]

/-- Cutting a prefix gives a prefix of the blocks. -/
theorem quads_mono {xs ys : List α} (h : xs <+: ys) : quads xs <+: quads ys := by
  obtain ⟨rest, rfl⟩ := h
  induction xs using quads.induct with
  | case1 a b c d xs ih =>
    simp only [List.cons_append, quads, List.cons_prefix_cons, true_and]
    exact ih
  | case2 xs hshort =>
    have hnil : quads xs = [] := by
      match xs with
      | [] => rfl
      | [_] => rfl
      | [_, _] => rfl
      | [_, _, _] => rfl
      | a :: b :: c :: d :: rest => exact absurd rfl (hshort a b c d rest)
    rw [hnil]
    exact List.nil_prefix

/-- Cutting the concatenated blocks recovers them. -/
theorem quads_flatMap (f : β → α × α × α × α) (l : List β) :
    quads (l.flatMap fun b ↦ quadItems (f b)) = l.map f := by
  induction l with
  | nil => rfl
  | cons b l ih =>
    rw [List.flatMap_cons, List.map_cons, ← ih]
    rfl

/-- Concatenated blocks have four items each. -/
theorem length_flatMap_quadItems (f : β → α × α × α × α) (l : List β) :
    (l.flatMap fun b ↦ quadItems (f b)).length = 4 * l.length := by
  induction l with
  | nil => rfl
  | cons b l ih =>
    have hq : (quadItems (f b)).length = 4 := rfl
    rw [List.flatMap_cons, List.length_append, List.length_cons, ih, hq]
    omega

/-- A block is found at four times its index, whatever follows. -/
theorem take_drop_flatMap_quadItems {l : List (α × α × α × α)} {k : Nat} {q : α × α × α × α}
    (h : l[k]? = some q) (rest : List α) :
    ((l.flatMap quadItems ++ rest).drop (4 * k)).take 4 = quadItems q := by
  induction l generalizing k with
  | nil => simp at h
  | cons b l ih =>
    cases k with
    | zero =>
      obtain rfl : b = q := by simpa using h
      rfl
    | succ k =>
      have hk : l[k]? = some q := by simpa using h
      rw [← ih hk, List.flatMap_cons, List.append_assoc, Nat.mul_succ, Nat.add_comm,
        ← List.drop_drop]
      rfl

end MouseAide.Base
