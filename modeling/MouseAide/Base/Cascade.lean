import Mathlib.Data.Set.Basic
import Mathlib.Logic.Relation

/-!
# Removing subtrees from a forest

Library `MouseBase`. A parent relation on any type of nodes, the subtree below a node, and
what is left of the relation once a set of nodes closed under children has been removed.
A removal that walks the children of a node one by one removes the whole subtree, whatever
the order of the children.
-/

namespace MouseAide.Base

open Relation

universe u

variable {α : Type u} {r r' : α → α → Prop} {S : Set α} {i j k c : α}

/-- A set that holds the children of all its members. -/
def Hereditary (r : α → α → Prop) (S : Set α) : Prop := ∀ i ∈ S, ∀ j, r i j → j ∈ S

/-- A node with everything below it. -/
def subtree (r : α → α → Prop) (i : α) : Set α := {j | ReflTransGen r i j}

/-- Everything strictly below a node. -/
def below (r : α → α → Prop) (i : α) : Set α := {j | TransGen r i j}

/-- What is left of `r` outside a removed set. -/
def Pruned (r r' : α → α → Prop) (S : Set α) : Prop :=
  ∀ i j, r' i j ↔ r i j ∧ i ∉ S ∧ j ∉ S

/-- A rank that grows from a node to each child which is itself a parent. -/
def Ranked (r : α → α → Prop) (rank : α → Nat) : Prop :=
  ∀ i j l, r i j → r j l → rank i < rank j

/-- A subtree holds the children of its members. -/
theorem hereditary_subtree (r : α → α → Prop) (i : α) : Hereditary r (subtree r i) :=
  fun _ hk _ hj ↦ ReflTransGen.tail hk hj

/-- A node heads its own subtree. -/
theorem mem_subtree_self (r : α → α → Prop) (i : α) : i ∈ subtree r i := ReflTransGen.refl

/-- A subtree is its head and what is below it. -/
theorem mem_subtree_iff : j ∈ subtree r i ↔ j = i ∨ j ∈ below r i :=
  reflTransGen_iff_eq_or_transGen

/-- A node without children heads nothing else. -/
theorem subtree_eq_singleton (h : ∀ j, ¬ r i j) : subtree r i = {i} := by
  ext j
  exact reflTransGen_iff_eq h

/-- A node without children has nothing below it. -/
theorem below_eq_empty (h : ∀ j, ¬ r i j) : below r i = ∅ := by
  ext j
  constructor
  · intro hj
    obtain ⟨l, hl, -⟩ := TransGen.head'_iff.mp hj
    exact h l hl
  · exact False.elim

/-- From a node outside a removed hereditary set, exactly the rest is still below. -/
theorem Pruned.below_eq (h : Pruned r r' S) (hS : Hereditary r S) :
    below r' k = {j | j ∈ below r k ∧ k ∉ S ∧ j ∉ S} := by
  ext j
  constructor
  · intro hj
    induction hj with
    | single hj =>
      obtain ⟨hr, hk, hj⟩ := (h _ _).mp hj
      exact ⟨TransGen.single hr, hk, hj⟩
    | tail _ hl ih =>
      obtain ⟨hr, -, hl⟩ := (h _ _).mp hl
      exact ⟨TransGen.tail ih.1 hr, ih.2.1, hl⟩
  · rintro ⟨hj, hk, hout⟩
    induction hj with
    | single hj => exact TransGen.single ((h _ _).mpr ⟨hj, hk, hout⟩)
    | tail _ hl ih =>
      have hmid := fun hmem ↦ hout (hS _ hmem _ hl)
      exact TransGen.tail (ih hmid) ((h _ _).mpr ⟨hl, hmid, hout⟩)

/-- The rank grows along every path to a parent. -/
theorem Ranked.lt_of_below {rank : α → Nat} (h : Ranked r rank) (hj : j ∈ below r i)
    (hl : r j k) : rank i < rank j := by
  induction hj generalizing k with
  | single hj => exact h _ _ _ hj hl
  | tail _ hr ih => exact (ih hr).trans (h _ _ _ hr hl)

/-- A ranked parent is not in the subtree of its own child. -/
theorem Ranked.notMem_subtree {rank : α → Nat} (h : Ranked r rank) (hc : r k c) :
    k ∉ subtree r c := by
  intro hk
  exact absurd (h.lt_of_below (TransGen.head' hc hk) hc) (lt_irrefl _)

/-- One round of a removal: the subtree of a child, and below that what is left. -/
theorem Ranked.below_eq_union {rank : α → Nat} (h : Ranked r rank) (hc : r k c)
    (hp : Pruned r r' (subtree r c)) : below r k = subtree r c ∪ below r' k := by
  rw [hp.below_eq (hereditary_subtree r c)]
  ext j
  constructor
  · intro hj
    by_cases hmem : j ∈ subtree r c
    · exact Or.inl hmem
    · exact Or.inr ⟨hj, h.notMem_subtree hc, hmem⟩
  · rintro (hj | hj)
    · exact TransGen.head' hc hj
    · exact hj.1

end MouseAide.Base
