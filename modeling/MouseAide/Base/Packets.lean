import Mathlib.Data.List.Basic

/-!
# Messages in packets

Library `MouseBase`. A sender cuts a message into packets of one size and marks its end with a
short packet, which it leaves out when the reader knows the length and the packets come out even.
A reader with room for `n`, which takes packets to be of size `M`, goes on until a packet shorter
than that or until it has `n`. The reader that sees no end waits for a packet nobody sends.
-/

namespace MouseAide.Base

variable {α : Type*} {M D n : Nat} {z : Bool} {bs : List α} {ps : List (List α)}

/-- The packets of size `D` a message goes out in; with `z` the end is marked in any case. -/
inductive Packets (D : Nat) (z : Bool) : List α → List (List α) → Prop
  | done : z = false → Packets D z [] []
  | short {bs : List α} : bs.length < D → bs ≠ [] ∨ z = true → Packets D z bs [bs]
  | full {p bs : List α} {ps : List (List α)} :
      p.length = D → Packets D z bs ps → Packets D z (p ++ bs) (p :: ps)

/-- Reading with room for `n`, with `acc` read so far: what was read and the packets left;
`none` when the packets run out. -/
def gather (M n : Nat) : List α → List (List α) → Option (List α × List (List α))
  | _, [] => none
  | acc, p :: ps =>
    if p.length < M ∨ n ≤ (acc ++ p).length then some (acc ++ p, ps)
    else gather M n (acc ++ p) ps

/-- A reader for packets of `M` sees the end of a message of `len` in packets of `D`. -/
def Ended (M D : Nat) (z : Bool) (len : Nat) : Prop :=
  if len % D = 0 then z = true else len % D < M

instance (M D : Nat) (z : Bool) (len : Nat) : Decidable (Ended M D z len) := by
  unfold Ended
  infer_instance

/-- A packet that looks short ends the reading. -/
theorem gather_short {acc p : List α} (h : p.length < M) :
    gather M n acc (p :: ps) = some (acc ++ p, ps) :=
  if_pos (Or.inl h)

/-- A packet that fills the room ends the reading. -/
theorem gather_enough {acc p : List α} (h : n ≤ acc.length + p.length) :
    gather M n acc (p :: ps) = some (acc ++ p, ps) :=
  if_pos (Or.inr (List.length_append.symm ▸ h))

/-- After any other packet there is more to read. -/
theorem gather_more {acc p : List α} (hp : M ≤ p.length) (h : acc.length + p.length < n) :
    gather M n acc (p :: ps) = gather M n (acc ++ p) ps := by
  apply if_neg
  rw [List.length_append]
  omega

/-- Every packet fits the packet size. -/
theorem Packets.length_le (h : Packets D z bs ps) : ∀ p ∈ ps, p.length ≤ D := by
  induction h with
  | done _ => simp
  | short hlt _ =>
    intro p hp
    rw [List.mem_singleton.mp hp]
    omega
  | full hp _ ih =>
    intro q hq
    rcases List.mem_cons.mp hq with rfl | hq
    · omega
    · exact ih q hq

/-- The packets carry the message. -/
theorem Packets.flatten (h : Packets D z bs ps) : ps.flatten = bs := by
  induction h with
  | done _ => rfl
  | short _ _ => exact List.flatten_singleton
  | full _ _ ih => rw [List.flatten_cons, ih]

/-- A message of nothing whose end need not be marked. -/
theorem Packets.eq_nil (h : Packets D false ([] : List α) ps) (hD : 0 < D) : ps = [] := by
  generalize hbs : ([] : List α) = bs at h
  cases h with
  | done _ => rfl
  | short _ hne => simp [← hbs] at hne
  | full hp _ =>
    obtain ⟨rfl, -⟩ := List.nil_eq_append_iff.mp hbs
    exact absurd hp (by rw [List.length_nil]; omega)

/-- A message that fits one packet, whose end need not be marked. -/
theorem Packets.eq_singleton (h : Packets D false bs ps) (hne : bs ≠ []) (hle : bs.length ≤ D) :
    ps = [bs] := by
  cases h with
  | done _ => exact absurd rfl hne
  | short _ _ => rfl
  | @full p bs ps hp htail =>
    rw [List.length_append] at hle
    obtain rfl : bs = [] := List.length_eq_zero_iff.mp (by omega)
    have hD : 0 < D := by
      rw [← hp]
      exact List.length_pos_iff.mpr (by simpa using hne)
    rw [htail.eq_nil hD, List.append_nil]

/-- A reader with room for part of the message stops where its room ends, provided the packets
come out even there, and the rest is a message in packets. -/
theorem Packets.gather_room (h : Packets D z bs ps) (acc : List α) (hMD : M ≤ D)
    (hn : acc.length < n) (hle : n ≤ acc.length + bs.length)
    (heven : D ∣ n - acc.length ∨ acc.length + bs.length = n ∧ z = false) :
    ∃ ps', gather M n acc ps = some (acc ++ bs.take (n - acc.length), ps') ∧
      Packets D z (bs.drop (n - acc.length)) ps' := by
  induction h generalizing acc with
  | done _ =>
    simp only [List.length_nil] at hle
    omega
  | @short bs hlt _ =>
    obtain ⟨hlen, hz⟩ : acc.length + bs.length = n ∧ z = false := by
      refine heven.resolve_left fun hdvd ↦ ?_
      have := Nat.le_of_dvd (by omega) hdvd
      omega
    have hroom : n - acc.length = bs.length := by omega
    rw [hroom, List.take_length, List.drop_length]
    exact ⟨[], gather_enough (by omega), .done hz⟩
  | @full p bs ps hp htail ih =>
    rw [List.length_append] at hle heven
    by_cases hroom : n ≤ acc.length + D
    · have hlen : n - acc.length = p.length := by
        rcases heven with hdvd | ⟨hlen, -⟩
        · have := Nat.le_of_dvd (by omega) hdvd
          omega
        · omega
      rw [hlen, List.take_left, List.drop_left]
      exact ⟨ps, gather_enough (by omega), htail⟩
    · have hacc : (acc ++ p).length = acc.length + D := by rw [List.length_append, hp]
      have hrest : n - acc.length = p.length + (n - (acc ++ p).length) := by omega
      obtain ⟨ps', hgather, hps'⟩ := ih (acc ++ p) (by omega) (by omega) (by
        rw [hacc]
        refine heven.imp (fun hdvd ↦ ?_) fun h ↦ ⟨by omega, h.2⟩
        have hsub : n - (acc.length + D) = n - acc.length - D := by omega
        rw [hsub]
        exact Nat.dvd_sub hdvd (Nat.dvd_refl D))
      rw [hrest, List.take_length_add_append, List.drop_length_add_append, ← List.append_assoc]
      exact ⟨ps', (gather_more (by omega) (by omega)).trans hgather, hps'⟩

/-- A reader with room for all of the message that sees the end stops there. -/
theorem Packets.gather_end (h : Packets D z bs ps) (acc : List α) (hM : 0 < M) (hMD : M ≤ D)
    (hn : acc.length + bs.length < n) (hend : Ended M D z bs.length) :
    gather M n acc ps = some (acc ++ bs, []) := by
  induction h generalizing acc with
  | done hz => simp [Ended, hz] at hend
  | @short bs hlt hne =>
    rw [Ended, Nat.mod_eq_of_lt hlt] at hend
    apply gather_short
    split at hend
    · omega
    · exact hend
  | @full p bs ps hp _ ih =>
    rw [List.length_append] at hn
    rw [List.length_append, hp, Ended, Nat.add_mod_left] at hend
    rw [gather_more (by omega) (by omega), ih (acc ++ p) (by rw [List.length_append]; omega) hend,
      List.append_assoc]

/-- A reader that does not see the end asks for one packet too many. -/
theorem Packets.gather_none (h : Packets D z bs ps) (acc : List α) (hMD : M ≤ D)
    (hn : acc.length + bs.length < n) (hend : ¬Ended M D z bs.length) :
    gather M n acc ps = none := by
  induction h generalizing acc with
  | done _ => rfl
  | @short bs hlt hne =>
    rw [Ended, Nat.mod_eq_of_lt hlt] at hend
    split at hend
    · next hzero => simp [List.length_eq_zero_iff.mp hzero, hend] at hne
    · rw [gather_more (by omega) (by omega)]
      rfl
  | @full p bs ps hp _ ih =>
    rw [List.length_append] at hn
    rw [List.length_append, hp, Ended, Nat.add_mod_left] at hend
    rw [gather_more (by omega) (by omega)]
    exact ih (acc ++ p) (by rw [List.length_append]; omega) hend

/-- A sender, on fuel. -/
def cut (D : Nat) (z : Bool) : Nat → List α → List (List α)
  | 0, _ => []
  | fuel + 1, bs =>
    if bs.length < D then if bs.isEmpty && !z then [] else [bs]
    else bs.take D :: cut D z fuel (bs.drop D)

/-- Every message has packets. -/
theorem packets_cut (hD : 0 < D) (z : Bool) {fuel : Nat} (h : bs.length < fuel) :
    Packets D z bs (cut D z fuel bs) := by
  induction fuel generalizing bs with
  | zero => omega
  | succ fuel ih =>
    rw [cut]
    split
    · next hlt =>
      split
      · next hnone =>
        rw [Bool.and_eq_true, List.isEmpty_iff, Bool.not_eq_true'] at hnone
        rw [hnone.1]
        exact .done hnone.2
      · next hsome =>
        refine .short hlt ?_
        rwa [Bool.and_eq_true, List.isEmpty_iff, Bool.not_eq_true', not_and_or,
          Bool.not_eq_false] at hsome
    · next hle =>
      have hlen : (bs.drop D).length = bs.length - D := List.length_drop
      have htail := ih (show (bs.drop D).length < fuel by omega)
      have htake : (bs.take D).length = D := by
        rw [List.length_take]
        omega
      have hfull := Packets.full htake htail
      rwa [List.take_append_drop] at hfull

end MouseAide.Base
