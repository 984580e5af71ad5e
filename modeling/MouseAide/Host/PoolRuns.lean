import MouseAide.Base.Machine
import MouseAide.Host.AddressPool

/-!
# Runs of the address pool

Library `MouseHost`. Any sequence of calls the enumeration code makes on the pool: `AllocAddress`,
`FreeAddress` and the two writes through `GetUsbDevicePtr`. A call that allocates names a hub the
pool holds, as `USBHub` does when it passes its own number on, and a port that is not taken.
Calls that free need no promise.
-/

namespace MouseAide.Host

open MouseAide.Base UsbDeviceAddress

/-- A call on the address pool. -/
inductive PoolCall where
  | alloc (parent : UInt8) (isHub : Bool) (port : UInt8)
  | free (addr : UInt8)
  | setEpInfoEntry (addr epcount : UInt8) (eprecord : EpPtr)
  | setLowspeed (addr : UInt8) (lowspeed : Bool)
  deriving DecidableEq, Repr

namespace AddressPool

variable {n : Nat}

/-- One call, with the address it returns; `none` if the call does not return. -/
def call (p : AddressPool n) : PoolCall → Option (AddressPool n × List UInt8)
  | .alloc parent isHub port =>
    let r := p.allocAddress parent isHub port
    some (r.1, [r.2])
  | .free addr => (p.freeAddress addr).map fun p ↦ (p, [])
  | .setEpInfoEntry addr epcount eprecord => some (p.setEpInfoEntry addr epcount eprecord, [])
  | .setLowspeed addr lowspeed => some (p.setLowspeed addr lowspeed, [])

/-- The pool as a machine; once a call has not returned, nothing more happens. -/
def machine (n : Nat) : Machine (Option (AddressPool n)) PoolCall UInt8 where
  init := some (init n)
  step s c :=
    match s.bind (·.call c) with
    | some (p, out) => (some p, out)
    | none => (none, [])

/-- What callers promise: a device is plugged into the shield or into a hub in the pool, and
the address its place stands for is not taken. A hub below another gets a new number instead. -/
def Sound (p : AddressPool n) : PoolCall → Prop
  | .alloc parent isHub port =>
    (parent ≠ 0 → ∃ k, (p.addressAt k).bmHub = true ∧
      (p.addressAt k).bmAddress = (ofByte parent).bmAddress) ∧
    (isHub = true ∧ parent ≠ 0 ∨ ∀ i, p.addressAt i ≠ p.newAddress parent isHub port)
  | _ => True

instance (p : AddressPool n) (c : PoolCall) : Decidable (Sound p c) := by
  cases c <;> unfold Sound <;> infer_instance

/-- What every run keeps: a forest of hubs with distinct numbers up to the counter, no orphan,
no address twice, and unused entries as the constructor left them. -/
structure Tree (p : AddressPool n) : Prop where
  root : p.addressAt 0 = ofByte 0
  counter_le : p.hubCounter ≤ 7
  hub_ne_zero : ∀ i, (p.addressAt i).bmHub = true → (p.addressAt i).bmAddress ≠ 0
  hub_le : ∀ i, (p.addressAt i).bmHub = true → (p.addressAt i).bmAddress.val ≤ p.hubCounter
  hub_inj : ∀ i j, (p.addressAt i).bmHub = true → (p.addressAt j).bmHub = true →
    (p.addressAt i).bmAddress = (p.addressAt j).bmAddress → i = j
  parent_lt : ∀ i, (p.addressAt i).bmHub = true →
    (p.addressAt i).bmParent < (p.addressAt i).bmAddress
  parent_live : ∀ j, (p.addressAt j).bmParent ≠ 0 → ∃ k, p.Child k j
  addr_inj : ∀ i j, p.addressAt i ≠ ofByte 0 → p.addressAt i = p.addressAt j → i = j
  reserved : ∀ i, (p.addressAt i).bmReserved = false
  unused : ∀ i, i ≠ 0 → p.addressAt i = ofByte 0 → p.thePool i = .free

/-- The invariant bounds the recursion of `FreeAddressByIndex`. -/
theorem Tree.hierarchy {p : AddressPool n} (h : Tree p) : Hierarchy p where
  root := by rw [h.root]; decide
  hub_ne_zero := h.hub_ne_zero
  parent_lt := h.parent_lt

/-- Writes that leave every address alone keep the tree, if unused entries stay unused. -/
theorem Tree.of_address_eq {p p' : AddressPool n} (h : Tree p)
    (hc : p'.hubCounter = p.hubCounter) (ha : ∀ i, p'.addressAt i = p.addressAt i)
    (hu : ∀ i, i ≠ 0 → p.addressAt i = ofByte 0 → p'.thePool i = p.thePool i) : Tree p' := by
  constructor <;> try simp only [ha, hc, Child]
  · exact h.root
  · exact h.counter_le
  · exact h.hub_ne_zero
  · exact h.hub_le
  · exact h.hub_inj
  · exact h.parent_lt
  · exact h.parent_live
  · exact h.addr_inj
  · exact h.reserved
  · intro i hi hfree
    rw [hu i hi hfree]
    exact h.unused i hi hfree

/-- Freeing a set closed under children keeps the tree. -/
theorem Tree.freed {p p' : AddressPool n} {S : Set (Fin (n + 1))} (h : Tree p)
    (hS : Hereditary p.Child S) (h0 : (0 : Fin (n + 1)) ∉ S) (hf : Freed p S p') : Tree p' := by
  have hin : ∀ i ∈ S, p'.addressAt i = ofByte 0 := fun i hi ↦ congrArg _ (hf.freed i hi)
  have hout : ∀ i ∉ S, p'.addressAt i = p.addressAt i := fun i hi ↦ congrArg _ (hf.kept i hi)
  have hhub : ∀ i, (p'.addressAt i).bmHub = true → i ∉ S := by
    intro i hh hi
    rw [hin i hi] at hh
    exact absurd hh (by decide)
  constructor
  · rw [hout 0 h0]
    exact h.root
  · exact hf.counter_le.trans h.counter_le
  · intro i hi
    have hiS := hhub i hi
    rw [hout i hiS] at hi ⊢
    exact h.hub_ne_zero i hi
  · intro i hi
    have hiS := hhub i hi
    rw [hout i hiS] at hi ⊢
    by_contra hlt
    obtain ⟨j, hj, hjhub, hnum⟩ := hf.passed _ (not_le.mp hlt) (h.hub_le i hi)
    exact hiS (h.hub_inj j i hjhub hi (Fin.ext hnum) ▸ hj)
  · intro i j hi hj
    have hiS := hhub i hi
    have hjS := hhub j hj
    rw [hout i hiS] at hi ⊢
    rw [hout j hjS] at hj ⊢
    exact h.hub_inj i j hi hj
  · intro i hi
    have hiS := hhub i hi
    rw [hout i hiS] at hi ⊢
    exact h.parent_lt i hi
  · intro j hj
    have hjS : j ∉ S := by
      intro hjS
      rw [hin j hjS] at hj
      exact hj (by decide)
    rw [hout j hjS] at hj
    obtain ⟨k, hk⟩ := h.parent_live j hj
    have hkS : k ∉ S := fun hkS ↦ hjS (hS k hkS j hk)
    exact ⟨k, (hf.pruned h.hierarchy k j).mpr ⟨hk, hkS, hjS⟩⟩
  · intro i j hi heq
    have hiS : i ∉ S := fun hiS ↦ hi (hin i hiS)
    have hjS : j ∉ S := fun hjS ↦ hi (heq.trans (hin j hjS))
    rw [hout i hiS] at hi heq
    rw [hout j hjS] at heq
    exact h.addr_inj i j hi heq
  · intro i
    by_cases hi : i ∈ S
    · rw [hin i hi]
      decide
    · rw [hout i hi]
      exact h.reserved i
  · intro i hi0 hfree
    by_cases hi : i ∈ S
    · exact hf.freed i hi
    · rw [hout i hi] at hfree
      rw [hf.kept i hi]
      exact h.unused i hi0 hfree

/-! ### Allocation -/

/-- The pool with a new device in the unused entry `i`. -/
def plug (p : AddressPool n) (i : Fin (n + 1)) (hubCounter : Nat) (addr : UsbDeviceAddress) :
    AddressPool n :=
  { p with hubCounter }.set i { p.thePool i with address := addr }

@[simp] theorem plug_hubCounter (p : AddressPool n) (i : Fin (n + 1)) (c : Nat)
    (addr : UsbDeviceAddress) : (p.plug i c addr).hubCounter = c := rfl

@[simp] theorem plug_addressAt_self (p : AddressPool n) (i : Fin (n + 1)) (c : Nat)
    (addr : UsbDeviceAddress) : (p.plug i c addr).addressAt i = addr := by
  simp [plug, addressAt]

theorem plug_thePool_of_ne (p : AddressPool n) {i j : Fin (n + 1)} (c : Nat)
    (addr : UsbDeviceAddress) (h : j ≠ i) : (p.plug i c addr).thePool j = p.thePool j :=
  Function.update_of_ne h _ _

theorem plug_addressAt_of_ne (p : AddressPool n) {i j : Fin (n + 1)} (c : Nat)
    (addr : UsbDeviceAddress) (h : j ≠ i) : (p.plug i c addr).addressAt j = p.addressAt j :=
  congrArg _ (plug_thePool_of_ne p c addr h)

/-- `AllocAddress` fails and changes nothing, or plugs the new device into the first unused
entry. -/
theorem allocAddress_cases (p : AddressPool n) (parent : UInt8) (isHub : Bool) (port : UInt8) :
    (p.allocAddress parent isHub port = (p, 0) ∧
      ((ofByte parent).bmReserved = true ∨ 7 < port ∨ isHub = true ∧ p.hubCounter = 7 ∨
        ∀ i, i ≠ 0 → p.addressAt i ≠ ofByte 0)) ∨
    ∃ i, i ≠ 0 ∧ p.addressAt i = ofByte 0 ∧ (∀ j, j ≠ 0 → p.addressAt j = ofByte 0 → i ≤ j) ∧
      (ofByte parent).bmReserved = false ∧ port ≤ 7 ∧ ¬ (isHub = true ∧ p.hubCounter = 7) ∧
      p.allocAddress parent isHub port =
        (p.plug i (p.countHub isHub) (p.newAddress parent isHub port),
          (p.newAddress parent isHub port).devAddress) := by
  unfold allocAddress
  by_cases hbad : ((ofByte parent).bmReserved || decide (port > 7)) = true
  · rw [if_pos hbad]
    simp only [Bool.or_eq_true, decide_eq_true_eq] at hbad
    exact Or.inl ⟨rfl, hbad.elim Or.inl fun h ↦ Or.inr (Or.inl h)⟩
  · rw [if_neg hbad]
    simp only [Bool.or_eq_true, decide_eq_true_eq, not_or, Bool.not_eq_true] at hbad
    by_cases hfull : (isHub && p.hubCounter == 7) = true
    · rw [if_pos hfull]
      simp only [Bool.and_eq_true, beq_iff_eq] at hfull
      exact Or.inl ⟨rfl, Or.inr (Or.inr (Or.inl hfull))⟩
    · rw [if_neg hfull]
      simp only [Bool.and_eq_true, beq_iff_eq] at hfull
      have hindex : ∀ j : Fin (n + 1), j ≠ 0 → 1 ≤ j.val := fun j hj ↦
        Nat.one_le_iff_ne_zero.mpr (Fin.val_ne_zero_iff.mpr hj)
      by_cases h0 : p.findAddressIndex 0 = 0
      · refine Or.inl ⟨if_pos h0, Or.inr (Or.inr (Or.inr fun i hi ↦ ?_))⟩
        have hq := (firstIndex_eq_zero le_rfl).mp h0 i (hindex i hi)
        exact fun h ↦ (beq_eq_false_iff_ne.mp hq) (devAddress_eq_iff.mpr h)
      · obtain ⟨-, hq, hmin⟩ := firstIndex_spec h0
        refine Or.inr ⟨p.findAddressIndex 0, h0, devAddress_eq_iff.mp (beq_iff_eq.mp hq),
          fun j hj hfree ↦ hmin j (hindex j hj) (beq_iff_eq.mpr (devAddress_eq_iff.mpr hfree)),
          hbad.1, UInt8.not_lt.mp hbad.2, hfull, if_neg h0⟩

/-- A device with a new address and a parent in the pool keeps the tree; a hub must bring a new
number, above its parent's and within the counter. -/
theorem Tree.plug {p : AddressPool n} (h : Tree p) {i : Fin (n + 1)} (hi : i ≠ 0)
    {c : Nat} {addr : UsbDeviceAddress} (hfree : p.addressAt i = ofByte 0)
    (hle : p.hubCounter ≤ c) (hmax : c ≤ 7) (hres : addr.bmReserved = false)
    (hparent : addr.bmParent ≠ 0 → ∃ k, (p.addressAt k).bmHub = true ∧
      (p.addressAt k).bmAddress = addr.bmParent)
    (hnew : ∀ j, p.addressAt j ≠ addr)
    (hhub : addr.bmHub = true → addr.bmParent < addr.bmAddress ∧ addr.bmAddress.val ≤ c ∧
      ∀ j, (p.addressAt j).bmHub = true → (p.addressAt j).bmAddress ≠ addr.bmAddress) :
    Tree (p.plug i c addr) := by
  have hself := plug_addressAt_self p i c addr
  have hother : ∀ j, j ≠ i → (p.plug i c addr).addressAt j = p.addressAt j :=
    fun j ↦ plug_addressAt_of_ne p c addr
  -- the entry was no hub before, so every old hub is another entry
  have hne : ∀ k, (p.addressAt k).bmHub = true → k ≠ i := by
    rintro k hk rfl
    rw [hfree] at hk
    exact absurd hk (by decide)
  constructor
  · rw [hother 0 hi.symm]
    exact h.root
  · exact hmax
  · intro j hj
    by_cases hji : j = i
    · subst hji
      rw [hself] at hj ⊢
      exact ((Fin.zero_le _).trans_lt (hhub hj).1).ne'
    · rw [hother j hji] at hj ⊢
      exact h.hub_ne_zero j hj
  · intro j hj
    by_cases hji : j = i
    · subst hji
      rw [hself] at hj ⊢
      exact (hhub hj).2.1
    · rw [hother j hji] at hj ⊢
      exact (h.hub_le j hj).trans hle
  · intro j k hj hk
    by_cases hji : j = i <;> by_cases hki : k = i
    · rw [hji, hki]
      exact fun _ ↦ rfl
    · rw [hji, hself] at hj ⊢
      rw [hother k hki] at hk ⊢
      exact fun heq ↦ absurd heq.symm ((hhub hj).2.2 k hk)
    · rw [hki, hself] at hk ⊢
      rw [hother j hji] at hj ⊢
      exact fun heq ↦ absurd heq ((hhub hk).2.2 j hj)
    · rw [hother j hji] at hj ⊢
      rw [hother k hki] at hk ⊢
      exact h.hub_inj j k hj hk
  · intro j hj
    by_cases hji : j = i
    · rw [hji, hself] at hj ⊢
      exact (hhub hj).1
    · rw [hother j hji] at hj ⊢
      exact h.parent_lt j hj
  · intro j hj
    have hex : ∃ k, (p.addressAt k).bmHub = true ∧
        ((p.plug i c addr).addressAt j).bmParent = (p.addressAt k).bmAddress := by
      by_cases hji : j = i
      · rw [hji, hself] at hj ⊢
        obtain ⟨k, hk, hnum⟩ := hparent hj
        exact ⟨k, hk, hnum.symm⟩
      · rw [hother j hji] at hj ⊢
        exact h.parent_live j hj
    obtain ⟨k, hk, hnum⟩ := hex
    refine ⟨k, ?_⟩
    rw [Child, hother k (hne k hk)]
    exact ⟨hk, hnum⟩
  · intro j k hj heq
    by_cases hji : j = i <;> by_cases hki : k = i
    · rw [hji, hki]
    · rw [hji, hself, hother k hki] at heq
      exact absurd heq.symm (hnew k)
    · rw [hki, hself, hother j hji] at heq
      exact absurd heq (hnew j)
    · rw [hother j hji] at hj heq
      rw [hother k hki] at heq
      exact h.addr_inj j k hj heq
  · intro j
    by_cases hji : j = i
    · rw [hji, hself]
      exact hres
    · rw [hother j hji]
      exact h.reserved j
  · intro j hj hunused
    have hji : j ≠ i := by
      rintro rfl
      rw [hself] at hunused
      exact hnew 0 (h.root.trans hunused.symm)
    rw [hother j hji] at hunused
    rw [plug_thePool_of_ne p c addr hji]
    exact h.unused j hj hunused

/-- The new address is a hub's exactly when a hub asks, and never reserved. -/
@[simp] theorem newAddress_bmHub (p : AddressPool n) (parent : UInt8) (isHub : Bool)
    (port : UInt8) : (p.newAddress parent isHub port).bmHub = isHub := by
  unfold newAddress
  split
  · cases isHub <;> decide
  · rfl

@[simp] theorem newAddress_bmReserved (p : AddressPool n) (parent : UInt8) (isHub : Bool)
    (port : UInt8) : (p.newAddress parent isHub port).bmReserved = false := by
  unfold newAddress
  split
  · cases isHub <;> decide
  · rfl

/-- A device on the shield itself has no parent, another has its hub. -/
theorem newAddress_bmParent_zero (p : AddressPool n) (isHub : Bool) (port : UInt8) :
    (p.newAddress 0 isHub port).bmParent = 0 := by
  rw [newAddress, if_pos rfl]
  cases isHub <;> decide

theorem newAddress_bmParent {p : AddressPool n} {parent : UInt8} (hp : parent ≠ 0)
    (isHub : Bool) (port : UInt8) :
    (p.newAddress parent isHub port).bmParent = (ofByte parent).bmAddress := by
  rw [newAddress, if_neg hp]

/-- A hub below another hub takes the next number. -/
theorem newAddress_bmAddress_hub {p : AddressPool n} {parent : UInt8} (hp : parent ≠ 0)
    (port : UInt8) (hc : p.hubCounter < 7) :
    (p.newAddress parent true port).bmAddress.val = p.hubCounter + 1 := by
  simp only [newAddress, if_neg hp, if_true, countHub, Fin.val_ofNat]
  omega

/-- No hub in the pool has the number of the hub to come. -/
theorem Tree.newAddress_hub {p : AddressPool n} (h : Tree p) {parent port : UInt8}
    (hs : Sound p (.alloc parent true port)) (hc : p.hubCounter < 7) :
    (p.newAddress parent true port).bmParent < (p.newAddress parent true port).bmAddress ∧
      (p.newAddress parent true port).bmAddress.val ≤ p.countHub true ∧
      ∀ j, (p.addressAt j).bmHub = true →
        (p.addressAt j).bmAddress ≠ (p.newAddress parent true port).bmAddress := by
  have hcount : p.countHub true = p.hubCounter + 1 := by
    simp only [countHub, if_true]
    omega
  by_cases hp : parent = 0
  · subst hp
    have haddr : p.newAddress 0 true port = ofByte 0x41 := if_pos rfl
    have hone : (ofByte 0x41).bmAddress = 1 := by decide
    rw [haddr, hone, hcount]
    refine ⟨by decide, by simp, fun j hj hnum ↦ ?_⟩
    -- a hub numbered 1 hangs off the shield itself, so it has the very address asked for
    have hroot := h.parent_lt j hj
    rw [hnum] at hroot
    have hparent : (p.addressAt j).bmParent = 0 := Fin.lt_one_iff _ |>.mp hroot
    refine (hs.2.resolve_left fun hn ↦ hn.2 rfl) j ?_
    rw [haddr]
    calc p.addressAt j
        = ⟨(p.addressAt j).bmAddress, (p.addressAt j).bmParent, (p.addressAt j).bmHub,
            (p.addressAt j).bmReserved⟩ := rfl
      _ = ofByte 0x41 := by rw [hnum, hparent, hj, h.reserved j]; decide
  · have hnum := newAddress_bmAddress_hub (p := p) hp port hc
    obtain ⟨k, hk, hkn⟩ := hs.1 hp
    have hkle := h.hub_le k hk
    refine ⟨?_, by rw [hnum, hcount], fun j hj heq ↦ ?_⟩
    · rw [Fin.lt_def, hnum, newAddress_bmParent hp, ← hkn]
      omega
    · have hjle := h.hub_le j hj
      rw [heq, hnum] at hjle
      omega

/-- What a sound allocation gives its device: a parent in the pool and an address of its own. -/
theorem Tree.newAddress_fresh {p : AddressPool n} (h : Tree p) {parent port : UInt8}
    {isHub : Bool} (hs : Sound p (.alloc parent isHub port))
    (hc : ¬ (isHub = true ∧ p.hubCounter = 7)) (j : Fin (n + 1)) :
    p.addressAt j ≠ p.newAddress parent isHub port := by
  rcases hs.2 with ⟨rfl, -⟩ | hfresh
  · intro heq
    have hc' := h.counter_le
    refine (h.newAddress_hub hs (by grind)).2.2 j ?_ (congrArg _ heq)
    rw [heq, newAddress_bmHub]
  · exact hfresh j

/-- Allocation keeps the tree. -/
theorem Tree.allocAddress {p : AddressPool n} (h : Tree p) {parent port : UInt8} {isHub : Bool}
    (hs : Sound p (.alloc parent isHub port)) :
    Tree (p.allocAddress parent isHub port).1 := by
  rcases allocAddress_cases p parent isHub port with
    ⟨hfail, -⟩ | ⟨i, hi, hfree, -, -, -, hc, hok⟩
  · rw [hfail]
    exact h
  · have hmax := h.counter_le
    have hcount : p.countHub isHub = p.hubCounter + isHub.toNat := by
      cases isHub
      · rfl
      · simp only [countHub, if_true, Bool.toNat_true]
        omega
    rw [hok]
    apply h.plug hi hfree
    · omega
    · cases isHub <;> simp only [Bool.toNat_true, Bool.toNat_false] at hcount <;> grind
    · exact newAddress_bmReserved p parent isHub port
    · intro hpar
      by_cases hp : parent = 0
      · rw [hp, newAddress_bmParent_zero] at hpar
        exact absurd rfl hpar
      · rw [newAddress_bmParent hp]
        exact hs.1 hp
    · exact h.newAddress_fresh hs hc
    · intro hhub
      rw [newAddress_bmHub] at hhub
      subst hhub
      exact h.newAddress_hub hs (by grind)

/-! ### Freeing -/

private theorem Tree.ne_zero {p : AddressPool n} (h : Tree p) {i : Fin (n + 1)} {addr : UInt8}
    (h0 : addr ≠ 0) (hi : p.addressAt i = ofByte addr) : i ≠ 0 := by
  rintro rfl
  rw [h.root, ← devAddress_eq_iff, devAddress_ofByte] at hi
  exact h0 hi.symm

/-- The search for an address in use finds its one entry. -/
theorem Tree.findAddressIndex {p : AddressPool n} (h : Tree p) {i : Fin (n + 1)} {addr : UInt8}
    (h0 : addr ≠ 0) (hi : p.addressAt i = ofByte addr) : p.findAddressIndex addr = i := by
  have hi0 := h.ne_zero h0 hi
  have hfound : p.findAddressIndex addr ≠ 0 := by
    intro hnone
    have hq := (firstIndex_eq_zero le_rfl).mp hnone i
      (Nat.one_le_iff_ne_zero.mpr (Fin.val_ne_zero_iff.mpr hi0))
    exact (beq_eq_false_iff_ne.mp hq) (devAddress_eq_iff.mpr hi)
  obtain ⟨-, hq, -⟩ := firstIndex_spec hfound
  have hat : p.addressAt (p.findAddressIndex addr) = ofByte addr :=
    devAddress_eq_iff.mp (beq_iff_eq.mp hq)
  refine h.addr_inj _ _ ?_ (hat.trans hi.symm)
  rw [hat]
  intro heq
  rw [← devAddress_eq_iff, devAddress_ofByte] at heq
  exact h0 heq

/-- `FreeAddress` of an address in use returns, having freed its subtree and nothing else. -/
theorem Tree.freeAddress_used {p : AddressPool n} (h : Tree p) {i : Fin (n + 1)} {addr : UInt8}
    (h0 : addr ≠ 0) (hroot : addr ≠ 0x41) (hi : p.addressAt i = ofByte addr) :
    ∃ p', p.freeAddress addr = some p' ∧ Freed p (subtree p.Child i) p' := by
  rw [freeAddress, if_neg hroot, h.findAddressIndex h0 hi]
  exact freeAddressByIndex_spec h.hierarchy (h.ne_zero h0 hi) le_rfl

/-- `FreeAddress` of an address not in use, or of no address, changes nothing. -/
theorem Tree.freeAddress_unused {p : AddressPool n} (h : Tree p) {addr : UInt8}
    (hroot : addr ≠ 0x41) (hno : addr = 0 ∨ ∀ i, p.addressAt i ≠ ofByte addr) :
    p.freeAddress addr = some p := by
  rw [freeAddress, if_neg hroot, freeFuel]
  by_cases hfound : p.findAddressIndex addr = 0
  · rw [hfound]
    rfl
  · obtain ⟨-, hq, -⟩ := firstIndex_spec hfound
    have hat : p.addressAt (p.findAddressIndex addr) = ofByte addr :=
      devAddress_eq_iff.mp (beq_iff_eq.mp hq)
    rcases hno with rfl | hno
    · -- the search for 0 hits an unused entry, which is initialised once more
      have hleaf : ¬ (p.addressAt (p.findAddressIndex 0)).bmHub = true := by rw [hat]; decide
      rw [freeAddressByIndex, if_neg hfound]
      refine (if_neg hleaf).trans (congrArg some ?_)
      rw [initEntry, set, ← h.unused _ hfound hat, Function.update_eq_self]
    · exact absurd hat (hno _)

/-- An emptied pool holds no address. -/
theorem initAllAddresses_addressAt {p : AddressPool n} (h : p.addressAt 0 = ofByte 0)
    (i : Fin (n + 1)) : p.initAllAddresses.addressAt i = ofByte 0 := by
  simp only [initAllAddresses, addressAt]
  split
  · exact h
  · rfl

/-- An emptied pool is a tree. -/
theorem tree_initAllAddresses {p : AddressPool n} (h : p.addressAt 0 = ofByte 0) :
    Tree p.initAllAddresses := by
  have hall := initAllAddresses_addressAt h
  have hhub : ∀ i, ¬ (p.initAllAddresses.addressAt i).bmHub = true := fun i ↦ by
    rw [hall]
    decide
  constructor
  · exact hall 0
  · exact Nat.zero_le 7
  · exact fun i hi ↦ absurd hi (hhub i)
  · exact fun i hi ↦ absurd hi (hhub i)
  · exact fun i _ hi ↦ absurd hi (hhub i)
  · exact fun i hi ↦ absurd hi (hhub i)
  · intro j hj
    rw [hall] at hj
    exact absurd rfl hj
  · exact fun i _ hi ↦ absurd (hall i) hi
  · intro i
    rw [hall]
    decide
  · exact fun i hi _ ↦ if_neg hi

/-- The subtree of an address in use does not hold the unaddressed device. -/
theorem Tree.zero_notMem_subtree {p : AddressPool n} (h : Tree p) {i : Fin (n + 1)} (hi : i ≠ 0) :
    (0 : Fin (n + 1)) ∉ subtree p.Child i := by
  rw [mem_subtree_iff]
  rintro (h0 | hbelow)
  · exact hi h0.symm
  · obtain ⟨j, -, hj⟩ := Relation.TransGen.tail'_iff.mp hbelow
    exact h.hierarchy.ne_zero hj rfl

/-- `FreeAddress` always returns, and keeps the tree. -/
theorem Tree.freeAddress {p : AddressPool n} (h : Tree p) (addr : UInt8) :
    ∃ p', p.freeAddress addr = some p' ∧ Tree p' := by
  by_cases hroot : addr = 0x41
  · exact ⟨_, if_pos hroot, tree_initAllAddresses h.root⟩
  by_cases hno : addr = 0 ∨ ∀ i, p.addressAt i ≠ ofByte addr
  · exact ⟨p, h.freeAddress_unused hroot hno, h⟩
  · rw [not_or, not_forall] at hno
    obtain ⟨h0, i, hi⟩ := hno
    rw [not_not] at hi
    obtain ⟨p', hrun, hfreed⟩ := h.freeAddress_used h0 hroot hi
    exact ⟨p', hrun, h.freed (hereditary_subtree _ _)
      (h.zero_notMem_subtree (h.ne_zero h0 hi)) hfreed⟩

/-! ### Every call, every run -/

/-- `GetUsbDevicePtr` points to the entry that holds the address. -/
theorem Tree.getUsbDevicePtr_eq_some_iff {p : AddressPool n} (h : Tree p) {addr : UInt8}
    {i : Fin (n + 1)} : p.getUsbDevicePtr addr = some i ↔
      p.addressAt i = ofByte addr ∧ (addr = 0 → i = 0) := by
  by_cases h0 : addr = 0
  · subst h0
    simp only [getUsbDevicePtr, if_true, Option.some.injEq, true_imp_iff]
    constructor
    · rintro rfl
      exact ⟨h.root, rfl⟩
    · exact fun hi ↦ hi.2.symm
  · rw [getUsbDevicePtr, if_neg h0]
    refine Iff.trans ?_ (and_iff_left fun hz ↦ absurd hz h0).symm
    constructor
    · intro hsome
      dsimp only at hsome
      split at hsome
      · exact absurd hsome (by simp)
      · next hfound =>
        obtain ⟨-, hq, -⟩ := firstIndex_spec hfound
        rw [← Option.some.inj hsome]
        exact devAddress_eq_iff.mp (beq_iff_eq.mp hq)
    · intro hi
      rw [h.findAddressIndex h0 hi]
      exact if_neg (h.ne_zero h0 hi)

/-- A write through `GetUsbDevicePtr` that leaves the address alone keeps every address. -/
theorem Tree.addressAt_write {p : AddressPool n} (h : Tree p) {addr : UInt8} {i : Fin (n + 1)}
    (hi : p.getUsbDevicePtr addr = some i) {d : UsbDevice} (hd : d.address = ofByte addr)
    (j : Fin (n + 1)) : (p.set i d).addressAt j = p.addressAt j := by
  by_cases hj : j = i
  · rw [hj, (h.getUsbDevicePtr_eq_some_iff.mp hi).1, ← hd, addressAt, set_thePool,
      Function.update_self]
  · rw [addressAt, set_thePool, Function.update_of_ne hj]
    rfl

/-- Such a write keeps the tree. -/
private theorem Tree.write {p : AddressPool n} (h : Tree p) {addr : UInt8} {i : Fin (n + 1)}
    (hi : p.getUsbDevicePtr addr = some i) {d : UsbDevice} (hd : d.address = ofByte addr) :
    Tree (p.set i d) := by
  refine h.of_address_eq (set_hubCounter p i d) (h.addressAt_write hi hd) ?_
  intro j hj hfree
  refine Function.update_of_ne ?_ _ _
  rintro rfl
  obtain ⟨hat, hzero⟩ := h.getUsbDevicePtr_eq_some_iff.mp hi
  rw [hat, ← devAddress_eq_iff, devAddress_ofByte] at hfree
  exact hj (hzero hfree)

/-- `setEpInfoEntry` keeps the tree. -/
theorem Tree.setEpInfoEntry {p : AddressPool n} (h : Tree p) (addr epcount : UInt8)
    (eprecord : EpPtr) : Tree (p.setEpInfoEntry addr epcount eprecord) := by
  unfold AddressPool.setEpInfoEntry
  split
  · exact h
  · next hi => exact h.write hi rfl

/-- Setting the speed of a device keeps the tree. -/
theorem Tree.setLowspeed {p : AddressPool n} (h : Tree p) (addr : UInt8) (lowspeed : Bool) :
    Tree (p.setLowspeed addr lowspeed) := by
  unfold AddressPool.setLowspeed
  split
  · exact h
  · next hi => exact h.write hi (h.getUsbDevicePtr_eq_some_iff.mp hi).1

/-- A sound call on a tree returns, and leaves a tree. -/
theorem Tree.call {p : AddressPool n} (h : Tree p) {c : PoolCall} (hs : Sound p c) :
    ∃ p' out, p.call c = some (p', out) ∧ Tree p' := by
  cases c with
  | alloc parent isHub port => exact ⟨_, _, rfl, h.allocAddress hs⟩
  | free addr =>
    obtain ⟨p', hrun, hp'⟩ := h.freeAddress addr
    exact ⟨p', [], by rw [AddressPool.call, hrun, Option.map_some], hp'⟩
  | setEpInfoEntry addr epcount eprecord => exact ⟨_, _, rfl, h.setEpInfoEntry _ _ _⟩
  | setLowspeed addr lowspeed => exact ⟨_, _, rfl, h.setLowspeed _ _⟩

/-- The constructor leaves a tree. -/
theorem tree_init : Tree (init n) := by
  have hinit : (init n).initAllAddresses = init n := by simp [init, initAllAddresses]
  rw [← hinit]
  exact tree_initAllAddresses rfl

/-- A call of the run is sound in the pool it finds. -/
def SoundStep (s : Option (AddressPool n)) (_ : List UInt8) (c : PoolCall) : Prop :=
  ∀ p ∈ s, Sound p c

instance (s : Option (AddressPool n)) (o : List UInt8) (c : PoolCall) :
    Decidable (SoundStep s o c) := by
  unfold SoundStep
  infer_instance

/-- The pool of a run is there and is a tree. -/
def Treed (s : Option (AddressPool n)) (_ : List UInt8) : Prop := ∃ p, s = some p ∧ Tree p

private theorem treed_step (s : Option (AddressPool n)) (o : List UInt8) (c : PoolCall)
    (h : Treed s o) (hs : SoundStep s o c) :
    Treed ((machine n).step s c).1 (o ++ ((machine n).step s c).2) := by
  obtain ⟨p, rfl, hp⟩ := h
  obtain ⟨p', out, hcall, hp'⟩ := hp.call (hs p rfl)
  exact ⟨p', by simp only [machine, Option.bind_some, hcall], hp'⟩

/-- After a run of sound calls, each call has returned and the pool is a tree. -/
theorem tree_of_meets {calls : List PoolCall} (h : (machine n).Meets SoundStep calls) :
    Treed ((machine n).state calls) ((machine n).trace calls) :=
  Machine.invariant ⟨init n, rfl, tree_init⟩ treed_step h

/-- At every moment of a run of sound calls, each call has returned and the pool is a tree: no
address twice, hub numbers distinct and at most 7, no device whose hub is gone. -/
theorem always_treed {calls : List PoolCall} (h : (machine n).Meets SoundStep calls) :
    (machine n).Always Treed calls := fun _ hp ↦ tree_of_meets (h.of_prefix hp)

/-- A root hub with a device on its port 2 is such a run. -/
theorem always_treed_hub : (machine 3).Always Treed [.alloc 0 true 0, .alloc 1 false 2] :=
  always_treed (by decide +kernel)

end AddressPool

end MouseAide.Host
