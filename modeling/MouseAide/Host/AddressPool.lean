import MouseAide.Base.Cascade
import Mathlib.Data.Fin.Tuple.Basic
import Mathlib.Data.UInt

/-!
# The address pool of the host shield

Library `MouseHost`. `USB_Host_Shield_2.0/address.h:26–281` for any pool size up to 255, and the
two fields `Usb.cpp` and the drivers write through `GetUsbDevicePtr`. Index 0 stands for the
device that has no address yet. A hub is freed with everything plugged in below it, by a
recursion that looks for children in the pool itself; nothing in the source bounds that
recursion, so it runs on fuel here.
-/

namespace MouseAide.Host

open MouseAide.Base

/-- `EpInfo`, `address.h:32–45`. -/
structure EpInfo where
  epAddr : UInt8
  maxPktSize : UInt8
  bmSndToggle : Bool
  bmRcvToggle : Bool
  bmNakPower : Fin 64
  deriving DecidableEq, Repr

/-- What the `epinfo` pointer of a pool entry is ever set to: nothing, the record the pool shares
among entries in use by nobody, the local record of `USB::Configuring`, or a driver's table. -/
inductive EpPtr where
  | null
  | dev0ep
  | configuring
  | driver (slot : Fin 16)
  deriving DecidableEq, Repr

/-- `UsbDeviceAddress`, `address.h:57–69`: the bit-field view of the union. -/
structure UsbDeviceAddress where
  bmAddress : Fin 8
  bmParent : Fin 8
  bmHub : Bool
  bmReserved : Bool
  deriving DecidableEq, Repr

namespace UsbDeviceAddress

/-- The byte view `devAddress` of the union. -/
def devAddress (a : UsbDeviceAddress) : UInt8 :=
  UInt8.ofNat (a.bmAddress + 8 * a.bmParent + 64 * a.bmHub.toNat + 128 * a.bmReserved.toNat)

/-- The bit fields of a byte stored through `devAddress`. -/
def ofByte (b : UInt8) : UsbDeviceAddress where
  bmAddress := Fin.ofNat 8 b.toNat
  bmParent := Fin.ofNat 8 (b.toNat / 8)
  bmHub := b.toNat / 64 % 2 == 1
  bmReserved := b.toNat / 128 == 1

private theorem toNat_devAddress (a : UsbDeviceAddress) : a.devAddress.toNat =
    a.bmAddress + 8 * a.bmParent + 64 * a.bmHub.toNat + 128 * a.bmReserved.toNat := by
  have hh := Bool.toNat_lt a.bmHub
  have hr := Bool.toNat_lt a.bmReserved
  rw [devAddress, UInt8.toNat_ofNat']
  omega

/-- Reading the bit fields back from the byte. -/
@[simp] theorem ofByte_devAddress (a : UsbDeviceAddress) : ofByte a.devAddress = a := by
  have ha := toNat_devAddress a
  obtain ⟨num, parent, hub, reserved⟩ := a
  cases hub <;> cases reserved <;>
    simp only [Bool.toNat_true, Bool.toNat_false] at ha <;>
    simp only [ofByte, mk.injEq, ha, Fin.ext_iff, Fin.val_ofNat, beq_iff_eq,
      beq_eq_false_iff_ne] <;>
    omega

/-- Reading the byte back from the bit fields. -/
@[simp] theorem devAddress_ofByte (b : UInt8) : (ofByte b).devAddress = b := by
  have hb := UInt8.toNat_lt b
  rw [← UInt8.toNat_inj, toNat_devAddress]
  have hbit : ∀ m : Nat, m < 2 → (m == 1).toNat = m := by decide
  simp only [ofByte, Fin.val_ofNat, hbit _ (Nat.mod_lt _ (by omega)),
    hbit (b.toNat / 128) (by omega)]
  omega

/-- The two views of the union determine each other. -/
theorem devAddress_eq_iff {a : UsbDeviceAddress} {b : UInt8} :
    a.devAddress = b ↔ a = ofByte b := by
  constructor
  · rintro rfl
    exact (ofByte_devAddress a).symm
  · rintro rfl
    exact devAddress_ofByte b

end UsbDeviceAddress

open UsbDeviceAddress

/-- `UsbDevice`, `address.h:75–81`. -/
structure UsbDevice where
  epinfo : EpPtr
  address : UsbDeviceAddress
  epcount : UInt8
  lowspeed : Bool
  deriving DecidableEq, Repr

/-- What `InitEntry` stores, `address.h:106–111`. -/
def UsbDevice.free : UsbDevice := ⟨.dev0ep, ofByte 0, 1, false⟩

/-- `AddressPoolImpl`, `address.h:95–102`, for `n + 1` entries. -/
structure AddressPool (n : Nat) where
  hubCounter : Nat
  thePool : Fin (n + 1) → UsbDevice

namespace AddressPool

variable {n : Nat}

/-- The constructor, `address.h:164–177`. -/
def init (n : Nat) : AddressPool n := ⟨0, fun _ ↦ .free⟩

/-- A store through a pointer to entry `i`. -/
def set (p : AddressPool n) (i : Fin (n + 1)) (d : UsbDevice) : AddressPool n :=
  { p with thePool := Function.update p.thePool i d }

/-- `InitEntry`, `address.h:106–111`. -/
def initEntry (p : AddressPool n) (index : Fin (n + 1)) : AddressPool n := p.set index .free

/-- `for (uint8_t i = start; …) if (…) return i; return 0`, shared by the two searches. -/
def firstIndex (q : Fin (n + 1) → Bool) (start : Nat) : Fin (n + 1) :=
  (Fin.find? fun i ↦ decide (start ≤ i.val) && q i).getD 0

/-- `FindAddressIndex`, `address.h:115–121`. -/
def findAddressIndex (p : AddressPool n) (address : UInt8) : Fin (n + 1) :=
  firstIndex (fun i ↦ (p.thePool i).address.devAddress == address) 1

/-- `FindChildIndex`, `address.h:125–131`. -/
def findChildIndex (p : AddressPool n) (addr : UsbDeviceAddress) (start : Nat) : Fin (n + 1) :=
  firstIndex (fun i ↦ (p.thePool i).address.bmParent == addr.bmAddress)
    (if start < 1 ∨ start ≥ n + 1 then 1 else start)

/-- `hubCounter--` when the freed hub had the last number, `address.h:147–148`. -/
def dropHub (p : AddressPool n) (uda : UsbDeviceAddress) : AddressPool n :=
  if p.hubCounter = uda.bmAddress then { p with hubCounter := (p.hubCounter + 255) % 256 } else p

mutual

/-- `FreeAddressByIndex`, `address.h:135–151`; `none` when the fuel runs out. -/
def freeAddressByIndex : Nat → AddressPool n → Fin (n + 1) → Option (AddressPool n)
  | 0, _, _ => none
  | fuel + 1, p, index =>
    if index = 0 then some p
    else
      let uda := (p.thePool index).address
      if uda.bmHub then
        (freeChildren fuel p uda 1).map fun p ↦ (p.dropHub uda).initEntry index
      else some (p.initEntry index)

/-- The loop `for (i = 1; (i = FindChildIndex(uda, i));) FreeAddressByIndex(i)`,
`address.h:143–144`, which goes on from the index just freed. -/
def freeChildren : Nat → AddressPool n → UsbDeviceAddress → Nat → Option (AddressPool n)
  | 0, _, _, _ => none
  | fuel + 1, p, uda, i =>
    let i := p.findChildIndex uda i
    if i = 0 then some p
    else (freeAddressByIndex fuel p i).bind fun p ↦ freeChildren fuel p uda i

end

/-- `InitAllAddresses`, `address.h:155–160`. -/
def initAllAddresses (p : AddressPool n) : AddressPool n :=
  { hubCounter := 0, thePool := fun i ↦ if i = 0 then p.thePool 0 else .free }

/-- `GetUsbDevicePtr`, `address.h:181–188`, as an index. -/
def getUsbDevicePtr (p : AddressPool n) (addr : UInt8) : Option (Fin (n + 1)) :=
  if addr = 0 then some 0
  else
    let index := p.findAddressIndex addr
    if index = 0 then none else some index

/-- `hubCounter` once a hub has taken its number. -/
def countHub (p : AddressPool n) (isHub : Bool) : Nat :=
  if isHub then (p.hubCounter + 1) % 256 else p.hubCounter

/-- The address `AllocAddress` makes up, `address.h:221–241`: a device on the shield itself has
one of two fixed addresses, another carries its hub's number and its own number or port. -/
def newAddress (p : AddressPool n) (parent : UInt8) (isHub : Bool) (port : UInt8) :
    UsbDeviceAddress :=
  if parent = 0 then ofByte (if isHub then 0x41 else 1)
  else
    { bmAddress := if isHub then Fin.ofNat 8 (p.countHub isHub) else Fin.ofNat 8 port.toNat
      bmParent := (ofByte parent).bmAddress
      bmHub := isHub
      bmReserved := false }

/-- `AllocAddress`, `address.h:203–251`; address 0 reports a failure. -/
def allocAddress (p : AddressPool n) (parent : UInt8) (isHub : Bool) (port : UInt8) :
    AddressPool n × UInt8 :=
  if (ofByte parent).bmReserved || port > 7 then (p, 0)
  else if isHub && p.hubCounter == 7 then (p, 0)
  else
    let index := p.findAddressIndex 0
    if index = 0 then (p, 0)
    else
      let addr := p.newAddress parent isHub port
      ({ p with hubCounter := p.countHub isHub }.set index { p.thePool index with address := addr },
        addr.devAddress)

/-- Fuel for a hub whose number is `num`: a round for each entry, for each number above. -/
def hubFuel (n num : Nat) : Nat := (8 - num) * (n + 5)

/-- Enough fuel to free any entry of a pool of `n + 1`. -/
def freeFuel (n : Nat) : Nat := hubFuel n 0 + n + 2

/-- `FreeAddress`, `address.h:255–263`: the root hub empties the pool. -/
def freeAddress (p : AddressPool n) (addr : UInt8) : Option (AddressPool n) :=
  if addr = 0x41 then some p.initAllAddresses
  else freeAddressByIndex (freeFuel n) p (p.findAddressIndex addr)

/-- `USB::setEpInfoEntry`, `Usb.cpp:64–77`, with a non-null record. -/
def setEpInfoEntry (p : AddressPool n) (addr epcount : UInt8) (eprecord : EpPtr) :
    AddressPool n :=
  match p.getUsbDevicePtr addr with
  | none => p
  | some i =>
    p.set i { p.thePool i with epinfo := eprecord, address := ofByte addr, epcount := epcount }

/-- `p->lowspeed = lowspeed` for `p = GetUsbDevicePtr(addr)`. -/
def setLowspeed (p : AddressPool n) (addr : UInt8) (lowspeed : Bool) : AddressPool n :=
  match p.getUsbDevicePtr addr with
  | none => p
  | some i => p.set i { p.thePool i with lowspeed := lowspeed }

/-- `p->epinfo` for `p = GetUsbDevicePtr(0)`. -/
def epinfo (p : AddressPool n) : EpPtr := (p.thePool 0).epinfo

/-- `p->epinfo = epinfo` for `p = GetUsbDevicePtr(0)`. -/
def setEpinfo (p : AddressPool n) (epinfo : EpPtr) : AddressPool n :=
  p.set 0 { p.thePool 0 with epinfo }

/-! ### The two searches -/

/-- A failed search found no match from `start` on. -/
theorem firstIndex_eq_zero {q : Fin (n + 1) → Bool} {start : Nat} (hs : 1 ≤ start) :
    firstIndex q start = 0 ↔ ∀ i : Fin (n + 1), start ≤ i.val → q i = false := by
  unfold firstIndex
  cases hf : Fin.find? fun i ↦ decide (start ≤ i.val) && q i with
  | none =>
    have hnone := Fin.find?_eq_none_iff.mp hf
    refine iff_of_true rfl fun i hi ↦ ?_
    simpa [hi] using hnone i
  | some i =>
    obtain ⟨hi, -⟩ := Fin.find?_eq_some_iff.mp hf
    simp only [Bool.and_eq_true, decide_eq_true_eq] at hi
    refine iff_of_false ?_ fun h ↦ by simp [h i hi.1] at hi
    rintro rfl
    exact absurd (hs.trans hi.1) (by simp)

/-- A successful search found the first match from `start` on. -/
theorem firstIndex_spec {q : Fin (n + 1) → Bool} {start : Nat} (h : firstIndex q start ≠ 0) :
    start ≤ (firstIndex q start).val ∧ q (firstIndex q start) = true ∧
      ∀ j : Fin (n + 1), start ≤ j.val → q j = true → firstIndex q start ≤ j := by
  unfold firstIndex at h ⊢
  cases hf : Fin.find? fun i ↦ decide (start ≤ i.val) && q i with
  | none => simp [hf] at h
  | some i =>
    obtain ⟨hi, hmin⟩ := Fin.find?_eq_some_iff.mp hf
    simp only [Bool.and_eq_true, decide_eq_true_eq] at hi
    refine ⟨hi.1, hi.2, fun j hj hq ↦ ?_⟩
    by_contra hlt
    simpa [hj, hq] using hmin j (by simpa using hlt)

@[simp] theorem set_hubCounter (p : AddressPool n) (i : Fin (n + 1)) (d : UsbDevice) :
    (p.set i d).hubCounter = p.hubCounter := rfl

@[simp] theorem set_thePool (p : AddressPool n) (i : Fin (n + 1)) (d : UsbDevice) :
    (p.set i d).thePool = Function.update p.thePool i d := rfl

@[simp] theorem dropHub_thePool (p : AddressPool n) (uda : UsbDeviceAddress) :
    (p.dropHub uda).thePool = p.thePool := by
  unfold dropHub
  split <;> rfl

/-! ### The hub tree -/

/-- The address entry `i` holds. -/
def addressAt (p : AddressPool n) (i : Fin (n + 1)) : UsbDeviceAddress := (p.thePool i).address

/-- Entry `j` is plugged into the hub at entry `i`. -/
def Child (p : AddressPool n) (i j : Fin (n + 1)) : Prop :=
  (p.addressAt i).bmHub = true ∧ (p.addressAt j).bmParent = (p.addressAt i).bmAddress

/-- What bounds the recursion: hub numbers are not 0 and grow away from the root. -/
structure Hierarchy (p : AddressPool n) : Prop where
  root : (p.addressAt 0).bmParent = 0
  hub_ne_zero : ∀ i, (p.addressAt i).bmHub = true → (p.addressAt i).bmAddress ≠ 0
  parent_lt : ∀ i, (p.addressAt i).bmHub = true →
    (p.addressAt i).bmParent < (p.addressAt i).bmAddress

/-- `p'` is `p` with exactly the entries of `S` freed, and the counter lowered past numbers of
freed hubs only. -/
structure Freed (p : AddressPool n) (S : Set (Fin (n + 1))) (p' : AddressPool n) : Prop where
  freed : ∀ j ∈ S, p'.thePool j = .free
  kept : ∀ j ∉ S, p'.thePool j = p.thePool j
  counter_le : p'.hubCounter ≤ p.hubCounter
  passed : ∀ k, p'.hubCounter < k → k ≤ p.hubCounter →
    ∃ j ∈ S, (p.addressAt j).bmHub = true ∧ (p.addressAt j).bmAddress.val = k
  lowered : ∀ j ∈ S, (p.addressAt j).bmHub = true →
    (p.addressAt j).bmAddress.val = p.hubCounter → p'.hubCounter < p.hubCounter

/-- Freeing nothing. -/
theorem Freed.refl (p : AddressPool n) : Freed p ∅ p where
  freed _ h := h.elim
  kept _ _ := rfl
  counter_le := le_rfl
  passed k h h' := by omega
  lowered _ h := h.elim

/-- Freeing one set and then another. -/
theorem Freed.trans {p p' p'' : AddressPool n} {S T : Set (Fin (n + 1))} (h : Freed p S p')
    (h' : Freed p' T p'') : Freed p (S ∪ T) p'' where
  freed j hj := by
    by_cases hT : j ∈ T
    · exact h'.freed j hT
    · rw [h'.kept j hT]
      exact h.freed j (hj.resolve_right hT)
  kept j hj := by
    rw [Set.mem_union, not_or] at hj
    rw [h'.kept j hj.2, h.kept j hj.1]
  counter_le := h'.counter_le.trans h.counter_le
  passed k hlt hle := by
    rcases Nat.lt_or_ge p'.hubCounter k with hk | hk
    · obtain ⟨j, hj, hhub⟩ := h.passed k hk hle
      exact ⟨j, Or.inl hj, hhub⟩
    · obtain ⟨j, hj, hhub, hnum⟩ := h'.passed k hlt hk
      have hS : j ∉ S := by
        intro hS
        rw [addressAt, h.freed j hS] at hhub
        exact absurd hhub (by decide)
      rw [addressAt, h.kept j hS] at hhub hnum
      exact ⟨j, Or.inr hj, hhub, hnum⟩
  lowered j hj hhub hnum := by
    by_cases hS : j ∈ S
    · exact h'.counter_le.trans_lt (h.lowered j hS hhub hnum)
    · rcases h.counter_le.lt_or_eq with hlt | heq
      · exact h'.counter_le.trans_lt hlt
      · rw [← heq]
        rw [← heq] at hnum
        rw [addressAt, ← h.kept j hS] at hhub hnum
        exact h'.lowered j (hj.resolve_left hS) hhub hnum

/-- A freed set without the root keeps the order of hub numbers. -/
theorem Freed.hierarchy {p p' : AddressPool n} {S : Set (Fin (n + 1))} (h : Freed p S p')
    (hp : Hierarchy p) : Hierarchy p' := by
  have hcases : ∀ i, p'.addressAt i = ofByte 0 ∨ p'.addressAt i = p.addressAt i := by
    intro i
    by_cases hi : i ∈ S
    · exact Or.inl (congrArg UsbDevice.address (h.freed i hi))
    · exact Or.inr (congrArg UsbDevice.address (h.kept i hi))
  constructor
  · rcases hcases 0 with hi | hi <;> rw [hi]
    · decide
    · exact hp.root
  · intro i hhub
    rcases hcases i with hi | hi <;> rw [hi] at hhub ⊢
    · exact absurd hhub (by decide)
    · exact hp.hub_ne_zero i hhub
  · intro i hhub
    rcases hcases i with hi | hi <;> rw [hi] at hhub ⊢
    · exact absurd hhub (by decide)
    · exact hp.parent_lt i hhub

/-- Freed entries are no one's child and no hub; the others keep their place. -/
theorem Freed.pruned {p p' : AddressPool n} {S : Set (Fin (n + 1))} (h : Freed p S p')
    (hp : Hierarchy p) : Pruned p.Child p'.Child S := by
  intro i j
  by_cases hi : i ∈ S
  · have : (p'.addressAt i).bmHub = false := by rw [addressAt, h.freed i hi]; decide
    simp [Child, hi, this]
  · have hpi : p'.addressAt i = p.addressAt i := congrArg _ (h.kept i hi)
    by_cases hj : j ∈ S
    · have hpj : (p'.addressAt j).bmParent = 0 := by rw [addressAt, h.freed j hj]; decide
      simp only [Child, hj, not_true_eq_false, and_false, iff_false, hpi, hpj]
      exact fun hc ↦ hp.hub_ne_zero i hc.1 hc.2.symm
    · have hpj : p'.addressAt j = p.addressAt j := congrArg _ (h.kept j hj)
      simp [Child, hi, hj, hpi, hpj]

/-- The hub number ranks the tree. -/
theorem Hierarchy.ranked {p : AddressPool n} (hp : Hierarchy p) :
    Ranked p.Child fun i ↦ (p.addressAt i).bmAddress.val := by
  intro i j l hij hjl
  have hlt := hp.parent_lt j hjl.1
  rwa [hij.2] at hlt

/-- The unaddressed device is plugged into no hub. -/
theorem Hierarchy.ne_zero {p : AddressPool n} (hp : Hierarchy p) {i j : Fin (n + 1)}
    (h : p.Child i j) : j ≠ 0 := by
  rintro rfl
  exact hp.hub_ne_zero i h.1 (h.2.symm.trans hp.root)

/-! ### Freeing a hub -/

/-- `InitEntry` frees one entry that is not a hub. -/
theorem freed_initEntry {p : AddressPool n} {i : Fin (n + 1)}
    (hleaf : ¬ (p.addressAt i).bmHub = true) : Freed p {i} (p.initEntry i) where
  freed j hj := by
    rw [Set.mem_singleton_iff.mp hj, initEntry, set_thePool, Function.update_self]
  kept j hj := Function.update_of_ne hj _ _
  counter_le := le_rfl
  passed k h h' := by
    simp only [initEntry, set_hubCounter] at h
    omega
  lowered j hj hhub := absurd (Set.mem_singleton_iff.mp hj ▸ hhub) hleaf

/-- A hub without children is freed and, if it was the last one numbered, its number too. -/
theorem freed_dropHub {p : AddressPool n} {i : Fin (n + 1)} (hhub : (p.addressAt i).bmHub = true)
    (hnum : (p.addressAt i).bmAddress ≠ 0) :
    Freed p {i} ((p.dropHub (p.addressAt i)).initEntry i) where
  freed j hj := by
    rw [Set.mem_singleton_iff.mp hj, initEntry, set_thePool, Function.update_self]
  kept j hj := by
    rw [initEntry, set_thePool, Function.update_of_ne hj, dropHub_thePool]
  counter_le := by
    have hpos := Fin.val_ne_zero_iff.mpr hnum
    simp only [initEntry, set_hubCounter, dropHub]
    split
    · next h => simp only [h]; omega
    · exact le_rfl
  passed k h h' := by
    have hpos := Fin.val_ne_zero_iff.mpr hnum
    simp only [initEntry, set_hubCounter, dropHub] at h
    split at h
    · next heq =>
      simp only [heq] at h
      exact ⟨i, rfl, hhub, by omega⟩
    · omega
  lowered j hj _ hlast := by
    have hpos := Fin.val_ne_zero_iff.mpr hnum
    rw [Set.mem_singleton_iff.mp hj] at hlast
    simp only [initEntry, set_hubCounter, dropHub, if_pos hlast.symm]
    omega

private theorem freeAddressByIndex_hub {p : AddressPool n} {i : Fin (n + 1)} (fuel : Nat)
    (hi : i ≠ 0) (hhub : (p.addressAt i).bmHub = true) :
    freeAddressByIndex (fuel + 1) p i = (freeChildren fuel p (p.addressAt i) 1).map fun p' ↦
      (p'.dropHub (p.addressAt i)).initEntry i := by
  rw [freeAddressByIndex, if_neg hi]
  exact if_pos hhub

private theorem freeAddressByIndex_leaf {p : AddressPool n} {i : Fin (n + 1)} (fuel : Nat)
    (hi : i ≠ 0) (hleaf : ¬ (p.addressAt i).bmHub = true) :
    freeAddressByIndex (fuel + 1) p i = some (p.initEntry i) := by
  rw [freeAddressByIndex, if_neg hi]
  exact if_neg hleaf

/-- A search for a child of the hub at `k` from a lower bound of its children. -/
theorem findChildIndex_cases {p : AddressPool n} (hp : Hierarchy p) {k : Fin (n + 1)}
    (hk : (p.addressAt k).bmHub = true) {start : Nat}
    (hstart : ∀ j, p.Child k j → start ≤ j.val) :
    (p.findChildIndex (p.addressAt k) start = 0 ∧ ∀ j, ¬ p.Child k j) ∨
      (p.Child k (p.findChildIndex (p.addressAt k) start) ∧
        ∀ j, p.Child k j → p.findChildIndex (p.addressAt k) start ≤ j) := by
  unfold findChildIndex
  have hone : 1 ≤ if start < 1 ∨ start ≥ n + 1 then 1 else start := by split <;> omega
  have hle : ∀ j, p.Child k j → (if start < 1 ∨ start ≥ n + 1 then 1 else start) ≤ j.val := by
    intro j hj
    have hj0 := Fin.val_ne_zero_iff.mpr (hp.ne_zero hj)
    have := hstart j hj
    split <;> omega
  by_cases h0 : firstIndex (fun i ↦ (p.thePool i).address.bmParent == (p.addressAt k).bmAddress)
      (if start < 1 ∨ start ≥ n + 1 then 1 else start) = 0
  · refine Or.inl ⟨h0, fun j hj ↦ ?_⟩
    have hq := (firstIndex_eq_zero hone).mp h0 j (hle j hj)
    exact (beq_eq_false_iff_ne.mp hq) hj.2
  · obtain ⟨-, hq, hmin⟩ := firstIndex_spec h0
    refine Or.inr ⟨⟨hk, beq_iff_eq.mp hq⟩, fun j hj ↦ hmin j (hle j hj) (beq_iff_eq.mpr hj.2)⟩

private theorem hubFuel_child {num num' : Nat} (hlt : num < num') (hmax : num' < 8) :
    hubFuel n num' + n + 5 ≤ hubFuel n num := by
  have hmul := Nat.mul_le_mul_right (n + 5) (show 8 - num' + 1 ≤ 8 - num by omega)
  rw [Nat.add_mul, Nat.one_mul] at hmul
  unfold hubFuel
  omega

private theorem free_spec (fuel : Nat) :
    (∀ (p : AddressPool n) (i : Fin (n + 1)), Hierarchy p → i ≠ 0 → 1 ≤ fuel →
      ((p.addressAt i).bmHub = true → hubFuel n (p.addressAt i).bmAddress + n + 2 ≤ fuel) →
      ∃ p', freeAddressByIndex fuel p i = some p' ∧ Freed p (subtree p.Child i) p') ∧
    (∀ (p : AddressPool n) (k : Fin (n + 1)) (start : Nat), Hierarchy p →
      (p.addressAt k).bmHub = true → ∀ bound, start ≤ bound → bound ≤ n + 1 →
      (∀ j, p.Child k j → bound ≤ j.val) →
      hubFuel n (p.addressAt k).bmAddress + (n + 2 - bound) ≤ fuel →
      ∃ p', freeChildren fuel p (p.addressAt k) start = some p' ∧
        Freed p (below p.Child k) p') := by
  induction fuel with
  | zero =>
    refine ⟨fun p i _ _ h _ ↦ absurd h (by omega), fun p k start _ _ bound _ hb _ h ↦ ?_⟩
    omega
  | succ fuel ih =>
    obtain ⟨ihFree, ihChildren⟩ := ih
    constructor
    · intro p i hp hi _ hfuel
      by_cases hhub : (p.addressAt i).bmHub = true
      · have hnum := hp.hub_ne_zero i hhub
        obtain ⟨p₁, hrun, hfreed⟩ := ihChildren p i 1 hp hhub 1 le_rfl (by omega)
          (fun j hj ↦ Nat.one_le_iff_ne_zero.mpr (Fin.val_ne_zero_iff.mpr (hp.ne_zero hj)))
          (by have := hfuel hhub; omega)
        -- the hub itself stays as it was while its children are freed
        have hself : i ∉ below p.Child i := by
          intro hmem
          obtain ⟨j, hj, -⟩ := Relation.TransGen.head'_iff.mp hmem
          exact absurd (hp.ranked.lt_of_below hmem hj) (lt_irrefl _)
        have hat : p₁.addressAt i = p.addressAt i := congrArg _ (hfreed.kept i hself)
        refine ⟨_, by rw [freeAddressByIndex_hub fuel hi hhub, hrun, Option.map_some], ?_⟩
        have hlast : Freed p₁ {i} ((p₁.dropHub (p.addressAt i)).initEntry i) := by
          rw [← hat]
          exact freed_dropHub (hat ▸ hhub) (hat ▸ hnum)
        have hset : subtree p.Child i = below p.Child i ∪ {i} := by
          ext j
          rw [mem_subtree_iff, Set.mem_union, Set.mem_singleton_iff, or_comm]
        rw [hset]
        exact hfreed.trans hlast
      · refine ⟨_, freeAddressByIndex_leaf fuel hi hhub, ?_⟩
        rw [subtree_eq_singleton fun j hj ↦ hhub hj.1]
        exact freed_initEntry hhub
    · intro p k start hp hk bound hsb hb hbound hfuel
      rw [freeChildren]
      rcases findChildIndex_cases hp hk fun j hj ↦ hsb.trans (hbound j hj) with
        ⟨hnone, hempty⟩ | ⟨hchild, hmin⟩
      · refine ⟨p, if_pos hnone, ?_⟩
        rw [below_eq_empty hempty]
        exact Freed.refl p
      · set c := p.findChildIndex (p.addressAt k) start with hc
        have hc0 := hp.ne_zero hchild
        have hbc := hbound c hchild
        have hcn := c.isLt
        have hk8 := (p.addressAt k).bmAddress.isLt
        obtain ⟨p₁, hrun, hfreed⟩ := ihFree p c hp hc0 (by omega) fun hhub ↦ by
          have hlt := hp.parent_lt c hhub
          rw [hchild.2] at hlt
          have := hubFuel_child (n := n) hlt (p.addressAt c).bmAddress.isLt
          omega
        have hpruned := hfreed.pruned hp
        have hself := hp.ranked.notMem_subtree hchild
        have hat : p₁.addressAt k = p.addressAt k := congrArg _ (hfreed.kept k hself)
        -- the next search starts at `c` again, but every child left lies behind it
        have hrest : ∀ j, p₁.Child k j → c.val + 1 ≤ j.val := by
          intro j hj
          obtain ⟨hj, -, hout⟩ := (hpruned k j).mp hj
          have hne : c ≠ j := by
            rintro rfl
            exact hout (mem_subtree_self _ _)
          exact lt_of_le_of_ne (hmin j hj) hne
        obtain ⟨p₂, hrun', hfreed'⟩ := ihChildren p₁ k c.val (hfreed.hierarchy hp) (hat ▸ hk)
          (c.val + 1) (by omega) (by omega) hrest (by rw [hat]; omega)
        refine ⟨p₂, ?_, ?_⟩
        · rw [if_neg hc0, hrun, Option.bind_some, ← hat]
          exact hrun'
        · rw [hp.ranked.below_eq_union hchild hpruned]
          exact hfreed.trans hfreed'

/-- `FreeAddressByIndex` returns, with any fuel from `freeFuel` on, and it frees the entry with
everything plugged in below it and nothing else. -/
theorem freeAddressByIndex_spec {p : AddressPool n} (hp : Hierarchy p) {i : Fin (n + 1)}
    (hi : i ≠ 0) {fuel : Nat} (hfuel : freeFuel n ≤ fuel) :
    ∃ p', freeAddressByIndex fuel p i = some p' ∧ Freed p (subtree p.Child i) p' := by
  apply (free_spec fuel).1 p i hp hi
  · unfold freeFuel at hfuel
    omega
  · intro _
    have hmul := Nat.mul_le_mul_right (n + 5) (Nat.sub_le 8 (p.addressAt i).bmAddress.val)
    unfold freeFuel hubFuel at hfuel
    unfold hubFuel
    omega

end AddressPool

end MouseAide.Host
