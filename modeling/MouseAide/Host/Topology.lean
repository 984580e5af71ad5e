import MouseAide.Host.PoolRuns
import Mathlib.Data.Set.Card
import Mathlib.Data.Set.Finite.Range

/-!
# What is plugged in where

Library `MouseHost`. The purpose of the pool, without entries or indices: the set of addresses in
use, in which a device hangs off the hub whose number it carries, and the last hub number given
out. The pool of `address.h` does to the set what the calls say. Hub numbers are the exception:
`FreeAddressByIndex` takes back only the last one, and one it skips is lost until the root hub
goes.
-/

namespace MouseAide.Host

open MouseAide.Base UsbDeviceAddress

namespace Wiring

/-- In the set of addresses `L`, `b` is plugged into the hub `a`. -/
def Plugged (L : Set UsbDeviceAddress) (a b : UsbDeviceAddress) : Prop :=
  a ∈ L ∧ b ∈ L ∧ a.bmHub = true ∧ b.bmParent = a.bmAddress

/-- Why a device is given no address, when at most `n` fit, `L` are in use and `k` is the last hub
number given out. -/
def Refused (n : Nat) (L : Set UsbDeviceAddress) (k : Nat) (parent : UInt8) (isHub : Bool)
    (port : UInt8) : Prop :=
  (ofByte parent).bmReserved = true ∨ 7 < port ∨ isHub = true ∧ k = 7 ∨ L.ncard = n

/-- The addresses that go when `addr` is unplugged. -/
def hanging (L : Set UsbDeviceAddress) (addr : UInt8) : Set UsbDeviceAddress :=
  L ∩ subtree (Plugged L) (ofByte addr)

/-- What a call makes of the addresses in use and of the last hub number, when at most `n`
addresses fit. -/
inductive Step (n : Nat) (L : Set UsbDeviceAddress) (k : Nat) :
    PoolCall → List UInt8 → Set UsbDeviceAddress → Nat → Prop where
  | refused {parent port : UInt8} {isHub : Bool} (h : Refused n L k parent isHub port) :
      Step n L k (.alloc parent isHub port) [0] L k
  | plugged {parent port : UInt8} {isHub : Bool} {a : UsbDeviceAddress}
      (h : ¬ Refused n L k parent isHub port) (hnew : a ∉ L) (h0 : a ≠ ofByte 0)
      (hhub : a.bmHub = isHub) (hres : a.bmReserved = false)
      (hparent : a.bmParent = if parent = 0 then 0 else (ofByte parent).bmAddress)
      (hnum : a.bmAddress.val =
        if parent = 0 then 1 else if isHub = true then k + 1 else port.toNat) :
      Step n L k (.alloc parent isHub port) [a.devAddress] (insert a L) (k + isHub.toNat)
  | emptied : Step n L k (.free 0x41) [] ∅ 0
  | unplugged {addr : UInt8} {k' : Nat} (hroot : addr ≠ 0x41) (hle : k' ≤ k)
      (hpassed : ∀ m, k' < m → m ≤ k →
        ∃ a ∈ hanging L addr, a.bmHub = true ∧ a.bmAddress.val = m)
      (hlast : ∀ a ∈ hanging L addr, a.bmHub = true → a.bmAddress.val = k → k' < k) :
      Step n L k (.free addr) [] (L \ hanging L addr) k'
  | setEpInfoEntry (addr epcount : UInt8) (eprecord : EpPtr) :
      Step n L k (.setEpInfoEntry addr epcount eprecord) [] L k
  | setLowspeed (addr : UInt8) (lowspeed : Bool) : Step n L k (.setLowspeed addr lowspeed) [] L k

/-- What a sequence of calls, with the addresses they returned, makes of the empty set and of hub
number 0. -/
inductive Run (n : Nat) : List PoolCall → List UInt8 → Set UsbDeviceAddress → Nat → Prop where
  | start : Run n [] [] ∅ 0
  | snoc {calls : List PoolCall} {outs out : List UInt8} {c : PoolCall}
      {L L' : Set UsbDeviceAddress} {k k' : Nat} (h : Run n calls outs L k)
      (hc : Step n L k c out L' k') : Run n (calls ++ [c]) (outs ++ out) L' k'

end Wiring

namespace AddressPool

open Wiring

variable {n : Nat}

/-- The addresses in use. -/
def live (p : AddressPool n) : Set UsbDeviceAddress :=
  {a | a ≠ ofByte 0 ∧ ∃ i, p.addressAt i = a}

/-- A hub's children in the pool are what is plugged into it. -/
theorem Tree.plugged_iff {p : AddressPool n} (h : Tree p) {i j : Fin (n + 1)} :
    Plugged p.live (p.addressAt i) (p.addressAt j) ↔ p.Child i j := by
  constructor
  · exact fun hp ↦ hp.2.2
  · intro hc
    have hnum := h.hub_ne_zero i hc.1
    refine ⟨⟨?_, i, rfl⟩, ⟨?_, j, rfl⟩, hc⟩
    · intro heq
      rw [heq] at hnum
      exact hnum (by decide)
    · intro heq
      rw [Child, heq] at hc
      exact hnum (hc.2.symm.trans (by decide))

/-- A subtree of entries holds the addresses of the subtree of the hub's address. -/
theorem Tree.mem_subtree_iff {p : AddressPool n} (h : Tree p) {i : Fin (n + 1)}
    {a : UsbDeviceAddress} : a ∈ subtree (Plugged p.live) (p.addressAt i) ↔
      ∃ j ∈ subtree p.Child i, p.addressAt j = a := by
  constructor
  · intro ha
    induction ha with
    | refl => exact ⟨i, mem_subtree_self _ i, rfl⟩
    | tail _ hb ih =>
      obtain ⟨j, hj, rfl⟩ := ih
      obtain ⟨-, l, rfl⟩ := hb.2.1
      exact ⟨l, hereditary_subtree _ i j hj l (h.plugged_iff.mp hb), rfl⟩
  · rintro ⟨j, hj, rfl⟩
    exact Relation.ReflTransGen.lift p.addressAt (fun _ _ hc ↦ h.plugged_iff.mpr hc) _ _ hj

/-- Freeing entries takes their addresses out of use and no other. -/
theorem Tree.live_freed {p p' : AddressPool n} (h : Tree p) {S : Set (Fin (n + 1))}
    (hf : Freed p S p') : p'.live = p.live \ p.addressAt '' S := by
  ext a
  constructor
  · rintro ⟨h0, j, rfl⟩
    have hj : j ∉ S := fun hj ↦ h0 (congrArg _ (hf.freed j hj))
    have hat : p'.addressAt j = p.addressAt j := congrArg _ (hf.kept j hj)
    rw [hat] at h0 ⊢
    refine ⟨⟨h0, j, rfl⟩, ?_⟩
    rintro ⟨k, hk, heq⟩
    exact hj (h.addr_inj j k h0 heq.symm ▸ hk)
  · rintro ⟨⟨h0, j, rfl⟩, hout⟩
    have hj : j ∉ S := fun hj ↦ hout ⟨j, hj, rfl⟩
    exact ⟨h0, j, congrArg _ (hf.kept j hj)⟩

/-- Freeing an entry takes what hangs off its address out of use, and takes back hub numbers of
such hubs only, the last one always. -/
theorem Tree.freed_step {p p' : AddressPool n} (h : Tree p) {addr : UInt8} {i : Fin (n + 1)}
    (hroot : addr ≠ 0x41) (hi : p.addressAt i = ofByte addr)
    (hf : Freed p (subtree p.Child i) p') :
    Step n p.live p.hubCounter (.free addr) [] p'.live p'.hubCounter := by
  have hmem : ∀ j, j ∈ subtree p.Child i → p.addressAt j ≠ ofByte 0 →
      p.addressAt j ∈ hanging p.live addr := by
    intro j hj h0
    refine ⟨⟨h0, j, rfl⟩, ?_⟩
    rw [← hi]
    exact h.mem_subtree_iff.mpr ⟨j, hj, rfl⟩
  have hlive : p'.live = p.live \ hanging p.live addr := by
    rw [h.live_freed hf]
    ext a
    constructor
    · rintro ⟨ha, hout⟩
      refine ⟨ha, fun hin ↦ hout ?_⟩
      have hin' := hin.2
      rw [← hi] at hin'
      exact h.mem_subtree_iff.mp hin'
    · rintro ⟨ha, hout⟩
      refine ⟨ha, ?_⟩
      rintro ⟨j, hj, rfl⟩
      exact hout (hmem j hj ha.1)
  rw [hlive]
  apply Step.unplugged hroot hf.counter_le
  · intro m hlt hle
    obtain ⟨j, hj, hhub, hnum⟩ := hf.passed m hlt hle
    refine ⟨p.addressAt j, hmem j hj ?_, hhub, hnum⟩
    intro h0
    rw [h0] at hhub
    exact absurd hhub (by decide)
  · intro a ha hhub hnum
    have hin := ha.2
    rw [← hi] at hin
    obtain ⟨j, hj, rfl⟩ := h.mem_subtree_iff.mp hin
    exact hf.lowered j hj hhub hnum

/-- `FreeAddress` of any address but the root hub's is a step of the topology. -/
theorem Tree.free_step {p p' : AddressPool n} (h : Tree p) {addr : UInt8}
    (hroot : addr ≠ 0x41) (hrun : p.freeAddress addr = some p') :
    Step n p.live p.hubCounter (.free addr) [] p'.live p'.hubCounter := by
  by_cases hno : addr = 0 ∨ ∀ i, p.addressAt i ≠ ofByte addr
  · obtain rfl : p = p' := Option.some.inj ((h.freeAddress_unused hroot hno).symm.trans hrun)
    have hout : ofByte addr ∉ p.live := by
      rintro ⟨h0, i, hi⟩
      rcases hno with rfl | hno
      · exact h0 rfl
      · exact hno i hi
    have hnone : hanging p.live addr = ∅ := by
      rw [hanging, subtree_eq_singleton fun j hj ↦ hout hj.1]
      exact Set.inter_singleton_eq_empty.mpr hout
    have hstep : Step n p.live p.hubCounter (.free addr) [] (p.live \ hanging p.live addr)
        p.hubCounter := by
      apply Step.unplugged hroot le_rfl
      · exact fun m hlt hle ↦ absurd hle (not_le.mpr hlt)
      · exact fun a ha ↦ absurd (hnone ▸ ha) (Set.notMem_empty a)
    rwa [hnone, Set.sdiff_empty] at hstep
  · rw [not_or, not_forall] at hno
    obtain ⟨h0, i, hi⟩ := hno
    rw [not_not] at hi
    obtain ⟨p'', hrun', hfreed⟩ := h.freeAddress_used h0 hroot hi
    obtain rfl : p'' = p' := Option.some.inj (hrun'.symm.trans hrun)
    exact h.freed_step hroot hi hfreed

/-- A new device adds its address to those in use. -/
theorem live_plug {p : AddressPool n} {i : Fin (n + 1)} {c : Nat} {addr : UsbDeviceAddress}
    (hfree : p.addressAt i = ofByte 0) (h0 : addr ≠ ofByte 0) :
    (p.plug i c addr).live = insert addr p.live := by
  ext a
  constructor
  · rintro ⟨ha, j, rfl⟩
    by_cases hj : j = i
    · rw [hj, plug_addressAt_self]
      exact Set.mem_insert _ _
    · rw [plug_addressAt_of_ne p c addr hj] at ha ⊢
      exact Set.mem_insert_of_mem _ ⟨ha, j, rfl⟩
  · rintro (rfl | ⟨ha, j, rfl⟩)
    · exact ⟨h0, i, plug_addressAt_self p i c _⟩
    · refine ⟨ha, j, plug_addressAt_of_ne p c addr ?_⟩
      rintro rfl
      exact ha hfree

/-- The addresses in use are those of the entries behind entry 0. -/
theorem Tree.live_subset {p : AddressPool n} (h : Tree p) :
    p.live ⊆ Set.range fun i : Fin n ↦ p.addressAt i.succ := by
  rintro _ ⟨h0, i, rfl⟩
  have hi : i ≠ 0 := by
    rintro rfl
    exact h0 h.root
  exact ⟨i.pred hi, congrArg p.addressAt (Fin.succ_pred i hi)⟩

/-- There are never more addresses in use than entries behind entry 0. -/
theorem Tree.ncard_live_le {p : AddressPool n} (h : Tree p) : p.live.ncard ≤ n := by
  have hrange := Set.ncard_image_le (f := fun i : Fin n ↦ p.addressAt i.succ) Set.finite_univ
  rw [Set.image_univ, Set.ncard_univ, Nat.card_eq_fintype_card, Fintype.card_fin] at hrange
  exact (Set.ncard_le_ncard h.live_subset (Set.finite_range _)).trans hrange

/-- With no entry unused there are as many addresses as entries. -/
theorem Tree.ncard_live {p : AddressPool n} (h : Tree p)
    (hfull : ∀ i, i ≠ 0 → p.addressAt i ≠ ofByte 0) : p.live.ncard = n := by
  have himage : p.live = Set.range fun i : Fin n ↦ p.addressAt i.succ := by
    apply h.live_subset.antisymm
    rintro _ ⟨i, rfl⟩
    exact ⟨hfull _ i.succ_ne_zero, _, rfl⟩
  have hinj : Function.Injective fun i : Fin n ↦ p.addressAt i.succ := fun i j hij ↦
    Fin.succ_injective n (h.addr_inj _ _ (hfull _ i.succ_ne_zero) hij)
  rw [himage, ← Set.image_univ, Set.ncard_image_of_injective _ hinj, Set.ncard_univ,
    Nat.card_eq_fintype_card, Fintype.card_fin]

/-- The parent a new device carries. -/
theorem newAddress_bmParent_eq (p : AddressPool n) (parent : UInt8) (isHub : Bool)
    (port : UInt8) : (p.newAddress parent isHub port).bmParent =
      if parent = 0 then 0 else (ofByte parent).bmAddress := by
  by_cases hp : parent = 0
  · rw [hp, newAddress_bmParent_zero, if_pos rfl]
  · rw [newAddress_bmParent hp, if_neg hp]

/-- The number a new device carries: a device on the shield itself has number 1, a hub the next
number, another device its port. -/
theorem newAddress_bmAddress_eq {p : AddressPool n} (h : p.hubCounter ≤ 7) {parent port : UInt8}
    {isHub : Bool} (hport : port ≤ 7) (hc : ¬ (isHub = true ∧ p.hubCounter = 7)) :
    (p.newAddress parent isHub port).bmAddress.val =
      if parent = 0 then 1 else if isHub = true then p.hubCounter + 1 else port.toNat := by
  by_cases hp : parent = 0
  · rw [newAddress, if_pos hp, if_pos hp]
    cases isHub <;> decide
  · rw [if_neg hp]
    cases isHub with
    | true => exact newAddress_bmAddress_hub hp port (by grind)
    | false =>
      have hle := UInt8.le_iff_toNat_le.mp hport
      simp only [newAddress, if_neg hp, Bool.false_eq_true, if_false, Fin.val_ofNat]
      exact Nat.mod_eq_of_lt (Nat.lt_succ_of_le hle)

/-- A pool that has handed out an address had room for it. -/
theorem Tree.not_full {p : AddressPool n} (h : Tree p) {i : Fin (n + 1)} {c : Nat}
    {addr : UsbDeviceAddress} (hfree : p.addressAt i = ofByte 0) (h0 : addr ≠ ofByte 0)
    (hnew : addr ∉ p.live) (htree : Tree (p.plug i c addr)) : p.live.ncard ≠ n := by
  have hle := htree.ncard_live_le
  rw [live_plug hfree h0, Set.ncard_insert_of_notMem hnew
    ((Set.finite_range _).subset h.live_subset)] at hle
  omega

/-- `AllocAddress` is a step of the topology. -/
theorem Tree.alloc_step {p : AddressPool n} (h : Tree p) {parent port : UInt8} {isHub : Bool}
    (hs : Sound p (.alloc parent isHub port)) :
    Step n p.live p.hubCounter (.alloc parent isHub port)
      [(p.allocAddress parent isHub port).2] (p.allocAddress parent isHub port).1.live
      (p.allocAddress parent isHub port).1.hubCounter := by
  have htree := h.allocAddress hs
  rcases allocAddress_cases p parent isHub port with
    ⟨hfail, hwhy⟩ | ⟨i, hi, hfree, -, hres, hport, hc, hok⟩
  · rw [hfail]
    exact .refused (hwhy.imp id (Or.imp id (Or.imp id h.ncard_live)))
  · rw [hok] at htree ⊢
    have hmax := h.counter_le
    have hfresh := h.newAddress_fresh hs hc
    have h0 : p.newAddress parent isHub port ≠ ofByte 0 := fun heq ↦
      hfresh 0 (h.root.trans heq.symm)
    have hnew : p.newAddress parent isHub port ∉ p.live := by
      rintro ⟨-, j, hj⟩
      exact hfresh j hj
    have hroom := h.not_full hfree h0 hnew htree
    have hcount : p.countHub isHub = p.hubCounter + isHub.toNat := by
      cases isHub
      · rfl
      · simp only [countHub, if_true, Bool.toNat_true]
        omega
    rw [live_plug hfree h0, plug_hubCounter, hcount]
    apply Step.plugged _ hnew h0 (newAddress_bmHub p parent isHub port)
      (newAddress_bmReserved p parent isHub port) (newAddress_bmParent_eq p parent isHub port)
      (newAddress_bmAddress_eq hmax hport hc)
    rintro (hbad | hbad | hbad | hbad)
    · rw [hres] at hbad
      exact absurd hbad (by decide)
    · exact absurd hport (UInt8.not_le.mpr hbad)
    · exact hc hbad
    · exact hroom hbad

/-- An emptied pool has no address in use. -/
theorem live_initAllAddresses {p : AddressPool n} (h : p.addressAt 0 = ofByte 0) :
    p.initAllAddresses.live = ∅ := by
  refine Set.eq_empty_of_forall_notMem ?_
  rintro _ ⟨h0, i, rfl⟩
  exact h0 (initAllAddresses_addressAt h i)

/-- A write that leaves the address alone leaves the addresses in use alone. -/
private theorem Tree.live_write {p : AddressPool n} (h : Tree p) {addr : UInt8} {i : Fin (n + 1)}
    (hi : p.getUsbDevicePtr addr = some i) {d : UsbDevice} (hd : d.address = ofByte addr) :
    (p.set i d).live = p.live := by
  rw [live, funext (h.addressAt_write hi hd)]
  rfl

/-- Every sound call is a step of the topology. -/
theorem Tree.call_step {p p' : AddressPool n} {out : List UInt8} (h : Tree p) {c : PoolCall}
    (hs : Sound p c) (hcall : p.call c = some (p', out)) :
    Step n p.live p.hubCounter c out p'.live p'.hubCounter := by
  cases c with
  | alloc parent isHub port =>
    obtain ⟨rfl, rfl⟩ := Prod.mk.inj (Option.some.inj hcall)
    exact h.alloc_step hs
  | free addr =>
    obtain ⟨q, hrun, hq⟩ := Option.map_eq_some_iff.mp hcall
    obtain ⟨rfl, rfl⟩ := Prod.mk.inj hq
    by_cases hroot : addr = 0x41
    · subst hroot
      obtain rfl : p.initAllAddresses = q := Option.some.inj hrun
      rw [live_initAllAddresses h.root]
      exact .emptied
    · exact h.free_step hroot hrun
  | setEpInfoEntry addr epcount eprecord =>
    obtain ⟨rfl, rfl⟩ := Prod.mk.inj (Option.some.inj hcall)
    have hsame : (p.setEpInfoEntry addr epcount eprecord).live = p.live ∧
        (p.setEpInfoEntry addr epcount eprecord).hubCounter = p.hubCounter := by
      unfold AddressPool.setEpInfoEntry
      split
      · exact ⟨rfl, rfl⟩
      · next hi => exact ⟨h.live_write hi rfl, rfl⟩
    rw [hsame.1, hsame.2]
    exact .setEpInfoEntry addr epcount eprecord
  | setLowspeed addr lowspeed =>
    obtain ⟨rfl, rfl⟩ := Prod.mk.inj (Option.some.inj hcall)
    have hsame : (p.setLowspeed addr lowspeed).live = p.live ∧
        (p.setLowspeed addr lowspeed).hubCounter = p.hubCounter := by
      unfold AddressPool.setLowspeed
      split
      · exact ⟨rfl, rfl⟩
      · next hi => exact ⟨h.live_write hi (h.getUsbDevicePtr_eq_some_iff.mp hi).1, rfl⟩
    rw [hsame.1, hsame.2]
    exact .setLowspeed addr lowspeed

/-- A sound call after a sound run finds a tree, and returns. -/
theorem state_concat_of_meets {calls : List PoolCall} {c : PoolCall}
    (h : (machine n).Meets SoundStep (calls ++ [c])) :
    ∃ p p' out, (machine n).state calls = some p ∧ Tree p ∧ Sound p c ∧
      p.call c = some (p', out) ∧ (machine n).state (calls ++ [c]) = some p' ∧
      (machine n).trace (calls ++ [c]) = (machine n).trace calls ++ out := by
  obtain ⟨p, hp, htree⟩ := tree_of_meets (h.of_prefix (List.prefix_append _ _))
  have hs := h.last p hp
  obtain ⟨p', out, hcall, -⟩ := htree.call hs
  refine ⟨p, p', out, hp, htree, hs, hcall, ?_, ?_⟩
  · rw [Machine.state_concat, hp]
    simp only [machine, Option.bind_some, hcall]
  · rw [Machine.trace_concat, hp]
    simp only [machine, Option.bind_some, hcall]

/-- After every run of sound calls, what is in use and the last hub number are what the topology
makes of the calls and the addresses they returned. -/
theorem run_live {calls : List PoolCall} (h : (machine n).Meets SoundStep calls) :
    ∃ p, (machine n).state calls = some p ∧
      Run n calls ((machine n).trace calls) p.live p.hubCounter := by
  induction calls using List.reverseRecOn with
  | nil =>
    refine ⟨init n, rfl, ?_⟩
    have hempty : (init n).live = ∅ := by
      refine Set.eq_empty_of_forall_notMem ?_
      rintro _ ⟨h0, i, rfl⟩
      exact h0 rfl
    rw [hempty]
    exact .start
  | append_singleton calls c ih =>
    obtain ⟨p, hp, hrun⟩ := ih (h.of_prefix (List.prefix_append _ _))
    obtain ⟨q, p', out, hq, htree, hs, hcall, hnext, htrace⟩ := state_concat_of_meets h
    obtain rfl : q = p := Option.some.inj (hq.symm.trans hp)
    refine ⟨p', hnext, ?_⟩
    rw [htrace]
    exact hrun.snoc (htree.call_step hs hcall)

/-- Two hubs below the root hub, a mouse on the second, which goes and takes the mouse with it: the
addresses given, and the hub number taken back. -/
theorem run_live_hub :
    let calls : List PoolCall := [.alloc 0 true 0, .alloc 1 true 1, .alloc 1 true 2,
      .alloc 3 false 4, .free 0x4B]
    (∃ p, (machine 5).state calls = some p ∧
      Run 5 calls ((machine 5).trace calls) p.live p.hubCounter) ∧
      (machine 5).trace calls = [0x41, 0x4A, 0x4B, 0x1C] ∧
      ((machine 5).state calls).map hubCounter = some 2 :=
  ⟨run_live (by decide +kernel), by decide +kernel, by decide +kernel⟩

/-! ### Giving an address back -/

/-- Freeing what was just allocated restores the pool, entries and counter. -/
theorem Tree.freeAddress_alloc {p p' : AddressPool n} (h : Tree p) {parent port a : UInt8}
    {isHub : Bool} (hs : Sound p (.alloc parent isHub port))
    (halloc : p.allocAddress parent isHub port = (p', a)) (h0 : a ≠ 0) (hroot : a ≠ 0x41) :
    p'.freeAddress a = some p := by
  have htree : Tree p' := by
    have := h.allocAddress hs
    rwa [halloc] at this
  rcases allocAddress_cases p parent isHub port with
    ⟨hfail, -⟩ | ⟨i, hi, hfree, -, -, -, hc, hok⟩
  · exact absurd (congrArg Prod.snd (halloc.symm.trans hfail)) h0
  obtain ⟨hp', ha⟩ := Prod.mk.inj (halloc.symm.trans hok)
  set addr := p.newAddress parent isHub port with haddr
  have hself : p'.addressAt i = addr := by rw [hp', plug_addressAt_self]
  have hat : p'.addressAt i = ofByte a := by rw [hself, ha, ofByte_devAddress]
  have hcounter : p'.hubCounter = p.countHub isHub := by rw [hp', plug_hubCounter]
  have hmax := h.counter_le
  -- nothing is plugged into the new hub: its number is new
  have hleaf : ∀ j, ¬ p'.Child i j := by
    rintro j hj
    have hhub := hj.1
    rw [hself, newAddress_bmHub] at hhub
    subst hhub
    have hnum := htree.hub_ne_zero i hj.1
    by_cases hji : j = i
    · subst hji
      exact absurd hj.2 (htree.parent_lt j hj.1).ne
    · rw [Child, hself, hp', plug_addressAt_of_ne p _ _ hji] at hj
      rw [hself] at hnum
      obtain ⟨k, hk⟩ := h.parent_live j (hj.2 ▸ hnum)
      exact (h.newAddress_hub hs (by grind)).2.2 k hk.1 (hk.2.symm.trans hj.2)
  obtain ⟨p'', hrun, hfreed⟩ := htree.freeAddress_used h0 hroot hat
  rw [subtree_eq_singleton hleaf] at hfreed
  rw [hrun]
  have hpool : p''.thePool = p.thePool := by
    funext j
    by_cases hj : j = i
    · rw [hj, hfreed.freed i rfl, h.unused i hi hfree]
    · rw [hfreed.kept j hj, hp', plug_thePool_of_ne p _ _ hj]
  have hback : p''.hubCounter = p.hubCounter := by
    have hle := hfreed.counter_le
    cases isHub with
    | false =>
      rw [hcounter] at hle
      by_contra hne
      obtain ⟨j, rfl, hhub, -⟩ := hfreed.passed p.hubCounter (lt_of_le_of_ne hle hne) hcounter.ge
      rw [hself, newAddress_bmHub] at hhub
      exact absurd hhub (by decide)
    | true =>
      have hp0 : parent ≠ 0 := by
        rintro rfl
        exact hroot (ha.trans (by rw [haddr]; exact (devAddress_eq_iff.mpr (if_pos rfl))))
      have hlt : p.hubCounter < 7 := by grind
      have hnum := newAddress_bmAddress_hub (p := p) hp0 port hlt
      rw [← haddr, ← hself] at hnum
      have hnext : p'.hubCounter = p.hubCounter + 1 := by
        rw [hcounter, countHub, if_pos rfl]
        omega
      have hlow := hfreed.lowered i rfl (by rw [hself, newAddress_bmHub]) (hnum.trans hnext.symm)
      by_contra hne
      obtain ⟨j, rfl, -, hnum'⟩ := hfreed.passed p.hubCounter (by omega) (by omega)
      omega
  calc some p''
      = some ⟨p''.hubCounter, p''.thePool⟩ := rfl
    _ = some p := by rw [hback, hpool]

/-- In every run of sound calls, freeing the address the last call allocated, unless it is the
root hub's, leads back to the pool before that call. -/
theorem free_undoes_alloc {calls : List PoolCall} {parent port a : UInt8} {isHub : Bool}
    (h : (machine n).Meets SoundStep (calls ++ [.alloc parent isHub port]))
    (ha : (machine n).trace (calls ++ [.alloc parent isHub port]) =
      (machine n).trace calls ++ [a]) (h0 : a ≠ 0) (hroot : a ≠ 0x41) :
    (machine n).state (calls ++ [.alloc parent isHub port, .free a]) = (machine n).state calls := by
  obtain ⟨p, p', out, hp, htree, hs, hcall, hnext, htrace⟩ := state_concat_of_meets h
  obtain ⟨rfl, rfl⟩ := Prod.mk.inj (Option.some.inj hcall)
  have hout : (p.allocAddress parent isHub port).2 = a := by
    rw [ha] at htrace
    simpa using htrace.symm
  have hpair : p.allocAddress parent isHub port = ((p.allocAddress parent isHub port).1, a) := by
    rw [← hout]
  have hback := htree.freeAddress_alloc hs hpair h0 hroot
  have hlist : calls ++ [.alloc parent isHub port, .free a] =
      calls ++ [.alloc parent isHub port] ++ [.free a] := by simp
  rw [hlist, Machine.state_concat, hnext, hp]
  simp only [machine, Option.bind_some, call, hback, Option.map_some]

/-- A mouse plugged into the root hub and pulled out again. -/
theorem free_undoes_alloc_mouse :
    (machine 3).state ([.alloc 0 true 0] ++ [.alloc 1 false 2, .free 0x0A]) =
      (machine 3).state [.alloc 0 true 0] :=
  free_undoes_alloc (by decide +kernel) (by decide +kernel) (by decide) (by decide)

/-! ### Lost hub numbers -/

/-- A hub number within the counter that no hub has. The root hub's number 1 is never lost. -/
def Lost (p : AddressPool n) (k : Nat) : Prop :=
  2 ≤ k ∧ k ≤ p.hubCounter ∧ ∀ i, (p.addressAt i).bmHub = true → (p.addressAt i).bmAddress.val ≠ k

instance (p : AddressPool n) (k : Nat) : Decidable (p.Lost k) := by
  unfold Lost
  infer_instance

/-- A new hub takes no lost number. -/
private theorem Tree.lost_alloc {p : AddressPool n} (h : Tree p) {parent port : UInt8}
    {isHub : Bool} {k : Nat} (hk : p.Lost k) :
    (p.allocAddress parent isHub port).1.Lost k := by
  obtain ⟨htwo, hle, hno⟩ := hk
  rcases allocAddress_cases p parent isHub port with
    ⟨hfail, -⟩ | ⟨i, hi, -, -, -, -, hc, hok⟩
  · rw [hfail]
    exact ⟨htwo, hle, hno⟩
  · have hmax := h.counter_le
    rw [hok]
    refine ⟨htwo, ?_, fun j hj ↦ ?_⟩
    · rw [plug_hubCounter, countHub]
      split <;> omega
    · by_cases hji : j = i
      · rw [hji, plug_addressAt_self] at hj ⊢
        rw [newAddress_bmHub] at hj
        subst hj
        by_cases hp : parent = 0
        · have hone : (p.newAddress parent true port).bmAddress = 1 := by
            rw [newAddress, if_pos hp]
            decide
          rw [hone]
          exact fun heq ↦ absurd heq (by simp only [Fin.val_one]; omega)
        · rw [newAddress_bmAddress_hub hp port (by grind)]
          omega
      · rw [plug_addressAt_of_ne p _ _ hji] at hj ⊢
        exact hno j hj

/-- The counter comes down past freed numbers only, never past a lost one. -/
private theorem Freed.lost {p p' : AddressPool n} {S : Set (Fin (n + 1))} (hf : Freed p S p')
    {k : Nat} (hk : p.Lost k) : p'.Lost k := by
  obtain ⟨htwo, hle, hno⟩ := hk
  refine ⟨htwo, ?_, fun j hj ↦ ?_⟩
  · by_contra hlt
    obtain ⟨j, -, hhub, hnum⟩ := hf.passed k (not_le.mp hlt) hle
    exact hno j hhub hnum
  · have hjS : j ∉ S := by
      intro hjS
      rw [addressAt, hf.freed j hjS] at hj
      exact absurd hj (by decide)
    have hat : p'.addressAt j = p.addressAt j := congrArg _ (hf.kept j hjS)
    rw [hat] at hj ⊢
    exact hno j hj

/-- A write that leaves the address alone loses and finds no number. -/
private theorem Tree.lost_write {p : AddressPool n} (h : Tree p) {addr : UInt8} {i : Fin (n + 1)}
    (hi : p.getUsbDevicePtr addr = some i) {d : UsbDevice} (hd : d.address = ofByte addr) {k : Nat}
    (hk : p.Lost k) : (p.set i d).Lost k := by
  refine ⟨hk.1, hk.2.1, fun j hj ↦ ?_⟩
  rw [h.addressAt_write hi hd] at hj ⊢
  exact hk.2.2 j hj

/-- A lost number stays lost under every call that leaves the root hub in place. -/
theorem Tree.lost_call {p p' : AddressPool n} {out : List UInt8} (h : Tree p) {c : PoolCall}
    (hroot : c ≠ .free 0x41) (hcall : p.call c = some (p', out)) {k : Nat} (hk : p.Lost k) :
    p'.Lost k := by
  cases c with
  | alloc parent isHub port =>
    obtain ⟨rfl, -⟩ := Prod.mk.inj (Option.some.inj hcall)
    exact h.lost_alloc hk
  | free addr =>
    obtain ⟨q, hrun, hq⟩ := Option.map_eq_some_iff.mp hcall
    obtain ⟨rfl, -⟩ := Prod.mk.inj hq
    have hroot' : addr ≠ 0x41 := fun heq ↦ hroot (congrArg _ heq)
    by_cases hno : addr = 0 ∨ ∀ i, p.addressAt i ≠ ofByte addr
    · obtain rfl : p = q := Option.some.inj ((h.freeAddress_unused hroot' hno).symm.trans hrun)
      exact hk
    · rw [not_or, not_forall] at hno
      obtain ⟨h0, i, hi⟩ := hno
      rw [not_not] at hi
      obtain ⟨q', hrun', hfreed⟩ := h.freeAddress_used h0 hroot' hi
      obtain rfl : q' = q := Option.some.inj (hrun'.symm.trans hrun)
      exact hfreed.lost hk
  | setEpInfoEntry addr epcount eprecord =>
    obtain ⟨rfl, -⟩ := Prod.mk.inj (Option.some.inj hcall)
    unfold AddressPool.setEpInfoEntry
    split
    · exact hk
    · next hi => exact h.lost_write hi rfl hk
  | setLowspeed addr lowspeed =>
    obtain ⟨rfl, -⟩ := Prod.mk.inj (Option.some.inj hcall)
    unfold AddressPool.setLowspeed
    split
    · exact hk
    · next hi =>
      refine h.lost_write hi ?_ hk
      exact (h.getUsbDevicePtr_eq_some_iff.mp hi).1

/-- A hub number once lost stays lost, in every run of sound calls, until the root hub is freed:
the counter never comes back below it and no later hub is given it. -/
theorem lost_forever {calls more : List PoolCall} {p : AddressPool n} {k : Nat}
    (h : (machine n).Meets SoundStep (calls ++ more)) (hroot : .free 0x41 ∉ more)
    (hp : (machine n).state calls = some p) (hk : p.Lost k) :
    ∃ p', (machine n).state (calls ++ more) = some p' ∧ p'.Lost k := by
  induction more using List.reverseRecOn with
  | nil => exact ⟨p, by rwa [List.append_nil], hk⟩
  | append_singleton more c ih =>
    rw [← List.append_assoc] at h ⊢
    rw [List.mem_append, not_or] at hroot
    obtain ⟨q, hq, hlost⟩ := ih (h.of_prefix (List.prefix_append _ _)) hroot.1
    obtain ⟨q', p', out, hq', htree, -, hcall, hnext, -⟩ := state_concat_of_meets h
    obtain rfl : q' = q := Option.some.inj (hq'.symm.trans hq)
    have hc : c ≠ .free 0x41 := fun heq ↦ hroot.2 (by simp [heq])
    exact ⟨p', hnext, htree.lost_call hc hcall hlost⟩

/-- Two hubs below the root hub, the first of them unplugged: number 2 is lost to the next hub. -/
theorem lost_forever_two :
    ∃ p, (machine 3).state ([.alloc 0 true 0, .alloc 1 true 1, .alloc 1 true 2, .free 0x4A] ++
      [.alloc 1 true 1]) = some p ∧ p.Lost 2 := by
  have h : (machine 3).Meets SoundStep ([.alloc 0 true 0, .alloc 1 true 1, .alloc 1 true 2,
      .free 0x4A] ++ [.alloc 1 true 1]) := by decide +kernel
  obtain ⟨p, hp, -⟩ := tree_of_meets (h.of_prefix (List.prefix_append _ _))
  have hlost : ∀ p ∈ (machine 3).state [.alloc 0 true 0, .alloc 1 true 1, .alloc 1 true 2,
      .free 0x4A], p.Lost 2 := by decide +kernel
  exact lost_forever h (by decide) hp (hlost p hp)

end AddressPool

end MouseAide.Host
