import MouseAide.Host.Frames
import MouseAide.Host.HidBoot
import MouseAide.Host.PoolRuns

/-!
# Runs of the boot-protocol driver

Library `MouseHost`. Any sequence of `Init`, `Poll` and `Release` of one driver, whatever the
devices answer. Between calls, as long as no buffer on the stack has been left, the driver is
either idle, and the pool is as it found it, or it holds one entry of the pool, which points at
its table of endpoints.
-/

namespace MouseAide.Host

open MouseAide.Base UsbDeviceAddress

variable {n : Nat}

namespace AddressPool

/-- The pool with a device in entry `i`, and with a speed in entry 0. -/
def guest (p : AddressPool n) (b : Bool) (i : Fin (n + 1)) (d : UsbDevice) : AddressPool n :=
  (p.setLowspeed 0 b).set i d

/-- A device of address `a` and no hub, for which the pool has the unused entry `i`. -/
structure Guest (p : AddressPool n) (i : Fin (n + 1)) (a : UInt8) : Prop where
  ne_zero : i ≠ 0
  addr_ne_zero : a ≠ 0
  free : p.thePool i = .free
  leaf : (ofByte a).bmHub = false
  tree : ∀ b d, d.address = ofByte a → Tree (p.guest b i d)

variable {p : AddressPool n} {i : Fin (n + 1)} {a : UInt8} {d : UsbDevice}

@[simp] theorem setLowspeed_addressAt (p : AddressPool n) (b : Bool) (j : Fin (n + 1)) :
    (p.setLowspeed 0 b).addressAt j = p.addressAt j := by
  change (p.set 0 { p.thePool 0 with lowspeed := b }).addressAt j = p.addressAt j
  by_cases hj : j = 0
  · rw [hj, addressAt, set_thePool, Function.update_self]
    rfl
  · rw [addressAt, set_thePool, Function.update_of_ne hj]
    rfl

/-- The last speed counts. -/
@[simp] theorem setLowspeed_setLowspeed (p : AddressPool n) (b b' : Bool) :
    (p.setLowspeed 0 b).setLowspeed 0 b' = p.setLowspeed 0 b' := by
  change (p.set 0 { p.thePool 0 with lowspeed := b }).set 0
    { (p.set 0 { p.thePool 0 with lowspeed := b }).thePool 0 with lowspeed := b' } =
      p.set 0 { p.thePool 0 with lowspeed := b' }
  simp only [set, Function.update_self, Function.update_idem]

/-- The speed it has already. -/
theorem setLowspeed_self (p : AddressPool n) : p.setLowspeed 0 (p.thePool 0).lowspeed = p := by
  change p.set 0 { p.thePool 0 with lowspeed := (p.thePool 0).lowspeed } = p
  exact congrArg (AddressPool.mk p.hubCounter) (Function.update_eq_self 0 p.thePool)

@[simp] theorem guest_thePool_self (p : AddressPool n) (b : Bool) (i : Fin (n + 1))
    (d : UsbDevice) : (p.guest b i d).thePool i = d := by
  rw [guest, set_thePool, Function.update_self]

@[simp] theorem guest_addressAt_self (p : AddressPool n) (b : Bool) (i : Fin (n + 1))
    (d : UsbDevice) : (p.guest b i d).addressAt i = d.address :=
  congrArg UsbDevice.address (guest_thePool_self p b i d)

/-- An entry found by its address is the guest's. -/
theorem Guest.getUsbDevicePtr (h : p.Guest i a) {b : Bool} (hd : d.address = ofByte a) :
    (p.guest b i d).getUsbDevicePtr a = some i := by
  apply (h.tree b d hd).getUsbDevicePtr_eq_some_iff.mpr
  exact ⟨by rw [guest_addressAt_self, hd], fun ha ↦ absurd ha h.addr_ne_zero⟩

/-- Writing another device in a guest's place. -/
theorem guest_set (p : AddressPool n) (b : Bool) (i : Fin (n + 1)) (d d' : UsbDevice) :
    (p.guest b i d).set i d' = p.guest b i d' := by
  simp only [guest, set, Function.update_idem]

/-- The speed in entry 0 is not the guest's. -/
theorem guest_setLowspeed_zero (hi : i ≠ 0) (b b' : Bool) :
    (p.guest b i d).setLowspeed 0 b' = p.guest b' i d := by
  have hzero : (p.guest b i d).thePool 0 = (p.setLowspeed 0 b).thePool 0 :=
    Function.update_of_ne hi.symm _ _
  have hswap : (p.guest b i d).setLowspeed 0 b' =
      ((p.setLowspeed 0 b).setLowspeed 0 b').set i d := by
    change (p.guest b i d).set 0 { (p.guest b i d).thePool 0 with lowspeed := b' } =
      ((p.setLowspeed 0 b).set 0 { (p.setLowspeed 0 b).thePool 0 with lowspeed := b' }).set i d
    rw [hzero]
    simp only [guest, set]
    rw [Function.update_comm hi.symm]
  rw [hswap, setLowspeed_setLowspeed, guest]

/-- The guest's speed. -/
theorem Guest.setLowspeed (h : p.Guest i a) {b : Bool} (hd : d.address = ofByte a) (ls : Bool) :
    (p.guest b i d).setLowspeed a ls = p.guest b i { d with lowspeed := ls } := by
  rw [AddressPool.setLowspeed, h.getUsbDevicePtr hd]
  dsimp only
  rw [guest_set, guest_thePool_self]

/-- The guest's table of endpoints. -/
theorem Guest.setEpInfoEntry (h : p.Guest i a) {b : Bool} (hd : d.address = ofByte a)
    (epcount : UInt8) (e : EpPtr) : (p.guest b i d).setEpInfoEntry a epcount e =
      p.guest b i ⟨e, ofByte a, epcount, d.lowspeed⟩ := by
  rw [AddressPool.setEpInfoEntry, h.getUsbDevicePtr hd]
  dsimp only
  rw [guest_set, guest_thePool_self]

/-- When the guest goes, the pool is as before. -/
theorem Guest.freeAddress (h : p.Guest i a) {b : Bool} (hd : d.address = ofByte a) :
    (p.guest b i d).freeAddress a = some (p.setLowspeed 0 b) := by
  have htree := h.tree b d hd
  have hat : (p.guest b i d).addressAt i = ofByte a := by rw [guest_addressAt_self, hd]
  have hroot : a ≠ 0x41 := by
    rintro rfl
    exact absurd h.leaf (by decide)
  obtain ⟨p', hrun, hfreed⟩ := htree.freeAddress_used h.addr_ne_zero hroot hat
  have hleaf : ∀ j, ¬(p.guest b i d).Child i j := by
    intro j hj
    have hhub := hj.1
    rw [hat, h.leaf] at hhub
    exact absurd hhub (by decide)
  rw [subtree_eq_singleton hleaf] at hfreed
  have hpool : p'.thePool = (p.setLowspeed 0 b).thePool := by
    funext j
    by_cases hj : j = i
    · have hself : (p.setLowspeed 0 b).thePool i = p.thePool i :=
        Function.update_of_ne h.ne_zero _ _
      rw [hj, hfreed.freed i rfl, hself, h.free]
    · rw [hfreed.kept j hj, guest, set_thePool, Function.update_of_ne hj]
  have hcounter : p'.hubCounter = (p.setLowspeed 0 b).hubCounter := by
    refine le_antisymm hfreed.counter_le (Nat.not_lt.mp fun hlt ↦ ?_)
    obtain ⟨j, rfl, hhub, -⟩ := hfreed.passed _ hlt le_rfl
    rw [hat, h.leaf] at hhub
    exact absurd hhub (by decide)
  rw [hrun]
  exact congrArg some (show AddressPool.mk p'.hubCounter p'.thePool = _ by rw [hcounter, hpool])

/-- An address for a device that is no hub: there is none, or the pool has a guest. -/
theorem Tree.allocAddress_guest (h : Tree p) {parent port : UInt8}
    (hs : Sound p (.alloc parent false port)) (b : Bool) :
    (p.setLowspeed 0 b).allocAddress parent false port = (p.setLowspeed 0 b, 0) ∨
      ∃ i a, p.Guest i a ∧ (p.setLowspeed 0 b).allocAddress parent false port =
        (p.guest b i ⟨.dev0ep, ofByte a, 1, false⟩, a) := by
  have hq := h.setLowspeed 0 b
  have hsound : Sound (p.setLowspeed 0 b) (.alloc parent false port) := by
    simp only [Sound, setLowspeed_addressAt] at hs ⊢
    exact hs
  have htree := hq.allocAddress hsound
  rcases allocAddress_cases (p.setLowspeed 0 b) parent false port with
    ⟨hfail, -⟩ | ⟨i, hi, hfree, -, -, -, hc, hok⟩
  · exact Or.inl hfail
  · set addr := (p.setLowspeed 0 b).newAddress parent false port with haddr
    have hfree' : p.thePool i = .free := by
      rw [setLowspeed_addressAt] at hfree
      exact h.unused i hi hfree
    have hself : (p.setLowspeed 0 b).thePool i = .free :=
      (Function.update_of_ne hi _ _).trans hfree'
    have hplug : (p.setLowspeed 0 b).plug i ((p.setLowspeed 0 b).countHub false) addr =
        p.guest b i ⟨.dev0ep, ofByte addr.devAddress, 1, false⟩ := by
      rw [AddressPool.plug, hself, ofByte_devAddress]
      rfl
    rw [hok, hplug] at htree
    refine Or.inr ⟨i, addr.devAddress, ⟨hi, ?_, hfree', ?_, ?_⟩, by rw [hok, hplug]⟩
    · intro h0
      refine hq.newAddress_fresh hsound hc 0 ?_
      rw [hq.root, ← haddr]
      exact (devAddress_eq_iff.mp h0).symm
    · rw [ofByte_devAddress, haddr, newAddress_bmHub]
    · intro b' d hd
      have hat : ∀ j, (p.guest b' i d).addressAt j =
          (p.guest b i ⟨.dev0ep, ofByte addr.devAddress, 1, false⟩).addressAt j := by
        intro j
        by_cases hj : j = i
        · rw [hj, guest_addressAt_self, guest_addressAt_self, hd]
        · have hne : ∀ b d, (p.guest b i d).addressAt j = p.addressAt j := fun b d ↦
            (congrArg _ (Function.update_of_ne hj _ _)).trans (setLowspeed_addressAt p b j)
          rw [hne, hne]
      refine htree.of_address_eq rfl hat fun j hj hjfree ↦ ?_
      have hji : j ≠ i := by
        rintro rfl
        rw [guest_addressAt_self] at hjfree
        exact hq.newAddress_fresh hsound hc 0 (hq.root.trans (by
          rw [← hjfree, ofByte_devAddress]))
      have hkept : ∀ b d, (p.guest b i d).thePool j = p.thePool j := fun b d ↦
        (Function.update_of_ne hji _ _).trans (Function.update_of_ne hj _ _)
      rw [hkept, hkept]

end AddressPool

/-! ### The table of endpoints -/

namespace HidBoot

variable {proto : UInt8} {slot : Fin 16} {u u' : Usb n} {bNumEP : UInt8} {c c' : Call n}

/-- The driver's table, of which `bNumEP` entries are in use: none is past its end, and the
interrupt endpoints are not waited for. -/
structure EpTable (proto : UInt8) (slot : Fin 16) (u : Usb n) (bNumEP : UInt8) : Prop where
  length : (u.epRecords (.driver slot)).length = (totalEndpoints proto).toNat
  pos : 0 < bNumEP.toNat
  le : bNumEP.toNat ≤ (totalEndpoints proto).toNat
  control : (u.epInfoAt (.driver slot, 0)).epAddr = 0
  noWait : ∀ k, 0 < k → k < (totalEndpoints proto).toNat →
    (u.epInfoAt (.driver slot, k)).bmNakPower = usbNakNoWait

/-- The table holds the control endpoint. -/
theorem one_lt_totalEndpoints (proto : UInt8) : 1 < (totalEndpoints proto).toNat := by
  unfold totalEndpoints
  split <;> decide

/-- Requests leave the table as it is. -/
theorem EpTable.toggled (h : EpTable proto slot u bNumEP) (ht : u.Toggled u') :
    EpTable proto slot u' bNumEP where
  length := (ht.length_epRecords _).trans h.length
  pos := h.pos
  le := h.le
  control := (ht.epInfoAt _).epAddr.trans h.control
  noWait k hk hlt := (ht.epInfoAt _).bmNakPower.trans (h.noWait k hk hlt)

/-- So does `Release`, which only forgets that its entries are in use. -/
theorem EpTable.one (h : EpTable proto slot u bNumEP) : EpTable proto slot u 1 where
  length := h.length
  pos := by decide
  le := (one_lt_totalEndpoints proto).le
  control := h.control
  noWait := h.noWait

/-- The pool is not part of the table. -/
theorem EpTable.addrPool (h : EpTable proto slot u bNumEP) (pool : AddressPool n) :
    EpTable proto slot { u with addrPool := pool } bNumEP :=
  ⟨h.length, h.pos, h.le, h.control, h.noWait⟩

/-- A new packet size for the control endpoint. -/
theorem EpTable.setMaxPktSize (h : EpTable proto slot u bNumEP) (size : UInt8) :
    EpTable proto slot (u.setEpInfo (.driver slot, 0)
      { u.epInfoAt (.driver slot, 0) with maxPktSize := size }) bNumEP where
  length := (Usb.length_setEpInfo u _ _ _).trans h.length
  pos := h.pos
  le := h.le
  control := by
    rw [Usb.epInfoAt_setEpInfo]
    split <;> exact h.control
  noWait k hk hlt := by
    rw [Usb.epInfoAt_setEpInfo, if_neg fun heq ↦ hk.ne' (Prod.mk.inj heq.1).2]
    exact h.noWait k hk hlt

/-- What `EndpointXtract` leaves alone. -/
structure Extracted (s s' : Usb n × HidBoot) : Prop where
  addrPool : s'.1.addrPool = s.1.addrPool
  bAddress : s'.2.bAddress = s.2.bAddress
  bPollEnable : s'.2.bPollEnable = s.2.bPollEnable

/-- `EndpointXtract` fills in the next entry, if there is one. -/
theorem EpTable.endpointXtract {s : Usb n × HidBoot} (h : EpTable proto slot s.1 s.2.bNumEP)
    (pep : EndpointCall) :
    EpTable proto slot (endpointXtract proto slot s pep).1
      (endpointXtract proto slot s pep).2.bNumEP ∧
    Extracted s (HidBoot.endpointXtract proto slot s pep) := by
  obtain ⟨u, hid⟩ := s
  rw [HidBoot.endpointXtract]
  dsimp only
  split
  · exact ⟨h, rfl, rfl, rfl⟩
  · next hne =>
    split
    · have hle : hid.bNumEP.toNat ≤ (totalEndpoints proto).toNat := h.le
      have hmore : hid.bNumEP.toNat < (totalEndpoints proto).toNat :=
        lt_of_le_of_ne hle fun heq ↦ hne (UInt8.toNat_inj.mp heq)
      have htotal := (totalEndpoints proto).toNat_lt
      have hnext : (hid.bNumEP + 1).toNat = hid.bNumEP.toNat + 1 := by
        rw [UInt8.toNat_add, UInt8.toNat_one]
        omega
      refine ⟨⟨?_, ?_, ?_, ?_, ?_⟩, rfl, rfl, rfl⟩
      · exact (Usb.length_setEpInfo u _ _ _).trans h.length
      · rw [hnext]
        omega
      · rw [hnext]
        omega
      · rw [Usb.epInfoAt_setEpInfo, if_neg fun heq ↦ h.pos.ne (Prod.mk.inj heq.1).2]
        exact h.control
      · intro k hk hlt
        rw [Usb.epInfoAt_setEpInfo]
        split
        · rfl
        · exact h.noWait k hk hlt
    · exact ⟨⟨h.length, h.pos, h.le, h.control, h.noWait⟩, rfl, rfl, rfl⟩

/-- So do the calls for a whole configuration. -/
theorem EpTable.foldl {s : Usb n × HidBoot} (h : EpTable proto slot s.1 s.2.bNumEP)
    (peps : List EndpointCall) :
    EpTable proto slot (peps.foldl (HidBoot.endpointXtract proto slot) s).1
      (peps.foldl (HidBoot.endpointXtract proto slot) s).2.bNumEP ∧
    Extracted s (peps.foldl (HidBoot.endpointXtract proto slot) s) := by
  induction peps generalizing s with
  | nil => exact ⟨h, rfl, rfl, rfl⟩
  | cons pep peps ih =>
    obtain ⟨h', hx⟩ := h.endpointXtract pep
    obtain ⟨h'', hx'⟩ := ih h'
    exact ⟨h'', hx'.addrPool.trans hx.addrPool, hx'.bAddress.trans hx.bAddress,
      hx'.bPollEnable.trans hx.bPollEnable⟩

end HidBoot

/-! ### Requests of a method -/

namespace Call

variable {c c' c'' : Call n}

/-- A method has made requests only. -/
structure Quiet (c c' : Call n) : Prop where
  toggled : c.usb.Toggled c'.usb
  hid : c'.hid = c.hid
  script : c'.script <:+ c.script

/-- No request. -/
theorem Quiet.refl (c : Call n) : c.Quiet c := ⟨.refl _, rfl, List.suffix_refl _⟩

/-- More requests. -/
theorem Quiet.trans (h : c.Quiet c') (h' : c'.Quiet c'') : c.Quiet c'' :=
  ⟨h.toggled.trans h'.toggled, h'.hid.trans h.hid, h'.script.trans h.script⟩

/-- A control request. -/
theorem request_ctrlReq {addr ep : UInt8} {pkt : SetupPkt} {nbytes : UInt16}
    {dataptr : Option (List UInt8)}
    (h : (c.request fun u ↦ u.ctrlReq addr ep pkt nbytes dataptr) = some c') : c.Quiet c' := by
  obtain ⟨r, hr, rfl⟩ := Option.map_eq_some_iff.mp h
  obtain ⟨htoggled, hsuffix⟩ := Usb.ctrlReq_toggled hr
  exact ⟨htoggled, rfl, hsuffix⟩

/-- The code after `if(rcode) goto Fail…` is reached without an error. -/
theorem andThen_eq_some {x : Option (Call n)} {f : Call n → Option (Call n)}
    (h : andThen x f = some c') :
    ∃ c, x = some c ∧ (c.rcode ≠ 0 ∧ c' = c ∨ c.rcode = 0 ∧ f c = some c') := by
  obtain ⟨c, hc, h⟩ := Option.bind_eq_some_iff.mp h
  refine ⟨c, hc, ?_⟩
  split at h
  · next hne =>
    cases h
    exact Or.inl ⟨hne, rfl⟩
  · next hok => exact Or.inr ⟨not_not.mp hok, h⟩

end Call

namespace HidBoot

open Call

variable {proto : UInt8} {slot : Fin 16} {c c' : Call n}

/-- The requests to one interface. -/
theorem setInterface_quiet {i : UInt8} (h : setInterface i c = some c') : c.Quiet c' := by
  obtain ⟨c₁, h₁, ⟨-, rfl⟩ | ⟨-, h⟩⟩ := andThen_eq_some h
  · exact request_ctrlReq h₁
  · obtain ⟨c₂, h₂, h⟩ := Option.bind_eq_some_iff.mp h
    obtain ⟨c₃, h₃, rfl⟩ := Option.map_eq_some_iff.mp h
    have hquiet := ((request_ctrlReq h₁).trans (request_ctrlReq h₂)).trans (request_ctrlReq h₃)
    exact ⟨hquiet.toggled, hquiet.hid, hquiet.script⟩

/-- The requests to all interfaces. -/
theorem setInterfaces_quiet {is : List UInt8} (h : setInterfaces is c = some c') :
    c.Quiet c' := by
  induction is generalizing c with
  | nil =>
    cases h
    exact .refl _
  | cons i is ih =>
    obtain ⟨c₁, h₁, ⟨-, rfl⟩ | ⟨-, h⟩⟩ := andThen_eq_some h
    · exact setInterface_quiet h₁
    · exact (setInterface_quiet h₁).trans (ih h)

private theorem twinkle_quiet {leds : List UInt8} (h : twinkle leds c = some c') : c.Quiet c' := by
  induction leds generalizing c with
  | nil =>
    cases h
    exact .refl _
  | cons led leds ih =>
    obtain ⟨c₁, h₁, h⟩ := Option.bind_eq_some_iff.mp h
    have hquiet := ih h
    exact (request_ctrlReq h₁).trans ⟨hquiet.toggled, hquiet.hid, hquiet.script⟩

/-! ### The states between calls -/

/-- The driver has no device, and the pool is as it was found but for the speed in entry 0. -/
structure Idle (p : AddressPool n) (u : Usb n) (h : HidBoot) : Prop where
  bAddress : h.bAddress = 0
  bPollEnable : h.bPollEnable = false
  bNumEP : h.bNumEP = 1
  pool : ∃ b, u.addrPool = p.setLowspeed 0 b

/-- The driver has a device: one entry of the pool is its own and points at its full table. -/
structure Attached (proto : UInt8) (slot : Fin 16) (p : AddressPool n) (u : Usb n) (h : HidBoot) :
    Prop where
  bPollEnable : h.bPollEnable = true
  bNumEP : h.bNumEP = totalEndpoints proto
  pool : ∃ i b ls, p.Guest i h.bAddress ∧ u.addrPool =
    p.guest b i ⟨.driver slot, ofByte h.bAddress, totalEndpoints proto, ls⟩

/-- In `Init`, when the device has its address and is not yet polled. -/
structure Addressed (p : AddressPool n) (i : Fin (n + 1)) (c : Call n) : Prop where
  guest : p.Guest i c.hid.bAddress
  bPollEnable : c.hid.bPollEnable = false
  pool : ∃ b d, d.address = ofByte c.hid.bAddress ∧ c.usb.addrPool = p.guest b i d

/-- What every call keeps: the table is within bounds, and the driver is idle or has a device. -/
structure Settled (proto : UInt8) (slot : Fin 16) (p : AddressPool n) (u : Usb n) (h : HidBoot) :
    Prop where
  table : EpTable proto slot u h.bNumEP
  state : Idle p u h ∨ Attached proto slot p u h

variable {p : AddressPool n} {i : Fin (n + 1)}

private theorem Addressed.quiet (h : Addressed p i c) (hq : c.Quiet c') : Addressed p i c' := by
  obtain ⟨hguest, hpoll, b, d, hd, hpool⟩ := h
  refine ⟨?_, ?_, b, d, ?_, ?_⟩
  · rwa [hq.hid]
  · rwa [hq.hid]
  · rwa [hq.hid]
  · rw [hq.toggled.addrPool, hpool]

private theorem Addressed.extracted (h : Addressed p i c)
    (hx : Extracted (c.usb, c.hid) (c'.usb, c'.hid)) : Addressed p i c' := by
  obtain ⟨hguest, hpoll, b, d, hd, hpool⟩ := h
  have haddr : c'.hid.bAddress = c.hid.bAddress := hx.bAddress
  refine ⟨?_, hx.bPollEnable.trans hpoll, b, d, ?_, hx.addrPool.trans hpool⟩
  · rwa [haddr]
  · rwa [haddr]

/-- The label `Fail` takes the address back. -/
theorem Addressed.fail (h : Addressed p i c) : ∃ c', c.fail = some c' ∧ c'.rcode = c.rcode ∧
    (∀ e, c'.usb.epRecords e = c.usb.epRecords e) ∧ Idle p c'.usb c'.hid := by
  obtain ⟨hguest, -, b, d, hd, hpool⟩ := h
  have hfree : c.usb.addrPool.freeAddress c.hid.bAddress = some (p.setLowspeed 0 b) := by
    rw [hpool]
    exact hguest.freeAddress hd
  simp only [Call.fail, release, hfree, Option.map_some]
  exact ⟨_, rfl, rfl, fun _ ↦ rfl, rfl, rfl, rfl, b, rfl⟩

/-- `FreeAddress(0)` frees nothing. -/
theorem Idle.fail (hp : AddressPool.Tree p) (h : Idle p c.usb c.hid) :
    ∃ c', c.fail = some c' ∧ c'.rcode = c.rcode ∧
      (∀ e, c'.usb.epRecords e = c.usb.epRecords e) ∧ Idle p c'.usb c'.hid := by
  obtain ⟨haddr, -, -, b, hpool⟩ := h
  have hfree : c.usb.addrPool.freeAddress c.hid.bAddress = some (p.setLowspeed 0 b) := by
    rw [hpool, haddr]
    exact (hp.setLowspeed 0 b).freeAddress_unused (by decide) (Or.inl rfl)
  simp only [Call.fail, release, hfree, Option.map_some]
  exact ⟨_, rfl, rfl, fun _ ↦ rfl, rfl, rfl, rfl, b, rfl⟩

/-- A record the table is in may be copied. -/
private theorem EpTable.congr {u u' : Usb n} {bNumEP : UInt8}
    (h : EpTable proto slot u bNumEP) (he : ∀ e, u'.epRecords e = u.epRecords e) :
    EpTable proto slot u' bNumEP := by
  have hat : ∀ ppep, u'.epInfoAt ppep = u.epInfoAt ppep := fun ppep ↦ by
    rw [Usb.epInfoAt, he, Usb.epInfoAt]
  refine ⟨?_, h.pos, h.le, ?_, ?_⟩
  · rw [he]
    exact h.length
  · rw [hat]
    exact h.control
  · intro k hk hlt
    rw [hat]
    exact h.noWait k hk hlt

/-! ### The steps of `Init` -/

private theorem readConf_spec {conf : UInt8} {buf : List UInt8} {parser parser' : ConfigDescParser}
    (htable : EpTable proto slot c.usb c.hid.bNumEP)
    (h : readConf proto slot conf buf parser c = some (parser', c')) :
    c'.rcode = 0 ∧ EpTable proto slot c'.usb c'.hid.bNumEP ∧
      Extracted (c.usb, c.hid) (c'.usb, c'.hid) := by
  obtain ⟨c₁, h₁, h⟩ := Option.bind_eq_some_iff.mp h
  obtain ⟨r, hr, rfl⟩ := Option.map_eq_some_iff.mp h₁
  obtain ⟨htoggled, -⟩ := Usb.parseConfDescr_toggled hr
  obtain ⟨⟨parser'', peps⟩, -, h⟩ := Option.map_eq_some_iff.mp h
  cases h
  have hstart : EpTable proto slot (r.usb, c.hid).1 (r.usb, c.hid).2.bNumEP :=
    htable.toggled htoggled
  obtain ⟨htable', hx⟩ := hstart.foldl peps
  exact ⟨rfl, htable', hx.addrPool.trans htoggled.addrPool, hx.bAddress, hx.bPollEnable⟩

private theorem tryConfs_spec {stack : UInt8 → ConfStack} {is : List UInt8}
    {parser : ConfigDescParser} (htable : EpTable proto slot c.usb c.hid.bNumEP)
    (h0 : c.rcode = 0) (h : tryConfs proto slot stack is parser c = some c') :
    c'.rcode = 0 ∧ EpTable proto slot c'.usb c'.hid.bNumEP ∧
      Extracted (c.usb, c.hid) (c'.usb, c'.hid) := by
  induction is generalizing parser c with
  | nil =>
    cases h
    exact ⟨h0, htable, rfl, rfl, rfl⟩
  | cons i is ih =>
    obtain ⟨⟨parser₁, c₁⟩, h₁, h⟩ := Option.bind_eq_some_iff.mp h
    obtain ⟨h0', htable', hx⟩ := readConf_spec htable h₁
    dsimp only at h
    split at h
    · cases h
      exact ⟨h0', htable', hx⟩
    · obtain ⟨h0'', htable'', hx'⟩ := ih htable' h0' h
      exact ⟨h0'', htable'', hx'.addrPool.trans hx.addrPool, hx'.bAddress.trans hx.bAddress,
        hx'.bPollEnable.trans hx.bPollEnable⟩

private theorem EpTable.quiet (h : EpTable proto slot c.usb c.hid.bNumEP) (hq : c.Quiet c') :
    EpTable proto slot c'.usb c'.hid.bNumEP := by
  rw [hq.hid]
  exact h.toggled hq.toggled

/-- `Init` from the address on fails with the device still addressed, or attaches it. -/
private theorem configure_spec {stack : UInt8 → ConfStack} {buf : List UInt8}
    (ha : Addressed p i c) (htable : EpTable proto slot c.usb c.hid.bNumEP)
    (h : configure proto slot stack buf c = some c') (hin : c'.hid.overrun = false) :
    EpTable proto slot c'.usb c'.hid.bNumEP ∧ (c'.rcode ≠ 0 ∧ Addressed p i c' ∨
      c'.rcode = 0 ∧ Attached proto slot p c'.usb c'.hid) := by
  obtain ⟨c₁, h₁, hnext⟩ := andThen_eq_some h
  have hq₁ : c.Quiet c₁ := by
    split at h₁
    · cases h₁
      exact ⟨.refl _, rfl, List.suffix_refl _⟩
    · exact request_ctrlReq h₁
  have ha₁ := ha.quiet hq₁
  have htable₁ := htable.quiet hq₁
  rcases hnext with ⟨hne, rfl⟩ | ⟨hok₁, h⟩
  · exact ⟨htable₁, Or.inl ⟨hne, ha₁⟩⟩
  obtain ⟨c₂, h₂, h⟩ := Option.bind_eq_some_iff.mp h
  have hconfs : c₂.rcode = 0 ∧ EpTable proto slot c₂.usb c₂.hid.bNumEP ∧
      Extracted (c₁.usb, c₁.hid) (c₂.usb, c₂.hid) := by
    split at h₂
    · exact tryConfs_spec htable₁ hok₁ h₂
    · cases h₂
      exact ⟨hok₁, htable₁, rfl, rfl, rfl⟩
  obtain ⟨-, htable₂, hx⟩ := hconfs
  have ha₂ := ha₁.extracted hx
  dsimp only at h
  split at h
  · next hover =>
    cases h
    rw [hover] at hin
    exact absurd hin (by decide)
  split at h
  · cases h
    exact ⟨htable₂, Or.inl ⟨show errorDeviceNotSupported ≠ 0 by decide, ha₂.guest,
      ha₂.bPollEnable, ha₂.pool⟩⟩
  next hfull =>
  rw [not_not] at hfull
  obtain ⟨hguest, hpoll, b, d, hd, hpool⟩ := ha₂
  -- from here on the entry of the pool points at the driver's table
  set c₃ : Call n := { c₂ with
    usb.addrPool := c₂.usb.addrPool.setEpInfoEntry c₂.hid.bAddress c₂.hid.bNumEP (.driver slot) }
    with hc₃
  have hpool₃ : c₃.usb.addrPool = p.guest b i
      ⟨.driver slot, ofByte c₃.hid.bAddress, totalEndpoints proto, d.lowspeed⟩ := by
    change c₂.usb.addrPool.setEpInfoEntry _ _ _ = _
    rw [hpool, hguest.setEpInfoEntry hd, hfull]
  have ha₃ : Addressed p i c₃ := ⟨hguest, hpoll, b, _, rfl, hpool₃⟩
  have htable₃ : EpTable proto slot c₃.usb c₃.hid.bNumEP := htable₂.addrPool _
  obtain ⟨c₄, h₄, ⟨hne, rfl⟩ | ⟨hok₄, h⟩⟩ := andThen_eq_some h
  · have hq := request_ctrlReq h₄
    exact ⟨htable₃.quiet hq, Or.inl ⟨hne, ha₃.quiet hq⟩⟩
  obtain ⟨c₅, h₅, hnext⟩ := andThen_eq_some h
  have hq₅ := (request_ctrlReq h₄).trans (setInterfaces_quiet h₅)
  rcases hnext with ⟨hne, rfl⟩ | ⟨hok₅, h⟩
  · exact ⟨htable₃.quiet hq₅, Or.inl ⟨hne, ha₃.quiet hq₅⟩⟩
  obtain ⟨c₆, h₆, rfl⟩ := Option.map_eq_some_iff.mp h
  have hq₆ : c₅.Quiet c₆ := by
    split at h₆
    · exact twinkle_quiet h₆
    · cases h₆
      exact .refl _
  have hq := hq₅.trans hq₆
  have htable₆ := htable₃.quiet hq
  refine ⟨htable₆, Or.inr ⟨rfl, rfl, ?_, i, b, d.lowspeed, ?_, ?_⟩⟩
  · change c₆.hid.bNumEP = _
    rw [hq.hid]
    exact hfull
  · change p.Guest i c₆.hid.bAddress
    rw [hq.hid]
    exact hguest
  · change c₆.usb.addrPool = p.guest b i
      ⟨.driver slot, ofByte c₆.hid.bAddress, totalEndpoints proto, d.lowspeed⟩
    rw [hq.toggled.addrPool, hq.hid, hpool₃]

/-- `p->epinfo` is restored. -/
theorem setEpinfo_back (p : AddressPool n) (e : EpPtr) (lowspeed : Bool) :
    ((p.setEpinfo e).setLowspeed 0 lowspeed).setEpinfo p.epinfo =
      p.setLowspeed 0 lowspeed := by
  change (((p.set 0 { p.thePool 0 with epinfo := e }).set 0
    { (p.set 0 { p.thePool 0 with epinfo := e }).thePool 0 with lowspeed }).setEpinfo
      p.epinfo) = p.set 0 { p.thePool 0 with lowspeed }
  simp only [AddressPool.setEpinfo, AddressPool.epinfo, AddressPool.set, Function.update_self,
    Function.update_idem]

/-- The first request leaves the pool as it was but for the speed. -/
private theorem firstDescr_spec (proto : UInt8) {lowspeed : Bool}
    (h : firstDescr slot c lowspeed = some c') :
    c'.hid = c.hid ∧ c'.usb.addrPool = c.usb.addrPool.setLowspeed 0 lowspeed ∧
      ∀ bNumEP, EpTable proto slot c.usb bNumEP → EpTable proto slot c'.usb bNumEP := by
  obtain ⟨c₁, h₁, rfl⟩ := Option.map_eq_some_iff.mp h
  have hq := request_ctrlReq h₁
  refine ⟨hq.hid, ?_, fun bNumEP ht ↦ ((ht.addrPool _).toggled hq.toggled).addrPool _⟩
  dsimp only
  rw [hq.toggled.addrPool]
  exact setEpinfo_back _ _ _

/-- The device gets an address, or the driver stays idle. -/
private theorem giveAddress_spec {parent port bMaxPacketSize0 : UInt8} {lowspeed : Bool}
    (hp : AddressPool.Tree p) (hs : AddressPool.Sound p (.alloc parent false port))
    (hidle : Idle p c.usb c.hid) (htable : EpTable proto slot c.usb c.hid.bNumEP)
    (h : giveAddress slot c parent port lowspeed bMaxPacketSize0 = some c') :
    EpTable proto slot c'.usb c'.hid.bNumEP ∧ (c'.rcode ≠ 0 ∧ Idle p c'.usb c'.hid ∨
      c'.rcode = 0 ∧ ∃ i, Addressed p i c') := by
  obtain ⟨haddr, hpoll, hnum, b, hpool⟩ := hidle
  rw [giveAddress, hpool] at h
  rcases hp.allocAddress_guest hs b with hnone | ⟨i, a, hguest, halloc⟩
  · rw [hnone] at h
    dsimp only at h
    rw [if_pos rfl] at h
    cases h
    exact ⟨htable.addrPool _, Or.inl ⟨show errorOutOfAddressSpaceInPool ≠ 0 by decide, rfl, hpoll,
      hnum, b, rfl⟩⟩
  · rw [halloc] at h
    dsimp only at h
    rw [if_neg hguest.addr_ne_zero] at h
    obtain ⟨c₁, h₁, h⟩ := Option.bind_eq_some_iff.mp h
    have hq := request_ctrlReq h₁
    have htable₁ : EpTable proto slot c₁.usb c₁.hid.bNumEP :=
      EpTable.quiet ((htable.addrPool _).setMaxPktSize bMaxPacketSize0) hq
    have hhid : c₁.hid = { c.hid with bAddress := a } := hq.hid
    have hpool₁ : c₁.usb.addrPool.setLowspeed 0 false =
        p.guest false i ⟨.dev0ep, ofByte a, 1, false⟩ := by
      rw [hq.toggled.addrPool]
      exact AddressPool.guest_setLowspeed_zero hguest.ne_zero b false
    rw [hpool₁] at h
    split at h
    · next hne =>
      obtain ⟨pool, hfree, rfl⟩ := Option.map_eq_some_iff.mp h
      rw [hguest.freeAddress rfl] at hfree
      cases hfree
      refine ⟨htable₁.addrPool _, Or.inl ⟨hne, rfl, ?_, ?_, false, rfl⟩⟩
      · exact (congrArg HidBoot.bPollEnable hhid).trans hpoll
      · exact (congrArg HidBoot.bNumEP hhid).trans hnum
    · next hok =>
      rw [hguest.getUsbDevicePtr rfl] at h
      dsimp only at h
      rw [hguest.setLowspeed rfl] at h
      cases h
      have haddr₁ : c₁.hid.bAddress = a := congrArg HidBoot.bAddress hhid
      refine ⟨htable₁.addrPool _, Or.inr ⟨not_not.mp hok, i, ?_, ?_, false, _, ?_, rfl⟩⟩
      · rwa [haddr₁]
      · exact (congrArg HidBoot.bPollEnable hhid).trans hpoll
      · rw [haddr₁]

/-- How `Init` ends for an idle driver, within its buffers: it fails without a trace, or a device
is attached. -/
def Ends (proto : UInt8) (slot : Fin 16) (p : AddressPool n) (c : Call n) : Prop :=
  EpTable proto slot c.usb c.hid.bNumEP ∧
    (c.rcode ≠ 0 ∧ Idle p c.usb c.hid ∨ c.rcode = 0 ∧ Attached proto slot p c.usb c.hid)

private theorem ends_of_fail {c'' : Call n} (htable : EpTable proto slot c.usb c.hid.bNumEP)
    (hne : c.rcode ≠ 0) (hfail : c.fail = some c') (h : c.fail = some c'')
    (hr : c'.rcode = c.rcode) (he : ∀ e, c'.usb.epRecords e = c.usb.epRecords e)
    (hidle : Idle p c'.usb c'.hid) : Ends proto slot p c'' := by
  obtain rfl := Option.some.inj (hfail.symm.trans h)
  refine ⟨?_, Or.inl ⟨hr ▸ hne, hidle⟩⟩
  rw [hidle.bNumEP]
  exact (htable.congr he).one

/-- `Init` from the address on. -/
private theorem configure_ends {stack : UInt8 → ConfStack} {buf : List UInt8}
    (ha : Addressed p i c) (htable : EpTable proto slot c.usb c.hid.bNumEP)
    (h : ((configure proto slot stack buf c).bind fun c ↦
      if c.hid.overrun = false ∧ c.rcode ≠ 0 then c.fail else some c) = some c')
    (hin : c'.hid.overrun = false) : Ends proto slot p c' := by
  obtain ⟨c₁, h₁, h⟩ := Option.bind_eq_some_iff.mp h
  split at h
  · next hfail =>
    obtain ⟨htable₁, ⟨hne, ha₁⟩ | ⟨hok, -⟩⟩ := configure_spec ha htable h₁ hfail.1
    · obtain ⟨c₂, h₂, hr, he, hidle⟩ := ha₁.fail
      exact ends_of_fail htable₁ hne h₂ h hr he hidle
    · exact absurd hok hfail.2
  · next hstay =>
    cases h
    obtain ⟨htable₁, ⟨hne, -⟩ | ⟨hok, hatt⟩⟩ := configure_spec ha htable h₁ hin
    · exact absurd ⟨hin, hne⟩ hstay
    · exact ⟨htable₁, Or.inr ⟨hok, hatt⟩⟩

/-- `Init` of an idle driver. -/
theorem init_ends {parent port : UInt8} {lowspeed : Bool} {buf : List UInt8}
    {stack : UInt8 → ConfStack} (hp : AddressPool.Tree p)
    (hs : AddressPool.Sound p (.alloc parent false port))
    (htable : EpTable proto slot c.usb c.hid.bNumEP) (hidle : Idle p c.usb c.hid)
    (h : init proto slot c parent port lowspeed buf stack = some c')
    (hin : c'.hid.overrun = false) : Ends proto slot p c' := by
  rw [init, if_neg (not_not.mpr hidle.bAddress)] at h
  dsimp only at h
  split at h
  · cases h
    exact ⟨htable, Or.inl ⟨show errorEpInfoIsNull ≠ 0 by decide, hidle.bAddress,
      hidle.bPollEnable, hidle.bNumEP, hidle.pool⟩⟩
  · obtain ⟨c₁, h₁, h⟩ := Option.bind_eq_some_iff.mp h
    obtain ⟨hhid, hpool, htables⟩ := firstDescr_spec proto h₁
    have htable₁ : EpTable proto slot c₁.usb c₁.hid.bNumEP := by
      rw [hhid]
      exact htables _ htable
    have hidle₁ : Idle p c₁.usb c₁.hid := by
      obtain ⟨b, hb⟩ := hidle.pool
      rw [hhid]
      refine ⟨hidle.bAddress, hidle.bPollEnable, hidle.bNumEP, lowspeed, hpool.trans ?_⟩
      dsimp only
      rw [hb, AddressPool.setLowspeed_setLowspeed]
    split at h
    · next hne =>
      obtain ⟨c₂, h₂, hr, he, hidle₂⟩ := hidle₁.fail hp
      exact ends_of_fail htable₁ hne h₂ h hr he hidle₂
    · obtain ⟨c₂, h₂, hnext⟩ := andThen_eq_some h
      obtain ⟨htable₂, ⟨hne, hidle₂⟩ | ⟨hok, i, ha⟩⟩ := giveAddress_spec hp hs hidle₁ htable₁ h₂
      · rcases hnext with ⟨-, rfl⟩ | ⟨hok, -⟩
        · exact ⟨htable₂, Or.inl ⟨hne, hidle₂⟩⟩
        · exact absurd hok hne
      · rcases hnext with ⟨hne, -⟩ | ⟨-, h⟩
        · exact absurd hok hne
        · exact configure_ends ha htable₂ h hin

/-- `Release` leaves an idle driver, and the pool as it was found. -/
theorem Settled.release (hp : AddressPool.Tree p) (h : Settled proto slot p c.usb c.hid) :
    ∃ u hid, release c.usb c.hid = some (u, hid) ∧ EpTable proto slot u hid.bNumEP ∧
      Idle p u hid := by
  have hfail : ∃ c', c.fail = some c' ∧ (∀ e, c'.usb.epRecords e = c.usb.epRecords e) ∧
      Idle p c'.usb c'.hid := by
    rcases h.state with hidle | hatt
    · obtain ⟨c', h', -, he, hidle'⟩ := hidle.fail hp
      exact ⟨c', h', he, hidle'⟩
    · obtain ⟨i, b, ls, hguest, hpool⟩ := hatt.pool
      have hfree : c.usb.addrPool.freeAddress c.hid.bAddress = some (p.setLowspeed 0 b) := by
        rw [hpool]
        exact hguest.freeAddress rfl
      simp only [Call.fail, HidBoot.release, hfree, Option.map_some]
      exact ⟨_, rfl, fun _ ↦ rfl, rfl, rfl, rfl, b, rfl⟩
  obtain ⟨c', h', he, hidle⟩ := hfail
  obtain ⟨⟨u, hid⟩, hrun, rfl⟩ := Option.map_eq_some_iff.mp h'
  refine ⟨u, hid, hrun, ?_, hidle⟩
  rw [show hid.bNumEP = 1 from hidle.bNumEP]
  exact (h.table.congr he).one

/-! ### Polls -/

/-- What a poll changes of the driver: the time of the next one, and what is no member. -/
structure Polled (c c' : Call n) : Prop where
  toggled : c.usb.Toggled c'.usb
  hid : ∃ o t, c'.hid = { c.hid with overrun := o, qNextPollTime := t }

private theorem pollOne_polled {k : Nat} {reports : List Report}
    (h : pollOne slot k c = some (c', reports)) : Polled c c' := by
  obtain ⟨c₁, h₁, h⟩ := Option.map_eq_some_iff.mp h
  obtain ⟨r, hr, rfl⟩ := Option.map_eq_some_iff.mp h₁
  obtain ⟨htoggled, -⟩ := Usb.inTransfer_toggled hr
  dsimp only at h
  split at h
  · cases h
    exact ⟨htoggled, c.hid.overrun, c.hid.qNextPollTime, rfl⟩
  split at h
  · cases h
    exact ⟨htoggled, true, c.hid.qNextPollTime, rfl⟩
  split at h
  · cases h
    exact ⟨htoggled, c.hid.overrun, c.hid.qNextPollTime, rfl⟩
  · cases h
    exact ⟨htoggled, c.hid.overrun, c.hid.qNextPollTime, rfl⟩

private theorem Polled.trans {c'' : Call n} (h : Polled c c') (h' : Polled c' c'') :
    Polled c c'' := by
  obtain ⟨o, t, ho⟩ := h.hid
  obtain ⟨o', t', ho'⟩ := h'.hid
  exact ⟨h.toggled.trans h'.toggled, o', t', by rw [ho', ho]⟩

private theorem pollAll_polled {ks : List Nat} {reports : List Report}
    (h : pollAll slot ks c = some (c', reports)) : Polled c c' := by
  induction ks generalizing c reports with
  | nil =>
    cases h
    exact ⟨.refl _, _, _, rfl⟩
  | cons k ks ih =>
    obtain ⟨⟨c₁, rs₁⟩, h₁, h⟩ := Option.bind_eq_some_iff.mp h
    dsimp only at h
    split at h
    · cases h
      exact pollOne_polled h₁
    · obtain ⟨⟨c₂, rs₂⟩, h₂, h⟩ := Option.map_eq_some_iff.mp h
      cases h
      exact (pollOne_polled h₁).trans (ih h₂)

/-- A poll leaves everything but toggles and the time of the next one. -/
theorem poll_polled {now later : UInt32} {reports : List Report}
    (h : poll proto slot c now later = some (c', reports)) : Polled c c' := by
  rw [poll] at h
  split at h
  · obtain ⟨⟨c₁, rs⟩, h₁, h⟩ := Option.map_eq_some_iff.mp h
    cases h
    obtain ⟨htoggled, o, t, ho⟩ := pollAll_polled h₁
    exact ⟨htoggled, o, _, by rw [ho]⟩
  · cases h
    exact ⟨.refl _, c.hid.overrun, c.hid.qNextPollTime, rfl⟩

/-- A poll keeps a driver idle, or its device attached. -/
theorem Settled.polled (h : Settled proto slot p c.usb c.hid) (hpoll : Polled c c') :
    Settled proto slot p c'.usb c'.hid := by
  obtain ⟨htoggled, o, t, ho⟩ := hpoll
  rw [ho]
  refine ⟨h.table.toggled htoggled, h.state.imp ?_ ?_⟩
  · intro hidle
    obtain ⟨b, hb⟩ := hidle.pool
    exact ⟨hidle.bAddress, hidle.bPollEnable, hidle.bNumEP, b, htoggled.addrPool.trans hb⟩
  · intro hatt
    obtain ⟨i, b, ls, hguest, hpool⟩ := hatt.pool
    exact ⟨hatt.bPollEnable, hatt.bNumEP, i, b, ls, hguest, htoggled.addrPool.trans hpool⟩

/-! ### Runs -/

/-- A call of a method, with what the bus, the clock and the stack do for it. -/
inductive BootCall where
  | init (parent port : UInt8) (lowspeed : Bool) (buf : List UInt8) (stack : UInt8 → ConfStack)
      (script : Script)
  | poll (now later : UInt32) (script : Script)
  | release

/-- One call of a method; `none` if its script runs out. -/
def method (proto : UInt8) (slot : Fin 16) (s : Usb n × HidBoot) :
    BootCall → Option ((Usb n × HidBoot) × List Report)
  | .init parent port lowspeed buf stack script =>
    (init proto slot ⟨⟨0, [], s.1, script⟩, s.2⟩ parent port lowspeed buf stack).map fun c ↦
      ((c.usb, c.hid), [])
  | .poll now later script =>
    (poll proto slot ⟨⟨0, [], s.1, script⟩, s.2⟩ now later).map fun (c, reports) ↦
      ((c.usb, c.hid), reports)
  | .release => (release s.1 s.2).map fun s ↦ (s, [])

/-- One call, if the driver has left no buffer before. -/
def call (proto : UInt8) (slot : Fin 16) (s : Usb n × HidBoot) (b : BootCall) :
    Option ((Usb n × HidBoot) × List Report) :=
  if s.2.overrun then some (s, []) else method proto slot s b

/-- The driver as a machine, which stops when a script runs out. -/
def machine (proto : UInt8) (slot : Fin 16) (s : Usb n × HidBoot) :
    Machine (Option (Usb n × HidBoot)) BootCall Report where
  init := some s
  step s c :=
    match s.bind (call proto slot · c) with
    | some (s, reports) => (some s, reports)
    | none => (none, [])

/-- What a call does that returns. -/
theorem machine_step {s₀ s s' : Usb n × HidBoot} {b : BootCall}
    (h : ((machine proto slot s₀).step (some s) b).1 = some s') :
    call proto slot s b = some (s', ((machine proto slot s₀).step (some s) b).2) := by
  simp only [machine, Option.bind_some] at h ⊢
  cases hcall : call proto slot s b with
  | none =>
    rw [hcall] at h
    cases h
  | some r =>
    rw [hcall] at h
    cases h
    rfl

/-- A driver as constructed, with or without its report parsers, is idle. -/
theorem settled_start {u : Usb n} {h : HidBoot} (hp : u.addrPool = p)
    (hu : u.epRecords (.driver slot) = initEpInfo proto) (haddr : h.bAddress = 0)
    (hpoll : h.bPollEnable = false) (hnum : h.bNumEP = 1) : Settled proto slot p u h := by
  have hlen : (initEpInfo proto).length = (totalEndpoints proto).toNat := by
    have hone := one_lt_totalEndpoints proto
    rw [initEpInfo, List.length_cons, List.length_replicate]
    omega
  refine ⟨?_, Or.inl ⟨haddr, hpoll, hnum, ?_⟩⟩
  swap
  · exact ⟨_, hp.trans (AddressPool.setLowspeed_self p).symm⟩
  rw [hnum]
  refine ⟨?_, by decide, (one_lt_totalEndpoints proto).le, ?_, ?_⟩
  · rw [hu]
    exact hlen
  · rw [Usb.epInfoAt, hu]
    rfl
  · intro k hk hlt
    obtain ⟨j, rfl⟩ : ∃ j, k = j + 1 := ⟨k - 1, by omega⟩
    have hj : j < (totalEndpoints proto).toNat - 1 := by omega
    rw [Usb.epInfoAt, hu, initEpInfo, List.getElem?_cons_succ, List.getElem?_replicate, if_pos hj]
    rfl

/-- The first device of a new pool. -/
theorem guest_init : (AddressPool.init 15).Guest ⟨1, by decide⟩ 1 := by
  have hsound : (AddressPool.init 15).Sound (.alloc 0 false 0) := by decide +kernel
  have haddr : (((AddressPool.init 15).setLowspeed 0 false).allocAddress 0 false 0).2 = 1 := by
    decide +kernel
  have hat : (((AddressPool.init 15).setLowspeed 0 false).allocAddress 0 false 0).1.addressAt
      ⟨1, by decide⟩ = ofByte 1 := by decide +kernel
  obtain hnone | ⟨i, a, hguest, halloc⟩ := AddressPool.tree_init.allocAddress_guest hsound false
  · rw [hnone] at haddr
    exact absurd haddr (by decide)
  · rw [halloc] at haddr hat
    obtain rfl : a = 1 := haddr
    by_cases hi : ⟨1, by decide⟩ = i
    · rwa [hi]
    · have hzero : ((AddressPool.init 15).guest false i ⟨.dev0ep, ofByte 1, 1, false⟩).addressAt
          ⟨1, by decide⟩ = ofByte 0 := by
        rw [AddressPool.addressAt, AddressPool.guest, AddressPool.set_thePool,
          Function.update_of_ne hi]
        rfl
      rw [hzero] at hat
      exact absurd hat (by decide)

/-- The shield before any device is attached, with a driver in `slot`. -/
def driverUsb (proto : UInt8) (slot : Fin 16) : Usb 15 :=
  { freshUsb with
    epRecords := fun e ↦ if e = .driver slot then initEpInfo proto else freshUsb.epRecords e }

/-- A stack of zeros. -/
def zeroStack : ConfStack := ⟨Vector.replicate 16 0, 0, false, 0, 0, 0, 0, []⟩

/-- The device descriptor of a mouse with control packets of `size` bytes. -/
def mouseDescr (size : UInt8) : List UInt8 :=
  [18, 1, 0x10, 1, 0, 0, 0, size, 0x6D, 4, 0x77, 0xC0, 0, 0x72, 1, 2, 0, 1]

/-- Its configuration, of one boot interface with one interrupt endpoint. -/
def mouseConf : List UInt8 := [9, 2, 34, 0, 1, 1, 0, 0xA0, 50]

@[inherit_doc mouseConf]
def mouseInterface : List (List UInt8) :=
  [[9, 4, 0, 0, 1, 3, 1, 2, 0], [9, 0x21, 0x11, 1, 0, 1, 0x22, 52, 0], [7, 5, 0x81, 3, 4, 0, 10]]

/-- The answers of such a mouse, up to its configuration. -/
def introduction (size : UInt8) : Script :=
  plainScript size.toNat 8 (mouseDescr size) ++ ([ackAnswer, ackAnswer] ++
    plainScript size.toNat 18 (mouseDescr size))

@[inherit_doc introduction]
def configuration (size : UInt8) : Script :=
  plainScript size.toNat 9 (mouseConf :: mouseInterface).flatten ++
    plainScript size.toNat 34 (mouseConf :: mouseInterface).flatten

/-- And from there on; it does not know `SET_IDLE`. -/
def startOfWork : Script :=
  [ackAnswer, ackAnswer] ++
    ([ackAnswer, ackAnswer] ++ ([stallAnswer] ++ plainScript 8 128 (List.replicate 52 0)))

end HidBoot

end MouseAide.Host
