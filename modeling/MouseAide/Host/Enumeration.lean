import MouseAide.Host.Polls
import Mathlib.Data.List.TakeWhile

/-!
# Enumerating a boot mouse

Library `MouseHost`. The requests `Init` makes of a mouse that keeps to the protocol, in order,
through three different control endpoints: the driver's own for the first eight bytes, then the
one the pool shares, which takes packets to be of eight bytes, and the driver's again once the
device is attached. The second is the one the configuration is read through.
-/

namespace MouseAide.Host

open UsbDeviceAddress

variable {n D : Nat} {addr ep size : UInt8} {nakLimit : UInt16} {pkt : SetupPkt} {s rest : Script}
  {u u' : Usb n} {e : EpPtr}

/-! ### Control endpoints -/

/-- The NAK limit of control endpoints. -/
def nakMax : UInt16 := 32767

/-- A request to the control endpoint of `addr` goes through the record `e`, whose first entry
takes packets to be of `size` bytes. -/
structure Usb.Reaches (u : Usb n) (addr : UInt8) (e : EpPtr) (size : UInt8) : Prop where
  setAddress : u.setAddress addr 0 = .ok ((e, 0), nakMax)
  maxPktSize : (u.epInfoAt (e, 0)).maxPktSize = size

/-- Transfers leave the control endpoint where it is. -/
theorem Usb.Reaches.toggled (h : u.Reaches addr e size) (ht : u.Toggled u') :
    u'.Reaches addr e size :=
  ⟨(ht.setAddress addr 0).trans h.setAddress, (ht.epInfoAt _).maxPktSize.trans h.maxPktSize⟩

/-- A record whose first entry is a control endpoint as `Initialize` and `USB` set it up. -/
structure Usb.HasControl (u : Usb n) (e : EpPtr) (size : UInt8) : Prop where
  length : 0 < (u.epRecords e).length
  epAddr : (u.epInfoAt (e, 0)).epAddr = 0
  maxPktSize : (u.epInfoAt (e, 0)).maxPktSize = size
  bmNakPower : (u.epInfoAt (e, 0)).bmNakPower.val = usbNakMaxPower

/-- Transfers leave a control endpoint as it is. -/
theorem Usb.HasControl.toggled (h : u.HasControl e size) (ht : u.Toggled u') :
    u'.HasControl e size where
  length := by
    rw [ht.length_epRecords]
    exact h.length
  epAddr := (ht.epInfoAt _).epAddr.trans h.epAddr
  maxPktSize := (ht.epInfoAt _).maxPktSize.trans h.maxPktSize
  bmNakPower := by
    rw [(ht.epInfoAt _).bmNakPower]
    exact h.bmNakPower

/-- The pool is not part of the records. -/
theorem Usb.HasControl.addrPool (h : u.HasControl e size) (pool : AddressPool n) :
    Usb.HasControl { u with addrPool := pool } e size :=
  ⟨h.length, h.epAddr, h.maxPktSize, h.bmNakPower⟩

/-- A pool entry that points at such a record. -/
theorem Usb.HasControl.reaches {i : Fin (n + 1)} (h : u.HasControl e size)
    (hi : u.addrPool.getUsbDevicePtr addr = some i) (hnull : e ≠ .null)
    (he : (u.addrPool.thePool i).epinfo = e)
    (hcount : 0 < (u.addrPool.thePool i).epcount.toNat) : u.Reaches addr e size := by
  obtain ⟨e₀, es, hrecord⟩ := List.exists_cons_of_length_pos h.length
  have hat : u.epInfoAt (e, 0) = e₀ := by
    rw [epInfoAt, hrecord]
    rfl
  have hep := h.epAddr
  have hpower := h.bmNakPower
  rw [hat] at hep hpower
  obtain ⟨k, hk⟩ : ∃ k, (u.addrPool.thePool i).epcount.toNat = k + 1 :=
    ⟨_, (Nat.succ_pred_eq_of_pos hcount).symm⟩
  have hfound : u.getEpInfoEntry addr 0 = some (e, 0) := by
    simp only [getEpInfoEntry, hi, he, if_neg hnull, hrecord, hk, List.take_succ_cons,
      List.findIdx?_cons, hep, beq_self_eq_true, if_true, Option.map_some]
  refine ⟨?_, h.maxPktSize⟩
  simp only [setAddress, hi, he, if_neg hnull, hfound, hat, hpower]
  rfl

/-- A store of a packet size to a control endpoint. -/
theorem Usb.HasControl.setMaxPktSize (h : u.HasControl e size) (m : UInt8) :
    (u.setEpInfo (e, 0) { u.epInfoAt (e, 0) with maxPktSize := m }).HasControl e m := by
  have hat : (u.setEpInfo (e, 0) { u.epInfoAt (e, 0) with maxPktSize := m }).epInfoAt (e, 0) =
      { u.epInfoAt (e, 0) with maxPktSize := m } := by
    rw [epInfoAt_setEpInfo, if_pos ⟨rfl, h.length⟩]
  refine ⟨?_, ?_, ?_, ?_⟩
  · rw [length_setEpInfo]
    exact h.length
  · rw [hat]
    exact h.epAddr
  · rw [hat]
  · rw [hat]
    exact h.bmNakPower

/-- A store to another endpoint. -/
theorem Usb.HasControl.setEpInfo {ppep : EpPtr × Nat} (h : u.HasControl e size)
    (hne : (e, 0) ≠ ppep) (pep : EpInfo) : (u.setEpInfo ppep pep).HasControl e size := by
  have hat : (u.setEpInfo ppep pep).epInfoAt (e, 0) = u.epInfoAt (e, 0) := by
    rw [epInfoAt_setEpInfo, if_neg fun heq ↦ hne heq.1]
  refine ⟨?_, ?_, ?_, ?_⟩
  · rw [length_setEpInfo]
    exact h.length
  · rw [hat]
    exact h.epAddr
  · rw [hat]
    exact h.maxPktSize
  · rw [hat]
    exact h.bmNakPower

/-! ### Requests without data -/

/-- The answers of a device that acknowledges a request without data. -/
inductive Acks (perAddr ep : UInt8) (nakLimit : UInt16) (pkt : SetupPkt) : Script → Prop
  | intro {rs rs' : Script} {x x' : Launch → Attempt} :
      SatOut ⟨perAddr, ep, .tokSetup pkt⟩ nakLimit rs →
      (x ⟨perAddr, ep, .tokSetup pkt⟩).rcode = hrSuccess →
      SatOut ⟨perAddr, ep, .tokInHs⟩ nakLimit rs' →
      (x' ⟨perAddr, ep, .tokInHs⟩).rcode = hrSuccess → Acks perAddr ep nakLimit pkt
        (rs ++ x :: (rs' ++ [x']))

/-- The answers of a device that refuses a request. -/
inductive Refuses (perAddr ep : UInt8) (nakLimit : UInt16) (pkt : SetupPkt) : Script → Prop
  | intro {rs : Script} {x : Launch → Attempt} :
      SatOut ⟨perAddr, ep, .tokSetup pkt⟩ nakLimit rs →
      (x ⟨perAddr, ep, .tokSetup pkt⟩).rcode = hrStall → Refuses perAddr ep nakLimit pkt
        (rs ++ [x])

/-- An acknowledged request. -/
theorem Usb.ctrlReq_acks (h : Acks addr 0 nakMax pkt s) (hr : u.Reaches addr e size)
    (hdir : ¬pkt.bmRequestType &&& 0x80 > 0) (nbytes : UInt16) (rest : Script) :
    ∃ r, u.ctrlReq addr 0 pkt nbytes none (s ++ rest) = some r ∧ r.rcode = hrSuccess ∧
      r.script = rest := by
  obtain ⟨hsat, hok, hsat', hok'⟩ := h
  next rs rs' x x' =>
  have hscript : rs ++ x :: (rs' ++ [x']) ++ rest = rs ++ x :: (rs' ++ x' :: rest) := by simp
  have hsetup : dispatchPkt ⟨addr, 0, .tokSetup pkt⟩ nakMax (rs ++ x :: (rs' ++ x' :: rest)) =
      some (x ⟨addr, 0, .tokSetup pkt⟩, rs' ++ x' :: rest) :=
    dispatchPkt_satOut hsat (by rw [hok]; decide) (by rw [hok]; decide)
  have hstatus : dispatchPkt ⟨addr, 0, .tokInHs⟩ nakMax (rs' ++ x' :: rest) =
      some (x' ⟨addr, 0, .tokInHs⟩, rest) :=
    dispatchPkt_satOut hsat' (by rw [hok']; decide) (by rw [hok']; decide)
  have hdirection : decide (pkt.bmRequestType &&& 0x80 > 0) = false := decide_eq_false hdir
  simp [ctrlReq, hr.setAddress, ctrlReqAt, hscript, hsetup, hok, statusStage, hdirection, hstatus,
    hok', -gt_iff_lt]

/-- A refused request, with or without data. -/
theorem Usb.ctrlReq_refuses (h : Refuses addr 0 nakMax pkt s) (hr : u.Reaches addr e size)
    (nbytes : UInt16) (dataptr : Option (List UInt8)) (rest : Script) :
    ∃ r, u.ctrlReq addr 0 pkt nbytes dataptr (s ++ rest) = some r ∧ r.script = rest := by
  obtain ⟨hsat, hstall⟩ := h
  next rs x =>
  have hscript : rs ++ [x] ++ rest = rs ++ x :: rest := by simp
  have hsetup : dispatchPkt ⟨addr, 0, .tokSetup pkt⟩ nakMax (rs ++ x :: rest) =
      some (x ⟨addr, 0, .tokSetup pkt⟩, rest) :=
    dispatchPkt_satOut hsat (by rw [hstall]; decide) (by rw [hstall]; decide)
  have hne : hrStall ≠ hrSuccess := by decide
  simp only [ctrlReq, hr.setAddress, ctrlReqAt, hscript, hsetup, hstall, if_pos hne]
  exact ⟨_, rfl, rfl⟩

/-! ### Reads of the device descriptor -/

/-- The endpoint of a request has number 0. -/
theorem Usb.Reaches.epAddr (h : u.Reaches addr e size) : (u.epInfoAt (e, 0)).epAddr = 0 :=
  (epAddr_of_setAddress h.setAddress).1

/-- One transfer at most is stored from the start of the buffer. -/
theorem Usb.buffer_eq {reads : List ParseCall} {bs : List UInt8} (buf : List UInt8)
    (hdata : reads.flatMap ParseCall.data = bs) (hfew : reads.length < 2) :
    buffer buf reads = bs ++ buf.drop bs.length := by
  subst hdata
  match reads with
  | [] => rfl
  | [call] => simp [buffer]
  | _ :: _ :: _ =>
    simp only [List.length_cons] at hfew
    omega

/-- A full buffer that was read holds the first bytes of what there was to read. -/
theorem Replied.buffer_eq {ppep : EpPtr × Nat} {nbytes : UInt16} {descr : List UInt8}
    {r : Reply n}
    (h : Replied u addr ep ppep nakLimit nbytes nbytes (descr.take nbytes.toNat) rest r)
    (hlen : nbytes.toNat ≤ descr.length) (buf : List UInt8) :
    Usb.buffer buf r.reads = descr.take nbytes.toNat ++ buf.drop nbytes.toNat := by
  have hfew : r.reads.length < 2 := by
    have hlt : r.reads.length * nbytes.toNat < 2 * nbytes.toNat := by
      have := h.few
      omega
    exact Nat.lt_of_mul_lt_mul_right hlt
  rw [Usb.buffer_eq buf h.data hfew, List.length_take, Nat.min_eq_left hlen]

/-- The first eight bytes of the device descriptor are read, whatever size the host takes packets
to be of. -/
theorem Usb.getDevDescr_packet {descr : List UInt8} (hr : u.Reaches addr e size) (hD : 8 ≤ D)
    (hlen : 8 ≤ descr.length)
    (hs : Serves addr controlEp D nakMax (getDescrPkt 0x01 0x00 0x0000 8) descr s)
    (rest : Script) :
    ∃ r, u.getDevDescr addr 0 8 (s ++ rest) = some r ∧ r.rcode = hrSuccess ∧ r.script = rest ∧
      ∀ buf, buffer buf r.reads = descr.take 8 ++ buf.drop 8 := by
  have hdir : (getDescrPkt 0x01 0x00 0x0000 8).bmRequestType &&& 0x80 > 0 :=
    show (0x80 : UInt8) &&& 0x80 > 0 by decide
  obtain ⟨r, hrun, hresult⟩ := u.ctrlReq_packet 8 [] rest hr.setAddress hdir (by decide)
    (by decide) rfl hD hlen (hs.congr hr.epAddr)
  exact ⟨r, hrun, hresult.rcode, hresult.script, hresult.buffer_eq hlen⟩

/-- As many bytes of the device descriptor as its buffer holds are read in full. -/
theorem Usb.getDevDescr_serves (nbytes : UInt16) {descr : List UInt8}
    (hr : u.Reaches addr e size) (hsize : 0 < size.toNat) (hle : size.toNat ≤ D)
    (hpos : 0 < nbytes.toNat) (hint : nbytes.toNat < 32768) (hlen : nbytes.toNat ≤ descr.length)
    (hs : Serves addr controlEp D nakMax (getDescrPkt 0x01 0x00 0x0000 nbytes) descr s)
    (rest : Script) :
    ∃ r, u.getDevDescr addr 0 nbytes (s ++ rest) = some r ∧ r.rcode = hrSuccess ∧
      r.script = rest ∧ ∀ buf, buffer buf r.reads =
        descr.take nbytes.toNat ++ buf.drop nbytes.toNat := by
  have hmin : min nbytes.toNat descr.length = nbytes.toNat := Nat.min_eq_left hlen
  have hoften : ¬AsksTooOften size D nbytes nbytes descr.length := by
    rintro ⟨hmod, -⟩
    rw [hmin, Nat.mod_self] at hmod
    exact hmod rfl
  have hdir : (getDescrPkt 0x01 0x00 0x0000 nbytes).bmRequestType &&& 0x80 > 0 :=
    show (0x80 : UInt8) &&& 0x80 > 0 by decide
  obtain ⟨r, hrun, hresult⟩ := u.ctrlReq_replied nbytes [] rest hr.setAddress hdir hpos hint
    (by rwa [hr.maxPktSize]) (by rwa [hr.maxPktSize]) (Or.inr le_rfl) (hs.congr hr.epAddr)
    (by rwa [hr.maxPktSize])
  exact ⟨r, hrun, hresult.rcode, hresult.script, hresult.buffer_eq hlen⟩

namespace HidBoot

open AddressPool

variable {slot : Fin 16} {p : AddressPool n} {i : Fin (n + 1)} {c c' : Call n}
  {descr : List UInt8} {lowspeed : Bool}

/-- The shield's records after a step that may have changed the pool. -/
def SameRecords (u u' : Usb n) : Prop := Usb.Toggled { u with addrPool := u'.addrPool } u'

/-- The first request of `Init`. -/
theorem firstDescr_serves (lowspeed : Bool)
    (hcount : (c.usb.addrPool.thePool 0).epcount = 1)
    (hctl : c.usb.HasControl (.driver slot) size) (hD : 8 ≤ D) (hlen : 8 ≤ descr.length)
    (hs : Serves 0 controlEp D nakMax (Usb.getDescrPkt 0x01 0x00 0x0000 8) descr s)
    (hscript : c.script = s ++ rest) :
    ∃ c', firstDescr slot c lowspeed = some c' ∧ c'.rcode = hrSuccess ∧ c'.script = rest ∧
      c'.hid = c.hid ∧ c'.usb.addrPool = c.usb.addrPool.setLowspeed 0 lowspeed ∧
      SameRecords c.usb c'.usb ∧
      ∀ buf, Usb.buffer buf c'.reads = descr.take 8 ++ buf.drop 8 := by
  set pool := (c.usb.addrPool.setEpinfo (.driver slot)).setLowspeed 0 lowspeed with hpool
  have hentry : pool.thePool 0 = { c.usb.addrPool.thePool 0 with
      epinfo := .driver slot, lowspeed := lowspeed } := by
    change (((c.usb.addrPool.set 0 { c.usb.addrPool.thePool 0 with epinfo := .driver slot }).set 0
      { (c.usb.addrPool.set 0 { c.usb.addrPool.thePool 0 with epinfo := .driver slot }).thePool 0
        with lowspeed }).thePool 0) = _
    simp only [set_thePool, Function.update_self]
  have hreach : Usb.Reaches { c.usb with addrPool := pool } 0 (.driver slot) size := by
    refine (hctl.addrPool pool).reaches (i := 0) rfl (by simp) ?_ ?_
    · exact congrArg UsbDevice.epinfo hentry
    · change 0 < (pool.thePool 0).epcount.toNat
      rw [hentry, hcount]
      decide
  obtain ⟨r, hr, hok, hrest, hbuf⟩ := Usb.getDevDescr_packet hreach hD hlen hs rest
  obtain ⟨htoggled, -⟩ := Usb.ctrlReq_toggled hr
  refine ⟨⟨{ r with usb.addrPool := r.usb.addrPool.setEpinfo c.usb.addrPool.epinfo },
    c.hid⟩, ?_, hok, hrest, rfl, ?_, ?_, hbuf⟩
  · simp only [firstDescr, Call.request, hscript, ← hpool, hr, Option.map_some]
  · dsimp only
    rw [htoggled.addrPool, hpool]
    exact setEpinfo_back _ _ _
  · exact ⟨rfl, htoggled.length_epRecords, htoggled.epInfoAt⟩

/-- The request that gives the device its address. -/
def setAddrPkt (a : UInt8) : SetupPkt := ⟨0x00, 0x05, a, 0x00, 0x0000, 0⟩

/-- The second request of `Init`. -/
theorem giveAddress_acks (slot : Fin 16) {parent port a b : UInt8} (hguest : p.Guest i a)
    (hepinfo : (p.thePool 0).epinfo = .dev0ep) (hcount : (p.thePool 0).epcount = 1)
    (halloc : c.usb.addrPool.allocAddress parent false port =
      (p.guest lowspeed i ⟨.dev0ep, ofByte a, 1, false⟩, a))
    (hctl : c.usb.HasControl .dev0ep 8) (hs : Acks 0 0 nakMax (setAddrPkt a) s)
    (hscript : c.script = s ++ rest) :
    ∃ c', giveAddress slot c parent port lowspeed b = some c' ∧ c'.rcode = hrSuccess ∧
      c'.script = rest ∧ c'.hid = { c.hid with bAddress := a } ∧
      c'.usb.addrPool = p.guest false i ⟨.dev0ep, ofByte a, 1, lowspeed⟩ ∧
      SameRecords (c.usb.setEpInfo (.driver slot, 0)
        { c.usb.epInfoAt (.driver slot, 0) with maxPktSize := b }) c'.usb := by
  set pool := p.guest lowspeed i ⟨.dev0ep, ofByte a, 1, false⟩ with hpool
  set u := Usb.setEpInfo { c.usb with addrPool := pool } (.driver slot, 0)
    { c.usb.epInfoAt (.driver slot, 0) with maxPktSize := b } with hu
  have hentry : pool.thePool 0 = (p.setLowspeed 0 lowspeed).thePool 0 :=
    Function.update_of_ne hguest.ne_zero.symm _ _
  have hzero : (p.setLowspeed 0 lowspeed).thePool 0 = { p.thePool 0 with lowspeed } := by
    change (p.set 0 { p.thePool 0 with lowspeed }).thePool 0 = _
    rw [set_thePool, Function.update_self]
  have hreach : u.Reaches 0 .dev0ep 8 := by
    refine ((hctl.addrPool pool).setEpInfo (by simp) _).reaches (i := 0) rfl (by simp) ?_ ?_
    · change (pool.thePool 0).epinfo = .dev0ep
      rw [hentry, hzero]
      exact hepinfo
    · change 0 < (pool.thePool 0).epcount.toNat
      rw [hentry, hzero]
      change 0 < (p.thePool 0).epcount.toNat
      rw [hcount]
      decide
  have hdir : ¬(setAddrPkt a).bmRequestType &&& 0x80 > 0 :=
    show ¬(0x00 : UInt8) &&& 0x80 > 0 by decide
  obtain ⟨r, hr, hok, hrest⟩ := Usb.ctrlReq_acks hs hreach hdir 0 rest
  obtain ⟨htoggled, -⟩ := Usb.ctrlReq_toggled hr
  have hback : r.usb.addrPool.setLowspeed 0 false =
      p.guest false i ⟨.dev0ep, ofByte a, 1, false⟩ := by
    rw [htoggled.addrPool]
    exact guest_setLowspeed_zero hguest.ne_zero lowspeed false
  refine ⟨⟨{ r with usb.addrPool := p.guest false i ⟨.dev0ep, ofByte a, 1, lowspeed⟩ },
    { c.hid with bAddress := a }⟩, ?_, hok, hrest, rfl, rfl, ?_⟩
  · have hcall : (u.setAddr 0 0 a c.script) = some r := by
      rw [hscript]
      exact hr
    have hne : ¬r.rcode ≠ 0 := by
      rw [hok]
      decide
    simp only [giveAddress, halloc, if_neg hguest.addr_ne_zero, Call.request]
    change ((u.setAddr 0 0 a c.script).map _).bind _ = _
    rw [hcall, Option.map_some, Option.bind_some]
    simp only [if_neg hne, hback, hguest.getUsbDevicePtr (d := ⟨.dev0ep, ofByte a, 1, false⟩) rfl,
      hguest.setLowspeed (d := ⟨.dev0ep, ofByte a, 1, false⟩) rfl]
  · exact ⟨rfl, htoggled.length_epRecords, htoggled.epInfoAt⟩

/-! ### The configuration -/

/-- An interrupt endpoint that the host reads. -/
def isInterruptIn (pep : EndpointCall) : Bool :=
  pep.bmAttributes &&& 0x03 == 0x03 && pep.bEndpointAddress &&& 0x80 == 0x80

/-- The endpoint the driver makes of a descriptor. -/
def interruptEp (pep : EndpointCall) : EpInfo :=
  ⟨pep.bEndpointAddress &&& 0x0F, pep.wMaxPacketSize.toUInt8, false, false, usbNakNoWait⟩

/-- A driver whose table is full takes no more endpoints. -/
private theorem foldl_full {proto : UInt8} {t : Usb n × HidBoot}
    (hfull : t.2.bNumEP = totalEndpoints proto) (peps : List EndpointCall) :
    peps.foldl (endpointXtract proto slot) t = t := by
  induction peps with
  | nil => rfl
  | cons pep peps ih => rw [List.foldl_cons, endpointXtract, if_pos hfull, ih]

/-- A driver of one interface takes the first interrupt endpoint. -/
theorem foldl_endpointXtract (proto : UInt8) (slot : Fin 16) {peps : List EndpointCall}
    {pep : EndpointCall} {h : HidBoot} (hone : epMUL proto = 1) (hnum : h.bNumEP = 1)
    (hfind : peps.find? isInterruptIn = some pep) (u : Usb n) :
    peps.foldl (endpointXtract proto slot) (u, h) =
      (u.setEpInfo (.driver slot, 1) (interruptEp pep), { h with
        bConfNum := pep.conf, bInterval := max h.bInterval pep.bInterval, bNumEP := 2 }) := by
  have htotal := totalEndpoints_of_epMUL hone
  have hmore : ¬h.bNumEP = totalEndpoints proto := by
    rw [hnum, htotal]
    decide
  induction peps generalizing h with
  | nil => cases hfind
  | cons q peps ih =>
    rw [List.foldl_cons, endpointXtract, if_neg hmore]
    rw [List.find?_cons] at hfind
    cases hq : isInterruptIn q with
    | true =>
      rw [hq] at hfind
      obtain rfl := Option.some.inj hfind
      have hcond : q.bmAttributes &&& 0x03 = 0x03 ∧ q.bEndpointAddress &&& 0x80 = 0x80 := by
        simpa [isInterruptIn] using hq
      rw [if_pos hcond, foldl_full (by rw [htotal, hnum]; rfl), hnum]
      rfl
    | false =>
      rw [hq] at hfind
      have hcond : ¬(q.bmAttributes &&& 0x03 = 0x03 ∧ q.bEndpointAddress &&& 0x80 = 0x80) := by
        simpa [isInterruptIn] using hq
      rw [if_neg hcond]
      exact ih (h := { h with bConfNum := q.conf }) hnum hfind hmore

/-! ### The requests to the interface -/

/-- `SET_PROTOCOL`, `SET_IDLE` and the request for a report descriptor, to interface 0. -/
def setProtocolPkt (bRptProtoEnable : Bool) : SetupPkt :=
  ⟨0x21, 0x0B, if bRptProtoEnable then 0x01 else 0x00, 0x00, 0x0000, 0⟩

@[inherit_doc setProtocolPkt]
def setIdlePkt : SetupPkt := ⟨0x21, 0x0A, 0x00, 0x00, 0x0000, 0⟩

@[inherit_doc setProtocolPkt]
def reportDescrPkt : SetupPkt := ⟨0x81, 0x06, 0x00, 0x22, 0x0000, 128⟩

/-- The answers of a device to the three of them; it may refuse the last two. -/
inductive Interfaced (a : UInt8) (D : Nat) (report : List UInt8) (bRptProtoEnable : Bool) :
    Script → Prop
  | intro {s s' s'' : Script} :
      Acks a 0 nakMax (setProtocolPkt bRptProtoEnable) s →
      (Acks a 0 nakMax setIdlePkt s' ∨ Refuses a 0 nakMax setIdlePkt s') →
      (Serves a controlEp D nakMax reportDescrPkt report s'' ∨
        Refuses a 0 nakMax reportDescrPkt s'') →
      Interfaced a D report bRptProtoEnable (s ++ (s' ++ s''))

/-- A report descriptor is read or not, and thrown away. -/
private theorem reportDescr_serves {a : UInt8} {report : List UInt8}
    (hr : u.Reaches a e size) (hsize : 0 < size.toNat) (hle : size.toNat ≤ D) (heven : D ∣ 64)
    (h : Serves a controlEp D nakMax reportDescrPkt report s ∨ Refuses a 0 nakMax reportDescrPkt s)
    (rest : Script) :
    ∃ r, u.getReportDescr a 0 (s ++ rest) = some r ∧ r.script = rest := by
  rcases h with hs | hs
  · have hdir : reportDescrPkt.bmRequestType &&& 0x80 > 0 := by decide
    have hs' := hs.congr hr.epAddr
    by_cases hoften :
        AsksTooOften (u.epInfoAt (e, 0)).maxPktSize D 64 reportDescrPkt.wLength report.length
    · obtain ⟨r, hrun, -, hrest, -⟩ := u.ctrlReq_starved 64 [] rest hr.setAddress hdir (by decide)
        (by decide) (by rwa [hr.maxPktSize]) (by rwa [hr.maxPktSize]) (Or.inl heven) hs' hoften
      exact ⟨r, hrun, hrest⟩
    · obtain ⟨r, hrun, hresult⟩ := u.ctrlReq_replied 64 [] rest hr.setAddress hdir (by decide)
        (by decide) (by rwa [hr.maxPktSize]) (by rwa [hr.maxPktSize]) (Or.inl heven) hs' hoften
      exact ⟨r, hrun, hresult.script⟩
  · exact Usb.ctrlReq_refuses hs hr 64 (some []) rest

/-- The requests to the interface succeed. -/
theorem setInterface_serves {report : List UInt8} (hr : c.usb.Reaches c.hid.bAddress e size)
    (hsize : 0 < size.toNat) (hle : size.toNat ≤ D) (heven : D ∣ 64)
    (hs : Interfaced c.hid.bAddress D report c.hid.bRptProtoEnable s)
    (hscript : c.script = s ++ rest) :
    ∃ c', setInterface 0 c = some c' ∧ c'.rcode = 0 ∧ c'.script = rest ∧ c.Quiet c' := by
  obtain ⟨hprotocol, hidle, hreport⟩ := hs
  next s s' s'' =>
  rw [List.append_assoc, List.append_assoc] at hscript
  obtain ⟨r, hrun, hok, hrest⟩ := Usb.ctrlReq_acks hprotocol hr
    (show ¬(0x21 : UInt8) &&& 0x80 > 0 by decide) 0 (s' ++ (s'' ++ rest))
  have hr₁ := hr.toggled (Usb.ctrlReq_toggled hrun).1
  have hrun₁ : ∃ r₁, r.usb.setIdle c.hid.bAddress 0 0 0 (s' ++ (s'' ++ rest)) = some r₁ ∧
      r₁.script = s'' ++ rest := by
    rcases hidle with hidle | hidle
    · obtain ⟨r₁, hrun₁, -, hrest₁⟩ := Usb.ctrlReq_acks hidle hr₁ (by decide) 0 (s'' ++ rest)
      exact ⟨r₁, hrun₁, hrest₁⟩
    · exact Usb.ctrlReq_refuses hidle hr₁ 0 none (s'' ++ rest)
  obtain ⟨r₁, hrun₁, hrest₁⟩ := hrun₁
  have hr₂ := hr₁.toggled (Usb.ctrlReq_toggled hrun₁).1
  obtain ⟨r₂, hrun₂, hrest₂⟩ := reportDescr_serves hr₂ hsize hle heven hreport rest
  have hset : setInterface 0 c = some ⟨{ r₂ with rcode := 0 }, c.hid⟩ := by
    have hprotocol' : c.usb.setProtocol c.hid.bAddress 0
        (if c.hid.bRptProtoEnable = true then 0x01 else 0x00) c.script = some r := by
      rw [hscript]
      exact hrun
    have hne : ¬r.rcode ≠ 0 := by
      rw [hok]
      decide
    simp only [setInterface, Call.andThen, Call.request, hprotocol', Option.map_some,
      Option.bind_some, if_neg hne, hrest, hrun₁, hrest₁]
    change ((r₁.usb.getReportDescr c.hid.bAddress 0 (s'' ++ rest)).map _).map _ = _
    rw [hrun₂, Option.map_some, Option.map_some]
  exact ⟨_, hset, rfl, hrest₂, setInterface_quiet hset⟩

/-! ### A boot mouse -/

/-- A device with control packets of `D` bytes and one configuration, `d :: ds`, in which a driver
of boot mice finds the interrupt endpoint `pep`. -/
structure BootMouse (D : Nat) (descr d : List UInt8) (ds : List (List UInt8)) (pep : EndpointCall) :
    Prop where
  size_le : 8 ≤ D
  even : D ∣ 64
  length : descr.length = 18
  bLength : descr[0]? = some 18
  bMaxPacketSize0 : (descr[7]?.getD 0).toNat = D
  bNumConfigurations : descr[17]? = some 1
  wellFormed : ∀ e ∈ d :: ds, ConfigDescParser.WellFormed e
  configuration : ConfigDescParser.byteAt d 1 = descriptorConfiguration
  headed : ConfigDescParser.Headed ds
  total : (Usb.wTotalLength (d :: ds).flatten).toNat = (d :: ds).flatten.length
  endpoint : (ConfigDescParser.endpoints (bootMask 0x02) (ConfigDescParser.byteAt d 5) none
    ds).find? isInterruptIn = some pep

/-- The answers to the two requests for the configuration. -/
inductive Configures (a : UInt8) (D : Nat) (conf : List UInt8) : Script → Prop
  | intro {s s' : Script} :
      Serves a controlEp D nakMax (Usb.getDescrPkt 0x02 0 0x0000 9) conf s →
      Serves a controlEp D nakMax (Usb.getDescrPkt 0x02 0 0x0000 (Usb.wTotalLength conf)) conf s' →
      Configures a D conf (s ++ s')

variable {a : UInt8} {d : List UInt8} {ds : List (List UInt8)} {pep : EndpointCall}

/-- The configuration is read, and the mouse's endpoint found in it. -/
private theorem readConf_serves (hm : BootMouse D descr d ds pep) (stack : ConfStack)
    (hr : c.usb.Reaches c.hid.bAddress .dev0ep 8)
    (hs : Configures c.hid.bAddress D (d :: ds).flatten s) (hscript : c.script = s ++ rest)
    (hnum : c.hid.bNumEP = 1) (hin : c.hid.overrun = false)
    (hoften : ¬AsksTooOften 8 D 64 (Usb.wTotalLength (d :: ds).flatten) (d :: ds).flatten.length) :
    ∃ q c' u, readConf 0x02 slot 0 stack.buf stack.parser c = some (q, c') ∧ c'.script = rest ∧
      c'.rcode = 0 ∧ c.usb.Toggled u ∧ c'.usb = u.setEpInfo (.driver slot, 1) (interruptEp pep) ∧
      c'.hid = { c.hid with
        bConfNum := pep.conf, bInterval := max c.hid.bInterval pep.bInterval, bNumEP := 2 } := by
  obtain ⟨h₁, h₂⟩ := hs
  next s₁ s₂ =>
  have hsize : (c.usb.epInfoAt (.dev0ep, 0)).maxPktSize = 8 := hr.maxPktSize
  obtain ⟨r, hrun, -, hdata, hcalls, hrest⟩ := c.usb.parseConfDescr_replied 0 stack.buf rest
    hr.setAddress (by rw [hsize]; decide) (by rw [hsize]; exact hm.size_le) hm.even
    (nine_le_length hm.wellFormed hm.configuration) hm.total (h₁.congr hr.epAddr)
    (h₂.congr hr.epAddr) (by rwa [hsize])
  rw [List.flatMap_def] at hdata
  obtain ⟨q, hq, hover⟩ := ConfigDescParser.parsePieces_wellFormed (bootMask 0x02)
    stack.varBuffer stack.valueSize stack.isGoodInterface stack.confValue stack.protoValue
    stack.ifaceNumber stack.ifaceAltSet hm.wellFormed hdata
  rw [ConfigDescParser.endpoints_configuration _ _ _ hm.configuration hm.headed] at hq
  have hrun' : c.usb.parseConfDescr c.hid.bAddress 0 0 stack.buf c.script = some r := by
    rw [hscript, List.append_assoc]
    exact hrun
  have hall : ∀ call ∈ r.reads, inBuffer call = true := fun call hcall ↦
    beq_iff_eq.mpr (hcalls call hcall)
  have hwhole : r.reads.takeWhile inBuffer = r.reads := List.takeWhile_eq_self_iff.mpr hall
  have hnone : r.reads.all inBuffer = true := List.all_eq_true.mpr hall
  have hparse : stack.parser.parsePieces (bootMask 0x02) (r.reads.map ParseCall.data) =
      some (q, ConfigDescParser.endpoints (bootMask 0x02) (ConfigDescParser.byteAt d 5) none ds) :=
    hq
  have hfold := foldl_endpointXtract 0x02 slot rfl hnum hm.endpoint r.usb
  refine ⟨q, ⟨{ r with rcode := 0, usb := r.usb.setEpInfo (.driver slot, 1) (interruptEp pep) },
    { c.hid with
      bConfNum := pep.conf, bInterval := max c.hid.bInterval pep.bInterval, bNumEP := 2 }⟩,
    r.usb, ?_, hrest, rfl, (Usb.parseConfDescr_toggled hrun').1, rfl, rfl⟩
  simp only [readConf, Call.request, hrun', Option.map_some, Option.bind_some, hwhole, hnone,
    hparse, hfold, hover, hin, Bool.or_false, Bool.not_true]

/-- The host asks once too often, and what it has read of a configuration goes to no parser. -/
private theorem readConf_starved (slot : Fin 16) (hm : BootMouse D descr d ds pep)
    (stack : ConfStack)
    (hr : c.usb.Reaches c.hid.bAddress .dev0ep 8)
    (hs : Configures c.hid.bAddress D (d :: ds).flatten s) (hscript : c.script = s ++ rest)
    (hlt : (d :: ds).flatten.length < 64)
    (hoften : AsksTooOften 8 D 64 (Usb.wTotalLength (d :: ds).flatten) (d :: ds).flatten.length) :
    ∃ q c', readConf 0x02 slot 0 stack.buf stack.parser c = some (q, c') ∧ c'.script = rest ∧
      c.usb.Toggled c'.usb ∧ c'.hid = c.hid := by
  obtain ⟨h₁, h₂⟩ := hs
  next s₁ s₂ =>
  have hsize : (c.usb.epInfoAt (.dev0ep, 0)).maxPktSize = 8 := hr.maxPktSize
  obtain ⟨r, hrun, -, hrest, hreads⟩ := c.usb.parseConfDescr_starved 0 stack.buf rest hr.setAddress
    (by rw [hsize]; decide) (by rw [hsize]; exact hm.size_le) hm.even
    (nine_le_length hm.wellFormed hm.configuration) (h₁.congr hr.epAddr) (h₂.congr hr.epAddr)
    (by rwa [hsize])
  have hrun' : c.usb.parseConfDescr c.hid.bAddress 0 0 stack.buf c.script = some r := by
    rw [hscript, List.append_assoc]
    exact hrun
  have hclean : stack.parser.overrun = false := rfl
  refine ⟨stack.parser, ⟨{ r with rcode := 0 }, c.hid⟩, ?_, hrest,
    (Usb.parseConfDescr_toggled hrun').1, rfl⟩
  simp only [readConf, Call.request, hrun', Option.map_some, Option.bind_some, hreads hlt,
    List.takeWhile_nil, List.map_nil, ConfigDescParser.parsePieces, List.foldl_nil, hclean,
    List.all_nil, Bool.or_false, Bool.not_true]

/-! ### The whole of `Init` -/

/-- The request that chooses the configuration. -/
def setConfPkt (bConfNum : UInt8) : SetupPkt := ⟨0x00, 0x09, bConfNum, 0x00, 0x0000, 0⟩

/-- The answers of a device that tells what it is and takes the address `a`. -/
inductive Introduces (a : UInt8) (D : Nat) (descr : List UInt8) : Script → Prop
  | intro {s s' s'' : Script} :
      Serves 0 controlEp D nakMax (Usb.getDescrPkt 0x01 0x00 0x0000 8) descr s →
      Acks 0 0 nakMax (setAddrPkt a) s' →
      Serves a controlEp D nakMax (Usb.getDescrPkt 0x01 0x00 0x0000 18) descr s'' →
      Introduces a D descr (s ++ (s' ++ s''))

/-- The answers of a device that goes to work. -/
inductive Starts (a : UInt8) (D : Nat) (report : List UInt8) (bConfNum : UInt8)
    (bRptProtoEnable : Bool) : Script → Prop
  | intro {s s' : Script} :
      Acks a 0 nakMax (setConfPkt bConfNum) s → Interfaced a D report bRptProtoEnable s' →
      Starts a D report bConfNum bRptProtoEnable (s ++ s')

/-- An idle driver that has left no buffer, and a pool that will give a device on `port` of `parent`
the address `a`. The packets of the control endpoint the driver had last may have been of any
size. -/
structure Ready (slot : Fin 16) (p : AddressPool n) (parent port : UInt8) (lowspeed : Bool)
    (a : UInt8) (c : Call n) : Prop where
  tree : p.Tree
  sound : p.Sound (.alloc parent false port)
  epinfo : (p.thePool 0).epinfo = .dev0ep
  epcount : (p.thePool 0).epcount = 1
  idle : Idle p c.usb c.hid
  table : EpTable 0x02 slot c.usb c.hid.bNumEP
  shared : c.usb.HasControl .dev0ep 8
  own : ∃ m, c.usb.HasControl (.driver slot) m
  inside : c.hid.overrun = false
  alloc : ((p.setLowspeed 0 lowspeed).allocAddress parent false port).2 = a
  ne_zero : a ≠ 0

/-- In `Init`, when the device has the address `a` of its entry in the pool, which still points at
the shared endpoint. -/
structure Known (slot : Fin 16) (p : AddressPool n) (i : Fin (n + 1)) (a : UInt8) (D : Nat)
    (c : Call n) : Prop where
  guest : p.Guest i a
  bAddress : c.hid.bAddress = a
  bNumEP : c.hid.bNumEP = 1
  pool : ∃ b ls, c.usb.addrPool = p.guest b i ⟨.dev0ep, ofByte a, 1, ls⟩
  shared : c.usb.HasControl .dev0ep 8
  own : ∃ m, c.usb.HasControl (.driver slot) m ∧ m.toNat = D
  table : EpTable 0x02 slot c.usb 1

/-- A pool entry in the device's place, through which its control endpoint is found. -/
private theorem reaches_guest {a m : UInt8} {b ls : Bool} {epcount : UInt8}
    (hguest : p.Guest i a) (hpool : u.addrPool = p.guest b i ⟨e, ofByte a, epcount, ls⟩)
    (hctl : u.HasControl e m) (hnull : e ≠ .null) (hcount : 0 < epcount.toNat) :
    u.Reaches a e m := by
  have hentry : u.addrPool.thePool i = ⟨e, ofByte a, epcount, ls⟩ := by
    rw [hpool, guest_thePool_self]
  refine hctl.reaches (i := i) ?_ hnull ?_ ?_
  · rw [hpool]
    exact hguest.getUsbDevicePtr rfl
  · rw [hentry]
  · rw [hentry]
    exact hcount

/-- Between two moments no endpoint was recorded in the driver's table but the control endpoint. -/
def Unrecorded (slot : Fin 16) (u u' : Usb n) : Prop :=
  ∀ k, 0 < k → (u.epInfoAt (.driver slot, k)).Alike (u'.epInfoAt (.driver slot, k))

/-- `Init` of an idle driver goes on to the configurations if the device gets its address. -/
private theorem init_configures {parent port : UInt8} {c₁ c₂ : Call n} (buf : List UInt8)
    (stack : UInt8 → ConfStack) (hidle : c.hid.bAddress = 0)
    (hnull : ¬c.usb.addrPool.epinfo = .null)
    (hfirst : firstDescr slot { c with hid.bInterval := 0 } lowspeed = some c₁)
    (hok₁ : c₁.rcode = 0)
    (hgive : giveAddress slot c₁ parent port lowspeed ((Usb.buffer buf c₁.reads)[7]?.getD 0) =
      some c₂) (hok₂ : c₂.rcode = 0) :
    init 0x02 slot c parent port lowspeed buf stack =
      (configure 0x02 slot stack (Usb.buffer buf c₁.reads) c₂).bind fun c ↦
        if c.hid.overrun = false ∧ c.rcode ≠ 0 then c.fail else some c := by
  rw [init, if_neg (not_not.mpr hidle)]
  dsimp only
  rw [if_neg hnull, hfirst, Option.bind_some, if_neg (not_not.mpr hok₁), Call.andThen, hgive,
    Option.bind_some, if_neg (not_not.mpr hok₂)]

/-- `Init` up to the address. -/
private theorem init_introduced {parent port : UInt8} {s₀ s₁ : Script} (buf : List UInt8)
    (stack : UInt8 → ConfStack) (hready : Ready slot p parent port lowspeed a c)
    (hmouse : BootMouse D descr d ds pep)
    (h₀ : Serves 0 controlEp D nakMax (Usb.getDescrPkt 0x01 0x00 0x0000 8) descr s₀)
    (h₁ : Acks 0 0 nakMax (setAddrPkt a) s₁) (hscript : c.script = s₀ ++ (s₁ ++ rest)) :
    ∃ i c' b, init 0x02 slot c parent port lowspeed buf stack =
        ((configure 0x02 slot stack (descr.take 8 ++ b) c').bind fun c ↦
          if c.hid.overrun = false ∧ c.rcode ≠ 0 then c.fail else some c) ∧
      Known slot p i a D c' ∧ c'.script = rest ∧
      c'.hid = { c.hid with bInterval := 0, bAddress := a } ∧ Unrecorded slot c.usb c'.usb := by
  obtain ⟨hp, hs, hepinfo, hcount, ⟨haddr, hpoll, hnum, b, hpool⟩, htable, hshared,
    ⟨m, hown⟩, -, halloc, ha⟩ := hready
  have hzero : (c.usb.addrPool.thePool 0) = { p.thePool 0 with lowspeed := b } := by
    rw [hpool]
    change (p.set 0 { p.thePool 0 with lowspeed := b }).thePool 0 = _
    rw [set_thePool, Function.update_self]
  have hcount' : (c.usb.addrPool.thePool 0).epcount = 1 := by
    rw [hzero]
    exact hcount
  set c₀ : Call n := { c with hid.bInterval := 0 } with hc₀
  obtain ⟨c₁, hrun₁, hok₁, hrest₁, hhid₁, hpool₁, hsame₁, hbuf₁⟩ :=
    firstDescr_serves (c := c₀) lowspeed hcount' hown hmouse.size_le
      (by rw [hmouse.length]; decide) h₀ hscript
  have hpool₁' : c₁.usb.addrPool = p.setLowspeed 0 lowspeed := by
    rw [hpool₁]
    change c.usb.addrPool.setLowspeed 0 lowspeed = _
    rw [hpool, setLowspeed_setLowspeed]
  have hshared₁ : c₁.usb.HasControl .dev0ep 8 := (hshared.addrPool _).toggled hsame₁
  have hown₁ : c₁.usb.HasControl (.driver slot) m := (hown.addrPool _).toggled hsame₁
  have htable₁ : EpTable 0x02 slot c₁.usb c.hid.bNumEP := (htable.addrPool _).toggled hsame₁
  obtain hnone | ⟨i, a', hguest, hgiven⟩ := hp.allocAddress_guest hs lowspeed
  · rw [hnone] at halloc
    exact absurd halloc.symm ha
  obtain rfl : a' = a := by
    rw [hgiven] at halloc
    exact halloc
  rw [← hpool₁'] at hgiven
  have hbuf := hbuf₁ buf
  obtain ⟨c₂, hrun₂, hok₂, hrest₂, hhid₂, hpool₂, hsame₂⟩ := giveAddress_acks slot
    (b := descr[7]?.getD 0) hguest hepinfo hcount hgiven hshared₁ h₁ hrest₁
  have hseven : (descr.take 8 ++ buf.drop 8)[7]?.getD 0 = descr[7]?.getD 0 := by
    rw [List.getElem?_append_left (by rw [List.length_take, hmouse.length]; decide),
      List.getElem?_take_of_lt (by decide)]
  refine ⟨i, c₂, buf.drop 8, ?_, ⟨hguest, ?_, ?_, ⟨false, lowspeed, hpool₂⟩, ?_, ?_, ?_⟩, hrest₂,
    ?_, ?_⟩
  · have hnull : ¬c.usb.addrPool.epinfo = .null := by
      change ¬(c.usb.addrPool.thePool 0).epinfo = .null
      rw [hzero]
      change ¬(p.thePool 0).epinfo = .null
      rw [hepinfo]
      simp
    rw [← hbuf]
    rw [← hseven, ← hbuf] at hrun₂
    exact init_configures buf stack haddr hnull hrun₁ hok₁ hrun₂ hok₂
  · rw [hhid₂]
  · rw [hhid₂, hhid₁]
    exact hnum
  · exact ((hshared₁.setEpInfo (by simp) _).addrPool _).toggled hsame₂
  · exact ⟨_, (hown₁.setMaxPktSize _).addrPool _ |>.toggled hsame₂, hmouse.bMaxPacketSize0⟩
  · rw [hnum] at htable₁
    exact ((htable₁.setMaxPktSize _).addrPool _).toggled hsame₂
  · rw [hhid₂, hhid₁]
  · intro k hk
    have hkept : (c₁.usb.setEpInfo (.driver slot, 0)
        { c₁.usb.epInfoAt (.driver slot, 0) with maxPktSize := descr[7]?.getD 0 }).epInfoAt
          (.driver slot, k) = c₁.usb.epInfoAt (.driver slot, k) := by
      rw [Usb.epInfoAt_setEpInfo, if_neg fun heq ↦ hk.ne' (Prod.mk.inj heq.1).2]
    have hsecond := hsame₂.epInfoAt (.driver slot, k)
    change (Usb.epInfoAt (c₁.usb.setEpInfo _ _) _).Alike _ at hsecond
    rw [hkept] at hsecond
    exact (hsame₁.epInfoAt (.driver slot, k)).trans hsecond

/-- `Init` up to the second request for the device descriptor. -/
private theorem Known.secondDescr {b : List UInt8} (hk : Known slot p i a D c)
    (hmouse : BootMouse D descr d ds pep)
    (hs : Serves a controlEp D nakMax (Usb.getDescrPkt 0x01 0x00 0x0000 18) descr s)
    (hscript : c.script = s ++ rest) :
    ∃ c', Known slot p i a D c' ∧ c'.script = rest ∧ c'.hid = c.hid ∧ c'.rcode = hrSuccess ∧
      c.usb.Toggled c'.usb ∧
      (let len := min ((descr.take 8 ++ b)[0]?.getD 0) 18
       if len = 0 then some { c with reads := [] }
       else c.request fun u ↦ u.getDevDescr c.hid.bAddress 0 len.toUInt16) = some c' ∧
      (Usb.buffer (descr.take 8 ++ b) c'.reads)[17]?.getD 0 = 1 := by
  obtain ⟨hguest, haddr, hnum, ⟨sp, ls, hpool⟩, hshared, hown, htable⟩ := hk
  have hreach := reaches_guest hguest hpool hshared (by simp) (by decide)
  obtain ⟨r, hrun, hok, hrest, hbuf⟩ := Usb.getDevDescr_serves 18 hreach (by decide)
    hmouse.size_le (by decide) (by decide) (by rw [hmouse.length]; decide) hs rest
  obtain ⟨htoggled, -⟩ := Usb.ctrlReq_toggled hrun
  have hlen : min ((descr.take 8 ++ b)[0]?.getD 0) 18 = 18 := by
    rw [List.getElem?_append_left (by rw [List.length_take, hmouse.length]; decide),
      List.getElem?_take_of_lt (by decide), hmouse.bLength]
    decide
  refine ⟨⟨r, c.hid⟩, ⟨hguest, haddr, hnum, ⟨sp, ls, htoggled.addrPool.trans hpool⟩,
    hshared.toggled htoggled, ?_, htable.toggled htoggled⟩, hrest, rfl, hok, htoggled, ?_, ?_⟩
  · obtain ⟨m, hm, hmD⟩ := hown
    exact ⟨m, hm.toggled htoggled, hmD⟩
  · dsimp only
    rw [hlen, if_neg (by decide), Call.request, haddr, hscript]
    exact congrArg (Option.map _) hrun
  · change (Usb.buffer (descr.take 8 ++ b) r.reads)[17]?.getD 0 = 1
    rw [hbuf, List.getElem?_append_left (by rw [List.length_take, hmouse.length]; decide),
      List.getElem?_take_of_lt (by decide), hmouse.bNumConfigurations]
    rfl

/-- What `Init` does once the configurations are read. -/
private def goToWork (slot : Fin 16) (c : Call n) : Option (Call n) :=
  if c.hid.bNumEP ≠ 2 then some { c with rcode := errorDeviceNotSupported }
  else
    let c : Call n := { c with
      usb.addrPool := c.usb.addrPool.setEpInfoEntry c.hid.bAddress c.hid.bNumEP (.driver slot) }
    Call.andThen (c.request fun u ↦ u.setConf c.hid.bAddress 0 c.hid.bConfNum) fun c ↦
    Call.andThen (Call.andThen (setInterface 0 c) some) fun c ↦
      some { c with rcode := 0, hid.bPollEnable := true }

/-- A device with one configuration has its one configuration read. -/
private theorem configure_one {stack : UInt8 → ConfStack} {buf : List UInt8}
    {q : ConfigDescParser} {c₁ c₂ : Call n}
    (hsecond : (let len := min (buf[0]?.getD 0) 18
      if len = 0 then some { c with reads := [] }
      else c.request fun u ↦ u.getDevDescr c.hid.bAddress 0 len.toUInt16) = some c₁)
    (hok : c₁.rcode = hrSuccess) (hone : (Usb.buffer buf c₁.reads)[17]?.getD 0 = 1)
    (hread : readConf 0x02 slot 0 (stack 0).buf (stack 0).parser c₁ = some (q, c₂))
    (hin : c₂.hid.overrun = false) :
    configure 0x02 slot stack buf c = goToWork slot c₂ := by
  have hconfs : tryConfs 0x02 slot stack ((List.range (1 : UInt8).toNat).map UInt8.ofNat)
      (stack 0).parser c₁ = some c₂ := by
    change (readConf 0x02 slot 0 (stack 0).buf (stack 0).parser c₁).bind _ = _
    rw [hread, Option.bind_some]
    dsimp only
    split <;> rfl
  have hne : ¬c₁.rcode ≠ 0 := not_not.mpr hok
  dsimp only at hsecond
  rw [configure]
  dsimp only
  rw [hsecond, Call.andThen, Option.bind_some, if_neg hne, hone]
  change (tryConfs _ _ _ _ _ _).bind _ = _
  rw [hconfs, Option.bind_some, hin, if_neg (by decide)]
  rfl

/-- `Init` up to the configuration. -/
private theorem init_known {parent port : UInt8} (buf : List UInt8) (stack : UInt8 → ConfStack)
    (hready : Ready slot p parent port lowspeed a c) (hmouse : BootMouse D descr d ds pep)
    (hs : Introduces a D descr s) (hscript : c.script = s ++ rest) :
    ∃ i c', Known slot p i a D c' ∧ c'.script = rest ∧
      c'.hid = { c.hid with bInterval := 0, bAddress := a } ∧ Unrecorded slot c.usb c'.usb ∧
      ∀ q c'', readConf 0x02 slot 0 (stack 0).buf (stack 0).parser c' = some (q, c'') →
        c''.hid.overrun = false → init 0x02 slot c parent port lowspeed buf stack =
          (goToWork slot c'').bind fun c ↦
            if c.hid.overrun = false ∧ c.rcode ≠ 0 then c.fail else some c := by
  obtain ⟨hfirst, haddr, hsecond⟩ := hs
  rw [List.append_assoc, List.append_assoc] at hscript
  obtain ⟨i, c₁, b, hinit, hk₁, hrest₁, hhid₁, hkept₁⟩ :=
    init_introduced buf stack hready hmouse hfirst haddr hscript
  obtain ⟨c₂, hk₂, hrest₂, hhid₂, hok₂, htoggled₂, hrun₂, hnum₂⟩ :=
    hk₁.secondDescr (b := b) hmouse hsecond hrest₁
  refine ⟨i, c₂, hk₂, hrest₂, hhid₂.trans hhid₁, fun k hk ↦ ?_, fun q c₃ hread hin ↦ ?_⟩
  · exact (hkept₁ k hk).trans (htoggled₂.epInfoAt _)
  · rw [hinit, configure_one hrun₂ hok₂ hnum₂ hread hin]

/-- The configuration is read, and the pool can be told of the mouse's endpoint. -/
private theorem Known.readConf_serves (hk : Known slot p i a D c)
    (hmouse : BootMouse D descr d ds pep) (stack : ConfStack)
    (hs : Configures a D (d :: ds).flatten s) (hscript : c.script = s ++ rest)
    (hin : c.hid.overrun = false)
    (hoften : ¬AsksTooOften 8 D 64 (Usb.wTotalLength (d :: ds).flatten) (d :: ds).flatten.length) :
    ∃ q c' m sp ls, readConf 0x02 slot 0 stack.buf stack.parser c = some (q, c') ∧
      c'.script = rest ∧ c'.hid = { c.hid with
        bConfNum := pep.conf, bInterval := max c.hid.bInterval pep.bInterval, bNumEP := 2 } ∧
      c'.usb.addrPool.setEpInfoEntry a 2 (.driver slot) =
        p.guest sp i ⟨.driver slot, ofByte a, 2, ls⟩ ∧
      c'.usb.HasControl (.driver slot) m ∧ m.toNat = D ∧
      c'.usb.epInfoAt (.driver slot, 1) = interruptEp pep := by
  obtain ⟨hguest, rfl, hone, ⟨sp, ls, hpool⟩, hshared, ⟨m, hown, hmD⟩, htable⟩ := hk
  have hreach := reaches_guest hguest hpool hshared (by simp) (by decide)
  obtain ⟨q, c', u, hread, hrest, -, htoggled, husb, hhid⟩ :=
    HidBoot.readConf_serves hmouse stack hreach hs hscript hone hin hoften
  refine ⟨q, c', m, sp, ls, hread, hrest, hhid, ?_, ?_, hmD, ?_⟩
  · have hentry : c'.usb.addrPool = p.guest sp i ⟨.dev0ep, ofByte c.hid.bAddress, 1, ls⟩ := by
      rw [husb]
      exact htoggled.addrPool.trans hpool
    rw [hentry]
    exact hguest.setEpInfoEntry rfl 2 (.driver slot)
  · rw [husb]
    exact (hown.toggled htoggled).setEpInfo (by simp) _
  · rw [husb, Usb.epInfoAt_setEpInfo, if_pos]
    refine ⟨rfl, ?_⟩
    rw [htoggled.length_epRecords, htable.length]
    exact one_lt_totalEndpoints 0x02

/-- `Init` once the mouse's endpoint is known. -/
private theorem starts_serves {report : List UInt8} {sp ls : Bool}
    (hguest : p.Guest i c.hid.bAddress)
    (hpool : c.usb.addrPool = p.guest sp i ⟨.driver slot, ofByte c.hid.bAddress, 2, ls⟩)
    (hctl : c.usb.HasControl (.driver slot) size) (hsize : size.toNat = D) (hD : 8 ≤ D)
    (heven : D ∣ 64)
    (hs : Starts c.hid.bAddress D report c.hid.bConfNum c.hid.bRptProtoEnable s)
    (hscript : c.script = s ++ rest) :
    ∃ c', (Call.andThen (c.request fun u ↦ u.setConf c.hid.bAddress 0 c.hid.bConfNum) fun c ↦
        Call.andThen (Call.andThen (setInterface 0 c) some) fun c ↦
          some { c with rcode := 0, hid.bPollEnable := true }) = some c' ∧ c'.rcode = 0 ∧
      c'.script = rest ∧ c'.hid = { c.hid with bPollEnable := true } ∧ c.usb.Toggled c'.usb := by
  obtain ⟨hconf, hinterface⟩ := hs
  next s₁ s₂ =>
  rw [List.append_assoc] at hscript
  have hreach : c.usb.Reaches c.hid.bAddress (.driver slot) size :=
    reaches_guest hguest hpool hctl (by simp) (by decide)
  have hdir : ¬(setConfPkt c.hid.bConfNum).bmRequestType &&& 0x80 > 0 :=
    show ¬(0x00 : UInt8) &&& 0x80 > 0 by decide
  obtain ⟨r, hrun, hok, hrest⟩ := Usb.ctrlReq_acks hconf hreach hdir 0 (s₂ ++ rest)
  obtain ⟨htoggled, -⟩ := Usb.ctrlReq_toggled hrun
  obtain ⟨c₁, hrun₁, hok₁, hrest₁, hquiet⟩ := setInterface_serves (c := ⟨r, c.hid⟩)
    (hreach.toggled htoggled) (by omega) hsize.le heven hinterface hrest
  have hrequest : (c.request fun u ↦ u.setConf c.hid.bAddress 0 c.hid.bConfNum) =
      some ⟨r, c.hid⟩ := by
    rw [Call.request, hscript]
    exact congrArg (Option.map _) hrun
  have hne : ¬r.rcode ≠ 0 := not_not.mpr hok
  have hne₁ : ¬c₁.rcode ≠ 0 := not_not.mpr hok₁
  refine ⟨{ c₁ with rcode := 0, hid.bPollEnable := true }, ?_, rfl, hrest₁, ?_, ?_⟩
  · simp only [hrequest, Call.andThen, Option.bind_some, if_neg hne, hrun₁, if_neg hne₁]
  · dsimp only
    rw [hquiet.hid]
  · exact htoggled.trans hquiet.toggled

/-- What `Init` makes of a boot mouse: it is polled at its interrupt endpoint, as often as it asks
to be. -/
structure Enumerated (slot : Fin 16) (p : AddressPool n) (a : UInt8) (pep : EndpointCall)
    (c : Call n) : Prop where
  rcode : c.rcode = 0
  attached : Attached 0x02 slot p c.usb c.hid
  bAddress : c.hid.bAddress = a
  bConfNum : c.hid.bConfNum = pep.conf
  bInterval : c.hid.bInterval = pep.bInterval
  endpoint : (interruptEp pep).Alike (c.usb.epInfoAt (.driver slot, 1))

/-- Whatever retries and toggle errors come in between, and whether or not it answers the requests
it may refuse, a boot mouse that keeps to the protocol ends up with the address the pool gave it,
polled at its interrupt endpoint; unless the host asks once too often for its configuration, which
is read as if in packets of eight bytes. -/
theorem init_mouse {parent port : UInt8} {report : List UInt8} {s₀ s₁ s₂ : Script}
    (buf : List UInt8) (stack : UInt8 → ConfStack)
    (hready : Ready slot p parent port lowspeed a c) (hmouse : BootMouse D descr d ds pep)
    (h₀ : Introduces a D descr s₀) (h₁ : Configures a D (d :: ds).flatten s₁)
    (h₂ : Starts a D report pep.conf c.hid.bRptProtoEnable s₂)
    (hscript : c.script = s₀ ++ (s₁ ++ (s₂ ++ rest)))
    (hoften : ¬AsksTooOften 8 D 64 (Usb.wTotalLength (d :: ds).flatten) (d :: ds).flatten.length) :
    ∃ c', init 0x02 slot c parent port lowspeed buf stack = some c' ∧ c'.script = rest ∧
      Enumerated slot p a pep c' := by
  obtain ⟨i, c₂, hk, hrest₂, hhid₂, -, hinit⟩ := init_known buf stack hready hmouse h₀ hscript
  have hin₂ : c₂.hid.overrun = false := by
    rw [hhid₂]
    exact hready.inside
  obtain ⟨q, c₃, m, sp, ls, hread, hrest₃, hhid₃, hpool₃, hctl₃, hmD, hat₃⟩ :=
    hk.readConf_serves hmouse (stack 0) h₁ hrest₂ hin₂ hoften
  rw [hhid₂] at hhid₃
  have hin₃ : c₃.hid.overrun = false := by
    rw [hhid₃]
    exact hready.inside
  set c₄ : Call n := { c₃ with
    usb.addrPool := c₃.usb.addrPool.setEpInfoEntry c₃.hid.bAddress c₃.hid.bNumEP (.driver slot) }
    with hc₄
  have haddr : c₄.hid.bAddress = a := by rw [hc₄, hhid₃]
  have hpool₄ : c₄.usb.addrPool =
      p.guest sp i ⟨.driver slot, ofByte c₄.hid.bAddress, 2, ls⟩ := by
    rw [haddr, ← hpool₃, hc₄, hhid₃]
  have hstart : Starts c₄.hid.bAddress D report c₄.hid.bConfNum c₄.hid.bRptProtoEnable s₂ := by
    rw [hc₄, hhid₃]
    exact h₂
  obtain ⟨c', hwork, hok, hrest, hhid, htoggled⟩ := starts_serves (by rw [haddr]; exact hk.guest)
    hpool₄ (hctl₃.addrPool _) hmD hmouse.size_le hmouse.even hstart hrest₃
  have hfull : ¬c₃.hid.bNumEP ≠ 2 := by
    rw [hhid₃]
    exact not_not.mpr rfl
  have hrun : init 0x02 slot c parent port lowspeed buf stack = some c' := by
    rw [hinit q c₃ hread hin₃, goToWork, if_neg hfull]
    dsimp only
    rw [hwork, Option.bind_some, if_neg fun hfail ↦ hfail.2 hok]
  have hin : c'.hid.overrun = false := by
    rw [hhid]
    exact hin₃
  obtain ⟨-, ⟨hne, -⟩ | ⟨-, hattached⟩⟩ :=
    init_ends hready.tree hready.sound hready.table hready.idle hrun hin
  · exact absurd hok hne
  refine ⟨c', hrun, hrest, hok, hattached, ?_, ?_, ?_, ?_⟩
  · rw [hhid]
    exact haddr
  · rw [hhid, hc₄, hhid₃]
  · rw [hhid, hc₄, hhid₃]
    change (if (0 : UInt8) ≤ pep.bInterval then pep.bInterval else 0) = pep.bInterval
    rw [if_pos UInt8.zero_le]
  · have halike := htoggled.epInfoAt (.driver slot, 1)
    change (c₃.usb.epInfoAt (.driver slot, 1)).Alike _ at halike
    rwa [hat₃] at halike

/-- What the parser reports of the endpoint of `mouseInterface`. -/
def mouseEndpoint : EndpointCall where
  conf := 1
  iface := 0
  alt := 0
  proto := 2
  bEndpointAddress := 0x81
  bmAttributes := 3
  wMaxPacketSize := 4
  bInterval := 10

private theorem bootMouse_mouseDescr (h : size = 8 ∨ size = 64) :
    BootMouse size.toNat (mouseDescr size) mouseConf mouseInterface mouseEndpoint := by
  rcases h with rfl | rfl <;>
    exact ⟨by decide, by decide, rfl, rfl, rfl, rfl, by decide, by decide, by decide, by decide,
      by decide⟩

private theorem acks_ackAnswer {perAddr : UInt8} :
    Acks perAddr ep nakLimit pkt [ackAnswer, ackAnswer] :=
  .intro (.nil _ nakLimit) (rcode_ackAnswer _) (.nil _ nakLimit) (rcode_ackAnswer _)

private theorem introduces_introduction (h : size = 8 ∨ size = 64) :
    Introduces a size.toNat (mouseDescr size) (introduction size) := by
  have hbounds : 0 < size.toNat ∧ size.toNat ≤ 64 := by
    rcases h with rfl | rfl <;> decide
  exact .intro (serves_plainScript hbounds.1 hbounds.2 _) acks_ackAnswer
    (serves_plainScript hbounds.1 hbounds.2 _)

private theorem configures_configuration (h : size = 8 ∨ size = 64) :
    Configures a size.toNat (mouseConf :: mouseInterface).flatten (configuration size) := by
  have hbounds : 0 < size.toNat ∧ size.toNat ≤ 64 := by
    rcases h with rfl | rfl <;> decide
  exact .intro (serves_plainScript hbounds.1 hbounds.2 _)
    (serves_plainScript hbounds.1 hbounds.2 _)

private theorem refuses_stallAnswer {perAddr : UInt8} :
    Refuses perAddr ep nakLimit pkt ([] ++ [stallAnswer]) :=
  .intro (.nil _ nakLimit) (show hrStall &&& 0x0F = hrStall by decide)

private theorem starts_startOfWork {b : UInt8} {rpt : Bool} :
    Starts a 8 (List.replicate 52 0) b rpt startOfWork :=
  .intro acks_ackAnswer (.intro acks_ackAnswer (Or.inr refuses_stallAnswer)
    (Or.inl (serves_plainScript (by decide) (by decide) _)))

/-- `Init` of a new driver on a new shield. -/
def firstInit (slot : Fin 16) (script : Script) : Call 15 :=
  ⟨⟨0, [], driverUsb 0x02 slot, script⟩, start 0x02 false⟩

private theorem ready_firstInit (slot : Fin 16) (script : Script) :
    Ready slot (AddressPool.init 15) 0 0 true 1 (firstInit slot script) where
  tree := tree_init
  sound := by decide +kernel
  epinfo := rfl
  epcount := rfl
  idle := ⟨rfl, rfl, rfl, _, (setLowspeed_self (AddressPool.init 15)).symm⟩
  table := (settled_start (p := AddressPool.init 15) rfl (if_pos rfl) rfl rfl rfl).table
  shared := by
    have hrecord : (firstInit slot script).usb.epRecords .dev0ep = [controlEp] := by
      change (if EpPtr.dev0ep = .driver slot then initEpInfo 0x02 else [controlEp]) = _
      rw [if_neg (by simp)]
    constructor <;> simp [Usb.epInfoAt, hrecord, controlEp]
  own := by
    have hrecord : (firstInit slot script).usb.epRecords (.driver slot) = initEpInfo 0x02 :=
      if_pos rfl
    refine ⟨8, ?_⟩
    constructor <;> simp [Usb.epInfoAt, hrecord, initEpInfo, controlEp]
  inside := rfl
  alloc := by decide +kernel
  ne_zero := by decide

/-- A mouse with packets of eight bytes. -/
theorem init_mouse_eight :
    ∃ c', init 0x02 ⟨0, by decide⟩ (firstInit ⟨0, by decide⟩ (introduction 8 ++
        (configuration 8 ++ (startOfWork ++ [])))) 0 0 true [] (fun _ ↦ zeroStack) = some c' ∧
      c'.script = [] ∧ Enumerated ⟨0, by decide⟩ (AddressPool.init 15) 1 mouseEndpoint c' :=
  init_mouse [] (fun _ ↦ zeroStack) (ready_firstInit _ _)
    (bootMouse_mouseDescr (Or.inl rfl)) (introduces_introduction (Or.inl rfl))
    (configures_configuration (Or.inl rfl)) starts_startOfWork rfl (by decide)

/-- A boot mouse that keeps to the protocol as well, but for whose configuration, of less than 64
bytes, the host asks once too often, is not supported: none of its endpoints is recorded, and its
address is taken back. -/
theorem init_turnsAway {parent port : UInt8} {s₀ s₁ : Script} (buf : List UInt8)
    (stack : UInt8 → ConfStack) (hready : Ready slot p parent port lowspeed a c)
    (hmouse : BootMouse D descr d ds pep) (h₀ : Introduces a D descr s₀)
    (h₁ : Configures a D (d :: ds).flatten s₁) (hscript : c.script = s₀ ++ (s₁ ++ rest))
    (hlt : (d :: ds).flatten.length < 64)
    (hoften : AsksTooOften 8 D 64 (Usb.wTotalLength (d :: ds).flatten) (d :: ds).flatten.length) :
    ∃ c', init 0x02 slot c parent port lowspeed buf stack = some c' ∧ c'.script = rest ∧
      c'.rcode = errorDeviceNotSupported ∧ Idle p c'.usb c'.hid ∧ Unrecorded slot c.usb c'.usb := by
  obtain ⟨i, c₂, hk, hrest₂, hhid₂, hkept, hinit⟩ := init_known buf stack hready hmouse h₀ hscript
  obtain ⟨hguest, rfl, hone, ⟨sp, ls, hpool₂⟩, hshared₂, -, -⟩ := hk
  have hreach₂ := reaches_guest hguest hpool₂ hshared₂ (by simp) (by decide)
  obtain ⟨q, c₃, hread, hrest₃, htoggled₃, hhid₃⟩ :=
    readConf_starved slot hmouse (stack 0) hreach₂ h₁ hrest₂ hlt hoften
  have hin₃ : c₃.hid.overrun = false := by
    rw [hhid₃, hhid₂]
    exact hready.inside
  have hfew : c₃.hid.bNumEP ≠ 2 := by
    rw [hhid₃, hone]
    decide
  set c₄ : Call n := { c₃ with rcode := errorDeviceNotSupported } with hc₄
  have hknown : Addressed p i c₄ := by
    refine ⟨?_, ?_, sp, ⟨.dev0ep, ofByte c₂.hid.bAddress, 1, ls⟩, ?_, ?_⟩
    · change p.Guest i c₃.hid.bAddress
      rwa [hhid₃]
    · change c₃.hid.bPollEnable = false
      rw [hhid₃, hhid₂]
      exact hready.idle.bPollEnable
    · change _ = ofByte c₃.hid.bAddress
      rw [hhid₃]
    · exact htoggled₃.addrPool.trans hpool₂
  obtain ⟨c₅, hfail, hcode, hrecords, hidle⟩ := hknown.fail
  have hrest₅ : c₅.script = rest := by
    obtain ⟨_, -, rfl⟩ := Option.map_eq_some_iff.mp hfail
    exact hrest₃
  have hne : errorDeviceNotSupported ≠ 0 := by decide
  refine ⟨c₅, ?_, hrest₅, hcode, hidle, fun k hk ↦ ?_⟩
  · rw [hinit q c₃ hread hin₃, goToWork, if_pos hfew, Option.bind_some, if_pos ⟨hin₃, hne⟩]
    exact hfail
  · have hlast : c₅.usb.epInfoAt (.driver slot, k) = c₃.usb.epInfoAt (.driver slot, k) := by
      rw [Usb.epInfoAt, hrecords]
      rfl
    rw [hlast]
    exact (hkept k hk).trans (htoggled₃.epInfoAt _)

/-- The same mouse with packets of 64 bytes. -/
theorem init_turnsAway_sixtyFour :
    ∃ c', init 0x02 ⟨0, by decide⟩ (firstInit ⟨0, by decide⟩ (introduction 64 ++
        (configuration 64 ++ []))) 0 0 true [] (fun _ ↦ zeroStack) = some c' ∧ c'.script = [] ∧
      c'.rcode = errorDeviceNotSupported ∧ Idle (AddressPool.init 15) c'.usb c'.hid ∧
      Unrecorded ⟨0, by decide⟩ (firstInit ⟨0, by decide⟩ (introduction 64 ++
        (configuration 64 ++ []))).usb c'.usb :=
  init_turnsAway [] (fun _ ↦ zeroStack) (ready_firstInit _ _)
    (bootMouse_mouseDescr (Or.inr rfl)) (introduces_introduction (Or.inr rfl))
    (configures_configuration (Or.inr rfl)) rfl (by decide) (by decide)

end HidBoot

end MouseAide.Host
