import MouseAide.Host.HidBootRuns

/-!
# Reports of a polled device

Library `MouseHost`. An interrupt endpoint is read a packet at a time: a poll asks for as many
bytes as a packet may hold, so it ends with the first packet it takes. Over any row of polls, up to
the first packet that does not fit the buffer, the report parser is called for the packets taken,
in order, each once.
-/

namespace MouseAide.Host

open MouseAide.Base

variable {n : Nat} {l : Launch} {nakLimit : UInt16} {script rest : Script} {pep : EpInfo}
  {fuel : Nat} {maxPktSize : UInt8}

/-- The packets the host has taken among answers to `l`. -/
def accepted (l : Launch) (used : Script) : List (List UInt8) :=
  used.filterMap fun x ↦
    if (x l).rcode = hrSuccess ∧ (x l).rcvDav = true then some (x l).rcvFifo.val else none

@[simp] theorem accepted_append (l : Launch) (rs rs' : Script) :
    accepted l (rs ++ rs') = accepted l rs ++ accepted l rs' := List.filterMap_append

/-- Retries take no packet. -/
theorem SatOut.accepted_concat {rs : Script} {x : Launch → Attempt} (h : SatOut l nakLimit rs) :
    accepted l (rs ++ [x]) =
      if (x l).rcode = hrSuccess ∧ (x l).rcvDav = true then [(x l).rcvFifo.val] else [] := by
  have hnone : accepted l rs = [] := by
    apply List.filterMap_eq_nil_iff.mpr
    intro y hy
    apply if_neg
    rintro ⟨hok, -⟩
    rcases h.retried y hy with hy | hy <;> rw [hok] at hy <;> exact absurd hy (by decide)
  rw [accepted_append, hnone, List.nil_append, accepted, List.filterMap_cons]
  split <;> simp_all

/-- How the poll of a packet ends: an error, or one packet cut to the size that was asked for. -/
def Taken (l : Launch) (maxPktSize : UInt8) (used : Script) (rcode : UInt8) (read : UInt16)
    (data : List UInt8) : Prop :=
  rcode ≠ hrSuccess ∧ accepted l used = [] ∧ data = [] ∨
    rcode = hrSuccess ∧ read.toNat = data.length ∧
      ∃ p, accepted l used = [p] ∧ data = p.take maxPktSize.toNat

private theorem inLoop_taken {r : InResult} (hsize : pep.maxPktSize = maxPktSize)
    (h : inLoop l nakLimit maxPktSize.toUInt16 fuel pep 0 [] script = some r) :
    ∃ used, script = used ++ r.script ∧ Taken l maxPktSize used r.rcode r.read r.data := by
  induction fuel generalizing pep script with
  | zero => simp [inLoop] at h
  | succ fuel ih =>
    cases hd : dispatchPkt l nakLimit script with
    | none => simp [inLoop, hd] at h
    | some res =>
      obtain ⟨a, rest⟩ := res
      obtain ⟨rs, x, rfl, rfl, hsat⟩ := dispatchPkt_cases hd
      have hscript : rs ++ x :: rest = rs ++ [x] ++ rest := by simp
      have hnone : ¬((x l).rcode = hrSuccess ∧ (x l).rcvDav = true) →
          accepted l (rs ++ [x]) = [] := fun hx ↦ by rw [hsat.accepted_concat, if_neg hx]
      by_cases htog : (x l).rcode = hrTogErr
      · rw [inLoop_togErr hd htog] at h
        have hsize' : { pep with bmRcvToggle := !(x l).rcvTogRd }.maxPktSize = maxPktSize := hsize
        obtain ⟨used, rfl, htaken⟩ := ih hsize' h
        have hnil := hnone fun hok ↦ absurd (htog.symm.trans hok.1) (by decide)
        refine ⟨rs ++ [x] ++ used, by simp, ?_⟩
        rwa [Taken, accepted_append, hnil, List.nil_append]
      · by_cases hok : (x l).rcode = hrSuccess
        · by_cases hdav : (x l).rcvDav = true
          · -- the packet is short, or it fills all that was asked for
            have hroom : Room maxPktSize.toUInt16 0 ([] : List UInt8) := by
              refine ⟨?_, rfl, Nat.zero_le _⟩
              have := maxPktSize.toNat_lt
              rw [UInt8.toNat_toUInt16]
              omega
            have hlast : pktsize maxPktSize.toUInt16 (x l) < pep.maxPktSize.toNat ∨
                maxPktSize.toUInt16 ≤ 0 + UInt16.ofNat (pktsize maxPktSize.toUInt16 (x l)) := by
              rw [UInt16.le_iff_toNat_le, hroom.toNat_read, UInt8.toNat_toUInt16, pktsize, hsize,
                UInt8.toNat_toUInt16, List.length_nil]
              omega
            rw [inLoop_packet hd hok hdav, if_pos hlast] at h
            obtain rfl := Option.some.inj h
            refine ⟨rs ++ [x], hscript, Or.inr ⟨rfl, ?_, (x l).rcvFifo.val, ?_, ?_⟩⟩
            · dsimp only
              rw [hroom.toNat_read, hroom.append_stored, pktsize, List.nil_append,
                List.length_take, List.length_nil, Nat.zero_add, Nat.min_comm]
            · rw [hsat.accepted_concat, if_pos ⟨hok, hdav⟩]
            · rw [hroom.append_stored, List.nil_append, UInt8.toNat_toUInt16]
          · rw [inLoop_noData hd hok (Bool.eq_false_iff.mpr hdav)] at h
            obtain rfl := Option.some.inj h
            exact ⟨rs ++ [x], hscript, Or.inl ⟨show receiveError ≠ hrSuccess by decide,
              hnone fun hx ↦ hdav hx.2, rfl⟩⟩
        · rw [inLoop_error hd htog hok] at h
          obtain rfl := Option.some.inj h
          exact ⟨rs ++ [x], hscript, Or.inl ⟨hok, hnone fun hx ↦ hok hx.1, rfl⟩⟩

namespace Usb

variable {u u' : Usb n} {addr ep : UInt8} {ppep : EpPtr × Nat}

/-- The search for an endpoint does not look at toggles. -/
theorem Toggled.setAddress (h : u.Toggled u') (addr ep : UInt8) :
    u'.setAddress addr ep = u.setAddress addr ep := by
  have hmap : ∀ e, (u'.epRecords e).map EpInfo.epAddr = (u.epRecords e).map EpInfo.epAddr := by
    intro e
    apply List.ext_getElem
    · rw [List.length_map, List.length_map, h.length_epRecords]
    · intro k hk hk'
      have hat := (h.epInfoAt (e, k)).epAddr
      rw [List.length_map] at hk hk'
      rw [Usb.epInfoAt, Usb.epInfoAt, List.getElem?_eq_getElem hk, List.getElem?_eq_getElem hk',
        Option.getD_some, Option.getD_some] at hat
      rw [List.getElem_map, List.getElem_map, hat]
  have hfind : ∀ e k, ((u'.epRecords e).take k).findIdx? (·.epAddr == ep) =
      ((u.epRecords e).take k).findIdx? (·.epAddr == ep) := by
    intro e k
    have hcomp : ∀ rs : List EpInfo, (rs.take k).findIdx? (·.epAddr == ep) =
        ((rs.map EpInfo.epAddr).take k).findIdx? (· == ep) := by
      intro rs
      rw [← List.map_take, List.findIdx?_map]
      rfl
    rw [hcomp, hcomp, hmap]
  have hentry : u'.getEpInfoEntry addr ep = u.getEpInfoEntry addr ep := by
    simp only [getEpInfoEntry, h.addrPool, hfind]
  simp only [Usb.setAddress, h.addrPool, hentry, (h.epInfoAt _).bmNakPower]

/-- An IN transfer of a packet's size takes one packet at most. -/
theorem inTransfer_taken {r : Reply n} (hset : u.setAddress addr ep = .ok (ppep, nakLimit))
    (h : u.inTransfer addr ep (u.epInfoAt ppep).maxPktSize.toUInt16 script = some r) :
    ∃ used read data, script = used ++ r.script ∧ r.reads = [⟨read, data, 0⟩] ∧
      Taken ⟨addr, ep, .tokIn⟩ (u.epInfoAt ppep).maxPktSize used r.rcode read data := by
  rw [inTransfer, hset] at h
  obtain ⟨r', hr', rfl⟩ := Option.map_eq_some_iff.mp h
  obtain ⟨used, hused, htaken⟩ := inLoop_taken rfl hr'
  rw [(epAddr_of_setAddress hset).1] at htaken
  exact ⟨used, r'.read, r'.data, hused, rfl, htaken⟩

end Usb

namespace HidBoot

variable {proto : UInt8} {slot : Fin 16} {k : Nat} {c c' : Call n} {reports : List Report}

/-- A packet that does not fit `buf`, `hidboot.h:585–586`. -/
def Oversized (maxPktSize : UInt8) (p : List UInt8) : Prop :=
  16 < (p.take maxPktSize.toNat).length

instance (maxPktSize : UInt8) (p : List UInt8) : Decidable (Oversized maxPktSize p) :=
  inferInstanceAs (Decidable (_ < _))

/-- What the report parser `k` is called with for a packet that fits: nothing for the two bytes
that some dongles send on the wrong endpoint. -/
def bootReport (k : Nat) (maxPktSize : UInt8) (p : List UInt8) : Option Report :=
  let buf := p.take maxPktSize.toNat
  if ¬Oversized maxPktSize p ∧ 2 < buf.length then some ⟨k, UInt8.ofNat buf.length, buf⟩ else none

/-- The driver polls interface `k` with the launch `l`, for packets of `maxPktSize`. -/
structure Listening (slot : Fin 16) (k : Nat) (l : Launch) (maxPktSize : UInt8) (u : Usb n)
    (h : HidBoot) : Prop where
  launch : l = ⟨h.bAddress, (u.epInfoAt (.driver slot, 1 + k)).epAddr, .tokIn⟩
  size : (u.epInfoAt (.driver slot, 1 + k)).maxPktSize = maxPktSize
  found : ∃ nakLimit, u.setAddress h.bAddress (u.epInfoAt (.driver slot, 1 + k)).epAddr =
    .ok ((.driver slot, 1 + k), nakLimit)
  parser : h.pRptParser[k]?.getD false = true

/-- What a row of polls delivers that takes `used` from the script. A packet that does not fit is
the last one taken. -/
structure Delivers (k : Nat) (l : Launch) (maxPktSize : UInt8) (c c' : Call n) (used : Script)
    (reports : List Report) : Prop where
  script : c.script = used ++ c'.script
  reports_eq : reports = (accepted l used).filterMap (bootReport k maxPktSize)
  overrun : c'.hid.overrun = true ↔
    c.hid.overrun = true ∨ ∃ p ∈ accepted l used, Oversized maxPktSize p
  fits : ∀ p ∈ (accepted l used).dropLast, ¬Oversized maxPktSize p

/-- Polls change nothing the next one looks at. -/
theorem Listening.polled (h : Listening slot k l maxPktSize c.usb c.hid) (hp : Polled c c') :
    Listening slot k l maxPktSize c'.usb c'.hid := by
  obtain ⟨htoggled, o, t, ho⟩ := hp
  have halike := htoggled.epInfoAt (.driver slot, 1 + k)
  rw [ho]
  refine ⟨?_, halike.maxPktSize.trans h.size, ?_, h.parser⟩
  · rw [halike.epAddr]
    exact h.launch
  · obtain ⟨nakLimit, hset⟩ := h.found
    rw [halike.epAddr, htoggled.setAddress]
    exact ⟨nakLimit, hset⟩

/-- Nothing is taken, nothing delivered. -/
theorem Delivers.refl (k : Nat) (l : Launch) (maxPktSize : UInt8) (c : Call n) :
    Delivers k l maxPktSize c c [] [] := ⟨rfl, rfl, by simp [accepted], by simp [accepted]⟩

/-- One row of polls after another, if the first has left no buffer. -/
theorem Delivers.trans {c'' : Call n} {used used' : Script} {reports' : List Report}
    (h : Delivers k l maxPktSize c c' used reports)
    (h' : Delivers k l maxPktSize c' c'' used' reports') (hin : ¬c'.hid.overrun = true) :
    Delivers k l maxPktSize c c'' (used ++ used') (reports ++ reports') where
  script := by rw [h.script, h'.script, List.append_assoc]
  reports_eq := by rw [h.reports_eq, h'.reports_eq, accepted_append, List.filterMap_append]
  overrun := by
    rw [h'.overrun, h.overrun, accepted_append]
    simp only [List.mem_append, or_and_right, exists_or, or_assoc]
  fits p hp := by
    rw [accepted_append] at hp
    by_cases hnil : accepted l used' = []
    · rw [hnil, List.append_nil] at hp
      exact h.fits p hp
    · rw [List.dropLast_append_of_ne_nil hnil, List.mem_append] at hp
      rcases hp with hp | hp
      · exact fun hover ↦ hin (h.overrun.mpr (Or.inr ⟨p, hp, hover⟩))
      · exact h'.fits p hp

private theorem pollOne_delivers (h : Listening slot k l maxPktSize c.usb c.hid)
    (hrun : pollOne slot k c = some (c', reports)) :
    ∃ used, Delivers k l maxPktSize c c' used reports := by
  obtain ⟨hlaunch, hsize, ⟨nakLimit, hset⟩, hparser⟩ := h
  obtain ⟨c₁, h₁, hrun⟩ := Option.map_eq_some_iff.mp hrun
  obtain ⟨r, hr, rfl⟩ := Option.map_eq_some_iff.mp h₁
  obtain ⟨used, read, data, hused, hreads, htaken⟩ := Usb.inTransfer_taken hset hr
  rw [hsize, ← hlaunch] at htaken
  simp only [hreads] at hrun
  rcases htaken with ⟨hne, hnone, rfl⟩ | ⟨hok, hread, p, hp, rfl⟩
  · rw [if_neg (by decide), if_neg fun hx ↦ hne hx.1] at hrun
    cases hrun
    refine ⟨used, hused, ?_, ?_, ?_⟩
    · rw [hnone]
      rfl
    · simp [hnone]
    · simp [hnone]
  · have hfits : ∀ q ∈ (accepted l used).dropLast, ¬Oversized maxPktSize q := by
      rw [hp]
      exact List.forall_mem_nil _
    have hover : ∀ o : Prop, (o ∨ ∃ q ∈ accepted l used, Oversized maxPktSize q) ↔
        o ∨ Oversized maxPktSize p := by
      intro o
      rw [hp]
      simp only [List.mem_singleton, exists_eq_left]
    have hreport : (accepted l used).filterMap (bootReport k maxPktSize) =
        (bootReport k maxPktSize p).toList := by
      rw [hp, List.filterMap_cons]
      cases bootReport k maxPktSize p <;> rfl
    have hlong : read > 2 ↔ 2 < (p.take maxPktSize.toNat).length := by
      rw [gt_iff_lt, UInt16.lt_iff_toNat_lt, hread]
      rfl
    have hlen : read.toUInt8 = UInt8.ofNat (p.take maxPktSize.toNat).length := by
      rw [← UInt8.toNat_inj, UInt16.toNat_toUInt8, hread, UInt8.toNat_ofNat']
    split at hrun
    · next hbig =>
      cases hrun
      refine ⟨used, hused, ?_, ?_, hfits⟩
      · rw [hreport, bootReport, if_neg fun hx ↦ hx.1 hbig]
        rfl
      · rw [hover]
        exact iff_of_true rfl (Or.inr hbig)
    next hbig =>
    have hsame : c.hid.overrun = true ↔
        c.hid.overrun = true ∨ ∃ q ∈ accepted l used, Oversized maxPktSize q := by
      rw [hover]
      exact (or_iff_left hbig).symm
    split at hrun
    · next hcond =>
      cases hrun
      refine ⟨used, hused, ?_, hsame, hfits⟩
      rw [hreport, bootReport, if_pos ⟨hbig, hlong.mp hcond.2.1⟩, hlen]
      rfl
    · next hcond =>
      cases hrun
      refine ⟨used, hused, ?_, hsame, hfits⟩
      rw [hreport, bootReport, if_neg fun hx ↦ hcond ⟨hok, hlong.mpr hx.2, hparser⟩]
      rfl

/-- One poll of a driver of one interface. -/
private theorem poll_delivers {now later : UInt32} (hone : epMUL proto = 1)
    (h : Listening slot 0 l maxPktSize c.usb c.hid)
    (hrun : poll proto slot c now later = some (c', reports)) :
    ∃ used, Delivers 0 l maxPktSize c c' used reports := by
  rw [poll] at hrun
  split at hrun
  · obtain ⟨⟨c₁, rs⟩, h₁, hrun⟩ := Option.map_eq_some_iff.mp hrun
    cases hrun
    rw [hone] at h₁
    obtain ⟨⟨c₂, rs₂⟩, h₂, h₁⟩ := Option.bind_eq_some_iff.mp h₁
    obtain ⟨used, hscript, hreports, hover, hfits⟩ := pollOne_delivers h h₂
    have hlast : c₁ = c₂ ∧ reports = rs₂ := by
      dsimp only at h₁
      split at h₁
      · cases h₁
        exact ⟨rfl, rfl⟩
      · cases h₁
        exact ⟨rfl, List.append_nil _⟩
    obtain ⟨rfl, rfl⟩ := hlast
    exact ⟨used, hscript, hreports, hover, hfits⟩
  · cases hrun
    exact ⟨[], rfl, rfl, by simp [accepted], by simp [accepted]⟩

/-- A row of calls of `Poll`, each with what the clock shows before and after its transfers, as
long as no buffer has been left. -/
def polls (proto : UInt8) (slot : Fin 16) :
    List (UInt32 × UInt32) → Call n → Option (Call n × List Report)
  | [], c => some (c, [])
  | (now, later) :: times, c =>
    if c.hid.overrun then some (c, [])
    else
      (poll proto slot c now later).bind fun (c, reports) ↦
        (polls proto slot times c).map fun (c, more) ↦ (c, reports ++ more)

/-- Nothing more is said of a driver that has left a buffer. -/
theorem polls_of_overrun {times : List (UInt32 × UInt32)} (hover : c.hid.overrun = true)
    (hrun : polls proto slot times c = some (c', reports)) : c = c' ∧ reports = [] := by
  cases times with
  | nil =>
    cases hrun
    exact ⟨rfl, rfl⟩
  | cons t times =>
    rw [polls, if_pos hover] at hrun
    cases hrun
    exact ⟨rfl, rfl⟩

/-- A row of polls of a driver of one interface. -/
theorem Listening.delivers {times : List (UInt32 × UInt32)} (hone : epMUL proto = 1)
    (h : Listening slot 0 l maxPktSize c.usb c.hid)
    (hrun : polls proto slot times c = some (c', reports)) :
    ∃ used, Delivers 0 l maxPktSize c c' used reports := by
  induction times generalizing c reports with
  | nil =>
    cases hrun
    exact ⟨[], .refl _ _ _ _⟩
  | cons t times ih =>
    rw [polls] at hrun
    split at hrun
    · cases hrun
      exact ⟨[], .refl _ _ _ _⟩
    obtain ⟨⟨c₁, rs₁⟩, h₁, hrun⟩ := Option.bind_eq_some_iff.mp hrun
    obtain ⟨⟨c₂, rs₂⟩, h₂, hrun⟩ := Option.map_eq_some_iff.mp hrun
    cases hrun
    obtain ⟨used, hd⟩ := poll_delivers hone h h₁
    by_cases hin : c₁.hid.overrun = true
    · obtain ⟨rfl, rfl⟩ := polls_of_overrun hin h₂
      rw [List.append_nil]
      exact ⟨used, hd⟩
    · obtain ⟨used', hd'⟩ := ih (h.polled (poll_polled h₁)) h₂
      exact ⟨used ++ used', hd.trans hd' hin⟩

/-- A call that only polls. -/
def BootCall.IsPoll : BootCall → Prop
  | .poll .. => True
  | _ => False

instance : DecidablePred BootCall.IsPoll
  | .init .. => .isFalse id
  | .poll .. => .isTrue trivial
  | .release => .isFalse id

/-- In a run of the driver from `s₀`, polls with a script each take `used` from these. -/
inductive Takes (proto : UInt8) (slot : Fin 16) (s₀ : Usb n × HidBoot) :
    List BootCall → List Script → Prop
  | nil : Takes proto slot s₀ [] []
  | concat {calls : List BootCall} {used : List Script} {s : Usb n × HidBoot} {c : Call n}
      {reports : List Report} {now later : UInt32} {rs : Script}
      (h : Takes proto slot s₀ calls used)
      (hs : (machine proto slot s₀).state calls = some s)
      (hrun : poll proto slot ⟨⟨0, [], s.1, rs ++ c.script⟩, s.2⟩ now later = some (c, reports)) :
      Takes proto slot s₀ (calls ++ [.poll now later (rs ++ c.script)]) (used ++ [rs])

/-- A driver of one interface hands over the packets its polls take, as long as it has left no
buffer. -/
theorem Listening.machine_delivers {s s' : Usb n × HidBoot} {calls : List BootCall}
    (hone : epMUL proto = 1) (h : Listening slot 0 l maxPktSize s.1 s.2)
    (hpolls : ∀ b ∈ calls, b.IsPoll) (hend : (machine proto slot s).state calls = some s')
    (hin : ¬s'.2.overrun = true) :
    Listening slot 0 l maxPktSize s'.1 s'.2 ∧
      ∃ used, Takes proto slot s calls used ∧
        (machine proto slot s).trace calls =
          (accepted l used.flatten).filterMap (bootReport 0 maxPktSize) := by
  induction calls using List.reverseRecOn generalizing s' with
  | nil =>
    cases hend
    exact ⟨h, [], .nil, rfl⟩
  | append_singleton calls b ih =>
    rw [Machine.state_concat] at hend
    rw [Machine.trace_concat]
    have hpoll := hpolls b (List.mem_append_right _ List.mem_cons_self)
    cases hb : (machine proto slot s).state calls with
    | none =>
      rw [hb] at hend
      cases hend
    | some s₁ =>
      rw [hb] at hend
      cases b with
      | init => exact hpoll.elim
      | release => exact hpoll.elim
      | poll now later script =>
        have hcall := machine_step hend
        rw [call] at hcall
        split at hcall
        · next hover =>
          cases congrArg Prod.fst (Option.some.inj hcall)
          exact absurd hover hin
        · next hclean =>
          obtain ⟨⟨c, reports⟩, hrun, heq⟩ := Option.map_eq_some_iff.mp hcall
          cases congrArg Prod.fst heq
          obtain ⟨hlisten, used, huses, htrace⟩ :=
            ih (fun b hb ↦ hpolls b (List.mem_append_left _ hb)) hb hclean
          obtain ⟨rs, hd⟩ := poll_delivers hone hlisten hrun
          refine ⟨hlisten.polled (poll_polled hrun), used ++ [rs], ?_, ?_⟩
          · obtain rfl : script = rs ++ c.script := hd.script
            exact huses.concat hb hrun
          · have hreports : ((machine proto slot s).step (some s₁) (.poll now later script)).2 =
                reports := (congrArg Prod.snd heq).symm
            rw [htrace, hreports, hd.reports_eq, List.flatten_append, List.flatten_singleton,
              accepted_append, List.filterMap_append]

/-- A driver of one interface has two endpoints. -/
theorem totalEndpoints_of_epMUL (hone : epMUL proto = 1) : totalEndpoints proto = 2 := by
  revert hone
  unfold epMUL totalEndpoints
  cases hasKeyboard proto <;> cases hasMouse proto <;> decide

/-- The driver of an attached device finds its interrupt endpoint, unless that has number 0. -/
theorem Attached.listening {p : AddressPool n} {u : Usb n} {h : HidBoot} (hone : epMUL proto = 1)
    (hatt : Attached proto slot p u h) (htable : EpTable proto slot u h.bNumEP)
    (hep : (u.epInfoAt (.driver slot, 1)).epAddr ≠ 0)
    (hparser : h.pRptParser[0]?.getD false = true) :
    Listening slot 0 ⟨h.bAddress, (u.epInfoAt (.driver slot, 1)).epAddr, .tokIn⟩
      (u.epInfoAt (.driver slot, 1)).maxPktSize u h := by
  obtain ⟨i, b, ls, hguest, hpool⟩ := hatt.pool
  have htotal := totalEndpoints_of_epMUL hone
  have hlen : (u.epRecords (.driver slot)).length = 2 := by
    rw [htable.length, htotal]
    rfl
  obtain ⟨e₀, e₁, hrecords⟩ := List.length_eq_two.mp hlen
  have hat : ∀ k e, (u.epRecords (.driver slot))[k]? = some e → u.epInfoAt (.driver slot, k) = e :=
    fun k e hk ↦ by rw [Usb.epInfoAt, hk, Option.getD_some]
  have hat₀ := hat 0 e₀ (by rw [hrecords]; rfl)
  have hat₁ := hat 1 e₁ (by rw [hrecords]; rfl)
  have hcontrol := htable.control
  rw [hat₀] at hcontrol
  rw [hat₁] at hep
  have hdevice : u.addrPool.getUsbDevicePtr h.bAddress = some i := by
    rw [hpool]
    exact hguest.getUsbDevicePtr rfl
  have hentry : u.addrPool.thePool i =
      ⟨.driver slot, UsbDeviceAddress.ofByte h.bAddress, 2, ls⟩ := by
    rw [hpool, AddressPool.guest_thePool_self, htotal]
  have hfound : u.getEpInfoEntry h.bAddress e₁.epAddr = some (.driver slot, 1) := by
    have hfind : [e₀, e₁].findIdx? (·.epAddr == e₁.epAddr) = some 1 := by
      simp [List.findIdx?_cons, hcontrol, hep.symm]
    simp only [Usb.getEpInfoEntry, hdevice, hentry, hrecords]
    exact congrArg (Option.map _) hfind
  have hepinfo : (u.addrPool.thePool i).epinfo ≠ .null := by simp [hentry]
  refine ⟨rfl, rfl, ?_, hparser⟩
  rw [hat₁, Usb.setAddress, hdevice]
  simp only [if_neg hepinfo, hfound]
  exact ⟨_, rfl⟩

/-- Over any row of polls of an attached device whose interrupt endpoint has a number of its own,
whatever it and the bus do and whenever the clock lets a poll through, the parser is called for the
packets taken, in order, each once and cut to the packet size, but for those of two bytes or less,
up to the first packet of more than sixteen bytes, which overruns the stack. -/
theorem Attached.polls_deliver {p : AddressPool n} {times : List (UInt32 × UInt32)}
    (hone : epMUL proto = 1) (hatt : Attached proto slot p c.usb c.hid)
    (htable : EpTable proto slot c.usb c.hid.bNumEP)
    (hep : (c.usb.epInfoAt (.driver slot, 1)).epAddr ≠ 0)
    (hparser : c.hid.pRptParser[0]?.getD false = true)
    (hrun : polls proto slot times c = some (c', reports)) :
    ∃ used, Delivers 0 ⟨c.hid.bAddress, (c.usb.epInfoAt (.driver slot, 1)).epAddr, .tokIn⟩
      (c.usb.epInfoAt (.driver slot, 1)).maxPktSize c c' used reports :=
  (hatt.listening hone htable hep hparser).delivers hone hrun

/-- A mouse with address 1 and endpoint 1, which has three bytes to report. -/
def reportingMouse : Call 15 where
  rcode := 0
  reads := []
  usb := ⟨(AddressPool.init 15).guest false ⟨1, by decide⟩
      ⟨.driver ⟨0, by decide⟩, UsbDeviceAddress.ofByte 1, 2, false⟩,
    fun _ ↦ [controlEp, ⟨1, 4, false, false, usbNakNoWait⟩]⟩
  script := [dataAnswer [1, 2, 3]]
  hid := { (start 0x02 false).setReportParser 0 with
    bAddress := 1, bNumEP := 2, bPollEnable := true }

/-- It is attached to a new pool. -/
theorem attached_reportingMouse :
    Attached 0x02 ⟨0, by decide⟩ (AddressPool.init 15) reportingMouse.usb reportingMouse.hid :=
  ⟨rfl, rfl, ⟨1, by decide⟩, false, false, guest_init, rfl⟩

@[inherit_doc attached_reportingMouse]
theorem epTable_reportingMouse :
    EpTable 0x02 ⟨0, by decide⟩ reportingMouse.usb reportingMouse.hid.bNumEP := by
  refine ⟨rfl, by decide, by decide, rfl, fun k hk hlt ↦ ?_⟩
  obtain rfl : k = 1 := Nat.le_antisymm (Nat.le_of_lt_succ hlt) hk
  rfl

/-- It is polled once. -/
theorem Attached.polls_deliver_mouse :
    ∃ c' reports used, polls 0x02 ⟨0, by decide⟩ [(5, 7)] reportingMouse = some (c', reports) ∧
      Delivers 0 ⟨1, 1, .tokIn⟩ 4 reportingMouse c' used reports := by
  obtain ⟨⟨c', reports⟩, hrun⟩ := Option.isSome_iff_exists.mp
    (show (polls 0x02 ⟨0, by decide⟩ [(5, 7)] reportingMouse).isSome = true by decide +kernel)
  obtain ⟨used, hdelivers⟩ := Attached.polls_deliver rfl attached_reportingMouse
    epTable_reportingMouse (by decide) (by decide) hrun
  exact ⟨c', reports, used, hrun, hdelivers⟩

end HidBoot

end MouseAide.Host
