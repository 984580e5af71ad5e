import MouseAide.Host.ControlRead

/-!
# What a request leaves alone

Library `MouseHost`. Whatever the bus answers, a transfer changes the toggles of the endpoint it
goes to and nothing else in the shield, and it takes its answers from the front of the script.
-/

namespace MouseAide.Host

variable {n : Nat} {l : Launch} {nakLimit nbytes : UInt16} {perAddr ep addr : UInt8} {fuel : Nat}
  {pkt : SetupPkt} {pep : EpInfo} {script : Script}

/-- A dispatch takes its answers from the front of the script. -/
theorem dispatchPkt_suffix {a : Attempt} {rest : Script}
    (h : dispatchPkt l nakLimit script = some (a, rest)) : rest <:+ script := by
  obtain ⟨rs, x, rfl, -, -⟩ := dispatchPkt_cases h
  exact ⟨rs ++ [x], by simp⟩

private theorem inLoop_alike {read : UInt16} {data : List UInt8} {r : InResult}
    (h : inLoop l nakLimit nbytes fuel pep read data script = some r) :
    pep.Alike r.pep ∧ r.script <:+ script := by
  induction fuel generalizing pep read data script with
  | zero => simp [inLoop] at h
  | succ fuel ih =>
    rw [inLoop] at h
    split at h
    · cases h
    · next a rest hd =>
      have hsuffix := dispatchPkt_suffix hd
      dsimp only at h
      split at h
      · obtain ⟨halike, hrest⟩ := ih h
        exact ⟨⟨halike.epAddr, halike.maxPktSize, halike.bmNakPower⟩, hrest.trans hsuffix⟩
      · split at h
        · cases h
          exact ⟨.refl pep, hsuffix⟩
        · split at h
          · cases h
            exact ⟨.refl pep, hsuffix⟩
          · split at h
            · cases h
              exact ⟨⟨rfl, rfl, rfl⟩, hsuffix⟩
            · obtain ⟨halike, hrest⟩ := ih h
              exact ⟨halike, hrest.trans hsuffix⟩

/-- An IN transfer changes the toggles of its endpoint only. -/
theorem inTransfer_alike {r : InResult}
    (h : inTransfer perAddr pep nakLimit nbytes script = some r) :
    pep.Alike r.pep ∧ r.script <:+ script := inLoop_alike h

private theorem outPacket_alike {retryCount : UInt8} {nakCount : UInt16} {o : OutPacket}
    (h : outPacket l nakLimit retryCount nakCount pep script = some o) :
    pep.Alike o.pep ∧ o.script <:+ script := by
  induction script generalizing retryCount nakCount pep with
  | nil => simp [outPacket] at h
  | cons x script ih =>
    have hsuffix : script <:+ x :: script := List.suffix_cons x script
    simp only [outPacket] at h
    split_ifs at h
    all_goals first
      | (cases h; exact ⟨.refl pep, hsuffix⟩)
      | (obtain ⟨halike, hrest⟩ := ih h
         exact ⟨⟨halike.epAddr, halike.maxPktSize, halike.bmNakPower⟩, hrest.trans hsuffix⟩)

private theorem outLoop_alike {data : List UInt8} {rcode : UInt8} {sndTog : Bool} {r : OutResult}
    (h : outLoop perAddr nakLimit fuel pep data rcode sndTog script = some r) :
    pep.Alike r.pep ∧ r.script <:+ script := by
  induction fuel generalizing pep data rcode sndTog script r with
  | zero => simp [outLoop] at h
  | succ fuel ih =>
    rw [outLoop] at h
    split at h
    · cases h
      exact ⟨⟨rfl, rfl, rfl⟩, List.suffix_refl _⟩
    · dsimp only at h
      split at h
      · cases h
      · next o ho =>
        obtain ⟨halike, hsuffix⟩ := outPacket_alike ho
        split at h
        · obtain ⟨r', hr', rfl⟩ := Option.map_eq_some_iff.mp h
          obtain ⟨halike', hrest⟩ := ih hr'
          exact ⟨halike.trans halike', hrest.trans hsuffix⟩
        · cases h
          exact ⟨⟨halike.epAddr, halike.maxPktSize, halike.bmNakPower⟩, hsuffix⟩

/-- An OUT transfer changes the toggles of its endpoint only. -/
theorem outTransfer_alike {data : List UInt8} {sndTog : Bool} {r : OutResult}
    (h : outTransfer perAddr pep nakLimit data sndTog script = some r) :
    pep.Alike r.pep ∧ r.script <:+ script := by
  rw [outTransfer] at h
  split at h
  · cases h
    exact ⟨.refl pep, List.suffix_refl _⟩
  · exact outLoop_alike h

private theorem dataLoop_alike {total left : UInt16} {c : CtrlResult}
    (h : dataLoop perAddr nakLimit total nbytes fuel pep left script = some c) :
    pep.Alike c.pep ∧ c.script <:+ script := by
  induction fuel generalizing pep left script c with
  | zero => simp [dataLoop] at h
  | succ fuel ih =>
    rw [dataLoop] at h
    split at h
    · cases h
      exact ⟨.refl pep, List.suffix_refl _⟩
    · split at h
      · cases h
      · next r hr =>
        obtain ⟨halike, hsuffix⟩ := inTransfer_alike hr
        split at h
        · obtain ⟨halike', hrest⟩ := ih h
          have hpep : pep.Alike { r.pep with bmRcvToggle := !(r.hrsl &&& 0x20 != 0) } :=
            ⟨halike.epAddr, halike.maxPktSize, halike.bmNakPower⟩
          exact ⟨hpep.trans halike', hrest.trans hsuffix⟩
        · split at h
          · cases h
            exact ⟨halike, hsuffix⟩
          · split at h
            · cases h
              exact ⟨halike, hsuffix⟩
            · obtain ⟨c', hc', rfl⟩ := Option.map_eq_some_iff.mp h
              obtain ⟨halike', hrest⟩ := ih hc'
              exact ⟨halike.trans halike', hrest.trans hsuffix⟩

private theorem statusStage_alike {direction : Bool} {c c' : CtrlResult}
    (h : statusStage perAddr ep nakLimit direction c = some c') :
    c'.pep = c.pep ∧ c'.script <:+ c.script := by
  obtain ⟨⟨a, rest⟩, hd, rfl⟩ := Option.map_eq_some_iff.mp h
  exact ⟨rfl, dispatchPkt_suffix hd⟩

/-- A control transfer changes the toggles of its endpoint only. -/
theorem ctrlReqAt_alike {dataptr : Option (List UInt8)} {c : CtrlResult}
    (h : ctrlReqAt perAddr ep pep nakLimit pkt nbytes dataptr script = some c) :
    pep.Alike c.pep ∧ c.script <:+ script := by
  rw [ctrlReqAt] at h
  split at h
  · cases h
  · next a rest hd =>
    have hsuffix := dispatchPkt_suffix hd
    split at h
    · cases h
      exact ⟨.refl pep, hsuffix⟩
    · split at h
      · obtain ⟨hpep, hrest⟩ := statusStage_alike h
        exact ⟨hpep ▸ .refl pep, hrest.trans hsuffix⟩
      · split at h
        · split at h
          · cases h
          · next c' hc' =>
            obtain ⟨halike, hdata⟩ := dataLoop_alike hc'
            have hpep : pep.Alike c'.pep := ⟨halike.epAddr, halike.maxPktSize, halike.bmNakPower⟩
            split at h
            · cases h
              exact ⟨hpep, hdata.trans hsuffix⟩
            · obtain ⟨hpep', hrest⟩ := statusStage_alike h
              exact ⟨hpep' ▸ hpep, (hrest.trans hdata).trans hsuffix⟩
        · split at h
          · cases h
          · next o ho =>
            obtain ⟨halike, hdata⟩ := outTransfer_alike ho
            have hpep : pep.Alike o.pep := ⟨halike.epAddr, halike.maxPktSize, halike.bmNakPower⟩
            split at h
            · cases h
              exact ⟨hpep, hdata.trans hsuffix⟩
            · obtain ⟨hpep', hrest⟩ := statusStage_alike h
              exact ⟨hpep' ▸ hpep, (hrest.trans hdata).trans hsuffix⟩

namespace Usb

/-- The shield after transfers: only toggles differ. -/
structure Toggled (u u' : Usb n) : Prop where
  addrPool : u'.addrPool = u.addrPool
  length_epRecords : ∀ e, (u'.epRecords e).length = (u.epRecords e).length
  epInfoAt : ∀ ppep, (u.epInfoAt ppep).Alike (u'.epInfoAt ppep)

variable {u u' u'' : Usb n} {ppep : EpPtr × Nat}

/-- No transfer. -/
theorem Toggled.refl (u : Usb n) : u.Toggled u := ⟨rfl, fun _ ↦ rfl, fun _ ↦ .refl _⟩

/-- Two transfers. -/
theorem Toggled.trans (h : u.Toggled u') (h' : u'.Toggled u'') : u.Toggled u'' where
  addrPool := h'.addrPool.trans h.addrPool
  length_epRecords e := (h'.length_epRecords e).trans (h.length_epRecords e)
  epInfoAt ppep := (h.epInfoAt ppep).trans (h'.epInfoAt ppep)

/-- What a store through a pointer to an endpoint leaves behind the pointers. -/
theorem epInfoAt_setEpInfo (u : Usb n) (ppep q : EpPtr × Nat) (pep : EpInfo) :
    (u.setEpInfo ppep pep).epInfoAt q =
      if q = ppep ∧ ppep.2 < (u.epRecords ppep.1).length then pep else u.epInfoAt q := by
  obtain ⟨e, i⟩ := ppep
  obtain ⟨f, j⟩ := q
  by_cases he : f = e
  · subst he
    by_cases hj : j = i
    · subst hj
      by_cases hlt : j < (u.epRecords f).length
      · rw [if_pos ⟨rfl, hlt⟩, epInfoAt, setEpInfo_epRecords, List.getElem?_set_self hlt]
        rfl
      · rw [if_neg fun h ↦ hlt h.2, epInfoAt, setEpInfo_epRecords,
          List.set_eq_of_length_le (Nat.not_lt.mp hlt), epInfoAt]
    · rw [if_neg fun h ↦ hj (Prod.mk.inj h.1).2, epInfoAt, setEpInfo_epRecords,
        List.getElem?_set_ne (Ne.symm hj), epInfoAt]
  · have hne : (u.setEpInfo (e, i) pep).epRecords f = u.epRecords f :=
      Function.update_of_ne he _ _
    rw [if_neg fun h ↦ he (Prod.mk.inj h.1).1, epInfoAt, hne, epInfoAt]

/-- A store through a pointer to an endpoint does not change the size of a record. -/
theorem length_setEpInfo (u : Usb n) (ppep : EpPtr × Nat) (pep : EpInfo) (e : EpPtr) :
    ((u.setEpInfo ppep pep).epRecords e).length = (u.epRecords e).length := by
  by_cases he : e = ppep.1
  · rw [he, setEpInfo_epRecords, List.length_set]
  · exact congrArg List.length (Function.update_of_ne he _ _)

/-- A transfer through the pointer to an endpoint. -/
theorem toggled_setEpInfo (h : (u.epInfoAt ppep).Alike pep) : u.Toggled (u.setEpInfo ppep pep) where
  addrPool := rfl
  length_epRecords := length_setEpInfo u ppep pep
  epInfoAt q := by
    rw [epInfoAt_setEpInfo]
    split
    · next heq => exact heq.1 ▸ h
    · exact .refl _

/-- A request leaves the shield as it was but for toggles. -/
theorem ctrlReq_toggled {dataptr : Option (List UInt8)} {r : Reply n}
    (h : u.ctrlReq addr ep pkt nbytes dataptr script = some r) :
    u.Toggled r.usb ∧ r.script <:+ script := by
  rw [ctrlReq] at h
  split at h
  · cases h
    exact ⟨.refl u, List.suffix_refl _⟩
  · next hset =>
    obtain ⟨c, hc, rfl⟩ := Option.map_eq_some_iff.mp h
    obtain ⟨halike, hsuffix⟩ := ctrlReqAt_alike hc
    exact ⟨toggled_setEpInfo halike, hsuffix⟩

/-- So does an IN transfer. -/
theorem inTransfer_toggled {r : Reply n} (h : u.inTransfer addr ep nbytes script = some r) :
    u.Toggled r.usb ∧ r.script <:+ script := by
  rw [inTransfer] at h
  split at h
  · cases h
    exact ⟨.refl u, List.suffix_refl _⟩
  · obtain ⟨c, hc, rfl⟩ := Option.map_eq_some_iff.mp h
    obtain ⟨halike, hsuffix⟩ := Host.inTransfer_alike hc
    exact ⟨toggled_setEpInfo halike, hsuffix⟩

/-- So do the two requests for a configuration descriptor. -/
theorem parseConfDescr_toggled {conf : UInt8} {buf : List UInt8} {r : Reply n}
    (h : u.parseConfDescr addr ep conf buf script = some r) :
    u.Toggled r.usb ∧ r.script <:+ script := by
  obtain ⟨r', hr', h⟩ := Option.bind_eq_some_iff.mp h
  obtain ⟨htoggled, hsuffix⟩ := ctrlReq_toggled hr'
  split at h
  · cases h
    exact ⟨htoggled, hsuffix⟩
  · obtain ⟨htoggled', hsuffix'⟩ := ctrlReq_toggled h
    exact ⟨htoggled.trans htoggled', hsuffix'.trans hsuffix⟩

end Usb

end MouseAide.Host
