import MouseAide.Host.DescriptorWalk

/-!
# The endpoints of a well-formed configuration

Library `MouseHost`. Descriptors as their senders write them: as long as they say, long enough
for the fields read and short enough for the buffer. Of these the parser of `confdescparser.h`
reports each endpoint behind a matching interface, once, with its own fields.
-/

namespace MouseAide.Host

open MouseAide.Base

namespace ConfigDescParser

/-- Byte `i` of a descriptor. -/
def byteAt (d : List UInt8) (i : Nat) : UInt8 := d[i]?.getD 0

/-- The shortest descriptor of a type with all the fields the parser reads. -/
def minLength (dscrType : UInt8) : Nat :=
  if dscrType = descriptorConfiguration ∨ dscrType = descriptorInterface then 9
  else if dscrType = descriptorEndpoint then 7
  else 2

/-- A descriptor as long as it says, which holds its fields and fits the buffer if it is read. -/
def WellFormed (d : List UInt8) : Prop :=
  d.length = (byteAt d 0).toNat ∧ minLength (byteAt d 1) ≤ d.length ∧
    (isRead (byteAt d 1) = true → d.length ≤ 16)

instance (d : List UInt8) : Decidable (WellFormed d) := by
  unfold WellFormed
  infer_instance

/-- The interface the endpoints that follow belong to: number, alternate setting, protocol. -/
abbrev Selected := Option (UInt8 × UInt8 × UInt8)

/-- The report of an endpoint descriptor behind an interface. -/
def endpointCall (conf : UInt8) (selected : Selected) (d : List UInt8) : List EndpointCall :=
  match selected with
  | none => []
  | some (iface, alt, proto) => [{
      conf, iface, alt, proto
      bEndpointAddress := byteAt d 2, bmAttributes := byteAt d 3
      wMaxPacketSize := UInt16.ofNat ((byteAt d 4).toNat + 256 * (byteAt d 5).toNat)
      bInterval := byteAt d 6 }]

/-- The endpoints to report, given the configuration and the interface in force. -/
def endpoints (m : InterfaceMask) : UInt8 → Selected → List (List UInt8) → List EndpointCall
  | _, _, [] => []
  | conf, selected, d :: ds =>
    if byteAt d 1 = descriptorConfiguration then endpoints m (byteAt d 5) selected ds
    else if byteAt d 1 = descriptorInterface then
      endpoints m conf (if interfaceMatches m (byteAt d 5) (byteAt d 6) (byteAt d 7) then
        some (byteAt d 2, byteAt d 3, byteAt d 7) else none) ds
    else if byteAt d 1 = descriptorEndpoint then
      endpointCall conf selected d ++ endpoints m conf selected ds
    else endpoints m conf selected ds

/-- The interface a context has in force. -/
def Context.selected (c : Context) : Selected :=
  if c.isGoodInterface then some (c.ifaceNumber, c.ifaceAltSet, c.protoValue) else none

/-- A stored byte is found where it was stored. -/
theorem getElem_storeAt (v : Vector UInt8 16) (offset : Nat) (xs : List UInt8) {i : Nat}
    (hi : i < 16) : (storeAt v offset xs)[i] =
      if offset ≤ i ∧ i < offset + xs.length then byteAt xs (i - offset) else v[i] := by
  induction xs generalizing v offset with
  | nil => simp [storeAt, byteAt]
  | cons b xs ih =>
    rw [storeAt, ih, Vector.getElem_setIfInBounds hi, List.length_cons]
    by_cases heq : offset = i
    · subst heq
      simp [byteAt]
    · by_cases hin : offset + 1 ≤ i ∧ i < offset + 1 + xs.length
      · obtain ⟨k, hk⟩ : ∃ k, i - offset = k + 1 := ⟨i - offset - 1, by omega⟩
        rw [if_pos hin, if_pos (by omega), hk, show i - (offset + 1) = k by omega]
        rfl
      · rw [if_neg hin, if_neg heq, if_neg (by omega)]

/-- A descriptor that is read is found in the buffer, byte for byte. -/
theorem getElem_load {c : Context} {d : List UInt8} (hread : isRead (byteAt d 1) = true) {i : Nat}
    (hi : i < 16) (hd : i < d.length) : fieldAt (c.load d).varBuffer i = byteAt d i := by
  have hstored : stored d = d := by
    match d, hread with
    | [], _ => rfl
    | [_], _ => rfl
    | dscrLen :: dscrType :: body, hread =>
      have htype : isRead dscrType = true := hread
      simp [stored, htype]
  simp only [fieldAt, Context.load, hstored]
  rw [Vector.getElem?_eq_getElem hi, getElem_storeAt _ _ _ hi, if_pos (by omega), Nat.sub_zero,
    Option.getD_some]

/-- A well-formed descriptor fits the buffer. -/
theorem WellFormed.length_stored_le {d : List UInt8} (h : WellFormed d) :
    (stored d).length ≤ 16 := by
  match d, h.2.2 with
  | [], _ => simp [stored]
  | [_], _ => simp [stored]
  | dscrLen :: dscrType :: body, hmax =>
    rw [length_stored]
    split
    · next hread =>
      rw [Nat.add_comm]
      exact hmax hread
    · decide

/-- A well-formed descriptor is a record. -/
theorem WellFormed.isRecord {d : List UInt8} (h : WellFormed d) (m : InterfaceMask) :
    (reader m).IsRecord d := by
  have hfit := h.length_stored_le
  obtain ⟨hlen, hmin, -⟩ := h
  have htwo : 2 ≤ minLength (byteAt d 1) := by
    unfold minLength
    split
    · omega
    · split <;> omega
  match d, hlen, hmin, htwo, hfit with
  | dscrLen :: dscrType :: body, hlen, hmin, htwo, hfit =>
    have hbody : body.length = bodyLength dscrLen dscrType := by
      have hlen' : body.length + 1 + 1 = dscrLen.toNat := hlen
      have hlt := UInt8.toNat_lt dscrLen
      unfold bodyLength
      split
      · rw [UInt8.toNat_sub_of_le _ _ (by rw [UInt8.le_iff_toNat_le]; simp; omega)]
        simp
        omega
      · omega
    refine ⟨List.cons_ne_nil _ _, done_iff.mpr ⟨hbody, hfit⟩, fun pre hpre hne hlt ↦ ?_⟩
    have hshort : pre.length < body.length + 2 :=
      lt_of_le_of_ne hpre.length_le fun heq ↦ hlt (hpre.eq_of_length heq)
    match pre, hpre, hshort with
    | [], _, _ => rfl
    | [_], _, _ => rfl
    | a :: b :: rest, hpre, hshort =>
      rw [List.cons_prefix_cons, List.cons_prefix_cons] at hpre
      obtain ⟨rfl, rfl, -⟩ := hpre
      simp only [List.length_cons] at hshort
      rw [← Bool.not_eq_true, done_iff, ← hbody]
      omega

/-- A well-formed descriptor does not overrun the buffer. -/
theorem load_overrun {c : Context} {d : List UInt8} (h : WellFormed d) :
    (c.load d).overrun = c.overrun := by
  rw [Context.load, decide_eq_false (not_lt.mpr h.length_stored_le), Bool.or_false]

/-- The interface in force while a descriptor is loaded: an interface descriptor ends it. -/
theorem selected_load (c : Context) (d : List UInt8) :
    (c.load d).selected = if opensInterface d then none else c.selected := by
  unfold Context.selected Context.load
  cases opensInterface d <;> cases c.isGoodInterface <;> rfl

/-- What one well-formed descriptor reports, and what it leaves in force. -/
theorem descriptor_endpoints (m : InterfaceMask) (c : Context) {d : List UInt8}
    (h : WellFormed d) (ds : List (List UInt8)) :
    endpoints m c.confValue c.selected (d :: ds) = (c.descriptor m d).2 ++
        endpoints m (c.descriptor m d).1.confValue (c.descriptor m d).1.selected ds ∧
      (c.descriptor m d).1.overrun = c.overrun := by
  have hover := load_overrun (c := c) h
  obtain ⟨hlen, hmin, -⟩ := h
  match hd : d, hlen, hmin with
  | dscrLen :: dscrType :: body, hlen, hmin =>
    have htype : byteAt (dscrLen :: dscrType :: body) 1 = dscrType := rfl
    have hget : isRead dscrType = true → ∀ i, i < 16 → i < minLength dscrType →
        fieldAt (c.load (dscrLen :: dscrType :: body)).varBuffer i =
          byteAt (dscrLen :: dscrType :: body) i := fun hread i hi hlt ↦
      getElem_load (d := dscrLen :: dscrType :: body) hread hi (hlt.trans_le hmin)
    rw [endpoints, Context.descriptor, htype]
    have hopen := selected_load c (dscrLen :: dscrType :: body)
    have hconf : (c.load (dscrLen :: dscrType :: body)).confValue = c.confValue := rfl
    refine ⟨?_, by rw [Context.use_overrun, hover]⟩
    by_cases h1 : dscrType = descriptorConfiguration
    · subst h1
      have h5 := hget (by decide) 5 (by decide) (by decide)
      rw [if_pos rfl, Context.use, if_pos rfl, List.nil_append, h5]
      exact congrArg (endpoints m _ · ds) hopen.symm
    · by_cases h2 : dscrType = descriptorInterface
      · subst h2
        have hg := hget (by decide)
        rw [if_neg h1, if_pos rfl, Context.use, if_neg h1, if_pos rfl]
        simp only [hg 5 (by decide) (by decide), hg 6 (by decide) (by decide),
          hg 7 (by decide) (by decide), hg 2 (by decide) (by decide), hg 3 (by decide) (by decide)]
        split
        · rfl
        · exact congrArg (endpoints m _ · ds) hopen.symm
      · have hkeep : (c.load (dscrLen :: dscrType :: body)).selected = c.selected := by
          have hno : opensInterface (dscrLen :: dscrType :: body) = false :=
            beq_eq_false_iff_ne.mpr h2
          rw [hopen, hno, if_neg (by decide)]
        rw [if_neg h1, if_neg h2, Context.use, if_neg h1, if_neg h2]
        by_cases h3 : dscrType = descriptorEndpoint
        · subst h3
          have hg := hget (by decide)
          rw [if_pos rfl, if_pos rfl, ← hkeep]
          by_cases hgood : (c.load (dscrLen :: descriptorEndpoint :: body)).isGoodInterface = true
          · rw [if_pos hgood, show (c.load (dscrLen :: descriptorEndpoint :: body)).selected =
              some (_, _, _) from if_pos hgood]
            simp only [endpointCall, hg 2 (by decide) (by decide), hg 3 (by decide) (by decide),
              hg 4 (by decide) (by decide), hg 5 (by decide) (by decide),
              hg 6 (by decide) (by decide), hconf]
          · rw [if_neg hgood, show (c.load (dscrLen :: descriptorEndpoint ::
              body)).selected = none from if_neg hgood]
            simp only [endpointCall, hconf]
        · rw [if_neg h3, if_neg h3, List.nil_append, hkeep, hconf]

/-- What a list of well-formed descriptors reports. -/
theorem fold_endpoints (m : InterfaceMask) (c : Context) {ds : List (List UInt8)}
    (h : ∀ d ∈ ds, WellFormed d) :
    ((reader m).fold c ds).2 = endpoints m c.confValue c.selected ds ∧
      ((reader m).fold c ds).1.overrun = c.overrun := by
  induction ds generalizing c with
  | nil => exact ⟨rfl, rfl⟩
  | cons d ds ih =>
    obtain ⟨hcalls, hover⟩ := descriptor_endpoints m c (h d List.mem_cons_self) ds
    obtain ⟨hcalls', hover'⟩ := ih (c.descriptor m d).1 fun e he ↦ h e (List.mem_cons_of_mem d he)
    refine ⟨?_, hover'.trans hover⟩
    rw [hcalls, ← hcalls']
    rfl

/-- Every endpoint stands behind an interface. -/
def Headed : List (List UInt8) → Prop
  | [] => True
  | d :: ds => byteAt d 1 = descriptorInterface ∨ byteAt d 1 ≠ descriptorEndpoint ∧ Headed ds

instance : DecidablePred Headed := fun ds ↦ by
  induction ds with
  | nil => exact isTrue trivial
  | cons d ds ih => exact inferInstanceAs (Decidable (_ ∨ _ ∧ _))

/-- Where every endpoint stands behind an interface, what was in force before does not matter. -/
theorem endpoints_headed (m : InterfaceMask) (conf : UInt8) (selected selected' : Selected)
    {ds : List (List UInt8)} (h : Headed ds) :
    endpoints m conf selected ds = endpoints m conf selected' ds := by
  induction ds generalizing conf with
  | nil => rfl
  | cons d ds ih =>
    rw [endpoints, endpoints]
    rcases h with hface | ⟨hend, hrest⟩
    · have h1 : byteAt d 1 ≠ descriptorConfiguration := by
        rw [hface]
        decide
      rw [if_neg h1, if_neg h1, if_pos hface, if_pos hface]
    · rw [if_neg hend, if_neg hend, ih _ hrest, ih _ hrest]

/-- Behind a configuration descriptor, what was in force before does not matter. -/
theorem endpoints_configuration (m : InterfaceMask) (conf : UInt8) (selected : Selected)
    {d : List UInt8} {ds : List (List UInt8)} (hd : byteAt d 1 = descriptorConfiguration)
    (hds : Headed ds) :
    endpoints m conf selected (d :: ds) = endpoints m (byteAt d 5) none ds := by
  rw [endpoints, if_pos hd, endpoints_headed m _ _ none hds]

/-- Well-formed descriptors are reported from whatever was on the stack, in whatever pieces they
come, and stay within the buffer. -/
theorem parsePieces_wellFormed (m : InterfaceMask) (v : Vector UInt8 16) (size : Nat) (good : Bool)
    (conf proto iface alt : UInt8) {ds pieces : List (List UInt8)}
    (hwf : ∀ e ∈ ds, WellFormed e) (hpieces : pieces.flatten = ds.flatten) :
    ∃ s', parsePieces m (init v size good conf proto iface alt) pieces =
      some (s', endpoints m conf (Context.mk v good conf proto iface alt false).selected ds) ∧
        s'.overrun = false := by
  obtain ⟨s', c', d', calls, hrun, hwalk, hreads⟩ :=
    parsePieces_walk m (reads_init v size good conf proto iface alt) pieces
  obtain ⟨hcalls, hover⟩ := fold_endpoints m ⟨v, good, conf, proto, iface, alt, false⟩ hwf
  rw [hpieces, (reader m).walk_flatten fun e he ↦ (hwf e he).isRecord m] at hwalk
  obtain ⟨hstate, rfl⟩ := Prod.mk.inj hwalk
  obtain ⟨rfl, rfl⟩ := Prod.mk.inj hstate
  refine ⟨s', by rw [hrun, hcalls], ?_⟩
  have hctx := congrArg Context.overrun hreads.context
  rw [Context.load_nil] at hctx
  exact hctx.trans hover

/-- A configuration descriptor with its interfaces and endpoints, in whatever pieces it comes and
whatever was on the stack, is reported endpoint by endpoint, and stays within the buffer. -/
theorem parsePieces_endpoints (m : InterfaceMask) (v : Vector UInt8 16) (size : Nat) (good : Bool)
    (conf proto iface alt : UInt8) (d : List UInt8) (ds pieces : List (List UInt8))
    (hwf : ∀ e ∈ d :: ds, WellFormed e) (hd : byteAt d 1 = descriptorConfiguration)
    (hds : Headed ds) (hpieces : pieces.flatten = (d :: ds).flatten) :
    ∃ s', parsePieces m (init v size good conf proto iface alt) pieces =
      some (s', endpoints m (byteAt d 5) none ds) ∧ s'.overrun = false := by
  obtain ⟨s', hrun, hover⟩ := parsePieces_wellFormed m v size good conf proto iface alt hwf hpieces
  rw [endpoints_configuration m _ _ hd hds] at hrun
  exact ⟨s', hrun, hover⟩

/-- A boot mouse with one interrupt endpoint, read in two pieces. -/
theorem parsePieces_endpoints_mouse : ∃ s', parsePieces ⟨3, 1, 2, 7, false⟩
    (init (Vector.replicate 16 0) 0 true 0 0 0 0)
    [[9, 2, 34, 0, 1, 1, 0, 0xA0, 50, 9, 4, 0, 0, 1, 3, 1], [2, 0, 9, 0x21, 0x11, 1, 0, 1, 0x22,
      52, 0, 7, 5, 0x81, 3, 4, 0, 10]] =
      some (s', [{ conf := 1, iface := 0, alt := 0, proto := 2, bEndpointAddress := 0x81
                   bmAttributes := 3, wMaxPacketSize := 4, bInterval := 10 }]) ∧
    s'.overrun = false :=
  parsePieces_endpoints ⟨3, 1, 2, 7, false⟩ (Vector.replicate 16 0) 0 true 0 0 0 0
    [9, 2, 34, 0, 1, 1, 0, 0xA0, 50] [[9, 4, 0, 0, 1, 3, 1, 2, 0],
      [9, 0x21, 0x11, 1, 0, 1, 0x22, 52, 0], [7, 5, 0x81, 3, 4, 0, 10]] _
    (by decide) (by decide) (by decide) (by decide)

end ConfigDescParser

end MouseAide.Host
