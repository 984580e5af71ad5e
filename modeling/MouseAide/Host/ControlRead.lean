import MouseAide.Base.Packets
import MouseAide.Host.Endpoints
import MouseAide.Host.TransferRuns

/-!
# Reading from a device that keeps to the protocol

Library `MouseHost`. A device answers each launch at last, after whatever retries, and sends its
descriptor in packets of its endpoint's size. `ctrlReq` asks for a full buffer each time, also
when less is left; so it reads the descriptor exactly, unless what is left at the end is even
packets and the device has no more to say, when it asks once too often.
-/

namespace MouseAide.Host

open MouseAide.Base

variable {n D : Nat} {l : Launch} {nakLimit nbytes read : UInt16} {rs s rest f : Script}
  {data p bs : List UInt8} {ps : List (List UInt8)} {pep : EpInfo} {fuel : Nat}

/-- Two states of one endpoint: only the toggles differ. -/
structure EpInfo.Alike (pep pep' : EpInfo) : Prop where
  epAddr : pep'.epAddr = pep.epAddr
  maxPktSize : pep'.maxPktSize = pep.maxPktSize
  bmNakPower : pep'.bmNakPower = pep.bmNakPower

/-- An endpoint is in a state of itself. -/
theorem EpInfo.Alike.refl (pep : EpInfo) : pep.Alike pep := ⟨rfl, rfl, rfl⟩

/-- One state after another. -/
theorem EpInfo.Alike.trans {pep pep' pep'' : EpInfo} (h : pep.Alike pep')
    (h' : pep'.Alike pep'') : pep.Alike pep'' :=
  ⟨h'.epAddr.trans h.epAddr, h'.maxPktSize.trans h.maxPktSize, h'.bmNakPower.trans h.bmNakPower⟩

/-- Answers that bring the packet `p`, after retries and toggle errors. -/
inductive Brings (l : Launch) (nakLimit : UInt16) (p : List UInt8) : Script → Prop
  | packet {rs : Script} {x : Launch → Attempt} :
      SatOut l nakLimit rs → (x l).rcode = hrSuccess → (x l).rcvDav = true →
      (x l).rcvFifo.val = p → Brings l nakLimit p (rs ++ [x])
  | toggle {rs s : Script} {x : Launch → Attempt} :
      SatOut l nakLimit rs → (x l).rcode = hrTogErr → Brings l nakLimit p s →
      Brings l nakLimit p (rs ++ x :: s)

/-- Answers that bring a row of packets. -/
inductive BringsAll (l : Launch) (nakLimit : UInt16) : List (List UInt8) → Script → Prop
  | nil : BringsAll l nakLimit [] []
  | cons {p : List UInt8} {ps : List (List UInt8)} {s s' : Script} :
      Brings l nakLimit p s → BringsAll l nakLimit ps s' → BringsAll l nakLimit (p :: ps) (s ++ s')

/-- The answers at the end of a control read: an acknowledged status stage, and no more data. -/
inductive Finishes (inn out : Launch) (nakLimit : UInt16) : Script → Prop
  | intro {rs : Script} {x : Launch → Attempt} :
      SatOut inn nakLimit rs → SatOut out nakLimit rs → (x inn).rcode = hrStall →
      (x out).rcode = hrSuccess → Finishes inn out nakLimit (rs ++ [x])

/-- A packet takes an answer. -/
theorem Brings.length_pos (h : Brings l nakLimit p s) : 0 < s.length := by
  cases h <;> simp only [List.length_append, List.length_cons] <;> omega

/-- A packet in the loop of an IN transfer with room for it. -/
theorem Brings.inLoop (h : Brings l nakLimit p s) (pep : EpInfo) (hroom : Room nbytes read data)
    (hfit : data.length + p.length ≤ nbytes.toNat) (hfuel : (s ++ rest).length ≤ fuel) :
    ∃ fuel' pep' read' hrsl, rest.length ≤ fuel' ∧ pep.Alike pep' ∧
      Room nbytes read' (data ++ p) ∧
      Host.inLoop l nakLimit nbytes fuel pep read data (s ++ rest) =
        if p.length < pep.maxPktSize.toNat ∨ nbytes.toNat ≤ (data ++ p).length then
          some ⟨hrSuccess, read', data ++ p, pep', hrsl, rest⟩
        else Host.inLoop l nakLimit nbytes fuel' pep' read' (data ++ p) rest := by
  induction h generalizing fuel pep with
  | @packet rs x hsat hok hdav hp =>
    obtain ⟨fuel, rfl⟩ : ∃ k, fuel = k + 1 := ⟨fuel - 1, by
      simp only [List.length_append, List.length_cons] at hfuel
      omega⟩
    have hd : dispatchPkt l nakLimit (rs ++ x :: rest) = some (x l, rest) :=
      dispatchPkt_satOut hsat (by rw [hok]; decide) (by rw [hok]; decide)
    have hsize : pktsize nbytes (x l) = p.length := by
      rw [pktsize, hp]
      omega
    have hlen : (data ++ p).length = data.length + p.length := List.length_append
    have hstored : data ++ stored nbytes read (x l) = data ++ p := by
      rw [hroom.append_stored, hp, List.take_of_length_le (by omega)]
    have hcount := hroom.toNat_read (a := x l)
    rw [hsize] at hcount
    refine ⟨fuel, ?_⟩
    rw [List.append_assoc, List.singleton_append, inLoop_packet hd hok hdav, hstored, hsize]
    have hroom' : Room nbytes (read + UInt16.ofNat p.length) (data ++ p) :=
      ⟨hroom.int16, by omega, by omega⟩
    have hrest : rest.length ≤ fuel := by
      simp only [List.length_append, List.length_cons] at hfuel
      omega
    simp only [UInt16.le_iff_toNat_le, hcount, ← hlen]
    by_cases hend : p.length < pep.maxPktSize.toNat ∨ nbytes.toNat ≤ (data ++ p).length
    · rw [if_pos hend]
      exact ⟨{ pep with bmRcvToggle := (x l).rcvTogRd }, _, _, hrest, ⟨rfl, rfl, rfl⟩, hroom',
        (if_pos hend).symm⟩
    · rw [if_neg hend]
      exact ⟨pep, _, 0, hrest, .refl pep, hroom', (if_neg hend).symm⟩
  | @toggle rs s x hsat htog _ ih =>
    obtain ⟨fuel, rfl⟩ : ∃ k, fuel = k + 1 := ⟨fuel - 1, by
      simp only [List.length_append, List.length_cons] at hfuel
      omega⟩
    have hd : dispatchPkt l nakLimit (rs ++ x :: (s ++ rest)) = some (x l, s ++ rest) :=
      dispatchPkt_satOut hsat (by rw [htog]; decide) (by rw [htog]; decide)
    rw [List.append_assoc, List.cons_append, inLoop_togErr hd htog]
    have hfuel' : (s ++ rest).length ≤ fuel := by
      simp only [List.length_append, List.length_cons] at hfuel ⊢
      omega
    obtain ⟨fuel', pep', read', hrsl, hrest, halike, hroom', hrun⟩ :=
      ih { pep with bmRcvToggle := !(x l).rcvTogRd } hfuel'
    exact ⟨fuel', pep', read', hrsl, hrest, ⟨halike.epAddr, halike.maxPktSize, halike.bmNakPower⟩,
      hroom', hrun⟩

/-- What the loop of an IN transfer makes of the answers of a device is what the
reader of packets makes of the packets, as long as they fit the room. -/
theorem BringsAll.inLoop {w : List UInt8} {ps' : List (List UInt8)}
    (h : BringsAll l nakLimit ps s) (hroom : Room nbytes read data)
    (hgather : gather pep.maxPktSize.toNat nbytes.toNat data ps = some (w, ps'))
    (hw : w.length ≤ nbytes.toNat) (hfuel : (s ++ rest).length ≤ fuel) :
    ∃ s' pep' read' hrsl, BringsAll l nakLimit ps' s' ∧ s'.length < s.length ∧
      pep.Alike pep' ∧ read'.toNat = w.length ∧
      Host.inLoop l nakLimit nbytes fuel pep read data (s ++ rest) =
        some ⟨hrSuccess, read', w, pep', hrsl, s' ++ rest⟩ := by
  induction h generalizing fuel pep read data with
  | nil => simp [gather] at hgather
  | @cons p ps s s' hp htail ih =>
    have hs := hp.length_pos
    rw [List.append_assoc] at hfuel ⊢
    rw [gather] at hgather
    have hlen : (data ++ p).length = data.length + p.length := List.length_append
    split at hgather
    · next hend =>
      obtain ⟨rfl, rfl⟩ := Prod.mk.inj (Option.some.inj hgather)
      obtain ⟨fuel', pep', read', hrsl, -, halike, hroom', hrun⟩ :=
        hp.inLoop pep hroom (by omega) hfuel
      rw [if_pos hend] at hrun
      exact ⟨s', pep', read', hrsl, htail, by simp only [List.length_append]; omega, halike,
        hroom'.count, hrun⟩
    · next hmore =>
      have hfit : data.length + p.length ≤ nbytes.toNat := by omega
      obtain ⟨fuel', pep', read', hrsl, hfuel', halike, hroom', hrun⟩ :=
        hp.inLoop pep hroom hfit hfuel
      rw [if_neg hmore] at hrun
      obtain ⟨s'', pep'', read'', hrsl', hps', hlt, halike', hread, hrun'⟩ :=
        ih hroom' (by rwa [halike.maxPktSize]) hfuel'
      exact ⟨s'', pep'', read'', hrsl', hps', by simp only [List.length_append]; omega,
        halike.trans halike', hread, hrun.trans hrun'⟩

/-- A row of packets takes an answer. -/
theorem BringsAll.length_pos (h : BringsAll l nakLimit (p :: ps) s) : 0 < s.length := by
  obtain - | ⟨hp, -⟩ := h
  have := hp.length_pos
  rw [List.length_append]
  omega

/-- A device that has no more to say is asked once more. -/
theorem BringsAll.inLoop_starved (h : BringsAll l nakLimit ps s) (hroom : Room nbytes read data)
    (hgather : gather pep.maxPktSize.toNat nbytes.toNat data ps = none)
    (hfit : data.length + ps.flatten.length ≤ nbytes.toNat)
    (hfuel : (s ++ rest).length ≤ fuel) :
    ∃ fuel' pep' read', rest.length ≤ fuel' ∧ pep.Alike pep' ∧
      Host.inLoop l nakLimit nbytes fuel pep read data (s ++ rest) =
        Host.inLoop l nakLimit nbytes fuel' pep' read' (data ++ ps.flatten) rest := by
  induction h generalizing fuel pep read data with
  | nil => exact ⟨fuel, pep, read, hfuel, .refl pep, by simp⟩
  | @cons p ps s s' hp htail ih =>
    rw [List.append_assoc] at hfuel ⊢
    rw [List.flatten_cons, List.length_append] at hfit
    rw [gather] at hgather
    split at hgather
    · cases hgather
    · next hmore =>
      obtain ⟨fuel', pep', read', hrsl, hfuel', halike, hroom', hrun⟩ :=
        hp.inLoop pep hroom (by omega) hfuel
      rw [if_neg hmore] at hrun
      obtain ⟨fuel'', pep'', read'', hfuel'', halike', hrun'⟩ :=
        ih hroom' (by rwa [halike.maxPktSize]) (by rw [List.length_append]; omega) hfuel'
      refine ⟨fuel'', pep'', read'', hfuel'', halike.trans halike', ?_⟩
      rw [hrun, hrun', List.flatten_cons, List.append_assoc]

/-! ### The data stage -/

variable {perAddr : UInt8} {total left : UInt16} {out : Launch} {r : InResult}

/-- A full buffer is passed on, and the rest of the data asked for. -/
theorem dataLoop_more (hleft : left ≠ 0)
    (hr : inTransfer perAddr pep nakLimit nbytes s = some r) (hok : r.rcode = hrSuccess)
    (hfull : ¬r.read < nbytes) :
    dataLoop perAddr nakLimit total nbytes (fuel + 1) pep left s =
      (dataLoop perAddr nakLimit total nbytes fuel r.pep (left - r.read) r.script).map fun c ↦
        { c with reads := ⟨r.read, r.data, total - left⟩ :: c.reads } := by
  have htog : hrSuccess ≠ hrTogErr := by decide
  simp [dataLoop, hleft, hr, hok, htog, hfull]

/-- A short read is the last one. -/
theorem dataLoop_short (hleft : left ≠ 0)
    (hr : inTransfer perAddr pep nakLimit nbytes s = some r) (hok : r.rcode = hrSuccess)
    (hshort : r.read < nbytes) :
    dataLoop perAddr nakLimit total nbytes (fuel + 1) pep left s =
      some ⟨hrSuccess, [⟨r.read, r.data, total - left⟩], r.pep, r.script⟩ := by
  have htog : hrSuccess ≠ hrTogErr := by decide
  simp [dataLoop, hleft, hr, hok, htog, hshort]

/-- An error ends the stage. -/
theorem dataLoop_error (hleft : left ≠ 0)
    (hr : inTransfer perAddr pep nakLimit nbytes s = some r) (htog : r.rcode ≠ hrTogErr)
    (herr : r.rcode ≠ hrSuccess) :
    dataLoop perAddr nakLimit total nbytes (fuel + 1) pep left s =
      some ⟨r.rcode, [], r.pep, r.script⟩ := by
  simp [dataLoop, hleft, hr, htog, herr]

/-- The host asks once too often: after full buffers of `n` it does not see the end of the rest of
the `len` bytes that a device has of `left`, in packets of `D`. -/
def Starves (M D n left len : Nat) : Prop :=
  len % n ≠ 0 ∧ if len % n % D = 0 then left ≤ len else M ≤ len % n % D

instance (M D n left len : Nat) : Decidable (Starves M D n left len) := by
  unfold Starves
  infer_instance

/-- What a data stage of `left` bytes leaves that read `bs` from a device, in no more transfers than
it takes, and has `f` to go on with. -/
structure ReadBack (nbytes left : UInt16) (bs : List UInt8) (pep : EpInfo) (f : Script)
    (c : CtrlResult) : Prop where
  rcode : c.rcode = hrSuccess
  data : c.reads.flatMap ParseCall.data = bs
  len : ∀ call ∈ c.reads, call.len.toNat = call.data.length
  few : c.reads.length * nbytes.toNat < left.toNat + nbytes.toNat
  pep : pep.Alike c.pep
  script : c.script = f

/-- A buffer filled by one packet is read, whatever size the host takes packets to be of. -/
private theorem dataLoop_packet (hp : p.length = nbytes.toNat) (hpos : 0 < nbytes.toNat)
    (hint : nbytes.toNat < 32768) (h : BringsAll ⟨perAddr, pep.epAddr, .tokIn⟩ nakLimit [p] s)
    (total : UInt16) (rest : Script) (hfuel : 1 < fuel) :
    ∃ c, dataLoop perAddr nakLimit total nbytes fuel pep nbytes (s ++ rest) = some c ∧
      ReadBack nbytes nbytes p pep rest c := by
  obtain ⟨fuel, rfl⟩ : ∃ k, fuel = k + 2 := ⟨fuel - 2, by omega⟩
  have hroom : Room nbytes 0 [] := ⟨hint, rfl, Nat.zero_le _⟩
  have hgather : gather pep.maxPktSize.toNat nbytes.toNat [] [p] = some ([] ++ p, []) :=
    gather_enough (by rw [List.length_nil]; omega)
  obtain ⟨s', pep', read, hrsl, hnil, -, halike, hread, hrun⟩ :=
    h.inLoop hroom hgather hp.le (Nat.le_refl (s ++ rest).length)
  cases hnil
  have hleft : nbytes ≠ 0 := by
    rintro rfl
    exact absurd hpos (by decide)
  obtain rfl : read = nbytes := by
    rw [← UInt16.toNat_inj, hread, List.nil_append, hp]
  rw [dataLoop_more hleft hrun rfl (UInt16.lt_irrefl _), UInt16.sub_self]
  refine ⟨_, by rw [dataLoop, if_pos rfl, Option.map_some], rfl, ?_, ?_, ?_, halike, rfl⟩
  · simp
  · simp [hp]
  · rw [List.length_singleton]
    omega

/-- What a data stage leaves in which a device with `len` bytes is asked once too often. -/
structure StarvedBy (nbytes : UInt16) (len : Nat) (rest : Script) (c : CtrlResult) : Prop where
  rcode : c.rcode = hrStall
  script : c.script = rest
  reads : len < nbytes.toNat → c.reads = []

/-- A data stage before an IN transfer: `left` bytes are still asked for, of which the device has
`bs`, in the packets `ps` of size `D`, which the answers `s` bring. -/
structure DataStage (perAddr : UInt8) (nakLimit nbytes : UInt16) (pep : EpInfo) (D : Nat)
    (left : UInt16) (bs : List UInt8) (ps : List (List UInt8)) (s : Script) : Prop where
  nbytes_pos : 0 < nbytes.toNat
  int16 : nbytes.toNat < 32768
  size_pos : 0 < pep.maxPktSize.toNat
  size_le : pep.maxPktSize.toNat ≤ D
  even : D ∣ nbytes.toNat ∨ left.toNat ≤ nbytes.toNat
  le : bs.length ≤ left.toNat
  packets : Packets D (decide (bs.length < left.toNat)) bs ps
  brings : BringsAll ⟨perAddr, pep.epAddr, .tokIn⟩ nakLimit ps s

section DataStage

variable (h : DataStage perAddr nakLimit nbytes pep D left bs ps s)
include h

/-- An IN transfer that has room for part of the packets, or for all of them with their end
marked. -/
private theorem DataStage.inTransfer_gather {w : List UInt8} {ps' : List (List UInt8)}
    (rest : Script) (hgather : gather pep.maxPktSize.toNat nbytes.toNat [] ps = some (w, ps'))
    (hw : w.length ≤ nbytes.toNat) :
    ∃ s' r, BringsAll ⟨perAddr, pep.epAddr, .tokIn⟩ nakLimit ps' s' ∧ s'.length < s.length ∧
      inTransfer perAddr pep nakLimit nbytes (s ++ rest) = some r ∧ r.rcode = hrSuccess ∧
      r.read.toNat = w.length ∧ r.data = w ∧ pep.Alike r.pep ∧ r.script = s' ++ rest := by
  have hroom : Room nbytes 0 [] := ⟨h.int16, rfl, Nat.zero_le _⟩
  obtain ⟨s', pep', read', hrsl, hps', hlt, halike, hread, hrun⟩ :=
    h.brings.inLoop hroom hgather hw (Nat.le_refl (s ++ rest).length)
  exact ⟨s', _, hps', hlt, hrun, rfl, hread, rfl, halike, rfl⟩

/-- A full buffer leaves the stage of the bytes behind it. -/
private theorem DataStage.full (rest : Script) (hfull : nbytes.toNat ≤ bs.length) :
    ∃ ps' s' r, inTransfer perAddr pep nakLimit nbytes (s ++ rest) = some r ∧
      r.rcode = hrSuccess ∧ r.read = nbytes ∧ r.data = bs.take nbytes.toNat ∧
      pep.Alike r.pep ∧ r.script = s' ++ rest ∧ s'.length < s.length ∧
      (left - nbytes).toNat = left.toNat - nbytes.toNat ∧
      DataStage perAddr nakLimit nbytes r.pep D (left - nbytes) (bs.drop nbytes.toNat) ps' s' := by
  have hle := h.le
  have hpart : D ∣ nbytes.toNat - ([] : List UInt8).length ∨
      ([] : List UInt8).length + bs.length = nbytes.toNat ∧
        decide (bs.length < left.toNat) = false := by
    rw [List.length_nil, Nat.sub_zero, Nat.zero_add, decide_eq_false_iff_not]
    exact h.even.imp_right fun hall ↦ ⟨by omega, by omega⟩
  obtain ⟨ps', hgather, hps'⟩ :=
    h.packets.gather_room [] h.size_le h.nbytes_pos (by rw [List.length_nil]; omega) hpart
  rw [List.length_nil, Nat.sub_zero] at hgather hps'
  have hwlen : ([] ++ bs.take nbytes.toNat).length = nbytes.toNat := by
    rw [List.nil_append, List.length_take, Nat.min_eq_left hfull]
  obtain ⟨s', r, hs', hlt, hr, hok, hread, hdata, halike, hscript⟩ :=
    h.inTransfer_gather rest hgather hwlen.le
  have hleft : (left - nbytes).toNat = left.toNat - nbytes.toNat :=
    UInt16.toNat_sub_of_le _ _ (UInt16.le_iff_toNat_le.mpr (by omega))
  have hdrop : (bs.drop nbytes.toNat).length = bs.length - nbytes.toNat := List.length_drop
  have hz : decide ((bs.drop nbytes.toNat).length < (left - nbytes).toNat) =
      decide (bs.length < left.toNat) := by
    rw [hdrop, hleft, decide_eq_decide]
    omega
  refine ⟨ps', s', r, hr, hok, ?_, hdata, halike, hscript, hlt, hleft, h.nbytes_pos, h.int16,
    ?_, ?_, ?_, by omega, by rwa [hz], by rwa [halike.epAddr]⟩
  · rw [← UInt16.toNat_inj, hread, hwlen]
  · rw [halike.maxPktSize]
    exact h.size_pos
  · rw [halike.maxPktSize]
    exact h.size_le
  · rw [hleft]
    exact h.even.imp_right fun hall ↦ by omega

/-- A device whose bytes are seen to end is read to that end. -/
private theorem DataStage.short (rest : Script) (hlt : bs.length < nbytes.toNat)
    (hend : Ended pep.maxPktSize.toNat D (decide (bs.length < left.toNat)) bs.length) :
    ∃ r, inTransfer perAddr pep nakLimit nbytes (s ++ rest) = some r ∧ r.rcode = hrSuccess ∧
      r.read.toNat = bs.length ∧ r.data = bs ∧ pep.Alike r.pep ∧ r.script = rest := by
  have hgather : gather pep.maxPktSize.toNat nbytes.toNat [] ps = some ([] ++ bs, []) :=
    h.packets.gather_end [] h.size_pos h.size_le (by rw [List.length_nil]; omega) hend
  obtain ⟨s', r, hs', -, hr, hok, hread, hdata, halike, hscript⟩ :=
    h.inTransfer_gather rest hgather hlt.le
  cases hs'
  exact ⟨r, hr, hok, hread, hdata, halike, hscript⟩

/-- A device whose bytes are not seen to end is asked once more. -/
private theorem DataStage.starved (rest : Script)
    (hf : Finishes ⟨perAddr, pep.epAddr, .tokIn⟩ out nakLimit f) (hlt : bs.length < nbytes.toNat)
    (hend : ¬Ended pep.maxPktSize.toNat D (decide (bs.length < left.toNat)) bs.length) :
    ∃ r, inTransfer perAddr pep nakLimit nbytes (s ++ (f ++ rest)) = some r ∧
      r.rcode = hrStall ∧ r.script = rest := by
  have hgather : gather pep.maxPktSize.toNat nbytes.toNat [] ps = none :=
    h.packets.gather_none [] h.size_le (by rw [List.length_nil]; omega) hend
  have hroom : Room nbytes 0 [] := ⟨h.int16, rfl, Nat.zero_le _⟩
  obtain ⟨fuel', pep', read', hfuel', halike, hrun⟩ :=
    h.brings.inLoop_starved hroom hgather (by rw [h.packets.flatten, List.length_nil]; omega)
      (Nat.le_refl (s ++ (f ++ rest)).length)
  obtain ⟨hsat, -, hstall, -⟩ := hf
  next rs x =>
    rw [List.append_assoc, List.singleton_append] at hfuel' hrun ⊢
    have hd : dispatchPkt ⟨perAddr, pep.epAddr, .tokIn⟩ nakLimit (rs ++ x :: rest) =
        some (x ⟨perAddr, pep.epAddr, .tokIn⟩, rest) :=
      dispatchPkt_satOut hsat (by rw [hstall]; decide) (by rw [hstall]; decide)
    obtain ⟨fuel, rfl⟩ : ∃ k, fuel' = k + 1 := ⟨fuel' - 1, by
      simp only [List.length_append, List.length_cons] at hfuel'
      omega⟩
    rw [inLoop_error hd (by rw [hstall]; decide) (by rw [hstall]; decide)] at hrun
    exact ⟨_, hrun, hstall, rfl⟩

/-- Nothing is left to ask for. -/
private theorem DataStage.nothing (hleft : left = 0) : bs = [] ∧ s = [] := by
  have hbs : bs = [] := by
    have hle := h.le
    rw [hleft, UInt16.toNat_zero] at hle
    exact List.length_eq_zero_iff.mp (Nat.le_zero.mp hle)
  have hps := h.packets
  rw [hbs, hleft, List.length_nil, UInt16.toNat_zero, decide_eq_false (Nat.lt_irrefl 0)] at hps
  have hs := h.brings
  rw [hps.eq_nil (h.size_pos.trans_le h.size_le)] at hs
  cases hs
  exact ⟨hbs, rfl⟩

end DataStage

/-- Full buffers do not change what is left over at the end. -/
private theorem starves_sub {M k len left : Nat} (hle : k ≤ len) (hle' : len ≤ left) :
    Starves M D k (left - k) (len - k) ↔ Starves M D k left len := by
  have hmod : (len - k) % k = len % k := (Nat.mod_eq_sub_mod hle).symm
  have heq : left - k ≤ len - k ↔ left ≤ len := by omega
  rw [Starves, Starves, hmod, heq]

/-- What does not fill a buffer starves the host exactly when it does not see its end. -/
private theorem starves_iff {M k len left : Nat} (hlt : len < k) (hle : len ≤ left)
    (hpos : left ≠ 0) : Starves M D k left len ↔ ¬Ended M D (decide (len < left)) len := by
  rw [Starves, Ended, Nat.mod_eq_of_lt hlt]
  split
  · rw [decide_eq_true_eq]
    omega
  · next hshort =>
    have : len ≠ 0 := fun hzero ↦ hshort (by rw [hzero, Nat.zero_mod])
    omega

private theorem DataStage.dataLoop (h : DataStage perAddr nakLimit nbytes pep D left bs ps s)
    (total : UInt16) (rest : Script) (hf : Finishes ⟨perAddr, pep.epAddr, .tokIn⟩ out nakLimit f)
    (hfuel : (s ++ (f ++ rest)).length < fuel) :
    ∃ c, Host.dataLoop perAddr nakLimit total nbytes fuel pep left (s ++ (f ++ rest)) = some c ∧
      if Starves pep.maxPktSize.toNat D nbytes.toNat left.toNat bs.length then
        StarvedBy nbytes bs.length rest c
      else ReadBack nbytes left bs pep (f ++ rest) c := by
  -- the fuel falls with every full buffer
  induction fuel generalizing left bs ps s pep with
  | zero => omega
  | succ fuel ih =>
    have hle := h.le
    by_cases hleft : left = 0
    · obtain ⟨rfl, rfl⟩ := h.nothing hleft
      refine ⟨⟨hrSuccess, [], pep, f ++ rest⟩, by simp [Host.dataLoop, hleft], ?_⟩
      rw [if_neg (by simp [Starves, hleft])]
      have hn := h.nbytes_pos
      exact ⟨rfl, rfl, by simp, by rw [List.length_nil]; omega, .refl pep, rfl⟩
    have hpos : left.toNat ≠ 0 := by rwa [ne_eq, ← UInt16.toNat_zero, UInt16.toNat_inj]
    by_cases hfull : nbytes.toNat ≤ bs.length
    · obtain ⟨ps', s', r, hr, hok, hread, hdata, halike, hscript, hlt, hleft', h'⟩ :=
        h.full (f ++ rest) hfull
      have hf' : Finishes ⟨perAddr, r.pep.epAddr, .tokIn⟩ out nakLimit f := by
        rwa [halike.epAddr]
      obtain ⟨c, hc, hresult⟩ := ih h' hf' (by
        simp only [List.length_append] at hfuel ⊢
        omega)
      rw [dataLoop_more hleft hr hok (by rw [hread]; exact UInt16.lt_irrefl _), hread, hscript, hc]
      refine ⟨_, rfl, ?_⟩
      rw [halike.maxPktSize, hleft', List.length_drop] at hresult
      simp only [starves_sub hfull hle] at hresult
      split at hresult
      · next hst =>
        rw [if_pos hst]
        exact ⟨hresult.rcode, hresult.script, fun hlt ↦ absurd hlt (Nat.not_lt.mpr hfull)⟩
      · next hst =>
        rw [if_neg hst]
        refine ⟨hresult.rcode, ?_, ?_, ?_, halike.trans hresult.pep, hresult.script⟩
        · rw [List.flatMap_cons, hresult.data, hdata, List.take_append_drop]
        · refine List.forall_mem_cons.mpr ⟨?_, hresult.len⟩
          rw [hdata, List.length_take, Nat.min_eq_left hfull]
        · have hfew := hresult.few
          rw [List.length_cons, Nat.succ_mul]
          omega
    rw [Nat.not_le] at hfull
    have hst := starves_iff (M := pep.maxPktSize.toNat) (D := D) hfull hle hpos
    by_cases hend : Ended pep.maxPktSize.toNat D (decide (bs.length < left.toNat)) bs.length
    · obtain ⟨r, hr, hok, hread, hdata, halike, hscript⟩ := h.short (f ++ rest) hfull hend
      have hshort : r.read < nbytes := by
        rw [UInt16.lt_iff_toNat_lt, hread]
        exact hfull
      rw [dataLoop_short hleft hr hok hshort]
      refine ⟨_, rfl, ?_⟩
      rw [if_neg fun h ↦ hst.mp h hend]
      refine ⟨rfl, ?_, ?_, ?_, halike, hscript⟩
      · rw [List.flatMap_singleton, hdata]
      · intro call hcall
        rw [List.mem_singleton.mp hcall, hdata, hread]
      · rw [List.length_singleton, Nat.one_mul]
        omega
    · obtain ⟨r, hr, hstall, hscript⟩ := h.starved rest hf hfull hend
      rw [dataLoop_error hleft hr (by rw [hstall]; decide) (by rw [hstall]; decide)]
      refine ⟨_, rfl, ?_⟩
      rw [if_pos (hst.mpr hend)]
      exact ⟨hstall, hscript, fun _ ↦ rfl⟩

/-! ### The request -/

variable {pkt : SetupPkt} {descr : List UInt8} {script : Script} {ep : UInt8}

/-- The answers of a device that has the bytes `descr` for the request `pkt`: an acknowledged
`SETUP`, packets of size `D` with as many bytes as were asked for, their end marked when there are
fewer, and the end of the transfer. -/
inductive Serves (perAddr : UInt8) (pep : EpInfo) (D : Nat) (nakLimit : UInt16) (pkt : SetupPkt)
    (descr : List UInt8) : Script → Prop
  | intro {rs s f : Script} {x : Launch → Attempt} {ps : List (List UInt8)} :
      SatOut ⟨perAddr, pep.epAddr, .tokSetup pkt⟩ nakLimit rs →
      (x ⟨perAddr, pep.epAddr, .tokSetup pkt⟩).rcode = hrSuccess →
      Packets D (decide (descr.length < pkt.wLength.toNat)) (descr.take pkt.wLength.toNat) ps →
      BringsAll ⟨perAddr, pep.epAddr, .tokIn⟩ nakLimit ps s →
      Finishes ⟨perAddr, pep.epAddr, .tokIn⟩ ⟨perAddr, pep.epAddr, .tokOutHs⟩ nakLimit f →
      Serves perAddr pep D nakLimit pkt descr (rs ++ x :: (s ++ f))

/-- The host, which takes packets to be of size `maxPktSize`, asks once too often for `total` bytes
of the `len` that a device has, in packets of `D`. -/
def AsksTooOften (maxPktSize : UInt8) (D : Nat) (nbytes total : UInt16) (len : Nat) : Prop :=
  Starves maxPktSize.toNat D nbytes.toNat total.toNat (min total.toNat len)

instance (maxPktSize : UInt8) (D : Nat) (nbytes total : UInt16) (len : Nat) :
    Decidable (AsksTooOften maxPktSize D nbytes total len) := by
  unfold AsksTooOften
  infer_instance

/-- The launches that follow one another in a control read find their answers in the script. -/
private theorem ctrlReqAt_eq {rs : Script} {x : Launch → Attempt} {c : CtrlResult}
    {buf : List UInt8}
    (hdir : pkt.bmRequestType &&& 0x80 > 0)
    (hsat : SatOut ⟨perAddr, ep, .tokSetup pkt⟩ nakLimit rs)
    (hok : (x ⟨perAddr, ep, .tokSetup pkt⟩).rcode = hrSuccess)
    (hc : dataLoop perAddr nakLimit pkt.wLength nbytes (s.length + 1)
      { pep with bmRcvToggle := true } pkt.wLength s = some c) :
    ctrlReqAt perAddr ep pep nakLimit pkt nbytes (some buf) (rs ++ x :: s) =
      if c.rcode ≠ hrSuccess then some c else statusStage perAddr ep nakLimit true c := by
  have hd : dispatchPkt ⟨perAddr, ep, .tokSetup pkt⟩ nakLimit (rs ++ x :: s) =
      some (x ⟨perAddr, ep, .tokSetup pkt⟩, s) :=
    dispatchPkt_satOut hsat (by rw [hok]; decide) (by rw [hok]; decide)
  simp only [ctrlReqAt, hd, hok, decide_eq_true hdir, ne_eq, not_true_eq_false, if_false, if_true,
    hc]

/-- A data stage that has read the data is followed by the status stage. -/
private theorem ctrlReqAt_readBack {rs : Script} {x : Launch → Attempt} {c : CtrlResult}
    {buf : List UInt8} (hdir : pkt.bmRequestType &&& 0x80 > 0)
    (hsat : SatOut ⟨perAddr, ep, .tokSetup pkt⟩ nakLimit rs)
    (hok : (x ⟨perAddr, ep, .tokSetup pkt⟩).rcode = hrSuccess)
    (hc : dataLoop perAddr nakLimit pkt.wLength nbytes (s.length + 1)
      { pep with bmRcvToggle := true } pkt.wLength s = some c)
    (hf : Finishes l ⟨perAddr, ep, .tokOutHs⟩ nakLimit f)
    (hresult : ReadBack nbytes pkt.wLength bs { pep with bmRcvToggle := true } (f ++ rest) c) :
    ∃ c, ctrlReqAt perAddr ep pep nakLimit pkt nbytes (some buf) (rs ++ x :: s) = some c ∧
      ReadBack nbytes pkt.wLength bs pep rest c := by
  rw [ctrlReqAt_eq hdir hsat hok hc, if_neg (by rw [hresult.rcode]; decide)]
  obtain ⟨-, hsat', -, hack⟩ := hf
  next rs' x' =>
  have hd : dispatchPkt ⟨perAddr, ep, .tokOutHs⟩ nakLimit c.script =
      some (x' ⟨perAddr, ep, .tokOutHs⟩, rest) := by
    rw [hresult.script, List.append_assoc, List.singleton_append]
    exact dispatchPkt_satOut hsat' (by rw [hack]; decide) (by rw [hack]; decide)
  refine ⟨_, by rw [statusStage, if_pos rfl, hd, Option.map_some], ?_⟩
  exact ⟨hack, hresult.data, hresult.len, hresult.few,
    ⟨hresult.pep.epAddr, hresult.pep.maxPktSize, hresult.pep.bmNakPower⟩, rfl⟩

/-- A device that keeps to the protocol is read back exactly, whatever it sends in between, unless
the host asks once too often; then the request ends with the stall. -/
theorem ctrlReqAt_serves (buf : List UInt8) (rest : Script) (hdir : pkt.bmRequestType &&& 0x80 > 0)
    (hpos : 0 < nbytes.toNat) (hint : nbytes.toNat < 32768) (hsize : 0 < pep.maxPktSize.toNat)
    (hle : pep.maxPktSize.toNat ≤ D) (heven : D ∣ nbytes.toNat ∨ pkt.wLength.toNat ≤ nbytes.toNat)
    (h : Serves perAddr pep D nakLimit pkt descr s) :
    ∃ c, ctrlReqAt perAddr pep.epAddr pep nakLimit pkt nbytes (some buf) (s ++ rest) = some c ∧
      if AsksTooOften pep.maxPktSize D nbytes pkt.wLength descr.length then
        StarvedBy nbytes (min pkt.wLength.toNat descr.length) rest c
      else ReadBack nbytes pkt.wLength (descr.take pkt.wLength.toNat) pep rest c := by
  obtain ⟨hsat, hok, hpackets, hbrings, hf⟩ := h
  next rs s f x ps =>
  have hlen : (descr.take pkt.wLength.toNat).length = min pkt.wLength.toNat descr.length :=
    List.length_take
  have hz : decide ((descr.take pkt.wLength.toNat).length < pkt.wLength.toNat) =
      decide (descr.length < pkt.wLength.toNat) := by
    rw [hlen, decide_eq_decide]
    omega
  have hstage : DataStage perAddr nakLimit nbytes { pep with bmRcvToggle := true } D pkt.wLength
      (descr.take pkt.wLength.toNat) ps s :=
    ⟨hpos, hint, hsize, hle, heven, by omega, by rwa [hz], hbrings⟩
  obtain ⟨c, hc, hresult⟩ := hstage.dataLoop pkt.wLength rest hf (Nat.lt_succ_self _)
  have hscript : rs ++ x :: (s ++ f) ++ rest = rs ++ x :: (s ++ (f ++ rest)) := by simp
  rw [hscript]
  rw [hlen] at hresult
  change if AsksTooOften pep.maxPktSize D nbytes pkt.wLength descr.length then _ else _ at hresult
  split at hresult
  · next hoften =>
    rw [ctrlReqAt_eq hdir hsat hok hc, if_pos (by rw [hresult.rcode]; decide)]
    refine ⟨c, rfl, ?_⟩
    rwa [if_pos hoften]
  · next hoften =>
    simp only [if_neg hoften]
    exact ctrlReqAt_readBack hdir hsat hok hc hf hresult

/-- Data that fill the buffer and come in one packet are read, whatever size the host takes packets
to be of. -/
private theorem ctrlReqAt_packet (buf : List UInt8) (rest : Script)
    (hdir : pkt.bmRequestType &&& 0x80 > 0) (hpos : 0 < nbytes.toNat)
    (hint : nbytes.toNat < 32768) (hw : pkt.wLength = nbytes) (hD : nbytes.toNat ≤ D)
    (hlen : nbytes.toNat ≤ descr.length) (h : Serves perAddr pep D nakLimit pkt descr s) :
    ∃ c, ctrlReqAt perAddr pep.epAddr pep nakLimit pkt nbytes (some buf) (s ++ rest) = some c ∧
      ReadBack nbytes pkt.wLength (descr.take nbytes.toNat) pep rest c := by
  obtain ⟨hsat, hok, hpackets, hbrings, hf⟩ := h
  next rs s f x ps =>
  have htake : (descr.take nbytes.toNat).length = nbytes.toNat := by
    rw [List.length_take, Nat.min_eq_left hlen]
  have hone : ps = [descr.take nbytes.toNat] := by
    rw [hw, decide_eq_false (Nat.not_lt.mpr hlen)] at hpackets
    apply hpackets.eq_singleton
    · exact List.ne_nil_of_length_pos (by omega)
    · omega
  rw [hone] at hbrings
  have hs := hbrings.length_pos
  have hfuel : 1 < (s ++ (f ++ rest)).length + 1 := by
    simp only [List.length_append]
    omega
  obtain ⟨c, hc, hresult⟩ : ∃ c, dataLoop perAddr nakLimit nbytes nbytes
      ((s ++ (f ++ rest)).length + 1) { pep with bmRcvToggle := true } nbytes
      (s ++ (f ++ rest)) = some c ∧ ReadBack nbytes nbytes (descr.take nbytes.toNat)
        { pep with bmRcvToggle := true } (f ++ rest) c := by
    apply dataLoop_packet htake hpos hint ?_ nbytes (f ++ rest) hfuel
    exact hbrings
  have hscript : rs ++ x :: (s ++ f) ++ rest = rs ++ x :: (s ++ (f ++ rest)) := by simp
  rw [hscript]
  rw [← hw] at hc hresult ⊢
  exact ctrlReqAt_readBack hdir hsat hok hc hf hresult

/-! ### Through the tables -/

variable {u : Usb n} {addr : UInt8} {ppep : EpPtr × Nat}

@[simp] theorem Usb.setEpInfo_addrPool (u : Usb n) (ppep : EpPtr × Nat) (pep : EpInfo) :
    (u.setEpInfo ppep pep).addrPool = u.addrPool := rfl

@[simp] theorem Usb.setEpInfo_epRecords (u : Usb n) (ppep : EpPtr × Nat) (pep : EpInfo) :
    (u.setEpInfo ppep pep).epRecords ppep.1 = (u.epRecords ppep.1).set ppep.2 pep :=
  Function.update_self ..

/-- What `SetAddress` finds: an endpoint of the record with the number asked for, the first. -/
theorem Usb.setAddress_eq_ok (h : u.setAddress addr ep = .ok (ppep, nakLimit)) :
    ∃ i, u.addrPool.getUsbDevicePtr addr = some i ∧
      (u.addrPool.thePool i).epinfo = ppep.1 ∧ ppep.1 ≠ .null ∧
      ((u.epRecords ppep.1).take (u.addrPool.thePool i).epcount.toNat).findIdx?
        (·.epAddr == ep) = some ppep.2 ∧
      nakLimit = UInt16.ofNat (2 ^ min (u.epInfoAt ppep).bmNakPower.val usbNakMaxPower - 1) := by
  cases hi : u.addrPool.getUsbDevicePtr addr with
  | none => simp [setAddress, hi] at h
  | some i =>
    by_cases hnull : (u.addrPool.thePool i).epinfo = .null
    · simp [setAddress, hi, hnull] at h
    · simp only [setAddress, hi, getEpInfoEntry, if_neg hnull] at h
      cases hk : ((u.epRecords (u.addrPool.thePool i).epinfo).take
          (u.addrPool.thePool i).epcount.toNat).findIdx? (·.epAddr == ep) with
      | none => simp [hk] at h
      | some k =>
        rw [hk, Option.map_some] at h
        obtain ⟨rfl, rfl⟩ := Prod.mk.inj (Except.ok.inj h)
        exact ⟨i, rfl, rfl, hnull, hk, rfl⟩

/-- The endpoint found has the number asked for. -/
theorem Usb.epAddr_of_setAddress (h : u.setAddress addr ep = .ok (ppep, nakLimit)) :
    (u.epInfoAt ppep).epAddr = ep ∧ ppep.2 < (u.epRecords ppep.1).length := by
  obtain ⟨i, -, -, -, hk, -⟩ := setAddress_eq_ok h
  obtain ⟨hlt, hep, -⟩ := List.findIdx?_eq_some_iff_getElem.mp hk
  rw [List.length_take] at hlt
  have hlen : ppep.2 < (u.epRecords ppep.1).length := by omega
  rw [List.getElem_take, beq_iff_eq] at hep
  refine ⟨?_, hlen⟩
  rw [epInfoAt, List.getElem?_eq_getElem hlen, Option.getD_some, hep]

/-- A transfer that changes the toggles of an endpoint only is followed by another to the same. -/
theorem Usb.setAddress_setEpInfo {pep' : EpInfo} (h : u.setAddress addr ep = .ok (ppep, nakLimit))
    (halike : (u.epInfoAt ppep).Alike pep') :
    (u.setEpInfo ppep pep').setAddress addr ep = .ok (ppep, nakLimit) ∧
      (u.setEpInfo ppep pep').epInfoAt ppep = pep' := by
  obtain ⟨hep, hlen⟩ := epAddr_of_setAddress h
  obtain ⟨i, hi, hrecord, hnull, hk, rfl⟩ := setAddress_eq_ok h
  have hat : (u.setEpInfo ppep pep').epInfoAt ppep = pep' := by
    rw [epInfoAt, setEpInfo_epRecords, List.getElem?_set_self hlen, Option.getD_some]
  obtain ⟨hlt, -, hfirst⟩ := List.findIdx?_eq_some_iff_getElem.mp hk
  have hk' : (((u.epRecords ppep.1).set ppep.2 pep').take
      (u.addrPool.thePool i).epcount.toNat).findIdx? (·.epAddr == ep) = some ppep.2 := by
    apply List.findIdx?_eq_some_iff_getElem.mpr
    rw [List.length_take] at hlt
    refine ⟨by rwa [List.length_take, List.length_set], ?_, ?_⟩
    · rw [List.getElem_take, List.getElem_set_self, halike.epAddr, hep, beq_self_eq_true]
    · intro j hj
      have := hfirst j hj
      rw [List.getElem_take] at this ⊢
      rwa [List.getElem_set_ne (by omega)]
  refine ⟨?_, hat⟩
  simp only [setAddress, setEpInfo_addrPool, hi, hrecord, if_neg hnull, getEpInfoEntry,
    setEpInfo_epRecords, hk', Option.map_some]
  rw [Prod.mk.eta, hat, halike.bmNakPower]

/-- A device serves an endpoint by its number. -/
theorem Serves.congr {pep' : EpInfo} (h : Serves perAddr pep D nakLimit pkt descr s)
    (heq : pep'.epAddr = pep.epAddr) : Serves perAddr pep' D nakLimit pkt descr s := by
  obtain ⟨hsat, hok, hpackets, hbrings, hf⟩ := h
  rw [← heq] at hsat hok hbrings hf
  exact .intro hsat hok hpackets hbrings hf

/-- What a control read of `bs` leaves that found its endpoint at `ppep`. -/
structure Replied (u : Usb n) (addr ep : UInt8) (ppep : EpPtr × Nat)
    (nakLimit nbytes total : UInt16) (bs : List UInt8) (rest : Script) (r : Reply n) : Prop where
  rcode : r.rcode = hrSuccess
  data : r.reads.flatMap ParseCall.data = bs
  len : ∀ call ∈ r.reads, call.len.toNat = call.data.length
  few : r.reads.length * nbytes.toNat < total.toNat + nbytes.toNat
  script : r.script = rest
  setAddress : r.usb.setAddress addr ep = .ok (ppep, nakLimit)
  pep : (u.epInfoAt ppep).Alike (r.usb.epInfoAt ppep)

/-- What was read at an endpoint, through the tables. -/
private theorem Usb.replied_of_readBack {buf : List UInt8} {c : CtrlResult}
    (hset : u.setAddress addr ep = .ok (ppep, nakLimit))
    (hc : ctrlReqAt addr (u.epInfoAt ppep).epAddr (u.epInfoAt ppep) nakLimit pkt nbytes (some buf)
      s = some c) (hresult : ReadBack nbytes pkt.wLength bs (u.epInfoAt ppep) rest c) :
    ∃ r, u.ctrlReq addr ep pkt nbytes (some buf) s = some r ∧
      Replied u addr ep ppep nakLimit nbytes pkt.wLength bs rest r := by
  rw [(epAddr_of_setAddress hset).1] at hc
  obtain ⟨hset', hat⟩ := setAddress_setEpInfo hset hresult.pep
  have hpep : (u.epInfoAt ppep).Alike ((u.setEpInfo ppep c.pep).epInfoAt ppep) := by
    rw [hat]
    exact hresult.pep
  refine ⟨⟨c.rcode, c.reads, u.setEpInfo ppep c.pep, c.script⟩, ?_, hresult.rcode, hresult.data,
    hresult.len, hresult.few, hresult.script, hset', hpep⟩
  simp only [ctrlReq, hset, hc, Option.map_some]

/-- A control read of a buffer that one packet fills. -/
theorem Usb.ctrlReq_packet (u : Usb n) (nbytes : UInt16) (buf : List UInt8) (rest : Script)
    (hset : u.setAddress addr ep = .ok (ppep, nakLimit))
    (hdir : pkt.bmRequestType &&& 0x80 > 0) (hpos : 0 < nbytes.toNat)
    (hint : nbytes.toNat < 32768) (hw : pkt.wLength = nbytes) (hD : nbytes.toNat ≤ D)
    (hlen : nbytes.toNat ≤ descr.length)
    (h : Serves addr (u.epInfoAt ppep) D nakLimit pkt descr s) :
    ∃ r, u.ctrlReq addr ep pkt nbytes (some buf) (s ++ rest) = some r ∧
      Replied u addr ep ppep nakLimit nbytes pkt.wLength (descr.take nbytes.toNat) rest r := by
  obtain ⟨c, hc, hresult⟩ := ctrlReqAt_packet buf rest hdir hpos hint hw hD hlen h
  exact replied_of_readBack hset hc hresult

/-- A control read that the host does not ask once too often for, through the tables. -/
theorem Usb.ctrlReq_replied (u : Usb n) (nbytes : UInt16) (buf : List UInt8) (rest : Script)
    (hset : u.setAddress addr ep = .ok (ppep, nakLimit))
    (hdir : pkt.bmRequestType &&& 0x80 > 0) (hpos : 0 < nbytes.toNat)
    (hint : nbytes.toNat < 32768) (hsize : 0 < (u.epInfoAt ppep).maxPktSize.toNat)
    (hle : (u.epInfoAt ppep).maxPktSize.toNat ≤ D)
    (heven : D ∣ nbytes.toNat ∨ pkt.wLength.toNat ≤ nbytes.toNat)
    (h : Serves addr (u.epInfoAt ppep) D nakLimit pkt descr s)
    (hoften : ¬AsksTooOften (u.epInfoAt ppep).maxPktSize D nbytes pkt.wLength descr.length) :
    ∃ r, u.ctrlReq addr ep pkt nbytes (some buf) (s ++ rest) = some r ∧
      Replied u addr ep ppep nakLimit nbytes pkt.wLength (descr.take pkt.wLength.toNat) rest r := by
  obtain ⟨c, hc, hresult⟩ := ctrlReqAt_serves buf rest hdir hpos hint hsize hle heven h
  rw [if_neg hoften] at hresult
  exact replied_of_readBack hset hc hresult

/-- And one that it does ask once too often for. -/
theorem Usb.ctrlReq_starved (u : Usb n) (nbytes : UInt16) (buf : List UInt8) (rest : Script)
    (hset : u.setAddress addr ep = .ok (ppep, nakLimit))
    (hdir : pkt.bmRequestType &&& 0x80 > 0) (hpos : 0 < nbytes.toNat)
    (hint : nbytes.toNat < 32768) (hsize : 0 < (u.epInfoAt ppep).maxPktSize.toNat)
    (hle : (u.epInfoAt ppep).maxPktSize.toNat ≤ D)
    (heven : D ∣ nbytes.toNat ∨ pkt.wLength.toNat ≤ nbytes.toNat)
    (h : Serves addr (u.epInfoAt ppep) D nakLimit pkt descr s)
    (hoften : AsksTooOften (u.epInfoAt ppep).maxPktSize D nbytes pkt.wLength descr.length) :
    ∃ r, u.ctrlReq addr ep pkt nbytes (some buf) (s ++ rest) = some r ∧ r.rcode = hrStall ∧
      r.script = rest ∧ (min pkt.wLength.toNat descr.length < nbytes.toNat → r.reads = []) := by
  obtain ⟨c, hc, hresult⟩ := ctrlReqAt_serves buf rest hdir hpos hint hsize hle heven h
  rw [(epAddr_of_setAddress hset).1] at hc
  rw [if_pos hoften] at hresult
  refine ⟨⟨c.rcode, c.reads, u.setEpInfo ppep c.pep, c.script⟩, ?_, hresult.rcode, hresult.script,
    hresult.reads⟩
  simp only [ctrlReq, hset, hc, Option.map_some]

/-- Through the tables, a device that keeps to the protocol is read back exactly, whatever it sends
in between, unless the host asks once too often; and its endpoint is found again. -/
theorem Usb.ctrlReq_serves (u : Usb n) (nbytes : UInt16) (buf : List UInt8) (rest : Script)
    (hset : u.setAddress addr ep = .ok (ppep, nakLimit))
    (hdir : pkt.bmRequestType &&& 0x80 > 0) (hpos : 0 < nbytes.toNat)
    (hint : nbytes.toNat < 32768) (hsize : 0 < (u.epInfoAt ppep).maxPktSize.toNat)
    (hle : (u.epInfoAt ppep).maxPktSize.toNat ≤ D)
    (heven : D ∣ nbytes.toNat ∨ pkt.wLength.toNat ≤ nbytes.toNat)
    (h : Serves addr (u.epInfoAt ppep) D nakLimit pkt descr s) :
    ∃ r, u.ctrlReq addr ep pkt nbytes (some buf) (s ++ rest) = some r ∧
      if AsksTooOften (u.epInfoAt ppep).maxPktSize D nbytes pkt.wLength descr.length then
        r.rcode = hrStall
      else
        Replied u addr ep ppep nakLimit nbytes pkt.wLength (descr.take pkt.wLength.toNat)
          rest r := by
  split
  · next hoften =>
    obtain ⟨r, hr, hstall, -⟩ :=
      u.ctrlReq_starved nbytes buf rest hset hdir hpos hint hsize hle heven h hoften
    exact ⟨r, hr, hstall⟩
  · next hoften =>
    exact u.ctrlReq_replied nbytes buf rest hset hdir hpos hint hsize hle heven h hoften

/-- The request for a descriptor goes to the device. -/
private theorem getDescrPkt_direction (type index : UInt8) (langid total : UInt16) :
    (Usb.getDescrPkt type index langid total).bmRequestType &&& 0x80 > 0 :=
  show (0x80 : UInt8) &&& 0x80 > 0 by decide

private theorem wTotalLength_buffer {reads : List ParseCall} (buf : List UInt8)
    (hdata : reads.flatMap ParseCall.data = descr.take 9) (hlen : 9 ≤ descr.length)
    (hfew : reads.length * 9 < 9 + 9) :
    Usb.wTotalLength (Usb.buffer buf reads) = Usb.wTotalLength descr := by
  have htake : (descr.take 9).length = 9 := by
    rw [List.length_take, Nat.min_eq_left hlen]
  match reads with
  | [] =>
    rw [← hdata] at htake
    cases htake
  | [call] =>
    rw [List.flatMap_singleton] at hdata
    have hget : ∀ i, i < 9 → (descr.take 9 ++ buf.drop (descr.take 9).length)[i]? = descr[i]? := by
      intro i hi
      rw [List.getElem?_append_left (htake.symm ▸ hi), List.getElem?_take_of_lt hi]
    simp only [Usb.buffer, Usb.wTotalLength, List.foldl_cons, List.foldl_nil, hdata,
      hget 2 (by omega), hget 3 (by omega)]
  | _ :: _ :: _ =>
    simp only [List.length_cons] at hfew
    omega

/-- The first request for a configuration brings the nine bytes its buffer holds, and with them
the length to ask for in the second. -/
theorem Usb.getConfDescr_header (u : Usb n) (conf : UInt8) (buf : List UInt8) (rest : Script)
    (hset : u.setAddress addr 0 = .ok (ppep, nakLimit))
    (hsize : 0 < (u.epInfoAt ppep).maxPktSize.toNat)
    (hle : (u.epInfoAt ppep).maxPktSize.toNat ≤ D) (hlen : 9 ≤ descr.length)
    (hs : Serves addr (u.epInfoAt ppep) D nakLimit (getDescrPkt 0x02 conf 0 9) descr s) :
    ∃ r, Replied u addr 0 ppep nakLimit 9 9 (descr.take 9) rest r ∧
      u.parseConfDescr addr 0 conf buf (s ++ rest) =
        r.usb.ctrlReq addr 0 (getDescrPkt 0x02 conf 0 (wTotalLength descr)) 64 (some []) rest := by
  have hnot : ¬AsksTooOften (u.epInfoAt ppep).maxPktSize D 9 (getDescrPkt 0x02 conf 0 9).wLength
      descr.length := by
    intro hoften
    apply hoften.1
    rw [show min (getDescrPkt 0x02 conf 0 9).wLength.toNat descr.length = 9 from
      Nat.min_eq_left hlen]
    rfl
  obtain ⟨r, hr, hresult⟩ := u.ctrlReq_replied 9 [] rest hset
    (getDescrPkt_direction 0x02 conf 0 9) (by decide) (by decide) hsize hle
    (Or.inr (Nat.le_refl 9)) hs hnot
  have hwTotal : wTotalLength (buffer buf r.reads) = wTotalLength descr :=
    wTotalLength_buffer buf hresult.data hlen hresult.few
  refine ⟨r, hresult, ?_⟩
  rw [parseConfDescr, getConfDescr, hr, Option.bind_some, if_neg (by rw [hresult.rcode]; decide),
    hwTotal, hresult.script]

/-- A configuration the host does not ask once too often for arrives whole. -/
theorem Usb.parseConfDescr_replied (u : Usb n) (conf : UInt8) (buf : List UInt8) (rest : Script)
    (hset : u.setAddress addr 0 = .ok (ppep, nakLimit))
    (hsize : 0 < (u.epInfoAt ppep).maxPktSize.toNat)
    (hle : (u.epInfoAt ppep).maxPktSize.toNat ≤ D) (heven : D ∣ 64) (hlen : 9 ≤ descr.length)
    (htotal : (wTotalLength descr).toNat = descr.length)
    (hs : Serves addr (u.epInfoAt ppep) D nakLimit (getDescrPkt 0x02 conf 0 9) descr s)
    (hs' : Serves addr (u.epInfoAt ppep) D nakLimit
      (getDescrPkt 0x02 conf 0 (wTotalLength descr)) descr s')
    (hoften : ¬AsksTooOften (u.epInfoAt ppep).maxPktSize D 64 (wTotalLength descr) descr.length) :
    ∃ r, u.parseConfDescr addr 0 conf buf (s ++ (s' ++ rest)) = some r ∧
      r.rcode = hrSuccess ∧ r.reads.flatMap ParseCall.data = descr ∧
      (∀ call ∈ r.reads, call.len.toNat = call.data.length) ∧ r.script = rest := by
  obtain ⟨r, hresult, heq⟩ := u.getConfDescr_header conf buf (s' ++ rest) hset hsize hle hlen hs
  obtain ⟨r', hr', hresult'⟩ := r.usb.ctrlReq_replied 64 [] rest hresult.setAddress
    (getDescrPkt_direction 0x02 conf 0 (wTotalLength descr)) (by decide) (by decide)
    (by rwa [hresult.pep.maxPktSize]) (by rwa [hresult.pep.maxPktSize]) (Or.inl heven)
    (hs'.congr hresult.pep.epAddr) (by rwa [hresult.pep.maxPktSize])
  have hdata := hresult'.data
  rw [show (getDescrPkt 0x02 conf 0 (wTotalLength descr)).wLength = wTotalLength descr from rfl,
    htotal, List.take_length] at hdata
  exact ⟨r', by rw [heq, hr'], hresult'.rcode, hdata, hresult'.len, hresult'.script⟩

/-- And one it does ask once too often for ends with the stall. -/
theorem Usb.parseConfDescr_starved (u : Usb n) (conf : UInt8) (buf : List UInt8) (rest : Script)
    (hset : u.setAddress addr 0 = .ok (ppep, nakLimit))
    (hsize : 0 < (u.epInfoAt ppep).maxPktSize.toNat)
    (hle : (u.epInfoAt ppep).maxPktSize.toNat ≤ D) (heven : D ∣ 64) (hlen : 9 ≤ descr.length)
    (hs : Serves addr (u.epInfoAt ppep) D nakLimit (getDescrPkt 0x02 conf 0 9) descr s)
    (hs' : Serves addr (u.epInfoAt ppep) D nakLimit
      (getDescrPkt 0x02 conf 0 (wTotalLength descr)) descr s')
    (hoften : AsksTooOften (u.epInfoAt ppep).maxPktSize D 64 (wTotalLength descr) descr.length) :
    ∃ r, u.parseConfDescr addr 0 conf buf (s ++ (s' ++ rest)) = some r ∧ r.rcode = hrStall ∧
      r.script = rest ∧ (descr.length < 64 → r.reads = []) := by
  obtain ⟨r, hresult, heq⟩ := u.getConfDescr_header conf buf (s' ++ rest) hset hsize hle hlen hs
  obtain ⟨r', hr', hstall, hscript, hreads⟩ := r.usb.ctrlReq_starved 64 [] rest hresult.setAddress
    (getDescrPkt_direction 0x02 conf 0 (wTotalLength descr)) (by decide) (by decide)
    (by rwa [hresult.pep.maxPktSize]) (by rwa [hresult.pep.maxPktSize]) (Or.inl heven)
    (hs'.congr hresult.pep.epAddr) (by rwa [hresult.pep.maxPktSize])
  refine ⟨r', by rw [heq, hr'], hstall, hscript, fun hlt ↦ hreads ?_⟩
  exact (Nat.min_le_right _ _).trans_lt hlt

/-- A configuration descriptor is at least as long as its first request. -/
theorem nine_le_length {d : List UInt8} {ds : List (List UInt8)}
    (hwf : ∀ e ∈ d :: ds, ConfigDescParser.WellFormed e)
    (hd : ConfigDescParser.byteAt d 1 = descriptorConfiguration) :
    9 ≤ (d :: ds).flatten.length := by
  have hmin := (hwf d List.mem_cons_self).2.1
  rw [ConfigDescParser.minLength, if_pos (Or.inl hd)] at hmin
  rw [List.flatten_cons, List.length_append]
  omega

/-- A well-formed configuration descriptor that says its length is reported to the driver endpoint
by endpoint, whatever retries and toggle errors come in between and however it is cut into packets,
unless the host asks once too often for its end. -/
theorem Usb.parseConfDescr_endpoints (u : Usb n) (addr conf : UInt8) (buf : List UInt8)
    (s s' rest : Script) (m : InterfaceMask) (v : Vector UInt8 16) (size : Nat) (good : Bool)
    (value proto iface alt : UInt8) (d : List UInt8) (ds : List (List UInt8))
    (hset : u.setAddress addr 0 = .ok (ppep, nakLimit))
    (hsize : 0 < (u.epInfoAt ppep).maxPktSize.toNat)
    (hle : (u.epInfoAt ppep).maxPktSize.toNat ≤ D) (heven : D ∣ 64)
    (hwf : ∀ e ∈ d :: ds, ConfigDescParser.WellFormed e)
    (hd : ConfigDescParser.byteAt d 1 = descriptorConfiguration)
    (hds : ConfigDescParser.Headed ds)
    (htotal : (wTotalLength (d :: ds).flatten).toNat = (d :: ds).flatten.length)
    (hs : Serves addr (u.epInfoAt ppep) D nakLimit (getDescrPkt 0x02 conf 0 9) (d :: ds).flatten s)
    (hs' : Serves addr (u.epInfoAt ppep) D nakLimit
      (getDescrPkt 0x02 conf 0 (wTotalLength (d :: ds).flatten)) (d :: ds).flatten s') :
    ∃ r, u.parseConfDescr addr 0 conf buf (s ++ (s' ++ rest)) = some r ∧
      if AsksTooOften (u.epInfoAt ppep).maxPktSize D 64 (wTotalLength (d :: ds).flatten)
          (d :: ds).flatten.length then r.rcode = hrStall
      else
        r.rcode = hrSuccess ∧ (∀ call ∈ r.reads, call.len.toNat = call.data.length) ∧
        ∃ p, ConfigDescParser.parsePieces m
          (ConfigDescParser.init v size good value proto iface alt)
          (r.reads.map ParseCall.data) =
            some (p, ConfigDescParser.endpoints m (ConfigDescParser.byteAt d 5) none ds) ∧
          p.overrun = false := by
  have hlen := nine_le_length hwf hd
  split
  · next hoften =>
    obtain ⟨r, hr, hstall, -⟩ :=
      u.parseConfDescr_starved conf buf rest hset hsize hle heven hlen hs hs' hoften
    exact ⟨r, hr, hstall⟩
  · next hoften =>
    obtain ⟨r, hr, hok, hdata, hcalls, -⟩ :=
      u.parseConfDescr_replied conf buf rest hset hsize hle heven hlen htotal hs hs' hoften
    rw [List.flatMap_def] at hdata
    obtain ⟨p, hp, hover⟩ :=
      ConfigDescParser.parsePieces_wellFormed m v size good value proto iface alt hwf hdata
    rw [ConfigDescParser.endpoints_configuration m _ _ hd hds] at hp
    exact ⟨r, hr, hok, hcalls, p, hp, hover⟩

/-! ### A device that answers at once -/

/-- An acknowledgement. -/
def ackAnswer : Launch → Attempt := fun _ ↦ ⟨hrSuccess, false, ⟨[], Nat.zero_le _⟩, false⟩

/-- A packet of data. -/
def dataAnswer (p : List UInt8) : Launch → Attempt :=
  fun _ ↦ ⟨hrSuccess, true, ⟨p.take 64, List.length_take_le 64 p⟩, false⟩

/-- A refusal. -/
def stallAnswer : Launch → Attempt := fun _ ↦ ⟨hrStall, false, ⟨[], Nat.zero_le _⟩, false⟩

/-- The status stage is acknowledged, and more data refused. -/
def endAnswer : Launch → Attempt :=
  fun l ↦ ⟨if l.token = .tokIn then hrStall else hrSuccess, false, ⟨[], Nat.zero_le _⟩, false⟩

/-- The answers of a device that has `descr` for a request of `total` bytes. -/
def plainScript (D : Nat) (total : UInt16) (descr : List UInt8) : Script :=
  ackAnswer :: ((cut D (decide (descr.length < total.toNat)) ((descr.take total.toNat).length + 1)
    (descr.take total.toNat)).map dataAnswer ++ [endAnswer])

/-- It is one whatever is launched. -/
theorem rcode_ackAnswer (l : Launch) : (ackAnswer l).rcode = hrSuccess :=
  show hrSuccess &&& 0x0f = hrSuccess by decide

private theorem rcode_dataAnswer (p : List UInt8) (l : Launch) :
    (dataAnswer p l).rcode = hrSuccess :=
  show hrSuccess &&& 0x0f = hrSuccess by decide

private theorem rcode_endAnswer (l : Launch) :
    (endAnswer l).rcode = if l.token = .tokIn then hrStall else hrSuccess := by
  rw [endAnswer, Attempt.rcode]
  split
  · decide
  · decide

private theorem bringsAll_map (h : ∀ p ∈ ps, p.length ≤ 64) :
    BringsAll l nakLimit ps (ps.map dataAnswer) := by
  induction ps with
  | nil => exact .nil
  | cons p ps ih =>
    rw [List.forall_mem_cons] at h
    have hp : Brings l nakLimit p ([] ++ [dataAnswer p]) :=
      .packet (.nil l nakLimit) (rcode_dataAnswer p l) rfl (List.take_of_length_le h.1)
    exact .cons hp (ih h.2)

/-- It keeps to the protocol, whatever it has and however much is asked for. -/
theorem serves_plainScript (hD : 0 < D) (hfifo : D ≤ 64) (descr : List UInt8) :
    Serves perAddr pep D nakLimit pkt descr (plainScript D pkt.wLength descr) := by
  have hcut := packets_cut hD (decide (descr.length < pkt.wLength.toNat))
    (Nat.lt_succ_self (descr.take pkt.wLength.toNat).length)
  have hf : Finishes ⟨perAddr, pep.epAddr, .tokIn⟩ ⟨perAddr, pep.epAddr, .tokOutHs⟩ nakLimit
      ([] ++ [endAnswer]) :=
    .intro (.nil _ nakLimit) (.nil _ nakLimit) (rcode_endAnswer _) (rcode_endAnswer _)
  have hbrings : BringsAll ⟨perAddr, pep.epAddr, .tokIn⟩ nakLimit _ _ :=
    bringsAll_map fun p hp ↦ (hcut.length_le p hp).trans hfifo
  have hserves := Serves.intro (.nil ⟨perAddr, pep.epAddr, .tokSetup pkt⟩ nakLimit)
    (rcode_ackAnswer _) hcut hbrings hf
  exact hserves

/-- The shield before any device is attached, with the endpoint it shares among them. -/
def freshUsb : Usb 15 :=
  ⟨.init 15, fun _ ↦ [controlEp]⟩

/-- Forty bytes in packets of eight: the host asks for a sixth packet, and gives up. -/
theorem Usb.ctrlReq_serves_forty :
    ∃ r, freshUsb.ctrlReq 0 0 (getDescrPkt 0x02 0 0 40) 64 (some [])
        (plainScript 8 40 (List.replicate 40 0) ++ []) = some r ∧ r.rcode = hrStall := by
  have hset : freshUsb.setAddress 0 0 = .ok ((.dev0ep, 0), 32767) := rfl
  have hs : Serves 0 (freshUsb.epInfoAt (.dev0ep, 0)) 8 32767 (getDescrPkt 0x02 0 0 40)
      (List.replicate 40 0) (plainScript 8 40 (List.replicate 40 0)) :=
    serves_plainScript (by decide) (by decide) (List.replicate 40 0)
  exact freshUsb.ctrlReq_serves 64 [] [] hset (getDescrPkt_direction 0x02 0 0 40) (by decide)
    (by decide) (by decide) (by decide) (by decide) hs

/-- A boot mouse with one interrupt endpoint, whose descriptor of 34 bytes comes in five packets. -/
theorem Usb.parseConfDescr_endpoints_mouse :
    ∃ r, freshUsb.parseConfDescr 0 0 0 [] (plainScript 8 9 [9, 2, 34, 0, 1, 1, 0, 0xA0, 50, 9, 4, 0,
        0, 1, 3, 1, 2, 0, 9, 0x21, 0x11, 1, 0, 1, 0x22, 52, 0, 7, 5, 0x81, 3, 4, 0, 10] ++
      (plainScript 8 34 [9, 2, 34, 0, 1, 1, 0, 0xA0, 50, 9, 4, 0, 0, 1, 3, 1, 2, 0, 9, 0x21,
        0x11, 1, 0, 1, 0x22, 52, 0, 7, 5, 0x81, 3, 4, 0, 10] ++ [])) = some r ∧
      r.rcode = hrSuccess ∧ (∀ call ∈ r.reads, call.len.toNat = call.data.length) ∧
      ∃ p, ConfigDescParser.parsePieces ⟨3, 1, 2, 7, false⟩
        (ConfigDescParser.init (Vector.replicate 16 0) 0 true 0 0 0 0)
        (r.reads.map ParseCall.data) =
          some (p, [{ conf := 1, iface := 0, alt := 0, proto := 2, bEndpointAddress := 0x81
                      bmAttributes := 3, wMaxPacketSize := 4, bInterval := 10 }]) ∧
        p.overrun = false :=
  freshUsb.parseConfDescr_endpoints 0 0 []
    (plainScript 8 9 [9, 2, 34, 0, 1, 1, 0, 0xA0, 50, 9, 4, 0, 0, 1, 3, 1, 2, 0, 9, 0x21, 0x11, 1,
      0, 1, 0x22, 52, 0, 7, 5, 0x81, 3, 4, 0, 10])
    (plainScript 8 34 [9, 2, 34, 0, 1, 1, 0, 0xA0, 50, 9, 4, 0, 0, 1, 3, 1, 2, 0, 9, 0x21, 0x11, 1,
      0, 1, 0x22, 52, 0, 7, 5, 0x81, 3, 4, 0, 10])
    [] ⟨3, 1, 2, 7, false⟩ (Vector.replicate 16 0) 0 true 0 0 0 0
    [9, 2, 34, 0, 1, 1, 0, 0xA0, 50] [[9, 4, 0, 0, 1, 3, 1, 2, 0],
      [9, 0x21, 0x11, 1, 0, 1, 0x22, 52, 0], [7, 5, 0x81, 3, 4, 0, 10]]
    rfl (by decide) (by decide) (by decide) (by decide) (by decide) (by decide) (by decide)
    (serves_plainScript (by decide) (by decide) _) (serves_plainScript (by decide) (by decide) _)

end MouseAide.Host
