import MouseAide.Host.Transfer

/-!
# What any device can do to a transfer

Library `MouseHost`. `dispatchPkt` sits out NAKs and timeouts within its limits, and ends with the
first other answer. An IN transfer stores what it was sent in order and never past its room, and
only an endless row of toggle errors keeps it from returning.
-/

namespace MouseAide.Host

variable {l : Launch} {nakLimit : UInt16} {rs script : Script}

/-- The NAKs among answers to `l`. -/
def naks (l : Launch) (rs : Script) : Nat := rs.countP fun x ↦ (x l).rcode == hrNak

/-- The timeouts among answers to `l`. -/
def timeouts (l : Launch) (rs : Script) : Nat := rs.countP fun x ↦ (x l).rcode == hrTimeout

/-- The toggle errors among answers to `l`. -/
def togErrs (l : Launch) (rs : Script) : Nat := rs.countP fun x ↦ (x l).rcode == hrTogErr

/-- Answers to `l` after each of which `dispatchPkt` launches it again. -/
structure SatOut (l : Launch) (nakLimit : UInt16) (rs : Script) : Prop where
  retried : ∀ x ∈ rs, (x l).rcode = hrNak ∨ (x l).rcode = hrTimeout
  inTime : ∀ x ∈ rs, (x l).expired = false
  naks_lt : nakLimit = 0 ∨ naks l rs < nakLimit.toNat
  timeouts_lt : timeouts l rs < 3

@[simp] theorem naks_append (l : Launch) (rs rs' : Script) :
    naks l (rs ++ rs') = naks l rs + naks l rs' := List.countP_append

@[simp] theorem timeouts_append (l : Launch) (rs rs' : Script) :
    timeouts l (rs ++ rs') = timeouts l rs + timeouts l rs' := List.countP_append

@[simp] theorem togErrs_append (l : Launch) (rs rs' : Script) :
    togErrs l (rs ++ rs') = togErrs l rs + togErrs l rs' := List.countP_append

/-- No answer at all is sat out. -/
theorem SatOut.nil (l : Launch) (nakLimit : UInt16) : SatOut l nakLimit [] where
  retried := by simp
  inTime := by simp
  naks_lt := by
    rw [naks, List.countP_nil, ← UInt16.toNat_inj, UInt16.toNat_zero]
    omega
  timeouts_lt := by simp [timeouts]

/-- The first answers of a row that is sat out. -/
theorem SatOut.left {rs' : Script} (h : SatOut l nakLimit (rs ++ rs')) :
    SatOut l nakLimit rs where
  retried x hx := h.retried x (List.mem_append_left _ hx)
  inTime x hx := h.inTime x (List.mem_append_left _ hx)
  naks_lt := h.naks_lt.imp_right fun hlt ↦ by
    rw [naks_append] at hlt
    omega
  timeouts_lt := by
    have hlt := h.timeouts_lt
    rw [timeouts_append] at hlt
    omega

/-- A limit on NAKs bounds the row. -/
theorem SatOut.length_lt (h : SatOut l nakLimit rs) (hlimit : nakLimit ≠ 0) :
    rs.length < nakLimit.toNat + 2 := by
  have hcount : rs.length = naks l rs + timeouts l rs := by
    have hretried := h.retried
    clear h
    induction rs with
    | nil => rfl
    | cons x rs ih =>
      have hrest := ih fun y hy ↦ hretried y (List.mem_cons_of_mem x hy)
      rcases hretried x List.mem_cons_self with hx | hx <;>
        simp [naks, timeouts, hx, hrNak, hrTimeout] at hrest ⊢ <;> omega
  have hnaks := h.naks_lt.resolve_left hlimit
  have htimeouts := h.timeouts_lt
  omega

private theorem forall_concat {x : Launch → Attempt} {P : (Launch → Attempt) → Prop}
    (h : ∀ y ∈ rs, P y) (hx : P x) : ∀ y ∈ rs ++ [x], P y := by
  intro y hy
  rcases List.mem_append.mp hy with hy | hy
  · exact h y hy
  · rwa [List.mem_singleton.mp hy]

private theorem ofNat_add_one_ne {m N : Nat} {b : UInt16} (hN : b.toNat = N) (h : m + 1 < N) :
    UInt16.ofNat m + 1 ≠ b := by
  intro heq
  have hb := b.toNat_lt
  have := congrArg UInt16.toNat heq
  rw [UInt16.toNat_add, UInt16.toNat_ofNat', UInt16.toNat_one] at this
  omega

private theorem ofNat_add_one_ne_limit {m : Nat} (h : m + 1 < 3) :
    UInt8.ofNat m + 1 ≠ usbRetryLimit := by
  intro heq
  have := congrArg UInt8.toNat heq
  rw [UInt8.toNat_add, UInt8.toNat_ofNat', UInt8.toNat_one, usbRetryLimit] at this
  simp at this
  omega

/-- `dispatchPkt` after the answers `rs`. -/
def dispatchFrom (l : Launch) (nakLimit : UInt16) (rs script : Script) :
    Option (Attempt × Script) :=
  dispatchLoop l nakLimit (UInt8.ofNat (timeouts l rs)) (UInt16.ofNat (naks l rs)) script

/-- A NAK goes on to the next launch exactly when it is sat out. -/
theorem dispatchFrom_nak {x : Launch → Attempt} (hx : (x l).rcode = hrNak) :
    dispatchFrom l nakLimit rs (x :: script) =
      if (nakLimit ≠ 0 ∧ UInt16.ofNat (naks l rs) + 1 = nakLimit) ∨ (x l).expired = true then
        some (x l, script)
      else dispatchFrom l nakLimit (rs ++ [x]) script := by
  have hnaks : naks l (rs ++ [x]) = naks l rs + 1 := by simp [naks, hx]
  have htimeouts : timeouts l (rs ++ [x]) = timeouts l rs := by
    simp [timeouts, hx, hrNak, hrTimeout]
  rw [dispatchFrom, dispatchLoop, if_pos hx, dispatchFrom, hnaks, htimeouts, UInt16.ofNat_add]
  rfl

/-- A timeout goes on to the next launch exactly when it is sat out. -/
theorem dispatchFrom_timeout {x : Launch → Attempt} (hx : (x l).rcode = hrTimeout) :
    dispatchFrom l nakLimit rs (x :: script) =
      if UInt8.ofNat (timeouts l rs) + 1 = usbRetryLimit ∨ (x l).expired = true then
        some (x l, script)
      else dispatchFrom l nakLimit (rs ++ [x]) script := by
  have hnaks : naks l (rs ++ [x]) = naks l rs := by simp [naks, hx, hrNak, hrTimeout]
  have htimeouts : timeouts l (rs ++ [x]) = timeouts l rs + 1 := by simp [timeouts, hx]
  have hne : (x l).rcode ≠ hrNak := by
    rw [hx]
    decide
  rw [dispatchFrom, dispatchLoop, if_neg hne, if_pos hx, dispatchFrom, hnaks, htimeouts,
    UInt8.ofNat_add]
  rfl

/-- Any other answer ends the dispatch. -/
theorem dispatchFrom_other {x : Launch → Attempt} (hnak : (x l).rcode ≠ hrNak)
    (htimeout : (x l).rcode ≠ hrTimeout) :
    dispatchFrom l nakLimit rs (x :: script) = some (x l, script) := by
  rw [dispatchFrom, dispatchLoop, if_neg hnak, if_neg htimeout]

private theorem SatOut.nak {x : Launch → Attempt} (h : SatOut l nakLimit rs)
    (hx : (x l).rcode = hrNak) : SatOut l nakLimit (rs ++ [x]) ↔
      ¬((nakLimit ≠ 0 ∧ UInt16.ofNat (naks l rs) + 1 = nakLimit) ∨ (x l).expired = true) := by
  have hnaks : naks l (rs ++ [x]) = naks l rs + 1 := by simp [naks, hx]
  have htimeouts : timeouts l (rs ++ [x]) = timeouts l rs := by
    simp [timeouts, hx, hrNak, hrTimeout]
  constructor
  · rintro hx' (⟨hne, heq⟩ | hexp)
    · have hlt := hx'.naks_lt.resolve_left hne
      exact ofNat_add_one_ne rfl (hnaks ▸ hlt) heq
    · simp [hx'.inTime x (by simp)] at hexp
  · intro hgo
    rw [not_or, Bool.not_eq_true] at hgo
    refine ⟨forall_concat h.retried (Or.inl hx), forall_concat h.inTime hgo.2, ?_, ?_⟩
    · by_cases hzero : nakLimit = 0
      · exact Or.inl hzero
      have hlimit : naks l rs + 1 ≠ nakLimit.toNat := by
        intro heq
        apply hgo.1 ⟨hzero, _⟩
        rw [← UInt16.toNat_inj, UInt16.toNat_add, UInt16.toNat_ofNat', UInt16.toNat_one]
        have := nakLimit.toNat_lt
        omega
      have hlt := h.naks_lt.resolve_left hzero
      omega
    · rw [htimeouts]
      exact h.timeouts_lt

private theorem SatOut.timeout {x : Launch → Attempt} (h : SatOut l nakLimit rs)
    (hx : (x l).rcode = hrTimeout) : SatOut l nakLimit (rs ++ [x]) ↔
      ¬(UInt8.ofNat (timeouts l rs) + 1 = usbRetryLimit ∨ (x l).expired = true) := by
  have hnaks : naks l (rs ++ [x]) = naks l rs := by simp [naks, hx, hrNak, hrTimeout]
  have htimeouts : timeouts l (rs ++ [x]) = timeouts l rs + 1 := by simp [timeouts, hx]
  constructor
  · rintro hx' (heq | hexp)
    · have hlt := hx'.timeouts_lt
      exact ofNat_add_one_ne_limit (htimeouts ▸ hlt) heq
    · simp [hx'.inTime x (by simp)] at hexp
  · intro hgo
    rw [not_or, Bool.not_eq_true] at hgo
    refine ⟨forall_concat h.retried (Or.inr hx), forall_concat h.inTime hgo.2, ?_, ?_⟩
    · rw [hnaks]
      exact h.naks_lt
    · have hlimit : timeouts l rs ≠ 2 := fun heq ↦ hgo.1 (by rw [heq]; decide)
      have hlt := h.timeouts_lt
      omega

/-- The next answer ends a dispatch, or is sat out. -/
theorem dispatchFrom_cons (x : Launch → Attempt) (script : Script) (h : SatOut l nakLimit rs) :
    (¬SatOut l nakLimit (rs ++ [x]) ∧
      dispatchFrom l nakLimit rs (x :: script) = some (x l, script)) ∨
    (SatOut l nakLimit (rs ++ [x]) ∧
      dispatchFrom l nakLimit rs (x :: script) = dispatchFrom l nakLimit (rs ++ [x]) script) := by
  by_cases hnak : (x l).rcode = hrNak
  · rw [h.nak hnak, dispatchFrom_nak hnak, not_not]
    split
    · next hstop => exact Or.inl ⟨hstop, rfl⟩
    · next hgo => exact Or.inr ⟨hgo, rfl⟩
  · by_cases htimeout : (x l).rcode = hrTimeout
    · rw [h.timeout htimeout, dispatchFrom_timeout htimeout, not_not]
      split
      · next hstop => exact Or.inl ⟨hstop, rfl⟩
      · next hgo => exact Or.inr ⟨hgo, rfl⟩
    · refine Or.inl ⟨fun hx ↦ ?_, dispatchFrom_other hnak htimeout⟩
      exact (hx.retried x (by simp)).elim hnak htimeout

private theorem dispatchFrom_satOut (rs' : Script) (h : SatOut l nakLimit (rs ++ rs')) :
    dispatchFrom l nakLimit rs (rs' ++ script) =
      dispatchFrom l nakLimit (rs ++ rs') script := by
  induction rs' generalizing rs with
  | nil => rw [List.nil_append, List.append_nil]
  | cons x rs' ih =>
    have h' : SatOut l nakLimit ((rs ++ [x]) ++ rs') := by rwa [List.append_assoc]
    rcases dispatchFrom_cons x (rs' ++ script) h.left with ⟨hx, -⟩ | ⟨-, heq⟩
    · exact absurd h'.left hx
    · rw [List.cons_append, heq, ih h', List.append_assoc, List.singleton_append]

/-- Answers that are sat out change nothing but the script. -/
theorem dispatchPkt_satOut {x : Launch → Attempt} (h : SatOut l nakLimit rs)
    (hnak : (x l).rcode ≠ hrNak) (htimeout : (x l).rcode ≠ hrTimeout) :
    dispatchPkt l nakLimit (rs ++ x :: script) = some (x l, script) := by
  have hnil : SatOut l nakLimit ([] ++ rs) := h
  exact (dispatchFrom_satOut rs hnil).trans (dispatchFrom_other hnak htimeout)

private theorem dispatchFrom_cases {a : Attempt} {rest : Script} (h : SatOut l nakLimit rs)
    (hloop : dispatchFrom l nakLimit rs script = some (a, rest)) :
    ∃ rs' x, script = rs' ++ x :: rest ∧ a = x l ∧ SatOut l nakLimit (rs ++ rs') := by
  induction script generalizing rs with
  | nil => simp [dispatchFrom, dispatchLoop] at hloop
  | cons x script ih =>
    rcases dispatchFrom_cons x script h with ⟨-, heq⟩ | ⟨hx, heq⟩
    · obtain ⟨rfl, rfl⟩ := Prod.mk.inj (Option.some.inj (heq.symm.trans hloop))
      exact ⟨[], x, rfl, rfl, by rwa [List.append_nil]⟩
    · obtain ⟨rs', y, rfl, ha, hsat⟩ := ih hx (heq.symm.trans hloop)
      rw [List.append_assoc] at hsat
      exact ⟨x :: rs', y, rfl, ha, hsat⟩

/-- The result of a dispatch is the first answer that is not sat out. -/
theorem dispatchPkt_cases {a : Attempt} {rest : Script}
    (h : dispatchPkt l nakLimit script = some (a, rest)) :
    ∃ rs x, script = rs ++ x :: rest ∧ a = x l ∧ SatOut l nakLimit rs :=
  dispatchFrom_cases (.nil l nakLimit) h

private theorem dispatchFrom_isSome (h : SatOut l nakLimit rs) (hlimit : nakLimit ≠ 0)
    (hlen : nakLimit.toNat + 2 ≤ rs.length + script.length) :
    ∃ r, dispatchFrom l nakLimit rs script = some r := by
  induction script generalizing rs with
  | nil =>
    have := h.length_lt hlimit
    rw [List.length_nil] at hlen
    omega
  | cons x script ih =>
    rcases dispatchFrom_cons x script h with ⟨-, heq⟩ | ⟨hx, heq⟩
    · exact ⟨_, heq⟩
    · rw [heq]
      apply ih hx
      simp only [List.length_cons, List.length_append, List.length_nil] at hlen ⊢
      omega

/-- With a limit on NAKs a dispatch ends within `nakLimit + 2` launches. -/
theorem dispatchPkt_isSome (hlimit : nakLimit ≠ 0)
    (hlen : nakLimit.toNat + 2 ≤ script.length) : ∃ r, dispatchPkt l nakLimit script = some r :=
  dispatchFrom_isSome (.nil l nakLimit) hlimit (by simpa using hlen)

/-! ### The rounds of an IN transfer -/

variable {nbytes read : UInt16} {fuel : Nat} {pep : EpInfo} {data : List UInt8} {a : Attempt}
  {rest : Script} {r : InResult}

/-- The bytes a packet adds to those read. -/
def pktsize (nbytes : UInt16) (a : Attempt) : Nat := min a.rcvFifo.val.length nbytes.toNat

/-- The bytes of a packet that are stored. -/
def stored (nbytes read : UInt16) (a : Attempt) : List UInt8 :=
  a.rcvFifo.val.take (min (pktsize nbytes a) (memLeft nbytes read))

/-- A toggle error is answered by another launch. -/
theorem inLoop_togErr (hd : dispatchPkt l nakLimit script = some (a, rest))
    (ha : a.rcode = hrTogErr) : inLoop l nakLimit nbytes (fuel + 1) pep read data script =
      inLoop l nakLimit nbytes fuel { pep with bmRcvToggle := !a.rcvTogRd } read data rest := by
  simp only [inLoop, hd, if_pos ha]

/-- Any other error ends the transfer. -/
theorem inLoop_error (hd : dispatchPkt l nakLimit script = some (a, rest))
    (htog : a.rcode ≠ hrTogErr) (ha : a.rcode ≠ hrSuccess) :
    inLoop l nakLimit nbytes (fuel + 1) pep read data script =
      some ⟨a.rcode, read, data, pep, a.hrsl, rest⟩ := by
  simp only [inLoop, hd, if_neg htog, if_pos ha]

/-- So does a success without data. -/
theorem inLoop_noData (hd : dispatchPkt l nakLimit script = some (a, rest))
    (ha : a.rcode = hrSuccess) (hdav : a.rcvDav = false) :
    inLoop l nakLimit nbytes (fuel + 1) pep read data script =
      some ⟨receiveError, read, data, pep, a.hrsl, rest⟩ := by
  have htog : hrSuccess ≠ hrTogErr := by decide
  simp [inLoop, hd, ha, hdav, htog]

/-- A packet ends the transfer when it is short or fills the room, and is followed by another. -/
theorem inLoop_packet (hd : dispatchPkt l nakLimit script = some (a, rest))
    (ha : a.rcode = hrSuccess) (hdav : a.rcvDav = true) :
    inLoop l nakLimit nbytes (fuel + 1) pep read data script =
      if pktsize nbytes a < pep.maxPktSize.toNat ∨
          nbytes ≤ read + UInt16.ofNat (pktsize nbytes a) then
        some ⟨hrSuccess, read + UInt16.ofNat (pktsize nbytes a), data ++ stored nbytes read a,
          { pep with bmRcvToggle := a.rcvTogRd }, a.hrsl, rest⟩
      else
        inLoop l nakLimit nbytes fuel pep (read + UInt16.ofNat (pktsize nbytes a))
          (data ++ stored nbytes read a) rest := by
  have htog : hrSuccess ≠ hrTogErr := by decide
  simp only [inLoop, hd, ha, hdav, htog, ne_eq, not_true_eq_false, if_false, Bool.not_true,
    Bool.false_eq_true]
  rfl

/-- The bytes of the packets among answers to `l`. -/
def received (l : Launch) (used : Script) : List UInt8 :=
  used.flatMap fun x ↦
    if (x l).rcode = hrSuccess ∧ (x l).rcvDav = true then (x l).rcvFifo.val else []

@[simp] theorem received_append (l : Launch) (rs rs' : Script) :
    received l (rs ++ rs') = received l rs ++ received l rs' := List.flatMap_append

/-- Answers that are sat out carry nothing. -/
theorem SatOut.received (h : SatOut l nakLimit rs) : received l rs = [] := by
  apply List.flatMap_eq_nil_iff.mpr
  intro x hx
  apply if_neg
  rintro ⟨hok, -⟩
  rcases h.retried x hx with hx | hx <;> rw [hok] at hx <;> exact absurd hx (by decide)

/-- The answers of one dispatch, the last of which is `x`. -/
theorem SatOut.received_concat {x : Launch → Attempt} (h : SatOut l nakLimit rs) :
    Host.received l (rs ++ [x]) =
      if (x l).rcode = hrSuccess ∧ (x l).rcvDav = true then (x l).rcvFifo.val else [] := by
  rw [received_append, h.received, List.nil_append, Host.received, List.flatMap_singleton]

/-- The loop of an IN transfer before a launch, in a room that fits an `int16_t`. -/
structure Room (nbytes read : UInt16) (data : List UInt8) : Prop where
  int16 : nbytes.toNat < 32768
  count : read.toNat = data.length
  le : data.length ≤ nbytes.toNat

/-- The room left is counted right. -/
theorem Room.memLeft (h : Room nbytes read data) :
    Host.memLeft nbytes read = nbytes.toNat - data.length := by
  have hn := h.int16
  have hcount := h.count
  have hle := h.le
  rw [Host.memLeft, Int.bmod_eq_of_le (by omega) (by omega)]
  omega

/-- What is stored of a packet is what fits behind the bytes read. -/
theorem Room.append_stored (h : Room nbytes read data) :
    data ++ stored nbytes read a = (data ++ a.rcvFifo.val).take nbytes.toNat := by
  rw [stored, h.memLeft, pktsize, List.take_append, List.take_of_length_le h.le]
  congr 1
  rw [List.take_eq_take_iff]
  omega

/-- The count of bytes read does not wrap. -/
theorem Room.toNat_read (h : Room nbytes read data) :
    (read + UInt16.ofNat (pktsize nbytes a)).toNat = data.length + pktsize nbytes a := by
  have hp : pktsize nbytes a ≤ nbytes.toNat := Nat.min_le_right _ _
  have hn := h.int16
  have hle := h.le
  rw [UInt16.toNat_add, UInt16.toNat_ofNat', h.count]
  omega

/-- What an IN transfer leaves that went on with `data` and used up the answers `used`. -/
structure Stored (l : Launch) (nbytes : UInt16) (maxPktSize : UInt8) (data : List UInt8)
    (used : Script) (r : InResult) : Prop where
  data_eq : r.data = (data ++ received l used).take nbytes.toNat
  length_eq : r.data.length = min r.read.toNat nbytes.toNat
  ended : r.rcode = hrSuccess → nbytes.toNat ≤ r.data.length ∨
    ∃ x, used.getLast? = some x ∧ (x l).rcode = hrSuccess ∧
      (x l).rcvFifo.val.length < maxPktSize.toNat

/-- Answers used before that brought the bytes behind `data`. -/
theorem Stored.append {maxPktSize : UInt8} {used used' : Script}
    (h : Stored l nbytes maxPktSize (data ++ received l used) used' r) :
    Stored l nbytes maxPktSize data (used ++ used') r where
  data_eq := by rw [received_append, ← List.append_assoc, h.data_eq]
  length_eq := h.length_eq
  ended hok := by
    refine (h.ended hok).imp_right ?_
    rintro ⟨x, hx, hlast⟩
    exact ⟨x, by rw [List.getLast?_append, hx, Option.some_or], hlast⟩

/-- A transfer that ends in an error leaves what it had. -/
theorem Room.stored_error {maxPktSize rcode hrsl : UInt8} {used : Script}
    (h : Room nbytes read data) (hused : received l used = []) (hrcode : rcode ≠ hrSuccess) :
    Stored l nbytes maxPktSize data used ⟨rcode, read, data, pep, hrsl, rest⟩ where
  data_eq := by rw [hused, List.append_nil, List.take_of_length_le h.le]
  length_eq := by
    have hle := h.le
    rw [h.count, Nat.min_eq_left hle]
  ended hok := absurd hok hrcode

/-- A transfer that ends with the packet of the answer `x`. -/
theorem Room.stored_last {x : Launch → Attempt} {hrsl : UInt8} {pep' : EpInfo}
    (h : Room nbytes read data) (hsat : SatOut l nakLimit rs) (hok : (x l).rcode = hrSuccess)
    (hdav : (x l).rcvDav = true)
    (hlast : pktsize nbytes (x l) < pep.maxPktSize.toNat ∨
      nbytes ≤ read + UInt16.ofNat (pktsize nbytes (x l))) :
    Stored l nbytes pep.maxPktSize data (rs ++ [x])
      ⟨hrSuccess, read + UInt16.ofNat (pktsize nbytes (x l)), data ++ stored nbytes read (x l),
        pep', hrsl, rest⟩ := by
  have hsize : pktsize nbytes (x l) = min (x l).rcvFifo.val.length nbytes.toNat := rfl
  have hlen : (data ++ stored nbytes read (x l)).length =
      min nbytes.toNat (data.length + (x l).rcvFifo.val.length) := by
    rw [h.append_stored, List.length_take, List.length_append]
  have hle := h.le
  refine ⟨?_, ?_, fun _ ↦ ?_⟩
  · rw [hsat.received_concat, if_pos ⟨hok, hdav⟩, h.append_stored]
  · rw [hlen, h.toNat_read]
    omega
  · rw [hlen]
    rcases hlast with hshort | hfull
    · by_cases hfits : (x l).rcvFifo.val.length ≤ nbytes.toNat
      · exact Or.inr ⟨x, List.getLast?_concat, hok, by omega⟩
      · omega
    · rw [UInt16.le_iff_toNat_le, h.toNat_read] at hfull
      omega

/-- A transfer that goes on behind the packet of an answer has room for all of it. -/
theorem Room.more (h : Room nbytes read data)
    (hmore : ¬nbytes ≤ read + UInt16.ofNat (pktsize nbytes a)) :
    data ++ stored nbytes read a = data ++ a.rcvFifo.val ∧
      Room nbytes (read + UInt16.ofNat (pktsize nbytes a)) (data ++ a.rcvFifo.val) := by
  rw [UInt16.le_iff_toNat_le, h.toNat_read] at hmore
  have hsize : pktsize nbytes a = min a.rcvFifo.val.length nbytes.toNat := rfl
  have hlen : (data ++ a.rcvFifo.val).length = data.length + a.rcvFifo.val.length :=
    List.length_append
  constructor
  · rw [h.append_stored, List.take_of_length_le (by omega)]
  · exact ⟨h.int16, by rw [h.toNat_read]; omega, by omega⟩

/-- After one round an IN transfer ends, or goes on behind the bytes it was sent. -/
theorem inLoop_cases (hroom : Room nbytes read data)
    (h : inLoop l nakLimit nbytes (fuel + 1) pep read data script = some r) :
    ∃ used rest, script = used ++ rest ∧
      (rest = r.script ∧ Stored l nbytes pep.maxPktSize data used r ∨
      ∃ pep' read', pep'.maxPktSize = pep.maxPktSize ∧
        Room nbytes read' (data ++ received l used) ∧
        inLoop l nakLimit nbytes fuel pep' read' (data ++ received l used) rest = some r) := by
  cases hd : dispatchPkt l nakLimit script with
  | none => simp [inLoop, hd] at h
  | some res =>
    obtain ⟨a, rest⟩ := res
    obtain ⟨rs, x, rfl, rfl, hsat⟩ := dispatchPkt_cases hd
    refine ⟨rs ++ [x], rest, by rw [List.append_assoc, List.singleton_append], ?_⟩
    -- only a success with data carries a packet
    have hnone : ¬((x l).rcode = hrSuccess ∧ (x l).rcvDav = true) →
        received l (rs ++ [x]) = [] := fun hx ↦ by rw [hsat.received_concat, if_neg hx]
    by_cases htog : (x l).rcode = hrTogErr
    · rw [inLoop_togErr hd htog] at h
      have hnil := hnone fun hok ↦ absurd (htog.symm.trans hok.1) (by decide)
      rw [hnil, List.append_nil]
      exact Or.inr ⟨{ pep with bmRcvToggle := !(x l).rcvTogRd }, read, rfl, hroom, h⟩
    by_cases hok : (x l).rcode = hrSuccess
    · by_cases hdav : (x l).rcvDav = true
      · rw [inLoop_packet hd hok hdav] at h
        split at h
        · next hlast =>
          obtain rfl := Option.some.inj h
          exact Or.inl ⟨rfl, hroom.stored_last hsat hok hdav hlast⟩
        · next hmore =>
          rw [not_or] at hmore
          obtain ⟨hwhole, hroom'⟩ := hroom.more hmore.2
          rw [hwhole] at h
          rw [hsat.received_concat, if_pos ⟨hok, hdav⟩]
          exact Or.inr ⟨_, _, rfl, hroom', h⟩
      · rw [inLoop_noData hd hok (Bool.eq_false_iff.mpr hdav)] at h
        obtain rfl := Option.some.inj h
        exact Or.inl ⟨rfl, hroom.stored_error (hnone fun hx ↦ hdav hx.2) (by decide)⟩
    · rw [inLoop_error hd htog hok] at h
      obtain rfl := Option.some.inj h
      exact Or.inl ⟨rfl, hroom.stored_error (hnone fun hx ↦ hok hx.1) hok⟩

private theorem inLoop_stores (hroom : Room nbytes read data)
    (h : inLoop l nakLimit nbytes fuel pep read data script = some r) :
    ∃ used, script = used ++ r.script ∧ Stored l nbytes pep.maxPktSize data used r := by
  induction fuel generalizing pep read data script with
  | zero => simp [inLoop] at h
  | succ fuel ih =>
    obtain ⟨used, rest, rfl, ⟨rfl, hstored⟩ | ⟨pep', read', hpep, hroom', hrest⟩⟩ :=
      inLoop_cases hroom h
    · exact ⟨used, rfl, hstored⟩
    · obtain ⟨used', rfl, hstored⟩ := ih hroom' hrest
      rw [hpep] at hstored
      exact ⟨used ++ used', (List.append_assoc _ _ _).symm, hstored.append⟩

/-- Whatever the device does, an IN transfer stores the first `nbytes` bytes of the packets taken,
and its success means a short packet or a full room. -/
theorem inTransfer_stores {perAddr : UInt8} (hn : nbytes.toNat < 32768)
    (h : inTransfer perAddr pep nakLimit nbytes script = some r) :
    ∃ used, script = used ++ r.script ∧
      Stored ⟨perAddr, pep.epAddr, .tokIn⟩ nbytes pep.maxPktSize [] used r :=
  inLoop_stores ⟨hn, rfl, Nat.zero_le _⟩ h

/-- Five bytes for a room of four, after a toggle error. -/
theorem inTransfer_stores_room :
    ∃ r, inTransfer 1 ⟨1, 8, false, false, 1⟩ 1 4
        [fun _ ↦ ⟨hrTogErr, false, ⟨[], by decide⟩, false⟩,
          fun _ ↦ ⟨hrSuccess, true, ⟨[1, 2, 3, 4, 5], by decide⟩, false⟩] = some r ∧
      ∃ used, [fun _ ↦ ⟨hrTogErr, false, ⟨[], by decide⟩, false⟩,
          fun _ ↦ ⟨hrSuccess, true, ⟨[1, 2, 3, 4, 5], by decide⟩, false⟩] = used ++ r.script ∧
        Stored ⟨1, 1, .tokIn⟩ 4 8 [] used r := by
  refine ⟨_, rfl, ?_⟩
  exact @inTransfer_stores 1 _ 4 ⟨1, 8, false, false, 1⟩ _ 1 (by decide) rfl

/-- A dispatch with limits uses up at least one answer and at most `nakLimit + 2`. -/
theorem dispatchPkt_used (hlimit : nakLimit ≠ 0) (hlen : nakLimit.toNat + 2 ≤ script.length) :
    ∃ rs x rest, script = rs ++ x :: rest ∧ rs.length < nakLimit.toNat + 2 ∧
      dispatchPkt l nakLimit script = some (x l, rest) := by
  obtain ⟨⟨a, rest⟩, hd⟩ := dispatchPkt_isSome (l := l) hlimit hlen
  obtain ⟨rs, x, rfl, rfl, hsat⟩ := dispatchPkt_cases hd
  exact ⟨rs, x, rest, rfl, hsat.length_lt hlimit, hd⟩

private theorem inLoop_returns {rounds : Nat} (hlimit : nakLimit ≠ 0)
    (hroom : Room nbytes read data) (hpos : 0 < rounds)
    (hrounds : nbytes.toNat ≤ data.length + rounds * pep.maxPktSize.toNat)
    (hlen : (nakLimit.toNat + 2) * (rounds + togErrs l script) ≤ script.length)
    (hfuel : script.length ≤ fuel) :
    ∃ r, inLoop l nakLimit nbytes fuel pep read data script = some r := by
  induction fuel generalizing pep read data script rounds with
  | zero =>
    have hone : nakLimit.toNat + 2 ≤ (nakLimit.toNat + 2) * (rounds + togErrs l script) :=
      Nat.le_mul_of_pos_right _ (by omega)
    omega
  | succ fuel ih =>
    have hone : nakLimit.toNat + 2 ≤ (nakLimit.toNat + 2) * (rounds + togErrs l script) :=
      Nat.le_mul_of_pos_right _ (by omega)
    obtain ⟨rs, x, rest, rfl, hrs, hd⟩ := dispatchPkt_used (l := l) hlimit (hone.trans hlen)
    -- a round that goes on leaves answers for one round less
    have hrest : ∀ m, m + 1 ≤ rounds + togErrs l (rs ++ x :: rest) →
        (nakLimit.toNat + 2) * m ≤ rest.length := by
      intro m hm
      have := Nat.mul_le_mul_left (nakLimit.toNat + 2) hm
      rw [Nat.mul_succ] at this
      simp only [List.length_append, List.length_cons] at hlen
      omega
    have hfuel' : rest.length ≤ fuel := by
      simp only [List.length_append, List.length_cons] at hfuel
      omega
    have htogs : togErrs l (rs ++ x :: rest) = togErrs l rs + togErrs l [x] + togErrs l rest := by
      rw [← List.singleton_append, togErrs_append, togErrs_append, Nat.add_assoc]
    by_cases htog : (x l).rcode = hrTogErr
    · rw [inLoop_togErr hd htog]
      have hx : togErrs l [x] = 1 := by simp [togErrs, htog]
      exact ih hroom hpos hrounds (hrest _ (by omega)) hfuel'
    by_cases hok : (x l).rcode = hrSuccess
    · by_cases hdav : (x l).rcvDav = true
      · rw [inLoop_packet hd hok hdav]
        split
        · exact ⟨_, rfl⟩
        · next hmore =>
          rw [not_or] at hmore
          obtain ⟨hwhole, hroom'⟩ := hroom.more hmore.2
          have hsize : pktsize nbytes (x l) ≤ (x l).rcvFifo.val.length := Nat.min_le_left _ _
          have hdata : (data ++ (x l).rcvFifo.val).length =
              data.length + (x l).rcvFifo.val.length := List.length_append
          have hlt : data.length + pktsize nbytes (x l) < nbytes.toNat := by
            have := hmore.2
            rw [UInt16.le_iff_toNat_le, hroom.toNat_read] at this
            omega
          obtain ⟨k, rfl⟩ : ∃ k, rounds = k + 1 := ⟨rounds - 1, by omega⟩
          rw [Nat.succ_mul] at hrounds
          have hk : 0 < k := by
            rcases Nat.eq_zero_or_pos k with rfl | hk
            · omega
            · exact hk
          rw [hwhole]
          exact ih hroom' hk (by omega) (hrest _ (by omega)) hfuel'
      · rw [inLoop_noData hd hok (Bool.eq_false_iff.mpr hdav)]
        exact ⟨_, rfl⟩
    · rw [inLoop_error hd htog hok]
      exact ⟨_, rfl⟩

/-- With a limit on NAKs an IN transfer returns within so many launches for each packet its room
holds, and as many more for each toggle error. -/
theorem inTransfer_returns {perAddr : UInt8} (hlimit : nakLimit ≠ 0)
    (hmax : pep.maxPktSize ≠ 0) (hn : nbytes.toNat < 32768)
    (hlen : (nakLimit.toNat + 2) * (nbytes.toNat / pep.maxPktSize.toNat + 1 +
      togErrs ⟨perAddr, pep.epAddr, .tokIn⟩ script) ≤ script.length) :
    ∃ r, inTransfer perAddr pep nakLimit nbytes script = some r := by
  have hM : 0 < pep.maxPktSize.toNat := by
    rw [Nat.pos_iff_ne_zero, ← UInt8.toNat_zero, ne_eq, UInt8.toNat_inj]
    exact hmax
  refine inLoop_returns hlimit ⟨hn, rfl, Nat.zero_le _⟩ (Nat.succ_pos _) ?_ hlen le_rfl
  have := Nat.lt_div_mul_add hM (a := nbytes.toNat)
  rw [Nat.succ_mul, List.length_nil]
  omega

/-- A single NAK from an endpoint that is not waited for. -/
theorem inTransfer_returns_nak :
    ∃ r, inTransfer 1 ⟨1, 4, false, false, 1⟩ 1 4
      (List.replicate 6 fun _ ↦ ⟨hrNak, false, ⟨[], by decide⟩, false⟩) = some r :=
  inTransfer_returns (by decide) (by decide) (by decide) (by decide)

/-! ### Sending -/

variable {retryCount : UInt8} {nakCount : UInt16} {o : OutPacket} {out : OutResult}

/-- The loop goes on behind a packet that was acknowledged, or that the clock ran out on; it
breaks off with an error. -/
theorem outPacket_spec (h : outPacket l nakLimit retryCount nakCount pep script = some o) :
    o.pep.maxPktSize = pep.maxPktSize ∧
      if o.next then o.last.rcode = hrSuccess ∨ o.last.expired = true
      else o.last.rcode ≠ hrSuccess := by
  induction script generalizing retryCount nakCount pep with
  | nil => simp [outPacket] at h
  | cons x script ih =>
    rw [outPacket] at h
    by_cases hend : (x l).rcode = hrSuccess ∨ (x l).expired = true
    · rw [if_pos hend] at h
      obtain rfl := Option.some.inj h
      exact ⟨rfl, hend⟩
    have hstop : some (OutPacket.mk false (x l) pep script) = some o →
        o.pep.maxPktSize = pep.maxPktSize ∧
          if o.next then o.last.rcode = hrSuccess ∨ o.last.expired = true
          else o.last.rcode ≠ hrSuccess := by
      intro heq
      obtain rfl := Option.some.inj heq
      exact ⟨rfl, fun hok ↦ hend (Or.inl hok)⟩
    rw [if_neg hend] at h
    split at h
    · split at h
      · exact hstop h
      · exact ih h
    · split at h
      · split at h
        · exact hstop h
        · exact ih h
      · split at h
        · have hrest := ih h
          exact hrest
        · exact hstop h

/-- The bytes of a packet with its last answer, if that was an acknowledgement. -/
def ackedBytes (p : List UInt8 × Attempt) : List UInt8 := if p.2.rcode = hrSuccess then p.1 else []

/-- The bytes of the packets that were acknowledged. -/
def OutResult.acked (out : OutResult) : List UInt8 := out.lasts.flatMap ackedBytes

/-- A success sent all of the data, in packets each of which was acknowledged or given up. -/
private theorem outLoop_spec {perAddr rcode : UInt8} {sndTog : Bool} (hmax : pep.maxPktSize ≠ 0)
    (h : outLoop perAddr nakLimit fuel pep data rcode sndTog script = some out)
    (hok : out.rcode = hrSuccess) :
    out.lasts.flatMap Prod.fst = data ∧ ∀ p ∈ out.lasts, p.1 ≠ [] ∧
      (p.2.rcode = hrSuccess ∨ p.2.expired = true) := by
  induction fuel generalizing pep data rcode sndTog script out with
  | zero => simp [outLoop] at h
  | succ fuel ih =>
    by_cases hdata : data = []
    · rw [outLoop, if_pos hdata] at h
      obtain rfl := Option.some.inj h
      simp [hdata]
    simp only [outLoop, if_neg hdata] at h
    split at h
    · cases h
    · next o ho =>
      obtain ⟨hpep, hnext⟩ := outPacket_spec ho
      split at h
      · next hgo =>
        rw [if_pos hgo] at hnext
        obtain ⟨out', hrest, rfl⟩ := Option.map_eq_some_iff.mp h
        obtain ⟨hflat, hall⟩ := ih (hpep ▸ hmax) hrest hok
        have hM : pep.maxPktSize.toNat ≠ 0 := by
          rw [ne_eq, ← UInt8.toNat_zero, UInt8.toNat_inj]
          exact hmax
        have hne : data.take pep.maxPktSize.toNat ≠ [] := by
          rw [ne_eq, List.take_eq_nil_iff, not_or]
          exact ⟨hM, hdata⟩
        constructor
        · rw [List.flatMap_cons, hflat, List.take_append_drop]
        · exact List.forall_mem_cons.mpr ⟨⟨hne, hnext⟩, hall⟩
      · next hgo =>
        rw [if_neg hgo] at hnext
        obtain rfl := Option.some.inj h
        exact absurd hok hnext

private theorem length_ackedBytes_le (ps : List (List UInt8 × Attempt)) :
    (ps.flatMap ackedBytes).length ≤ (ps.flatMap Prod.fst).length := by
  induction ps with
  | nil => exact le_rfl
  | cons p ps ih =>
    have hp : (ackedBytes p).length ≤ p.1.length := by
      unfold ackedBytes
      split <;> simp
    rw [List.flatMap_cons, List.flatMap_cons, List.length_append, List.length_append]
    omega

private theorem flatMap_ackedBytes_iff {ps : List (List UInt8 × Attempt)}
    (hne : ∀ p ∈ ps, p.1 ≠ []) :
    ps.flatMap ackedBytes = ps.flatMap Prod.fst ↔ ∀ p ∈ ps, p.2.rcode = hrSuccess := by
  induction ps with
  | nil => simp
  | cons p ps ih =>
    rw [List.flatMap_cons, List.flatMap_cons, List.forall_mem_cons,
      ← ih fun q hq ↦ hne q (List.mem_cons_of_mem p hq)]
    by_cases hp : p.2.rcode = hrSuccess
    · rw [ackedBytes, if_pos hp, List.append_cancel_left_eq]
      exact (and_iff_right hp).symm
    · refine iff_of_false (fun heq ↦ ?_) fun h ↦ hp h.1
      have hlen := congrArg List.length heq
      have hle := length_ackedBytes_le ps
      have hpos := List.length_pos_iff.mpr (hne p List.mem_cons_self)
      rw [ackedBytes, if_neg hp, List.length_append, List.length_append, List.length_nil] at hlen
      omega

/-- An OUT transfer that reports success delivered its data exactly when the clock ran out on none
of its packets before they were acknowledged: a packet the clock runs out on is given up without a
word when a later one goes through. -/
theorem outTransfer_delivers {perAddr : UInt8} {sndTog : Bool}
    (h : outTransfer perAddr pep nakLimit data sndTog script = some out)
    (hok : out.rcode = hrSuccess) :
    out.acked = data ↔ ∀ p ∈ out.lasts, p.2.expired = true → p.2.rcode = hrSuccess := by
  rw [outTransfer] at h
  split at h
  · obtain rfl := Option.some.inj h
    exact absurd hok (show errorInvalidMaxPktSize ≠ hrSuccess by decide)
  · next hsize =>
    rw [not_or] at hsize
    have hmax : pep.maxPktSize ≠ 0 := fun hzero ↦ hsize.1 (by rw [hzero]; decide)
    obtain ⟨hflat, hall⟩ := outLoop_spec hmax h hok
    rw [OutResult.acked, ← hflat, flatMap_ackedBytes_iff fun p hp ↦ (hall p hp).1]
    constructor
    · exact fun hacked p hp _ ↦ hacked p hp
    · exact fun hkept p hp ↦ (hall p hp).2.elim id (hkept p hp)

/-- Two one-byte packets, the first of which is not acknowledged before the clock runs out. -/
theorem outTransfer_delivers_lost :
    ∃ out, outTransfer 1 ⟨2, 1, true, false, 15⟩ 32767 [7, 8] false
        [fun _ ↦ ⟨hrNak, false, ⟨[], by decide⟩, true⟩,
          fun _ ↦ ⟨hrSuccess, false, ⟨[], by decide⟩, true⟩] = some out ∧
      out.rcode = hrSuccess ∧ out.acked = [8] ∧
      (out.acked = [7, 8] ↔ ∀ p ∈ out.lasts, p.2.expired = true → p.2.rcode = hrSuccess) := by
  refine ⟨_, rfl, rfl, rfl, ?_⟩
  exact @outTransfer_delivers 32767
    [fun _ ↦ ⟨hrNak, false, ⟨[], by decide⟩, true⟩,
      fun _ ↦ ⟨hrSuccess, false, ⟨[], by decide⟩, true⟩]
    ⟨2, 1, true, false, 15⟩ [7, 8] _ 1 false rfl rfl

end MouseAide.Host
