import MouseAide.Base.Quads
import MouseAide.Firmware.Receive

/-!
# Groups of four bytes

Library `MouseFirmware`. The main loop groups the bytes it reads by fours and assigns the
first three of each group, `arduino_mouse_16u2/Mouse.c:79–92`. Since 4 divides both 128 and
256, every byte keeps its place in a group however often the ring is lapped or the count
wraps.
-/

namespace MouseAide.Firmware

open MouseAide.Base

/-! ### The decoder -/

/-- The triple a group of four bytes stands for; the wheel is discarded. -/
def decode (q : UInt8 × UInt8 × UInt8 × UInt8) : MouseReportData :=
  ⟨q.1, q.2.1.toInt8, q.2.2.1.toInt8⟩

/-- The three bytes of a report in memory. -/
def MouseReportData.bytes (r : MouseReportData) : List UInt8 :=
  [r.button, r.x.toUInt8, r.y.toUInt8]

/-- Bytes of the frame being extracted that have been read, at each program point. -/
def Pc.Part (newReport : MouseReportData) (part : List UInt8) : Pc → Prop
  | .remove ind .read => part = newReport.bytes.take ind
  | .remove ind (.advance data) | .remove ind (.wrap data) | .remove ind (.decrement data) =>
    part = newReport.bytes.take ind ++ [data]
  | .assignButton | .assignX | .assignY => ∃ wheel, part = newReport.bytes ++ [wheel]
  | _ => part = []

/-- The register at each program point, given the triple assigned last. -/
def Pc.register (newReport last : MouseReportData) : Pc → MouseReportData
  | .assignX => { last with button := newReport.button }
  | .assignY => { last with button := newReport.button, x := newReport.x }
  | _ => last

/-- The triple assigned last, or the zero register of a reset. -/
def lastTriple (triples : List MouseReportData) : MouseReportData :=
  triples.getLast?.getD .zero

@[simp] theorem lastTriple_concat (triples : List MouseReportData) (r : MouseReportData) :
    lastTriple (triples ++ [r]) = r := by
  simp [lastTriple]

/-- The bytes read so far are whole blocks and the part of the next one; the triples are the
decoded blocks. -/
structure Decoded (newReport mouseReport : MouseReportData) (pc : Pc) (bytes : List UInt8)
    (triples : List MouseReportData) : Prop where
  blocks : ∃ (blocks : List (UInt8 × UInt8 × UInt8 × UInt8)) (part : List UInt8),
    bytes = blocks.flatMap quadItems ++ part ∧ triples = blocks.map decode ∧
      pc.Part newReport part
  register : mouseReport = pc.register newReport (lastTriple triples)

namespace Decoded

variable {newReport mouseReport : MouseReportData} {pc pc' : Pc} {bytes : List UInt8}
  {triples : List MouseReportData}

private theorem part_idle (h : pc.extracting = false) (part : List UInt8) :
    pc.Part newReport part ↔ part = [] := by
  cases pc with
  | remove _ _ | assignButton | assignX | assignY => cases h
  | _ => exact Iff.rfl

/-- Outside an extraction no field of the register is ahead. -/
theorem register_idle (h : pc.extracting = false) (last : MouseReportData) :
    pc.register newReport last = last := by
  cases pc with
  | remove _ _ | assignButton | assignX | assignY => cases h
  | _ => rfl

/-- Going on from one idle point to another reads nothing. -/
theorem idle (h : Decoded newReport mouseReport pc bytes triples)
    (hpc : pc.extracting = false) (hpc' : pc'.extracting = false) :
    Decoded newReport mouseReport pc' bytes triples := by
  obtain ⟨⟨blocks, part, hb, ht, hp⟩, hr⟩ := h
  rw [part_idle hpc] at hp
  rw [register_idle hpc] at hr
  exact ⟨⟨blocks, part, hb, ht, (part_idle hpc' part).mpr hp⟩,
    hr.trans (register_idle hpc' _).symm⟩

/-- A byte read from the ring extends the part. -/
theorem read {ind : Fin 4} (h : Decoded newReport mouseReport (.remove ind .read) bytes triples)
    (data : UInt8) :
    Decoded newReport mouseReport (.remove ind (.advance data)) (bytes ++ [data]) triples := by
  obtain ⟨⟨blocks, part, hb, ht, hp⟩, hr⟩ := h
  refine ⟨⟨blocks, part ++ [data], ?_, ht, congrArg (· ++ [data]) hp⟩, hr⟩
  rw [hb, List.append_assoc]

/-- The byte removed goes to its field, and the next one is due. -/
theorem decrement {ind : Fin 4} {data : UInt8}
    (h : Decoded newReport mouseReport (.remove ind (.decrement data)) bytes triples) :
    Decoded (newReport.setByte ind data) mouseReport (afterRemove ind) bytes triples := by
  obtain ⟨⟨blocks, part, hb, ht, hp⟩, hr⟩ := h
  refine ⟨⟨blocks, part, hb, ht, ?_⟩, ?_⟩
  · match ind with
    | 0 => exact hp
    | 1 => exact hp
    | 2 => exact hp
    | 3 => exact ⟨data, hp⟩
  · match ind with
    | 0 => exact hr
    | 1 => exact hr
    | 2 => exact hr
    | 3 => exact hr

/-- The button is assigned first. -/
theorem assignButton (h : Decoded newReport mouseReport .assignButton bytes triples) :
    Decoded newReport { mouseReport with button := newReport.button } .assignX bytes triples :=
  ⟨h.blocks, by rw [h.register]; rfl⟩

/-- The horizontal field is assigned next. -/
theorem assignX (h : Decoded newReport mouseReport .assignX bytes triples) :
    Decoded newReport { mouseReport with x := newReport.x } .assignY bytes triples :=
  ⟨h.blocks, by rw [h.register]; rfl⟩

/-- The last assignment turns the block into a triple. -/
theorem assign (h : Decoded newReport mouseReport .assignY bytes triples) :
    Decoded newReport { mouseReport with y := newReport.y } .hidTask bytes
      (triples ++ [{ mouseReport with y := newReport.y }]) := by
  obtain ⟨⟨blocks, part, hb, ht, wheel, hp⟩, hr⟩ := h
  have hnew : { mouseReport with y := newReport.y } = newReport := by rw [hr]; rfl
  rw [hnew]
  refine ⟨⟨blocks ++ [(newReport.button, newReport.x.toUInt8, newReport.y.toUInt8, wheel)], [],
    ?_, ?_, rfl⟩, (lastTriple_concat _ _).symm⟩
  · rw [hb, hp, List.flatMap_append, List.append_nil]
    rfl
  · rw [ht, List.map_append]
    simp [decode]

end Decoded

/-- Bytes read from the ring so far. -/
def readBytes (o : List Obs) : List UInt8 := (reads o).map (·.2)

@[simp] theorem readBytes_append (o o' : List Obs) :
    readBytes (o ++ o') = readBytes o ++ readBytes o' := by
  simp [readBytes]

/-- The decoder's account of a trace at the program point of a state. -/
def Decoding (s : Mcu) (o : List Obs) : Prop :=
  Decoded s.newReport s.mouseReport s.pc (readBytes o) (assigned o)

/-- Every step keeps the decoder's account. -/
theorem Decoding.step {s : Mcu} {o : List Obs} (h : Decoding s o) (e : Event) :
    Decoding (step s e).1 (o ++ (step s e).2) := by
  have hcases := receive_cases s e
  unfold Decoding at *
  generalize Firmware.step s e = r at *
  cases hcases with
  | other _ _ newReport mouseReport pc obs =>
    simp only [readBytes, reads_append, assigned_append, obs.reads_eq, obs.assigned_eq,
      List.append_nil, newReport, mouseReport]
    rcases pc with hpc | ⟨h1, h2⟩
    · rw [hpc]
      exact h
    · exact h.idle h1 h2
  | insert b _ => simpa [readBytes] using h
  | drop b _ => simpa [readBytes] using h
  | claim _ pc _ =>
    rw [pc] at h
    simpa [readBytes] using (⟨h.blocks, h.register⟩ : Decoded _ _ (.remove 0 .read) _ _)
  | remove _ ind removal pc =>
    rw [pc] at h
    cases removal with
    | read => simpa [readBytes, removeStep] using h.read (RingBuffer.removeRead s.ring)
    | advance data =>
      simpa [readBytes, removeStep] using
        (⟨h.blocks, h.register⟩ : Decoded _ _ (.remove ind (.wrap data)) _ _)
    | wrap data =>
      simpa [readBytes, removeStep] using
        (⟨h.blocks, h.register⟩ : Decoded _ _ (.remove ind (.decrement data)) _ _)
    | decrement data => simpa [readBytes, removeStep] using h.decrement
  | assignButton _ pc =>
    rw [pc] at h
    simpa [readBytes] using h.assignButton
  | assignX _ pc =>
    rw [pc] at h
    simpa [readBytes] using h.assignX
  | assignY _ pc =>
    rw [pc] at h
    simpa [readBytes] using h.assign

/-- The decoder's account holds after every run. -/
theorem decoding (events : List Event) :
    Decoding (firmware.state events) (firmware.trace events) :=
  Machine.invariant_all ⟨⟨[], [], rfl, rfl, rfl⟩, rfl⟩ (fun _ _ e h ↦ h.step e) events

/-- Outside an extraction the register holds the triple assigned last. -/
theorem Decoding.register_of_idle {s : Mcu} {o : List Obs} (h : Decoding s o)
    (hpc : s.pc.extracting = false) : s.mouseReport = lastTriple (assigned o) :=
  h.register.trans (Decoded.register_idle hpc _)

/-- The triples are the decoded groups of the bytes read, but for a group just completed. -/
theorem assigned_prefix_decode (events : List Event) :
    assigned (firmware.trace events) <+:
      (quads (readBytes (firmware.trace events))).map decode := by
  obtain ⟨⟨blocks, part, hb, ht, -⟩, -⟩ := decoding events
  rw [hb, ht, quads_append _ ⟨_, length_flatMap_quadItems (fun q ↦ q) blocks⟩,
    quads_flatMap (fun q ↦ q) blocks, List.map_id', List.map_append]
  exact List.prefix_append _ _

/-! ### Alignment under any backlog -/

/-- Every byte read is an accepted byte of its own residue, at its own place in a frame. -/
def Aligned (_ : Mcu) (o : List Obs) : Prop :=
  ∀ (k : Nat) (ind : Fin 4) (b : UInt8), (reads o)[k]? = some (ind, b) →
    (ind : Nat) = k % 4 ∧ ∃ p : Nat, p % 128 = k % 128 ∧ (accepted o)[p]? = some b

private theorem aligned_quiet {s s' : Mcu} {o o' : List Obs} (h : Aligned s o)
    (hr : reads o' = []) : Aligned s' (o ++ o') := by
  intro k ind b hk
  rw [reads_append, hr, List.append_nil] at hk
  obtain ⟨hind, p, hp, hb⟩ := h k ind b hk
  refine ⟨hind, p, hp, ?_⟩
  rw [accepted_append]
  exact List.getElem?_append_left (List.getElem?_eq_some_iff.mp hb).1 ▸ hb

/-- A read finds its byte at its own residue even when it has been lapped. -/
private theorem aligned_read {s s' : Mcu} {o : List Obs} {ind : Fin 4} (ha : Accounting s o)
    (h : Aligned s o) (hpc : s.pc = .remove ind .read) :
    Aligned s' (o ++ [.read ind (RingBuffer.removeRead s.ring)]) := by
  obtain ⟨hind, hlt, hout⟩ := ha.at_read hpc
  obtain ⟨p, hp, hb⟩ := ha.stores.removeRead_lapped (by decide) hout hlt
  intro k i b hk
  rw [reads_append, reads_cons, reads_nil, List.append_nil] at hk
  rw [accepted_append, accepted_cons, accepted_nil, List.append_nil, List.append_nil]
  rcases Nat.lt_or_ge k (reads o).length with hlt | hge
  · rw [List.getElem?_append_left hlt] at hk
    exact h k i b hk
  · have hk' : k = (reads o).length := by
      have := (List.getElem?_eq_some_iff.mp hk).1
      simp only [List.length_append, List.length_cons, List.length_nil] at this
      omega
    subst hk'
    rw [List.getElem?_concat_length] at hk
    obtain ⟨rfl, rfl⟩ := Prod.mk.inj (Option.some.inj hk)
    exact ⟨hind.symm, p, hp, hb⟩

/-- Every step keeps the bytes aligned. -/
theorem Aligned.step {s : Mcu} {o : List Obs} (h : Aligned s o) (ha : Accounting s o)
    (e : Event) : Aligned (step s e).1 (o ++ (step s e).2) := by
  have hcases := receive_cases s e
  generalize Firmware.step s e = r at *
  cases hcases with
  | insert b _ => exact aligned_quiet h rfl
  | drop b _ => exact aligned_quiet h rfl
  | other _ _ _ _ _ obs => exact aligned_quiet h obs.reads_eq
  | claim _ _ _ => exact aligned_quiet h rfl
  | remove _ ind removal pc =>
    cases removal with
    | read => exact aligned_read ha h pc
    | advance _ => exact aligned_quiet h rfl
    | wrap _ => exact aligned_quiet h rfl
    | decrement _ => exact aligned_quiet h rfl
  | assignButton _ _ => exact aligned_quiet h rfl
  | assignX _ _ => exact aligned_quiet h rfl
  | assignY _ _ => exact aligned_quiet h rfl

/-- The bytes are aligned after every run. -/
theorem aligned (events : List Event) :
    Aligned (firmware.state events) (firmware.trace events) := by
  apply Machine.invariant _ _ (Machine.meets_reach accounting events)
  · intro k ind b hk
    simp at hk
  · intro s o e h ha
    exact h.step ha e

/-- From reset and under any backlog, the reads never pass the bytes received, stand at a
multiple of four whenever the main loop looks at the count, and every byte read for place
`ind` of a frame is a received byte at a position congruent to `ind`. The reads `4 k` to
`4 k + 2` are the three bytes of the `k`-th triple. -/
theorem frameAlignment (events : List Event) (hconf : firmware.Meets ConfiguredAtRx events) :
    (reads (firmware.trace events)).length ≤ (rxBytes events).length ∧
      (∀ pre, pre <+: events → (firmware.state pre).pc = .getCount →
        4 ∣ (reads (firmware.trace pre)).length) ∧
      (∀ (k : Nat) (ind : Fin 4) (b : UInt8),
        (reads (firmware.trace events))[k]? = some (ind, b) →
          (ind : Nat) = k % 4 ∧ ∃ p : Nat, p % 4 = ind ∧ (rxBytes events)[p]? = some b) ∧
      ∀ (k : Nat) (r : MouseReportData), (assigned (firmware.trace events))[k]? = some r →
        ∃ wheel, ((readBytes (firmware.trace events)).drop (4 * k)).take 4 =
          r.bytes ++ [wheel] := by
  refine ⟨?_, ?_, ?_, ?_⟩
  · have h := accounting events
    have htaken := h.taken
    have hclaimed := h.claimed
    have hle := Pc.taken_le_claimed (firmware.state events).pc
    rw [accepted_eq_rxBytes hconf] at hclaimed
    omega
  · intro pre _ hpc
    have h := (accounting pre).taken
    rw [hpc] at h
    exact ⟨_, h⟩
  · intro k ind b hk
    obtain ⟨hind, p, hp, hb⟩ := aligned events k ind b hk
    rw [accepted_eq_rxBytes hconf] at hb
    exact ⟨hind, p, by omega, hb⟩
  · intro k r hk
    obtain ⟨⟨blocks, part, hb, ht, -⟩, -⟩ := decoding events
    rw [ht, List.getElem?_map] at hk
    obtain ⟨q, hq, rfl⟩ := Option.map_eq_some_iff.mp hk
    refine ⟨q.2.2.2, ?_⟩
    rw [hb, take_drop_flatMap_quadItems hq]
    simp [decode, MouseReportData.bytes, quadItems]

/-- Two frames more than the ring holds, then one frame extracted. -/
def lapped : List Event :=
  enumeration ++ (List.range 136).map (fun i ↦ .usart1Rx (UInt8.ofNat i)) ++
    List.replicate 24 turn

/-- The frame extracted is the thirty-third, every byte in its place. -/
theorem frameAlignment_lapped :
    assigned (firmware.trace lapped) = [⟨128, -127, -126⟩] ∧
      (reads (firmware.trace lapped)).length ≤ (rxBytes lapped).length ∧
      (∀ pre, pre <+: lapped → (firmware.state pre).pc = .getCount →
        4 ∣ (reads (firmware.trace pre)).length) ∧
      (∀ (k : Nat) (ind : Fin 4) (b : UInt8),
        (reads (firmware.trace lapped))[k]? = some (ind, b) →
          (ind : Nat) = k % 4 ∧ ∃ p : Nat, p % 4 = ind ∧ (rxBytes lapped)[p]? = some b) ∧
      ∀ (k : Nat) (r : MouseReportData), (assigned (firmware.trace lapped))[k]? = some r →
        ∃ wheel, ((readBytes (firmware.trace lapped)).drop (4 * k)).take 4 =
          r.bytes ++ [wheel] :=
  ⟨by decide +kernel, frameAlignment lapped (by decide +kernel)⟩

end MouseAide.Firmware
