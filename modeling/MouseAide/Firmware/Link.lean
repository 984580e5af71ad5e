import MouseAide.Firmware.Framing
import MouseAide.Translator.Parser

/-!
# The serial link

Library `MouseFirmware`. The sketch writes frames of four bytes,
`arduino_mouse_328p.ino:12–40`, and the 16U2 groups what it accepts by fours,
`arduino_mouse_16u2/Mouse.c:79–92,191–196`. No marker separates frames, so the decoder is
right exactly as long as the accepted stream starts every group where a frame starts.
-/

namespace MouseAide.Firmware

open MouseAide.Base MouseAide.Translator

/-! ### The stream in order, without overrun -/

/-- The bytes read are the accepted ones, in order, none skipped. -/
def InOrder (_ : Mcu) (o : List Obs) : Prop := readBytes o <+: accepted o

private theorem inOrder_quiet {s s' : Mcu} {o o' : List Obs} (h : InOrder s o)
    (hr : reads o' = []) : InOrder s' (o ++ o') := by
  unfold InOrder readBytes at *
  rw [reads_append, hr, List.append_nil, accepted_append]
  exact h.trans (List.prefix_append _ _)

private theorem prefix_concat_of_getElem? {α : Type} {l stream : List α} {x : α}
    (h : l <+: stream) (hx : stream[l.length]? = some x) : l ++ [x] <+: stream := by
  obtain ⟨rest, rfl⟩ := h
  rw [List.getElem?_append_right (Nat.le_refl _), Nat.sub_self] at hx
  obtain ⟨rest, rfl⟩ : ∃ tail, rest = x :: tail := by
    cases rest with
    | nil => simp at hx
    | cons y tail => exact ⟨tail, by simpa using hx⟩
  exact List.prefix_append_right_inj l |>.mpr (List.prefix_append [x] rest)

/-- A read that has not been lapped finds the next accepted byte. -/
private theorem inOrder_read {s s' : Mcu} {o : List Obs} {ind : Fin 4} (ha : Accounting s o)
    (hroom : NoOverrun s o) (h : InOrder s o) (hpc : s.pc = .remove ind .read) :
    InOrder s' (o ++ [.read ind (RingBuffer.removeRead s.ring)]) := by
  obtain ⟨-, hlt, hout⟩ := ha.at_read hpc
  have hbyte := ha.stores.removeRead_recent hout hlt hroom
  have hlen : (readBytes o).length = (reads o).length := List.length_map _
  rw [← hlen] at hbyte
  have hstep := prefix_concat_of_getElem? h hbyte
  unfold InOrder
  rw [readBytes_append, accepted_append]
  simpa [readBytes] using hstep

/-- Every step from a ring that is not overrun keeps the order. -/
theorem InOrder.step {s : Mcu} {o : List Obs} (h : InOrder s o) (ha : Accounting s o)
    (hroom : NoOverrun s o) (e : Event) : InOrder (step s e).1 (o ++ (step s e).2) := by
  have hcases := receive_cases s e
  generalize Firmware.step s e = r at *
  cases hcases with
  | insert b _ => exact inOrder_quiet h rfl
  | drop b _ => exact inOrder_quiet h rfl
  | other _ _ _ _ _ obs => exact inOrder_quiet h obs.reads_eq
  | claim _ _ _ => exact inOrder_quiet h rfl
  | remove _ ind removal pc =>
    cases removal with
    | read => exact inOrder_read ha hroom h pc
    | advance _ => exact inOrder_quiet h rfl
    | wrap _ => exact inOrder_quiet h rfl
    | decrement _ => exact inOrder_quiet h rfl
  | assignButton _ _ => exact inOrder_quiet h rfl
  | assignX _ _ => exact inOrder_quiet h rfl
  | assignY _ _ => exact inOrder_quiet h rfl

/-- A run without overrun reads the accepted bytes in order. -/
theorem inOrder {events : List Event} (hroom : firmware.Always NoOverrun events) :
    InOrder (firmware.state events) (firmware.trace events) := by
  apply Machine.invariant _ _ ((Machine.meets_reach accounting events).and hroom.meets)
  · exact List.nil_prefix
  · intro s o e h hok
    exact h.step hok.1 hok.2 e

/-- Without overrun the triples are the decoded groups of four accepted bytes, in order. -/
theorem assigned_prefix_accepted {events : List Event}
    (hroom : firmware.Always NoOverrun events) :
    assigned (firmware.trace events) <+:
      (quads (accepted (firmware.trace events))).map decode :=
  (assigned_prefix_decode events).trans ((quads_mono (inOrder hroom)).map decode)

/-! ### Round trip from the sketch's frames -/

/-- The triple the 16U2 is to see for a frame of the sketch: all but the wheel. -/
def triple (m : MouseReport) : MouseReportData := ⟨m.buttons, m.x, m.y⟩

/-- The four bytes of a frame as a block. -/
private def block (m : MouseReport) : UInt8 × UInt8 × UInt8 × UInt8 :=
  (m.buttons, m.x.toUInt8, m.y.toUInt8, m.wheel.toUInt8)

/-- Cutting the sketch's byte stream by fours and decoding recovers its frames. -/
theorem decode_quads_frames (frames : List MouseReport) :
    (quads (frames.flatMap MouseReport.toBytes)).map decode = frames.map triple := by
  have hdecode : decode ∘ block = triple := by
    funext m
    simp [decode, block, triple]
  have hquads := quads_flatMap block frames
  change quads (frames.flatMap MouseReport.toBytes) = _ at hquads
  rw [hquads, List.map_map, hdecode]

/-- The byte stream has four bytes a frame. -/
theorem length_flatMap_toBytes (frames : List MouseReport) :
    (frames.flatMap MouseReport.toBytes).length = 4 * frames.length :=
  length_flatMap_quadItems block frames

/-- The triples assigned are a prefix of the frames sent. -/
theorem assigned_prefix_frames {frames : List MouseReport} {events : List Event}
    (hlink : rxBytes events <+: frames.flatMap MouseReport.toBytes)
    (hconf : firmware.Meets ConfiguredAtRx events)
    (hroom : firmware.Always NoOverrun events) :
    assigned (firmware.trace events) <+: frames.map triple := by
  rw [← decode_quads_frames]
  apply (assigned_prefix_accepted hroom).trans
  rw [accepted_eq_rxBytes hconf]
  exact (quads_mono hlink).map decode

/-- When everything has arrived and the main loop finds fewer than four bytes, the triples
assigned are the frames sent. -/
theorem assigned_eq_frames {frames : List MouseReport} {events : List Event}
    (hall : rxBytes events = frames.flatMap MouseReport.toBytes)
    (hconf : firmware.Meets ConfiguredAtRx events) (hroom : firmware.Always NoOverrun events)
    (hpc : (firmware.state events).pc = .getCount)
    (hcount : RingBuffer.getCount (firmware.state events).ring < 4) :
    assigned (firmware.trace events) = frames.map triple := by
  have hlink : rxBytes events <+: frames.flatMap MouseReport.toBytes := by rw [hall]
  apply (assigned_prefix_frames hlink hconf hroom).eq_of_length_le
  have hexact := (accounting events).count_at_getCount hroom.last hpc
  have htaken := (accounting events).taken
  rw [hpc] at htaken
  have htaken : (reads (firmware.trace events)).length =
    4 * (assigned (firmware.trace events)).length := htaken
  have hlt : (RingBuffer.getCount (firmware.state events).ring).toNat < 4 := hcount
  rw [accepted_eq_rxBytes hconf, hall, length_flatMap_toBytes] at hexact
  rw [List.length_map]
  omega

/-- Whatever prefix of the sketch's frames has arrived, in whatever interleaving, the triples
assigned are a prefix of the frames sent; when all has arrived and the main loop finds fewer
than four bytes counted, they are all of them. -/
theorem serialRoundTrip (frames : List MouseReport) (events : List Event)
    (hlink : rxBytes events <+: frames.flatMap MouseReport.toBytes)
    (hconf : firmware.Meets ConfiguredAtRx events)
    (hroom : firmware.Always NoOverrun events) :
    assigned (firmware.trace events) <+: frames.map triple ∧
      (rxBytes events = frames.flatMap MouseReport.toBytes →
        (firmware.state events).pc = .getCount →
          RingBuffer.getCount (firmware.state events).ring < 4 →
            assigned (firmware.trace events) = frames.map triple) := by
  refine ⟨assigned_prefix_frames hlink hconf hroom, fun hall hpc hcount ↦ ?_⟩
  exact assigned_eq_frames hall hconf hroom hpc hcount

/-- Two frames, the second one overtaking the extraction of the first. -/
theorem serialRoundTrip_two :
    assigned (firmware.trace (enumeration ++ [1, 2, 3, 0].map .usart1Rx ++ List.replicate 4 turn ++
        [1, 0xFF, 0, 0].map .usart1Rx ++ List.replicate 44 turn)) =
      [⟨1, 2, 3, 0⟩, ⟨1, -1, 0, 0⟩].map triple :=
  (serialRoundTrip [⟨1, 2, 3, 0⟩, ⟨1, -1, 0, 0⟩] _ (by decide +kernel) (by decide +kernel)
    (by decide +kernel)).2 (by decide +kernel) (by decide +kernel) (by decide +kernel)

/-! ### Bytes dropped outside Configured -/

/-- Every triple assigned is the first three bytes of one emitted frame. -/
def SingleFrames (frames : List MouseReport) (events : List Event) : Prop :=
  ∀ r ∈ assigned (firmware.trace events), ∃ m ∈ frames, r = triple m

instance (frames : List MouseReport) (events : List Event) :
    Decidable (SingleFrames frames events) :=
  inferInstanceAs (Decidable (∀ _ ∈ _, _))

/-- The frames of the sketch on the line, each with the fate its four bytes share. -/
def frameFates (kept : List (MouseReport × Bool)) : List (UInt8 × Bool) :=
  kept.flatMap fun f ↦ f.1.toBytes.map fun b ↦ (b, f.2)

private theorem accepted_frameFates (kept : List (MouseReport × Bool)) :
    ((frameFates kept).filter (·.2)).map (·.1) =
      ((kept.filter (·.2)).map (·.1)).flatMap MouseReport.toBytes := by
  induction kept with
  | nil => rfl
  | cons f kept ih =>
    rw [frameFates, List.flatMap_cons, ← frameFates, List.filter_append, List.map_append, ih]
    obtain ⟨m, b⟩ := f
    cases b <;> rfl

/-- The triples are the groups of four consecutive accepted bytes, whatever becomes of the state
between two bytes. They are single frames in every run that accepts or drops the four bytes of each
frame together, and then they are the accepted frames in order. -/
theorem framing_wholeFrames (kept : List (MouseReport × Bool)) (events : List Event)
    (hroom : firmware.Always NoOverrun events) :
    assigned (firmware.trace events) <+:
        (quads (accepted (firmware.trace events))).map decode ∧
      (received (firmware.trace events) <+: frameFates kept →
        assigned (firmware.trace events) <+: ((kept.filter (·.2)).map (·.1)).map triple ∧
          SingleFrames (kept.map (·.1)) events) := by
  have hgroups := assigned_prefix_accepted hroom
  refine ⟨hgroups, fun hlink ↦ ?_⟩
  have hframes : assigned (firmware.trace events) <+:
      ((kept.filter (·.2)).map (·.1)).map triple := by
    rw [← decode_quads_frames, ← accepted_frameFates]
    apply hgroups.trans
    rw [accepted_eq_filter]
    exact (quads_mono ((hlink.filter _).map _)).map decode
  refine ⟨hframes, fun r hr ↦ ?_⟩
  obtain ⟨m, hm, rfl⟩ := List.mem_map.mp (hframes.subset hr)
  obtain ⟨f, hf, rfl⟩ := List.mem_map.mp hm
  exact ⟨f.1, List.mem_map_of_mem (List.mem_of_mem_filter hf), rfl⟩

/-- The frame of a left press is dropped before enumeration, the kick after it is kept. -/
def lateFrame : List Event :=
  [1, 0, 0, 0].map .usart1Rx ++ enumeration ++ [1, 0, 8, 0].map .usart1Rx ++
    List.replicate 30 turn

/-- The sketch's two frames of a left press, the device Configured from the third byte on. -/
def splitFrame : List Event :=
  [1, 0].map .usart1Rx ++ enumeration ++ [0, 0, 1, 0, 8, 0].map .usart1Rx ++
    List.replicate 30 turn

/-- The kept frame is the one triple; of the split frames the triple is a group all the same. -/
theorem framing_wholeFrames_late :
    (assigned (firmware.trace lateFrame) <+:
        (quads (accepted (firmware.trace lateFrame))).map decode ∧
      assigned (firmware.trace lateFrame) <+: [⟨1, 0, 8, 0⟩].map triple ∧
      SingleFrames [⟨1, 0, 0, 0⟩, ⟨1, 0, 8, 0⟩] lateFrame) ∧
    assigned (firmware.trace splitFrame) <+:
      (quads (accepted (firmware.trace splitFrame))).map decode := by
  have hlate := framing_wholeFrames [(⟨1, 0, 0, 0⟩, false), (⟨1, 0, 8, 0⟩, true)] lateFrame
    (by decide +kernel)
  have hsplit := framing_wholeFrames [] splitFrame (by decide +kernel)
  exact ⟨⟨hlate.1, hlate.2 (by decide +kernel)⟩, hsplit.1⟩

/-- The triple of the split frames mixes the two. -/
theorem framing_splitFrame_fails :
    rxBytes splitFrame <+: (parseAll (powerUp 8) [⟨1, 0, 0⟩]).serialBytes ∧
      firmware.Always NoOverrun splitFrame ∧
      ¬ SingleFrames (parseAll (powerUp 8) [⟨1, 0, 0⟩]).serial splitFrame := by
  decide +kernel

end MouseAide.Firmware
