import MouseAide.Firmware.Link
import MouseAide.Firmware.Overrun
import MouseAide.Firmware.Reports

/-!
# Progress of the main loop

Library `MouseFirmware`. Left alone by the bus, the main loop of
`arduino_mouse_16u2/Mouse.c:78–96` always comes round: it empties the ring down to less than
a frame, assigns every frame that has arrived and offers the register to the host. So every
sequence of frames has a run that assigns them all and delivers the last.
-/

namespace MouseAide.Firmware

open MouseAide.Base MouseAide.Translator

/-! ### A main loop left alone -/

/-- A standard request is being carried out. -/
def Pc.requesting : Pc → Bool
  | .setAddress _ | .setConfiguration | .configurationChanged => true
  | _ => false

/-- Configured, with no request under way that could change that. -/
def Serving (s : Mcu) : Prop := s.usb.deviceState = .configured ∧ s.pc.requesting = false

instance (s : Mcu) : Decidable (Serving s) := inferInstanceAs (Decidable (_ ∧ _))

/-- Statements left of one `RingBuffer_Remove`, besides the next one. -/
def Removal.rank : Removal → Nat
  | .read => 3
  | .advance _ => 2
  | .wrap _ => 1
  | .decrement _ => 0

/-- Turns left to the next `RingBuffer_GetCount` at most. -/
def Pc.rank : Pc → Nat
  | .remove ind removal => 8 + 4 * (3 - ind) + removal.rank
  | .assignButton => 7
  | .assignX => 6
  | .assignY => 5
  | .hidTask => 4
  | .hidCreate => 3
  | .hidSend _ _ => 2
  | .usbTask => 1
  | _ => 0

private theorem afterRemove_rank (ind : Fin 4) :
    (afterRemove ind).rank < 8 + 4 * (3 - ind) ∧ (afterRemove ind).requesting = false ∧
      (afterRemove ind).claimed = 4 := by
  revert ind
  decide

/-! ### What a turn does -/

section Turn

variable {s : Mcu}

/-- The top of the loop claims a frame or goes on to the HID task. -/
theorem turn_getCount (hpc : s.pc = .getCount) :
    step s turn =
      ({ s with pc := if 4 ≤ RingBuffer.getCount s.ring then .remove 0 .read else .hidTask },
        [.counted (RingBuffer.getCount s.ring)]) := by
  simp [step, turn, mainStep, hpc]

/-- The writable endpoint of a configured device lets the HID task begin. -/
theorem turn_hidTask (hpc : s.pc = .hidTask) (hconf : s.usb.deviceState = .configured) :
    step s turn = ({ s with pc := .hidCreate }, []) := by
  simp [step, turn, mainStep, hpc, hconf]

/-- The register is compared and copied. -/
theorem turn_hidCreate (hpc : s.pc = .hidCreate) :
    step s turn =
      ({ s with
          prevReportINBuffer := s.mouseReport
          pc := .hidSend s.mouseReport
            (s.mouseReport != s.prevReportINBuffer || s.hid.idlePeriodElapsed) }, []) := by
  simp [step, turn, mainStep, hpc, hidCreate, createHIDReport]

/-- The report is sent or found to be the host's already. -/
theorem turn_hidSend {data : MouseReportData} {send : Bool} (hpc : s.pc = .hidSend data send) :
    step s turn =
      ({ s with
          hid.idleMSRemaining := if send then s.hid.idleCount else s.hid.idleMSRemaining
          pc := .usbTask }, (if send then [.inReport data] else []) ++ [.serviced]) := by
  cases send with
  | true => simp [step, turn, mainStep, hpc, hidSend]
  | false => simp [step, turn, mainStep, hpc, hidSend]

/-- Without a setup packet the USB task has nothing to do. -/
theorem turn_usbTask (hpc : s.pc = .usbTask) (hconf : s.usb.deviceState = .configured) :
    step s turn = ({ s with pc := .getCount }, []) := by
  simp [step, turn, mainStep, usbTask, hpc, hconf]

end Turn

/-- The cases of a turn in a serving main loop: it declines or claims a frame at the top of
the loop, and elsewhere comes nearer to it without claiming or accepting anything. -/
inductive TurnCase (s : Mcu) : Mcu × List Obs → Prop where
  | decline (pc : s.pc = .getCount) (count : ¬ 4 ≤ RingBuffer.getCount s.ring) :
      TurnCase s ({ s with pc := .hidTask }, [.counted (RingBuffer.getCount s.ring)])
  | claim (pc : s.pc = .getCount) (count : 4 ≤ RingBuffer.getCount s.ring) :
      TurnCase s ({ s with pc := .remove 0 .read }, [.counted (RingBuffer.getCount s.ring)])
  | approach {s' : Mcu} {o : List Obs} (serving : Serving s') (rank : s'.pc.rank < s.pc.rank)
      (accepted : accepted o = [])
      (claimed : 4 * (assigned o).length + s'.pc.claimed = s.pc.claimed) : TurnCase s (s', o)

/-- A statement elsewhere in the loop, given by the program points around it. -/
private theorem TurnCase.between {s s' : Mcu} {o : List Obs} {pc pc' : Pc} (hpc : s.pc = pc)
    (hpc' : s'.pc = pc') (hconf : s'.usb.deviceState = .configured)
    (hreq : pc'.requesting = false) (rank : pc'.rank < pc.rank) (accepted : accepted o = [])
    (claimed : 4 * (assigned o).length + pc'.claimed = pc.claimed) : TurnCase s (s', o) := by
  subst hpc hpc'
  exact .approach ⟨hconf, hreq⟩ rank accepted claimed

private theorem removeStep_turn {s : Mcu} (hconf : s.usb.deviceState = .configured)
    {ind : Fin 4} {removal : Removal} (hpc : s.pc = .remove ind removal) :
    TurnCase s (removeStep ind removal s) := by
  cases removal with
  | read => exact .between hpc rfl hconf rfl (Nat.lt_succ_self _) rfl rfl
  | advance _ => exact .between hpc rfl hconf rfl (Nat.lt_succ_self _) rfl rfl
  | wrap _ => exact .between hpc rfl hconf rfl (Nat.lt_succ_self _) rfl rfl
  | decrement _ =>
    obtain ⟨hrank, hreq, hclaimed⟩ := afterRemove_rank ind
    exact .between hpc rfl hconf hreq hrank rfl ((Nat.zero_add _).trans hclaimed)

/-- A turn of a serving main loop has one of the effects listed. -/
theorem turn_cases {s : Mcu} (h : Serving s) : TurnCase s (step s turn) := by
  obtain ⟨hconf, hreq⟩ := h
  cases hpc : s.pc with
  | getCount =>
    rw [turn_getCount hpc]
    split
    · next hc => exact .claim hpc hc
    · next hc => exact .decline hpc hc
  | remove ind removal =>
    have hstep : step s turn = removeStep ind removal s := by simp [step, turn, mainStep, hpc]
    rw [hstep]
    exact removeStep_turn hconf hpc
  | assignButton =>
    simp only [step, turn, mainStep, hpc]
    exact .between hpc rfl hconf rfl (Nat.lt_succ_self _) rfl rfl
  | assignX =>
    simp only [step, turn, mainStep, hpc]
    exact .between hpc rfl hconf rfl (Nat.lt_succ_self _) rfl rfl
  | assignY =>
    simp only [step, turn, mainStep, hpc]
    exact .between hpc rfl hconf rfl (Nat.lt_succ_self _) rfl rfl
  | hidTask =>
    rw [turn_hidTask hpc hconf]
    exact .between hpc rfl hconf rfl (Nat.lt_succ_self _) rfl rfl
  | hidCreate =>
    rw [turn_hidCreate hpc]
    exact .between hpc rfl hconf rfl (Nat.lt_succ_self _) rfl rfl
  | hidSend data send =>
    rw [turn_hidSend hpc]
    cases send with
    | true => exact .between hpc rfl hconf rfl (Nat.lt_succ_self _) rfl rfl
    | false => exact .between hpc rfl hconf rfl (Nat.lt_succ_self _) rfl rfl
  | usbTask =>
    rw [turn_usbTask hpc hconf]
    exact .between hpc rfl hconf rfl (Nat.lt_succ_self _) rfl rfl
  -- A request would have to be under way.
  | setAddress _ | setConfiguration | configurationChanged =>
    rw [hpc] at hreq
    cases hreq

/-- A turn keeps the main loop serving. -/
theorem TurnCase.serving {s : Mcu} {r : Mcu × List Obs} (h : Serving s) (hcase : TurnCase s r) :
    Serving r.1 := by
  cases hcase with
  | decline _ _ => exact ⟨h.1, rfl⟩
  | claim _ _ => exact ⟨h.1, rfl⟩
  | approach serving _ _ _ => exact serving

/-- A turn accepts nothing. -/
theorem TurnCase.accepted_eq {s : Mcu} {r : Mcu × List Obs} (hcase : TurnCase s r) :
    accepted r.2 = [] := by
  cases hcase with
  | decline _ _ => rfl
  | claim _ _ => rfl
  | approach _ _ accepted _ => exact accepted

/-! ### Undisturbed runs -/

/-- Configured at every byte, never overrun, reports asked for whole, and serving at the end. -/
structure Undisturbed (events : List Event) : Prop where
  configured : firmware.Meets ConfiguredAtRx events
  room : firmware.Always NoOverrun events
  full : firmware.Meets FullGetReport events
  serving : Serving (firmware.state events)

namespace Undisturbed

variable {events : List Event}

/-- The enumeration of the device disturbs nothing. -/
theorem enumeration : Undisturbed enumeration where
  configured := by decide
  room := by decide
  full := by decide
  serving := by decide

/-- Another turn disturbs nothing. -/
theorem turn (h : Undisturbed events) : Undisturbed (events ++ [turn]) := by
  have hcase := turn_cases h.serving
  constructor
  · exact Machine.meets_concat.mpr ⟨h.configured, nofun⟩
  · refine Machine.always_concat.mpr ⟨h.room, ?_⟩
    have hroom := h.room.last
    have hquiet := lengths_quiet hcase.accepted_eq
    unfold NoOverrun at *
    omega
  · refine Machine.meets_concat.mpr ⟨h.full, fun hw r he _ hsetup _ ↦ ?_⟩
    cases he
    cases hsetup
  · rw [Machine.state_concat]
    exact hcase.serving h.serving

/-- Any number of turns disturbs nothing. -/
theorem turns (h : Undisturbed events) (n : Nat) :
    Undisturbed (events ++ List.replicate n Firmware.turn) := by
  induction n with
  | zero => simpa using h
  | succ n ih =>
    rw [List.replicate_succ', ← List.append_assoc]
    exact ih.turn

/-- A byte disturbs nothing as long as the ring has room for it. -/
theorem receive (h : Undisturbed events) (b : UInt8)
    (hroom : (accepted (firmware.trace events)).length <
      (reads (firmware.trace events)).length + 128) : Undisturbed (events ++ [.usart1Rx b]) := by
  have hconf := h.serving.1
  obtain ⟨haccepted, hreads⟩ := lengths_rx b hconf
  constructor
  · exact Machine.meets_concat.mpr ⟨h.configured, fun _ _ ↦ hconf⟩
  · refine Machine.always_concat.mpr ⟨h.room, ?_⟩
    unfold NoOverrun
    omega
  · exact Machine.meets_concat.mpr ⟨h.full, nofun⟩
  · rw [Machine.state_concat]
    change Serving (usart1Rx b _).1
    rw [usart1Rx, if_pos hconf]
    exact h.serving

/-- The same for any number of bytes in a row. -/
theorem receiveAll (h : Undisturbed events) (bytes : List UInt8)
    (hroom : (accepted (firmware.trace events)).length + bytes.length ≤
      (reads (firmware.trace events)).length + 128) :
    Undisturbed (events ++ bytes.map .usart1Rx) := by
  induction bytes generalizing events with
  | nil => simpa using h
  | cons b bytes ih =>
    rw [List.length_cons] at hroom
    obtain ⟨haccepted, hreads⟩ := lengths_rx b h.serving.1
    have hnext := ih (h.receive b (by omega)) (by omega)
    rw [List.append_assoc] at hnext
    exact hnext

end Undisturbed

/-! ### The ring runs empty and the host is served -/

/-- The main loop is at the top and finds less than a frame. -/
def Drained (s : Mcu) : Prop := s.pc = .getCount ∧ RingBuffer.getCount s.ring < 4

instance (s : Mcu) : Decidable (Drained s) := inferInstanceAs (Decidable (_ ∧ _))

/-- Turns left at most until the ring is drained: a frame not yet claimed takes fewer than
four times 24 of them. -/
private def backlogRank (s : Mcu) (o : List Obs) : Nat :=
  24 * ((accepted o).length - (4 * (assigned o).length + s.pc.claimed)) + s.pc.rank

/-- Until the ring is drained every turn lowers the rank. -/
private theorem backlogRank_turn {s : Mcu} {o : List Obs} (hserving : Serving s)
    (ha : Accounting s o) (hnot : ¬ Drained s) :
    backlogRank (step s turn).1 (o ++ (step s turn).2) < backlogRank s o := by
  have hcase := turn_cases hserving
  have hclaimed := (ha.step turn).claimed
  have haccepted : accepted (o ++ (step s turn).2) = accepted o := by
    rw [accepted_append, hcase.accepted_eq, List.append_nil]
  unfold backlogRank
  rw [haccepted, assigned_append, List.length_append] at hclaimed ⊢
  generalize step s turn = r at *
  cases hcase with
  | decline pc count => exact absurd ⟨pc, UInt8.not_le.mp count⟩ hnot
  | claim pc _ =>
    -- The frame claimed pays for the turns of its extraction.
    have hbefore : s.pc.claimed = 0 ∧ s.pc.rank = 0 := by
      rw [pc]
      exact ⟨rfl, rfl⟩
    have hafter : (Pc.remove 0 .read).claimed = 4 ∧ (Pc.remove 0 .read).rank = 23 := ⟨rfl, rfl⟩
    have hnone : (assigned [.counted (RingBuffer.getCount s.ring)]).length = 0 := rfl
    dsimp only at *
    omega
  | approach _ rank _ hkept =>
    dsimp only at *
    omega

/-- Turns alone drain the ring. -/
theorem exists_drained {events : List Event} (h : Undisturbed events) :
    ∃ n, Undisturbed (events ++ List.replicate n turn) ∧
      Drained (firmware.state (events ++ List.replicate n turn)) := by
  have hrank (events : List Event) (h : Undisturbed events)
      (hnot : ¬ Drained (firmware.state events)) : Undisturbed (events ++ [turn]) ∧
        backlogRank (firmware.state (events ++ [turn])) (firmware.trace (events ++ [turn])) <
          backlogRank (firmware.state events) (firmware.trace events) := by
    rw [Machine.state_concat, Machine.trace_concat]
    exact ⟨h.turn, backlogRank_turn h.serving (accounting events) hnot⟩
  exact Machine.exists_replicate
    (fun events ↦ backlogRank (firmware.state events) (firmware.trace events)) hrank h

private theorem run_turn {events : List Event} {s s' : Mcu} {o : List Obs}
    (hs : firmware.state events = s) (hturn : step s turn = (s', o)) :
    firmware.state (events ++ [turn]) = s' ∧
      firmware.trace (events ++ [turn]) = firmware.trace events ++ o := by
  subst hs
  rw [Machine.state_concat, Machine.trace_concat]
  change (step _ _).1 = _ ∧ _ ++ (step _ _).2 = _
  rw [hturn]
  exact ⟨rfl, rfl⟩

/-- One more pass of a drained main loop serves the host and leaves it drained. -/
theorem served_of_drained {events : List Event} (hserving : Serving (firmware.state events))
    (hd : Drained (firmware.state events)) :
    Drained (firmware.state (events ++ List.replicate 5 turn)) ∧
      served (firmware.trace (events ++ List.replicate 5 turn)) = true := by
  have hconf := hserving.1
  have hpass : events ++ List.replicate 5 turn =
      events ++ [turn] ++ [turn] ++ [turn] ++ [turn] ++ [turn] := by simp
  have hcount := UInt8.not_le.mpr hd.2
  obtain ⟨hs, ht₁⟩ := run_turn rfl (turn_getCount hd.1)
  rw [if_neg hcount] at hs
  obtain ⟨hs, ht₂⟩ := run_turn hs (turn_hidTask rfl hconf)
  obtain ⟨hs, ht₃⟩ := run_turn hs (turn_hidCreate rfl)
  obtain ⟨hs, ht₄⟩ := run_turn hs (turn_hidSend rfl)
  obtain ⟨hs, ht₅⟩ := run_turn hs (turn_usbTask rfl hconf)
  rw [hpass, hs, ht₅, ht₄, List.append_nil, ← List.append_assoc, served_concat]
  exact ⟨⟨rfl, hd.2⟩, rfl⟩

/-! ### Everything that arrives is delivered -/

private theorem rxBytes_turns (n : Nat) : rxBytes (List.replicate n turn) = [] := by
  induction n with
  | zero => rfl
  | succ n ih => exact ih

private theorem rxBytes_map (bytes : List UInt8) : rxBytes (bytes.map .usart1Rx) = bytes := by
  induction bytes with
  | nil => rfl
  | cons b bytes ih => exact congrArg (b :: ·) ih

/-- From any undisturbed run, turns alone drain the ring and serve the host. -/
theorem exists_served {events : List Event} (h : Undisturbed events) :
    ∃ n, Drained (firmware.state (events ++ List.replicate n turn)) ∧
      served (firmware.trace (events ++ List.replicate n turn)) = true := by
  obtain ⟨n, hn, hd⟩ := exists_drained h
  have hserved := served_of_drained hn.serving hd
  rw [List.append_assoc, List.replicate_append_replicate] at hserved
  exact ⟨n + 5, hserved⟩

/-- A drained ring has room for the next frame. -/
private theorem Undisturbed.room_of_drained {events : List Event} (h : Undisturbed events)
    (hd : Drained (firmware.state events)) :
    (accepted (firmware.trace events)).length + 4 ≤
      (reads (firmware.trace events)).length + 128 := by
  have hcount := (accounting events).count_at_getCount h.room.last hd.1
  have hlt : (RingBuffer.getCount (firmware.state events).ring).toNat < 4 := hd.2
  omega

/-- Every sequence of frames has an undisturbed run in which all of them arrive. -/
theorem exists_arrival (frames : List MouseReport) :
    ∃ events, Undisturbed events ∧ Drained (firmware.state events) ∧
      rxBytes events = frames.flatMap MouseReport.toBytes := by
  induction frames using List.reverseRecOn with
  | nil => exact ⟨enumeration, .enumeration, by decide, rfl⟩
  | append_singleton frames m ih =>
    obtain ⟨events, h, hd, hall⟩ := ih
    have hnext := h.receiveAll m.toBytes (h.room_of_drained hd)
    obtain ⟨n, hn, hdn⟩ := exists_drained hnext
    refine ⟨_, hn, hdn, ?_⟩
    rw [rxBytes_append, rxBytes_append, rxBytes_turns, rxBytes_map, hall, List.append_nil,
      List.flatMap_append, List.flatMap_singleton]

/-- Every sequence of frames has an undisturbed run that assigns each of them and delivers
the last one. -/
theorem exists_delivery (frames : List MouseReport) :
    ∃ events, Undisturbed events ∧ rxBytes events = frames.flatMap MouseReport.toBytes ∧
      assigned (firmware.trace events) = frames.map triple ∧
        lastTriple (delivered (firmware.trace events)) = lastTriple (frames.map triple) := by
  obtain ⟨events, h, -, hall⟩ := exists_arrival frames
  obtain ⟨n, hd, hserved⟩ := exists_served h
  have hn := h.turns n
  have hrx : rxBytes (events ++ List.replicate n turn) = frames.flatMap MouseReport.toBytes := by
    rw [rxBytes_append, rxBytes_turns, List.append_nil, hall]
  have hassigned := assigned_eq_frames hrx hn.configured hn.room hd.1 hd.2
  refine ⟨_, hn, hrx, hassigned, ?_⟩
  rw [← hassigned]
  exact upToDate hn.full hserved

end MouseAide.Firmware
