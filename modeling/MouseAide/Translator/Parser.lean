import Mathlib.Data.List.Infix

/-!
# The 328P translator

Library `MouseTranslator`. `arduino_mouse_328p.ino:9–74,82–102` with the report parser it
derives from, `USB_Host_Shield_2.0/hidboot.cpp:20–122` and `hidboot.h:39–62`.
One call of `parse` is one polled boot-mouse report. `Serial.write` appends one
four-byte frame to `serial`, which keeps every frame since power-up in order.
-/

namespace MouseAide.Translator

/-- `MOUSEINFO`, `hidboot.h:39–49`: the three bytes of a boot-mouse report. -/
structure MouseInfo where
  buttons : UInt8
  dX : Int8
  dY : Int8
  deriving DecidableEq, Repr

/-- The bit-field `bmLeftButton`, bit 0 of the button byte. -/
def bmLeftButton (b : UInt8) : Bool := b.toBitVec.getLsbD 0

/-- The bit-field `bmRightButton`, bit 1 of the button byte. -/
def bmRightButton (b : UInt8) : Bool := b.toBitVec.getLsbD 1

/-- The bit-field `bmMiddleButton`, bit 2 of the button byte. -/
def bmMiddleButton (b : UInt8) : Bool := b.toBitVec.getLsbD 2

/-- The global `mouseReport`, `arduino_mouse_328p.ino:12–17`. -/
structure MouseReport where
  buttons : UInt8
  x : Int8
  y : Int8
  wheel : Int8
  deriving DecidableEq, Repr

/-- The four bytes `Serial.write((uint8_t *)&mouseReport, 4)` sends. -/
def MouseReport.toBytes (m : MouseReport) : List UInt8 :=
  [m.buttons, m.x.toUInt8, m.y.toUInt8, m.wheel.toUInt8]

/-- The sketch's globals, `Prs.prevState.bInfo[0]` and the frames written so far. -/
structure Sketch where
  dy : Int8
  mouseReport : MouseReport
  prevState : UInt8
  serial : List MouseReport
  deriving DecidableEq, Repr

/-- The zeroed globals of a reset, with a given `Dy`. -/
def powerUp (dy : Int8) : Sketch :=
  { dy, mouseReport := ⟨0, 0, 0, 0⟩, prevState := 0, serial := [] }

/-- `setup`, `arduino_mouse_328p.ino:82–102`: a low `key` pin clears the kick `Dy = 8`. -/
def setup (keyLow : Bool) : Sketch :=
  let s := powerUp 8
  if keyLow then { s with dy := 0 } else s

/-- `Serial.write((uint8_t *)&mouseReport, 4)`. -/
def Sketch.serialWrite (s : Sketch) : Sketch :=
  { s with serial := s.serial ++ [s.mouseReport] }

/-- `OnMouseMove`, `arduino_mouse_328p.ino:29–41`; the negation wraps to `int8_t`. -/
def onMouseMove (mi : MouseInfo) (s : Sketch) : Sketch :=
  let s := { s with mouseReport.x := mi.dX }
  let s := { s with mouseReport.y := -mi.dY }
  let s := s.serialWrite
  { s with mouseReport.y := 0 }

/-- The shared body of five button handlers: assign the whole button byte and send. -/
def sendButtons (buttons : UInt8) (s : Sketch) : Sketch :=
  { s with mouseReport.buttons := buttons }.serialWrite

/-- `OnLeftButtonUp`, `arduino_mouse_328p.ino:42–46`. -/
def onLeftButtonUp (_mi : MouseInfo) (s : Sketch) : Sketch := sendButtons 0 s

/-- `OnLeftButtonDown`, `arduino_mouse_328p.ino:47–54`: the press, then the kick. -/
def onLeftButtonDown (_mi : MouseInfo) (s : Sketch) : Sketch :=
  let s := sendButtons 1 s
  let s := { s with mouseReport.y := s.dy }
  let s := s.serialWrite
  { s with mouseReport.y := 0 }

/-- `OnRightButtonUp`, `arduino_mouse_328p.ino:55–59`. -/
def onRightButtonUp (_mi : MouseInfo) (s : Sketch) : Sketch := sendButtons 0 s

/-- `OnRightButtonDown`, `arduino_mouse_328p.ino:60–64`. -/
def onRightButtonDown (_mi : MouseInfo) (s : Sketch) : Sketch := sendButtons 2 s

/-- `OnMiddleButtonUp`, `arduino_mouse_328p.ino:65–69`. -/
def onMiddleButtonUp (_mi : MouseInfo) (s : Sketch) : Sketch := sendButtons 0 s

/-- `OnMiddleButtonDown`, `arduino_mouse_328p.ino:70–74`. -/
def onMiddleButtonDown (_mi : MouseInfo) (s : Sketch) : Sketch := sendButtons 4 s

/-- One edge test of `Parse`: compare a button bit with `prevState` and dispatch. -/
def onEdge (bm : UInt8 → Bool) (down up : MouseInfo → Sketch → Sketch)
    (mi : MouseInfo) (s : Sketch) : Sketch :=
  if bm s.prevState != bm mi.buttons then
    if bm mi.buttons then down mi s else up mi s
  else s

/-- `MouseReportParser::Parse`, `hidboot.cpp:20–122` (the `#else` branch). -/
def parse (s : Sketch) (mi : MouseInfo) : Sketch :=
  let s := onEdge bmLeftButton onLeftButtonDown onLeftButtonUp mi s
  let s := onEdge bmRightButton onRightButtonDown onRightButtonUp mi s
  let s := onEdge bmMiddleButton onMiddleButtonDown onMiddleButtonUp mi s
  let s := if mi.dX ≠ 0 ∨ mi.dY ≠ 0 then onMouseMove mi s else s
  { s with prevState := mi.buttons }

/-- The sketch after a report history, one `Parse` per report. -/
def parseAll (s : Sketch) (reports : List MouseInfo) : Sketch := reports.foldl parse s

/-- The byte stream the sketch has written to the serial port. -/
def Sketch.serialBytes (s : Sketch) : List UInt8 := s.serial.flatMap MouseReport.toBytes

@[simp] theorem parseAll_nil (s : Sketch) : parseAll s [] = s := rfl

@[simp] theorem parseAll_cons (s : Sketch) (mi : MouseInfo) (reports : List MouseInfo) :
    parseAll s (mi :: reports) = parseAll (parse s mi) reports := rfl

/-- The newest report acts on the sketch after the older ones. -/
@[simp] theorem parseAll_concat (s : Sketch) (reports : List MouseInfo) (mi : MouseInfo) :
    parseAll s (reports ++ [mi]) = parse (parseAll s reports) mi := by
  simp [parseAll, List.foldl_append]

/-! ### What one report writes -/

/-- The button byte an edge leaves: the pressed button's own mask, or nothing. -/
def edgeButtons (mask : UInt8) (prev next : Bool) (buttons : UInt8) : UInt8 :=
  if prev = next then buttons else if next then mask else 0

/-- Frames of the left edge: a press sends a still frame and a kick, a release one frame. -/
def leftFrames (dy : Int8) (m : MouseReport) (prev next : Bool) : List MouseReport :=
  if prev = next then []
  else if next then [{ m with buttons := 1 }, { m with buttons := 1, y := dy }]
  else [{ m with buttons := 0 }]

/-- Frames of a right or middle edge: one frame carrying the assigned button byte. -/
def edgeFrames (mask : UInt8) (m : MouseReport) (prev next : Bool) : List MouseReport :=
  if prev = next then [] else [{ m with buttons := edgeButtons mask prev next m.buttons }]

/-- The frame of a motion report, if it moves at all. -/
def moveFrames (m : MouseReport) (mi : MouseInfo) : List MouseReport :=
  if mi.dX ≠ 0 ∨ mi.dY ≠ 0 then [{ m with x := mi.dX, y := -mi.dY }] else []

/-- The left edge with `y` at rest: its frames are appended and `y` is at rest again. -/
theorem onEdge_left (mi : MouseInfo) (s : Sketch) (hy : s.mouseReport.y = 0) :
    onEdge bmLeftButton onLeftButtonDown onLeftButtonUp mi s =
      { s with
        mouseReport.buttons := edgeButtons 1 (bmLeftButton s.prevState)
          (bmLeftButton mi.buttons) s.mouseReport.buttons
        serial := s.serial ++ leftFrames s.dy s.mouseReport (bmLeftButton s.prevState)
          (bmLeftButton mi.buttons) } := by
  cases hp : bmLeftButton s.prevState <;> cases hn : bmLeftButton mi.buttons <;>
    simp [onEdge, onLeftButtonDown, onLeftButtonUp, sendButtons, Sketch.serialWrite,
      edgeButtons, leftFrames, hp, hn, ← hy]

/-- An edge whose handlers only assign the button byte sends one frame and nothing else. -/
theorem onEdge_send (bm : UInt8 → Bool) (mask : UInt8) (mi : MouseInfo) (s : Sketch) :
    onEdge bm (fun _ ↦ sendButtons mask) (fun _ ↦ sendButtons 0) mi s =
      { s with
        mouseReport.buttons := edgeButtons mask (bm s.prevState) (bm mi.buttons)
          s.mouseReport.buttons
        serial := s.serial ++ edgeFrames mask s.mouseReport (bm s.prevState)
          (bm mi.buttons) } := by
  cases hp : bm s.prevState <;> cases hn : bm mi.buttons <;>
    simp [onEdge, sendButtons, Sketch.serialWrite, edgeButtons, edgeFrames, hp, hn]

/-- The button byte after the left edge test. -/
def buttonsAfterLeft (prev next buttons : UInt8) : UInt8 :=
  edgeButtons 1 (bmLeftButton prev) (bmLeftButton next) buttons

/-- The button byte after the left and right edge tests. -/
def buttonsAfterRight (prev next buttons : UInt8) : UInt8 :=
  edgeButtons 2 (bmRightButton prev) (bmRightButton next) (buttonsAfterLeft prev next buttons)

/-- The button byte after all three edge tests of one report. -/
def nextButtons (prev next buttons : UInt8) : UInt8 :=
  edgeButtons 4 (bmMiddleButton prev) (bmMiddleButton next) (buttonsAfterRight prev next buttons)

/-- Frames of the right edge of a report. -/
def rightFrames (m : MouseReport) (prev next : UInt8) : List MouseReport :=
  edgeFrames 2 { m with buttons := buttonsAfterLeft prev next m.buttons }
    (bmRightButton prev) (bmRightButton next)

/-- Frames of the middle edge of a report. -/
def middleFrames (m : MouseReport) (prev next : UInt8) : List MouseReport :=
  edgeFrames 4 { m with buttons := buttonsAfterRight prev next m.buttons }
    (bmMiddleButton prev) (bmMiddleButton next)

/-- Frames the button edges of a report write, in the order of the edge tests. -/
def buttonFrames (dy : Int8) (m : MouseReport) (prev next : UInt8) : List MouseReport :=
  leftFrames dy m (bmLeftButton prev) (bmLeftButton next) ++ rightFrames m prev next ++
    middleFrames m prev next

/-- Horizontal field left by a report: its own `dX` if it moves, else the old field. -/
def nextX (x : Int8) (mi : MouseInfo) : Int8 := if mi.dX ≠ 0 ∨ mi.dY ≠ 0 then mi.dX else x

/-- One report with `y` at rest: its frames, and every global it leaves behind. -/
theorem parse_eq (s : Sketch) (mi : MouseInfo) (hy : s.mouseReport.y = 0) :
    parse s mi =
      { dy := s.dy
        mouseReport :=
          { s.mouseReport with
            buttons := nextButtons s.prevState mi.buttons s.mouseReport.buttons
            x := nextX s.mouseReport.x mi }
        prevState := mi.buttons
        serial := s.serial ++
          (buttonFrames s.dy s.mouseReport s.prevState mi.buttons ++
            moveFrames { s.mouseReport with
              buttons := nextButtons s.prevState mi.buttons s.mouseReport.buttons } mi) } := by
  have hright := onEdge_send bmRightButton 2
  have hmiddle := onEdge_send bmMiddleButton 4
  change ∀ mi s, onEdge bmRightButton onRightButtonDown onRightButtonUp mi s = _ at hright
  change ∀ mi s, onEdge bmMiddleButton onMiddleButtonDown onMiddleButtonUp mi s = _ at hmiddle
  rw [parse, onEdge_left mi s hy, hright, hmiddle]
  by_cases hm : mi.dX ≠ 0 ∨ mi.dY ≠ 0 <;>
    simp [onMouseMove, Sketch.serialWrite, nextButtons, buttonsAfterRight, buttonsAfterLeft,
      buttonFrames, rightFrames, middleFrames, moveFrames, nextX, hm, hy]

/-- Every report leaves the kick setting alone. -/
theorem parse_dy (s : Sketch) (mi : MouseInfo) (hy : s.mouseReport.y = 0) :
    (parse s mi).dy = s.dy := by
  rw [parse_eq s mi hy]

/-- Every report leaves `y` at rest. -/
theorem parse_y (s : Sketch) (mi : MouseInfo) (hy : s.mouseReport.y = 0) :
    (parse s mi).mouseReport.y = 0 := by
  rw [parse_eq s mi hy]
  exact hy

/-- `y` is at rest after every report history. -/
theorem parseAll_y (s : Sketch) (reports : List MouseInfo) (hy : s.mouseReport.y = 0) :
    (parseAll s reports).mouseReport.y = 0 := by
  induction reports generalizing s with
  | nil => exact hy
  | cons mi reports ih => exact ih _ (parse_y s mi hy)

/-- The kick setting is the same after every report history. -/
theorem parseAll_dy (s : Sketch) (reports : List MouseInfo) (hy : s.mouseReport.y = 0) :
    (parseAll s reports).dy = s.dy := by
  induction reports generalizing s with
  | nil => rfl
  | cons mi reports ih => exact (ih _ (parse_y s mi hy)).trans (parse_dy s mi hy)

/-- A report only adds frames. -/
theorem serial_parse_mono (s : Sketch) (mi : MouseInfo) (hy : s.mouseReport.y = 0) :
    s.serial <+: (parse s mi).serial := by
  rw [parse_eq s mi hy]
  exact List.prefix_append _ _

/-- A longer history only adds frames. -/
theorem serial_parseAll_mono (s : Sketch) {pre reports : List MouseInfo}
    (hy : s.mouseReport.y = 0) (h : pre <+: reports) :
    (parseAll s pre).serial <+: (parseAll s reports).serial := by
  obtain ⟨rest, rfl⟩ := h
  induction rest using List.reverseRecOn with
  | nil => rw [List.append_nil]
  | append_singleton rest mi ih =>
    rw [← List.append_assoc, parseAll_concat]
    exact ih.trans (serial_parse_mono _ mi (parseAll_y s _ hy))

/-- The `key` pin chooses between two settings of the kick. -/
theorem setup_eq (keyLow : Bool) : setup keyLow = powerUp (if keyLow then 0 else 8) := by
  cases keyLow <;> rfl

/-- `y` is at rest after `setup`. -/
theorem setup_y (keyLow : Bool) : (setup keyLow).mouseReport.y = 0 := by
  rw [setup_eq]
  rfl

/-- The button byte of the newest report, or zero before the first one. -/
def lastByte (reports : List MouseInfo) : UInt8 :=
  (reports.getLast?.map fun mi ↦ mi.buttons).getD 0

@[simp] theorem lastByte_concat (reports : List MouseInfo) (mi : MouseInfo) :
    lastByte (reports ++ [mi]) = mi.buttons := by
  simp [lastByte]

/-- From power-up, `prevState` is the button byte of the newest report. -/
theorem prevState_parseAll (s : Sketch) (reports : List MouseInfo) (h : s.prevState = 0) :
    (parseAll s reports).prevState = lastByte reports := by
  cases reports using List.reverseRecOn with
  | nil => exact h
  | append_singleton reports mi =>
    rw [lastByte_concat, parseAll_concat]
    rfl

end MouseAide.Translator
