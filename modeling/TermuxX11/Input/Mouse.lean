import TermuxX11.Lib.Ledger
import TermuxX11.Input.Touch

/-!
# Mouse buttons

`TouchInputHandler.handleTouchEvent` gives an event of a pointing device to one of several
objects, each of which compares the buttons of the event with those of the last event that it has
seen itself, and sends the buttons that differ.  Which object it is depends on the source and
the tool of the event, and these change with the pointer capture.

The places at which buttons are sent, the cursor, the wheel and the gestures are left out, and so
is the stylus.  `lastBS` is not part of the handlers: it is the state of the buttons in the last
event that any of the objects got.
-/

namespace TermuxX11.Input

open Run Ledger

/-! ### Events -/

/-- `getToolType`. -/
inductive ToolType
  | unknown | finger | stylus | mouse | eraser
  deriving DecidableEq, Repr

/-- What is read of a `MotionEvent` of a pointing device: the action, the source, the tool of the
pointer that the action is about, and the buttons. -/
structure PointingEvent where
  action : MotionAction
  source : BitVec 32
  toolType : ToolType
  buttonState : BitVec 32
  deriving DecidableEq, Repr

/-- The sources of `InputDevice` that are asked for. -/
def SOURCE_MOUSE : BitVec 32 := 0x2002

@[inherit_doc SOURCE_MOUSE]
def SOURCE_MOUSE_RELATIVE : BitVec 32 := 0x20004

@[inherit_doc SOURCE_MOUSE]
def SOURCE_TOUCHPAD : BitVec 32 := 0x100008

namespace PointingEvent

variable (e : PointingEvent)

/-- The source has all bits of the given one. -/
def isFrom (source : BitVec 32) : Bool := e.source &&& source = source

/-- `isDexEvent`. -/
def isDexEvent : Bool :=
  e.isFrom SOURCE_MOUSE && !e.isFrom SOURCE_TOUCHPAD && e.toolType == .finger

end PointingEvent

/-! ### Buttons -/

/-- The buttons of `InputStub`. -/
inductive MouseButton
  | left | middle | right
  deriving DecidableEq, Repr

/-- `buttons`: `BUTTON_PRIMARY`, `BUTTON_TERTIARY` and `BUTTON_SECONDARY`, each with the button of
`InputStub`. -/
def buttons : List (BitVec 32 × MouseButton) := [(1, .left), (4, .middle), (2, .right)]

def isMouseButtonChanged (savedBS currentBS mask : BitVec 32) : Bool :=
  savedBS &&& mask ≠ currentBS &&& mask

def mouseButtonDown (currentBS mask : BitVec 32) : Bool := currentBS &&& mask ≠ 0

/-- The loop that each of the objects has over the buttons. -/
def sendChanged (savedBS currentBS : BitVec 32) : List (MouseButton × Bool) :=
  (buttons.filter fun button => isMouseButtonChanged savedBS currentBS button.1).map
    fun button => (button.2, mouseButtonDown currentBS button.1)

/-! ### Routes -/

/-- The objects that compare buttons: the handler itself (for a touchpad), its
`HardwareMouseListener` and its `DexListener`. -/
inductive ButtonListener
  | touchpad | hardwareMouse | dex
  deriving DecidableEq, Repr

/-- An object of the handler of the touchscreen, or (`true`) of its `mTouchpadHandler`. -/
abbrev Route := Bool × ButtonListener

/-- The actions for which `DexListener.onTouch` calls `checkButtons`. -/
def checksButtons (action : MotionAction) : Bool :=
  action = .buttonPress || action = .buttonRelease || action = .down || action = .up

/-- The part of `handleTouchEvent` after the event was not handed to `mTouchpadHandler`: the
object whose comparison it reaches. -/
def listener (e : PointingEvent) : Option ButtonListener :=
  if e.toolType = .stylus ∨ e.toolType = .eraser then none
  else if (!e.isDexEvent && (e.toolType == .mouse || e.isFrom SOURCE_MOUSE)) ||
      e.isFrom SOURCE_MOUSE_RELATIVE then
    some .hardwareMouse
  else if e.toolType = .finger then
    if e.isDexEvent && checksButtons e.action then some .dex
    -- other events of a Dex touchpad are not from `SOURCE_TOUCHPAD`
    else if e.isFrom SOURCE_TOUCHPAD then some .touchpad
    else none
  else none

/-- `handleTouchEvent` of the handler of the touchscreen. -/
def route (e : PointingEvent) : Option Route :=
  let toTouchpadHandler :=
    (e.toolType == .finger && e.isFrom SOURCE_TOUCHPAD) || e.isDexEvent
  (listener e).map fun l => (toTouchpadHandler, l)

/-- `HardwareMouseListener.onTouch` returns before it looks at the buttons of a scroll. -/
def compares (r : Route) (e : PointingEvent) : Bool :=
  !(r.2 = .hardwareMouse && e.action = .scroll)

/-- The `savedBS` of each object, the buttons of the last event that one of them got, and what
they have sent. -/
structure MouseButtons where
  savedBS : Route → BitVec 32 := fun _ => 0
  lastBS : BitVec 32 := 0
  sent : List (MouseButton × Bool) := []

/-- One event. -/
def MouseButtons.step (s : MouseButtons) (e : PointingEvent) : MouseButtons :=
  match route e with
  | none => s
  | some r =>
    if compares r e then
      { savedBS := Function.update s.savedBS r e.buttonState
        lastBS := e.buttonState
        sent := s.sent ++ sendChanged (s.savedBS r) e.buttonState }
    else { s with lastBS := e.buttonState }

/-! ### Agreement -/

/-- The number of a button's bit in a state of buttons. -/
def MouseButton.bit : MouseButton → ℕ
  | .left => 0
  | .middle => 2
  | .right => 1

/-- The button is down in a state of buttons. -/
def MouseButton.isIn (buttonState : BitVec 32) (b : MouseButton) : Bool :=
  buttonState.getLsbD b.bit

/-- The buttons that are down for the server are those of the state. -/
def MouseButtons.Agrees (s : MouseButtons) (buttonState : BitVec 32) : Prop :=
  ∀ b, Down s.sent b ↔ b.isIn buttonState = true

/-- Every button that has changed since the last event of any object has changed for the object
that gets this one, and none has changed if that object does not look. -/
def MouseButtons.Notices (s : MouseButtons) (e : PointingEvent) : Prop :=
  ∀ r, route e = some r → ∀ b : MouseButton, b.isIn s.lastBS ≠ b.isIn e.buttonState →
    compares r e = true ∧ b.isIn (s.savedBS r) ≠ b.isIn e.buttonState

theorem and_twoPow_eq_iff (bs bs' : BitVec 32) {i : ℕ} (hi : i < 32) :
    bs &&& BitVec.twoPow 32 i = bs' &&& BitVec.twoPow 32 i ↔ bs.getLsbD i = bs'.getLsbD i := by
  have hne : BitVec.twoPow 32 i ≠ 0#32 := by
    intro h
    have hbit := congrArg (fun v => v.getLsbD i) h
    simp [hi] at hbit
  rw [BitVec.and_twoPow, BitVec.and_twoPow]
  cases bs.getLsbD i <;> cases bs'.getLsbD i <;> simp [hne, Ne.symm hne]

section

variable (savedBS currentBS : BitVec 32) (b : MouseButton)

theorem MouseButton.bit_lt : b.bit < 32 := by
  cases b <;> decide

theorem isMouseButtonChanged_twoPow :
    isMouseButtonChanged savedBS currentBS (BitVec.twoPow 32 b.bit) =
      (b.isIn savedBS != b.isIn currentBS) := by
  rw [isMouseButtonChanged, Bool.eq_iff_iff]
  simp [and_twoPow_eq_iff savedBS currentBS b.bit_lt, MouseButton.isIn]

theorem mouseButtonDown_twoPow :
    mouseButtonDown currentBS (BitVec.twoPow 32 b.bit) = b.isIn currentBS := by
  have hzero := and_twoPow_eq_iff currentBS 0#32 b.bit_lt
  rw [BitVec.zero_and, BitVec.getLsbD_zero] at hzero
  rw [mouseButtonDown, Bool.eq_iff_iff, decide_eq_true_iff, MouseButton.isIn]
  show ¬ currentBS &&& BitVec.twoPow 32 b.bit = 0#32 ↔ currentBS.getLsbD b.bit = true
  rw [hzero]
  simp

/-- The loop sends the changes of the three buttons. -/
theorem sendChanged_eq :
    sendChanged savedBS currentBS =
      changes [.left, .middle, .right] (fun b => b.isIn savedBS) fun b => b.isIn currentBS := by
  have hbuttons : buttons =
      [.left, .middle, .right].map fun b : MouseButton => (BitVec.twoPow 32 b.bit, b) := by
    decide
  rw [sendChanged, hbuttons, List.filter_map, List.map_map, changes]
  congr 1
  · funext b
    exact congrArg (Prod.mk b) (mouseButtonDown_twoPow currentBS b)
  · congr 1
    funext b
    exact isMouseButtonChanged_twoPow savedBS currentBS b

end

/-! ### Runs -/

section

variable {s : MouseButtons} {e : PointingEvent}

theorem MouseButton.mem_all (b : MouseButton) : b ∈ [left, middle, right] := by
  cases b <;> decide

/-- After an event that reaches an object the buttons agree with it exactly if they were noticed,
provided that they agreed with the event before. -/
theorem agrees_step_iff (hs : s.Agrees s.lastBS) :
    (route e ≠ none → (s.step e).Agrees e.buttonState) ↔ s.Notices e := by
  cases hr : route e with
  | none =>
    refine iff_of_true (fun h => absurd rfl h) fun r hr' => ?_
    rw [hr] at hr'
    cases hr'
  | some r =>
    have hnotices : s.Notices e ↔ ∀ b : MouseButton, b.isIn s.lastBS ≠ b.isIn e.buttonState →
        compares r e = true ∧ b.isIn (s.savedBS r) ≠ b.isIn e.buttonState := by
      constructor
      · intro h
        exact h r hr
      · intro h r' hr'
        obtain rfl := Option.some.inj (hr.symm.trans hr')
        exact h
    have hsent : (s.step e).sent = if compares r e then
        s.sent ++ sendChanged (s.savedBS r) e.buttonState else s.sent := by
      rw [MouseButtons.step, hr]
      dsimp only
      split_ifs <;> rfl
    rw [hnotices, imp_iff_right (Option.some_ne_none r)]
    refine forall_congr' fun b => ?_
    rw [hsent]
    by_cases hc : compares r e = true
    · rw [if_pos hc, sendChanged_eq, down_changes_iff b.mem_all, hs b, ← Bool.eq_iff_iff]
      constructor
      · intro h hne
        exact ⟨hc, fun hsame => hne (h hsame)⟩
      · intro h hsame
        by_contra hne
        exact (h hne).2 hsame
    · rw [if_neg hc, hs b, ← Bool.eq_iff_iff]
      constructor
      · intro h hne
        exact absurd h hne
      · intro h
        by_contra hne
        exact hc (h hne).1

theorem agrees_lastBS_step (hs : s.Agrees s.lastBS)
    (h : route e ≠ none → (s.step e).Agrees e.buttonState) :
    (s.step e).Agrees (s.step e).lastBS := by
  cases hr : route e with
  | none =>
    have hstep : s.step e = s := by rw [MouseButtons.step, hr]
    rw [hstep]
    exact hs
  | some r =>
    have hlast : (s.step e).lastBS = e.buttonState := by
      rw [MouseButtons.step, hr]
      dsimp only
      split_ifs <;> rfl
    rw [hlast]
    exact h (by simp [hr])

/-- **Mouse buttons agree** with every event that is routed to one of the objects if and only if
the changes between two such events are noticed by the object that gets the second. -/
theorem mouse_buttons_agree_iff (es : List PointingEvent) :
    Always MouseButtons.step (fun s e => route e ≠ none → (s.step e).Agrees e.buttonState) {} es ↔
      Always MouseButtons.step MouseButtons.Notices {} es := by
  refine always_iff_of_invariant (I := fun s => s.Agrees s.lastBS)
    (fun s e => agrees_lastBS_step) (fun s e => agrees_step_iff) ?_ es
  intro b
  simp [Down, MouseButton.isIn]

end

/-- A touchpad that is pressed as a mouse, captured, and then released. -/
def capturedWhilePressed : List PointingEvent :=
  [{ action := .down, source := SOURCE_MOUSE, toolType := .mouse, buttonState := 1 },
    { action := .move, source := SOURCE_TOUCHPAD, toolType := .finger, buttonState := 0 }]

/-- The touchpad handler has not seen the button, and does not release it. -/
theorem capturedWhilePressed_disagrees :
    ¬ Always MouseButtons.step (fun s e => route e ≠ none → (s.step e).Agrees e.buttonState) {}
      capturedWhilePressed := by
  intro h
  have hleft := (h.2.1 (by decide) .left).1
  revert hleft
  decide +kernel

end TermuxX11.Input
