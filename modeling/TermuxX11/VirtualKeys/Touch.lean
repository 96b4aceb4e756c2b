import TermuxX11.Lib.Ledger
import TermuxX11.VirtualKeys.Element

/-!
# Touch handling of `VirtualKeysElement` and `RangeScroller`

What an element does with a pointer: `handleTouchDown`, `handleTouchMove`, `handleTouchUp`
and `forceRelease`.  The functions return the new element and the calls that
`VirtualKeysView.handleInputEvent` makes on the input sender, in order.  They are those of
an element that has been given a view; the touch pad view of `view.getTouchpadView()`
computes the same difference as the code without one.

`Output.event?` and `Binding.signal` say which calls press or release something:
`events_handleInputEvent` is all that later proofs use of `handleInputEvent`.
-/

namespace TermuxX11.VirtualKeys

open Java

/-- The calls on `VirtualKeysInputSender`. -/
inductive Output
  | onKeyEvent (binding : Binding) (isDown : Bool)
  | onPointerButton (button : ℕ) (isDown : Bool)
  | onPointerMove (dx dy : ℤ)
  | onScroll (distanceX distanceY : ℚ)
  deriving DecidableEq, Repr

/-- What can be down at the input sender. -/
inductive Signal
  | key (binding : Binding)
  | button (button : ℕ)
  deriving DecidableEq, Repr

/-- The press or release that a call makes. -/
def Output.event? : Output → Option (Signal × Bool)
  | onKeyEvent b d => some (.key b, d)
  | onPointerButton n d => some (.button n, d)
  | _ => none

/-- The presses and releases of a sequence of calls. -/
def events (os : List Output) : List (Signal × Bool) := os.filterMap Output.event?

@[simp] theorem events_nil : events [] = [] := rfl

@[simp] theorem events_append (os os' : List Output) :
    events (os ++ os') = events os ++ events os' :=
  List.filterMap_append

/-- The functions of `java.lang.Math` that the touch code applies to coordinates. -/
structure JavaMath where
  sqrt : ℚ → ℚ
  atan2 : ℚ → ℚ → ℚ
  cos : ℚ → ℚ
  sin : ℚ → ℚ

/-- What an element reads while it handles an event: the grid of its view, the preference
`mouseScrollSpeed`, and the clock. -/
structure Host where
  snappingSize : ℤ
  mouseScrollSpeed : ℤ
  currentTimeMillis : ℤ
  math : JavaMath

/-- The key or button a binding stands for. -/
def Binding.signal (b : Binding) : Option Signal :=
  if b.isKeyboard then some (.key b)
  else if b = .mouseScrollUp ∨ b = .mouseScrollDown then Option.none
  else b.getPointerButton.map .button

/-- `VirtualKeysView.handleInputEvent` on an input sender; its `value` is not used. -/
def Host.handleInputEvent (H : Host) (b : Binding) (isDown : Bool) : List Output :=
  if b.isMouse then
    if b.isMouseMove then
      if isDown then
        match b with
        | .mouseMoveLeft => [.onPointerMove (-10) 0]
        | .mouseMoveRight => [.onPointerMove 10 0]
        | .mouseMoveUp => [.onPointerMove 0 (-10)]
        | .mouseMoveDown => [.onPointerMove 0 10]
        | _ => []
      else []
    else if b = .mouseScrollUp then
      if isDown then [.onScroll 0 (-120 * H.mouseScrollSpeed)] else []
    else if b = .mouseScrollDown then
      if isDown then [.onScroll 0 (120 * H.mouseScrollSpeed)] else []
    else
      match b.getPointerButton with
      | some n => [.onPointerButton n isDown]
      | none => []
  else if b.isKeyboard then [.onKeyEvent b isDown]
  else []

/-- `handleInputEvent` presses or releases the signal of the binding and nothing else. -/
theorem events_handleInputEvent (H : Host) (b : Binding) (d : Bool) :
    events (H.handleInputEvent b d) = b.signal.toList.map fun k => (k, d) := by
  by_cases hm : b.isMouse
  · have hk : b.isKeyboard = false := by simp [Binding.isKeyboard, hm]
    cases b <;> first | (cases hm; done) | (cases d <;> rfl)
  · have hk : b.isKeyboard = true := by simp [Binding.isKeyboard, hm]
    simp [Host.handleInputEvent, hm, hk, events, Output.event?, Binding.signal]

/-! ### `RangeScroller` -/

/-- `getBindingForRangeIndex`. -/
def getBindingForRangeIndex (r : Range) (index : ℤ) : Binding :=
  match r, index with
  | .fromAToZ, 0 => .keyA
  | .fromAToZ, 1 => .keyB
  | .fromAToZ, 2 => .keyC
  | .fromAToZ, 3 => .keyD
  | .fromAToZ, 4 => .keyE
  | .fromAToZ, 5 => .keyF
  | .fromAToZ, 6 => .keyG
  | .fromAToZ, 7 => .keyH
  | .fromAToZ, 8 => .keyI
  | .fromAToZ, 9 => .keyJ
  | .fromAToZ, 10 => .keyK
  | .fromAToZ, 11 => .keyL
  | .fromAToZ, 12 => .keyM
  | .fromAToZ, 13 => .keyN
  | .fromAToZ, 14 => .keyO
  | .fromAToZ, 15 => .keyP
  | .fromAToZ, 16 => .keyQ
  | .fromAToZ, 17 => .keyR
  | .fromAToZ, 18 => .keyS
  | .fromAToZ, 19 => .keyT
  | .fromAToZ, 20 => .keyU
  | .fromAToZ, 21 => .keyV
  | .fromAToZ, 22 => .keyW
  | .fromAToZ, 23 => .keyX
  | .fromAToZ, 24 => .keyY
  | .fromAToZ, 25 => .keyZ
  | .digits, 0 => .key0
  | .digits, 1 => .key1
  | .digits, 2 => .key2
  | .digits, 3 => .key3
  | .digits, 4 => .key4
  | .digits, 5 => .key5
  | .digits, 6 => .key6
  | .digits, 7 => .key7
  | .digits, 8 => .key8
  | .digits, 9 => .key9
  | .functionKeys, 0 => .keyF1
  | .functionKeys, 1 => .keyF2
  | .functionKeys, 2 => .keyF3
  | .functionKeys, 3 => .keyF4
  | .functionKeys, 4 => .keyF5
  | .functionKeys, 5 => .keyF6
  | .functionKeys, 6 => .keyF7
  | .functionKeys, 7 => .keyF8
  | .functionKeys, 8 => .keyF9
  | .functionKeys, 9 => .keyF10
  | .functionKeys, 10 => .keyF11
  | .functionKeys, 11 => .keyF12
  | .numpadDigits, 0 => .numpad0
  | .numpadDigits, 1 => .numpad1
  | .numpadDigits, 2 => .numpad2
  | .numpadDigits, 3 => .numpad3
  | .numpadDigits, 4 => .numpad4
  | .numpadDigits, 5 => .numpad5
  | .numpadDigits, 6 => .numpad6
  | .numpadDigits, 7 => .numpad7
  | .numpadDigits, 8 => .numpad8
  | .numpadDigits, 9 => .numpad9
  | _, _ => .none

namespace RangeScroller

/-- Press or release the key of an index, unless it is `NONE`. -/
def sendIndex (H : Host) (r : Range) (index : ℤ) (isDown : Bool) : List Output :=
  let b := getBindingForRangeIndex r index
  if b = .none then [] else H.handleInputEvent b isDown

/-- The range of an element, `FROM_A_TO_Z` by default. -/
def rangeOf (e : Element) : Range := e.range.getD .fromAToZ

/-- `getElementSize`. -/
def getElementSize (H : Host) (e : Element) : ℚ := H.snappingSize * 4 * e.scale

/-- `((v % m) + m) % m` with the signed remainder of Java. -/
def wrap (v m : ℤ) : ℤ := (v.tmod m + m).tmod m

/-- The wrapped index under the last touch, in `updateActivatedIndex`. -/
def wrappedIndex (H : Host) (e : Element) (s : RangeScroller) : ℤ :=
  let box := e.getBoundingBox H.snappingSize
  let position :=
    if e.orientation = 0 then (s.lastTouchX - box.left + s.scrollOffset) / getElementSize H e
    else (s.lastTouchY - box.top + s.scrollOffset) / getElementSize H e
  wrap (saturate ⌊position⌋) (rangeOf e).max

/-- `updateActivatedIndex`. -/
def updateActivatedIndex (H : Host) (e : Element) (s : RangeScroller) :
    RangeScroller × List Output :=
  let index := wrappedIndex H e s
  if index = s.lastActivatedIndex then (s, [])
  else
    ({ s with lastActivatedIndex := index },
      (if 0 ≤ s.lastActivatedIndex then sendIndex H (rangeOf e) s.lastActivatedIndex false
        else []) ++ sendIndex H (rangeOf e) index true)

/-- The assignments of `handleTouchDown`; a running fling is stopped. -/
def grab (s : RangeScroller) (x y : ℚ) : RangeScroller :=
  { s with
    flinging := false
    pending := if s.flinging then 0 else s.pending
    lastTouchX := x
    lastTouchY := y
    isDragging := true
    lastActivatedIndex := -1
    velocity := 0
    lastMoveTime := 0 }

/-- `handleTouchDown`. -/
def handleTouchDown (H : Host) (e : Element) (s : RangeScroller) (x y : ℚ) :
    RangeScroller × List Output :=
  updateActivatedIndex H e (s.grab x y)

/-- The assignments of `handleTouchMove`. -/
def drag (H : Host) (e : Element) (s : RangeScroller) (x y : ℚ) : RangeScroller :=
  let delta := if e.orientation = 0 then x - s.lastTouchX else y - s.lastTouchY
  { s with
    scrollOffset := s.scrollOffset - delta
    lastTouchX := x
    lastTouchY := y
    velocity :=
      if 0 < s.lastMoveTime then delta / (max 1 (H.currentTimeMillis - s.lastMoveTime) : ℤ)
      else s.velocity
    lastMoveTime := H.currentTimeMillis }

/-- `handleTouchMove`. -/
def handleTouchMove (H : Host) (e : Element) (s : RangeScroller) (x y : ℚ) :
    RangeScroller × List Output :=
  if s.isDragging then updateActivatedIndex H e (s.drag H e x y) else (s, [])

/-- `FLING_MIN_VELOCITY`. -/
def flingMinVelocity : ℚ := 3 / 2

/-- `handleTouchUp`, with `releaseActivatedIndex` and `startFling`. -/
def handleTouchUp (H : Host) (e : Element) (s : RangeScroller) : RangeScroller × List Output :=
  let fling := flingMinVelocity < |s.velocity| && !s.flinging
  ({ s with
      lastActivatedIndex := if 0 ≤ s.lastActivatedIndex then -1 else s.lastActivatedIndex
      isDragging := false
      flinging := fling || s.flinging
      pending := if fling then s.pending + 1 else s.pending },
    if 0 ≤ s.lastActivatedIndex then sendIndex H (rangeOf e) s.lastActivatedIndex false else [])

/-- One posted run of `flingRunnable`; it calls nothing on the input sender. -/
def flingRunnable (s : RangeScroller) : RangeScroller :=
  let s := { s with pending := s.pending - 1 }
  if s.isDragging then { s with flinging := false }
  else
    let s := { s with velocity := s.velocity * (23 / 25) }
    if |s.velocity| < flingMinVelocity then { s with flinging := false }
    else { s with scrollOffset := s.scrollOffset - s.velocity, pending := s.pending + 1 }

end RangeScroller

/-! ### The element's handlers -/

namespace Element

/-- `sendAllBindings`. -/
def sendAllBindings (H : Host) (e : Element) (isDown : Bool) : List Output :=
  e.bindings.flatMap fun b => if b = .none then [] else H.handleInputEvent b isDown

/-- `isKeepButtonPressedAfterMinTime`. -/
def isKeepButtonPressedAfterMinTime : Bool := false

/-- `clamp`. -/
def clamp (value lo hi : ℚ) : ℚ := max lo (min hi value)

/-- The offset of a point from the centre of a pad, `-1` to `1` on each axis. -/
def padDelta (H : Host) (e : Element) (px py : ℚ) : ℚ × ℚ :=
  let box := e.getBoundingBox H.snappingSize
  let radius : ℚ := box.width * (1 / 2)
  let localX := px - box.left
  let localY := py - box.top
  let offsetX := localX - radius
  let offsetY := localY - radius
  let distance := H.math.sqrt
    ((radius - localX) * (radius - localX) + (radius - localY) * (radius - localY))
  let offset :=
    if radius < distance then
      let angle := H.math.atan2 offsetY offsetX
      (H.math.cos angle * radius, H.math.sin angle * radius)
    else (offsetX, offsetY)
  (clamp (offset.1 / radius) (-1) 1, clamp (offset.2 / radius) (-1) 1)

/-- The directions up, right, down and left of `D_PAD` (`dead = 0.3`, `off = 0.42`) and
`STICK` (`dead = 0.15`, `off = 0.22`). -/
def padStates (dead off : ℚ) (states : Fin 4 → Bool) (deltaX deltaY : ℚ) : Fin 4 → Bool :=
  let up := decide (deltaY ≤ -dead) || (states 0 && decide (deltaY ≤ -off))
  let down := decide (dead ≤ deltaY) || (states 2 && decide (off ≤ deltaY))
  let right := decide (dead ≤ deltaX) || (states 1 && decide (off ≤ deltaX))
  let left := decide (deltaX ≤ -dead) || (states 3 && decide (deltaX ≤ -off))
  let (up, down) :=
    if up && down then (if deltaY < 0 then (up, false) else (false, down)) else (up, down)
  let (left, right) :=
    if left && right then (if deltaX < 0 then (left, false) else (false, right))
    else (left, right)
  let vertical := decide (|deltaX| < |deltaY|)
  let left := if up && left && vertical then false else left
  let right := if up && right && vertical then false else right
  let left := if down && left && vertical then false else left
  let right := if down && right && vertical then false else right
  ![up, right, down, left]

/-- The loop that sends the directions of `D_PAD` and `STICK` and records them. -/
def sendPad (H : Host) (bs : List Binding) (newStates : Fin 4 → Bool) :
    List (Fin 4) → (Fin 4 → Bool) → (Fin 4 → Bool) × List Output
  | [], states => (states, [])
  | i :: is, states =>
    let b := bindingAt bs i
    let state := if b.isMouseMove then newStates i || newStates (i + 2) else newStates i
    let r := sendPad H bs newStates is (Function.update states i state)
    (r.1, H.handleInputEvent b state ++ r.2)

/-- `value`: the delta on the axis of a direction. -/
def axisValue (i : Fin 4) (deltaX deltaY : ℚ) : ℚ := if i = 1 ∨ i = 3 then deltaX else deltaY

/-- The loop of `TRACKPAD`; the cursor motion is collected in `c`. -/
def sendTrackpad (H : Host) (bs : List Binding) (newStates : Fin 4 → Bool)
    (deltaX deltaY : ℚ) :
    List (Fin 4) → ℤ × ℤ → (Fin 4 → Bool) → (Fin 4 → Bool) × (ℤ × ℤ) × List Output
  | [], c, states => (states, c, [])
  | i :: is, c, states =>
    let value := axisValue i deltaX deltaY
    let b := bindingAt bs i
    if 4 < |value| then
      if b = .mouseMoveLeft ∨ b = .mouseMoveRight then
        sendTrackpad H bs newStates deltaX deltaY is (round value, c.2) states
      else if b = .mouseMoveUp ∨ b = .mouseMoveDown then
        sendTrackpad H bs newStates deltaX deltaY is (c.1, round value) states
      else
        let r := sendTrackpad H bs newStates deltaX deltaY is c
          (Function.update states i (newStates i))
        (r.1, r.2.1, H.handleInputEvent b (newStates i) ++ r.2.2)
    else sendTrackpad H bs newStates deltaX deltaY is c states

/-- `TRACKPAD_MIN_SPEED`. -/
def trackpadMinSpeed : ℚ := 4 / 5

/-- The directions of a `TRACKPAD`. -/
def trackpadStates (deltaX deltaY : ℚ) : Fin 4 → Bool :=
  ![decide (deltaY ≤ -trackpadMinSpeed), decide (trackpadMinSpeed ≤ deltaX),
    decide (trackpadMinSpeed ≤ deltaY), decide (deltaX ≤ -trackpadMinSpeed)]

/-- `handleTouchMove` of a `TRACKPAD`. -/
def moveTrackpad (H : Host) (e : Element) (px py : ℚ) : Element × List Output :=
  let position := e.currentPosition.getD (0, 0)
  let deltaX := px - position.1
  let deltaY := py - position.2
  let r := sendTrackpad H e.bindings (trackpadStates deltaX deltaY) deltaX deltaY [0, 1, 2, 3]
    (0, 0) e.states
  let cursor := r.2.1
  ({ e with states := r.1, currentPosition := some (px, py) },
    r.2.2 ++ if cursor.1 ≠ 0 ∨ cursor.2 ≠ 0 then [.onPointerMove cursor.1 cursor.2] else [])

/-- `handleTouchMove` of a `STICK`. -/
def moveStick (H : Host) (e : Element) (px py : ℚ) : Element × List Output :=
  let box := e.getBoundingBox H.snappingSize
  let radius : ℚ := box.width * (1 / 2)
  let delta := e.padDelta H px py
  let r := sendPad H e.bindings (padStates (3 / 20) (11 / 50) e.states delta.1 delta.2)
    [0, 1, 2, 3] e.states
  ({ e with
      states := r.1
      currentPosition :=
        some (box.left + delta.1 * radius + radius, box.top + delta.2 * radius + radius) },
    r.2)

/-- `handleTouchMove` of a `D_PAD`. -/
def moveDPad (H : Host) (e : Element) (px py : ℚ) : Element × List Output :=
  let delta := e.padDelta H px py
  let r := sendPad H e.bindings (padStates (3 / 10) (21 / 50) e.states delta.1 delta.2)
    [0, 1, 2, 3] e.states
  ({ e with states := r.1 }, r.2)

/-- `handleTouchMove`. -/
def handleTouchMove (H : Host) (e : Element) (pointerId : ℕ) (px py : ℚ) :
    Element × List Output :=
  if (pointerId : ℤ) = e.currentPointerId then
    match e.type with
    | .button => (e, [])
    | .trackpad => (e.cacheBoundingBox H.snappingSize).moveTrackpad H px py
    | .stick => (e.cacheBoundingBox H.snappingSize).moveStick H px py
    | .dPad => (e.cacheBoundingBox H.snappingSize).moveDPad H px py
    | .rangeButton =>
      match e.scroller with
      | none => (e, [])
      | some s =>
        let r := s.handleTouchMove H e px py
        ({ (if s.isDragging then e.cacheBoundingBox H.snappingSize else e) with
            scroller := some r.1 }, r.2)
  else (e, [])

/-- `currentPointerId = pointerId`. -/
def withPointer (pointerId : ℤ) (e : Element) : Element := { e with currentPointerId := pointerId }

/-- `handleTouchDown` of an element that is free and under the point. -/
def capture (H : Host) (e : Element) (pointerId : ℕ) (px py : ℚ) : Element × List Output :=
  match e.type with
  | .button =>
    if e.isToggleSwitch then
      if e.toggleActive then
        ({ e.withPointer pointerId with toggleActive := false }, e.sendAllBindings H false)
      else ({ e.withPointer pointerId with toggleActive := true }, e.sendAllBindings H true)
    else
      ({ e.withPointer pointerId with
          touchTime :=
            if isKeepButtonPressedAfterMinTime then some H.currentTimeMillis else e.touchTime },
        e.sendAllBindings H true)
  | .rangeButton =>
    let r := (e.scroller.getD {}).handleTouchDown H e px py
    ({ e.withPointer pointerId with scroller := some r.1 }, r.2)
  | .trackpad =>
    { e.withPointer pointerId with currentPosition := some (px, py) }.handleTouchMove H
      pointerId px py
  | .dPad | .stick => (e.withPointer pointerId).handleTouchMove H pointerId px py

/-- `handleTouchDown`: whether the element takes the pointer, with the element afterwards. -/
def handleTouchDown (H : Host) (e : Element) (pointerId : ℕ) (px py : ℚ) :
    Bool × Element × List Output :=
  if e.currentPointerId = -1 then
    if e.containsPoint H.snappingSize px py then
      (true, (e.cacheBoundingBox H.snappingSize).capture H pointerId px py)
    else (false, e.cacheBoundingBox H.snappingSize, [])
  else (false, e, [])

/-- What the loop that releases the active directions sends; it leaves all `states` false. -/
def releaseStates (H : Host) (bs : List Binding) (states : Fin 4 → Bool) : List Output :=
  (List.finRange 4).flatMap fun i =>
    if states i then H.handleInputEvent (bindingAt bs i) false else []

/-- `handleTouchUp`. -/
def handleTouchUp (H : Host) (e : Element) (pointerId : ℕ) : Element × List Output :=
  if (pointerId : ℤ) = e.currentPointerId then
    match e.type with
    | .button =>
      -- a toggle keeps its keys down until it is touched again
      if e.isToggleSwitch then (e.withPointer (-1), [])
      else
        match isKeepButtonPressedAfterMinTime, e.touchTime with
        | true, some t =>
          let isSelected := decide (300 < H.currentTimeMillis - t)
          ({ e.withPointer (-1) with isSelected := isSelected, touchTime := none },
            if isSelected then [] else e.sendAllBindings H false)
        | _, _ => (e.withPointer (-1), e.sendAllBindings H false)
    | .rangeButton =>
      let out := releaseStates H e.bindings e.states
      match e.scroller with
      | none =>
        ({ e.withPointer (-1) with states := fun _ => false, currentPosition := none }, out)
      | some s =>
        let u := s.handleTouchUp H e
        ({ e.withPointer (-1) with
            states := fun _ => false, scroller := some u.1, currentPosition := none },
          out ++ u.2)
    | .dPad | .stick | .trackpad =>
      ({ e.withPointer (-1) with states := fun _ => false, currentPosition := none },
        releaseStates H e.bindings e.states)
  else (e, [])

/-- What `forceRelease` assigns for every type. -/
def cleared (e : Element) : Element :=
  { e with currentPointerId := -1, currentPosition := none, touchTime := none,
           isSelected := false }

/-- `forceRelease`: the scroller of a `RANGE_BUTTON` is dropped without being asked. -/
def forceRelease (H : Host) (e : Element) : Element × List Output :=
  match e.type with
  | .button =>
    if e.isToggleSwitch then
      if e.toggleActive then
        ({ e.cleared with toggleActive := false }, e.sendAllBindings H false)
      else (e.cleared, [])
    else (e.cleared, e.sendAllBindings H false)
  | .rangeButton =>
    ({ e.cleared with scroller := none, states := fun _ => false },
      releaseStates H e.bindings e.states)
  | .dPad | .stick | .trackpad =>
    ({ e.cleared with states := fun _ => false }, releaseStates H e.bindings e.states)

/-- A posted run of `flingRunnable` of the element's scroller. -/
def runFling (e : Element) : Element :=
  { e with scroller := e.scroller.map fun s => if 0 < s.pending then s.flingRunnable else s }

end Element

end TermuxX11.VirtualKeys
