import TermuxX11.VirtualKeys.Profile
import TermuxX11.VirtualKeys.Touch

/-!
# `VirtualKeysView`

The overlay: touch events are offered to the elements, and the pointers no element takes
move the cursor, scroll, tap and hold.  The operations return the new view and the calls on
the input sender, each with its source.  `none` is the `NullPointerException` of an element
that has no view yet, which ends the process.

`holdDetectorPosted` says that the hold detector is in the queue; `cancelHoldDetector`
removes it and running it takes it out.  `file` is what `profile.save()` last wrote.  The
vibrator and the drawing code are left out, `readyToDraw` and the reload of `onDraw` apart.
-/

namespace TermuxX11.VirtualKeys

open Java

/-- What a callback reads of the platform: preferences, clocks and `java.lang.Math`. -/
structure Platform where
  touchGestures : Bool
  relativeMouse : Bool
  mouseScrollSpeed : ℤ
  currentTimeMillis : ℤ
  uptimeMillis : ℤ
  math : JavaMath

/-- `getActionMasked()`. -/
inductive Action
  | down | pointerDown | move | up | pointerUp | cancel
  deriving DecidableEq, Repr

/-- One pointer of an event. -/
structure Pointer where
  id : ℕ
  x : ℚ
  y : ℚ
  deriving DecidableEq, Repr

/-- `MotionEvent`. -/
structure MotionEvent where
  action : Action
  pointers : List Pointer
  actionIndex : ℕ
  actionIndex_lt : actionIndex < pointers.length

namespace MotionEvent

/-- The pointer the action is about. -/
def actionPointer (ev : MotionEvent) : Pointer := ev.pointers.get ⟨ev.actionIndex, ev.actionIndex_lt⟩

/-- The pointer at index 0, whose coordinates are `getX()` and `getY()`. -/
def firstPointer (ev : MotionEvent) : Pointer :=
  ev.pointers.get ⟨0, Nat.zero_lt_of_lt ev.actionIndex_lt⟩

end MotionEvent

/-- Who makes a call on the input sender. -/
inductive Source
  | element (ref : ℕ)
  | view
  deriving DecidableEq, Repr

/-- The calls of one step, in order. -/
abbrev Calls := List (Source × Output)

/-- `android.util.SparseArray`. -/
abbrev SparseArray (α : Type) := AList fun _ : ℕ => α

/-- The fields of `VirtualKeysView`; `sent` is all that the input sender has received. -/
structure View where
  size : Size
  inputSender : Bool := false
  profile : Option Profile := none
  editMode : Bool := false
  showTouchscreenControls : Bool := true
  readyToDraw : Bool := false
  selectedElement : Option ℕ := none
  cursorX : Int32 := 0
  cursorY : Int32 := 0
  moveCursor : Bool := false
  offsetX : ℚ := 0
  offsetY : ℚ := 0
  mousePointerId : ℤ := -1
  mouseLastX : ℚ := 0
  mouseLastY : ℚ := 0
  touchDownPos : SparseArray (ℚ × ℚ) := ∅
  touchDownTime : SparseArray ℤ := ∅
  pointerOnElement : SparseArray Bool := ∅
  freePointerCount : ℤ := 0
  twoFingerScrollActive : Bool := false
  twoFingerLastCenterX : ℚ := 0
  twoFingerLastCenterY : ℚ := 0
  tapCount : ℤ := 0
  scrollAccumulatorX : ℚ := 0
  scrollAccumulatorY : ℚ := 0
  leftButtonHeld : Bool := false
  rightButtonHeld : Bool := false
  holdDetectorPosted : Bool := false
  nextRef : ℕ := 0
  file : Option Json := none
  sent : Calls := []

/-! ### Loops over the elements -/

/-- The calls of one element. -/
def Element.tag (e : Element) (os : List Output) : Calls := os.map fun o => (.element e.ref, o)

/-- A handler called on every element in turn. -/
def forElements (f : Element → Element × List Output) (es : List Element) :
    List Element × Calls :=
  (es.map fun e => (f e).1, es.flatMap fun e => e.tag (f e).2)

/-- The loop of `ACTION_DOWN`, which stops at the first element that takes the pointer. -/
def touchDownElements (H : Host) (pointerId : ℕ) (x y : ℚ) :
    List Element → Option (Bool × List Element × Calls)
  | [] => some (false, [], [])
  | e :: es =>
    if e.currentPointerId = -1 ∧ e.boundingBoxNeedsUpdate = true ∧ e.view = false then none
    else
      let r := e.handleTouchDown H pointerId x y
      if r.1 then some (true, r.2.1 :: es, e.tag r.2.2)
      else (touchDownElements H pointerId x y es).map fun s => (s.1, r.2.1 :: s.2.1, s.2.2)

/-- The loop of `ACTION_MOVE` over the pointers and the elements. -/
def touchMoveElements (H : Host) : List Pointer → List Element → List Element × Calls
  | [], es => (es, [])
  | p :: ps, es =>
    let r := forElements (fun e => e.handleTouchMove H p.id p.x p.y) es
    let r' := touchMoveElements H ps r.1
    (r'.1, r.2 ++ r'.2)

/-- `intersectElement`: the first element under the point, with the boxes that were computed
on the way. -/
def intersectElement (snappingSize : ℤ) (x y : ℚ) :
    List Element → Option (Option Element × List Element)
  | [] => some (none, [])
  | e :: es =>
    if e.boundingBoxNeedsUpdate = true ∧ e.view = false then none
    else
      let e' := e.cacheBoundingBox snappingSize
      if e.containsPoint snappingSize x y then some (some e', e' :: es)
      else (intersectElement snappingSize x y es).map fun r => (r.1, e' :: r.2)

/-- `forceRelease` makes a call on the view. -/
def Element.forceReleaseCallsView (e : Element) : Bool :=
  match e.type with
  | .button => (if e.isToggleSwitch then e.toggleActive else true) && e.bindings.any (· ≠ .none)
  | _ => (List.finRange 4).any e.states

/-- The loop of `releaseAllKeys`. -/
def forceReleaseElements (H : Host) : List Element → Option (List Element × Calls)
  | [] => some ([], [])
  | e :: es =>
    if e.view = false ∧ e.forceReleaseCallsView = true then none
    else
      let r := e.forceRelease H
      (forceReleaseElements H es).map fun s => (r.1 :: s.1, e.tag r.2 ++ s.2)

namespace View

/-- `profile.getElements()`. -/
def elements (v : View) : List Element := (v.profile.map Profile.elements).getD []

/-- The element objects are modified in place. -/
def withElements (es : List Element) (v : View) : View :=
  { v with profile := v.profile.map fun p => { p with elements := es } }

/-- What the elements read during a callback. -/
def host (P : Platform) (v : View) : Host :=
  { snappingSize := v.size.snappingSize
    mouseScrollSpeed := P.mouseScrollSpeed
    currentTimeMillis := P.currentTimeMillis
    math := P.math }

/-! ### The hold detector -/

/-- `scheduleHoldDetector`. -/
def scheduleHoldDetector (v : View) : View := { v with holdDetectorPosted := true }

/-- `cancelHoldDetector`. -/
def cancelHoldDetector (v : View) : View := { v with holdDetectorPosted := false }

/-- The posted hold detector runs. -/
def runHoldDetector (P : Platform) (v : View) : View × Calls :=
  if v.holdDetectorPosted then
    let v := { v with holdDetectorPosted := false }
    if !P.touchGestures && v.inputSender then
      -- two fingers hold the right button, one holds the left
      if 2 ≤ v.freePointerCount ∧ v.twoFingerScrollActive = false ∧ v.rightButtonHeld = false ∧
          v.leftButtonHeld = false then
        ({ v with rightButtonHeld := true }, [(.view, .onPointerButton 3 true)])
      else if v.freePointerCount = 1 ∧ v.leftButtonHeld = false then
        ({ v with leftButtonHeld := true }, [(.view, .onPointerButton 1 true)])
      else (v, [])
    else (v, [])
  else (v, [])

/-- A posted run of the fling of the scroller of the element `ref`; the run of a scroller
that has been dropped changes nothing. -/
def runFling (ref : ℕ) (v : View) : View :=
  v.withElements (v.elements.map fun e => if e.ref = ref then e.runFling else e)

/-! ### Free pointers -/

/-- The pointers of an event that no element took. -/
def freePointers (v : View) (ev : MotionEvent) : List Pointer :=
  ev.pointers.filter fun p => v.pointerOnElement.lookup p.id = some false

/-- `computeFreeCenterX` and `computeFreeCenterY`. -/
def computeFreeCenter (v : View) (ev : MotionEvent) : ℚ × ℚ :=
  match v.freePointers ev with
  | [] => (ev.firstPointer.x, ev.firstPointer.y)
  | ps => ((ps.map Pointer.x).sum / ps.length, (ps.map Pointer.y).sum / ps.length)

/-- The distance of a pointer from the point where it went down. -/
def distance (P : Platform) (p : Pointer) (down : ℚ × ℚ) : ℚ :=
  P.math.sqrt ((p.x - down.1) ^ 2 + (p.y - down.2) ^ 2)

/-- A free pointer goes down. -/
def freePointerDown (P : Platform) (ev : MotionEvent) (v : View) : View :=
  let p := ev.actionPointer
  let v :=
    { v with
      touchDownPos := v.touchDownPos.insert p.id (p.x, p.y)
      touchDownTime := v.touchDownTime.insert p.id P.uptimeMillis
      freePointerCount := v.freePointerCount + 1 }
  let v :=
    if v.mousePointerId = -1 then
      { v with mousePointerId := p.id, mouseLastX := p.x, mouseLastY := p.y }
    else v
  if v.freePointerCount = 1 then v.scheduleHoldDetector
  else if v.freePointerCount = 2 then
    let center := v.computeFreeCenter ev
    { v with
      twoFingerLastCenterX := center.1
      twoFingerLastCenterY := center.2
      twoFingerScrollActive := false }.scheduleHoldDetector
  else v

/-- `ACTION_DOWN` and `ACTION_POINTER_DOWN`. -/
def touchDown (P : Platform) (ev : MotionEvent) (v : View) : Option (View × Calls) :=
  let p := ev.actionPointer
  (touchDownElements (v.host P) p.id p.x p.y v.elements).map fun r =>
    let v := v.withElements r.2.1
    let v := { v with pointerOnElement := v.pointerOnElement.insert p.id r.1 }
    (if r.1 then v else v.freePointerDown P ev, r.2.2)

/-- The two-finger branch of `ACTION_MOVE`: the hold ends, the centre moves on. -/
def moveCenter (P : Platform) (ev : MotionEvent) (v : View) : View × (ℚ × ℚ) :=
  let moved := (v.freePointers ev).any fun p =>
    match v.touchDownPos.lookup p.id with
    | some down => decide (15 ≤ distance P p down)
    | none => false
  let v := if moved then v.cancelHoldDetector else v
  let center := v.computeFreeCenter ev
  ({ v with twoFingerLastCenterX := center.1, twoFingerLastCenterY := center.2 },
    (center.1 - v.twoFingerLastCenterX, center.2 - v.twoFingerLastCenterY))

/-- The vertical scroll of `ACTION_MOVE`. -/
def scrollVertical (v : View) : View × Calls :=
  if 20 ≤ |v.scrollAccumulatorY| ∧ v.inputSender = true then
    ({ v with scrollAccumulatorY := 0, twoFingerScrollActive := true }.cancelHoldDetector,
      [(.view, .onScroll 0 v.scrollAccumulatorY)])
  else (v, [])

/-- The horizontal scroll of `ACTION_MOVE`. -/
def scrollHorizontal (v : View) : View × Calls :=
  if 20 ≤ |v.scrollAccumulatorX| ∧ v.inputSender = true then
    ({ v with scrollAccumulatorX := 0, twoFingerScrollActive := true }.cancelHoldDetector,
      [(.view, .onScroll v.scrollAccumulatorX 0)])
  else (v, [])

/-- The scroll accumulators after a displacement of the centre. -/
def accumulateScroll (d : ℚ × ℚ) (v : View) : View :=
  { v with
    scrollAccumulatorX := v.scrollAccumulatorX + d.1
    scrollAccumulatorY := v.scrollAccumulatorY + d.2 }

/-- `ACTION_MOVE` with two free pointers or more. -/
def moveTwoFingers (P : Platform) (ev : MotionEvent) (v : View) : View × Calls :=
  let c := v.moveCenter P ev
  if 2 < v.freePointerCount then
    -- a third finger ends the scroll
    ({ c.1 with scrollAccumulatorX := 0, scrollAccumulatorY := 0 }.cancelHoldDetector, [])
  else
    let r := (c.1.accumulateScroll c.2).scrollVertical
    let r' := r.1.scrollHorizontal
    (r'.1, r.2 ++ r'.2)

/-- The motion that is sent for a displacement of the finger on the cursor. -/
def cursorMotion (P : Platform) (dx dy : ℚ) : ℤ × ℤ :=
  if P.relativeMouse = true ∧ (4 < |dx| ∨ 4 < |dy|) then (truncate (dx * 2), truncate (dy * 2))
  else (truncate dx, truncate dy)

/-- `ACTION_MOVE` with one free pointer. -/
def moveOneFinger (P : Platform) (ev : MotionEvent) (v : View) : View × Calls :=
  match (v.freePointers ev).find? fun p => (p.id : ℤ) = v.mousePointerId with
  | none => (v, [])
  | some p =>
    let dx := p.x - v.mouseLastX
    let dy := p.y - v.mouseLastY
    let moved :=
      match v.touchDownPos.lookup p.id with
      | some down => !v.leftButtonHeld && decide (15 ≤ distance P p down)
      | none => false
    let motion := cursorMotion P dx dy
    let v' := if (dx ≠ 0 ∨ dy ≠ 0) ∧ moved = true then v.cancelHoldDetector else v
    ({ v' with mouseLastX := p.x, mouseLastY := p.y },
      if (dx ≠ 0 ∨ dy ≠ 0) ∧ (motion.1 ≠ 0 ∨ motion.2 ≠ 0) then
        [(.view, .onPointerMove motion.1 motion.2)]
      else [])

/-- The free pointers are counted; with two of them and no scroll yet, the centre is set. -/
def countFreePointers (ev : MotionEvent) (v : View) : View :=
  let v := { v with freePointerCount := (v.freePointers ev).length }
  if v.freePointerCount = 2 ∧ v.twoFingerScrollActive = false then
    let center := v.computeFreeCenter ev
    { v with
      twoFingerLastCenterX := center.1
      twoFingerLastCenterY := center.2
      scrollAccumulatorX := 0
      scrollAccumulatorY := 0 }
  else v

/-- `ACTION_MOVE` for the free pointers. -/
def moveFreePointers (P : Platform) (ev : MotionEvent) (v : View) : View × Calls :=
  let v := v.countFreePointers ev
  if 2 ≤ v.freePointerCount ∧ P.touchGestures = false ∧ v.rightButtonHeld = false ∧
      v.leftButtonHeld = false then
    v.moveTwoFingers P ev
  else if v.freePointerCount = 1 then v.moveOneFinger P ev
  else (v, [])

/-- `ACTION_MOVE`. -/
def touchMove (P : Platform) (ev : MotionEvent) (v : View) : View × Calls :=
  let r := touchMoveElements (v.host P) ev.pointers v.elements
  let r' := (v.withElements r.1).moveFreePointers P ev
  (r'.1, r.2 ++ r'.2)

/-- Whether the pointer that goes up was a tap. -/
def isTap (P : Platform) (ev : MotionEvent) (v : View) : Bool :=
  let id := ev.actionPointer.id
  match v.touchDownPos.lookup id, v.touchDownTime.lookup id,
      ev.pointers.find? fun p => p.id = id with
  | some pos, some time, some p =>
    decide (distance P p pos < 25) && decide (P.uptimeMillis - time < 350)
  | _, _, _ => false

/-- A pointer goes up: its entries are removed, and a free one may be a tap. -/
def removePointer (P : Platform) (ev : MotionEvent) (v : View) : View :=
  let id := ev.actionPointer.id
  let v := if (id : ℤ) = v.mousePointerId then { v with mousePointerId := -1 } else v
  let wasOnElement := (v.pointerOnElement.lookup id).getD false
  let v :=
    if wasOnElement then v
    else
      { v with
        freePointerCount := max 0 (v.freePointerCount - 1)
        tapCount :=
          if P.touchGestures = false ∧ v.twoFingerScrollActive = false ∧
              v.rightButtonHeld = false ∧ v.leftButtonHeld = false ∧ v.isTap P ev = true then
            v.tapCount + 1
          else v.tapCount }
  { v with
    pointerOnElement := v.pointerOnElement.erase id
    touchDownPos := v.touchDownPos.erase id
    touchDownTime := v.touchDownTime.erase id }

/-- The end of the gesture: held buttons are released, a tap becomes a click. -/
def allPointersReleased (P : Platform) (v : View) : View × Calls :=
  ({ v with
      leftButtonHeld := false
      rightButtonHeld := false
      mousePointerId := -1
      freePointerCount := 0
      twoFingerScrollActive := false
      scrollAccumulatorX := 0
      scrollAccumulatorY := 0
      tapCount := 0
      touchDownPos := ∅
      touchDownTime := ∅
      pointerOnElement := ∅ },
    (if v.leftButtonHeld then [(.view, .onPointerButton 1 false)] else []) ++
      (if v.rightButtonHeld then [(.view, .onPointerButton 3 false)] else []) ++
      -- both flags are false here, so they do not stop the click
      if P.touchGestures = false ∧ v.twoFingerScrollActive = false then
        if v.tapCount = 1 then
          [(.view, .onPointerButton 1 true), (.view, .onPointerButton 1 false)]
        else if 2 ≤ v.tapCount then
          [(.view, .onPointerButton 3 true), (.view, .onPointerButton 3 false)]
        else []
      else [])

/-- `ACTION_UP`, `ACTION_POINTER_UP` and `ACTION_CANCEL`. -/
def touchUp (P : Platform) (ev : MotionEvent) (v : View) : View × Calls :=
  let v := v.cancelHoldDetector
  -- also for `ACTION_CANCEL`, only the elements under the pointer of the event are told
  let r := forElements (fun e => e.handleTouchUp (v.host P) ev.actionPointer.id) v.elements
  let v := (v.withElements r.1).removePointer P ev
  if ev.action = .up ∨ ev.action = .cancel ∨
      (v.freePointerCount = 0 ∧ v.pointerOnElement.entries.length = 0) then
    let r' := v.allPointersReleased P
    (r'.1, r.2 ++ r'.2)
  else (v, r.2)

/-! ### Edit mode -/

/-- `selectedElement = ref`. -/
def withSelection (ref : Option ℕ) (v : View) : View := { v with selectedElement := ref }

/-- `deselectAllElements`. -/
def deselectAllElements (v : View) : View :=
  (v.withElements (v.elements.map (Element.setSelected false))).withSelection none

/-- The mark of the selected element, which only the drawing code reads. -/
def markSelected (ref : ℕ) (v : View) : View :=
  v.withElements (v.elements.map fun e => if e.ref = ref then e.setSelected true else e)

/-- `selectElement`, on one of the elements. -/
def selectElement (ref : Option ℕ) (v : View) : View :=
  match ref with
  | none => v.deselectAllElements
  | some ref => (v.deselectAllElements.withSelection (some ref)).markSelected ref

/-- `profile.save()`. -/
def save (v : View) : View :=
  match v.profile with
  | none => v
  | some p => { v with file := some (p.document (some v.size)) }

/-- `roundTo`; `Math.round` saturates and the product wraps around. -/
def roundTo (value : ℚ) (snapping : ℤ) : Int32 :=
  Int32.ofInt (saturate (round (value / snapping)) * snapping)

/-- `f` applied to the selected element. -/
def modifySelected (f : Element → Element) (v : View) : View :=
  v.withElements (v.elements.map fun e => if some e.ref = v.selectedElement then f e else e)

/-- A pointer goes down in edit mode, on an element or beside all of them. -/
def pickUp (p : Pointer) (hit : Option Element) (v : View) : View :=
  match hit with
  | none => { v with moveCursor := true }
  | some e => { v with offsetX := p.x - e.x, offsetY := p.y - e.y, moveCursor := false }

/-- `onTouchEvent` in edit mode. -/
def touchEdit (ev : MotionEvent) (v : View) : Option View :=
  let p := ev.firstPointer
  let ss := v.size.snappingSize
  match ev.action with
  | .down =>
    (intersectElement ss p.x p.y v.elements).map fun r =>
      ((v.withElements r.2).pickUp p r.1).selectElement (r.1.map Element.ref)
  | .move =>
    some (v.modifySelected fun e =>
      (e.setX (roundTo (p.x - v.offsetX) ss).toInt).setY (roundTo (p.y - v.offsetY) ss).toInt)
  | .up =>
    let v := if v.selectedElement.isSome then v.save else v
    some (if v.moveCursor then { v with cursorX := roundTo p.x ss, cursorY := roundTo p.y ss }
      else v)
  | _ => some v

/-- `onTouchEvent`. -/
def onTouchEvent (P : Platform) (ev : MotionEvent) (v : View) : Option (View × Calls) :=
  if v.editMode = true ∧ v.readyToDraw = true then
    (v.touchEdit ev).map fun v => (v, [])
  else if v.editMode = false ∧ v.profile.isSome = true ∧ v.showTouchscreenControls = true then
    match ev.action with
    | .down | .pointerDown => v.touchDown P ev
    | .move => some (v.touchMove P ev)
    | .up | .pointerUp | .cancel => some (v.touchUp P ev)
  else some (v, [])

/-! ### Release and reload -/

/-- `releaseAllKeys`. -/
def releaseAllKeys (P : Platform) (v : View) : Option (View × Calls) :=
  (forceReleaseElements (v.host P) v.elements).map fun r => (v.withElements r.1, r.2)

/-- `this.profile = profile`. -/
def withProfile (p : Profile) (v : View) : View := { v with profile := some p }

/-- `profile.loadElements(this)`. -/
def loadProfile (C : Coercions) (p : Profile) (v : View) : View :=
  { v with
    profile := some (p.loadElements C v.size v.nextRef)
    nextRef := v.nextRef + ((p.elementsJson.map List.length).getD 0) }

/-- `reloadElements`: the old selection is looked for among new objects. -/
def reloadElements (C : Coercions) (v : View) : View :=
  match v.profile with
  | none => v
  | some p =>
    match v.selectedElement with
    | none => v.loadProfile C p
    | some ref =>
      (v.loadProfile C p).selectElement
        (((v.loadProfile C p).elements.find? fun e => e.ref = ref).map Element.ref)

/-- `setProfile`. -/
def setProfile (C : Coercions) (p : Profile) (v : View) : View :=
  let v := (v.withProfile p).deselectAllElements
  if 0 < v.size.width ∧ 0 < v.size.height then v.reloadElements C else v

/-- `onSizeChanged`. -/
def onSizeChanged (C : Coercions) (s : Size) (v : View) : View :=
  let v := { v with size := s }
  if 0 < s.width ∧ 0 < s.height then v.reloadElements C else v

/-- `onConfigurationChanged`. -/
def onConfigurationChanged (C : Coercions) (v : View) : View :=
  if 0 < v.size.width ∧ 0 < v.size.height then v.reloadElements C else v

/-- `onDraw`, as far as it changes the view. -/
def onDraw (C : Coercions) (v : View) : View :=
  if v.size.width = 0 ∨ v.size.height = 0 then { v with readyToDraw := false }
  else
    let v := { v with readyToDraw := true }
    if v.profile.any fun p => !p.elementsLoaded then v.reloadElements C else v

/-- `addElement`. -/
def addElement (v : View) : View :=
  match v.profile with
  | some p =>
    if v.editMode then
      let e : Element := { ref := v.nextRef, view := true }
      let e := ((e.setX v.cursorX.toInt).setY v.cursorY.toInt).initDefaultBindings
      let v :=
        { v with
          profile := some { p with elements := p.elements ++ [e] }
          nextRef := v.nextRef + 1 }
      v.save.selectElement (some e.ref)
    else v
  | none => v

/-- `removeElement`. -/
def removeElement (v : View) : View :=
  match v.profile, v.selectedElement with
  | some p, some ref =>
    if v.editMode then
      { v with
        profile := some { p with elements := p.elements.eraseP fun e => e.ref = ref }
        selectedElement := none }.save
    else v
  | _, _ => v

/-! ### Callbacks -/

/-- The calls of a step reach the input sender, if there is one. -/
def deliver (v : View) (r : View × Calls) : View :=
  { r.1 with sent := v.sent ++ if v.inputSender then r.2 else [] }

end View

/-- What the platform calls in the course of a gesture. -/
inductive Callback
  | touch (P : Platform) (ev : MotionEvent)
  | holdDetector (P : Platform)
  | fling (ref : ℕ)

/-- A callback runs. -/
def Callback.run : Callback → View → Option (View × Calls)
  | touch P ev, v => v.onTouchEvent P ev
  | holdDetector P, v => some (v.runHoldDetector P)
  | fling ref, v => some (v.runFling ref, [])

/-- One callback. -/
def View.step (v : View) (c : Callback) : Option View := (c.run v).map v.deliver

end TermuxX11.VirtualKeys
