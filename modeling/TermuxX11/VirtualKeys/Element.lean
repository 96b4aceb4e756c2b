import TermuxX11.Lib.Java
import TermuxX11.VirtualKeys.Binding

/-!
# `VirtualKeysElement`: data, setters and geometry

One on-screen control.  Coordinates, scales and ratios are exact rationals; `(int)` on a
`float` truncates toward zero and `Math.round` is `round`.  An `int` is an integer, a
`byte` is an `Int8`, a `String` a row of UTF-16 units.  `ref` is the identity of the object,
which the code compares with `==`.  The drawing code and `interpolator` are left out.
-/

namespace TermuxX11.VirtualKeys

open Java

/-- `VirtualKeysElement.Type`. -/
inductive ElementType
  | button | dPad | rangeButton | stick | trackpad
  deriving DecidableEq, Repr

/-- `VirtualKeysElement.Shape`. -/
inductive Shape
  | circle | rect | roundRect | square
  deriving DecidableEq, Repr

/-- `VirtualKeysElement.Range`. -/
inductive Range
  | fromAToZ | digits | functionKeys | numpadDigits
  deriving DecidableEq, Repr

namespace ElementType

/-- `name()`. -/
def name : ElementType → String
  | button => "BUTTON"
  | dPad => "D_PAD"
  | rangeButton => "RANGE_BUTTON"
  | stick => "STICK"
  | trackpad => "TRACKPAD"

/-- `valueOf`; `none` stands for the `IllegalArgumentException`. -/
def valueOf : String → Option ElementType
  | "BUTTON" => some button
  | "D_PAD" => some dPad
  | "RANGE_BUTTON" => some rangeButton
  | "STICK" => some stick
  | "TRACKPAD" => some trackpad
  | _ => none

theorem valueOf_name (t : ElementType) : valueOf t.name = some t := by
  cases t <;> rfl

end ElementType

namespace Shape

/-- `name()`. -/
def name : Shape → String
  | circle => "CIRCLE"
  | rect => "RECT"
  | roundRect => "ROUND_RECT"
  | square => "SQUARE"

/-- `valueOf`. -/
def valueOf : String → Option Shape
  | "CIRCLE" => some circle
  | "RECT" => some rect
  | "ROUND_RECT" => some roundRect
  | "SQUARE" => some square
  | _ => none

theorem valueOf_name (s : Shape) : valueOf s.name = some s := by
  cases s <;> rfl

end Shape

namespace Range

/-- `max`: the number of keys in the range. -/
def max : Range → ℤ
  | fromAToZ => 26
  | digits => 10
  | functionKeys => 12
  | numpadDigits => 10

/-- `name()`. -/
def name : Range → String
  | fromAToZ => "FROM_A_TO_Z"
  | digits => "DIGITS"
  | functionKeys => "FUNCTION_KEYS"
  | numpadDigits => "NUMPAD_DIGITS"

/-- `Range.fromString`, with its aliases. -/
def fromString : String → Option Range
  | "FROM_A_TO_Z" | "A-Z" => some fromAToZ
  | "FROM_0_TO_9" | "0-9" | "DIGITS" => some digits
  | "FROM_F1_TO_F12" | "F1-F12" | "FUNCTION_KEYS" => some functionKeys
  | "FROM_NP0_TO_NP9" | "NP0-NP9" | "NUMPAD_DIGITS" => some numpadDigits
  | _ => none

theorem fromString_name (r : Range) : fromString r.name = some r := by
  cases r <;> rfl

end Range

/-- `android.graphics.Rect`. -/
structure Rect where
  left : ℤ
  top : ℤ
  right : ℤ
  bottom : ℤ
  deriving DecidableEq, Repr

/-- `width()`. -/
def Rect.width (r : Rect) : ℤ := r.right - r.left

/-- `contains(int, int)`: an empty rectangle contains nothing. -/
def Rect.contains (r : Rect) (x y : ℤ) : Bool :=
  r.left < r.right && r.top < r.bottom && r.left ≤ x && x < r.right && r.top ≤ y && y < r.bottom

/-- The fields of `RangeScroller`.  `pending` counts the posted runs of `flingRunnable`. -/
structure RangeScroller where
  scrollOffset : ℚ := 0
  lastTouchX : ℚ := 0
  lastTouchY : ℚ := 0
  isDragging : Bool := false
  lastActivatedIndex : ℤ := -1
  velocity : ℚ := 0
  lastMoveTime : ℤ := 0
  flinging : Bool := false
  pending : ℕ := 0
  deriving DecidableEq, Repr

/-- The fields of `VirtualKeysElement`.  `view` says whether the element has been given a
view; the constructor without arguments leaves it `null`. -/
structure Element where
  ref : ℕ := 0
  view : Bool := false
  type : ElementType := .button
  shape : Shape := .circle
  bindings : List Binding := [.none, .none, .none, .none]
  scale : ℚ := 1
  x : ℤ := 0
  y : ℤ := 0
  isSelected : Bool := false
  isToggleSwitch : Bool := false
  text : JString := ""
  iconId : Int8 := 0
  range : Option Range := none
  orientation : Int8 := 0
  columns : ℤ := 5
  currentPointerId : ℤ := -1
  boundingBox : Rect := ⟨0, 0, 0, 0⟩
  boundingBoxNeedsUpdate : Bool := true
  ratioX : ℚ := -1
  ratioY : ℚ := -1
  states : Fin 4 → Bool := fun _ => false
  currentPosition : Option (ℚ × ℚ) := none
  touchTime : Option ℤ := none
  scroller : Option RangeScroller := none
  toggleActive : Bool := false

/-- The binding at an index of the array, `NONE` beyond its end. -/
def bindingAt (bs : List Binding) (i : ℕ) : Binding := bs.getD i .none

namespace Element

/-! ### Setters -/

/-- `reset()`. -/
def reset (e : Element) : Element :=
  { e with
    text := ""
    iconId := 0
    range := none
    scroller := none
    toggleActive := false
    columns := 5
    orientation := 0
    boundingBoxNeedsUpdate := true }

/-- `setType`. -/
def setType (t : ElementType) (e : Element) : Element :=
  if e.type = t then e else reset { e with type := t }

/-- `setShape`. -/
def setShape (s : Shape) (e : Element) : Element :=
  if e.shape = s then e else { e with shape := s, boundingBoxNeedsUpdate := true }

/-- `setScale`. -/
def setScale (q : ℚ) (e : Element) : Element :=
  if e.scale = q then e else { e with scale := q, boundingBoxNeedsUpdate := true }

/-- `setX`. -/
def setX (n : ℤ) (e : Element) : Element :=
  if e.x = n then e else { e with x := n, boundingBoxNeedsUpdate := true }

/-- `setY`. -/
def setY (n : ℤ) (e : Element) : Element :=
  if e.y = n then e else { e with y := n, boundingBoxNeedsUpdate := true }

@[simp] theorem setX_x (n : ℤ) (e : Element) : (e.setX n).x = n := by
  unfold setX
  split_ifs with h
  · exact h
  · rfl

@[simp] theorem setY_x (n : ℤ) (e : Element) : (e.setY n).x = e.x := by
  unfold setY
  split_ifs <;> rfl

@[simp] theorem setY_y (n : ℤ) (e : Element) : (e.setY n).y = n := by
  unfold setY
  split_ifs with h
  · exact h
  · rfl

/-- `setRatio`. -/
def setRatio (rx ry : ℚ) (e : Element) : Element := { e with ratioX := rx, ratioY := ry }

/-- `setSelected`. -/
def setSelected (b : Bool) (e : Element) : Element := { e with isSelected := b }

/-- `setToggleSwitch`. -/
def setToggleSwitch (b : Bool) (e : Element) : Element := { e with isToggleSwitch := b }

/-- `setText`. -/
def setText (t : JString) (e : Element) : Element := { e with text := t }

/-- `setIconId`. -/
def setIconId (i : Int8) (e : Element) : Element := { e with iconId := i }

/-- `setRange`. -/
def setRange (r : Option Range) (e : Element) : Element := { e with range := r }

/-- `setOrientation`. -/
def setOrientation (o : Int8) (e : Element) : Element :=
  if e.orientation = o then e else { e with orientation := o, boundingBoxNeedsUpdate := true }

/-- `setColumns`. -/
def setColumns (n : ℤ) (e : Element) : Element :=
  if e.columns = n then e else { e with columns := max 1 n, boundingBoxNeedsUpdate := true }

/-- `setBindingAt`: an index beyond the end extends the array by `NONE`. -/
def setBindingAt (i : ℕ) (b : Binding) (e : Element) : Element :=
  if e.bindings.length ≤ i then
    { e with
      bindings := e.bindings ++ List.replicate (i - e.bindings.length) .none ++ [b]
      states := fun _ => false
      boundingBoxNeedsUpdate := true }
  else { e with bindings := e.bindings.set i b }

/-- `initDefaultBindings`. -/
def initDefaultBindings (e : Element) : Element :=
  match e.type with
  | .dPad | .stick => { e with bindings := [.keyW, .keyD, .keyS, .keyA] }
  | .trackpad =>
    { e with bindings := [.mouseMoveUp, .mouseMoveRight, .mouseMoveDown, .mouseMoveLeft] }
  | .rangeButton => { e with scroller := some {} }
  | .button => e

/-! ### The bounding box -/

/-- Half the width and height before scaling, in `computeBoundingBox`. -/
def halfExtent (snappingSize : ℤ) (e : Element) : ℤ × ℤ :=
  match e.type with
  | .button =>
    match e.shape with
    | .rect | .roundRect => (snappingSize * 4, snappingSize * 2)
    | .square => (truncate (snappingSize * (5 / 2)), truncate (snappingSize * (5 / 2)))
    | .circle => (snappingSize * 3, snappingSize * 3)
  | .dPad => (snappingSize * 7, snappingSize * 7)
  | .trackpad | .stick => (snappingSize * 6, snappingSize * 6)
  | .rangeButton =>
    let halfWidth := (e.columns * 4 * snappingSize).tdiv 2
    let halfHeight := snappingSize * 2
    if e.orientation = 1 then (halfHeight, halfWidth) else (halfWidth, halfHeight)

/-- `computeBoundingBox`. -/
def computeBoundingBox (snappingSize : ℤ) (e : Element) : Rect :=
  let half := e.halfExtent snappingSize
  let halfWidth := truncate (half.1 * e.scale)
  let halfHeight := truncate (half.2 * e.scale)
  ⟨e.x - halfWidth, e.y - halfHeight, e.x + halfWidth, e.y + halfHeight⟩

/-- The value of `getBoundingBox`. -/
def getBoundingBox (snappingSize : ℤ) (e : Element) : Rect :=
  if e.boundingBoxNeedsUpdate then e.computeBoundingBox snappingSize else e.boundingBox

/-- The effect of `getBoundingBox`: the box is cached. -/
def cacheBoundingBox (snappingSize : ℤ) (e : Element) : Element :=
  { e with boundingBox := e.getBoundingBox snappingSize, boundingBoxNeedsUpdate := false }

/-- `containsPoint`. -/
def containsPoint (snappingSize : ℤ) (e : Element) (px py : ℚ) : Bool :=
  (e.getBoundingBox snappingSize).contains (truncate (px + 1 / 2)) (truncate (py + 1 / 2))

end Element

end TermuxX11.VirtualKeys
