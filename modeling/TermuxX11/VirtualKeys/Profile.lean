import TermuxX11.VirtualKeys.Element

/-!
# `VirtualKeysProfile`: elements and documents

A profile keeps the elements and the JSON array they were read from.  Elements are read in
two places, `fromJSON` without a view and `loadElements` for a view of a given size, by the
same code up to the position; `parseElement` is that code.  `toJSONObject` writes them, as far
as their numbers are finite: `put` throws for the others, and what was put by then is kept.
`document` is what a file holds in which that was saved.

The names of the enumerations have no question mark in them, so that a string with a surrogate
on its own is none of them.  The second `fromJSON`, an instance method, is not called anywhere.
-/

namespace TermuxX11.VirtualKeys

open Java

/-- The size of a view, `getWidth()` and `getHeight()`. -/
structure Size where
  width : ℤ
  height : ℤ
  deriving DecidableEq, Repr

namespace Size

/-- `getSnappingSize`. -/
def snappingSize (s : Size) : ℤ := if 0 < s.width then max s.width s.height / 100 else 10

/-- A length rounded to the grid, in `getMaxWidth` and `getMaxHeight`. -/
def snapped (s : Size) (n : ℤ) : ℤ :=
  if 0 < s.snappingSize then round ((n : ℚ) / s.snappingSize) * s.snappingSize else n

/-- `getMaxWidth`. -/
def maxWidth (s : Size) : ℤ := s.snapped s.width

/-- `getMaxHeight`. -/
def maxHeight (s : Size) : ℤ := s.snapped s.height

end Size

/-! ### Writing -/

/-- The position that `toJSONObject` writes, with a view of size `s` or without one. -/
def Element.writtenPosition (s : Option Size) (e : Element) : ℚ × ℚ :=
  match s with
  | some s => (e.x / max s.maxWidth 1, e.y / max s.maxHeight 1)
  | none => if 0 ≤ e.ratioX ∧ 0 ≤ e.ratioY then (e.ratioX, e.ratioY) else (e.x / 1000, e.y / 1000)

/-- The fields that `toJSONObject` puts, in order. -/
def Element.fields (s : Option Size) (e : Element) : JSONObject :=
  [("type", .str e.type.name), ("shape", .str e.shape.name), ("scale", .num e.scale),
    ("x", .num (e.writtenPosition s).1), ("y", .num (e.writtenPosition s).2),
    ("toggleSwitch", .bool e.isToggleSwitch), ("text", .str e.text),
    ("iconId", .int e.iconId.toInt),
    ("bindings", .arr (e.bindings.map fun b => .str b.name))] ++
  match e.type, e.range with
  | .rangeButton, some r =>
    [("range", .str r.name), ("columns", .int e.columns)] ++
      if e.orientation = 0 then [] else [("orientation", .int e.orientation.toInt)]
  | _, _ => []

/-- How many fields are put before `put` throws. -/
def Element.failsAt (s : Option Size) (e : Element) : Option ℕ :=
  if overflowsFloat e.scale then some 2
  else if s.isNone ∧ 0 ≤ e.ratioX ∧ 0 ≤ e.ratioY then
    if overflowsDouble e.ratioX then some 3 else if overflowsDouble e.ratioY then some 4 else none
  else none

/-- In a view all numbers are finite but perhaps the scale. -/
theorem Element.failsAt_some (s : Size) (e : Element) :
    e.failsAt (some s) = if overflowsFloat e.scale then some 2 else none := by
  simp [failsAt]

/-- `VirtualKeysElement.toJSONObject`, with its `catch`; `s` is the size of the element's view. -/
def Element.toJSONObject (s : Option Size) (e : Element) : Json :=
  match e.failsAt s with
  | none => .obj (e.fields s)
  | some n => .obj ((e.fields s).take n)

/-! ### Reading -/

/-- The position of a parsed element, set only for a view. -/
def Element.place (s : Option Size) (e : Element) : Element :=
  match s with
  | some s => (e.setX (toInt (e.ratioX * s.maxWidth))).setY (toInt (e.ratioY * s.maxHeight))
  | none => e

/-- The loop over the names in `bindings`. -/
def Element.setBindingsFrom (names : List JString) (e : Element) : Element :=
  names.zipIdx.foldl (fun e n => e.setBindingAt n.2 (Binding.fromString (textOf n.1))) e

/-- A setter whose field of the document may be missing. -/
def setIfPresent (el : JSONObject) (field : String) (set : Option (Element → Element)) :
    Option (Element → Element) :=
  if JSONObject.has el field then set else some id

/-- One element of a document, as what its fields do to a new element of a view of size `s`,
or of no view. -/
def parseSetters (C : Coercions) (j : Json) : Option (Option Size → Element → Element) := do
  let el ← j.toObject
  let type ← (JSONObject.getString C el "type").bind fun t => ElementType.valueOf (textOf t)
  let shape ← (JSONObject.getString C el "shape").bind fun t => Shape.valueOf (textOf t)
  let scale ← JSONObject.getDouble C el "scale"
  let ratioX ← JSONObject.getDouble C el "x"
  let ratioY ← JSONObject.getDouble C el "y"
  let toggleSwitch ← JSONObject.getBoolean el "toggleSwitch"
  let range ← setIfPresent el "range"
    ((JSONObject.getString C el "range").map fun r =>
      Element.setRange (Range.fromString (textOf r)))
  let orientation ← setIfPresent el "orientation"
    ((JSONObject.getInt C el "orientation").map fun o =>
      Element.setOrientation (Int8.ofInt o.toInt))
  let columns ← setIfPresent el "columns"
    ((JSONObject.getInt C el "columns").map fun n => Element.setColumns n.toInt)
  let bindings ← JSONObject.getJSONArray el "bindings"
  some fun s e =>
    let e := (((e.setType type).setShape shape).setScale scale).setRatio ratioX ratioY
    let e := (e.place s).setToggleSwitch toggleSwitch
    let e := e.setText (JSONObject.optString C el "text" "")
    let e := e.setIconId (Int8.ofInt (JSONObject.optInt C el "iconId" 0).toInt)
    (columns (orientation (range e))).setBindingsFrom (bindings.map (Json.toText C))

/-- One element of a document, for a view of size `s` or without a view. -/
def parseElement (C : Coercions) (s : Option Size) (ref : ℕ) (j : Json) : Option Element :=
  (parseSetters C j).map fun set => set s { ref := ref, view := s.isSome }

/-- The elements up to the first that cannot be read, and whether there is none such. -/
def parseElements (C : Coercions) (s : Option Size) : ℕ → List Json → List Element × Bool
  | _, [] => ([], true)
  | ref, j :: js =>
    match parseElement C s ref j with
    | none => ([], false)
    | some e =>
      let r := parseElements C s (ref + 1) js
      (e :: r.1, r.2)

/-- The fields of `VirtualKeysProfile`. -/
structure Profile where
  name : JString
  elements : List Element := []
  elementsLoaded : Bool := false
  elementsJson : Option (List Json) := none

namespace Profile

/-- `loadElements`: an element that cannot be read ends the loop.  New objects are numbered
from `ref`. -/
def loadElements (C : Coercions) (s : Size) (ref : ℕ) (p : Profile) : Profile :=
  match p.elementsJson with
  | none => { p with elements := [], elementsLoaded := true }
  | some js =>
    let r := parseElements C (some s) ref js
    { p with elements := r.1, elementsLoaded := r.2 || p.elementsLoaded }

/-- `toJSONObject`, which is also what `save` puts together; `s` is the size of the elements'
view. -/
def toJSONObject (s : Option Size) (p : Profile) : Json :=
  .obj [("name", .str p.name), ("elements", .arr (p.elements.map fun e =>
    e.toJSONObject (if e.view then s else none)))]

/-- The document that is written by `save` and `exportProfile`. -/
def document (s : Option Size) (p : Profile) : Json := (p.toJSONObject s).written

/-- `setName`. -/
def setName (name : JString) (p : Profile) : Profile := { p with name := name }

/-- `validate`. -/
def validate (p : Profile) : Bool :=
  !p.elements.isEmpty && p.elements.all fun e => !e.bindings.isEmpty

/-- The static `fromJSON`. -/
def fromJSON (C : Coercions) (name : JString) (j : Json) : Option Profile := do
  let json ← j.toObject
  let elements ← JSONObject.getJSONArray json "elements"
  let r := parseElements C none 0 elements
  if r.2 then
    some
      { name := JSONObject.optString C json "name" name
        elements := r.1
        elementsLoaded := true
        elementsJson := some elements }
  else none

end Profile

end TermuxX11.VirtualKeys
