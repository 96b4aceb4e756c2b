import TermuxX11.VirtualKeys.Profile

/-!
# Attributes and the round trip

`Attributes` is what the editor shows and changes of an element, its position apart.
`toJSONObject` writes them and `parseElement` reads them back; `saved` says what comes back.
The range, the columns and the orientation are written for a `RANGE_BUTTON` that has a range
and for nothing else, and read as `reset` leaves them where they are missing.  The position
is written as a ratio to the snapped size of the view and comes back to the pixel, as long
as that size is positive.  A text comes back from a file with question marks in place of the
surrogates that have no partner (`encoded`).
-/

namespace TermuxX11.VirtualKeys

open Java

/-- What the editor can change of an element, its position apart. -/
structure Attributes where
  type : ElementType := .button
  shape : Shape := .circle
  scale : ℚ := 1
  isToggleSwitch : Bool := false
  text : JString := ""
  iconId : Int8 := 0
  bindings : List Binding := [.none, .none, .none, .none]
  range : Option Range := none
  columns : ℤ := 5
  orientation : Int8 := 0
  deriving DecidableEq

/-- The attributes of an element. -/
def Element.attributes (e : Element) : Attributes :=
  { type := e.type
    shape := e.shape
    scale := e.scale
    isToggleSwitch := e.isToggleSwitch
    text := e.text
    iconId := e.iconId
    bindings := e.bindings
    range := e.range
    columns := e.columns
    orientation := e.orientation }

/-- A call of one of the setters of an element. -/
inductive Edit
  | setType (t : ElementType)
  | setShape (s : Shape)
  | setScale (q : ℚ)
  | setToggleSwitch (b : Bool)
  | setText (t : JString)
  | setIconId (i : Int8)
  | setRange (r : Option Range)
  | setColumns (n : Int32)
  | setOrientation (o : Int8)
  | setBindingAt (i : ℕ) (b : Binding)

/-- The setter applied to an element. -/
def Edit.apply : Edit → Element → Element
  | setType t => Element.setType t
  | setShape s => Element.setShape s
  | setScale q => Element.setScale q
  | setToggleSwitch b => Element.setToggleSwitch b
  | setText t => Element.setText t
  | setIconId i => Element.setIconId i
  | setRange r => Element.setRange r
  | setColumns n => Element.setColumns n.toInt
  | setOrientation o => Element.setOrientation o
  | setBindingAt i b => Element.setBindingAt i b

/-- What a setter does to the attributes. -/
def Edit.change (d : Edit) (a : Attributes) : Attributes :=
  match d with
  | setType t =>
    if a.type = t then a
    else { a with type := t, text := "", iconId := 0, range := none, columns := 5,
                  orientation := 0 }
  | setShape s => { a with shape := s }
  | setScale q => { a with scale := q }
  | setToggleSwitch b => { a with isToggleSwitch := b }
  | setText t => { a with text := t }
  | setIconId i => { a with iconId := i }
  | setRange r => { a with range := r }
  | setColumns n => if a.columns = n.toInt then a else { a with columns := max 1 n.toInt }
  | setOrientation o => { a with orientation := o }
  | setBindingAt i b =>
    { a with
      bindings :=
        if a.bindings.length ≤ i then
          a.bindings ++ List.replicate (i - a.bindings.length) .none ++ [b]
        else a.bindings.set i b }

/-- The two elements are the same object at the same place. -/
structure Element.SamePlace (e e' : Element) : Prop where
  ref : e'.ref = e.ref
  view : e'.view = e.view
  x : e'.x = e.x
  y : e'.y = e.y
  ratioX : e'.ratioX = e.ratioX
  ratioY : e'.ratioY = e.ratioY

theorem Element.SamePlace.refl (e : Element) : e.SamePlace e := ⟨rfl, rfl, rfl, rfl, rfl, rfl⟩

theorem Element.SamePlace.trans {e e' e'' : Element} (h : e.SamePlace e')
    (h' : e'.SamePlace e'') : e.SamePlace e'' :=
  ⟨h'.ref.trans h.ref, h'.view.trans h.view, h'.x.trans h.x, h'.y.trans h.y,
    h'.ratioX.trans h.ratioX, h'.ratioY.trans h.ratioY⟩

/-- A setter changes the attributes as it says, and nothing of the place. -/
theorem Edit.apply_spec (d : Edit) (e : Element) :
    (d.apply e).attributes = d.change e.attributes ∧ e.SamePlace (d.apply e) := by
  cases d with
  | setType t =>
    simp only [apply, change, Element.setType]
    by_cases ht : e.type = t
    · rw [if_pos ht, if_pos (show e.attributes.type = t from ht)]
      exact ⟨rfl, Element.SamePlace.refl e⟩
    · rw [if_neg ht, if_neg (show e.attributes.type ≠ t from ht)]
      exact ⟨rfl, rfl, rfl, rfl, rfl, rfl, rfl⟩
  | setShape s =>
    simp only [apply, change, Element.setShape]
    split_ifs with hs
    · subst hs
      exact ⟨rfl, Element.SamePlace.refl e⟩
    · exact ⟨rfl, rfl, rfl, rfl, rfl, rfl, rfl⟩
  | setScale q =>
    simp only [apply, change, Element.setScale]
    split_ifs with hs
    · subst hs
      exact ⟨rfl, Element.SamePlace.refl e⟩
    · exact ⟨rfl, rfl, rfl, rfl, rfl, rfl, rfl⟩
  | setOrientation o =>
    simp only [apply, change, Element.setOrientation]
    split_ifs with ho
    · subst ho
      exact ⟨rfl, Element.SamePlace.refl e⟩
    · exact ⟨rfl, rfl, rfl, rfl, rfl, rfl, rfl⟩
  | setColumns n =>
    simp only [apply, change, Element.setColumns]
    by_cases hn : e.columns = n.toInt
    · rw [if_pos hn, if_pos (show e.attributes.columns = n.toInt from hn)]
      exact ⟨rfl, Element.SamePlace.refl e⟩
    · rw [if_neg hn, if_neg (show e.attributes.columns ≠ n.toInt from hn)]
      exact ⟨rfl, rfl, rfl, rfl, rfl, rfl, rfl⟩
  | setBindingAt i b =>
    simp only [apply, change, Element.setBindingAt]
    by_cases hi : e.bindings.length ≤ i
    · rw [if_pos hi, if_pos (show e.attributes.bindings.length ≤ i from hi)]
      exact ⟨rfl, rfl, rfl, rfl, rfl, rfl, rfl⟩
    · rw [if_neg hi, if_neg (show ¬ e.attributes.bindings.length ≤ i from hi)]
      exact ⟨rfl, rfl, rfl, rfl, rfl, rfl, rfl⟩
  | setToggleSwitch b => exact ⟨rfl, rfl, rfl, rfl, rfl, rfl, rfl⟩
  | setText t => exact ⟨rfl, rfl, rfl, rfl, rfl, rfl, rfl⟩
  | setIconId i => exact ⟨rfl, rfl, rfl, rfl, rfl, rfl, rfl⟩
  | setRange r => exact ⟨rfl, rfl, rfl, rfl, rfl, rfl, rfl⟩

/-- Several setters, one after the other. -/
def Edit.applyAll (ds : List Edit) (e : Element) : Element := ds.foldl (fun e d => d.apply e) e

theorem Edit.applyAll_append (ds ds' : List Edit) (e : Element) :
    applyAll (ds ++ ds') e = applyAll ds' (applyAll ds e) := List.foldl_append

theorem Edit.applyAll_spec (ds : List Edit) (e : Element) :
    (applyAll ds e).attributes = ds.foldl (fun a d => d.change a) e.attributes ∧
      e.SamePlace (applyAll ds e) := by
  induction ds generalizing e with
  | nil => exact ⟨rfl, Element.SamePlace.refl e⟩
  | cons d ds ih =>
    obtain ⟨hd, hplace⟩ := d.apply_spec e
    obtain ⟨hds, hplace'⟩ := ih (d.apply e)
    rw [List.foldl_cons, ← hd]
    exact ⟨hds, hplace.trans hplace'⟩

/-! ### Reading is editing -/

theorem setIfPresent_edits {α : Type} {el : JSONObject} {field : String} {o : Option α}
    {d : α → Edit} {f : Element → Element}
    (h : setIfPresent el field (o.map fun a => (d a).apply) = some f) :
    ∃ ds, f = Edit.applyAll ds := by
  unfold setIfPresent at h
  split_ifs at h with hb
  · obtain ⟨a, -, rfl⟩ := Option.map_eq_some_iff.1 h
    exact ⟨[d a], rfl⟩
  · exact ⟨[], (Option.some.inj h).symm⟩

theorem setBindingsFrom_edits (names : List JString) (e : Element) :
    e.setBindingsFrom names =
      Edit.applyAll
        (names.zipIdx.map fun n => .setBindingAt n.2 (Binding.fromString (textOf n.1))) e := by
  rw [Edit.applyAll, List.foldl_map]
  rfl

/-- Reading an element is a sequence of setters, in the middle of which it is placed. -/
theorem parseSetters_edits {C : Coercions} {j : Json} {set : Option Size → Element → Element}
    (h : parseSetters C j = some set) :
    ∃ el ratioX ratioY ds ds', j.toObject = some el ∧
      JSONObject.getDouble C el "x" = some ratioX ∧
      JSONObject.getDouble C el "y" = some ratioY ∧
      ∀ s e, set s e =
        Edit.applyAll ds' (((Edit.applyAll ds e).setRatio ratioX ratioY).place s) := by
  unfold parseSetters at h
  obtain ⟨el, hel, h⟩ := Option.bind_eq_some_iff.1 h
  obtain ⟨type, -, h⟩ := Option.bind_eq_some_iff.1 h
  obtain ⟨shape, -, h⟩ := Option.bind_eq_some_iff.1 h
  obtain ⟨scale, -, h⟩ := Option.bind_eq_some_iff.1 h
  obtain ⟨ratioX, hx, h⟩ := Option.bind_eq_some_iff.1 h
  obtain ⟨ratioY, hy, h⟩ := Option.bind_eq_some_iff.1 h
  obtain ⟨toggle, -, h⟩ := Option.bind_eq_some_iff.1 h
  obtain ⟨range, hr, h⟩ := Option.bind_eq_some_iff.1 h
  obtain ⟨orientation, ho, h⟩ := Option.bind_eq_some_iff.1 h
  obtain ⟨columns, hc, h⟩ := Option.bind_eq_some_iff.1 h
  obtain ⟨bindings, -, h⟩ := Option.bind_eq_some_iff.1 h
  obtain ⟨dr, rfl⟩ :=
    setIfPresent_edits (d := fun r => .setRange (Range.fromString (textOf r))) hr
  obtain ⟨do', rfl⟩ :=
    setIfPresent_edits (d := fun o : Int32 => .setOrientation (Int8.ofInt o.toInt)) ho
  obtain ⟨dc, rfl⟩ := setIfPresent_edits (d := fun n : Int32 => .setColumns n) hc
  refine ⟨el, ratioX, ratioY, [.setType type, .setShape shape, .setScale scale],
    [.setToggleSwitch toggle, .setText (JSONObject.optString C el "text" ""),
      .setIconId (Int8.ofInt (JSONObject.optInt C el "iconId" 0).toInt)] ++ dr ++ do' ++ dc ++
      (bindings.map (Json.toText C)).zipIdx.map
        fun n => .setBindingAt n.2 (Binding.fromString (textOf n.1)), hel, hx, hy, ?_⟩
  intro s e
  rw [← Option.some.inj h, Edit.applyAll_append, Edit.applyAll_append, Edit.applyAll_append,
    Edit.applyAll_append, ← setBindingsFrom_edits]
  rfl

theorem mem_parseElements {C : Coercions} {s : Option Size} {ref : ℕ} {js : List Json}
    {e : Element} (h : e ∈ (parseElements C s ref js).1) :
    ∃ j ∈ js, ∃ r, parseElement C s r j = some e := by
  induction js generalizing ref with
  | nil => cases h
  | cons j js ih =>
    simp only [parseElements] at h
    cases hj : parseElement C s ref j with
    | none =>
      simp only [hj] at h
      cases h
    | some e' =>
      simp only [hj, List.mem_cons] at h
      rcases h with rfl | h
      · exact ⟨j, List.mem_cons_self, ref, hj⟩
      · obtain ⟨j', hj', hr⟩ := ih h
        exact ⟨j', List.mem_cons_of_mem j hj', hr⟩

/-! ### What is written is read -/

/-- The fields that every element is written with. -/
def Element.commonFields (s : Option Size) (e : Element) : JSONObject :=
  [("type", .str e.type.name), ("shape", .str e.shape.name), ("scale", .num e.scale),
    ("x", .num (e.writtenPosition s).1), ("y", .num (e.writtenPosition s).2),
    ("toggleSwitch", .bool e.isToggleSwitch), ("text", .str e.text),
    ("iconId", .int e.iconId.toInt),
    ("bindings", .arr (e.bindings.map fun b => .str b.name))]

/-- The setters that read the fields of a range button back. -/
def Element.rangeEdits (e : Element) : List Edit :=
  match e.type, e.range with
  | .rangeButton, some r =>
    [.setRange (some r)] ++ (if e.orientation = 0 then [] else [.setOrientation e.orientation]) ++
      [.setColumns (Int32.ofInt e.columns)]
  | _, _ => []

/-- A `byte` that was written as an `int`. -/
theorem ofInt_toInt_int8 (i : Int8) : Int8.ofInt (Int32.ofInt i.toInt).toInt = i := by
  have hlow := i.le_toInt
  have hhigh := i.toInt_lt
  rw [toInt_ofInt32 ⟨by omega, by omega⟩, Int8.ofInt_toInt]

section

variable (C : Coercions) (s : Option Size) (e : Element)

/-- The getters find the common fields, whatever follows them. -/
theorem parseSetters_commonFields {rest : JSONObject} {range orientation columns : List Edit}
    (hr : setIfPresent (e.commonFields s ++ rest) "range"
      ((JSONObject.getString C (e.commonFields s ++ rest) "range").map fun r =>
        Element.setRange (Range.fromString (textOf r))) = some (Edit.applyAll range))
    (ho : setIfPresent (e.commonFields s ++ rest) "orientation"
      ((JSONObject.getInt C (e.commonFields s ++ rest) "orientation").map fun o =>
        Element.setOrientation (Int8.ofInt o.toInt)) = some (Edit.applyAll orientation))
    (hc : setIfPresent (e.commonFields s ++ rest) "columns"
      ((JSONObject.getInt C (e.commonFields s ++ rest) "columns").map fun n =>
        Element.setColumns n.toInt) = some (Edit.applyAll columns)) :
    parseSetters C (.obj (e.commonFields s ++ rest)) = some fun s' e' =>
      Edit.applyAll
        (([.setToggleSwitch e.isToggleSwitch, .setText e.text, .setIconId e.iconId] : List Edit) ++
          (range ++ orientation ++ columns) ++
          e.bindings.zipIdx.map fun n => Edit.setBindingAt n.2 n.1)
        (((Edit.applyAll [.setType e.type, .setShape e.shape, .setScale e.scale] e').setRatio
          (e.writtenPosition s).1 (e.writtenPosition s).2).place s') := by
  have htype : JSONObject.getString C (e.commonFields s ++ rest) "type" =
    some (e.type.name : JString) := rfl
  have hshape : JSONObject.getString C (e.commonFields s ++ rest) "shape" =
    some (e.shape.name : JString) := rfl
  have hscale : JSONObject.getDouble C (e.commonFields s ++ rest) "scale" = some e.scale := rfl
  have hx : JSONObject.getDouble C (e.commonFields s ++ rest) "x" =
    some (e.writtenPosition s).1 := rfl
  have hy : JSONObject.getDouble C (e.commonFields s ++ rest) "y" =
    some (e.writtenPosition s).2 := rfl
  have htoggle : JSONObject.getBoolean (e.commonFields s ++ rest) "toggleSwitch" =
    some e.isToggleSwitch := rfl
  have hbindings : JSONObject.getJSONArray (e.commonFields s ++ rest) "bindings" =
    some (e.bindings.map fun b => .str b.name) := rfl
  have htext : JSONObject.optString C (e.commonFields s ++ rest) "text" "" = e.text := rfl
  have hicon : JSONObject.optInt C (e.commonFields s ++ rest) "iconId" 0 =
    Int32.ofInt e.iconId.toInt := rfl
  have hnames (e' : Element) :
      e'.setBindingsFrom ((e.bindings.map fun b => Json.str b.name).map (Json.toText C)) =
        Edit.applyAll (e.bindings.zipIdx.map fun n => .setBindingAt n.2 n.1) e' := by
    rw [setBindingsFrom_edits, List.map_map, List.zipIdx_map, List.map_map]
    congr 2
    funext n
    simp [Json.toText, Binding.fromString_name]
  -- each getter finds what was put, and the names lead back to the constants
  simp only [parseSetters, Json.toObject, htype, hshape, hscale, hx, hy, htoggle, hbindings,
    htext, hicon, hr, ho, hc, hnames, Option.bind_some, ElementType.valueOf_name,
    Shape.valueOf_name, textOf_lit, Option.bind_eq_bind, ofInt_toInt_int8, Option.some.injEq]
  funext s' e'
  rw [Edit.applyAll_append, Edit.applyAll_append, Edit.applyAll_append, Edit.applyAll_append]
  rfl

/-- What `parseSetters` makes of the fields of an element. -/
theorem parseSetters_fields :
    parseSetters C (.obj (e.fields s)) = some fun s' e' =>
      Edit.applyAll
        (([.setToggleSwitch e.isToggleSwitch, .setText e.text, .setIconId e.iconId] : List Edit) ++
          e.rangeEdits ++ e.bindings.zipIdx.map fun n => Edit.setBindingAt n.2 n.1)
        (((Edit.applyAll [.setType e.type, .setShape e.shape, .setScale e.scale] e').setRatio
          (e.writtenPosition s).1 (e.writtenPosition s).2).place s') := by
  -- the range and what goes with it are written for a range button that has one
  by_cases h : ∃ r, e.type = .rangeButton ∧ e.range = some r
  · obtain ⟨r, ht, hr⟩ := h
    have hrange : some (Element.setRange (Range.fromString (textOf r.name))) =
        some (Edit.applyAll [.setRange (some r)]) := by
      rw [textOf_lit, Range.fromString_name]
      rfl
    have hcolumns : some (Element.setColumns (Int32.ofInt e.columns).toInt) =
        some (Edit.applyAll [.setColumns (Int32.ofInt e.columns)]) := rfl
    by_cases ho : e.orientation = 0
    · have hj : e.fields s = e.commonFields s ++
          [("range", .str r.name), ("columns", .int e.columns)] := by
        simp [Element.fields, Element.commonFields, ht, hr, ho]
      have hd : e.rangeEdits =
          [.setRange (some r)] ++ [] ++ [.setColumns (Int32.ofInt e.columns)] := by
        simp [Element.rangeEdits, ht, hr, ho]
      rw [hj, hd]
      exact parseSetters_commonFields C s e hrange rfl hcolumns
    · have hj : e.fields s = e.commonFields s ++
          [("range", .str r.name), ("columns", .int e.columns),
            ("orientation", .int e.orientation.toInt)] := by
        simp [Element.fields, Element.commonFields, ht, hr, ho]
      have hd : e.rangeEdits = [.setRange (some r)] ++ [.setOrientation e.orientation] ++
          [.setColumns (Int32.ofInt e.columns)] := by
        simp [Element.rangeEdits, ht, hr, ho]
      rw [hj, hd]
      refine parseSetters_commonFields C s e hrange ?_ hcolumns
      show some (Element.setOrientation (Int8.ofInt (Int32.ofInt e.orientation.toInt).toInt)) = _
      rw [ofInt_toInt_int8]
      rfl
  · have hj : e.fields s = e.commonFields s ++ [] := by
      unfold Element.fields
      split
      · next r ht hr => exact absurd ⟨r, ht, hr⟩ h
      · rfl
    have hd : e.rangeEdits = [] ++ [] ++ [] := by
      unfold Element.rangeEdits
      split
      · next r ht hr => exact absurd ⟨r, ht, hr⟩ h
      · rfl
    rw [hj, hd]
    exact parseSetters_commonFields C s e rfl rfl rfl

end

/-- `setBindingAt` at an index up to the end of the array. -/
theorem bindings_setBindingAt (b : Binding) {k : ℕ} {l : List Binding} (hk : k ≤ l.length) :
    (if l.length ≤ k then l ++ List.replicate (k - l.length) Binding.none ++ [b] else l.set k b) =
      l.take k ++ b :: l.drop (k + 1) := by
  split_ifs with h
  · have hk' : k = l.length := by omega
    simp [hk']
  · rw [List.set_eq_take_append_cons_drop, if_pos (by omega)]

/-- The bindings after `setBindingAt` for a row of bindings from the index `k` on. -/
theorem foldl_setBindingAt (bs : List Binding) (k : ℕ) (a : Attributes)
    (hk : k ≤ a.bindings.length) :
    (bs.zipIdx k).foldl (fun a n => (Edit.setBindingAt n.2 n.1).change a) a =
      { a with bindings := a.bindings.take k ++ bs ++ a.bindings.drop (k + bs.length) } := by
  induction bs generalizing k a with
  | nil => simp
  | cons b bs ih =>
    have hset : (Edit.setBindingAt k b).change a =
        { a with bindings := a.bindings.take k ++ b :: a.bindings.drop (k + 1) } := by
      rw [Edit.change, bindings_setBindingAt b hk]
    have htake : (a.bindings.take k).length = k := List.length_take_of_le hk
    rw [List.zipIdx_cons, List.foldl_cons, hset, ih (k + 1) _ (by simp [htake])]
    simp only [List.take_append, List.drop_append, htake]
    have h1 : k + 1 - k = 1 := by omega
    have h2 : k + 1 + bs.length - k = bs.length + 1 := by omega
    have h3 : List.drop (k + 1 + bs.length) (a.bindings.take k) = [] :=
      List.drop_eq_nil_of_le (by rw [htake]; omega)
    rw [h1, h2, h3]
    simp [List.take_take, Nat.add_assoc, Nat.add_comm 1]

/-! ### The content of a document -/

/-- What a document says of an element. -/
structure Content where
  attributes : Attributes
  x : ℚ
  y : ℚ
  deriving DecidableEq

/-- The element has the content `c` and its place in a view of size `s`, or no view. -/
structure Element.Shows (s : Option Size) (c : Content) (e : Element) : Prop where
  attributes : e.attributes = c.attributes
  ratioX : e.ratioX = c.x
  ratioY : e.ratioY = c.y
  view : e.view = s.isSome
  x : e.x = (s.map fun s => toInt (c.x * s.maxWidth)).getD 0
  y : e.y = (s.map fun s => toInt (c.y * s.maxHeight)).getD 0

/-- The content of one element of a document. -/
def readElement (C : Coercions) (j : Json) : Option Content :=
  (parseElement C none 0 j).map fun e => ⟨e.attributes, e.ratioX, e.ratioY⟩

theorem Element.place_spec (s : Option Size) (e : Element) :
    (e.place s).attributes = e.attributes ∧ (e.place s).ref = e.ref ∧
      (e.place s).view = e.view ∧ (e.place s).ratioX = e.ratioX ∧
      (e.place s).ratioY = e.ratioY ∧
      (e.place s).x = (s.map fun s => toInt (e.ratioX * s.maxWidth)).getD e.x ∧
      (e.place s).y = (s.map fun s => toInt (e.ratioY * s.maxHeight)).getD e.y := by
  cases s with
  | none => exact ⟨rfl, rfl, rfl, rfl, rfl, rfl, rfl⟩
  | some s =>
    simp only [Element.place, Element.setX, Element.setY, Option.map_some, Option.getD_some]
    split_ifs with hx hy hy
    · exact ⟨rfl, rfl, rfl, rfl, rfl, hx, hy⟩
    · exact ⟨rfl, rfl, rfl, rfl, rfl, hx, rfl⟩
    · exact ⟨rfl, rfl, rfl, rfl, rfl, rfl, hy⟩
    · exact ⟨rfl, rfl, rfl, rfl, rfl, rfl, rfl⟩

theorem Element.Shows.content {s : Option Size} {c : Content} {e : Element} (h : e.Shows s c) :
    (⟨e.attributes, e.ratioX, e.ratioY⟩ : Content) = c := by
  rw [h.attributes, h.ratioX, h.ratioY]

/-- Setters, a place, and setters again. -/
theorem applyAll_shows (s : Option Size) (ref : ℕ) (ds ds' : List Edit) (rx ry : ℚ) :
    (Edit.applyAll ds' (((Edit.applyAll ds { ref := ref, view := s.isSome }).setRatio rx
        ry).place s)).ref = ref ∧
      (Edit.applyAll ds' (((Edit.applyAll ds { ref := ref, view := s.isSome }).setRatio rx
        ry).place s)).Shows s
        ⟨ds'.foldl (fun a d => d.change a) (ds.foldl (fun a d => d.change a) {}), rx, ry⟩ := by
  obtain ⟨ha, hp⟩ := Edit.applyAll_spec ds { ref := ref, view := s.isSome }
  set e := (Edit.applyAll ds { ref := ref, view := s.isSome }).setRatio rx ry
  have he : e.attributes = ds.foldl (fun a d => d.change a) {} := ha
  obtain ⟨ha', hp'⟩ := Edit.applyAll_spec ds' (e.place s)
  obtain ⟨hattr, href, hview, hrx, hry, hx, hy⟩ := e.place_spec s
  refine ⟨(hp'.ref.trans href).trans hp.ref, ?_, hp'.ratioX.trans hrx, hp'.ratioY.trans hry,
    (hp'.view.trans hview).trans hp.view, ?_, ?_⟩
  · rw [ha', hattr, he]
  · rw [hp'.x, hx]
    cases s with
    | none => exact hp.x
    | some s => rfl
  · rw [hp'.y, hy]
    cases s with
    | none => exact hp.y
    | some s => rfl

/-- An element of a document has its content, and stands where that says. -/
theorem parseElement_shows {C : Coercions} {j : Json} {s : Option Size} {ref : ℕ} {e : Element}
    (h : parseElement C s ref j = some e) :
    e.ref = ref ∧ ∃ c, readElement C j = some c ∧ e.Shows s c := by
  obtain ⟨set, hset, rfl⟩ := Option.map_eq_some_iff.1 h
  obtain ⟨el, rx, ry, ds, ds', -, -, -, heq⟩ := parseSetters_edits hset
  obtain ⟨href, hshows⟩ := applyAll_shows s ref ds ds' rx ry
  obtain ⟨-, hshows₀⟩ := applyAll_shows none 0 ds ds' rx ry
  rw [heq]
  refine ⟨href, _, ?_, hshows⟩
  have hnone : parseElement C none 0 j = some (set none { ref := 0, view := false }) := by
    rw [parseElement, hset]
    rfl
  rw [readElement, hnone, heq, Option.map_some]
  exact congrArg some hshows₀.content

theorem parseElement_of_readElement {C : Coercions} {j : Json} {c : Content}
    (h : readElement C j = some c) (s : Option Size) (ref : ℕ) :
    ∃ e, parseElement C s ref j = some e ∧ e.ref = ref ∧ e.Shows s c := by
  obtain ⟨e₀, he₀, -⟩ := Option.map_eq_some_iff.1 h
  obtain ⟨set, hset, -⟩ := Option.map_eq_some_iff.1 he₀
  have he : parseElement C s ref j = some (set s { ref := ref, view := s.isSome }) := by
    rw [parseElement, hset]
    rfl
  obtain ⟨href, c', hc', hshows⟩ := parseElement_shows he
  obtain rfl := Option.some.inj (h.symm.trans hc')
  exact ⟨_, he, href, hshows⟩

/-- The numbers that a document gives for the position. -/
theorem readElement_position {C : Coercions} {j : Json} {c : Content}
    (h : readElement C j = some c) :
    ∃ el, j.toObject = some el ∧ JSONObject.getDouble C el "x" = some c.x ∧
      JSONObject.getDouble C el "y" = some c.y := by
  obtain ⟨e, he, rfl⟩ := Option.map_eq_some_iff.1 h
  obtain ⟨set, hset, rfl⟩ := Option.map_eq_some_iff.1 he
  obtain ⟨el, rx, ry, ds, ds', hel, hx, hy, heq⟩ := parseSetters_edits hset
  obtain ⟨-, hshows⟩ := applyAll_shows none 0 ds ds' rx ry
  rw [heq]
  exact ⟨el, hel, hx.trans (congrArg some hshows.ratioX.symm),
    hy.trans (congrArg some hshows.ratioY.symm)⟩

/-- What is written of the attributes. -/
def Attributes.saved (a : Attributes) : Attributes :=
  if a.type = .rangeButton ∧ a.range ≠ none then a
  else { a with range := none, columns := 5, orientation := 0 }

/-- What the setters keep true of an element. -/
structure Attributes.Valid (a : Attributes) : Prop where
  columns : 1 ≤ a.columns ∧ a.columns < 2 ^ 31
  bindings : 4 ≤ a.bindings.length

/-- The fields of a range button come back, and nothing is read for another element. -/
theorem foldl_rangeEdits {e : Element} (h : e.attributes.Valid) {a : Attributes}
    (hr : a.range = none) (hc : a.columns = 5) (ho : a.orientation = 0) :
    e.rangeEdits.foldl (fun a d => d.change a) a =
      { a with range := e.attributes.saved.range, columns := e.attributes.saved.columns,
               orientation := e.attributes.saved.orientation } := by
  by_cases hrange : ∃ r, e.type = .rangeButton ∧ e.range = some r
  · obtain ⟨r, ht, hr'⟩ := hrange
    have hsaved : e.attributes.saved = e.attributes := by
      rw [Attributes.saved, if_pos ⟨ht, by simp [Element.attributes, hr']⟩]
    have hcolumns (a : Attributes) :
        (Edit.setColumns (Int32.ofInt e.columns)).change a = { a with columns := e.columns } := by
      obtain ⟨hone, hlt⟩ := h.columns
      have hint : (Int32.ofInt e.columns).toInt = e.columns :=
        toInt_ofInt32 ⟨le_trans (by norm_num) hone, hlt⟩
      have hpos : max 1 e.columns = e.columns := max_eq_right hone
      rw [Edit.change, hint, hpos]
      split_ifs with h5
      · rw [← h5]
      · rfl
    rw [hsaved]
    by_cases ho' : e.orientation = 0
    · have hd : e.rangeEdits = [.setRange (some r), .setColumns (Int32.ofInt e.columns)] := by
        simp [Element.rangeEdits, ht, hr', ho']
      rw [hd, List.foldl_cons, List.foldl_cons, List.foldl_nil, hcolumns]
      simp only [Edit.change, Element.attributes, hr', ho', ← ho]
    · have hd : e.rangeEdits = [.setRange (some r), .setOrientation e.orientation,
          .setColumns (Int32.ofInt e.columns)] := by
        simp [Element.rangeEdits, ht, hr', ho']
      rw [hd, List.foldl_cons, List.foldl_cons, List.foldl_cons, List.foldl_nil, hcolumns]
      simp only [Edit.change, Element.attributes, hr']
  · have hd : e.rangeEdits = [] := by
      unfold Element.rangeEdits
      split
      · next r ht hr => exact absurd ⟨r, ht, hr⟩ hrange
      · rfl
    have hsaved : e.attributes.saved =
        { e.attributes with range := none, columns := 5, orientation := 0 } := by
      rw [Attributes.saved, if_neg]
      rintro ⟨ht, hne⟩
      exact hrange ⟨_, ht, Option.some_get (Option.isSome_iff_ne_none.2 hne) |>.symm⟩
    rw [hd, hsaved, List.foldl_nil, ← hr, ← hc, ← ho]

theorem toJSONObject_of_finite {s : Option Size} {e : Element} (h : e.failsAt s = none) :
    e.toJSONObject s = .obj (e.fields s) := by
  rw [Element.toJSONObject, h]

/-- `put` throws for the scale or for one of the ratios. -/
theorem failsAt_cases {s : Option Size} {e : Element} {n : ℕ} (h : e.failsAt s = some n) :
    n = 2 ∨ n = 3 ∨ n = 4 := by
  unfold Element.failsAt at h
  split_ifs at h
  · exact .inl (Option.some.inj h).symm
  · exact .inr (.inl (Option.some.inj h).symm)
  · exact .inr (.inr (Option.some.inj h).symm)

/-- **What is written is read**: the attributes that are saved, and the position, if all numbers
are finite. -/
theorem readElement_toJSONObject (C : Coercions) (s : Option Size) {e : Element}
    (h : e.attributes.Valid) (hfinite : e.failsAt s = none) :
    readElement C (e.toJSONObject s) =
      some ⟨e.attributes.saved, (e.writtenPosition s).1, (e.writtenPosition s).2⟩ := by
  have hparse := parseSetters_fields C s e
  rw [toJSONObject_of_finite hfinite, readElement, parseElement, hparse, Option.map_some,
    Option.map_some]
  obtain ⟨-, hshows⟩ := applyAll_shows none 0
    [.setType e.type, .setShape e.shape, .setScale e.scale]
    ([.setToggleSwitch e.isToggleSwitch, .setText e.text, .setIconId e.iconId] ++
      e.rangeEdits ++ e.bindings.zipIdx.map fun n => .setBindingAt n.2 n.1)
    (e.writtenPosition s).1 (e.writtenPosition s).2
  refine congrArg some (hshows.content.trans ?_)
  congr 1
  have htype : (Edit.setType e.type).change {} = { type := e.type } := by
    rw [Edit.change]
    split_ifs with ht
    · rw [← ht]
    · rfl
  rw [List.foldl_append, List.foldl_append, List.foldl_map]
  simp only [List.foldl_cons, List.foldl_nil, htype]
  rw [foldl_rangeEdits h rfl rfl rfl, foldl_setBindingAt _ 0 _ (Nat.zero_le _)]
  have hb : 4 ≤ e.bindings.length := h.bindings
  have hdrop : List.drop (0 + e.bindings.length) [Binding.none, .none, .none, .none] = [] :=
    List.drop_eq_nil_of_le (by simpa using hb)
  simp only [Edit.change, hdrop, Attributes.saved]
  split_ifs <;> simp [Element.attributes]

/-! ### Files -/

/-- The element with the text that a file has of it. -/
def Element.encoded (e : Element) : Element := { e with text := written e.text }

/-- The profile with the texts that a file has of it. -/
def Profile.encoded (p : Profile) : Profile :=
  { p with name := written p.name, elements := p.elements.map Element.encoded }

/-- Of the fields of an element only the text is not ASCII. -/
theorem writtenFields_fields (s : Option Size) (e : Element) :
    Json.writtenFields (e.fields s) = e.encoded.fields s := by
  have hbindings : (e.bindings.map fun b => Json.str b.name).map Json.written =
      e.bindings.map fun b => Json.str b.name := by
    rw [List.map_map]
    refine List.map_congr_left fun b _ => ?_
    rw [Function.comp_apply, Json.written, written_lit]
  rw [Json.writtenFields_eq_map, Element.fields, Element.fields, List.map_append]
  refine congrArg₂ _ ?_ ?_
  · simp only [List.map_cons, List.map_nil, Json.written, written_lit, Json.writtenValues_eq_map,
      hbindings]
    rfl
  · show List.map _ (match e.type, e.range with | .rangeButton, some r => _ | _, _ => _) =
      match e.type, e.range with | .rangeButton, some r => _ | _, _ => _
    split
    · rw [List.map_append, apply_ite (List.map _)]
      simp only [List.map_cons, List.map_nil, Json.written, written_lit]
      rfl
    · rfl

/-- What a file has of an element is what would be written of its encoded text. -/
theorem written_toJSONObject (s : Option Size) (e : Element) :
    (e.toJSONObject s).written = e.encoded.toJSONObject s := by
  have hfails : e.encoded.failsAt s = e.failsAt s := rfl
  rw [Element.toJSONObject, Element.toJSONObject, hfails]
  cases e.failsAt s with
  | none => rw [Json.written, writtenFields_fields]
  | some n =>
    dsimp only
    rw [Json.written, Json.writtenFields_eq_map, List.map_take, ← Json.writtenFields_eq_map,
      writtenFields_fields]

theorem document_eq (s : Option Size) (p : Profile) :
    p.document s = p.encoded.toJSONObject s := by
  have helements : (p.elements.map fun e => e.toJSONObject (if e.view then s else none)).map
      Json.written =
        p.encoded.elements.map fun e => e.toJSONObject (if e.view then s else none) := by
    rw [Profile.encoded, List.map_map, List.map_map]
    exact List.map_congr_left fun e _ => written_toJSONObject _ e
  rw [Profile.document, Profile.toJSONObject, Profile.toJSONObject, ← helements]
  simp only [Json.written, Json.writtenFields, Json.writtenValues_eq_map]
  rfl

/-- A text without single surrogates is written as it is. -/
theorem encoded_of_wellFormed {e : Element} (h : WellFormed e.text) : e.encoded = e := by
  unfold Element.encoded
  rw [show written e.text = e.text from h]

theorem Profile.encoded_of_wellFormed {p : Profile} (hname : WellFormed p.name)
    (h : ∀ e ∈ p.elements, WellFormed e.text) : p.encoded = p := by
  have helements : p.elements.map Element.encoded = p.elements := by
    conv_rhs => rw [← List.map_id p.elements]
    exact List.map_congr_left fun e he => VirtualKeys.encoded_of_wellFormed (h e he)
  unfold Profile.encoded
  rw [helements, show written p.name = p.name from hname]

/-! ### Whole documents -/

/-- The contents of the elements of a document, in order. -/
def Contents (C : Coercions) (js : List Json) (cs : List Content) : Prop :=
  List.Forall₂ (fun j c => readElement C j = some c) js cs

/-- An element of a document has one content. -/
theorem Contents.unique {C : Coercions} {js : List Json} {cs cs' : List Content}
    (h : Contents C js cs) (h' : Contents C js cs') : cs = cs' := by
  have hone : Relator.RightUnique fun j c => readElement C j = some c :=
    fun _ _ _ hc hc' => Option.some.inj (hc.symm.trans hc')
  exact hone.forall₂ h h'

/-- A row of elements that can be read is read for any view, with new objects. -/
theorem parseElements_of_contents {C : Coercions} {js : List Json} {cs : List Content}
    (h : Contents C js cs) (s : Option Size) (ref : ℕ) :
    ∃ es, parseElements C s ref js = (es, true) ∧ List.Forall₂ (Element.Shows s) cs es ∧
      es.map Element.ref = List.range' ref js.length := by
  induction h generalizing ref with
  | nil => exact ⟨[], rfl, List.Forall₂.nil, rfl⟩
  | cons hj _ ih =>
    obtain ⟨e, he, href, hshows⟩ := parseElement_of_readElement hj s ref
    obtain ⟨es, hes, hall, hrefs⟩ := ih (ref + 1)
    refine ⟨e :: es, ?_, List.Forall₂.cons hshows hall, ?_⟩
    · rw [parseElements, he, hes]
    · rw [List.map_cons, href, hrefs, List.length_cons, List.range'_succ]

theorem contents_of_parseElements {C : Coercions} {s : Option Size} {ref : ℕ} {js : List Json}
    {es : List Element} (h : parseElements C s ref js = (es, true)) :
    ∃ cs, Contents C js cs ∧ List.Forall₂ (Element.Shows s) cs es := by
  induction js generalizing ref es with
  | nil =>
    obtain rfl : [] = es := congrArg Prod.fst h
    exact ⟨[], List.Forall₂.nil, List.Forall₂.nil⟩
  | cons j js ih =>
    cases hj : parseElement C s ref j with
    | none =>
      rw [parseElements, hj] at h
      cases congrArg Prod.snd h
    | some e =>
      rw [parseElements, hj] at h
      obtain ⟨-, c, hc, hshows⟩ := parseElement_shows hj
      have hsnd : (parseElements C s (ref + 1) js).2 = true := congrArg Prod.snd h
      have hfst : e :: (parseElements C s (ref + 1) js).1 = es := congrArg Prod.fst h
      obtain ⟨cs, hcs, hall⟩ := ih (Prod.ext rfl hsnd)
      subst hfst
      exact ⟨c :: cs, List.Forall₂.cons hc hcs, List.Forall₂.cons hshows hall⟩

/-- The contents of the elements of a profile, in order. -/
def Profile.contents (p : Profile) : List Content :=
  p.elements.map fun e => ⟨e.attributes, e.ratioX, e.ratioY⟩

theorem contents_of_shows {s : Option Size} {cs : List Content} {p : Profile}
    (h : List.Forall₂ (Element.Shows s) cs p.elements) : p.contents = cs := by
  rw [Profile.contents, ← List.forall₂_eq_eq_eq, List.forall₂_map_left_iff]
  exact h.flip.imp fun e c hc => hc.content

/-- A document that `fromJSON` accepts. -/
theorem fromJSON_spec {C : Coercions} {name : JString} {j : Json} {p : Profile}
    (h : Profile.fromJSON C name j = some p) :
    ∃ json js cs, j.toObject = some json ∧ JSONObject.getJSONArray json "elements" = some js ∧
      Contents C js cs ∧ List.Forall₂ (Element.Shows none) cs p.elements ∧
      p.name = JSONObject.optString C json "name" name ∧ p.elementsLoaded = true ∧
      p.elementsJson = some js := by
  unfold Profile.fromJSON at h
  obtain ⟨json, hjson, h⟩ := Option.bind_eq_some_iff.1 h
  obtain ⟨js, hjs, h⟩ := Option.bind_eq_some_iff.1 h
  dsimp only at h
  split_ifs at h with hall
  obtain rfl := Option.some.inj h
  have hparse : parseElements C none 0 js = ((parseElements C none 0 js).1, true) :=
    Prod.ext rfl hall
  obtain ⟨cs, hcs, hshows⟩ := contents_of_parseElements hparse
  exact ⟨json, js, cs, hjson, hjs, hcs, hshows, rfl, rfl, rfl⟩

/-- A document whose elements can be read is accepted. -/
theorem fromJSON_of_contents {C : Coercions} {json : JSONObject} {js : List Json}
    {cs : List Content} (name : JString) (hjs : JSONObject.getJSONArray json "elements" = some js)
    (hcs : Contents C js cs) :
    ∃ p, Profile.fromJSON C name (.obj json) = some p ∧
      p.name = JSONObject.optString C json "name" name ∧ p.elementsJson = some js := by
  obtain ⟨es, hes, -, -⟩ := parseElements_of_contents hcs none 0
  refine ⟨⟨JSONObject.optString C json "name" name, es, true, some js⟩, ?_, rfl, rfl⟩
  simp [Profile.fromJSON, Json.toObject, hjs, hes]

/-- The elements of a document in a view of size `s`. -/
theorem loadElements_shows {C : Coercions} {p : Profile} {js : List Json} {cs : List Content}
    (hp : p.elementsJson = some js) (hcs : Contents C js cs) (s : Size) (ref : ℕ) :
    ∃ es, p.loadElements C s ref = { p with elements := es, elementsLoaded := true } ∧
      List.Forall₂ (Element.Shows (some s)) cs es ∧
      es.map Element.ref = List.range' ref js.length := by
  obtain ⟨es, hes, hshows, hrefs⟩ := parseElements_of_contents hcs (some s) ref
  refine ⟨es, ?_, hshows, hrefs⟩
  simp [Profile.loadElements, hp, hes]

end TermuxX11.VirtualKeys
