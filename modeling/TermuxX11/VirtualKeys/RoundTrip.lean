import TermuxX11.VirtualKeys.Document

/-!
# Saving a profile and loading it again

For elements that the setters can produce, in a view whose snapped size is positive, the
whole profile comes back: the name, the order, the positions to the pixel and the
attributes, with the range, columns and orientation of a range button.  Elements of the
other types have no use for these three and get what `reset` leaves.  The texts and the name
have no surrogate on its own, for which a file has a question mark, and the scales are finite.
-/

namespace TermuxX11.VirtualKeys

open Java

/-- The elements that the setters can produce, from a new one or from one that was read. -/
inductive Element.Edited : Element → Prop
  | new (ref : ℕ) (view : Bool) : Edited { ref := ref, view := view }
  | parsed {C : Coercions} {s : Option Size} {ref : ℕ} {j : Json} {e : Element}
      (h : parseElement C s ref j = some e) : Edited e
  | edit {e : Element} (h : Edited e) (d : Edit) : Edited (d.apply e)
  | move {e : Element} (h : Edited e) (x y : Int32) : Edited ((e.setX x.toInt).setY y.toInt)
  | initDefaultBindings {e : Element} (h : Edited e) : Edited e.initDefaultBindings

theorem Attributes.Valid.change {a : Attributes} (h : a.Valid) (d : Edit) :
    (d.change a).Valid := by
  cases d with
  | setType t =>
    rw [Edit.change]
    split_ifs
    · exact h
    · exact ⟨show (1 : ℤ) ≤ 5 ∧ (5 : ℤ) < 2 ^ 31 by decide, h.bindings⟩
  | setColumns n =>
    rw [Edit.change]
    split_ifs
    · exact h
    · exact ⟨⟨le_max_left 1 n.toInt, max_lt (by norm_num) n.toInt_lt⟩, h.bindings⟩
  | setBindingAt i b =>
    refine ⟨h.columns, ?_⟩
    have hb := h.bindings
    rw [Edit.change]
    dsimp only
    split_ifs
    · simp only [List.length_append, List.length_replicate]
      omega
    · rwa [List.length_set]
  | setShape s => exact ⟨h.columns, h.bindings⟩
  | setScale q => exact ⟨h.columns, h.bindings⟩
  | setToggleSwitch b => exact ⟨h.columns, h.bindings⟩
  | setText t => exact ⟨h.columns, h.bindings⟩
  | setIconId i => exact ⟨h.columns, h.bindings⟩
  | setRange r => exact ⟨h.columns, h.bindings⟩
  | setOrientation o => exact ⟨h.columns, h.bindings⟩

theorem Attributes.Valid.foldl {a : Attributes} (h : a.Valid) (ds : List Edit) :
    (ds.foldl (fun a d => d.change a) a).Valid := by
  induction ds generalizing a with
  | nil => exact h
  | cons d ds ih => exact ih (h.change d)

theorem valid_parseElement {C : Coercions} {s : Option Size} {ref : ℕ} {j : Json}
    {e : Element} (h : parseElement C s ref j = some e) : e.attributes.Valid := by
  obtain ⟨set, hset, rfl⟩ := Option.map_eq_some_iff.1 h
  obtain ⟨el, rx, ry, ds, ds', -, -, -, heq⟩ := parseSetters_edits hset
  rw [heq, (applyAll_shows s ref ds ds' rx ry).2.attributes]
  have hnew : ({} : Attributes).Valid := ⟨by decide, by decide⟩
  exact (hnew.foldl ds).foldl ds'

/-- What the setters keep true. -/
theorem Element.Edited.valid {e : Element} (h : e.Edited) : e.attributes.Valid := by
  induction h with
  | new ref view => exact ⟨show (1 : ℤ) ≤ 5 ∧ (5 : ℤ) < 2 ^ 31 by decide, Nat.le_refl 4⟩
  | parsed h => exact valid_parseElement h
  | edit h d ih =>
    rw [(d.apply_spec _).1]
    exact ih.change d
  | move h x y ih =>
    simp only [setX, setY]
    split_ifs <;> exact ih
  | @initDefaultBindings e h ih =>
    unfold Element.initDefaultBindings
    cases e.type with
    | button => exact ih
    | rangeButton => exact ⟨ih.columns, ih.bindings⟩
    | dPad | stick | trackpad => exact ⟨ih.columns, Nat.le_refl 4⟩

/-- The positions are `int`s. -/
theorem Element.Edited.isInt {e : Element} (h : e.Edited) : IsInt e.x ∧ IsInt e.y := by
  induction h with
  | new ref view => exact ⟨isInt_zero, isInt_zero⟩
  | @parsed C s ref j e h =>
    obtain ⟨-, c, -, hshows⟩ := parseElement_shows h
    rw [hshows.x, hshows.y]
    cases s with
    | none => exact ⟨isInt_zero, isInt_zero⟩
    | some s => exact ⟨isInt_toInt _, isInt_toInt _⟩
  | edit h d ih =>
    rw [(d.apply_spec _).2.x, (d.apply_spec _).2.y]
    exact ih
  | move h x y ih =>
    rw [setY_x, setX_x, setY_y]
    exact ⟨isInt_int32 x, isInt_int32 y⟩
  | @initDefaultBindings e h ih =>
    unfold Element.initDefaultBindings
    cases e.type with
    | button | rangeButton | dPad | stick | trackpad => exact ih

/-! ### Positions -/

/-- A pixel is written as a ratio and read back. -/
theorem toInt_ratio {m : ℤ} (hm : 0 < m) {x : ℤ} (hx : IsInt x) :
    toInt ((x : ℚ) / ((max m 1 : ℤ) : ℚ) * m) = x := by
  have hmax : max m 1 = m := max_eq_left hm
  have hne : (m : ℚ) ≠ 0 := by exact_mod_cast hm.ne'
  rw [hmax, div_mul_cancel₀ _ hne, toInt_intCast hx]

/-! ### The round trip -/

/-- How an element comes back. -/
structure Element.ReadsBack (e e' : Element) : Prop where
  type : e'.type = e.type
  shape : e'.shape = e.shape
  scale : e'.scale = e.scale
  x : e'.x = e.x
  y : e'.y = e.y
  isToggleSwitch : e'.isToggleSwitch = e.isToggleSwitch
  text : e'.text = e.text
  iconId : e'.iconId = e.iconId
  bindings : e'.bindings = e.bindings
  range : e.type = .rangeButton → e'.range = e.range
  layout : e.type = .rangeButton → e.range ≠ none →
    e'.columns = e.columns ∧ e'.orientation = e.orientation
  unused : e.type ≠ .rangeButton → e'.range = none ∧ e'.columns = 5 ∧ e'.orientation = 0

theorem readsBack_of_shows {s : Size} (hw : 0 < s.maxWidth) (hh : 0 < s.maxHeight)
    {e e' : Element} (he : IsInt e.x ∧ IsInt e.y)
    (h : e'.Shows (some s) ⟨e.attributes.saved, (e.writtenPosition (some s)).1,
      (e.writtenPosition (some s)).2⟩) : e.ReadsBack e' := by
  have hx : e'.x = e.x := h.x.trans (toInt_ratio hw he.1)
  have hy : e'.y = e.y := h.y.trans (toInt_ratio hh he.2)
  have ha := h.attributes
  dsimp only at ha
  by_cases hr : e.attributes.type = .rangeButton ∧ e.attributes.range ≠ none
  · rw [Attributes.saved, if_pos hr, Element.attributes, Element.attributes,
      Attributes.mk.injEq] at ha
    obtain ⟨h1, h2, h3, h4, h5, h6, h7, h8, h9, h10⟩ := ha
    exact ⟨h1, h2, h3, hx, hy, h4, h5, h6, h7, fun _ => h8, fun _ _ => ⟨h9, h10⟩,
      fun hne => absurd hr.1 hne⟩
  · rw [Attributes.saved, if_neg hr, Element.attributes, Element.attributes,
      Attributes.mk.injEq] at ha
    obtain ⟨h1, h2, h3, h4, h5, h6, h7, h8, h9, h10⟩ := ha
    refine ⟨h1, h2, h3, hx, hy, h4, h5, h6, h7, fun ht => ?_, fun ht hne => absurd ⟨ht, hne⟩ hr,
      fun _ => ⟨h8, h9, h10⟩⟩
    have hnone : e.range = none := by
      by_contra hne
      exact hr ⟨ht, hne⟩
    rw [h8, hnone]

/-- **A saved profile comes back**: with its name and, in order, its elements. -/
theorem readsBack_of_save {C : Coercions} {s : Size} (hw : 0 < s.maxWidth)
    (hh : 0 < s.maxHeight) {p : Profile} (hp : ∀ e ∈ p.elements, e.view = true ∧ e.Edited)
    (hfinite : ∀ e ∈ p.elements, overflowsFloat e.scale = false)
    (htext : ∀ e ∈ p.elements, WellFormed e.text) (hpname : WellFormed p.name) (name : JString)
    (ref : ℕ) :
    ∃ q, Profile.fromJSON C name (p.document (some s)) = some q ∧
      (q.loadElements C s ref).name = p.name ∧
      List.Forall₂ Element.ReadsBack p.elements (q.loadElements C s ref).elements := by
  -- all elements are in the view, so all are written with its size
  have hjson : p.document (some s) = .obj [("name", .str p.name),
      ("elements", .arr (p.elements.map (Element.toJSONObject (some s))))] := by
    have hview : (p.elements.map fun e => e.toJSONObject (if e.view then some s else none)) =
        p.elements.map (Element.toJSONObject (some s)) := by
      refine List.map_congr_left fun e he => ?_
      rw [if_pos (hp e he).1]
    rw [document_eq, Profile.encoded_of_wellFormed hpname htext, Profile.toJSONObject, hview]
  have hcs : Contents C (p.elements.map (Element.toJSONObject (some s)))
      (p.elements.map fun e => ⟨e.attributes.saved, (e.writtenPosition (some s)).1,
        (e.writtenPosition (some s)).2⟩) := by
    rw [Contents, List.forall₂_map_left_iff, List.forall₂_map_right_iff, List.forall₂_same]
    intro e he
    have hput : e.failsAt (some s) = none := by
      rw [Element.failsAt_some, hfinite e he, if_neg Bool.false_ne_true]
    exact readElement_toJSONObject C (some s) (hp e he).2.valid hput
  have hget : JSONObject.getJSONArray [("name", .str p.name), ("elements", .arr
      (p.elements.map (Element.toJSONObject (some s))))] "elements" =
    some (p.elements.map (Element.toJSONObject (some s))) := rfl
  rw [hjson]
  obtain ⟨q, hq, hname, hqjson⟩ := fromJSON_of_contents name hget hcs
  obtain ⟨es, hes, hshows, -⟩ := loadElements_shows hqjson hcs s ref
  refine ⟨q, hq, ?_, ?_⟩
  · rw [hes]
    exact hname
  · rw [hes]
    rw [List.forall₂_map_left_iff] at hshows
    refine List.forall₂_iff_zip.2 ⟨hshows.length_eq, fun {e e'} hmem => ?_⟩
    have hedited := (hp e (List.of_mem_zip hmem).1).2
    exact readsBack_of_shows hw hh hedited.isInt (List.forall₂_zip hshows hmem)

/-- A range button with a range and seven columns, saved and loaded. -/
theorem readsBack_of_save_rangeButton :
    ∃ q, Profile.fromJSON .strict "p" (Profile.document (some ⟨1000, 1000⟩)
        { name := "p", elements := [(Edit.setColumns 7).apply ((Edit.setRange
          (some .digits)).apply ((Edit.setType .rangeButton).apply { view := true }))] }) =
        some q ∧ (q.loadElements .strict ⟨1000, 1000⟩ 0).name = "p" ∧
      List.Forall₂ Element.ReadsBack [(Edit.setColumns 7).apply ((Edit.setRange
        (some .digits)).apply ((Edit.setType .rangeButton).apply { view := true }))]
        (q.loadElements .strict ⟨1000, 1000⟩ 0).elements := by
  refine readsBack_of_save (C := .strict) (by decide +kernel) (by decide +kernel) ?_
    (by decide +kernel) (by decide +kernel) (wellFormed_lit _) "p" 0
  intro e he
  obtain rfl := List.mem_singleton.1 he
  exact ⟨rfl, (((Element.Edited.new 0 true).edit _).edit _).edit _⟩

/-- The columns of a `BUTTON` do not come back. -/
theorem columns_of_button_not_saved :
    ((Edit.setColumns 7).apply { view := true }).Edited ∧
      ((Edit.setColumns 7).apply { view := true }).columns = 7 ∧
      ∃ q, Profile.fromJSON .strict "p" (Profile.document (some ⟨1000, 1000⟩)
          { name := "p", elements := [(Edit.setColumns 7).apply { view := true }] }) = some q ∧
        (q.loadElements .strict ⟨1000, 1000⟩ 0).elements.map Element.columns = [5] := by
  refine ⟨(Element.Edited.new 0 true).edit _, by decide, ?_⟩
  have hread : (Profile.fromJSON .strict "p" (Profile.document (some ⟨1000, 1000⟩)
      { name := "p", elements := [(Edit.setColumns 7).apply { view := true }] })).map (fun q =>
        (q.loadElements .strict ⟨1000, 1000⟩ 0).elements.map Element.columns) = some [5] := by
    decide +kernel
  obtain ⟨q, hq, hcolumns⟩ := Option.map_eq_some_iff.1 hread
  exact ⟨q, hq, hcolumns⟩

end TermuxX11.VirtualKeys
