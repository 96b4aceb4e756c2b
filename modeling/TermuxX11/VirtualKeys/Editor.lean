import TermuxX11.Lib.Run
import TermuxX11.VirtualKeys.Board

/-!
# Edits and reloads

A session of the editor activity: the view with the profile that is edited, and the settings
window, which keeps the element object it was opened for.  Beside it runs a sheet, on which
every edit is carried out as it was asked for, at exact ratios and with names of its own for
the elements; a change of the size or of the configuration asks for nothing there.

`loadElements` builds the elements from the array of the document as it was opened, and
`save` writes the file without touching that array.  So a reload undoes what has been edited
since the profile was opened, and the settings window goes on with an object that is not in
the profile any more.  As long as a reload finds the sheet looking as the document did, and
no settings window open, the elements are those of the sheet in every state.
-/

namespace TermuxX11.VirtualKeys.Editor

open Java Run

/-! ### The sheet -/

/-- An element of the sheet. -/
structure Item where
  id : ℕ
  content : Content

/-- The result of the edits: the elements in order, and the one in the settings window. -/
structure Sheet where
  items : List Item
  nextId : ℕ
  settings : Option ℕ := none

namespace Sheet

/-- The element `id` is changed. -/
def update (id : Option ℕ) (f : Content → Content) (t : Sheet) : Sheet :=
  { t with
    items := t.items.map fun i => if some i.id = id then { i with content := f i.content } else i }

/-- An element is added at the end. -/
def add (c : Content) (t : Sheet) : Sheet :=
  { t with items := t.items ++ [⟨t.nextId, c⟩], nextId := t.nextId + 1 }

/-- The element `id` is removed. -/
def remove (id : Option ℕ) (t : Sheet) : Sheet :=
  { t with items := t.items.eraseP fun i => decide (some i.id = id) }

/-- An attribute is changed in the settings window. -/
def change (d : Edit) (t : Sheet) : Sheet :=
  t.update t.settings fun c => { c with attributes := d.change c.attributes }

/-- What the elements look like in a view of size `s`. -/
def pictures (s : Size) (t : Sheet) : List (Attributes × ℤ × ℤ) :=
  t.items.map fun i => i.content.picture s

end Sheet

/-- The place of a pixel, as ratios to the snapped size. -/
def moveTo (s : Size) (x y : Int32) (c : Content) : Content :=
  { c with x := x.toInt / s.maxWidth, y := y.toInt / s.maxHeight }

/-! ### Sessions -/

/-- The view, the object in the settings window, the sheet, and the document as it was
opened. -/
structure Session where
  view : View
  settings : Option ℕ := none
  sheet : Sheet
  opened : List Content

/-- The view that `onCreate` makes, which has no size yet. -/
def onCreate (C : Coercions) (p : Profile) : View :=
  ({ size := ⟨0, 0⟩, editMode := true } : View).setProfile C p

/-- `onCreate`, and the first layout. -/
def Session.start (C : Coercions) (p : Profile) (s : Size) : Session :=
  { view := (onCreate C p).onSizeChanged C s
    sheet :=
      { items := p.contents.zipIdx.map fun c => ⟨c.2, c.1⟩
        nextId := p.elements.length }
    opened := p.contents }

/-- What happens in a session.  `change` is a listener of the settings window, `dismiss` its
end, which sets the text.  `setProfile` is `onConfigurationChanged` of the activity. -/
inductive Op
  | touch (P : Platform) (ev : MotionEvent)
  | addElement
  | removeElement
  | openSettings
  | change (d : Edit)
  | dismiss (text : JString)
  | onSizeChanged (s : Size)
  | onConfigurationChanged
  | setProfile
  | onDraw

/-- A setter is called on the object `ref`, and `profile.save()`. -/
def changeElement (ref : Option ℕ) (d : Edit) (v : View) : View :=
  if ref.isSome then
    (v.withElements (v.elements.map fun e => if some e.ref = ref then d.apply e else e)).save
  else v

namespace Op

variable (C : Coercions)

/-- What the operation does: the view and the object in the settings window. -/
def run (t : Session) : Op → Option (View × Option ℕ)
  | touch P ev => (t.view.step (.touch P ev)).map fun v => (v, t.settings)
  | addElement => some (t.view.addElement, t.settings)
  | removeElement => some (t.view.removeElement, t.settings)
  | openSettings => some (t.view, t.view.selectedElement.or t.settings)
  | change d => some (changeElement t.settings d t.view, t.settings)
  | dismiss text => some (changeElement t.settings (.setText text) t.view, none)
  | onSizeChanged s => some (t.view.onSizeChanged C s, t.settings)
  | onConfigurationChanged => some (t.view.onConfigurationChanged C, t.settings)
  | setProfile =>
    some ((t.view.profile.map fun p => t.view.setProfile C p).getD t.view, t.settings)
  | onDraw => some (t.view.onDraw C, t.settings)

end Op

/-- The name on the sheet of the selected element. -/
def Session.selectedId (t : Session) : Option ℕ :=
  t.view.selectedElement.bind fun ref =>
    Paired.partner Element.ref Item.id ref t.view.elements t.sheet.items

/-- What the operation asks for. -/
def Op.asked (t : Session) : Op → Sheet
  | touch _ ev =>
    match t.view.drag ev with
    | some (x, y) => t.sheet.update t.selectedId (moveTo t.view.size x y)
    | none => t.sheet
  | addElement =>
    t.sheet.add (moveTo t.view.size t.view.cursorX t.view.cursorY ⟨{}, 0, 0⟩)
  | removeElement => t.sheet.remove t.selectedId
  | openSettings =>
    if t.view.selectedElement.isSome then { t.sheet with settings := t.selectedId } else t.sheet
  | change d => t.sheet.change d
  | dismiss text => { t.sheet.change (.setText text) with settings := none }
  | onSizeChanged _ | onConfigurationChanged | setProfile | onDraw => t.sheet

/-- One operation, in the view and on the sheet. -/
def Op.step (C : Coercions) (t : Session) (op : Op) : Option Session :=
  (op.run C t).map fun r => { t with view := r.1, settings := r.2, sheet := op.asked t }

/-! ### What the code needs -/

/-- The sheet looks as the document did, and no settings window is open. -/
def Session.Unedited (s : Size) (t : Session) : Prop :=
  t.settings = none ∧ t.sheet.pictures s = t.opened.map (Content.picture s)

/-- A length of the grid in both directions. -/
def Proper (s : Size) : Prop := 0 < s.maxWidth ∧ 0 < s.maxHeight

/-- Reloads happen only while nothing has been edited; elements are placed only in a view
that has a snapped size, and every size is positive. -/
def Op.Careful (t : Session) : Op → Prop
  | touch _ ev => ev.action = .move → Proper t.view.size
  | addElement => Proper t.view.size
  | onSizeChanged s => 0 < s.width ∧ 0 < s.height ∧ t.Unedited s
  | onConfigurationChanged | setProfile => t.Unedited t.view.size
  | _ => True

/-! ### Cards and items -/

/-- The cards of a view of size `s` are those of the sheet.  Objects and items are numbered
without repetition, and the settings window is open for the same one. -/
structure Matches (s : Size) (nextRef : ℕ) (settings : Option ℕ) (ks : List Card) (t : Sheet) :
    Prop where
  refs : (ks.map Card.ref).Nodup
  refs_lt : ∀ k ∈ ks, k.ref < nextRef
  ids : (t.items.map Item.id).Nodup
  ids_lt : ∀ i ∈ t.items, i.id < t.nextId
  settings_lt : ∀ r ∈ settings, r < nextRef
  settingsId_lt : ∀ n ∈ t.settings, n < t.nextId
  view : ∀ k ∈ ks, k.view = true
  pictures : List.Forall₂ (fun k i => k.picture = i.content.picture s) ks t.items
  same : List.Forall₂ (fun k i => some k.ref = settings ↔ some i.id = t.settings) ks t.items

namespace Matches

variable {s : Size} {n : ℕ} {w : Option ℕ} {ks : List Card} {t : Sheet}

/-- The selected element and its name on the sheet. -/
theorem selected (h : Matches s n w ks t) (ref : Option ℕ) :
    List.Forall₂ (fun k i => some k.ref = ref ↔
      some i.id = ref.bind fun r => Paired.partner Card.ref Item.id r ks t.items) ks t.items := by
  cases ref with
  | none => exact h.pictures.imp fun k i _ => iff_of_false nofun nofun
  | some r =>
    refine (Paired.forall₂_partner (k := r) h.pictures h.refs h.ids).imp fun k i hki => ?_
    rw [Option.some.injEq]
    exact hki

/-- One card and one item are changed, without their numbers. -/
theorem update (h : Matches s n w ks t) {ref id : Option ℕ} {f : Card → Card}
    {g : Content → Content}
    (hsel : List.Forall₂ (fun k i => some k.ref = ref ↔ some i.id = id) ks t.items)
    (href : ∀ k, (f k).ref = k.ref) (hview : ∀ k, (f k).view = k.view)
    (hfg : ∀ k c, k.picture = Content.picture s c → (f k).picture = (g c).picture s) :
    Matches s n w (ks.map fun k => if some k.ref = ref then f k else k) (t.update id g) := by
  have hrefs : ∀ k, (if some k.ref = ref then f k else k).ref = k.ref := by
    intro k
    split_ifs
    · exact href k
    · rfl
  have hids : ∀ i : Item, (if some i.id = id then { i with content := g i.content } else i).id =
      i.id := by
    intro i
    split_ifs <;> rfl
  refine ⟨?_, ?_, ?_, ?_, h.settings_lt, h.settingsId_lt, ?_, ?_, ?_⟩
  · rw [List.map_map]
    simpa only [Function.comp_def, hrefs] using h.refs
  · intro k' hk'
    obtain ⟨k, hk, rfl⟩ := List.mem_map.1 hk'
    rw [hrefs]
    exact h.refs_lt k hk
  · rw [Sheet.update, List.map_map]
    simpa only [Function.comp_def, hids] using h.ids
  · intro i' hi'
    obtain ⟨i, hi, rfl⟩ := List.mem_map.1 hi'
    rw [hids]
    exact h.ids_lt i hi
  · intro k' hk'
    obtain ⟨k, hk, rfl⟩ := List.mem_map.1 hk'
    split_ifs
    · rw [hview]
      exact h.view k hk
    · exact h.view k hk
  · exact Paired.forall₂_update (Paired.forall₂_and h.pictures hsel)
      (fun k i hp _ => hfg k i.content hp) fun k i hp _ => hp
  · rw [Sheet.update, List.forall₂_map_left_iff, List.forall₂_map_right_iff]
    refine h.same.imp fun k i hki => ?_
    rw [hrefs, hids]
    exact hki

/-- A card and an item are added. -/
theorem add (h : Matches s n w ks t) {k : Card} {c : Content} (href : k.ref = n)
    (hview : k.view = true) (hp : k.picture = c.picture s) :
    Matches s (n + 1) w (ks ++ [k]) (t.add c) := by
  have hnew : ¬ some k.ref = w := by
    intro hw
    have := h.settings_lt k.ref hw.symm
    omega
  have hnew' : ¬ some t.nextId = t.settings := by
    intro hw
    exact absurd (h.settingsId_lt t.nextId hw.symm) (lt_irrefl _)
  refine ⟨?_, ?_, ?_, ?_, ?_, ?_, ?_, ?_, ?_⟩
  · rw [List.map_append, List.map_singleton, List.nodup_append_comm, List.singleton_append,
      List.nodup_cons]
    refine ⟨fun hmem => ?_, h.refs⟩
    obtain ⟨k', hk', heq⟩ := List.mem_map.1 hmem
    have := h.refs_lt k' hk'
    omega
  · intro k' hk'
    rcases List.mem_append.1 hk' with hk' | hk'
    · have := h.refs_lt k' hk'
      omega
    · rw [List.mem_singleton.1 hk']
      omega
  · rw [Sheet.add, List.map_append, List.map_singleton, List.nodup_append_comm,
      List.singleton_append, List.nodup_cons]
    refine ⟨fun hmem => ?_, h.ids⟩
    obtain ⟨i, hi, heq⟩ := List.mem_map.1 hmem
    have := h.ids_lt i hi
    dsimp only at heq
    omega
  · intro i hi
    rcases List.mem_append.1 hi with hi | hi
    · exact (h.ids_lt i hi).trans (Nat.lt_succ_self _)
    · rw [List.mem_singleton.1 hi]
      exact Nat.lt_succ_self _
  · exact fun r hr => (h.settings_lt r hr).trans (Nat.lt_succ_self n)
  · exact fun r hr => (h.settingsId_lt r hr).trans (Nat.lt_succ_self _)
  · intro k' hk'
    rcases List.mem_append.1 hk' with hk' | hk'
    · exact h.view k' hk'
    · rw [List.mem_singleton.1 hk']
      exact hview
  · exact List.rel_append h.pictures (List.Forall₂.cons hp List.Forall₂.nil)
  · exact List.rel_append h.same
      (List.Forall₂.cons (iff_of_false hnew hnew') List.Forall₂.nil)

/-- A card and its item are removed. -/
theorem remove (h : Matches s n w ks t) {ref id : Option ℕ}
    (hsel : List.Forall₂ (fun k i => some k.ref = ref ↔ some i.id = id) ks t.items) :
    Matches s n w (ks.eraseP fun k => decide (some k.ref = ref)) (t.remove id) := by
  have hsel' : List.Forall₂ (fun (k : Card) (i : Item) =>
      decide (some k.ref = ref) = true ↔ decide (some i.id = id) = true) ks t.items :=
    hsel.imp fun k i hki => by rw [decide_eq_true_iff, decide_eq_true_iff, hki]
  have hks : (ks.eraseP fun k => decide (some k.ref = ref)).Sublist ks := List.eraseP_sublist
  have hitems : (t.remove id).items.Sublist t.items := List.eraseP_sublist
  exact
    { refs := (hks.map _).nodup h.refs
      refs_lt := fun k hk => h.refs_lt k (hks.subset hk)
      ids := (hitems.map _).nodup h.ids
      ids_lt := fun i hi => h.ids_lt i (hitems.subset hi)
      settings_lt := h.settings_lt
      settingsId_lt := h.settingsId_lt
      view := fun k hk => h.view k (hks.subset hk)
      pictures := Paired.forall₂_eraseP (Paired.forall₂_and h.pictures hsel')
      same := Paired.forall₂_eraseP (Paired.forall₂_and h.same hsel') }

/-- The settings window opens. -/
theorem openSettings (h : Matches s n w ks t) {ref id : Option ℕ}
    (hsel : List.Forall₂ (fun k i => some k.ref = ref ↔ some i.id = id) ks t.items)
    (href : ∀ r ∈ ref, r < n) (hid : ∀ m ∈ id, m < t.nextId) :
    Matches s n ref ks { t with settings := id } :=
  { h with settings_lt := href, settingsId_lt := hid, same := hsel }

/-- The settings window closes. -/
theorem dismiss (h : Matches s n w ks t) : Matches s n none ks { t with settings := none } :=
  h.openSettings (h.pictures.imp fun _ _ _ => iff_of_false nofun nofun) nofun nofun

/-- Other cards, with higher numbers, that look as the sheet does in a view of size `s'`. -/
theorem deal (h : Matches s n none ks t) {s' : Size} {ks' : List Card} {m : ℕ}
    (hrefs : ks'.map Card.ref = List.range' n m) (hview : ∀ k ∈ ks', k.view = true)
    (hp : ks'.map Card.picture = t.pictures s') : Matches s' (n + m) none ks' t := by
  have hpictures : List.Forall₂ (fun k i => k.picture = Content.picture s' i.content) ks'
      t.items := Paired.forall₂_eq_iff.2 hp
  refine ⟨?_, ?_, h.ids, h.ids_lt, nofun, h.settingsId_lt, hview, hpictures, ?_⟩
  · rw [hrefs]
    exact List.nodup_range'
  · intro k hk
    have hmem : k.ref ∈ List.range' n m := hrefs ▸ List.mem_map_of_mem hk
    have := (List.mem_range'_1.1 hmem).2
    omega
  · -- no item is in the settings window, since no old card was
    have hnone : ∀ i ∈ t.items, ¬ some i.id = t.settings := by
      intro i hi hset
      obtain ⟨k, hk⟩ := Paired.exists_of_mem (List.Forall₂.flip h.same) hi
      exact absurd (hk.2 hset) nofun
    refine List.forall₂_iff_zip.2 ⟨hpictures.length_eq, fun {k i} hmem => ?_⟩
    exact iff_of_false nofun (hnone i (List.of_mem_zip hmem).2)

end Matches

/-! ### The session keeps its sheet -/

/-- The view shows the sheet. -/
structure Tracks (C : Coercions) (js : List Json) (name : JString) (t : Session) (b : Board) :
    Prop where
  board : t.view.board = some b
  editMode : b.editMode = true
  name : b.name = name
  loaded : b.elementsLoaded = true
  json : b.elementsJson = some js
  opened : Contents C js t.opened
  size : 0 < b.size.width ∧ 0 < b.size.height
  cards : Matches b.size b.nextRef t.settings b.cards t.sheet
  selected_lt : ∀ r ∈ t.view.selectedElement, r < b.nextRef

namespace Tracks

variable {C : Coercions} {js : List Json} {name : JString} {t : Session} {b : Board}

theorem size_eq (h : Tracks C js name t b) : t.view.size = b.size := View.size_of_board h.board

theorem selectedId_eq (h : Tracks C js name t b) :
    t.selectedId = t.view.selectedElement.bind fun r =>
      Paired.partner Card.ref Item.id r b.cards t.sheet.items := by
  rw [Session.selectedId, ← View.cards_of_board h.board]
  simp only [Paired.partner_map]
  rfl

/-- The selection of the view and its name on the sheet pick the same element. -/
theorem selected (h : Tracks C js name t b) :
    List.Forall₂ (fun k i => some k.ref = t.view.selectedElement ↔ some i.id = t.selectedId)
      b.cards t.sheet.items := by
  rw [h.selectedId_eq]
  exact h.cards.selected t.view.selectedElement

theorem selectedId_lt (h : Tracks C js name t b) : ∀ n ∈ t.selectedId, n < t.sheet.nextId := by
  intro n hn
  obtain ⟨r, -, hr⟩ := Option.bind_eq_some_iff.1 hn
  obtain ⟨i, hi, rfl⟩ := List.mem_map.1 (Paired.mem_of_partner hr)
  exact h.cards.ids_lt i hi

/-- The view is another one with the same board. -/
theorem of_board_eq (h : Tracks C js name t b) {v : View} (hv : v.board = t.view.board)
    (hsel : v.selectedElement = t.view.selectedElement) :
    Tracks C js name { t with view := v } b :=
  { h with board := hv.trans h.board, selected_lt := hsel ▸ h.selected_lt }

end Tracks

theorem picture_moveTo {s : Size} (hs : Proper s) (x y : Int32) (c : Content) :
    (moveTo s x y c).picture s = (c.attributes, x.toInt, y.toInt) := by
  have hw : (s.maxWidth : ℚ) ≠ 0 := by exact_mod_cast hs.1.ne'
  have hh : (s.maxHeight : ℚ) ≠ 0 := by exact_mod_cast hs.2.ne'
  simp only [moveTo, Content.picture, div_mul_cancel₀ _ hw, div_mul_cancel₀ _ hh,
    toInt_intCast (isInt_int32 _)]

section

variable {C : Coercions} {js : List Json} {name : JString} {t : Session} {b : Board}

theorem tracks_touch (h : Tracks C js name t b) (P : Platform) (ev : MotionEvent)
    (hc : (Op.touch P ev).Careful t) :
    ∃ t' b', Op.step C t (.touch P ev) = some t' ∧ Tracks C js name t' b' := by
  obtain ⟨v', hv', hboard, hsel⟩ := View.board_touch P ev h.board h.editMode h.cards.view
  refine ⟨_, t.view.dragged ev b, by rw [Op.step, Op.run, hv']; rfl, ?_⟩
  have hlt : ∀ r ∈ v'.selectedElement, r < b.nextRef := by
    intro r hr
    rcases hsel r hr with hr | hr
    · exact h.selected_lt r hr
    · obtain ⟨k, hk, rfl⟩ := List.mem_map.1 hr
      exact h.cards.refs_lt k hk
  cases hd : t.view.drag ev with
  | none =>
    simp only [View.dragged, hd] at hboard ⊢
    simp only [Op.asked, hd]
    exact { h with board := hboard, selected_lt := hlt }
  | some xy =>
    simp only [View.dragged, hd] at hboard ⊢
    simp only [Op.asked, hd]
    -- only a move drags, and then the view has a size
    have hmove : ev.action = .move := by
      unfold View.drag at hd
      split_ifs at hd with hready
      exact hready.2
    have hproper : Proper b.size := h.size_eq ▸ hc hmove
    have hcards := h.cards.update (f := fun k => { k with x := xy.1.toInt, y := xy.2.toInt })
      (g := moveTo b.size xy.1 xy.2) h.selected (fun _ => rfl) (fun _ => rfl) fun k c hkc => by
        rw [picture_moveTo hproper]
        exact congrArg (fun a => (a, xy.1.toInt, xy.2.toInt)) (congrArg Prod.fst hkc)
    rw [h.size_eq]
    exact { h with board := hboard, cards := hcards, selected_lt := hlt }

theorem tracks_addElement (h : Tracks C js name t b) (hc : Op.addElement.Careful t) :
    ∃ t' b', Op.step C t .addElement = some t' ∧ Tracks C js name t' b' := by
  obtain ⟨hboard, hsel⟩ := View.board_addElement h.board h.editMode
  have hproper : Proper b.size := h.size_eq ▸ hc
  have hcards := h.cards.add
    (k := ⟨b.nextRef, true, {}, t.view.cursorX.toInt, t.view.cursorY.toInt⟩)
    (c := moveTo t.view.size t.view.cursorX t.view.cursorY ⟨{}, 0, 0⟩) rfl rfl
    (by rw [h.size_eq, picture_moveTo hproper]; rfl)
  refine ⟨_, b.add {} t.view.cursorX.toInt t.view.cursorY.toInt, rfl,
    { h with board := hboard, cards := hcards, selected_lt := ?_ }⟩
  intro r hr
  rw [hsel, Option.mem_some_iff] at hr
  rw [← hr]
  exact Nat.lt_succ_self _

theorem tracks_removeElement (h : Tracks C js name t b) :
    ∃ t' b', Op.step C t .removeElement = some t' ∧ Tracks C js name t' b' := by
  obtain ⟨hboard, hsel⟩ := View.board_removeElement h.board h.editMode
  refine ⟨_, b.remove t.view.selectedElement, rfl,
    { h with board := hboard, cards := h.cards.remove h.selected, selected_lt := ?_ }⟩
  intro r hr
  rw [hsel] at hr
  cases hr

theorem tracks_openSettings (h : Tracks C js name t b) :
    ∃ t' b', Op.step C t .openSettings = some t' ∧ Tracks C js name t' b' := by
  refine ⟨_, b, rfl, ?_⟩
  cases hsel : t.view.selectedElement with
  | none =>
    simp only [Op.asked, hsel, Option.none_or, Option.isSome_none, Bool.false_eq_true, if_false]
    exact h
  | some r =>
    simp only [Op.asked, hsel, Option.some_or, Option.isSome_some, if_true]
    have hcards := h.cards.openSettings h.selected h.selected_lt h.selectedId_lt
    rw [hsel] at hcards
    exact { h with cards := hcards }

/-- A setter in the settings window, in the view and on the sheet. -/
theorem tracks_changeElement (h : Tracks C js name t b) (d : Edit) :
    ∃ b', Tracks C js name
      { t with view := changeElement t.settings d t.view, sheet := t.sheet.change d } b' := by
  have hcards := h.cards.update (f := fun k => { k with attributes := d.change k.attributes })
    (g := fun c => { c with attributes := d.change c.attributes }) h.cards.same (fun _ => rfl)
    (fun _ => rfl) fun k c hkc => by
      have ha : k.attributes = c.attributes := congrArg Prod.fst hkc
      have hxy := congrArg Prod.snd hkc
      rw [Card.picture, Content.picture, ha]
      exact congrArg (Prod.mk _) hxy
  refine ⟨b.update t.settings fun k => { k with attributes := d.change k.attributes },
    { h with board := ?_, cards := hcards, selected_lt := ?_ }⟩
  · have hcard (e : Element) :
        (d.apply e).card = { e.card with attributes := d.change e.card.attributes } := by
      obtain ⟨ha, hplace⟩ := d.apply_spec e
      rw [Element.card, ha, hplace.ref, hplace.view, hplace.x, hplace.y]
      rfl
    unfold changeElement
    split_ifs with hset
    · rw [View.board_save]
      exact View.board_update hcard h.board
    · -- no window is open, so no listener is called
      have hnone : t.settings = none := Option.not_isSome_iff_eq_none.1 hset
      rw [h.board, hnone]
      simp [Board.update]
  · have hsel : (changeElement t.settings d t.view).selectedElement =
        t.view.selectedElement := by
      unfold changeElement
      split_ifs
      · rw [View.selectedElement_save]
        rfl
      · rfl
    rw [hsel]
    exact h.selected_lt

theorem tracks_reload (h : Tracks C js name t b) {s : Size} {v : View}
    (hv : v.board = some { b with size := s }) (hs : 0 < s.width ∧ 0 < s.height)
    (hc : t.Unedited s) : ∃ b', Tracks C js name { t with view := v.reloadElements C } b' := by
  obtain ⟨ks, hboard, hview, hp, hrefs, hsel⟩ := View.board_reloadElements hv h.json h.opened
  have hcards := h.cards
  rw [hc.1] at hcards
  have hdeal := hcards.deal hrefs hview (hp.trans hc.2.symm)
  refine ⟨_, { h with
    board := hboard, loaded := rfl, size := hs, cards := hc.1 ▸ hdeal, selected_lt := ?_ }⟩
  intro r hr
  obtain ⟨k, hk, rfl⟩ := List.mem_map.1 (hsel r hr)
  exact hdeal.refs_lt k hk

theorem board_resize (h : t.view.board = some b) (s : Size) :
    View.board { t.view with size := s } = some { b with size := s } := by
  obtain ⟨p, hp, rfl⟩ := View.board_eq_some h
  simp [View.board, hp]

theorem board_onDraw (h : Tracks C js name t b) :
    (t.view.onDraw C).board = t.view.board ∧
      (t.view.onDraw C).selectedElement = t.view.selectedElement := by
  obtain ⟨p, hp, hb⟩ := View.board_eq_some h.board
  have hloaded : p.elementsLoaded = true := by
    have := h.loaded
    rwa [hb] at this
  unfold View.onDraw
  split_ifs
  · exact ⟨rfl, rfl⟩
  · simp [hp, hloaded, View.board]

/-- The activity sets the profile that is there already. -/
theorem setProfile_eq {v : View} {p : Profile} (hp : v.profile = some p)
    (hs : 0 < v.size.width ∧ 0 < v.size.height) :
    v.setProfile C p = v.deselectAllElements.reloadElements C := by
  have hsame : v.withProfile p = v := by simp [View.withProfile, ← hp]
  unfold View.setProfile
  rw [hsame]
  exact if_pos hs

/-- **A careful operation keeps the sheet.** -/
theorem tracks_step (h : Tracks C js name t b) {op : Op} (hc : op.Careful t) :
    ∃ t' b', Op.step C t op = some t' ∧ Tracks C js name t' b' := by
  have hsize : 0 < t.view.size.width ∧ 0 < t.view.size.height := h.size_eq ▸ h.size
  cases op with
  | touch P ev => exact tracks_touch h P ev hc
  | addElement => exact tracks_addElement h hc
  | removeElement => exact tracks_removeElement h
  | openSettings => exact tracks_openSettings h
  | change d =>
    obtain ⟨b', hb'⟩ := tracks_changeElement h d
    exact ⟨_, b', rfl, hb'⟩
  | dismiss text =>
    obtain ⟨b', hb'⟩ := tracks_changeElement h (.setText text)
    exact ⟨_, b', rfl, { hb' with cards := hb'.cards.dismiss }⟩
  | onSizeChanged s =>
    obtain ⟨hw, hh, hun⟩ := hc
    obtain ⟨b', hb'⟩ := tracks_reload h (board_resize h.board s) ⟨hw, hh⟩ hun
    refine ⟨_, b', rfl, ?_⟩
    dsimp only [View.onSizeChanged]
    rw [if_pos ⟨hw, hh⟩]
    exact hb'
  | onConfigurationChanged =>
    obtain ⟨b', hb'⟩ := tracks_reload h h.board h.size (h.size_eq ▸ hc)
    refine ⟨_, b', rfl, ?_⟩
    dsimp only [View.onConfigurationChanged]
    rw [if_pos hsize]
    exact hb'
  | setProfile =>
    obtain ⟨p, hp, -⟩ := View.board_eq_some h.board
    have hboard := (View.board_deselectAllElements t.view).trans h.board
    obtain ⟨b', hb'⟩ := tracks_reload h hboard h.size (h.size_eq ▸ hc)
    refine ⟨_, b', rfl, ?_⟩
    dsimp only
    rw [hp, Option.map_some, Option.getD_some, setProfile_eq hp hsize]
    exact hb'
  | onDraw =>
    obtain ⟨hboard, hsel⟩ := board_onDraw h
    exact ⟨_, b, rfl, h.of_board_eq hboard hsel⟩

end

/-! ### The start -/

theorem pictures_start (C : Coercions) (p : Profile) (s s' : Size) :
    (Session.start C p s).sheet.pictures s' = p.contents.map (Content.picture s') := by
  have hfst : p.contents.map (Content.picture s') =
      (p.contents.zipIdx.map Prod.fst).map (Content.picture s') := by
    rw [List.zipIdx_map_fst]
  rw [hfst, Sheet.pictures, Session.start, List.map_map, List.map_map]
  rfl

theorem ids_start (C : Coercions) (p : Profile) (s : Size) :
    (Session.start C p s).sheet.items.map Item.id = List.range' 0 p.elements.length := by
  have hlength : p.contents.length = p.elements.length := List.length_map _
  rw [Session.start, List.map_map, ← hlength, ← List.zipIdx_map_snd]
  rfl

theorem setProfile_unsized {C : Coercions} {v : View} (p : Profile)
    (h : ¬ (0 < v.size.width ∧ 0 < v.size.height)) :
    v.setProfile C p = (v.withProfile p).deselectAllElements := by
  unfold View.setProfile
  dsimp only
  split_ifs with hs
  · exact absurd hs h
  · rfl

theorem board_onCreate (C : Coercions) (p : Profile) (s : Size) :
    View.board { onCreate C p with size := s } = some
      { editMode := true
        size := s
        nextRef := 0
        name := p.name
        elementsLoaded := p.elementsLoaded
        elementsJson := p.elementsJson
        cards := p.elements.map Element.card } := by
  have hset : onCreate C p =
      (({ size := ⟨0, 0⟩, editMode := true } : View).withProfile p).deselectAllElements :=
    setProfile_unsized p fun h => absurd h.1 (lt_irrefl 0)
  have hcards : (p.elements.map (Element.setSelected false)).map Element.card =
      p.elements.map Element.card := by
    rw [List.map_map]
    rfl
  rw [hset, ← hcards]
  rfl

theorem tracks_start {C : Coercions} {name : JString} {j : Json} {p : Profile}
    (hp : Profile.fromJSON C name j = some p) {s : Size} (hs : 0 < s.width ∧ 0 < s.height) :
    ∃ js b, Tracks C js p.name (Session.start C p s) b := by
  obtain ⟨-, js, cs, -, -, hcs, hshows, -, -, hjson⟩ := fromJSON_spec hp
  have hopened : p.contents = cs := contents_of_shows hshows
  obtain ⟨ks, hboard, hview, hpics, hrefs, hsel⟩ := View.board_reloadElements
    (board_onCreate C p s) hjson hcs
  -- `onCreate` has no size to load the elements for; the first layout has
  have hstart : (Session.start C p s).view =
      View.reloadElements C { onCreate C p with size := s } := by
    dsimp only [Session.start, View.onSizeChanged]
    rw [if_pos hs]
  have hsheet : ks.map Card.picture = (Session.start C p s).sheet.pictures s := by
    rw [pictures_start, hopened]
    exact hpics
  have hrefs_lt : ∀ k ∈ ks, k.ref < 0 + js.length := by
    intro k hk
    have hmem : k.ref ∈ List.range' 0 js.length := hrefs ▸ List.mem_map_of_mem hk
    exact (List.mem_range'_1.1 hmem).2
  have hids_lt : ∀ i ∈ (Session.start C p s).sheet.items,
      i.id < (Session.start C p s).sheet.nextId := by
    intro i hi
    have hmem : i.id ∈ List.range' 0 p.elements.length :=
      ids_start C p s ▸ List.mem_map_of_mem hi
    have := (List.mem_range'_1.1 hmem).2
    rwa [Nat.zero_add] at this
  have hpictures := Paired.forall₂_eq_iff.2 hsheet
  have hcontents : Contents C js p.contents := by rwa [hopened]
  refine ⟨js, _,
    { board := (congrArg View.board hstart).trans hboard
      editMode := rfl
      name := rfl
      loaded := rfl
      json := hjson
      opened := hcontents
      size := hs
      cards :=
        { refs := hrefs ▸ List.nodup_range'
          refs_lt := hrefs_lt
          ids := (ids_start C p s).symm ▸ List.nodup_range'
          ids_lt := hids_lt
          settings_lt := nofun
          settingsId_lt := nofun
          view := hview
          pictures := hpictures
          same := hpictures.imp fun _ _ _ => iff_of_false nofun nofun }
      selected_lt := ?_ }⟩
  intro r hr
  rw [hstart] at hr
  obtain ⟨k, hk, rfl⟩ := List.mem_map.1 (hsel r hr)
  exact hrefs_lt k hk

/-! ### What a session shows and saves -/

/-- The element that a content stands for, in a view of size `s`. -/
def element (s : Size) (c : Content) : Element :=
  { view := true
    type := c.attributes.type
    shape := c.attributes.shape
    scale := c.attributes.scale
    x := toInt (c.x * s.maxWidth)
    y := toInt (c.y * s.maxHeight)
    isToggleSwitch := c.attributes.isToggleSwitch
    text := c.attributes.text
    iconId := c.attributes.iconId
    bindings := c.attributes.bindings
    range := c.attributes.range
    columns := c.attributes.columns
    orientation := c.attributes.orientation }

/-- The document of the sheet, as `save` writes one. -/
def Sheet.document (s : Size) (name : JString) (t : Sheet) : Json :=
  Profile.document (some s) { name := name, elements := t.items.map fun i => element s i.content }

/-- The elements of the view are those of the sheet, and so is the file that is written
next. -/
structure Session.Kept (name : JString) (t : Session) : Prop where
  elements : (t.view.elements.map fun e => (e.attributes, e.x, e.y)) = t.sheet.pictures t.view.size
  file : t.view.save.file = some (t.sheet.document t.view.size name)

/-- An element is written from its attributes and its place. -/
theorem toJSONObject_congr {e e' : Element} (s : Size) (ha : e.attributes = e'.attributes)
    (hx : e.x = e'.x) (hy : e.y = e'.y) :
    e.toJSONObject (some s) = e'.toJSONObject (some s) := by
  simp only [Element.attributes, Attributes.mk.injEq] at ha
  obtain ⟨h1, h2, h3, h4, h5, h6, h7, h8, h9, h10⟩ := ha
  simp only [Element.toJSONObject, Element.failsAt_some, Element.fields, Element.writtenPosition,
    h1, h2, h3, h4, h5, h6, h7, h8, h9, h10, hx, hy]

theorem kept_of_tracks {C : Coercions} {js : List Json} {name : JString} {t : Session} {b : Board}
    (h : Tracks C js name t b) : t.Kept name := by
  have hcards := View.cards_of_board h.board
  have helements : (t.view.elements.map fun e => (e.attributes, e.x, e.y)) =
      t.sheet.pictures t.view.size := by
    have hpics := Paired.forall₂_eq_iff.1 h.cards.pictures
    rw [← hcards, List.map_map] at hpics
    rw [h.size_eq]
    exact hpics
  refine ⟨helements, ?_⟩
  obtain ⟨p, hp, hb⟩ := View.board_eq_some h.board
  have hname : p.name = name := by
    have := h.name
    rwa [hb] at this
  have hpelements : t.view.elements = p.elements := by
    rw [View.elements, hp]
    rfl
  have hview : ∀ e ∈ p.elements, e.view = true := by
    intro e he
    refine h.cards.view e.card ?_
    rw [← hcards, hpelements]
    exact List.mem_map_of_mem he
  rw [hpelements] at helements
  have hsame := Paired.forall₂_eq_iff.2 helements
  -- an element and its item have the same picture, and nothing else is written
  have hjson : (p.elements.map fun e => e.toJSONObject (if e.view then some t.view.size else none)) =
      (t.sheet.items.map fun i => element t.view.size i.content).map fun e =>
        e.toJSONObject (if e.view then some t.view.size else none) := by
    rw [List.map_map, ← Paired.forall₂_eq_iff]
    refine List.forall₂_iff_zip.2 ⟨hsame.length_eq, fun {e i} hmem => ?_⟩
    have hei := List.forall₂_zip hsame hmem
    rw [if_pos (hview e (List.of_mem_zip hmem).1)]
    exact toJSONObject_congr _ (congrArg (fun q => q.1) hei) (congrArg (fun q => q.2.1) hei)
      (congrArg (fun q => q.2.2) hei)
  simp only [View.save, hp, Sheet.document, Profile.document, Profile.toJSONObject, hname, hjson]

/-- **Edits survive where reloads find nothing edited**: in every state of every careful run
of a session, the elements are those that the edits make of the document, in order, and so
is the file that the next `save` writes. -/
theorem edits_survive {C : Coercions} {name : JString} {j : Json} {p : Profile}
    (hp : Profile.fromJSON C name j = some p) {s : Size} (hs : 0 < s.width ∧ 0 < s.height)
    {ops : List Op} (hcare : TryAlways (Op.step C) Op.Careful (Session.start C p s) ops) :
    ∃ t, tryExec (Op.step C) (Session.start C p s) ops = some t ∧ t.Kept p.name := by
  obtain ⟨js, b, hstart⟩ := tracks_start hp hs
  have hI : ∃ b, Tracks C js p.name (Session.start C p s) b := ⟨b, hstart⟩
  have hstep : ∀ t op, (∃ b, Tracks C js p.name t b) → op.Careful t →
      ∃ t', Op.step C t op = some t' ∧ ∃ b', Tracks C js p.name t' b' := by
    rintro t op ⟨b, hb⟩ hc
    obtain ⟨t', b', ht', hb'⟩ := tracks_step hb hc
    exact ⟨t', ht', b', hb'⟩
  obtain ⟨t, ht⟩ := tryExec_total hstep hI hcare
  have hlast : ∃ b, Tracks C js p.name t b := by
    refine tryExec_invariant (I := fun t => ∃ b, Tracks C js p.name t b)
      (fun t op t' hI hc ht' => ?_) hI hcare ht
    obtain ⟨t'', ht'', hb⟩ := hstep t op hI hc
    obtain rfl := Option.some.inj (ht''.symm.trans ht')
    exact hb
  obtain ⟨b', hb'⟩ := hlast
  exact ⟨t, ht, kept_of_tracks hb'⟩

/-! ### An element that is added before the size changes -/

/-- A document without elements. -/
def emptyDocument : Json := .obj [("name", .str "p"), ("elements", .arr [])]

/-- The profile of that document. -/
def emptyProfile : Profile := { name := "p", elementsLoaded := true, elementsJson := some [] }

theorem fromJSON_emptyDocument :
    Profile.fromJSON .strict "p" emptyDocument = some emptyProfile := rfl

/-- An element is added and removed, the size changes, and another one is added. -/
theorem edits_survive_removed :
    ∃ t, tryExec (Op.step .strict) (Session.start .strict emptyProfile ⟨1000, 1000⟩)
        [.addElement, .removeElement, .onSizeChanged ⟨500, 1000⟩, .addElement] = some t ∧
      t.Kept "p" ∧ t.view.elements.length = 1 := by
  have hcare : TryAlways (Op.step .strict) Op.Careful
      (Session.start .strict emptyProfile ⟨1000, 1000⟩)
      [.addElement, .removeElement, .onSizeChanged ⟨500, 1000⟩, .addElement] := by
    refine ⟨⟨by decide +kernel, by decide +kernel⟩, fun t ht => ⟨trivial, fun u hu => ?_⟩⟩
    obtain rfl := Option.some.inj ht
    obtain rfl := Option.some.inj hu
    refine ⟨⟨by decide, by decide, rfl, ?_⟩, fun w hw => ⟨?_, fun _ _ => trivial⟩⟩
    · decide +kernel
    · obtain rfl := Option.some.inj hw
      exact ⟨by decide +kernel, by decide +kernel⟩
  obtain ⟨t, ht, hkept⟩ := edits_survive fromJSON_emptyDocument (by decide) hcare
  refine ⟨t, ht, hkept, ?_⟩
  have hlength : (tryExec (Op.step .strict) (Session.start .strict emptyProfile ⟨1000, 1000⟩)
      [.addElement, .removeElement, .onSizeChanged ⟨500, 1000⟩, .addElement]).map
        (fun t => t.view.elements.length) = some 1 := by
    decide +kernel
  rw [ht] at hlength
  exact Option.some.inj hlength

/-- An element is added, the size changes, and the element is gone. -/
theorem reload_loses_element :
    Profile.fromJSON .strict "p" emptyDocument = some emptyProfile ∧
      ∃ t, tryExec (Op.step .strict) (Session.start .strict emptyProfile ⟨1000, 1000⟩)
          [.addElement, .onSizeChanged ⟨500, 1000⟩] = some t ∧
        t.sheet.items.length = 1 ∧ t.view.elements = [] ∧ ¬ t.Kept "p" := by
  have hlengths : (tryExec (Op.step .strict) (Session.start .strict emptyProfile ⟨1000, 1000⟩)
      [.addElement, .onSizeChanged ⟨500, 1000⟩]).map
        (fun t => (t.sheet.items.length, t.view.elements.length)) = some (1, 0) := by
    decide +kernel
  obtain ⟨t, ht, hlength⟩ := Option.map_eq_some_iff.1 hlengths
  have hitems : t.sheet.items.length = 1 := congrArg Prod.fst hlength
  have helements : t.view.elements.length = 0 := congrArg Prod.snd hlength
  refine ⟨fromJSON_emptyDocument, t, ht, hitems, List.length_eq_zero_iff.1 helements, ?_⟩
  intro hkept
  have := congrArg List.length hkept.elements
  rw [Sheet.pictures, List.length_map, List.length_map, hitems, helements] at this
  cases this

end TermuxX11.VirtualKeys.Editor
