import TermuxX11.Lib.Paired
import TermuxX11.VirtualKeys.Accounting
import TermuxX11.VirtualKeys.RoundTrip

/-!
# The view in edit mode

`Card` is what the editor shows of an element and `Board` what it works on: the cards, the
array they were read from, the size and the next free object number.  Selecting, drawing and
saving leave the board as it is; adding, removing, moving and changing an element do to the
board what they say; `reloadElements` deals the cards anew from the array, which `save`
never touches.
-/

namespace TermuxX11.VirtualKeys

open Java

/-- What the editor shows of an element. -/
structure Card where
  ref : ℕ
  view : Bool
  attributes : Attributes
  x : ℤ
  y : ℤ

/-- The card of an element. -/
def Element.card (e : Element) : Card := ⟨e.ref, e.view, e.attributes, e.x, e.y⟩

/-- The attributes and the place. -/
def Card.picture (k : Card) : Attributes × ℤ × ℤ := (k.attributes, k.x, k.y)

/-- The attributes and the place of a content in a view of size `s`. -/
def Content.picture (s : Size) (c : Content) : Attributes × ℤ × ℤ :=
  (c.attributes, toInt (c.x * s.maxWidth), toInt (c.y * s.maxHeight))

/-- What the editor works on. -/
structure Board where
  editMode : Bool
  size : Size
  nextRef : ℕ
  name : JString
  elementsLoaded : Bool
  elementsJson : Option (List Json)
  cards : List Card

/-- The board of a view that has a profile. -/
def View.board (v : View) : Option Board :=
  v.profile.map fun p =>
    { editMode := v.editMode
      size := v.size
      nextRef := v.nextRef
      name := p.name
      elementsLoaded := p.elementsLoaded
      elementsJson := p.elementsJson
      cards := p.elements.map Element.card }

namespace Board

/-- The cards with the number `ref` are changed. -/
def update (ref : Option ℕ) (f : Card → Card) (b : Board) : Board :=
  { b with cards := b.cards.map fun k => if some k.ref = ref then f k else k }

/-- A new card. -/
def add (a : Attributes) (x y : ℤ) (b : Board) : Board :=
  { b with cards := b.cards ++ [⟨b.nextRef, true, a, x, y⟩], nextRef := b.nextRef + 1 }

/-- The card with the number `ref` is removed. -/
def remove (ref : Option ℕ) (b : Board) : Board :=
  { b with cards := b.cards.eraseP fun k => decide (some k.ref = ref) }

end Board

namespace View

variable {v : View} {b : Board}

theorem board_eq_some (h : v.board = some b) :
    ∃ p, v.profile = some p ∧ b =
      { editMode := v.editMode
        size := v.size
        nextRef := v.nextRef
        name := p.name
        elementsLoaded := p.elementsLoaded
        elementsJson := p.elementsJson
        cards := p.elements.map Element.card } := by
  obtain ⟨p, hp, rfl⟩ := Option.map_eq_some_iff.1 h
  exact ⟨p, hp, rfl⟩

theorem cards_of_board (h : v.board = some b) : v.elements.map Element.card = b.cards := by
  obtain ⟨p, hp, rfl⟩ := board_eq_some h
  rw [View.elements, hp]
  rfl

theorem size_of_board (h : v.board = some b) : v.size = b.size := by
  obtain ⟨p, -, rfl⟩ := board_eq_some h
  rfl

/-! ### What leaves the board alone -/

theorem board_withElements {es : List Element}
    (h : es.map Element.card = v.elements.map Element.card) :
    (v.withElements es).board = v.board := by
  cases hp : v.profile with
  | none => simp [View.board, withElements, hp]
  | some p =>
    rw [View.elements, hp] at h
    simpa [View.board, withElements, hp] using h

theorem board_map {f : Element → Element} (h : ∀ e, (f e).card = e.card) :
    (v.withElements (v.elements.map f)).board = v.board := by
  refine board_withElements ?_
  rw [List.map_map]
  exact List.map_congr_left fun e _ => h e

@[simp] theorem board_deselectAllElements (v : View) : v.deselectAllElements.board = v.board :=
  board_map (v := v) fun _ => rfl

@[simp] theorem board_selectElement (ref : Option ℕ) (v : View) :
    (v.selectElement ref).board = v.board := by
  cases ref with
  | none => exact board_deselectAllElements v
  | some r =>
    have hmark : (v.selectElement (some r)).board =
        (v.deselectAllElements.withSelection (some r)).board := by
      refine board_map fun e => ?_
      split_ifs <;> rfl
    exact hmark.trans (board_deselectAllElements v)

@[simp] theorem selectedElement_selectElement (ref : Option ℕ) (v : View) :
    (v.selectElement ref).selectedElement = ref := by
  cases ref <;> rfl

@[simp] theorem board_save (v : View) : v.save.board = v.board := by
  unfold save
  split <;> rfl

@[simp] theorem selectedElement_save (v : View) :
    v.save.selectedElement = v.selectedElement := by
  unfold save
  split <;> rfl

@[simp] theorem board_pickUp (p : Pointer) (hit : Option Element) (v : View) :
    (v.pickUp p hit).board = v.board := by
  cases hit <;> rfl

/-- The element under a point is one of them.  A box that is computed on the way is not on
the card. -/
theorem intersectElement_total (ss : ℤ) (x y : ℚ) {es : List Element}
    (h : ∀ e ∈ es, e.view = true) :
    ∃ r, intersectElement ss x y es = some r ∧ r.2.map Element.card = es.map Element.card ∧
      ∀ e ∈ r.1, e.card ∈ es.map Element.card := by
  induction es with
  | nil => exact ⟨(none, []), rfl, rfl, fun e he => by cases he⟩
  | cons e es ih =>
    rw [List.forall_mem_cons] at h
    obtain ⟨r, hr, hcards, hhit⟩ := ih h.2
    have hview : ¬ (e.boundingBoxNeedsUpdate = true ∧ e.view = false) := by
      rintro ⟨-, hv⟩
      rw [h.1] at hv
      cases hv
    rw [intersectElement, if_neg hview]
    dsimp only
    by_cases hin : e.containsPoint ss x y = true
    · rw [if_pos hin]
      refine ⟨_, rfl, rfl, fun e' he' => ?_⟩
      rw [← Option.some.inj he']
      exact List.mem_cons_self
    · rw [if_neg hin, hr]
      refine ⟨_, rfl, ?_, fun e' he' => List.mem_cons_of_mem _ (hhit e' he')⟩
      rw [List.map_cons, List.map_cons, hcards]
      rfl

/-! ### What changes the board -/

theorem board_update {ref : Option ℕ} {f : Element → Element} {g : Card → Card}
    (hfg : ∀ e, (f e).card = g e.card) (h : v.board = some b) :
    (v.withElements (v.elements.map fun e => if some e.ref = ref then f e else e)).board =
      some (b.update ref g) := by
  obtain ⟨p, hp, rfl⟩ := board_eq_some h
  have hcards : (p.elements.map fun e => if some e.ref = ref then f e else e).map Element.card =
      (p.elements.map Element.card).map fun k => if some k.ref = ref then g k else k := by
    rw [List.map_map, List.map_map]
    refine List.map_congr_left fun e _ => ?_
    show Element.card (if some e.ref = ref then f e else e) =
      if some e.ref = ref then g e.card else e.card
    rw [apply_ite Element.card, hfg]
  simp only [View.board, withElements, View.elements, hp, Option.map_some, Option.getD_some,
    Board.update, hcards]

theorem card_move (e : Element) (x y : ℤ) :
    ((e.setX x).setY y).card = { e.card with x := x, y := y } := by
  unfold Element.setX Element.setY
  split_ifs with hx hy hy
  · rw [← hx, ← hy]
    rfl
  · rw [← hx]
    rfl
  · rw [← hy]
    rfl
  · rfl

theorem board_addElement (h : v.board = some b) (hedit : b.editMode = true) :
    v.addElement.board = some (b.add {} v.cursorX.toInt v.cursorY.toInt) ∧
      v.addElement.selectedElement = some b.nextRef := by
  obtain ⟨p, hp, rfl⟩ := board_eq_some h
  have hedit' : v.editMode = true := hedit
  have hbutton : ((({ ref := v.nextRef, view := true } : Element).setX
      v.cursorX.toInt).setY v.cursorY.toInt).type = .button :=
    congrArg (fun k : Card => k.attributes.type) (card_move _ v.cursorX.toInt v.cursorY.toInt)
  have hcard : Element.card (((({ ref := v.nextRef, view := true } : Element).setX
      v.cursorX.toInt).setY v.cursorY.toInt).initDefaultBindings) =
      ⟨v.nextRef, true, {}, v.cursorX.toInt, v.cursorY.toInt⟩ := by
    simp only [Element.initDefaultBindings, hbutton]
    exact card_move _ v.cursorX.toInt v.cursorY.toInt
  unfold addElement
  simp only [hp, hedit', if_true, board_selectElement, board_save, selectedElement_selectElement]
  refine ⟨?_, congrArg (fun k : Card => some k.ref) hcard⟩
  simp [View.board, Board.add, hcard]

theorem board_removeElement (h : v.board = some b) (hedit : b.editMode = true) :
    v.removeElement.board = some (b.remove v.selectedElement) ∧
      v.removeElement.selectedElement = none := by
  obtain ⟨p, hp, rfl⟩ := board_eq_some h
  have hedit' : v.editMode = true := hedit
  unfold removeElement
  cases hsel : v.selectedElement with
  | none =>
    have hnone : (p.elements.map Element.card).eraseP (fun _ => false) =
        p.elements.map Element.card :=
      List.eraseP_of_forall_not fun k _ hk => Bool.false_ne_true hk
    simp [View.board, Board.remove, hp, hnone, hsel]
  | some ref =>
    simp only [hp, hedit', if_true, board_save, selectedElement_save, and_true]
    simp only [View.board, Board.remove, Option.map_some, List.eraseP_map, Option.some.injEq]
    rfl

/-- What a touch in edit mode asks for: the selected element follows the finger. -/
def drag (ev : MotionEvent) (v : View) : Option (Int32 × Int32) :=
  if v.readyToDraw = true ∧ ev.action = .move then
    some (roundTo (ev.firstPointer.x - v.offsetX) v.size.snappingSize,
      roundTo (ev.firstPointer.y - v.offsetY) v.size.snappingSize)
  else none

/-- The board after a touch. -/
def dragged (ev : MotionEvent) (v : View) (b : Board) : Board :=
  match v.drag ev with
  | some (x, y) => b.update v.selectedElement fun k => { k with x := x.toInt, y := y.toInt }
  | none => b

theorem board_touchEdit (ev : MotionEvent) (h : v.board = some b)
    (hview : ∀ e ∈ v.elements, e.view = true) (hready : v.readyToDraw = true) :
    ∃ v', v.touchEdit ev = some v' ∧ v'.board = some (v.dragged ev b) ∧
      ∀ r ∈ v'.selectedElement, r ∈ v.selectedElement ∨ r ∈ b.cards.map Card.ref := by
  cases ha : ev.action with
  | down =>
    obtain ⟨r, hr, hcards, hhit⟩ := intersectElement_total v.size.snappingSize
      ev.firstPointer.x ev.firstPointer.y hview
    refine ⟨((v.withElements r.2).pickUp ev.firstPointer r.1).selectElement
      (r.1.map Element.ref), ?_, ?_, ?_⟩
    · simp only [touchEdit, ha, hr, Option.map_some]
    · rw [board_selectElement, board_pickUp, board_withElements hcards, h]
      simp [dragged, drag, ha]
    · intro ref href
      rw [selectedElement_selectElement, Option.mem_map] at href
      obtain ⟨e, he, rfl⟩ := href
      refine Or.inr (List.mem_map_of_mem (f := Card.ref) (?_ : e.card ∈ b.cards))
      rw [← cards_of_board h]
      exact hhit e he
  | move =>
    refine ⟨v.modifySelected fun e =>
      (e.setX (roundTo (ev.firstPointer.x - v.offsetX) v.size.snappingSize).toInt).setY
        (roundTo (ev.firstPointer.y - v.offsetY) v.size.snappingSize).toInt, ?_, ?_,
      fun r hr => Or.inl hr⟩
    · simp only [touchEdit, ha]
    · simp only [dragged, drag, ha, hready, and_self, if_true]
      exact board_update (fun e => card_move e _ _) h
  | up =>
    -- saving writes the file and leaves the cards alone
    have hsave : (if v.selectedElement.isSome then v.save else v).board = some b ∧
        (if v.selectedElement.isSome then v.save else v).selectedElement =
          v.selectedElement := by
      split_ifs
      · exact ⟨(board_save v).trans h, selectedElement_save v⟩
      · exact ⟨h, rfl⟩
    have hsame : v.dragged ev b = b := by simp [dragged, drag, ha]
    simp only [touchEdit, ha, Option.some.injEq, exists_eq_left', hsame]
    split_ifs at hsave ⊢ <;> exact ⟨hsave.1, fun r hr => Or.inl (hsave.2 ▸ hr)⟩
  | pointerDown | pointerUp | cancel =>
    refine ⟨v, ?_, ?_, fun r hr => Or.inl hr⟩
    · simp only [touchEdit, ha]
    · simp [dragged, drag, ha, h]

theorem board_touch (P : Platform) (ev : MotionEvent) (h : v.board = some b)
    (hedit : b.editMode = true) (hview : ∀ k ∈ b.cards, k.view = true) :
    ∃ v', v.step (.touch P ev) = some v' ∧ v'.board = some (v.dragged ev b) ∧
      ∀ r ∈ v'.selectedElement, r ∈ v.selectedElement ∨ r ∈ b.cards.map Card.ref := by
  have hedit' : v.editMode = true := by
    obtain ⟨p, hp, rfl⟩ := board_eq_some h
    exact hedit
  have hall : ∀ e ∈ v.elements, e.view = true := by
    intro e he
    refine hview e.card ?_
    rw [← cards_of_board h]
    exact List.mem_map_of_mem he
  by_cases hready : v.readyToDraw = true
  · obtain ⟨v', hv', hboard, hsel⟩ := board_touchEdit ev h hall hready
    refine ⟨v.deliver (v', []), ?_, hboard, hsel⟩
    simp [View.step, Callback.run, onTouchEvent, hedit', hready, hv']
  · refine ⟨v.deliver (v, []), ?_, ?_, fun r hr => Or.inl hr⟩
    · simp [View.step, Callback.run, onTouchEvent, hedit', hready]
    · have hsame : v.dragged ev b = b := by simp [dragged, drag, hready]
      rw [hsame]
      exact h

/-! ### Dealing the cards anew -/

/-- **A reload goes back to the array that was read.** -/
theorem board_reloadElements {C : Coercions} {js : List Json} {cs : List Content}
    (h : v.board = some b) (hjs : b.elementsJson = some js) (hcs : Contents C js cs) :
    ∃ ks, (v.reloadElements C).board =
        some { b with nextRef := b.nextRef + js.length, elementsLoaded := true, cards := ks } ∧
      (∀ k ∈ ks, k.view = true) ∧ ks.map Card.picture = cs.map (Content.picture b.size) ∧
      ks.map Card.ref = List.range' b.nextRef js.length ∧
      ∀ r ∈ (v.reloadElements C).selectedElement, r ∈ ks.map Card.ref := by
  obtain ⟨p, hp, rfl⟩ := board_eq_some h
  have hjs' : p.elementsJson = some js := hjs
  obtain ⟨es, hes, hshows, hrefs⟩ := loadElements_shows hjs' hcs v.size v.nextRef
  have hload : (v.loadProfile C p).board = some
      { editMode := v.editMode, size := v.size, nextRef := v.nextRef + js.length, name := p.name,
        elementsLoaded := true, elementsJson := some js, cards := es.map Element.card } := by
    simp [View.board, loadProfile, hes, hjs']
  have hboard : (v.reloadElements C).board = (v.loadProfile C p).board := by
    unfold reloadElements
    cases hsel : v.selectedElement with
    | none => simp only [hp]
    | some ref => simp only [hp, board_selectElement]
  refine ⟨es.map Element.card, ?_, ?_, ?_, ?_, ?_⟩
  · rw [hboard, hload, hjs']
  · intro k hk
    obtain ⟨e, he, rfl⟩ := List.mem_map.1 hk
    obtain ⟨c, hc⟩ := Paired.exists_of_mem (List.Forall₂.flip hshows) he
    exact hc.view
  · rw [List.map_map, ← Paired.forall₂_eq_iff]
    refine (List.Forall₂.flip hshows).imp fun e c hc => ?_
    show (e.attributes, e.x, e.y) = Content.picture v.size c
    rw [hc.attributes, hc.x, hc.y]
    rfl
  · rw [List.map_map]
    exact hrefs
  · unfold reloadElements
    cases hsel : v.selectedElement with
    | none =>
      simp only [hp]
      intro r hr
      have hold : r ∈ v.selectedElement := hr
      rw [hsel] at hold
      cases hold
    | some ref =>
      -- the selected object is looked for among the new ones
      simp only [hp, selectedElement_selectElement]
      intro r hr
      obtain ⟨e, he, rfl⟩ := Option.mem_map.1 hr
      have hmem := List.mem_of_find?_eq_some he
      have helements : (v.loadProfile C p).elements = es := by
        simp [View.elements, loadProfile, hes]
      rw [helements] at hmem
      exact List.mem_map_of_mem (List.mem_map_of_mem hmem)

end View

end TermuxX11.VirtualKeys
