import TermuxX11.Lib.Run
import TermuxX11.VirtualKeys.Holds
import TermuxX11.VirtualKeys.View

/-!
# The overlay answers for what is down

The elements and the view send presses and releases under their own names (`events`).
`View.Holds` collects what they answer for: each element for what it holds, the view for
the buttons it keeps pressed.  Every callback of a gesture (`Callback`) explains the events
it sends (`accounts_run`), and from it the invariant `Kept` follows for all runs: whatever
is down is answered for.
-/

namespace TermuxX11.VirtualKeys

open Ledger

/-- The presses and releases of a sequence of calls, with their senders. -/
def Calls.events (cs : Calls) : List ((Source × Signal) × Bool) :=
  cs.filterMap fun c => c.2.event?.map fun ev => ((c.1, ev.1), ev.2)

@[simp] theorem Calls.events_nil : Calls.events [] = [] := rfl

@[simp] theorem Calls.events_append (cs cs' : Calls) :
    Calls.events (cs ++ cs') = Calls.events cs ++ Calls.events cs' :=
  List.filterMap_append

theorem events_tag (e : Element) (os : List Output) :
    Calls.events (e.tag os) = tagged (.element e.ref) (events os) := by
  induction os with
  | nil => rfl
  | cons o os ih =>
    have hcons : e.tag (o :: os) = [(.element e.ref, o)] ++ e.tag os := rfl
    rw [hcons, Calls.events_append, ih]
    cases o <;> rfl

/-- What a list of elements answers for. -/
def ElementsHold (es : List Element) (k : Source × Signal) : Prop :=
  ∃ e ∈ es, .element e.ref = k.1 ∧ e.Holds k.2

/-- The buttons the view keeps pressed. -/
def ButtonsHold (left right : Bool) (k : Source × Signal) : Prop :=
  (left = true ∧ k = (.view, .button 1)) ∨ (right = true ∧ k = (.view, .button 3))

/-- What the overlay answers for. -/
def View.Holds (v : View) (k : Source × Signal) : Prop :=
  ElementsHold v.elements k ∨ ButtonsHold v.leftButtonHeld v.rightButtonHeld k

/-! ### Loops over the elements -/

theorem elementsHold_cons (e : Element) (es : List Element) :
    ElementsHold (e :: es) =
      fun k => (.element e.ref = k.1 ∧ e.Holds k.2) ∨ ElementsHold es k := by
  funext k
  simp [ElementsHold]

/-- One element of the list is handled, the others keep answering for theirs. -/
theorem explains_head {e e' : Element} {os : List Output} (h : e.Handles (e', os))
    (es : List Element) :
    Explains (ElementsHold (e :: es)) (ElementsHold (e' :: es)) (Calls.events (e.tag os)) := by
  rw [elementsHold_cons, elementsHold_cons, events_tag, h.same.ref]
  exact (h.explains.tagged _).frame _

theorem explains_tail {es es' : List Element} {evs : List ((Source × Signal) × Bool)}
    (h : Explains (ElementsHold es) (ElementsHold es') evs) (e : Element) :
    Explains (ElementsHold (e :: es)) (ElementsHold (e :: es')) evs := by
  rw [elementsHold_cons, elementsHold_cons]
  exact h.frame_left _

theorem explains_forElements {f : Element → Element × List Output} {es : List Element}
    (hf : ∀ e ∈ es, e.Handles (f e)) :
    Explains (ElementsHold es) (ElementsHold (forElements f es).1)
      (Calls.events (forElements f es).2) := by
  induction es with
  | nil => exact Explains.refl _
  | cons e es ih =>
    have hes := ih fun e' he' => hf e' (List.mem_cons_of_mem e he')
    have hcalls : (forElements f (e :: es)).2 = e.tag (f e).2 ++ (forElements f es).2 := rfl
    rw [hcalls, Calls.events_append]
    exact (explains_head (hf e List.mem_cons_self) es).trans (explains_tail hes (f e).1)

/-- The same objects with the same configuration, one by one. -/
def SameControls (es es' : List Element) : Prop := List.Forall₂ Element.SameControl es es'

namespace SameControls

theorem refl (es : List Element) : SameControls es es :=
  List.forall₂_same.2 fun e _ => Element.SameControl.refl e

theorem trans {es es' es'' : List Element} (h : SameControls es es')
    (h' : SameControls es' es'') : SameControls es es'' := by
  induction h generalizing es'' with
  | nil => exact h'
  | cons he _ ih =>
    cases h' with
    | cons he' hes' => exact List.Forall₂.cons (he.trans he') (ih hes')

theorem map {f : Element → Element} {es : List Element}
    (hf : ∀ e ∈ es, Element.SameControl e (f e)) : SameControls es (es.map f) :=
  List.forall₂_map_right_iff.2 (List.forall₂_same.2 hf)

theorem refs {es es' : List Element} (h : SameControls es es') :
    es'.map Element.ref = es.map Element.ref := by
  induction h with
  | nil => rfl
  | cons he _ ih => rw [List.map_cons, List.map_cons, he.ref, ih]

theorem view {es es' : List Element} (h : SameControls es es')
    (hv : ∀ e ∈ es, e.view = true) : ∀ e ∈ es', e.view = true := by
  induction h with
  | nil => exact hv
  | cons he _ ih =>
    rw [List.forall_mem_cons] at hv
    exact List.forall_mem_cons.2 ⟨he.view.trans hv.1, ih hv.2⟩

/-- What the bindings of all elements have stays so. -/
theorem bindings {Q : List Binding → Prop} {es es' : List Element} (hsame : SameControls es es')
    (h : ∀ e ∈ es, Q e.bindings) : ∀ e ∈ es', Q e.bindings := by
  induction hsame with
  | nil => exact h
  | cons he _ ih =>
    rw [List.forall_mem_cons] at h
    refine List.forall_mem_cons.2 ⟨?_, ih h.2⟩
    rw [he.bindings]
    exact h.1

end SameControls

theorem forElements_atRest {f : Element → Element × List Output} {es : List Element}
    (hf : ∀ e ∈ es, (f e).1.AtRest) : ∀ e ∈ (forElements f es).1, e.AtRest := by
  intro e' he'
  obtain ⟨e, he, rfl⟩ := List.mem_map.1 he'
  exact hf e he

theorem touchMoveElements_spec (H : Host) (ps : List Pointer) {es : List Element}
    (h : ∀ e ∈ es, e.AtRest) :
    SameControls es (touchMoveElements H ps es).1 ∧
      (∀ e ∈ (touchMoveElements H ps es).1, e.AtRest) ∧
      Explains (ElementsHold es) (ElementsHold (touchMoveElements H ps es).1)
        (Calls.events (touchMoveElements H ps es).2) := by
  induction ps generalizing es with
  | nil => exact ⟨SameControls.refl es, h, Explains.refl _⟩
  | cons p ps ih =>
    have hr : ∀ e ∈ (forElements (fun e => e.handleTouchMove H p.id p.x p.y) es).1, e.AtRest :=
      forElements_atRest fun e he => Element.atRest_handleTouchMove H (h e he) _ _ _
    have hsame : SameControls es
        (forElements (fun e => e.handleTouchMove H p.id p.x p.y) es).1 :=
      SameControls.map fun e _ => (Element.handles_handleTouchMove H e _ _ _).same
    obtain ⟨hsame', hrest, hx⟩ := ih hr
    refine ⟨hsame.trans hsame', hrest, ?_⟩
    simp only [touchMoveElements, Calls.events_append]
    exact (explains_forElements fun e _ => Element.handles_handleTouchMove H e ..).trans hx

theorem touchDownElements_spec (H : Host) (pid : ℕ) (x y : ℚ) {es : List Element}
    {r : Bool × List Element × Calls} (hr : touchDownElements H pid x y es = some r)
    (h : ∀ e ∈ es, e.AtRest) :
    SameControls es r.2.1 ∧ (∀ e ∈ r.2.1, e.AtRest) ∧
      Explains (ElementsHold es) (ElementsHold r.2.1) (Calls.events r.2.2) := by
  induction es generalizing r with
  | nil =>
    obtain rfl := Option.some.inj hr
    exact ⟨SameControls.refl [], h, Explains.refl _⟩
  | cons e es ih =>
    have he := h e List.mem_cons_self
    have hes : ∀ e' ∈ es, e'.AtRest := fun e' he' => h e' (List.mem_cons_of_mem e he')
    have hdown := Element.handles_handleTouchDown H he pid x y
    have hrest := Element.atRest_handleTouchDown H he pid x y
    simp only [touchDownElements] at hr
    split_ifs at hr with hnull hcap
    · obtain rfl := Option.some.inj hr
      exact ⟨List.Forall₂.cons hdown.same (SameControls.refl es),
        List.forall_mem_cons.2 ⟨hrest, hes⟩, explains_head hdown es⟩
    · obtain ⟨s, hs, rfl⟩ := Option.map_eq_some_iff.1 hr
      obtain ⟨hsame', hrest', hx⟩ := ih hs hes
      refine ⟨List.Forall₂.cons hdown.same hsame', List.forall_mem_cons.2 ⟨hrest, hrest'⟩, ?_⟩
      -- an element that does not take the pointer has sent nothing
      have hout : (e.handleTouchDown H pid x y).2.2 = [] := by
        rcases Element.handleTouchDown_cases H e pid x y with ⟨e', he', -⟩ | ⟨-, he'⟩
        · rw [he']
        · rw [he'] at hcap
          exact absurd rfl hcap
      have hhead := explains_head hdown es
      rw [hout] at hhead
      exact hhead.trans (explains_tail hx _)

theorem forceReleaseElements_spec (H : Host) {es : List Element} {r : List Element × Calls}
    (hr : forceReleaseElements H es = some r) :
    SameControls es r.1 ∧ (∀ e ∈ r.1, ∀ k, ¬ e.Holds k) ∧
      ((∀ e ∈ es, ¬ e.RangeActive) →
        Explains (ElementsHold es) (ElementsHold r.1) (Calls.events r.2)) := by
  induction es generalizing r with
  | nil =>
    obtain rfl := Option.some.inj hr
    exact ⟨SameControls.refl [], by simp, fun _ => Explains.refl _⟩
  | cons e es ih =>
    simp only [forceReleaseElements] at hr
    split_ifs at hr with hnull
    obtain ⟨s, hs, rfl⟩ := Option.map_eq_some_iff.1 hr
    obtain ⟨hsame, hnot, hx⟩ := ih hs
    obtain ⟨hsame', -, hnot'⟩ := Element.released_forceRelease H e
    refine ⟨List.Forall₂.cons hsame' hsame, List.forall_mem_cons.2 ⟨hnot', hnot⟩, ?_⟩
    intro hact
    rw [List.forall_mem_cons] at hact
    rw [Calls.events_append]
    exact (explains_head (Element.handles_forceRelease H hact.1) es).trans
      (explains_tail (hx hact.2) _)

/-! ### The view's own part -/

namespace View

/-- What no callback changes. -/
structure Frame (v v' : View) : Prop where
  inputSender : v'.inputSender = v.inputSender
  sent : v'.sent = v.sent
  editMode : v'.editMode = v.editMode
  showTouchscreenControls : v'.showTouchscreenControls = v.showTouchscreenControls
  profile : v'.profile.isSome = v.profile.isSome

theorem Frame.trans {v v' v'' : View} (h : Frame v v') (h' : Frame v' v'') : Frame v v'' :=
  ⟨h'.inputSender.trans h.inputSender, h'.sent.trans h.sent, h'.editMode.trans h.editMode,
    h'.showTouchscreenControls.trans h.showTouchscreenControls, h'.profile.trans h.profile⟩

/-- `v'` differs from `v` in the bookkeeping of the free pointers only. -/
structure SameHeld (v v' : View) : Prop where
  profile : v'.profile = v.profile
  leftButtonHeld : v'.leftButtonHeld = v.leftButtonHeld
  rightButtonHeld : v'.rightButtonHeld = v.rightButtonHeld
  frame : Frame v v'

theorem Frame.refl (v : View) : Frame v v := ⟨rfl, rfl, rfl, rfl, rfl⟩

theorem SameHeld.refl (v : View) : SameHeld v v := ⟨rfl, rfl, rfl, Frame.refl v⟩

theorem SameHeld.trans {v v' v'' : View} (h : SameHeld v v') (h' : SameHeld v' v'') :
    SameHeld v v'' :=
  ⟨h'.profile.trans h.profile, h'.leftButtonHeld.trans h.leftButtonHeld,
    h'.rightButtonHeld.trans h.rightButtonHeld, h.frame.trans h'.frame⟩

theorem SameHeld.elements {v v' : View} (h : SameHeld v v') : v'.elements = v.elements := by
  rw [View.elements, View.elements, h.profile]

theorem SameHeld.holds {v v' : View} (h : SameHeld v v') : v'.Holds = v.Holds := by
  funext k
  rw [View.Holds, View.Holds, h.elements, h.leftButtonHeld, h.rightButtonHeld]

theorem sameHeld_freePointerDown (P : Platform) (ev : MotionEvent) (v : View) :
    SameHeld v (v.freePointerDown P ev) := by
  unfold freePointerDown scheduleHoldDetector
  dsimp only
  split_ifs <;> exact ⟨rfl, rfl, rfl, ⟨rfl, rfl, rfl, rfl, rfl⟩⟩

theorem sameHeld_removePointer (P : Platform) (ev : MotionEvent) (v : View) :
    SameHeld v (v.removePointer P ev) := by
  unfold removePointer
  dsimp only
  split_ifs <;> exact ⟨rfl, rfl, rfl, ⟨rfl, rfl, rfl, rfl, rfl⟩⟩

theorem sameHeld_moveCenter (P : Platform) (ev : MotionEvent) (v : View) :
    SameHeld v (v.moveCenter P ev).1 := by
  unfold moveCenter cancelHoldDetector
  dsimp only
  split_ifs <;> exact ⟨rfl, rfl, rfl, ⟨rfl, rfl, rfl, rfl, rfl⟩⟩

theorem sameHeld_scrollVertical (v : View) :
    SameHeld v v.scrollVertical.1 ∧ Calls.events v.scrollVertical.2 = [] := by
  unfold scrollVertical cancelHoldDetector
  split_ifs <;> exact ⟨⟨rfl, rfl, rfl, ⟨rfl, rfl, rfl, rfl, rfl⟩⟩, rfl⟩

theorem sameHeld_scrollHorizontal (v : View) :
    SameHeld v v.scrollHorizontal.1 ∧ Calls.events v.scrollHorizontal.2 = [] := by
  unfold scrollHorizontal cancelHoldDetector
  split_ifs <;> exact ⟨⟨rfl, rfl, rfl, ⟨rfl, rfl, rfl, rfl, rfl⟩⟩, rfl⟩

theorem sameHeld_moveTwoFingers (P : Platform) (ev : MotionEvent) (v : View) :
    SameHeld v (v.moveTwoFingers P ev).1 ∧ Calls.events (v.moveTwoFingers P ev).2 = [] := by
  have hc := sameHeld_moveCenter P ev v
  unfold moveTwoFingers
  dsimp only
  split_ifs with hn
  · exact ⟨hc.trans ⟨rfl, rfl, rfl, ⟨rfl, rfl, rfl, rfl, rfl⟩⟩, rfl⟩
  · have ha : SameHeld v ((v.moveCenter P ev).1.accumulateScroll (v.moveCenter P ev).2) :=
      hc.trans ⟨rfl, rfl, rfl, ⟨rfl, rfl, rfl, rfl, rfl⟩⟩
    obtain ⟨hv, hve⟩ := sameHeld_scrollVertical
      ((v.moveCenter P ev).1.accumulateScroll (v.moveCenter P ev).2)
    obtain ⟨hh, hhe⟩ := sameHeld_scrollHorizontal
      ((v.moveCenter P ev).1.accumulateScroll (v.moveCenter P ev).2).scrollVertical.1
    refine ⟨ha.trans (hv.trans hh), ?_⟩
    rw [Calls.events_append, hve, hhe, List.append_nil]

theorem sameHeld_moveOneFinger (P : Platform) (ev : MotionEvent) (v : View) :
    SameHeld v (v.moveOneFinger P ev).1 ∧ Calls.events (v.moveOneFinger P ev).2 = [] := by
  unfold moveOneFinger cancelHoldDetector
  cases (v.freePointers ev).find? fun p => (p.id : ℤ) = v.mousePointerId with
  | none => exact ⟨SameHeld.refl v, rfl⟩
  | some p =>
    dsimp only
    constructor
    · split_ifs <;> exact ⟨rfl, rfl, rfl, ⟨rfl, rfl, rfl, rfl, rfl⟩⟩
    · split_ifs <;> rfl

theorem sameHeld_countFreePointers (ev : MotionEvent) (v : View) :
    SameHeld v (v.countFreePointers ev) := by
  unfold countFreePointers
  dsimp only
  split_ifs <;> exact ⟨rfl, rfl, rfl, ⟨rfl, rfl, rfl, rfl, rfl⟩⟩

/-- The free pointers press nothing while they move. -/
theorem sameHeld_moveFreePointers (P : Platform) (ev : MotionEvent) (v : View) :
    SameHeld v (v.moveFreePointers P ev).1 ∧
      Calls.events (v.moveFreePointers P ev).2 = [] := by
  have hc := sameHeld_countFreePointers ev v
  unfold moveFreePointers
  dsimp only
  split_ifs
  · obtain ⟨h, he⟩ := sameHeld_moveTwoFingers P ev (v.countFreePointers ev)
    exact ⟨hc.trans h, he⟩
  · obtain ⟨h, he⟩ := sameHeld_moveOneFinger P ev (v.countFreePointers ev)
    exact ⟨hc.trans h, he⟩
  · exact ⟨hc, rfl⟩

/-! ### Callbacks of a gesture -/

/-- The elements are replaced by the objects `es`, and nothing else that is held changes. -/
structure Touched (v : View) (es : List Element) (v' : View) : Prop where
  elements : v'.elements = es
  leftButtonHeld : v'.leftButtonHeld = v.leftButtonHeld
  rightButtonHeld : v'.rightButtonHeld = v.rightButtonHeld
  frame : Frame v v'

theorem elements_withElements {v : View} (hp : v.profile.isSome = true) (es : List Element) :
    (v.withElements es).elements = es := by
  obtain ⟨p, hp⟩ := Option.isSome_iff_exists.1 hp
  simp [withElements, View.elements, hp]

theorem frame_withElements (v : View) (es : List Element) : Frame v (v.withElements es) :=
  ⟨rfl, rfl, rfl, rfl, by simp [withElements]⟩

theorem touched_withElements {v : View} (hp : v.profile.isSome = true) (es : List Element) :
    Touched v es (v.withElements es) :=
  ⟨elements_withElements hp es, rfl, rfl, frame_withElements v es⟩

theorem Touched.trans {v v' v'' : View} {es : List Element} (h : Touched v es v')
    (h' : SameHeld v' v'') : Touched v es v'' :=
  ⟨h'.elements.trans h.elements, h'.leftButtonHeld.trans h.leftButtonHeld,
    h'.rightButtonHeld.trans h.rightButtonHeld, h.frame.trans h'.frame⟩

/-- A step answers for what it sends, and leaves the elements at rest. -/
structure Accounts (v : View) (r : View × Calls) : Prop where
  same : SameControls v.elements r.1.elements
  atRest : ∀ e ∈ r.1.elements, e.AtRest
  explains : Explains v.Holds r.1.Holds (Calls.events r.2)
  frame : Frame v r.1

theorem Touched.accounts {v v' : View} {es : List Element} {cs : Calls} (h : Touched v es v')
    (hsame : SameControls v.elements es) (hrest : ∀ e ∈ es, e.AtRest)
    (hx : Explains (ElementsHold v.elements) (ElementsHold es) (Calls.events cs)) :
    Accounts v (v', cs) := by
  refine ⟨by rwa [h.elements], by rwa [h.elements], ?_, h.frame⟩
  have hv' : v'.Holds = fun k => ElementsHold es k ∨
      ButtonsHold v.leftButtonHeld v.rightButtonHeld k := by
    funext k
    rw [View.Holds, h.elements, h.leftButtonHeld, h.rightButtonHeld]
  rw [hv']
  exact hx.frame _

/-- What `ACTION_DOWN` makes of the elements, and what it sends. -/
theorem touched_touchDown {P : Platform} {ev : MotionEvent} {v : View} {r : View × Calls}
    (hp : v.profile.isSome = true) (hr : v.touchDown P ev = some r) :
    ∃ s, touchDownElements (v.host P) ev.actionPointer.id ev.actionPointer.x
        ev.actionPointer.y v.elements = some s ∧ Touched v s.2.1 r.1 ∧ r.2 = s.2.2 := by
  obtain ⟨s, hs, rfl⟩ := Option.map_eq_some_iff.1 hr
  refine ⟨s, hs, ?_, rfl⟩
  have hw := touched_withElements hp s.2.1
  show Touched v s.2.1 (if s.1 then _ else _)
  split_ifs with hcap
  · exact hw.trans ⟨rfl, rfl, rfl, ⟨rfl, rfl, rfl, rfl, rfl⟩⟩
  · refine hw.trans (SameHeld.trans ?_ (sameHeld_freePointerDown P ev _))
    exact ⟨rfl, rfl, rfl, ⟨rfl, rfl, rfl, rfl, rfl⟩⟩

theorem accounts_touchDown {P : Platform} {ev : MotionEvent} {v : View} {r : View × Calls}
    (hp : v.profile.isSome = true) (hr : v.touchDown P ev = some r)
    (hrest : ∀ e ∈ v.elements, e.AtRest) : Accounts v r := by
  obtain ⟨s, hs, ht, hcalls⟩ := touched_touchDown hp hr
  obtain ⟨hsame, hrest', hx⟩ := touchDownElements_spec _ _ _ _ hs hrest
  rw [← hcalls] at hx
  exact ht.accounts hsame hrest' hx

theorem touched_touchMove (P : Platform) (ev : MotionEvent) {v : View}
    (hp : v.profile.isSome = true) :
    Touched v (touchMoveElements (v.host P) ev.pointers v.elements).1 (v.touchMove P ev).1 :=
  (touched_withElements hp _).trans (sameHeld_moveFreePointers P ev _).1

theorem accounts_touchMove {P : Platform} {ev : MotionEvent} {v : View}
    (hp : v.profile.isSome = true) (hrest : ∀ e ∈ v.elements, e.AtRest) :
    Accounts v (v.touchMove P ev) := by
  obtain ⟨hcontrols, hrest', hx⟩ := touchMoveElements_spec (v.host P) ev.pointers hrest
  refine (touched_touchMove P ev hp).accounts hcontrols hrest' ?_
  rw [Calls.events_append, (sameHeld_moveFreePointers P ev _).2, List.append_nil]
  exact hx

theorem explains_releaseLeft (left right : Bool) :
    Explains (ButtonsHold left right) (ButtonsHold false right)
      (Calls.events (if left then [(.view, .onPointerButton 1 false)] else [])) := by
  cases left with
  | false => exact Explains.refl _
  | true =>
    show Explains _ _ ([(Source.view, Signal.button 1)].map fun k => (k, false))
    refine Explains.release fun k hk => ?_
    rcases hk with ⟨-, rfl⟩ | hk
    · exact Or.inl List.mem_cons_self
    · exact Or.inr (Or.inr hk)

theorem explains_releaseRight (left right : Bool) :
    Explains (ButtonsHold left right) (ButtonsHold left false)
      (Calls.events (if right then [(.view, .onPointerButton 3 false)] else [])) := by
  cases right with
  | false => exact Explains.refl _
  | true =>
    show Explains _ _ ([(Source.view, Signal.button 3)].map fun k => (k, false))
    refine Explains.release fun k hk => ?_
    rcases hk with hk | ⟨-, rfl⟩
    · exact Or.inr (Or.inl hk)
    · exact Or.inl List.mem_cons_self

/-- The view releases its buttons, and clicks. -/
theorem explains_allPointersReleased (P : Platform) (v : View) :
    Explains (ButtonsHold v.leftButtonHeld v.rightButtonHeld) (ButtonsHold false false)
      (Calls.events (v.allPointersReleased P).2) := by
  simp only [allPointersReleased, Calls.events_append]
  refine ((explains_releaseLeft _ _).trans (explains_releaseRight _ _)).trans ?_
  split_ifs
  · exact Explains.tap _ _
  · exact Explains.tap _ _
  · exact Explains.refl _
  · exact Explains.refl _

/-- The view when the elements have been told that a pointer is up, before the end of the
gesture is looked at. -/
def afterUp (P : Platform) (ev : MotionEvent) (v : View) : View :=
  (v.cancelHoldDetector.withElements
    (forElements (fun e => e.handleTouchUp (v.host P) ev.actionPointer.id) v.elements).1
  ).removePointer P ev

theorem touchUp_eq (P : Platform) (ev : MotionEvent) (v : View) :
    v.touchUp P ev =
      if ev.action = .up ∨ ev.action = .cancel ∨ ((v.afterUp P ev).freePointerCount = 0 ∧
          (v.afterUp P ev).pointerOnElement.entries.length = 0) then
        (((v.afterUp P ev).allPointersReleased P).1,
          (forElements (fun e => e.handleTouchUp (v.host P) ev.actionPointer.id) v.elements).2 ++
            ((v.afterUp P ev).allPointersReleased P).2)
      else
        (v.afterUp P ev,
          (forElements (fun e => e.handleTouchUp (v.host P) ev.actionPointer.id) v.elements).2) :=
  rfl

theorem touched_afterUp (P : Platform) (ev : MotionEvent) {v : View}
    (hp : v.profile.isSome = true) :
    Touched v (forElements (fun e => e.handleTouchUp (v.host P) ev.actionPointer.id)
      v.elements).1 (v.afterUp P ev) := by
  have hcancel : Frame v v.cancelHoldDetector := ⟨rfl, rfl, rfl, rfl, rfl⟩
  have hc (es : List Element) : Touched v es (v.cancelHoldDetector.withElements es) :=
    ⟨elements_withElements hp es, rfl, rfl, hcancel.trans (frame_withElements _ es)⟩
  exact (hc _).trans (sameHeld_removePointer P ev _)

theorem elements_touchUp (P : Platform) (ev : MotionEvent) {v : View}
    (hp : v.profile.isSome = true) :
    (v.touchUp P ev).1.elements =
      (forElements (fun e => e.handleTouchUp (v.host P) ev.actionPointer.id) v.elements).1 := by
  rw [touchUp_eq]
  split_ifs
  · exact (touched_afterUp P ev hp).elements
  · exact (touched_afterUp P ev hp).elements

theorem accounts_touchUp {P : Platform} {ev : MotionEvent} {v : View}
    (hp : v.profile.isSome = true) (hrest : ∀ e ∈ v.elements, e.AtRest) :
    Accounts v (v.touchUp P ev) := by
  have hacc := (touched_afterUp P ev hp).accounts
    (SameControls.map fun e _ => (Element.handles_handleTouchUp (v.host P) e _).same)
    (forElements_atRest fun e he => Element.atRest_handleTouchUp (v.host P) (hrest e he) _)
    (explains_forElements fun e _ => Element.handles_handleTouchUp (v.host P) e _)
  rw [touchUp_eq]
  split_ifs with hall
  · refine ⟨hacc.same, hacc.atRest, ?_, hacc.frame.trans ⟨rfl, rfl, rfl, rfl, rfl⟩⟩
    rw [Calls.events_append]
    refine hacc.explains.trans ?_
    exact (explains_allPointersReleased P (v.afterUp P ev)).frame_left _
  · exact hacc

theorem accounts_runHoldDetector (P : Platform) {v : View}
    (hrest : ∀ e ∈ v.elements, e.AtRest) : Accounts v (v.runHoldDetector P) := by
  unfold runHoldDetector
  dsimp only
  split_ifs with hposted hon hright hleft
  · refine ⟨SameControls.refl _, hrest, ?_, ⟨rfl, rfl, rfl, rfl, rfl⟩⟩
    refine Explains.frame_left (g := ElementsHold v.elements) ?_
    show Explains _ _ ([(Source.view, Signal.button 3)].map fun k => (k, true))
    refine Explains.press (fun k hk => ?_) (fun k hk => ?_)
    · exact Or.inr ⟨rfl, List.mem_singleton.1 hk⟩
    · exact hk.imp_right fun h => ⟨rfl, h.2⟩
  · refine ⟨SameControls.refl _, hrest, ?_, ⟨rfl, rfl, rfl, rfl, rfl⟩⟩
    refine Explains.frame_left (g := ElementsHold v.elements) ?_
    show Explains _ _ ([(Source.view, Signal.button 1)].map fun k => (k, true))
    refine Explains.press (fun k hk => ?_) (fun k hk => ?_)
    · exact Or.inl ⟨rfl, List.mem_singleton.1 hk⟩
    · exact hk.imp_left fun h => ⟨rfl, h.2⟩
  · exact ⟨SameControls.refl _, hrest, Explains.refl _, ⟨rfl, rfl, rfl, rfl, rfl⟩⟩
  · exact ⟨SameControls.refl _, hrest, Explains.refl _, ⟨rfl, rfl, rfl, rfl, rfl⟩⟩
  · exact ⟨SameControls.refl _, hrest, Explains.refl _, ⟨rfl, rfl, rfl, rfl, rfl⟩⟩

/-! ### Steps that send nothing -/

theorem elements_withElements_map (f : Element → Element) (v : View) :
    (v.withElements (v.elements.map f)).elements = v.elements.map f := by
  cases hp : v.profile with
  | none => simp [View.elements, withElements, hp]
  | some p => exact elements_withElements (by simp [hp]) _

/-- Nothing has changed that `Holds` depends on. -/
structure Quiet (v v' : View) : Prop where
  same : SameControls v.elements v'.elements
  holds : v'.Holds = v.Holds
  atRest : (∀ e ∈ v.elements, e.AtRest) → ∀ e ∈ v'.elements, e.AtRest
  frame : Frame v v'

theorem Quiet.trans {v v' v'' : View} (h : Quiet v v') (h' : Quiet v' v'') : Quiet v v'' :=
  ⟨h.same.trans h'.same, h'.holds.trans h.holds, fun hr => h'.atRest (h.atRest hr),
    h.frame.trans h'.frame⟩

theorem Quiet.accounts {v v' : View} (h : Quiet v v') (hrest : ∀ e ∈ v.elements, e.AtRest) :
    Accounts v (v', []) := by
  refine ⟨h.same, h.atRest hrest, ?_, h.frame⟩
  rw [h.holds]
  exact Explains.refl _

theorem SameHeld.quiet {v v' : View} (h : SameHeld v v') : Quiet v v' :=
  ⟨by rw [h.elements]; exact SameControls.refl _, h.holds, by rw [h.elements]; exact id,
    h.frame⟩

/-- Fields that `Holds` does not read have changed. -/
theorem quiet_of_eq {v v' : View} (he : v'.elements = v.elements)
    (hl : v'.leftButtonHeld = v.leftButtonHeld) (hr : v'.rightButtonHeld = v.rightButtonHeld)
    (hf : Frame v v') : Quiet v v' := by
  refine ⟨by rw [he]; exact SameControls.refl _, ?_, by rw [he]; exact id, hf⟩
  funext k
  rw [View.Holds, View.Holds, he, hl, hr]

/-- The elements are replaced by others that hold the same. -/
theorem quiet_of_elements {v v' : View} (hsame : SameControls v.elements v'.elements)
    (hx : ElementsHold v'.elements = ElementsHold v.elements)
    (hr : (∀ e ∈ v.elements, e.AtRest) → ∀ e ∈ v'.elements, e.AtRest)
    (hl : v'.leftButtonHeld = v.leftButtonHeld) (hr' : v'.rightButtonHeld = v.rightButtonHeld)
    (hf : Frame v v') : Quiet v v' := by
  refine ⟨hsame, ?_, hr, hf⟩
  funext k
  rw [View.Holds, View.Holds, hx, hl, hr']

/-- Each element is replaced by one that holds the same. -/
theorem quiet_map {f : Element → Element} (hf : ∀ e, Element.SameControl e (f e) ∧
    (f e).Holds = e.Holds ∧ (e.AtRest → (f e).AtRest)) (v : View) :
    Quiet v (v.withElements (v.elements.map f)) := by
  refine quiet_of_elements ?_ ?_ ?_ rfl rfl (frame_withElements v _)
  · rw [elements_withElements_map]
    exact SameControls.map fun e _ => (hf e).1
  · rw [elements_withElements_map]
    funext k
    simp only [ElementsHold, List.mem_map, eq_iff_iff]
    constructor
    · rintro ⟨-, ⟨e, he, rfl⟩, href, hk⟩
      exact ⟨e, he, (hf e).1.ref ▸ href, (hf e).2.1 ▸ hk⟩
    · rintro ⟨e, he, href, hk⟩
      exact ⟨f e, ⟨e, he, rfl⟩, (hf e).1.ref.symm ▸ href, (hf e).2.1.symm ▸ hk⟩
  · rw [elements_withElements_map]
    intro hr e' he'
    obtain ⟨e, he, rfl⟩ := List.mem_map.1 he'
    exact (hf e).2.2 (hr e he)

theorem quiet_runFling (ref : ℕ) (v : View) : Quiet v (v.runFling ref) := by
  refine quiet_map (fun e => ?_) v
  split_ifs with he
  · exact ⟨⟨rfl, rfl, rfl, rfl, rfl, rfl⟩, Element.holds_runFling e, Element.atRest_runFling⟩
  · exact ⟨Element.SameControl.refl e, rfl, id⟩

theorem quiet_deselectAllElements (v : View) : Quiet v v.deselectAllElements := by
  have h : Quiet v (v.withElements (v.elements.map (Element.setSelected false))) :=
    quiet_map (f := Element.setSelected false) (fun _ => ⟨⟨rfl, rfl, rfl, rfl, rfl, rfl⟩, rfl, id⟩) v
  exact h.trans (quiet_of_eq rfl rfl rfl ⟨rfl, rfl, rfl, rfl, rfl⟩)

theorem quiet_markSelected (ref : ℕ) (v : View) : Quiet v (v.markSelected ref) := by
  refine quiet_map (fun e => ?_) v
  split_ifs <;> exact ⟨⟨rfl, rfl, rfl, rfl, rfl, rfl⟩, rfl, id⟩

theorem quiet_selectElement (ref : Option ℕ) (v : View) : Quiet v (v.selectElement ref) := by
  cases ref with
  | none => exact quiet_deselectAllElements v
  | some ref =>
    have h : Quiet v (v.deselectAllElements.withSelection (some ref)) :=
      (quiet_deselectAllElements v).trans (quiet_of_eq rfl rfl rfl ⟨rfl, rfl, rfl, rfl, rfl⟩)
    exact h.trans (quiet_markSelected ref _)

theorem quiet_pickUp (p : Pointer) (hit : Option Element) (v : View) :
    Quiet v (v.pickUp p hit) := by
  cases hit <;> exact (quiet_of_eq rfl rfl rfl ⟨rfl, rfl, rfl, rfl, rfl⟩)

theorem quiet_intersect {ss : ℤ} {x y : ℚ} {es : List Element}
    {r : Option Element × List Element} (hr : intersectElement ss x y es = some r) :
    SameControls es r.2 ∧ ElementsHold r.2 = ElementsHold es ∧
      ((∀ e ∈ es, e.AtRest) → ∀ e ∈ r.2, e.AtRest) := by
  induction es generalizing r with
  | nil =>
    obtain rfl := Option.some.inj hr
    exact ⟨SameControls.refl [], rfl, id⟩
  | cons e es ih =>
    simp only [intersectElement] at hr
    split_ifs at hr with hnull hin
    · obtain rfl := Option.some.inj hr
      rw [elementsHold_cons, elementsHold_cons]
      refine ⟨List.Forall₂.cons ⟨rfl, rfl, rfl, rfl, rfl, rfl⟩ (SameControls.refl es), rfl,
        fun h => ?_⟩
      rw [List.forall_mem_cons] at h
      exact List.forall_mem_cons.2 ⟨h.1, h.2⟩
    · obtain ⟨s, hs, rfl⟩ := Option.map_eq_some_iff.1 hr
      obtain ⟨hsame, hx, hrest⟩ := ih hs
      rw [elementsHold_cons, elementsHold_cons, hx]
      refine ⟨List.Forall₂.cons ⟨rfl, rfl, rfl, rfl, rfl, rfl⟩ hsame, rfl, fun h => ?_⟩
      rw [List.forall_mem_cons] at h
      exact List.forall_mem_cons.2 ⟨h.1, hrest h.2⟩

theorem quiet_save (v : View) : Quiet v v.save := by
  unfold save
  split
  · exact (quiet_of_eq rfl rfl rfl ⟨rfl, rfl, rfl, rfl, rfl⟩)
  · exact (quiet_of_eq rfl rfl rfl ⟨rfl, rfl, rfl, rfl, rfl⟩)

theorem quiet_touchEdit {ev : MotionEvent} {v v' : View} (hv' : v.touchEdit ev = some v') :
    Quiet v v' := by
  unfold touchEdit at hv'
  cases ha : ev.action with
  | down =>
    simp only [ha] at hv'
    obtain ⟨r, hr, rfl⟩ := Option.map_eq_some_iff.1 hv'
    obtain ⟨hsame, hx, hrest⟩ := quiet_intersect hr
    -- looking for the element under the finger only computes boxes
    have hw : Quiet v (v.withElements r.2) := by
      cases hp : v.profile with
      | none =>
        have he : (v.withElements r.2).elements = v.elements := by
          simp [View.elements, withElements, hp]
        exact quiet_of_eq he rfl rfl (frame_withElements v _)
      | some p =>
        have he := elements_withElements (v := v) (by simp [hp]) r.2
        exact quiet_of_elements (by rwa [he]) (by rw [he, hx]) (by rw [he]; exact hrest)
          rfl rfl (frame_withElements v _)
    exact (hw.trans (quiet_pickUp _ _ _)).trans (quiet_selectElement _ _)
  | move =>
    simp only [ha, Option.some.injEq] at hv'
    subst hv'
    refine quiet_map (fun e => ?_) v
    split_ifs
    · simp only [Element.setX, Element.setY]
      split_ifs <;> exact ⟨⟨rfl, rfl, rfl, rfl, rfl, rfl⟩, rfl, id⟩
    · exact ⟨Element.SameControl.refl e, rfl, id⟩
  | up =>
    simp only [ha, Option.some.injEq] at hv'
    subst hv'
    have hs : Quiet v (if v.selectedElement.isSome then v.save else v) := by
      split_ifs
      · exact quiet_save v
      · exact (quiet_of_eq rfl rfl rfl ⟨rfl, rfl, rfl, rfl, rfl⟩)
    refine hs.trans ?_
    split_ifs <;> exact (quiet_of_eq rfl rfl rfl ⟨rfl, rfl, rfl, rfl, rfl⟩)
  | pointerDown | pointerUp | cancel =>
    simp only [ha, Option.some.injEq] at hv'
    subst hv'
    exact (quiet_of_eq rfl rfl rfl ⟨rfl, rfl, rfl, rfl, rfl⟩)

theorem accounts_onTouchEvent {P : Platform} {ev : MotionEvent} {v : View} {r : View × Calls}
    (hr : v.onTouchEvent P ev = some r) (hrest : ∀ e ∈ v.elements, e.AtRest) :
    Accounts v r := by
  unfold onTouchEvent at hr
  split_ifs at hr with hedit hplay
  · obtain ⟨v', hv', rfl⟩ := Option.map_eq_some_iff.1 hr
    exact (quiet_touchEdit hv').accounts hrest
  · obtain ⟨-, hp, -⟩ := hplay
    cases ha : ev.action with
    | down | pointerDown =>
      simp only [ha] at hr
      exact accounts_touchDown hp hr hrest
    | move =>
      simp only [ha, Option.some.injEq] at hr
      subst hr
      exact accounts_touchMove hp hrest
    | up | pointerUp | cancel =>
      simp only [ha, Option.some.injEq] at hr
      subst hr
      exact accounts_touchUp hp hrest
  · obtain rfl := Option.some.inj hr
    exact Quiet.accounts (quiet_of_eq rfl rfl rfl ⟨rfl, rfl, rfl, rfl, rfl⟩) hrest

/-- **Every callback answers for what it sends.** -/
theorem accounts_run {c : Callback} {v : View} {r : View × Calls} (hr : c.run v = some r)
    (hrest : ∀ e ∈ v.elements, e.AtRest) : Accounts v r := by
  cases c with
  | touch P ev => exact accounts_onTouchEvent hr hrest
  | holdDetector P =>
    obtain rfl := Option.some.inj hr
    exact accounts_runHoldDetector P hrest
  | fling ref =>
    obtain rfl := Option.some.inj hr
    exact (quiet_runFling ref v).accounts hrest

/-! ### The invariant -/

/-- Whatever is down is answered for. -/
structure Kept (v : View) : Prop where
  atRest : ∀ e ∈ v.elements, e.AtRest
  silent : v.inputSender = false → v.sent = []
  covered : ∀ k, Down (Calls.events v.sent) k → v.Holds k

theorem Kept.deliver {v : View} {r : View × Calls} (h : Kept v) (ha : Accounts v r) :
    Kept (v.deliver r) := by
  refine ⟨ha.atRest, fun hi => ?_, ?_⟩
  · have hi' : v.inputSender = false := ha.frame.inputSender ▸ hi
    show v.sent ++ (if v.inputSender then r.2 else []) = []
    rw [h.silent hi', hi']
    rfl
  · show ∀ k, Down (Calls.events (v.sent ++ if v.inputSender then r.2 else [])) k → r.1.Holds k
    cases hi : v.inputSender with
    | false =>
      intro k hk
      rw [h.silent hi] at hk
      cases hk
    | true =>
      rw [Calls.events_append]
      exact ha.explains.covers h.covered

theorem Kept.step {v v' : View} {c : Callback} (h : Kept v) (hs : v.step c = some v') :
    Kept v' := by
  obtain ⟨r, hr, rfl⟩ := Option.map_eq_some_iff.1 hs
  exact h.deliver (accounts_run hr h.atRest)

theorem sameControls_step {v v' : View} {c : Callback} (h : Kept v) (hs : v.step c = some v') :
    SameControls v.elements v'.elements := by
  obtain ⟨r, hr, rfl⟩ := Option.map_eq_some_iff.1 hs
  exact (accounts_run hr h.atRest).same

end View

/-! ### The beginning of a run -/

/-- No pointer and no active direction or range key; a toggle may be on. -/
structure Element.Fresh (e : Element) : Prop where
  currentPointerId : e.currentPointerId = -1
  states : ∀ i, e.states i = false
  scroller : ¬ e.RangeActive

theorem Element.Fresh.not_holds {e : Element} (h : e.Fresh) (hn : ¬ e.IsToggle) (k : Signal) :
    ¬ e.Holds k := by
  intro hk
  by_cases hb : e.type = .button
  · have htog : ¬ e.isToggleSwitch = true := fun h' => hn ⟨hb, h'⟩
    exact ((Element.holds_plain hb htog k).1 hk).1 h.currentPointerId
  · by_cases hr : e.type = .rangeButton
    · obtain ⟨s, hs, hk⟩ := (Element.holds_range hr k).1 hk
      exact h.scroller ⟨hr, s, hs, hk.1⟩
    · rw [Element.holds_pad hb hr] at hk
      obtain ⟨i, hi, -⟩ := hk
      exact Bool.false_ne_true ((h.states i).symm.trans hi)

namespace View

/-- A view with elements of its own, distinct objects, before the first touch. -/
structure Start (v : View) : Prop where
  fresh : ∀ e ∈ v.elements, e.Fresh
  attached : ∀ e ∈ v.elements, e.view = true
  distinct : (v.elements.map Element.ref).Nodup
  sent : v.sent = []

theorem Start.kept {v : View} (h : Start v) : Kept v := by
  refine ⟨fun e he _ hn => (h.fresh e he).not_holds hn, fun _ => h.sent, fun k hk => ?_⟩
  rw [h.sent] at hk
  cases hk

end View

end TermuxX11.VirtualKeys
