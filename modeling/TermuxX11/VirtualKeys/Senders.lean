import TermuxX11.VirtualKeys.Gesture

/-!
# Who sends what

The input sender hears the elements and the view itself.  `Calls.own` are the calls that the view
makes in its own name.  `MaySend` says what an element with given bindings can send: keys, and of
the mouse only what one of its bindings stands for.
-/

namespace TermuxX11.VirtualKeys

open Ledger Run

/-- The calls that the view makes in its own name. -/
def Calls.own (cs : Calls) : Calls := cs.filter fun c => c.1 = .view

@[simp] theorem Calls.own_nil : Calls.own [] = [] := rfl

@[simp] theorem Calls.own_append (cs cs' : Calls) :
    Calls.own (cs ++ cs') = Calls.own cs ++ Calls.own cs' :=
  List.filter_append _ _

theorem own_tag (e : Element) (os : List Output) : Calls.own (e.tag os) = [] := by
  rw [Calls.own, List.filter_eq_nil_iff]
  intro c hc
  obtain ⟨o, -, rfl⟩ := List.mem_map.1 hc
  simp

theorem own_forElements (f : Element → Element × List Output) (es : List Element) :
    Calls.own (forElements f es).2 = [] := by
  induction es with
  | nil => rfl
  | cons e es ih =>
    show Calls.own (e.tag (f e).2 ++ (forElements f es).2) = []
    rw [Calls.own_append, own_tag, ih, List.nil_append]

theorem own_touchMoveElements (H : Host) (ps : List Pointer) (es : List Element) :
    Calls.own (touchMoveElements H ps es).2 = [] := by
  induction ps generalizing es with
  | nil => rfl
  | cons p ps ih =>
    simp only [touchMoveElements]
    rw [Calls.own_append, own_forElements, ih, List.nil_append]

theorem own_touchDownElements {H : Host} {pid : ℕ} {x y : ℚ} {es : List Element}
    {r : Bool × List Element × Calls} (hr : touchDownElements H pid x y es = some r) :
    Calls.own r.2.2 = [] := by
  induction es generalizing r with
  | nil =>
    obtain rfl := Option.some.inj hr
    rfl
  | cons e es ih =>
    simp only [touchDownElements] at hr
    split_ifs at hr with hnull hcap
    · obtain rfl := Option.some.inj hr
      exact own_tag _ _
    · obtain ⟨s, hs, rfl⟩ := Option.map_eq_some_iff.1 hr
      show Calls.own s.2.2 = []
      exact ih hs

/-! ### What an element can send -/

/-- What an element with these bindings can send. -/
def MaySend (bs : List Binding) : Output → Prop
  | .onKeyEvent _ _ => True
  | .onPointerButton n _ => ∃ b ∈ bs, b.signal = some (.button n)
  | .onPointerMove _ _ => ∃ b ∈ bs, b.isMouse = true
  | .onScroll _ _ => ∃ b ∈ bs, b.isMouse = true

/-- All of these calls are among what an element with these bindings can send. -/
def AllMaySend (bs : List Binding) (os : List Output) : Prop := ∀ o ∈ os, MaySend bs o

section

variable {bs : List Binding} {os os' : List Output}

theorem allMaySend_nil (bs : List Binding) : AllMaySend bs [] := by
  intro o ho
  cases ho

theorem AllMaySend.append (h : AllMaySend bs os) (h' : AllMaySend bs os') :
    AllMaySend bs (os ++ os') := by
  intro o ho
  rcases List.mem_append.1 ho with ho | ho
  · exact h o ho
  · exact h' o ho

theorem allMaySend_flatMap {α : Type} {as : List α} {f : α → List Output}
    (h : ∀ a ∈ as, AllMaySend bs (f a)) : AllMaySend bs (as.flatMap f) := by
  intro o ho
  obtain ⟨a, ha, ho⟩ := List.mem_flatMap.1 ho
  exact h a ha o ho

end

theorem allMaySend_handleInputEvent (H : Host) {bs : List Binding} {b : Binding}
    (hb : b.isMouse = true → b ∈ bs) (d : Bool) : AllMaySend bs (H.handleInputEvent b d) := by
  cases hm : b.isMouse with
  | false =>
    have hk : b.isKeyboard = true := by simp [Binding.isKeyboard, hm]
    have hkey : H.handleInputEvent b d = [.onKeyEvent b d] := by
      simp [Host.handleInputEvent, hm, hk]
    intro o ho
    rw [hkey] at ho
    rw [List.mem_singleton.1 ho]
    trivial
  | true =>
    have hmem := hb hm
    intro o ho
    cases o with
    | onKeyEvent _ _ => trivial
    | onPointerMove _ _ => exact ⟨b, hmem, hm⟩
    | onScroll _ _ => exact ⟨b, hmem, hm⟩
    | onPointerButton n d' =>
      refine ⟨b, hmem, ?_⟩
      have hevent : (Signal.button n, d') ∈ events (H.handleInputEvent b d) :=
        List.mem_filterMap.2 ⟨_, ho, rfl⟩
      rw [events_handleInputEvent] at hevent
      obtain ⟨k, hk, heq⟩ := List.mem_map.1 hevent
      obtain ⟨rfl, -⟩ := Prod.mk.inj heq
      exact Option.mem_toList.1 hk

/-- The binding at an index beyond the end is `NONE`, a key. -/
theorem bindingAt_mem {bs : List Binding} {i : ℕ} (h : (bindingAt bs i).isMouse = true) :
    bindingAt bs i ∈ bs := by
  rw [bindingAt, List.getD_eq_getElem?_getD] at h ⊢
  cases hi : bs[i]? with
  | none =>
    rw [hi] at h
    cases h
  | some b => exact List.mem_of_getElem? hi

namespace RangeScroller

variable (H : Host) (e : Element) (s : RangeScroller) (bs : List Binding)

theorem isMouse_getBindingForRangeIndex (r : Range) (index : ℤ) :
    (getBindingForRangeIndex r index).isMouse = false := by
  unfold getBindingForRangeIndex
  split <;> rfl

theorem allMaySend_sendIndex (r : Range) (index : ℤ) (d : Bool) :
    AllMaySend bs (sendIndex H r index d) := by
  rw [sendIndex]
  split_ifs
  · exact allMaySend_nil bs
  · refine allMaySend_handleInputEvent H (fun h => ?_) d
    rw [isMouse_getBindingForRangeIndex] at h
    cases h

theorem allMaySend_updateActivatedIndex :
    AllMaySend bs (s.updateActivatedIndex H e).2 := by
  rw [updateActivatedIndex]
  split_ifs
  · exact allMaySend_nil bs
  · exact (allMaySend_sendIndex H bs _ _ _).append (allMaySend_sendIndex H bs _ _ _)
  · exact (allMaySend_nil bs).append (allMaySend_sendIndex H bs _ _ _)

theorem allMaySend_handleTouchMove (x y : ℚ) :
    AllMaySend bs (s.handleTouchMove H e x y).2 := by
  rw [handleTouchMove]
  split_ifs
  · exact allMaySend_updateActivatedIndex H e _ bs
  · exact allMaySend_nil bs

theorem allMaySend_handleTouchUp : AllMaySend bs (s.handleTouchUp H e).2 := by
  simp only [handleTouchUp]
  split_ifs
  · exact allMaySend_sendIndex H bs _ _ _
  · exact allMaySend_nil bs

end RangeScroller

namespace Element

variable (H : Host)

theorem allMaySend_sendAllBindings (e : Element) (d : Bool) :
    AllMaySend e.bindings (e.sendAllBindings H d) := by
  refine allMaySend_flatMap fun b hb => ?_
  split_ifs
  · exact allMaySend_nil _
  · exact allMaySend_handleInputEvent H (fun _ => hb) d

theorem allMaySend_sendPad (bs : List Binding) (newStates : Fin 4 → Bool) (is : List (Fin 4))
    (states : Fin 4 → Bool) : AllMaySend bs (sendPad H bs newStates is states).2 := by
  induction is generalizing states with
  | nil => exact allMaySend_nil bs
  | cons i is ih => exact (allMaySend_handleInputEvent H bindingAt_mem _).append (ih _)

theorem allMaySend_releaseStates (bs : List Binding) (states : Fin 4 → Bool) :
    AllMaySend bs (releaseStates H bs states) := by
  refine allMaySend_flatMap fun i _ => ?_
  split_ifs
  · exact allMaySend_handleInputEvent H bindingAt_mem false
  · exact allMaySend_nil bs

/-- A trackpad collects a motion only for a binding that moves the mouse. -/
theorem allMaySend_sendTrackpad (bs : List Binding) (newStates : Fin 4 → Bool) (dx dy : ℚ)
    (is : List (Fin 4)) (c : ℤ × ℤ) (states : Fin 4 → Bool) :
    AllMaySend bs (sendTrackpad H bs newStates dx dy is c states).2.2 ∧
      ((sendTrackpad H bs newStates dx dy is c states).2.1 = c ∨
        ∃ b ∈ bs, b.isMouse = true) := by
  induction is generalizing c states with
  | nil => exact ⟨allMaySend_nil bs, Or.inl rfl⟩
  | cons i is ih =>
    simp only [sendTrackpad]
    split_ifs with hfar hx hy
    · refine ⟨(ih _ _).1, Or.inr ?_⟩
      have hm : (bindingAt bs i).isMouse = true := by
        rcases hx with h | h <;> rw [h] <;> rfl
      exact ⟨_, bindingAt_mem hm, hm⟩
    · refine ⟨(ih _ _).1, Or.inr ?_⟩
      have hm : (bindingAt bs i).isMouse = true := by
        rcases hy with h | h <;> rw [h] <;> rfl
      exact ⟨_, bindingAt_mem hm, hm⟩
    · exact ⟨(allMaySend_handleInputEvent H bindingAt_mem _).append (ih _ _).1, (ih _ _).2⟩
    · exact ih _ _

theorem allMaySend_moveTrackpad (e : Element) (x y : ℚ) :
    AllMaySend e.bindings (e.moveTrackpad H x y).2 := by
  obtain ⟨hsent, hmoved⟩ := allMaySend_sendTrackpad H e.bindings
    (trackpadStates (x - (e.currentPosition.getD (0, 0)).1) (y - (e.currentPosition.getD (0, 0)).2))
    (x - (e.currentPosition.getD (0, 0)).1) (y - (e.currentPosition.getD (0, 0)).2) [0, 1, 2, 3]
    (0, 0) e.states
  refine hsent.append ?_
  split_ifs with hc
  · rcases hmoved with h | h
    · rw [h] at hc
      simp at hc
    · intro o ho
      rw [List.mem_singleton.1 ho]
      exact h
  · exact allMaySend_nil _

theorem allMaySend_handleTouchMove (e : Element) (pid : ℕ) (x y : ℚ) :
    AllMaySend e.bindings (e.handleTouchMove H pid x y).2 := by
  unfold handleTouchMove
  split_ifs
  · cases e.type with
    | button => exact allMaySend_nil _
    | trackpad => exact allMaySend_moveTrackpad H (e.cacheBoundingBox H.snappingSize) x y
    | stick => exact allMaySend_sendPad H e.bindings _ _ _
    | dPad => exact allMaySend_sendPad H e.bindings _ _ _
    | rangeButton =>
      cases e.scroller with
      | none => exact allMaySend_nil _
      | some s => exact RangeScroller.allMaySend_handleTouchMove H e s _ x y
  · exact allMaySend_nil _

theorem allMaySend_capture (e : Element) (pid : ℕ) (x y : ℚ) :
    AllMaySend e.bindings (e.capture H pid x y).2 := by
  unfold capture
  cases e.type with
  | button =>
    dsimp only
    split_ifs
    · exact allMaySend_sendAllBindings H e false
    · exact allMaySend_sendAllBindings H e true
    · exact allMaySend_sendAllBindings H e true
    · exact allMaySend_sendAllBindings H e true
  | rangeButton => exact RangeScroller.allMaySend_updateActivatedIndex H e _ _
  | trackpad =>
    exact allMaySend_handleTouchMove H
      { e.withPointer pid with currentPosition := some (x, y) } pid x y
  | stick => exact allMaySend_handleTouchMove H (e.withPointer pid) pid x y
  | dPad => exact allMaySend_handleTouchMove H (e.withPointer pid) pid x y

theorem allMaySend_handleTouchDown (e : Element) (pid : ℕ) (x y : ℚ) :
    AllMaySend e.bindings (e.handleTouchDown H pid x y).2.2 := by
  unfold handleTouchDown
  split_ifs
  · exact allMaySend_capture H (e.cacheBoundingBox H.snappingSize) pid x y
  · exact allMaySend_nil _
  · exact allMaySend_nil _

theorem allMaySend_handleTouchUp (e : Element) (pid : ℕ) :
    AllMaySend e.bindings (e.handleTouchUp H pid).2 := by
  unfold handleTouchUp
  by_cases hp : (pid : ℤ) = e.currentPointerId
  · rw [if_pos hp]
    cases e.type with
    | button =>
      dsimp only
      split_ifs
      · exact allMaySend_nil _
      · exact allMaySend_sendAllBindings H e false
    | rangeButton =>
      cases e.scroller with
      | none => exact allMaySend_releaseStates H _ _
      | some s =>
        exact (allMaySend_releaseStates H _ _).append
          (RangeScroller.allMaySend_handleTouchUp H e s _)
    | dPad => exact allMaySend_releaseStates H _ _
    | stick => exact allMaySend_releaseStates H _ _
    | trackpad => exact allMaySend_releaseStates H _ _
  · rw [if_neg hp]
    exact allMaySend_nil _

end Element

/-! ### One callback -/

/-- Each call is the view's own or one of those in `Q`. -/
def OwnOr (Q : Output → Prop) (cs : Calls) : Prop := ∀ c ∈ cs, c.1 = .view ∨ Q c.2

section

variable {Q : Output → Prop} {cs cs' : Calls} {es : List Element}

theorem ownOr_nil : OwnOr Q [] := by
  intro c hc
  cases hc

theorem OwnOr.append (h : OwnOr Q cs) (h' : OwnOr Q cs') : OwnOr Q (cs ++ cs') := by
  intro c hc
  rcases List.mem_append.1 hc with hc | hc
  · exact h c hc
  · exact h' c hc

/-- A record that is taken call by call, and that does not see the calls in `Q`, is the same of
the view's own calls. -/
theorem OwnOr.eq_own {α : Type} (h : OwnOr Q cs) {F : Calls → List α}
    (hF : ∀ cs cs', F (cs ++ cs') = F cs ++ F cs') (hnone : ∀ s o, Q o → F [(s, o)] = []) :
    F cs = F (Calls.own cs) := by
  induction cs with
  | nil => rfl
  | cons c cs ih =>
    have ih := ih fun c' hc' => h c' (List.mem_cons_of_mem c hc')
    have hcons : ∀ cs, F (c :: cs) = F [c] ++ F cs := fun cs => hF [c] cs
    by_cases hown : c.1 = .view
    · have hfilter : Calls.own (c :: cs) = c :: Calls.own cs :=
        List.filter_cons_of_pos (by simp [hown])
      rw [hfilter, hcons cs, hcons (Calls.own cs), ih]
    · have hfilter : Calls.own (c :: cs) = Calls.own cs := List.filter_cons_of_neg (by simp [hown])
      rw [hfilter, hcons, hnone c.1 c.2 ((h c List.mem_cons_self).resolve_left hown), ih,
        List.nil_append]

/-- Calls that are all the view's own. -/
theorem own_eq_self (h : OwnOr (fun _ => False) cs) : Calls.own cs = cs := by
  refine List.filter_eq_self.2 fun c hc => ?_
  exact decide_eq_true ((h c hc).resolve_right id)

theorem ownOr_view (os : List Output) : OwnOr Q (os.map fun o => (.view, o)) := by
  intro c hc
  obtain ⟨o, -, rfl⟩ := List.mem_map.1 hc
  exact Or.inl rfl

theorem ownOr_tag (e : Element) {os : List Output} (h : ∀ o ∈ os, Q o) : OwnOr Q (e.tag os) := by
  intro c hc
  obtain ⟨o, ho, rfl⟩ := List.mem_map.1 hc
  exact Or.inr (h o ho)

theorem ownOr_forElements {f : Element → Element × List Output}
    (hf : ∀ e ∈ es, ∀ o ∈ (f e).2, Q o) : OwnOr Q (forElements f es).2 := by
  intro c hc
  obtain ⟨e, he, hc⟩ := List.mem_flatMap.1 hc
  exact ownOr_tag e (hf e he) c hc

/-- All that elements with these bindings can send is in `Q`. -/
def AllSend (Q : Output → Prop) (es : List Element) : Prop :=
  ∀ e ∈ es, ∀ o, MaySend e.bindings o → Q o

theorem ownOr_touchMoveElements (H : Host) (ps : List Pointer) (h : AllSend Q es) :
    OwnOr Q (touchMoveElements H ps es).2 := by
  induction ps generalizing es with
  | nil => exact ownOr_nil
  | cons p ps ih =>
    refine (ownOr_forElements fun e he o ho => ?_).append (ih fun e' he' => ?_)
    · exact h e he o (Element.allMaySend_handleTouchMove H e _ _ _ o ho)
    · obtain ⟨e, he, rfl⟩ := List.mem_map.1 he'
      rw [(Element.handles_handleTouchMove H e _ _ _).same.bindings]
      exact h e he

theorem ownOr_touchDownElements {H : Host} {pid : ℕ} {x y : ℚ}
    {r : Bool × List Element × Calls} (hr : touchDownElements H pid x y es = some r)
    (h : AllSend Q es) : OwnOr Q r.2.2 := by
  induction es generalizing r with
  | nil =>
    obtain rfl := Option.some.inj hr
    exact ownOr_nil
  | cons e es ih =>
    rw [AllSend, List.forall_mem_cons] at h
    simp only [touchDownElements] at hr
    split_ifs at hr with hnull hcap
    · obtain rfl := Option.some.inj hr
      exact ownOr_tag e fun o ho => h.1 o (Element.allMaySend_handleTouchDown H e pid x y o ho)
    · obtain ⟨s, hs, rfl⟩ := Option.map_eq_some_iff.1 hr
      show OwnOr Q s.2.2
      exact ih hs h.2

namespace View

variable (P : Platform) (ev : MotionEvent) (v : View)

theorem ownOr_moveFreePointers : OwnOr Q (v.moveFreePointers P ev).2 := by
  have hvertical (v : View) : OwnOr Q v.scrollVertical.2 := by
    unfold scrollVertical
    split_ifs
    · exact ownOr_view [_]
    · exact ownOr_nil
  have hhorizontal (v : View) : OwnOr Q v.scrollHorizontal.2 := by
    unfold scrollHorizontal
    split_ifs
    · exact ownOr_view [_]
    · exact ownOr_nil
  have htwo (v : View) : OwnOr Q (v.moveTwoFingers P ev).2 := by
    unfold moveTwoFingers
    dsimp only
    split_ifs
    · exact ownOr_nil
    · exact (hvertical _).append (hhorizontal _)
  have hone (v : View) : OwnOr Q (v.moveOneFinger P ev).2 := by
    unfold moveOneFinger
    cases (v.freePointers ev).find? fun p => (p.id : ℤ) = v.mousePointerId with
    | none => exact ownOr_nil
    | some p =>
      dsimp only
      split_ifs
      · exact ownOr_view [_]
      · exact ownOr_nil
  unfold moveFreePointers
  dsimp only
  split_ifs
  · exact htwo _
  · exact hone _
  · exact ownOr_nil

theorem ownOr_allPointersReleased : OwnOr Q (v.allPointersReleased P).2 := by
  refine (OwnOr.append ?_ ?_).append ?_
  · split_ifs
    · exact ownOr_view [_]
    · exact ownOr_nil
  · split_ifs
    · exact ownOr_view [_]
    · exact ownOr_nil
  · split_ifs
    · exact ownOr_view [_, _]
    · exact ownOr_view [_, _]
    · exact ownOr_nil
    · exact ownOr_nil

theorem ownOr_touchUp (h : AllSend Q v.elements) : OwnOr Q (v.touchUp P ev).2 := by
  have helements : OwnOr Q (forElements
      (fun e => e.handleTouchUp (v.host P) ev.actionPointer.id) v.elements).2 :=
    ownOr_forElements fun e he o ho => h e he o (Element.allMaySend_handleTouchUp _ e _ o ho)
  rw [touchUp_eq]
  split_ifs
  · exact helements.append (ownOr_allPointersReleased P _)
  · exact helements

theorem ownOr_runHoldDetector : OwnOr Q (v.runHoldDetector P).2 := by
  unfold runHoldDetector
  dsimp only
  split_ifs
  · exact ownOr_view [_]
  · exact ownOr_view [_]
  · exact ownOr_nil
  · exact ownOr_nil
  · exact ownOr_nil

theorem own_touchMove :
    Calls.own (v.touchMove P ev).2 =
      ((v.withElements (touchMoveElements (v.host P) ev.pointers v.elements).1).moveFreePointers P
        ev).2 := by
  simp only [touchMove, Calls.own_append, own_touchMoveElements, List.nil_append]
  exact own_eq_self (ownOr_moveFreePointers P ev _)

theorem own_touchUp :
    Calls.own (v.touchUp P ev).2 =
      if ev.action = .up ∨ ev.action = .cancel ∨ ((v.afterUp P ev).freePointerCount = 0 ∧
          (v.afterUp P ev).pointerOnElement.entries.length = 0) then
        ((v.afterUp P ev).allPointersReleased P).2
      else [] := by
  rw [touchUp_eq]
  split_ifs
  · rw [Calls.own_append, own_forElements, List.nil_append]
    exact own_eq_self (ownOr_allPointersReleased P _)
  · exact own_forElements _ _

/-- What a callback sends in the name of others is what the elements can send. -/
theorem ownOr_run {v : View} {c : Callback} {r : View × Calls} (hr : c.run v = some r)
    (h : AllSend Q v.elements) : OwnOr Q r.2 := by
  cases c with
  | holdDetector P =>
    obtain rfl := Option.some.inj hr
    exact ownOr_runHoldDetector P v
  | fling ref =>
    obtain rfl := Option.some.inj hr
    exact ownOr_nil
  | touch P ev =>
    have hr : v.onTouchEvent P ev = some r := hr
    unfold onTouchEvent at hr
    split_ifs at hr with hedit hplay
    · obtain ⟨v', -, rfl⟩ := Option.map_eq_some_iff.1 hr
      exact ownOr_nil
    · cases ha : ev.action with
      | down | pointerDown =>
        simp only [ha] at hr
        obtain ⟨s, hs, rfl⟩ := Option.map_eq_some_iff.1 hr
        exact ownOr_touchDownElements hs h
      | move =>
        simp only [ha, Option.some.injEq] at hr
        subst hr
        exact (ownOr_touchMoveElements _ _ h).append (ownOr_moveFreePointers P ev _)
      | up | pointerUp | cancel =>
        simp only [ha, Option.some.injEq] at hr
        subst hr
        exact ownOr_touchUp P ev v h
    · obtain rfl := Option.some.inj hr
      exact ownOr_nil

end View

end

end TermuxX11.VirtualKeys
