import TermuxX11.VirtualKeys.Accounting

/-!
# Gestures

A gesture is a stream of touch events in which the platform tells of every pointer that goes
down and up, with the hold detector and the flings running in between.  `Owned` says who has
which pointer: an element is free, or it has a pointer that is down.  `ACTION_UP` and
`ACTION_POINTER_UP` tell the elements of the one pointer that goes up, and that is enough.
`ACTION_CANCEL` ends all pointers and also tells of one only, so the elements that have
another pointer keep it, and keep their keys down.
-/

namespace TermuxX11.VirtualKeys

open Ledger Run

/-- The identifiers of the pointers of an event. -/
def MotionEvent.ids (ev : MotionEvent) : List ℕ := ev.pointers.map Pointer.id

/-- The pointers that are down after an event. -/
def MotionEvent.pointersAfter (down : List ℕ) (ev : MotionEvent) : List ℕ :=
  match ev.action with
  | .down | .pointerDown => ev.actionPointer.id :: down
  | .move => down
  | .pointerUp | .up => down.erase ev.actionPointer.id
  | .cancel => []

/-- An event tells of the pointers that are down, and its action is about one of them. -/
def MotionEvent.WellFormed (down : List ℕ) (ev : MotionEvent) : Prop :=
  match ev.action with
  | .down => down = [] ∧ ev.ids = [ev.actionPointer.id]
  | .pointerDown =>
    down ≠ [] ∧ ev.actionPointer.id ∉ down ∧ ev.ids.Perm (ev.actionPointer.id :: down)
  | .move => ev.ids.Perm down
  | .pointerUp => ev.ids.Perm down ∧ 2 ≤ down.length
  | .up => ev.ids.Perm down ∧ down.length = 1
  | .cancel => ev.ids.Perm down

instance (down : List ℕ) (ev : MotionEvent) : Decidable (ev.WellFormed down) :=
  match h : ev.action with
  | .down => decidable_of_iff (down = [] ∧ ev.ids = [ev.actionPointer.id])
      (by simp [MotionEvent.WellFormed, h])
  | .pointerDown => decidable_of_iff (down ≠ [] ∧ ev.actionPointer.id ∉ down ∧
      ev.ids.Perm (ev.actionPointer.id :: down)) (by simp [MotionEvent.WellFormed, h])
  | .move => decidable_of_iff (ev.ids.Perm down) (by simp [MotionEvent.WellFormed, h])
  | .pointerUp => decidable_of_iff (ev.ids.Perm down ∧ 2 ≤ down.length)
      (by simp [MotionEvent.WellFormed, h])
  | .up => decidable_of_iff (ev.ids.Perm down ∧ down.length = 1)
      (by simp [MotionEvent.WellFormed, h])
  | .cancel => decidable_of_iff (ev.ids.Perm down) (by simp [MotionEvent.WellFormed, h])

/-- The pointers that are down after a callback. -/
def Callback.pointersAfter (down : List ℕ) : Callback → List ℕ
  | .touch _ ev => ev.pointersAfter down
  | _ => down

/-- The event ends the gesture. -/
def Callback.EndsGesture : Callback → Prop
  | .touch _ ev => ev.action = .up ∨ ev.action = .cancel
  | _ => False

/-- The view, and the pointers that are down. -/
structure Gesture where
  view : View
  down : List ℕ := []

namespace Gesture

/-- One callback of a gesture. -/
def step (g : Gesture) (c : Callback) : Option Gesture :=
  (g.view.step c).map fun v => { view := v, down := c.pointersAfter g.down }

/-- The stream of touch events goes on as the platform promises. -/
def WellFormed (g : Gesture) : Callback → Prop
  | .touch _ ev => ev.WellFormed g.down
  | _ => True

instance (g : Gesture) : (c : Callback) → Decidable (g.WellFormed c)
  | .touch _ ev => inferInstanceAs (Decidable (ev.WellFormed g.down))
  | .holdDetector _ => .isTrue trivial
  | .fling _ => .isTrue trivial

@[simp] theorem wellFormed_touch (g : Gesture) (P : Platform) (ev : MotionEvent) :
    g.WellFormed (.touch P ev) = ev.WellFormed g.down := rfl

/-- A gesture is cancelled only when no element has another pointer than the one the event
is about. -/
def CancelsAlone (g : Gesture) : Callback → Prop
  | .touch _ ev =>
    ev.action = .cancel → ∀ e ∈ g.view.elements,
      e.currentPointerId = -1 ∨ e.currentPointerId = ev.actionPointer.id
  | _ => True

/-- `pointer` is no pointer, or one of those that are down. -/
def Free (down : List ℕ) (pointer : ℤ) : Prop := pointer = -1 ∨ ∃ id ∈ down, pointer = (id : ℕ)

theorem Free.mono {down down' : List ℕ} {pointer : ℤ} (h : Free down pointer)
    (hsub : ∀ id ∈ down, id ∈ down') : Free down' pointer :=
  h.imp_right fun ⟨id, hid, hp⟩ => ⟨id, hsub id hid, hp⟩

/-- Every element is free or has a pointer that is down. -/
structure Owned (g : Gesture) : Prop where
  kept : g.view.Kept
  attached : ∀ e ∈ g.view.elements, e.view = true
  distinct : (g.view.elements.map Element.ref).Nodup
  editMode : g.view.editMode = false
  owned : ∀ e ∈ g.view.elements, Free g.down e.currentPointerId
  hidden : g.view.showTouchscreenControls = false →
    ∀ e ∈ g.view.elements, e.currentPointerId = -1

end Gesture

/-! ### The elements' pointers -/

section

variable {Q : ℤ → Prop} {es : List Element}

theorem forElements_pointers {f : Element → Element × List Output}
    (hf : ∀ e ∈ es, Q (f e).1.currentPointerId) :
    ∀ e ∈ (forElements f es).1, Q e.currentPointerId := by
  intro e' he'
  obtain ⟨e, he, rfl⟩ := List.mem_map.1 he'
  exact hf e he

theorem touchMoveElements_pointers (H : Host) (ps : List Pointer)
    (h : ∀ e ∈ es, Q e.currentPointerId) :
    ∀ e ∈ (touchMoveElements H ps es).1, Q e.currentPointerId := by
  induction ps generalizing es with
  | nil => exact h
  | cons p ps ih =>
    refine ih (forElements_pointers fun e he => ?_)
    rw [Element.currentPointerId_handleTouchMove]
    exact h e he

theorem handleTouchDown_pointer {H : Host} {e : Element} {pid : ℕ} {x y : ℚ}
    (h : Q e.currentPointerId) (hpid : Q pid) :
    Q (e.handleTouchDown H pid x y).2.1.currentPointerId := by
  unfold Element.handleTouchDown
  split_ifs
  · show Q (Element.capture H _ pid x y).1.currentPointerId
    rw [Element.currentPointerId_capture]
    exact hpid
  · exact h
  · exact h

theorem touchDownElements_pointers {H : Host} {pid : ℕ} {x y : ℚ}
    {r : Bool × List Element × Calls} (hr : touchDownElements H pid x y es = some r)
    (h : ∀ e ∈ es, Q e.currentPointerId) (hpid : Q pid) :
    ∀ e ∈ r.2.1, Q e.currentPointerId := by
  induction es generalizing r with
  | nil =>
    obtain rfl := Option.some.inj hr
    simp
  | cons e es ih =>
    rw [List.forall_mem_cons] at h
    simp only [touchDownElements] at hr
    split_ifs at hr with hnull hcap
    · obtain rfl := Option.some.inj hr
      exact List.forall_mem_cons.2 ⟨handleTouchDown_pointer h.1 hpid, h.2⟩
    · obtain ⟨s, hs, rfl⟩ := Option.map_eq_some_iff.1 hr
      exact List.forall_mem_cons.2 ⟨handleTouchDown_pointer h.1 hpid, ih hs h.2⟩

theorem touchDownElements_total (H : Host) (pid : ℕ) (x y : ℚ)
    (h : ∀ e ∈ es, e.view = true) : ∃ r, touchDownElements H pid x y es = some r := by
  induction es with
  | nil => exact ⟨_, rfl⟩
  | cons e es ih =>
    rw [List.forall_mem_cons] at h
    obtain ⟨s, hs⟩ := ih h.2
    have hview : ¬ (e.currentPointerId = -1 ∧ e.boundingBoxNeedsUpdate = true ∧
        e.view = false) := by simp [h.1]
    simp only [touchDownElements, if_neg hview, hs]
    split_ifs
    · exact ⟨_, rfl⟩
    · exact ⟨_, rfl⟩

end

/-! ### One callback -/

namespace View

/-- Outside edit mode the elements' views are read, and nothing else can be missing. -/
theorem onTouchEvent_total {v : View} (hedit : v.editMode = false)
    (hattached : ∀ e ∈ v.elements, e.view = true) (P : Platform) (ev : MotionEvent) :
    ∃ r, v.onTouchEvent P ev = some r := by
  have hdown : ∃ r, v.touchDown P ev = some r := by
    obtain ⟨s, hs⟩ := touchDownElements_total (v.host P) ev.actionPointer.id
      ev.actionPointer.x ev.actionPointer.y hattached
    exact ⟨_, Option.map_eq_some_iff.2 ⟨s, hs, rfl⟩⟩
  unfold onTouchEvent
  rw [if_neg (by simp [hedit])]
  split_ifs with hplay
  · cases ev.action with
    | down => exact hdown
    | pointerDown => exact hdown
    | move => exact ⟨_, rfl⟩
    | up => exact ⟨_, rfl⟩
    | pointerUp => exact ⟨_, rfl⟩
    | cancel => exact ⟨_, rfl⟩
  · exact ⟨_, rfl⟩

theorem run_total {v : View} (hedit : v.editMode = false)
    (hattached : ∀ e ∈ v.elements, e.view = true) (c : Callback) : ∃ r, c.run v = some r := by
  cases c with
  | touch P ev => exact onTouchEvent_total hedit hattached P ev
  | holdDetector P => exact ⟨_, rfl⟩
  | fling ref => exact ⟨_, rfl⟩

/-- The hold detector and the flings leave the pointers with their elements. -/
theorem elements_runHoldDetector (P : Platform) (v : View) :
    (v.runHoldDetector P).1.elements = v.elements := by
  unfold runHoldDetector
  dsimp only
  split_ifs <;> rfl

theorem runFling_pointers {Q : ℤ → Prop} {v : View} (ref : ℕ)
    (h : ∀ e ∈ v.elements, Q e.currentPointerId) :
    ∀ e ∈ (v.runFling ref).elements, Q e.currentPointerId := by
  unfold runFling
  rw [elements_withElements_map]
  intro e' he'
  obtain ⟨e, he, rfl⟩ := List.mem_map.1 he'
  have hq := h e he
  split_ifs
  · exact hq
  · exact hq

end View

/-- A pointer that an event tells of is one of its pointers. -/
theorem MotionEvent.actionPointer_mem (ev : MotionEvent) : ev.actionPointer.id ∈ ev.ids :=
  List.mem_map_of_mem (List.get_mem _ _)

namespace Gesture

/-- After `ACTION_UP` and `ACTION_POINTER_UP` the elements have pointers that are still down. -/
theorem free_up {down : List ℕ} {pointer : ℤ} (h : Free down pointer) (pid : ℕ) :
    Free (down.erase pid) (if (pid : ℤ) = pointer then -1 else pointer) := by
  split_ifs with hp
  · exact Or.inl rfl
  · rcases h with h | ⟨id, hid, rfl⟩
    · exact Or.inl h
    · refine Or.inr ⟨id, ?_, rfl⟩
      exact (List.mem_erase_of_ne fun h => hp (by rw [h])).2 hid

/-- A touch event hands the pointers on. -/
theorem free_touch {v : View} {down : List ℕ} {P : Platform} {ev : MotionEvent}
    {r : View × Calls} (hp : v.profile.isSome = true) (hedit : v.editMode = false)
    (hshow : v.showTouchscreenControls = true) (hr : v.onTouchEvent P ev = some r)
    (hcancel : ev.action = .cancel → ∀ e ∈ v.elements,
      e.currentPointerId = -1 ∨ e.currentPointerId = ev.actionPointer.id)
    (h : ∀ e ∈ v.elements, Free down e.currentPointerId) :
    ∀ e ∈ r.1.elements, Free (ev.pointersAfter down) e.currentPointerId := by
  have hplay : v.editMode = false ∧ v.profile.isSome = true ∧
      v.showTouchscreenControls = true := ⟨hedit, hp, hshow⟩
  unfold View.onTouchEvent at hr
  rw [if_neg (by simp [hedit]), if_pos hplay] at hr
  have hdown (hr : v.touchDown P ev = some r) :
      ∀ e ∈ r.1.elements, Free (ev.actionPointer.id :: down) e.currentPointerId := by
    obtain ⟨s, hs, ht, -⟩ := View.touched_touchDown hp hr
    rw [ht.elements]
    refine touchDownElements_pointers hs (fun e he => ?_) (Or.inr ⟨_, List.mem_cons_self, rfl⟩)
    exact (h e he).mono fun id hid => List.mem_cons_of_mem _ hid
  -- `ACTION_CANCEL` is handled as the release of one pointer
  have hup {Q : ℤ → Prop} (hQ : ∀ e ∈ v.elements,
      Q (if (ev.actionPointer.id : ℤ) = e.currentPointerId then -1 else e.currentPointerId)) :
      ∀ e ∈ (v.touchUp P ev).1.elements, Q e.currentPointerId := by
    rw [View.elements_touchUp P ev hp]
    refine forElements_pointers fun e he => ?_
    rw [Element.currentPointerId_handleTouchUp]
    exact hQ e he
  unfold MotionEvent.pointersAfter
  cases ha : ev.action with
  | down | pointerDown =>
    simp only [ha] at hr
    exact hdown hr
  | move =>
    simp only [ha, Option.some.injEq] at hr
    subst hr
    rw [(View.touched_touchMove P ev hp).elements]
    exact touchMoveElements_pointers _ _ h
  | up | pointerUp =>
    simp only [ha, Option.some.injEq] at hr
    subst hr
    exact hup fun e he => free_up (h e he) _
  | cancel =>
    simp only [ha, Option.some.injEq] at hr
    subst hr
    refine hup fun e he => Or.inl ?_
    rcases hcancel ha e he with h | h
    · rw [h, ite_self]
    · rw [h, if_pos rfl]

/-- While the controls are hidden a touch event changes nothing. -/
theorem onTouchEvent_hidden {v : View} {P : Platform} {ev : MotionEvent} {r : View × Calls}
    (hedit : v.editMode = false)
    (hplay : ¬ (v.profile.isSome = true ∧ v.showTouchscreenControls = true))
    (hr : v.onTouchEvent P ev = some r) : r.1 = v := by
  unfold View.onTouchEvent at hr
  rw [if_neg (by simp [hedit]), if_neg (by simpa [hedit] using hplay)] at hr
  obtain rfl := Option.some.inj hr
  rfl

/-- The pointers after any callback. -/
theorem free_run {g : Gesture} {c : Callback} {r : View × Calls} (h : g.Owned)
    (hc : g.CancelsAlone c) (hr : c.run g.view = some r) :
    (∀ e ∈ r.1.elements, Free (c.pointersAfter g.down) e.currentPointerId) ∧
      (g.view.showTouchscreenControls = false →
        ∀ e ∈ r.1.elements, e.currentPointerId = -1) := by
  cases c with
  | holdDetector P =>
    obtain rfl := Option.some.inj hr
    rw [View.elements_runHoldDetector]
    exact ⟨h.owned, h.hidden⟩
  | fling ref =>
    obtain rfl := Option.some.inj hr
    exact ⟨View.runFling_pointers ref h.owned,
      fun hs => View.runFling_pointers (Q := (· = -1)) ref (h.hidden hs)⟩
  | touch P ev =>
    by_cases hplay : g.view.profile.isSome = true ∧ g.view.showTouchscreenControls = true
    · refine ⟨free_touch hplay.1 h.editMode hplay.2 hr hc h.owned, fun hs => ?_⟩
      exact absurd (hs.symm.trans hplay.2) Bool.false_ne_true
    · obtain hv := onTouchEvent_hidden h.editMode hplay hr
      -- hidden elements have been released, and without a profile there are none
      have hfree : ∀ e ∈ g.view.elements, e.currentPointerId = -1 := by
        cases hs : g.view.showTouchscreenControls with
        | false => exact h.hidden hs
        | true =>
          have hp : g.view.profile = none := by simpa [hs] using hplay
          simp [View.elements, hp]
      rw [hv]
      exact ⟨fun e he => Or.inl (hfree e he), fun _ => hfree⟩

/-- Every callback of a well-formed gesture returns, and hands the pointers on. -/
theorem Owned.step {g : Gesture} {c : Callback} (h : g.Owned) (hc : g.CancelsAlone c) :
    ∃ g', g.step c = some g' ∧ g'.Owned := by
  obtain ⟨r, hr⟩ := View.run_total h.editMode h.attached c
  have ha := View.accounts_run hr h.kept.atRest
  obtain ⟨hfree, hhidden⟩ := free_run h hc hr
  refine ⟨⟨g.view.deliver r, c.pointersAfter g.down⟩, ?_, ?_⟩
  · rw [Gesture.step, View.step, hr]
    rfl
  · refine
      { kept := h.kept.deliver ha
        attached := ha.same.view h.attached
        distinct := ?_
        editMode := ha.frame.editMode.trans h.editMode
        owned := hfree
        hidden := fun hs => hhidden (ha.frame.showTouchscreenControls ▸ hs) }
    show (r.1.elements.map Element.ref).Nodup
    rw [ha.same.refs]
    exact h.distinct

theorem owned_start {v : View} (h : v.Start) (hedit : v.editMode = false) :
    Owned { view := v } :=
  { kept := h.kept
    attached := h.attached
    distinct := h.distinct
    editMode := hedit
    owned := fun e he => Or.inl (h.fresh e he).currentPointerId
    hidden := fun _ e he => (h.fresh e he).currentPointerId }

/-- The last pointer goes up, or all of them are cancelled. -/
theorem pointersAfter_end {down : List ℕ} {ev : MotionEvent} (h : ev.WellFormed down)
    (hend : ev.action = .up ∨ ev.action = .cancel) : ev.pointersAfter down = [] := by
  unfold MotionEvent.pointersAfter
  rcases hend with ha | ha
  · simp only [ha, MotionEvent.WellFormed] at h ⊢
    obtain ⟨id, rfl⟩ := List.length_eq_one_iff.1 h.2
    have hid := h.1.mem_iff.1 ev.actionPointer_mem
    rw [List.mem_singleton.1 hid, List.erase_cons_head]
  · simp only [ha]

/-- An element that is free and no toggle has nothing down. -/
theorem Owned.not_down {g : Gesture} (h : g.Owned) {e : Element} (he : e ∈ g.view.elements)
    (hfree : e.currentPointerId = -1) (hn : ¬ e.IsToggle) (k : Signal) :
    ¬ Down (Calls.events g.view.sent) (.element e.ref, k) := by
  intro hk
  rcases h.kept.covered _ hk with ⟨e', he', href, hk'⟩ | ⟨-, hv⟩ | ⟨-, hv⟩
  · have heq : e' = e := List.inj_on_of_nodup_map h.distinct he' he (Source.element.inj href)
    subst heq
    exact h.kept.atRest e' he' hfree hn k hk'
  · cases hv
  · cases hv

/-- **No key stays down after a gesture that is cancelled alone**: no callback fails, and
after the event that ends a gesture every element is free and everything that was pressed
through an element that is no toggle has been released. -/
theorem released_of_cancelsAlone {v : View} (hstart : v.Start) (hedit : v.editMode = false)
    {cs : List Callback} {c : Callback}
    (h : TryAlways step (fun g c => g.WellFormed c ∧ g.CancelsAlone c) { view := v }
      (cs ++ [c])) (hend : c.EndsGesture) :
    ∃ g, tryExec step { view := v } (cs ++ [c]) = some g ∧
      ∀ e ∈ g.view.elements, e.currentPointerId = -1 ∧
        (¬ e.IsToggle → ∀ k, ¬ Down (Calls.events g.view.sent) (.element e.ref, k)) := by
  obtain ⟨t, g, hrun, hlast, hwf, ht, hg⟩ :=
    tryExec_last (fun s a hs ha => hs.step ha.2) (owned_start hstart hedit) h
  refine ⟨g, hrun, ?_⟩
  have hdown : g.down = [] := by
    obtain ⟨v', -, rfl⟩ := Option.map_eq_some_iff.1 hlast
    cases c with
    | touch P ev => exact pointersAfter_end hwf.1 hend
    | holdDetector P => exact hend.elim
    | fling ref => exact hend.elim
  intro e he
  have hfree : e.currentPointerId = -1 := by
    rcases hg.owned e he with h | ⟨id, hid, -⟩
    · exact h
    · rw [hdown] at hid
      cases hid
  exact ⟨hfree, fun hn k => hg.not_down he hfree hn k⟩

/-! ### A gesture that is cancelled with two pointers down -/

theorem step_down {g g' : Gesture} {c : Callback} (h : g.step c = some g') :
    g'.down = c.pointersAfter g.down := by
  obtain ⟨v, -, rfl⟩ := Option.map_eq_some_iff.1 h
  rfl

/-- The preferences switched off; the functions of `Math` are not called on a button. -/
def idlePlatform : Platform :=
  { touchGestures := false
    relativeMouse := false
    mouseScrollSpeed := 100
    currentTimeMillis := 0
    uptimeMillis := 0
    math := ⟨fun _ => 0, fun _ _ => 0, fun _ => 1, fun _ => 0⟩ }

/-- A button that sends one key. -/
def keyButton (ref : ℕ) (x : ℤ) (b : Binding) : Element :=
  { ref := ref, view := true, x := x, y := 100, bindings := [b, .none, .none, .none] }

/-- A view with the buttons `A` and `B`. -/
def twoButtons : View :=
  { size := ⟨1000, 1000⟩
    inputSender := true
    profile := some
      { name := "p", elements := [keyButton 0 100 .keyA, keyButton 1 500 .keyB],
        elementsLoaded := true } }

theorem start_twoButtons : twoButtons.Start := by
  refine ⟨?_, by decide, by decide, rfl⟩
  simp only [twoButtons, View.elements, Option.map_some, Option.getD_some, List.forall_mem_cons]
  refine ⟨⟨rfl, fun _ => rfl, ?_⟩, ⟨rfl, fun _ => rfl, ?_⟩, by simp⟩
  · rintro ⟨h, -⟩
    cases h
  · rintro ⟨h, -⟩
    cases h

def fingerA : Pointer := ⟨0, 100, 100⟩

def fingerB : Pointer := ⟨1, 500, 100⟩

/-- Two fingers go down on `A` and `B`. -/
def pressBoth : List Callback :=
  [.touch idlePlatform ⟨.down, [fingerA], 0, by decide⟩,
    .touch idlePlatform ⟨.pointerDown, [fingerA, fingerB], 1, by decide⟩]

/-- The gesture is taken away from the view. -/
def cancelBoth : Callback := .touch idlePlatform ⟨.cancel, [fingerA, fingerB], 0, by decide⟩

theorem wellFormed_pressBoth :
    TryAlways step WellFormed { view := twoButtons } (pressBoth ++ [cancelBoth]) := by
  refine ⟨⟨rfl, rfl⟩, fun g hg => ⟨?_, fun g' hg' => ⟨?_, fun _ _ => trivial⟩⟩⟩
  · rw [wellFormed_touch, step_down hg]
    exact ⟨by decide, by decide, by decide⟩
  · rw [cancelBoth, wellFormed_touch, step_down hg', step_down hg]
    exact show List.Perm _ _ by decide

/-- After `ACTION_CANCEL` the button `B` still has its pointer and its key is down. -/
theorem cancel_leaves_key_down :
    twoButtons.Start ∧ twoButtons.editMode = false ∧
      TryAlways step WellFormed { view := twoButtons } (pressBoth ++ [cancelBoth]) ∧
      cancelBoth.EndsGesture ∧
      ∃ g, tryExec step { view := twoButtons } (pressBoth ++ [cancelBoth]) = some g ∧
        (g.view.elements.map fun e => (e.ref, e.type, e.isToggleSwitch, e.currentPointerId)) =
          [(0, .button, false, -1), (1, .button, false, 1)] ∧
        Down (Calls.events g.view.sent) (.element 1, .key .keyB) := by
  refine ⟨start_twoButtons, rfl, wellFormed_pressBoth, Or.inr rfl, ?_⟩
  have helements : (tryExec step { view := twoButtons } (pressBoth ++ [cancelBoth])).map
      (fun g => g.view.elements.map fun e =>
        (e.ref, e.type, e.isToggleSwitch, e.currentPointerId)) =
      some [(0, .button, false, -1), (1, .button, false, 1)] := by
    decide +kernel
  have hsent : (tryExec step { view := twoButtons } (pressBoth ++ [cancelBoth])).map
      (fun g => Calls.events g.view.sent) =
      some [((.element 0, .key .keyA), true), ((.element 1, .key .keyB), true),
        ((.element 0, .key .keyA), false)] := by
    decide +kernel
  obtain ⟨g, hg, hg'⟩ := Option.map_eq_some_iff.1 helements
  rw [hg, Option.map_some, Option.some.injEq] at hsent
  refine ⟨g, hg, hg', ?_⟩
  rw [hsent]
  decide

/-- One finger on `A`, lifted again. -/
theorem released_of_cancelsAlone_pressA :
    ∃ g, tryExec step { view := twoButtons }
        ([.touch idlePlatform ⟨.down, [fingerA], 0, by decide⟩] ++
          [.touch idlePlatform ⟨.up, [fingerA], 0, by decide⟩]) = some g ∧
      ∀ e ∈ g.view.elements, e.currentPointerId = -1 ∧
        (¬ e.IsToggle → ∀ k, ¬ Down (Calls.events g.view.sent) (.element e.ref, k)) := by
  refine released_of_cancelsAlone start_twoButtons rfl ?_ (Or.inl rfl)
  refine ⟨⟨⟨rfl, rfl⟩, fun h => by cases h⟩, fun g hg => ⟨⟨?_, fun h => by cases h⟩, ?_⟩⟩
  · rw [wellFormed_touch, step_down hg]
    exact ⟨by decide, rfl⟩
  · exact fun _ _ => trivial

end Gesture

end TermuxX11.VirtualKeys
