import TermuxX11.VirtualKeys.Fingers

/-!
# Where the elements are

No touch moves an element: the handlers compute its bounding box at most, and that is the one it
has.  So whether a pointer goes down on an element depends on the point alone, and whether the
element takes it on whether it is free.
-/

namespace TermuxX11.VirtualKeys

namespace Element

variable (H : Host) (e : Element)

theorem getBoundingBox_handleTouchMove (pid : ℕ) (x y : ℚ) :
    (e.handleTouchMove H pid x y).1.getBoundingBox H.snappingSize =
      e.getBoundingBox H.snappingSize := by
  unfold handleTouchMove
  split_ifs with hp
  · cases e.type with
    | button => rfl
    | trackpad => rfl
    | stick => rfl
    | dPad => rfl
    | rangeButton =>
      cases e.scroller with
      | none => rfl
      | some s =>
        dsimp only
        split_ifs
        · rfl
        · rfl
  · rfl

theorem getBoundingBox_capture (pid : ℕ) (x y : ℚ) :
    (e.capture H pid x y).1.getBoundingBox H.snappingSize = e.getBoundingBox H.snappingSize := by
  unfold capture
  cases e.type with
  | button =>
    dsimp only
    split_ifs
    · rfl
    · rfl
    · rfl
    · rfl
  | rangeButton => rfl
  | trackpad => exact getBoundingBox_handleTouchMove H _ pid x y
  | stick => exact getBoundingBox_handleTouchMove H _ pid x y
  | dPad => exact getBoundingBox_handleTouchMove H _ pid x y

theorem getBoundingBox_handleTouchDown (pid : ℕ) (x y : ℚ) :
    (e.handleTouchDown H pid x y).2.1.getBoundingBox H.snappingSize =
      e.getBoundingBox H.snappingSize := by
  rcases handleTouchDown_cases H e pid x y with ⟨e', he, rfl | rfl⟩ | ⟨-, he⟩
  · rw [he]
  · rw [he]
    rfl
  · rw [he]
    exact getBoundingBox_capture H _ pid x y

theorem getBoundingBox_handleTouchUp (pid : ℕ) :
    (e.handleTouchUp H pid).1.getBoundingBox H.snappingSize = e.getBoundingBox H.snappingSize := by
  unfold handleTouchUp
  by_cases hp : (pid : ℤ) = e.currentPointerId
  · rw [if_pos hp]
    cases e.type with
    | button =>
      dsimp only
      split_ifs
      · rfl
      · rfl
    | rangeButton =>
      cases e.scroller with
      | none => rfl
      | some s => rfl
    | dPad => rfl
    | stick => rfl
    | trackpad => rfl
  · rw [if_neg hp]

theorem getBoundingBox_runFling (ss : ℤ) :
    e.runFling.getBoundingBox ss = e.getBoundingBox ss := rfl

end Element

/-- The bounding boxes. -/
def boxes (ss : ℤ) (es : List Element) : List Rect := es.map (Element.getBoundingBox ss)

section

variable {ss : ℤ} {es : List Element}

theorem boxes_forElements {f : Element → Element × List Output}
    (hf : ∀ e, (f e).1.getBoundingBox ss = e.getBoundingBox ss) :
    boxes ss (forElements f es).1 = boxes ss es := by
  rw [boxes, boxes, forElements, List.map_map]
  exact List.map_congr_left fun e _ => hf e

theorem boxes_touchMoveElements (H : Host) (ps : List Pointer) (es : List Element) :
    boxes H.snappingSize (touchMoveElements H ps es).1 = boxes H.snappingSize es := by
  induction ps generalizing es with
  | nil => rfl
  | cons p ps ih =>
    refine (ih _).trans (boxes_forElements fun e => ?_)
    exact Element.getBoundingBox_handleTouchMove H e p.id p.x p.y

theorem boxes_touchDownElements {H : Host} {pid : ℕ} {x y : ℚ} {r : Bool × List Element × Calls}
    (hr : touchDownElements H pid x y es = some r) :
    boxes H.snappingSize r.2.1 = boxes H.snappingSize es := by
  induction es generalizing r with
  | nil =>
    obtain rfl := Option.some.inj hr
    rfl
  | cons e es ih =>
    have he := Element.getBoundingBox_handleTouchDown H e pid x y
    simp only [touchDownElements] at hr
    split_ifs at hr with hnull hcap
    · obtain rfl := Option.some.inj hr
      exact congrArg (· :: boxes H.snappingSize es) he
    · obtain ⟨s, hs, rfl⟩ := Option.map_eq_some_iff.1 hr
      exact congrArg₂ List.cons he (ih hs)

/-- The point is on an element. -/
def OnElement (ss : ℤ) (x y : ℚ) (es : List Element) : Prop :=
  ∃ e ∈ es, e.containsPoint ss x y = true

instance (ss : ℤ) (x y : ℚ) (es : List Element) : Decidable (OnElement ss x y es) :=
  inferInstanceAs (Decidable (∃ e ∈ es, e.containsPoint ss x y = true))

theorem onElement_iff (ss : ℤ) (x y : ℚ) (es : List Element) :
    OnElement ss x y es ↔
      ∃ b ∈ boxes ss es, b.contains (Java.truncate (x + 1 / 2)) (Java.truncate (y + 1 / 2)) = true := by
  simp [OnElement, boxes, Element.containsPoint]

/-- A pointer on a free element is taken. -/
theorem taken_of_free {H : Host} {pid : ℕ} {x y : ℚ} {r : Bool × List Element × Calls}
    (hr : touchDownElements H pid x y es = some r)
    (hfree : ∃ e ∈ es, e.currentPointerId = -1 ∧ e.containsPoint H.snappingSize x y = true) :
    r.1 = true := by
  induction es generalizing r with
  | nil =>
    obtain ⟨e, he, -⟩ := hfree
    cases he
  | cons e es ih =>
    simp only [touchDownElements] at hr
    split_ifs at hr with hnull hcap
    · obtain rfl := Option.some.inj hr
      rfl
    · obtain ⟨s, hs, rfl⟩ := Option.map_eq_some_iff.1 hr
      show s.1 = true
      refine ih hs ?_
      obtain ⟨e', he', hpointer, hcontains⟩ := hfree
      rcases List.mem_cons.1 he' with rfl | he'
      · refine absurd ?_ hcap
        rw [Element.handleTouchDown, if_pos hpointer, if_pos hcontains]
      · exact ⟨e', he', hpointer, hcontains⟩

/-! ### Elements without pointers -/

/-- No element has a pointer. -/
def Idle (es : List Element) : Prop := ∀ e ∈ es, e.currentPointerId = -1 ∧ e.view = true

theorem natCast_ne_neg_one (pid : ℕ) : (pid : ℤ) ≠ -1 := by omega

theorem forElements_idle {f : Element → Element × List Output} (hf : ∀ e ∈ es, f e = (e, [])) :
    forElements f es = (es, []) := by
  refine Prod.ext ?_ ?_
  · show es.map (fun e => (f e).1) = es
    rw [List.map_congr_left fun e he => congrArg Prod.fst (hf e he), List.map_id']
  · refine List.flatMap_eq_nil_iff.2 fun e he => ?_
    rw [hf e he]
    rfl

theorem Idle.handleTouchUp (h : Idle es) (H : Host) (pid : ℕ) :
    forElements (fun e => e.handleTouchUp H pid) es = (es, []) := by
  refine forElements_idle fun e he => ?_
  rw [Element.handleTouchUp, (h e he).1, if_neg (natCast_ne_neg_one pid)]

theorem Idle.touchMoveElements (h : Idle es) (H : Host) (ps : List Pointer) :
    touchMoveElements H ps es = (es, []) := by
  induction ps with
  | nil => rfl
  | cons p ps ih =>
    have hmove : forElements (fun e => e.handleTouchMove H p.id p.x p.y) es = (es, []) := by
      refine forElements_idle fun e he => ?_
      rw [Element.handleTouchMove, (h e he).1, if_neg (natCast_ne_neg_one p.id)]
    simp only [VirtualKeys.touchMoveElements, hmove, ih, List.append_nil]

/-- Beside all elements a pointer only makes them compute their boxes. -/
theorem Idle.touchDownElements (h : Idle es) {H : Host} {x y : ℚ}
    (hbeside : ¬ OnElement H.snappingSize x y es) (pid : ℕ) :
    ∃ es', touchDownElements H pid x y es = some (false, es', []) ∧ Idle es' := by
  induction es with
  | nil => exact ⟨[], rfl, h⟩
  | cons e es ih =>
    rw [Idle, List.forall_mem_cons] at h
    obtain ⟨hpointer, hview⟩ := h.1
    have hcontains : e.containsPoint H.snappingSize x y ≠ true :=
      fun hc => hbeside ⟨e, List.mem_cons_self, hc⟩
    have hdown : e.handleTouchDown H pid x y =
        (false, e.cacheBoundingBox H.snappingSize, []) := by
      rw [Element.handleTouchDown, if_pos hpointer, if_neg hcontains]
    obtain ⟨es', hes', hidle⟩ := ih h.2 fun ⟨e', he', hc⟩ =>
      hbeside ⟨e', List.mem_cons_of_mem e he', hc⟩
    refine ⟨e.cacheBoundingBox H.snappingSize :: es', ?_,
      List.forall_mem_cons.2 ⟨⟨hpointer, hview⟩, hidle⟩⟩
    simp only [VirtualKeys.touchDownElements, hdown, hes', hview]
    simp

end

/-! ### The size of the view -/

namespace View

theorem size_freePointerDown (P : Platform) (ev : MotionEvent) (v : View) :
    (v.freePointerDown P ev).size = v.size := by
  unfold freePointerDown scheduleHoldDetector
  dsimp only
  split_ifs <;> rfl

theorem size_removePointer (P : Platform) (ev : MotionEvent) (v : View) :
    (v.removePointer P ev).size = v.size := by
  unfold removePointer
  dsimp only
  split_ifs <;> rfl

theorem size_countFreePointers (ev : MotionEvent) (v : View) :
    (v.countFreePointers ev).size = v.size := by
  unfold countFreePointers
  dsimp only
  split_ifs <;> rfl

theorem size_moveTwoFingers (P : Platform) (ev : MotionEvent) (v : View) :
    (v.moveTwoFingers P ev).1.size = v.size := by
  have hcentre : (v.moveCenter P ev).1.size = v.size := by
    unfold moveCenter cancelHoldDetector
    dsimp only
    split_ifs <;> rfl
  have hvertical (w : View) : w.scrollVertical.1.size = w.size := by
    unfold scrollVertical cancelHoldDetector
    split_ifs <;> rfl
  have hhorizontal (w : View) : w.scrollHorizontal.1.size = w.size := by
    unfold scrollHorizontal cancelHoldDetector
    split_ifs <;> rfl
  unfold moveTwoFingers
  dsimp only
  split_ifs
  · exact hcentre
  · exact ((hhorizontal _).trans (hvertical _)).trans hcentre

theorem size_moveOneFinger (P : Platform) (ev : MotionEvent) (v : View) :
    (v.moveOneFinger P ev).1.size = v.size := by
  unfold moveOneFinger cancelHoldDetector
  cases (v.freePointers ev).find? fun p => (p.id : ℤ) = v.mousePointerId with
  | none => rfl
  | some p =>
    dsimp only
    split_ifs <;> rfl

theorem size_moveFreePointers (P : Platform) (ev : MotionEvent) (v : View) :
    (v.moveFreePointers P ev).1.size = v.size := by
  have hcount := size_countFreePointers ev v
  unfold moveFreePointers
  dsimp only
  split_ifs
  · exact (size_moveTwoFingers P ev _).trans hcount
  · exact (size_moveOneFinger P ev _).trans hcount
  · exact hcount

end View

end TermuxX11.VirtualKeys
