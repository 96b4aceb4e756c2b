import TermuxX11.VirtualKeys.Boxes

/-!
# Two views of the same free pointers

`Twin v w` says that `w` is `v` but for the elements, the pointers that they took and the record
of what was sent.  All that the view does for the free pointers it does to both alike, if the two
events tell of the same free pointers.
-/

namespace TermuxX11.VirtualKeys

open Ledger Run

namespace View

/-- The view with other elements, other pointers on them and another record. -/
def apart (p : Option Profile) (m : SparseArray Bool) (s : Calls) (v : View) : View :=
  { v with profile := p, pointerOnElement := m, sent := s }

section

variable {v w : View} {ev ev' : MotionEvent} {p : Option Profile} {m : SparseArray Bool}
  {s : Calls}

/-- The centre depends on the free pointers alone. -/
theorem computeFreeCenter_congr (h : w.freePointers ev' = v.freePointers ev)
    (hne : v.freePointers ev ≠ []) : w.computeFreeCenter ev' = v.computeFreeCenter ev := by
  rw [computeFreeCenter, computeFreeCenter, h]
  cases hps : v.freePointers ev with
  | nil => exact absurd hps hne
  | cons q qs => rfl

theorem computeFreeCenter_of_entries (h : w.pointerOnElement = v.pointerOnElement)
    (ev : MotionEvent) : w.computeFreeCenter ev = v.computeFreeCenter ev := by
  rw [computeFreeCenter, computeFreeCenter, freePointers, freePointers, h]

/-- A free pointer goes down in both. -/
theorem freePointerDown_apart (h : (v.apart p m s).freePointers ev' = v.freePointers ev)
    (hne : v.freePointers ev ≠ []) (haction : ev'.actionPointer = ev.actionPointer)
    (P : Platform) :
    (v.apart p m s).freePointerDown P ev' = (v.freePointerDown P ev).apart p m s := by
  have hcentre : ∀ w : View, w.pointerOnElement = m →
      w.computeFreeCenter ev' = v.computeFreeCenter ev := fun w hw =>
    (computeFreeCenter_of_entries (v := v.apart p m s) hw ev').trans (computeFreeCenter_congr h hne)
  have hcentre' : ∀ w : View, w.pointerOnElement = v.pointerOnElement →
      w.computeFreeCenter ev = v.computeFreeCenter ev := fun w hw =>
    computeFreeCenter_of_entries hw ev
  unfold freePointerDown apart
  rw [haction]
  dsimp only
  split_ifs
  · rfl
  · rw [hcentre _ rfl, hcentre' _ rfl]
    rfl
  · rfl
  · rfl
  · rw [hcentre _ rfl, hcentre' _ rfl]
    rfl
  · rfl

theorem countFreePointers_eq (ev : MotionEvent) (v : View) :
    v.countFreePointers ev =
      if ((v.freePointers ev).length : ℤ) = 2 ∧ v.twoFingerScrollActive = false then
        { v with
          freePointerCount := (v.freePointers ev).length
          twoFingerLastCenterX := (v.computeFreeCenter ev).1
          twoFingerLastCenterY := (v.computeFreeCenter ev).2
          scrollAccumulatorX := 0
          scrollAccumulatorY := 0 }
      else { v with freePointerCount := (v.freePointers ev).length } :=
  rfl

theorem countFreePointers_apart (h : (v.apart p m s).freePointers ev' = v.freePointers ev)
    (hne : v.freePointers ev ≠ []) :
    (v.apart p m s).countFreePointers ev' = (v.countFreePointers ev).apart p m s := by
  have hactive : (v.apart p m s).twoFingerScrollActive = v.twoFingerScrollActive := rfl
  rw [countFreePointers_eq, countFreePointers_eq, h, computeFreeCenter_congr h hne, hactive]
  split_ifs
  · rfl
  · rfl

/-- Without free pointers nothing moves. -/
theorem moveFreePointers_none (hnil : v.freePointers ev = []) (hcount : v.freePointerCount = 0)
    (P : Platform) : v.moveFreePointers P ev = (v, []) := by
  have hself : v.countFreePointers ev = v := by
    rw [countFreePointers_eq, hnil, if_neg (by simp)]
    show { v with freePointerCount := 0 } = v
    rw [← hcount]
  rw [moveFreePointers, hself, hcount, if_neg (by simp), if_neg (by simp)]

/-- A free pointer has moved away from where it went down. -/
def strayed (P : Platform) (ev : MotionEvent) (v : View) : Bool :=
  (v.freePointers ev).any fun q =>
    match v.touchDownPos.lookup q.id with
    | some down => decide (15 ≤ distance P q down)
    | none => false

/-- The old centre gives way to the new one. -/
def passCenter (ev : MotionEvent) (v : View) : View × (ℚ × ℚ) :=
  ({ v with
      twoFingerLastCenterX := (v.computeFreeCenter ev).1
      twoFingerLastCenterY := (v.computeFreeCenter ev).2 },
    ((v.computeFreeCenter ev).1 - v.twoFingerLastCenterX,
      (v.computeFreeCenter ev).2 - v.twoFingerLastCenterY))

theorem moveCenter_eq (P : Platform) (ev : MotionEvent) (v : View) :
    v.moveCenter P ev =
      (if v.strayed P ev then v.cancelHoldDetector else v).passCenter ev :=
  rfl

theorem passCenter_apart (h : (v.apart p m s).freePointers ev' = v.freePointers ev)
    (hne : v.freePointers ev ≠ []) :
    (v.apart p m s).passCenter ev' =
      ((v.passCenter ev).1.apart p m s, (v.passCenter ev).2) := by
  rw [passCenter, passCenter, computeFreeCenter_congr h hne]
  rfl

theorem moveCenter_apart (h : (v.apart p m s).freePointers ev' = v.freePointers ev)
    (hne : v.freePointers ev ≠ []) (P : Platform) :
    (v.apart p m s).moveCenter P ev' =
      ((v.moveCenter P ev).1.apart p m s, (v.moveCenter P ev).2) := by
  have hstrayed : (v.apart p m s).strayed P ev' = v.strayed P ev := by
    rw [strayed, strayed, h]
    rfl
  rw [moveCenter_eq, moveCenter_eq, hstrayed]
  cases v.strayed P ev with
  | false => exact passCenter_apart h hne
  | true => exact passCenter_apart (v := v.cancelHoldDetector) h hne

theorem scrollVertical_apart :
    (v.apart p m s).scrollVertical = (v.scrollVertical.1.apart p m s, v.scrollVertical.2) := by
  unfold scrollVertical apart
  dsimp only
  split_ifs <;> rfl

theorem scrollHorizontal_apart :
    (v.apart p m s).scrollHorizontal =
      (v.scrollHorizontal.1.apart p m s, v.scrollHorizontal.2) := by
  unfold scrollHorizontal apart
  dsimp only
  split_ifs <;> rfl

theorem accumulateScroll_apart (d : ℚ × ℚ) :
    (v.apart p m s).accumulateScroll d = (v.accumulateScroll d).apart p m s := rfl

theorem moveTwoFingers_apart (h : (v.apart p m s).freePointers ev' = v.freePointers ev)
    (hne : v.freePointers ev ≠ []) (P : Platform) :
    (v.apart p m s).moveTwoFingers P ev' =
      ((v.moveTwoFingers P ev).1.apart p m s, (v.moveTwoFingers P ev).2) := by
  unfold moveTwoFingers
  rw [moveCenter_apart h hne]
  dsimp only
  rw [accumulateScroll_apart, scrollVertical_apart, scrollHorizontal_apart]
  by_cases hthird : 2 < v.freePointerCount
  · have hthird' : 2 < (v.apart p m s).freePointerCount := hthird
    rw [if_pos hthird, if_pos hthird']
    rfl
  · have hthird' : ¬ 2 < (v.apart p m s).freePointerCount := hthird
    rw [if_neg hthird, if_neg hthird']

theorem moveOneFinger_apart (h : (v.apart p m s).freePointers ev' = v.freePointers ev)
    (P : Platform) :
    (v.apart p m s).moveOneFinger P ev' =
      ((v.moveOneFinger P ev).1.apart p m s, (v.moveOneFinger P ev).2) := by
  unfold moveOneFinger
  rw [h]
  have hmouse : (v.apart p m s).mousePointerId = v.mousePointerId := rfl
  rw [hmouse]
  cases (v.freePointers ev).find? fun q => (q.id : ℤ) = v.mousePointerId with
  | none => rfl
  | some q =>
    refine Prod.ext ?_ rfl
    unfold apart cancelHoldDetector
    dsimp only
    split_ifs <;> rfl

/-- The free pointers move in both. -/
theorem moveFreePointers_apart (h : (v.apart p m s).freePointers ev' = v.freePointers ev)
    (hne : v.freePointers ev ≠ []) (P : Platform) :
    (v.apart p m s).moveFreePointers P ev' =
      ((v.moveFreePointers P ev).1.apart p m s, (v.moveFreePointers P ev).2) := by
  have hentries : (v.countFreePointers ev).freePointers ev = v.freePointers ev := by
    rw [freePointers, freePointers, (moved_countFreePointers ev v).pointerOnElement]
  have h' : ((v.countFreePointers ev).apart p m s).freePointers ev' =
      (v.countFreePointers ev).freePointers ev := h.trans hentries.symm
  have hne' : (v.countFreePointers ev).freePointers ev ≠ [] := hentries ▸ hne
  unfold moveFreePointers
  rw [countFreePointers_apart h hne]
  dsimp only
  rw [moveTwoFingers_apart h' hne', moveOneFinger_apart h']
  generalize v.countFreePointers ev = w
  unfold apart
  dsimp only
  split_ifs <;> rfl

/-- A pointer that goes up is no more on the cursor. -/
def leaveCursor (id : ℕ) (v : View) : View :=
  if (id : ℤ) = v.mousePointerId then { v with mousePointerId := -1 } else v

/-- A free pointer that goes up is counted out, and it may be a tap. -/
def countOut (P : Platform) (ev : MotionEvent) (v : View) : View :=
  if (v.pointerOnElement.lookup ev.actionPointer.id).getD false then v
  else
    { v with
      freePointerCount := max 0 (v.freePointerCount - 1)
      tapCount :=
        if P.touchGestures = false ∧ v.twoFingerScrollActive = false ∧
            v.rightButtonHeld = false ∧ v.leftButtonHeld = false ∧ v.isTap P ev = true then
          v.tapCount + 1
        else v.tapCount }

/-- The entries of a pointer are removed. -/
def forget (id : ℕ) (v : View) : View :=
  { v with
    pointerOnElement := v.pointerOnElement.erase id
    touchDownPos := v.touchDownPos.erase id
    touchDownTime := v.touchDownTime.erase id }

theorem removePointer_eq (P : Platform) (ev : MotionEvent) (v : View) :
    v.removePointer P ev =
      ((v.leaveCursor ev.actionPointer.id).countOut P ev).forget ev.actionPointer.id :=
  rfl

theorem leaveCursor_apart (id : ℕ) :
    (v.apart p m s).leaveCursor id = (v.leaveCursor id).apart p m s := by
  unfold leaveCursor apart
  dsimp only
  split_ifs
  · rfl
  · rfl

theorem countOut_apart (haction : ev'.actionPointer = ev.actionPointer)
    (hlookup : m.lookup ev.actionPointer.id = v.pointerOnElement.lookup ev.actionPointer.id)
    (hfind : (ev'.pointers.find? fun q => q.id = ev.actionPointer.id) =
      ev.pointers.find? fun q => q.id = ev.actionPointer.id) (P : Platform) :
    (v.apart p m s).countOut P ev' = (v.countOut P ev).apart p m s := by
  have htap : (v.apart p m s).isTap P ev' = v.isTap P ev := by
    rw [isTap, isTap, haction, hfind]
    rfl
  have hentry : (v.apart p m s).pointerOnElement.lookup ev.actionPointer.id =
      v.pointerOnElement.lookup ev.actionPointer.id := hlookup
  rw [countOut, countOut, haction, htap, hentry]
  by_cases hon : (v.pointerOnElement.lookup ev.actionPointer.id).getD false = true
  · rw [if_pos hon, if_pos hon]
  · rw [if_neg hon, if_neg hon]
    rfl

/-- A free pointer goes up in both. -/
theorem removePointer_apart (haction : ev'.actionPointer = ev.actionPointer)
    (hlookup : m.lookup ev.actionPointer.id = v.pointerOnElement.lookup ev.actionPointer.id)
    (hfind : (ev'.pointers.find? fun q => q.id = ev.actionPointer.id) =
      ev.pointers.find? fun q => q.id = ev.actionPointer.id) (P : Platform) :
    (v.apart p m s).removePointer P ev' =
      (v.removePointer P ev).apart p (m.erase ev.actionPointer.id) s := by
  have hentries : (v.leaveCursor ev.actionPointer.id).pointerOnElement = v.pointerOnElement := by
    unfold leaveCursor
    split_ifs
    · rfl
    · rfl
  rw [removePointer_eq, removePointer_eq, haction, leaveCursor_apart,
    countOut_apart haction (by rw [hentries, hlookup]) hfind]
  rfl

theorem allPointersReleased_apart (P : Platform) :
    (v.apart p m s).allPointersReleased P =
      ((v.allPointersReleased P).1.apart p ∅ s, (v.allPointersReleased P).2) := rfl

/-- The hold detector runs in both. -/
theorem runHoldDetector_apart (P : Platform) :
    (v.apart p m s).runHoldDetector P =
      ((v.runHoldDetector P).1.apart p m s, (v.runHoldDetector P).2) := by
  unfold runHoldDetector apart
  dsimp only
  split_ifs <;> rfl

end

/-- `w` is `v` but for the elements, which are in the same places and have no pointer, for the
pointers that they took and for what was sent. -/
structure Twin (v w : View) : Prop where
  apart : w = v.apart w.profile w.pointerOnElement w.sent
  profile : w.profile.isSome = v.profile.isSome
  free : ∀ id, w.pointerOnElement.lookup id = some false ↔
    v.pointerOnElement.lookup id = some false
  idle : Idle w.elements
  boxes : boxes v.size.snappingSize w.elements = boxes v.size.snappingSize v.elements

section

variable {v v' w : View} {ev ev' : MotionEvent} {p : Option Profile} {m : SparseArray Bool}
  {s : Calls}

theorem Twin.exists_apart (h : Twin v w) : ∃ p m s, w = v.apart p m s := ⟨_, _, _, h.apart⟩

theorem Twin.playing (h : Twin v w) : w.Playing ↔ v.Playing := by
  have hprofile := h.profile
  obtain ⟨p, m, s, rfl⟩ := h.exists_apart
  rw [Playing, Playing, hprofile]
  rfl

/-- What is sent makes no difference. -/
theorem Twin.deliver (h : Twin v w) (u u' : View) (cs cs' : Calls) :
    Twin (u.deliver (v, cs)) (u'.deliver (w, cs')) := by
  have hprofile := h.profile
  have hfree := h.free
  have hidle := h.idle
  have hboxes := h.boxes
  obtain ⟨p, m, s, rfl⟩ := h.exists_apart
  exact ⟨rfl, hprofile, hfree, hidle, hboxes⟩

theorem Twin.deliver_left (h : Twin v w) (u : View) (cs : Calls) : Twin (u.deliver (v, cs)) w := by
  have hprofile := h.profile
  have hfree := h.free
  have hidle := h.idle
  have hboxes := h.boxes
  obtain ⟨p, m, s, rfl⟩ := h.exists_apart
  exact ⟨rfl, hprofile, hfree, hidle, hboxes⟩

/-- What leaves the elements alone. -/
theorem Twin.of_profile (h : Twin v (v.apart p m s)) {m' : SparseArray Bool}
    (hprofile : v'.profile = v.profile) (hsize : v'.size = v.size)
    (hfree : ∀ id, m'.lookup id = some false ↔ v'.pointerOnElement.lookup id = some false) :
    Twin v' (v'.apart p m' s) := by
  refine ⟨rfl, ?_, hfree, h.idle, ?_⟩
  · rw [hprofile]
    exact h.profile
  · have helements : v'.elements = v.elements := by rw [elements, elements, hprofile]
    rw [hsize, helements]
    exact h.boxes

theorem Twin.withElements (h : Twin v w) (hp : v.profile.isSome = true) {es es' : List Element}
    (hes : VirtualKeys.boxes v.size.snappingSize es =
      VirtualKeys.boxes v.size.snappingSize v.elements)
    (hes' : VirtualKeys.boxes v.size.snappingSize es' =
      VirtualKeys.boxes v.size.snappingSize w.elements) (hidle : Idle es') :
    Twin (v.withElements es) (w.withElements es') := by
  have helements : (v.withElements es).elements = es := elements_withElements hp es
  have helements' : (w.withElements es').elements = es' :=
    elements_withElements (h.profile.trans hp) es'
  have hprofile := h.profile
  have hfree := h.free
  have hboxes := h.boxes
  obtain ⟨p, m, s, rfl⟩ := h.exists_apart
  refine ⟨rfl, ?_, hfree, ?_, ?_⟩
  · rw [(frame_withElements _ es').profile, (frame_withElements v es).profile, hprofile]
  · rw [helements']
    exact hidle
  · rw [helements', helements]
    exact hes'.trans (hboxes.trans hes.symm)

/-- The elements of the one are handled, those of the other are not. -/
theorem Twin.withElements_left (h : Twin v w) (hp : v.profile.isSome = true) {es : List Element}
    (hes : VirtualKeys.boxes v.size.snappingSize es =
      VirtualKeys.boxes v.size.snappingSize v.elements) : Twin (v.withElements es) w := by
  have helements : (v.withElements es).elements = es := elements_withElements hp es
  have hprofile := h.profile
  have hfree := h.free
  have hidle := h.idle
  have hboxes := h.boxes
  obtain ⟨p, m, s, rfl⟩ := h.exists_apart
  refine ⟨rfl, ?_, hfree, hidle, ?_⟩
  · rw [(frame_withElements v es).profile, hprofile]
  · rw [helements]
    exact hboxes.trans hes.symm

/-- A free pointer is put down in both. -/
theorem Twin.enter (h : Twin v w) (id : ℕ) : Twin (v.enter id false) (w.enter id false) := by
  have hfree := h.free
  obtain ⟨p, m, s, rfl⟩ := h.exists_apart
  refine h.of_profile rfl rfl fun id' => ?_
  show (m.insert id false).lookup id' = some false ↔
    (v.pointerOnElement.insert id false).lookup id' = some false
  by_cases heq : id' = id
  · rw [heq, AList.lookup_insert, AList.lookup_insert]
  · rw [AList.lookup_insert_ne heq, AList.lookup_insert_ne heq]
    exact hfree id'

/-- A pointer on an element is put down in the one. -/
theorem Twin.enter_left (h : Twin v w) {id : ℕ} (hnew : w.pointerOnElement.lookup id = none) :
    Twin (v.enter id true) w := by
  have hfree := h.free
  obtain ⟨p, m, s, rfl⟩ := h.exists_apart
  show Twin (v.enter id true) ((v.enter id true).apart p m s)
  refine h.of_profile rfl rfl fun id' => ?_
  show m.lookup id' = some false ↔ (v.pointerOnElement.insert id true).lookup id' = some false
  by_cases heq : id' = id
  · have hnone : m.lookup id = none := hnew
    rw [heq, hnone, AList.lookup_insert]
    simp
  · rw [AList.lookup_insert_ne heq]
    exact hfree id'

/-- The events tell both of the same free pointers. -/
theorem Twin.freePointers (h : Twin v w) (hps : ev'.pointers = v.freePointers ev) :
    w.freePointers ev' = v.freePointers ev := by
  rw [View.freePointers, hps]
  refine List.filter_eq_self.2 fun q hq => decide_eq_true ?_
  exact (h.free q.id).2 (of_decide_eq_true (List.mem_filter.1 hq).2)

theorem Twin.freePointerDown (h : Twin v w) (hps : ev'.pointers = v.freePointers ev)
    (hne : v.freePointers ev ≠ []) (haction : ev'.actionPointer = ev.actionPointer)
    (P : Platform) : Twin (v.freePointerDown P ev) (w.freePointerDown P ev') := by
  have hfree := h.free
  have hpointers := h.freePointers hps
  obtain ⟨p, m, s, rfl⟩ := h.exists_apart
  rw [freePointerDown_apart hpointers hne haction]
  refine h.of_profile (sameHeld_freePointerDown P ev v).profile (size_freePointerDown P ev v) ?_
  rw [(freePointerDown_spec P ev v).1]
  exact hfree

theorem Twin.moveFreePointers (h : Twin v w) (hps : ev'.pointers = v.freePointers ev)
    (hne : v.freePointers ev ≠ []) (hstill : v.twoFingerScrollActive = false ∧
      v.scrollAccumulatorX = 0 ∧ v.scrollAccumulatorY = 0) (P : Platform) :
    Twin (v.moveFreePointers P ev).1 (w.moveFreePointers P ev').1 ∧
      (w.moveFreePointers P ev').2 = (v.moveFreePointers P ev).2 := by
  have hfree := h.free
  have hpointers := h.freePointers hps
  obtain ⟨p, m, s, rfl⟩ := h.exists_apart
  rw [moveFreePointers_apart hpointers hne]
  refine ⟨h.of_profile (sameHeld_moveFreePointers P ev v).1.profile (size_moveFreePointers P ev v)
    ?_, rfl⟩
  rw [(moveFreePointers_still P ev hstill).1.pointerOnElement]
  exact hfree

theorem Twin.cancelHoldDetector (h : Twin v w) :
    Twin v.cancelHoldDetector w.cancelHoldDetector := by
  have hfree := h.free
  obtain ⟨p, m, s, rfl⟩ := h.exists_apart
  exact h.of_profile rfl rfl hfree

theorem Twin.removePointer (h : Twin v w) (haction : ev'.actionPointer = ev.actionPointer)
    (hlookup : v.pointerOnElement.lookup ev.actionPointer.id = some false)
    (hfind : (ev'.pointers.find? fun q => q.id = ev.actionPointer.id) =
      ev.pointers.find? fun q => q.id = ev.actionPointer.id) (P : Platform) :
    Twin (v.removePointer P ev) (w.removePointer P ev') := by
  have hfree := h.free
  obtain ⟨p, m, s, rfl⟩ := h.exists_apart
  have hm : m.lookup ev.actionPointer.id = some false := (hfree _).2 hlookup
  rw [removePointer_apart haction (hm.trans hlookup.symm) hfind]
  refine h.of_profile (sameHeld_removePointer P ev v).profile (size_removePointer P ev v)
    fun id => ?_
  rw [(removePointer_spec P ev v).1]
  by_cases heq : id = ev.actionPointer.id
  · rw [heq, AList.lookup_erase, AList.lookup_erase]
  · rw [AList.lookup_erase_ne heq, AList.lookup_erase_ne heq]
    exact hfree id

theorem Twin.allPointersReleased (h : Twin v w) (P : Platform) :
    Twin (v.allPointersReleased P).1 (w.allPointersReleased P).1 ∧
      (w.allPointersReleased P).2 = (v.allPointersReleased P).2 := by
  obtain ⟨p, m, s, rfl⟩ := h.exists_apart
  rw [allPointersReleased_apart]
  exact ⟨h.of_profile rfl rfl fun id => Iff.rfl, rfl⟩

theorem Twin.runHoldDetector (h : Twin v w) (P : Platform) :
    Twin (v.runHoldDetector P).1 (w.runHoldDetector P).1 ∧
      (w.runHoldDetector P).2 = (v.runHoldDetector P).2 := by
  have hfree := h.free
  obtain ⟨p, m, s, rfl⟩ := h.exists_apart
  rw [runHoldDetector_apart]
  refine ⟨?_, rfl⟩
  obtain ⟨l, r, heq⟩ := runHoldDetector_fst P v
  rw [heq]
  exact h.of_profile rfl rfl hfree

/-- Other entries with the same free pointers. -/
theorem Twin.entries_left (h : Twin v w) {m : SparseArray Bool}
    (hfree : ∀ id, w.pointerOnElement.lookup id = some false ↔ m.lookup id = some false) :
    Twin (v.apart v.profile m v.sent) w := by
  obtain ⟨p, m', s, rfl⟩ := h.exists_apart
  show Twin (v.apart v.profile m v.sent) ((v.apart v.profile m v.sent).apart p m' s)
  exact h.of_profile rfl rfl hfree

theorem Twin.of_entries {m : SparseArray Bool} (h : Twin (v.apart v.profile m v.sent) w)
    (hfree : ∀ id, m.lookup id = some false ↔ v.pointerOnElement.lookup id = some false) :
    Twin v w := by
  have hfree' := h.free
  obtain ⟨p, m', s, rfl⟩ := h.exists_apart
  show Twin v (v.apart p m' s)
  exact h.of_profile rfl rfl fun id => (hfree' id).trans (hfree id)

end

/-! ### A pointer goes up -/

section

variable {v w : View} {down : List ℕ} {P : Platform} {ev ev' : MotionEvent}

theorem eq_empty_of_lookup {α : Type} {m : SparseArray α}
    (h : ∀ id, ¬ (m.lookup id).isSome = true) : m = ∅ := by
  refine AList.ext ?_
  cases hentries : m.entries with
  | nil => rfl
  | cons a l =>
    refine absurd (AList.lookup_isSome.2 ?_) (h a.1)
    rw [AList.mem_keys, AList.keys, hentries]
    exact List.mem_cons_self

theorem erase_eq_self {α : Type} {m : SparseArray α} {id : ℕ} (h : ¬ (m.lookup id).isSome = true) :
    m.erase id = m := by
  refine AList.ext (List.kerase_of_notMem_keys ?_)
  rw [AList.lookup_isSome, AList.mem_keys] at h
  exact h

/-- A pointer on an element leaves the books of the free ones alone. -/
theorem removePointer_taken (h : v.Tracks down)
    (hlookup : v.pointerOnElement.lookup ev.actionPointer.id = some true) (P : Platform) :
    v.removePointer P ev =
      v.apart v.profile (v.pointerOnElement.erase ev.actionPointer.id) v.sent := by
  have hnot : ev.actionPointer.id ∉ v.freeIds down := by
    rw [mem_freeIds, hlookup]
    simp
  have hmouse : ¬ (ev.actionPointer.id : ℤ) = v.mousePointerId := by
    intro heq
    rcases h.mouse with hm | ⟨id, hid, hm⟩
    · omega
    · rw [hm, Int.natCast_inj] at heq
      exact hnot (heq ▸ hid)
  have hleave : v.leaveCursor ev.actionPointer.id = v := if_neg hmouse
  have hcount : v.countOut P ev = v := by
    rw [countOut, hlookup]
    rfl
  rw [removePointer_eq, hleave, hcount, forget, erase_eq_self fun hs => hnot ((h.pos _).1 hs),
    erase_eq_self fun hs => hnot ((h.time _).1 hs)]
  rfl

/-- Without free pointers, and with nothing held and no tap, the end of a gesture clears the
entries only. -/
theorem allPointersReleased_rest (h : v.Tracks down) (hnil : v.freeIds down = [])
    (hrest : v.leftButtonHeld = false ∧ v.rightButtonHeld = false ∧ v.tapCount = 0)
    (P : Platform) : v.allPointersReleased P = (v.apart v.profile ∅ v.sent, []) := by
  have hcount : v.freePointerCount = 0 := by rw [h.count, hnil]; rfl
  have hmouse := h.mouse_of_nil hnil
  have hpos : v.touchDownPos = ∅ := eq_empty_of_lookup fun id hid => by
    have hmem := (h.pos id).1 hid
    rw [hnil] at hmem
    cases hmem
  have htime : v.touchDownTime = ∅ := eq_empty_of_lookup fun id hid => by
    have hmem := (h.time id).1 hid
    rw [hnil] at hmem
    cases hmem
  obtain ⟨hactive, hX, hY⟩ := h.still
  obtain ⟨hl, hr, ht⟩ := hrest
  refine Prod.ext ?_ ?_
  · simp only [allPointersReleased, apart]
    rw [hl, hr, ht, hcount, hmouse, hpos, htime, hactive, hX, hY]
  · simp [allPointersReleased, hl, hr, ht]

/-- The end of a gesture does not ask for the pointer that was the last. -/
theorem released_removePointer (P : Platform) (ev : MotionEvent) (v : View) :
    ((v.removePointer P ev).allPointersReleased P).1 = (v.allPointersReleased P).1 := by
  unfold removePointer allPointersReleased
  dsimp only
  split_ifs <;> rfl

/-- What the end of a gesture sends. -/
theorem clicks_congr (hl : w.leftButtonHeld = v.leftButtonHeld)
    (hr : w.rightButtonHeld = v.rightButtonHeld)
    (hactive : w.twoFingerScrollActive = v.twoFingerScrollActive)
    (htaps : w.tapCount = v.tapCount ∨ (2 ≤ w.tapCount ∧ 2 ≤ v.tapCount)) (P : Platform) :
    (w.allPointersReleased P).2 = (v.allPointersReleased P).2 := by
  simp only [allPointersReleased]
  rw [hl, hr, hactive]
  rcases htaps with heq | ⟨hw, hv⟩
  · rw [heq]
  · rw [if_neg (show ¬ w.tapCount = 1 by omega), if_neg (show ¬ v.tapCount = 1 by omega),
      if_pos hw, if_pos hv]

theorem Twin.isTap (h : Twin v w) (P : Platform) (ev : MotionEvent) :
    w.isTap P ev = v.isTap P ev := by
  obtain ⟨p, m, s, rfl⟩ := h.exists_apart
  rfl

/-- The elements are told of a pointer that goes up. -/
theorem Twin.handleTouchUp (h : Twin v w) (hp : v.profile.isSome = true) (pid pid' : ℕ)
    (P : Platform) :
    Twin (v.cancelHoldDetector.withElements
        (forElements (fun e => e.handleTouchUp (v.host P) pid) v.elements).1)
      (w.cancelHoldDetector.withElements
        (forElements (fun e => e.handleTouchUp (w.host P) pid') w.elements).1) := by
  have hboxes : VirtualKeys.boxes (v.host P).snappingSize
      (forElements (fun e => e.handleTouchUp (v.host P) pid) v.elements).1 =
      VirtualKeys.boxes (v.host P).snappingSize v.elements :=
    boxes_forElements fun e => Element.getBoundingBox_handleTouchUp _ e pid
  rw [h.idle.handleTouchUp (w.host P) pid']
  exact h.cancelHoldDetector.withElements hp hboxes rfl h.idle

/-- A free pointer goes up. -/
theorem Twin.afterUp (h : Twin v w) (hp : v.profile.isSome = true)
    (haction : ev'.actionPointer = ev.actionPointer)
    (hlookup : v.pointerOnElement.lookup ev.actionPointer.id = some false)
    (hps : ev'.pointers = v.freePointers ev) (P : Platform) :
    Twin (v.afterUp P ev) (w.afterUp P ev') := by
  have hfind : (ev'.pointers.find? fun q => q.id = ev.actionPointer.id) =
      ev.pointers.find? fun q => q.id = ev.actionPointer.id := by
    rw [hps, View.freePointers, List.find?_filter]
    refine congrArg (fun f => List.find? f ev.pointers) (funext fun q => ?_)
    by_cases hq : q.id = ev.actionPointer.id
    · have hq' : v.pointerOnElement.lookup q.id = some false := hq ▸ hlookup
      simp [hq']
    · simp [hq]
  exact (h.handleTouchUp hp _ _ P).removePointer haction hlookup hfind P

/-- A pointer leaves an element while no hold is waited for. -/
theorem afterUp_taken (h : v.Tracks down) (hposted : v.holdDetectorPosted = false)
    (hlookup : v.pointerOnElement.lookup ev.actionPointer.id = some true) (P : Platform) :
    ∃ es : List Element,
      VirtualKeys.boxes v.size.snappingSize es =
        VirtualKeys.boxes v.size.snappingSize v.elements ∧
      v.afterUp P ev = (v.withElements es).apart (v.withElements es).profile
        (v.pointerOnElement.erase ev.actionPointer.id) v.sent := by
  have hboxes : VirtualKeys.boxes (v.host P).snappingSize
      (forElements (fun e => e.handleTouchUp (v.host P) ev.actionPointer.id) v.elements).1 =
      VirtualKeys.boxes (v.host P).snappingSize v.elements :=
    boxes_forElements fun e => Element.getBoundingBox_handleTouchUp _ e _
  have hidle : v.cancelHoldDetector = v := by rw [cancelHoldDetector, ← hposted]
  refine ⟨_, hboxes, ?_⟩
  rw [View.afterUp, hidle,
    removePointer_taken (h.congr (sameFingers_withElements _ v)) hlookup]
  rfl

/-- A pointer leaves an element, and others stay down. -/
theorem Twin.afterUp_left (h : Twin v w) (hp : v.profile.isSome = true) (htracks : v.Tracks down)
    (hposted : v.holdDetectorPosted = false)
    (hlookup : v.pointerOnElement.lookup ev.actionPointer.id = some true) (P : Platform) :
    Twin (v.afterUp P ev) w := by
  obtain ⟨es, hboxes, heq⟩ := afterUp_taken htracks hposted hlookup P
  rw [heq]
  refine (h.withElements_left hp hboxes).entries_left fun id => ?_
  rw [h.free id]
  by_cases hid : id = ev.actionPointer.id
  · rw [hid, hlookup, AList.lookup_erase]
    simp
  · rw [AList.lookup_erase_ne hid]

theorem twoFingerScrollActive_afterUp (P : Platform) (ev : MotionEvent) (v : View) :
    (v.afterUp P ev).twoFingerScrollActive = v.twoFingerScrollActive :=
  (removePointer_spec P ev _).2.2.2.2.2.1

/-- A pointer on an element is no tap. -/
theorem tapCount_afterUp_taken
    (hlookup : v.pointerOnElement.lookup ev.actionPointer.id = some true) (P : Platform) :
    (v.afterUp P ev).tapCount = v.tapCount := by
  have hentry : ((v.cancelHoldDetector.withElements (forElements (fun e =>
      e.handleTouchUp (v.host P) ev.actionPointer.id) v.elements).1).pointerOnElement.lookup
      ev.actionPointer.id).getD false = true := by
    show (v.pointerOnElement.lookup ev.actionPointer.id).getD false = true
    rw [hlookup]
    rfl
  rw [View.afterUp, tapCount_removePointer, if_pos hentry]
  rfl

/-- A tap is counted when the pointer of the event goes up. -/
def CountsTap (P : Platform) (ev : MotionEvent) (v : View) : Prop :=
  P.touchGestures = false ∧ v.rightButtonHeld = false ∧ v.leftButtonHeld = false ∧
    v.isTap P ev = true

instance (P : Platform) (ev : MotionEvent) (v : View) : Decidable (v.CountsTap P ev) :=
  inferInstanceAs (Decidable (_ ∧ _ ∧ _ ∧ _))

theorem tapCount_afterUp_free
    (hlookup : v.pointerOnElement.lookup ev.actionPointer.id = some false)
    (P : Platform) :
    (v.afterUp P ev).tapCount = v.tapCount ∨
      v.CountsTap P ev ∧ (v.afterUp P ev).tapCount = v.tapCount + 1 := by
  have hentry : ¬ ((v.cancelHoldDetector.withElements (forElements (fun e =>
      e.handleTouchUp (v.host P) ev.actionPointer.id) v.elements).1).pointerOnElement.lookup
      ev.actionPointer.id).getD false = true := by
    show ¬ (v.pointerOnElement.lookup ev.actionPointer.id).getD false = true
    rw [hlookup]
    simp
  rw [View.afterUp, tapCount_removePointer, if_neg hentry]
  split_ifs with hcounts
  · exact Or.inr ⟨⟨hcounts.1, hcounts.2.2⟩, rfl⟩
  · exact Or.inl rfl

theorem Twin.taps (h : Twin v w) :
    w.leftButtonHeld = v.leftButtonHeld ∧ w.rightButtonHeld = v.rightButtonHeld ∧
      w.twoFingerScrollActive = v.twoFingerScrollActive ∧ w.tapCount = v.tapCount := by
  obtain ⟨p, m, s, rfl⟩ := h.exists_apart
  exact ⟨rfl, rfl, rfl, rfl⟩

theorem Twin.countsTap (h : Twin v w) : w.CountsTap P ev ↔ v.CountsTap P ev := by
  obtain ⟨hl, hr, -⟩ := h.taps
  rw [CountsTap, CountsTap, hl, hr, h.isTap]

/-- The last pointer leaves an element, and the free ones are gone. -/
theorem Twin.released_left (h : Twin v w) (htracks : v.Tracks down) (hnodup : down.Nodup)
    (hplay : v.Playing) (hid : ev.actionPointer.id ∈ down) (hnil : v.freeIds down = [])
    (hrest : v.leftButtonHeld = false ∧ v.rightButtonHeld = false ∧ v.tapCount = 0)
    (P : Platform) :
    Twin ((v.afterUp P ev).allPointersReleased P).1 w ∧
      ((v.afterUp P ev).allPointersReleased P).2 = [] := by
  have hposted : v.holdDetectorPosted = false := by
    cases hposted : v.holdDetectorPosted with
    | false => rfl
    | true => exact absurd hnil (htracks.posted hposted)
  have hnone := htracks.lookup_of_nil hnil
  have hlookup : v.pointerOnElement.lookup ev.actionPointer.id = some true := by
    obtain ⟨taken, htaken⟩ := Option.isSome_iff_exists.1 ((htracks.entries _).2 ⟨hplay, hid⟩)
    cases taken with
    | true => exact htaken
    | false => exact absurd htaken (hnone _)
  have htouched := touched_afterUp P ev hplay.2.1
  have hafter := tracks_afterUp htracks hnodup hplay hid P
  have hentries : (v.afterUp P ev).pointerOnElement =
      v.pointerOnElement.erase ev.actionPointer.id := (removePointer_spec P ev _).1
  have hnil' : (v.afterUp P ev).freeIds (down.erase ev.actionPointer.id) = [] := by
    rw [freeIds_erase hnodup hentries, hnil]
    rfl
  rw [allPointersReleased_rest hafter hnil' ⟨htouched.leftButtonHeld.trans hrest.1,
    htouched.rightButtonHeld.trans hrest.2.1, (tapCount_afterUp_taken hlookup P).trans hrest.2.2⟩]
  refine ⟨(h.afterUp_left hplay.2.1 htracks hposted hlookup P).entries_left fun id => ?_, rfl⟩
  rw [h.free id]
  exact iff_of_false (hnone id) (by simp)

/-- The last free pointer goes up and leaves nothing to be done. -/
theorem Twin.released_right (h : Twin v w) (htracks : v.Tracks down) (hnil : v.freeIds down = [])
    (hrest : v.leftButtonHeld = false ∧ v.rightButtonHeld = false ∧ v.tapCount = 0)
    (P : Platform) :
    Twin v (w.allPointersReleased P).1 ∧ (w.allPointersReleased P).2 = [] := by
  obtain ⟨htwin, hcalls⟩ := h.allPointersReleased P
  rw [allPointersReleased_rest htracks hnil hrest] at htwin hcalls
  exact ⟨htwin.of_entries fun id => iff_of_false (by simp) (htracks.lookup_of_nil hnil id), hcalls⟩

end

end View

end TermuxX11.VirtualKeys
