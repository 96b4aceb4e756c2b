import TermuxX11.VirtualKeys.Senders

/-!
# The free pointers

The view keeps books about the pointers that no element took: how many they are, where they went
down, which of them is on the cursor.  `Tracks` says what the books have to do with the pointers
that are down.  It holds throughout well-formed gestures (`tracked_exec`); the count goes up and
down with the pointers and is counted afresh by every `ACTION_MOVE`, and both agree.

The books also say that nothing is ever scrolled: `twoFingerScrollActive` stays `false`, and as
long as it does every `ACTION_MOVE` with two free pointers empties the accumulators before it adds
a displacement, which is zero, as the centre has just been moved on.
-/

namespace TermuxX11.VirtualKeys

open Ledger Run

namespace View

/-- Touch events reach the elements and the free pointers. -/
def Playing (v : View) : Prop :=
  v.editMode = false ∧ v.profile.isSome = true ∧ v.showTouchscreenControls = true

/-- The pointers that are down and that no element took. -/
def freeIds (down : List ℕ) (v : View) : List ℕ :=
  down.filter fun id => v.pointerOnElement.lookup id = some false

/-- No pointer has touched the view, or all have left it. -/
structure Untouched (v : View) : Prop where
  mousePointerId : v.mousePointerId = -1
  touchDownPos : v.touchDownPos = ∅
  touchDownTime : v.touchDownTime = ∅
  pointerOnElement : v.pointerOnElement = ∅
  freePointerCount : v.freePointerCount = 0
  twoFingerScrollActive : v.twoFingerScrollActive = false
  tapCount : v.tapCount = 0
  scrollAccumulator : v.scrollAccumulatorX = 0 ∧ v.scrollAccumulatorY = 0
  held : v.leftButtonHeld = false ∧ v.rightButtonHeld = false
  holdDetectorPosted : v.holdDetectorPosted = false

/-- What the books say about the pointers that are down. -/
structure Tracks (down : List ℕ) (v : View) : Prop where
  entries : ∀ id, (v.pointerOnElement.lookup id).isSome = true ↔ v.Playing ∧ id ∈ down
  count : v.freePointerCount = (v.freeIds down).length
  mouse : v.mousePointerId = -1 ∨ ∃ id ∈ v.freeIds down, v.mousePointerId = (id : ℕ)
  pos : ∀ id, (v.touchDownPos.lookup id).isSome = true ↔ id ∈ v.freeIds down
  time : ∀ id, (v.touchDownTime.lookup id).isSome = true ↔ id ∈ v.freeIds down
  still : v.twoFingerScrollActive = false ∧ v.scrollAccumulatorX = 0 ∧ v.scrollAccumulatorY = 0
  posted : v.holdDetectorPosted = true → v.freeIds down ≠ []
  taps : 0 ≤ v.tapCount

/-- The books of two views are the same. -/
structure SameFingers (v v' : View) : Prop where
  playing : v'.Playing ↔ v.Playing
  pointerOnElement : v'.pointerOnElement = v.pointerOnElement
  touchDownPos : v'.touchDownPos = v.touchDownPos
  touchDownTime : v'.touchDownTime = v.touchDownTime
  mousePointerId : v'.mousePointerId = v.mousePointerId
  mouseLast : v'.mouseLastX = v.mouseLastX ∧ v'.mouseLastY = v.mouseLastY
  freePointerCount : v'.freePointerCount = v.freePointerCount
  still : v'.twoFingerScrollActive = v.twoFingerScrollActive ∧
    v'.scrollAccumulatorX = v.scrollAccumulatorX ∧ v'.scrollAccumulatorY = v.scrollAccumulatorY
  tapCount : v'.tapCount = v.tapCount
  held : v'.leftButtonHeld = v.leftButtonHeld ∧ v'.rightButtonHeld = v.rightButtonHeld
  holdDetectorPosted : v'.holdDetectorPosted = v.holdDetectorPosted

theorem Frame.playing {v v' : View} (h : Frame v v') : v'.Playing ↔ v.Playing := by
  rw [Playing, Playing, h.editMode, h.profile, h.showTouchscreenControls]

variable {v v' : View} {down : List ℕ} {P : Platform} {ev : MotionEvent}

theorem mem_freeIds {id : ℕ} :
    id ∈ v.freeIds down ↔ id ∈ down ∧ v.pointerOnElement.lookup id = some false := by
  simp [freeIds]

theorem SameFingers.freeIds (h : SameFingers v v') (down : List ℕ) :
    v'.freeIds down = v.freeIds down := by
  rw [View.freeIds, View.freeIds, h.pointerOnElement]

theorem Tracks.congr (h : Tracks down v) (hsame : SameFingers v v') : Tracks down v' := by
  have hfree := hsame.freeIds down
  refine
    { entries := fun id => ?_
      count := ?_
      mouse := ?_
      pos := fun id => ?_
      time := fun id => ?_
      still := ?_
      posted := fun hp => ?_
      taps := ?_ }
  · rw [hsame.pointerOnElement, hsame.playing]
    exact h.entries id
  · rw [hsame.freePointerCount, hfree]
    exact h.count
  · rw [hsame.mousePointerId, hfree]
    exact h.mouse
  · rw [hsame.touchDownPos, hfree]
    exact h.pos id
  · rw [hsame.touchDownTime, hfree]
    exact h.time id
  · rw [hsame.still.1, hsame.still.2.1, hsame.still.2.2]
    exact h.still
  · rw [hfree]
    exact h.posted (hsame.holdDetectorPosted ▸ hp)
  · rw [hsame.tapCount]
    exact h.taps

/-- Without free pointers none is on the cursor. -/
theorem Tracks.mouse_of_nil (h : Tracks down v) (hnil : v.freeIds down = []) :
    v.mousePointerId = -1 := by
  rcases h.mouse with hm | ⟨id, hid, -⟩
  · exact hm
  · rw [hnil] at hid
    cases hid

theorem Tracks.lookup_of_nil (h : Tracks down v) (hnil : v.freeIds down = []) (id : ℕ) :
    v.pointerOnElement.lookup id ≠ some false := by
  intro hlookup
  have hmem : id ∈ v.freeIds down :=
    mem_freeIds.2 ⟨((h.entries id).1 (by rw [hlookup]; rfl)).2, hlookup⟩
  rw [hnil] at hmem
  cases hmem

theorem sameFingers_withElements (es : List Element) (v : View) :
    SameFingers v (v.withElements es) :=
  ⟨(frame_withElements v es).playing, rfl, rfl, rfl, rfl, ⟨rfl, rfl⟩, rfl, ⟨rfl, rfl, rfl⟩, rfl,
    ⟨rfl, rfl⟩, rfl⟩

theorem sameFingers_deliver (v : View) (r : View × Calls) : SameFingers r.1 (v.deliver r) :=
  ⟨Iff.rfl, rfl, rfl, rfl, rfl, ⟨rfl, rfl⟩, rfl, ⟨rfl, rfl, rfl⟩, rfl, ⟨rfl, rfl⟩, rfl⟩

theorem Untouched.tracks (h : v.Untouched) : Tracks [] v := by
  refine ⟨fun id => ?_, ?_, Or.inl h.mousePointerId, fun id => ?_, fun id => ?_, ?_, ?_, ?_⟩
  · simp [h.pointerOnElement]
  · simp [h.freePointerCount, freeIds]
  · simp [h.touchDownPos, freeIds]
  · simp [h.touchDownTime, freeIds]
  · exact ⟨h.twoFingerScrollActive, h.scrollAccumulator⟩
  · simp [h.holdDetectorPosted]
  · rw [h.tapCount]

/-! ### `ACTION_MOVE` -/

theorem freePointers_ids (v : View) (ev : MotionEvent) :
    (v.freePointers ev).map Pointer.id =
      ev.ids.filter fun id => v.pointerOnElement.lookup id = some false := by
  rw [freePointers, MotionEvent.ids, List.filter_map]
  rfl

/-- The fresh count is that of the pointers that are down. -/
theorem length_freePointers (hids : ev.ids.Perm down) :
    (v.freePointers ev).length = (v.freeIds down).length := by
  have hlength := congrArg List.length (freePointers_ids v ev)
  rw [List.length_map] at hlength
  rw [hlength]
  exact (hids.filter _).length_eq

/-- What `ACTION_MOVE` leaves alone, with the hold detector at most taken out of the queue. -/
structure Moved (v v' : View) : Prop where
  held : SameHeld v v'
  pointerOnElement : v'.pointerOnElement = v.pointerOnElement
  touchDownPos : v'.touchDownPos = v.touchDownPos
  touchDownTime : v'.touchDownTime = v.touchDownTime
  mousePointerId : v'.mousePointerId = v.mousePointerId
  tapCount : v'.tapCount = v.tapCount
  posted : v'.holdDetectorPosted = true → v.holdDetectorPosted = true

theorem Moved.trans {v'' : View} (h : Moved v v') (h' : Moved v' v'') : Moved v v'' :=
  ⟨h.held.trans h'.held, h'.pointerOnElement.trans h.pointerOnElement,
    h'.touchDownPos.trans h.touchDownPos, h'.touchDownTime.trans h.touchDownTime,
    h'.mousePointerId.trans h.mousePointerId, h'.tapCount.trans h.tapCount,
    fun hp => h.posted (h'.posted hp)⟩

theorem moved_refl (v : View) : Moved v v := ⟨SameHeld.refl v, rfl, rfl, rfl, rfl, rfl, id⟩

theorem moved_countFreePointers (ev : MotionEvent) (v : View) :
    Moved v (v.countFreePointers ev) := by
  have hheld := sameHeld_countFreePointers ev v
  revert hheld
  unfold countFreePointers
  dsimp only
  split_ifs <;> exact fun hheld => ⟨hheld, rfl, rfl, rfl, rfl, rfl, id⟩

theorem moved_moveCenter (P : Platform) (ev : MotionEvent) (v : View) :
    Moved v (v.moveCenter P ev).1 := by
  have hheld := sameHeld_moveCenter P ev v
  revert hheld
  unfold moveCenter cancelHoldDetector
  dsimp only
  split_ifs
  · exact fun hheld => ⟨hheld, rfl, rfl, rfl, rfl, rfl, fun h => by cases h⟩
  · exact fun hheld => ⟨hheld, rfl, rfl, rfl, rfl, rfl, id⟩

/-- The displacement of the centre, and what else `moveCenter` leaves alone. -/
theorem moveCenter_spec (P : Platform) (ev : MotionEvent) (v : View) :
    (v.moveCenter P ev).2 = v.computeFreeCenter ev -
        (v.twoFingerLastCenterX, v.twoFingerLastCenterY) ∧
      (v.moveCenter P ev).1.freePointerCount = v.freePointerCount ∧
      (v.moveCenter P ev).1.twoFingerScrollActive = v.twoFingerScrollActive ∧
      (v.moveCenter P ev).1.scrollAccumulatorX = v.scrollAccumulatorX ∧
      (v.moveCenter P ev).1.scrollAccumulatorY = v.scrollAccumulatorY := by
  unfold moveCenter cancelHoldDetector
  dsimp only
  split_ifs <;> exact ⟨rfl, rfl, rfl, rfl, rfl⟩

/-- The centre is where it was set, and the accumulators are empty unless a third finger is
down. -/
structure Centred (ev : MotionEvent) (v : View) : Prop where
  centre : v.freePointerCount ≤ 2 →
    v.computeFreeCenter ev = (v.twoFingerLastCenterX, v.twoFingerLastCenterY)
  empty : v.scrollAccumulatorX = 0 ∧ v.scrollAccumulatorY = 0

theorem scrollVertical_empty (h : v.scrollAccumulatorY = 0) : v.scrollVertical = (v, []) := by
  rw [scrollVertical, h, if_neg (by norm_num)]

theorem scrollHorizontal_empty (h : v.scrollAccumulatorX = 0) : v.scrollHorizontal = (v, []) := by
  rw [scrollHorizontal, h, if_neg (by norm_num)]

/-- With the centre set already, two fingers scroll nothing. -/
theorem moveTwoFingers_centred (P : Platform) (h : Centred ev v) :
    (v.moveTwoFingers P ev).2 = [] ∧ Moved v (v.moveTwoFingers P ev).1 ∧
      (v.moveTwoFingers P ev).1.freePointerCount = v.freePointerCount ∧
      (v.moveTwoFingers P ev).1.twoFingerScrollActive = v.twoFingerScrollActive ∧
      (v.moveTwoFingers P ev).1.scrollAccumulatorX = 0 ∧
      (v.moveTwoFingers P ev).1.scrollAccumulatorY = 0 := by
  have hmoved := moved_moveCenter P ev v
  obtain ⟨hdisp, hcount, hactive, hX, hY⟩ := moveCenter_spec P ev v
  rw [h.empty.1] at hX
  rw [h.empty.2] at hY
  by_cases hthird : 2 < v.freePointerCount
  · have heq : v.moveTwoFingers P ev =
        ({ (v.moveCenter P ev).1 with
            scrollAccumulatorX := 0, scrollAccumulatorY := 0 }.cancelHoldDetector, []) := by
      rw [moveTwoFingers]
      exact if_pos hthird
    rw [heq]
    refine ⟨rfl, hmoved.trans ?_, hcount, hactive, rfl, rfl⟩
    exact ⟨⟨rfl, rfl, rfl, ⟨rfl, rfl, rfl, rfl, rfl⟩⟩, rfl, rfl, rfl, rfl, rfl,
      fun h => by cases h⟩
  · rw [h.centre (not_lt.1 hthird), sub_self] at hdisp
    have hX' : ((v.moveCenter P ev).1.accumulateScroll 0).scrollAccumulatorX = 0 := by
      show _ + (0 : ℚ) = 0
      rw [hX, add_zero]
    have hY' : ((v.moveCenter P ev).1.accumulateScroll 0).scrollAccumulatorY = 0 := by
      show _ + (0 : ℚ) = 0
      rw [hY, add_zero]
    have heq : v.moveTwoFingers P ev = ((v.moveCenter P ev).1.accumulateScroll 0, []) := by
      rw [moveTwoFingers]
      dsimp only
      rw [if_neg hthird, hdisp, scrollVertical_empty hY']
      dsimp only
      rw [scrollHorizontal_empty hX']
      rfl
    rw [heq]
    refine ⟨rfl, hmoved.trans ?_, hcount, hactive, hX', hY'⟩
    exact ⟨⟨rfl, rfl, rfl, ⟨rfl, rfl, rfl, rfl, rfl⟩⟩, rfl, rfl, rfl, rfl, rfl, id⟩

/-- One finger on the cursor moves it. -/
theorem moveOneFinger_spec (P : Platform) (ev : MotionEvent) (v : View) :
    Moved v (v.moveOneFinger P ev).1 ∧
      (v.moveOneFinger P ev).1.freePointerCount = v.freePointerCount ∧
      (v.moveOneFinger P ev).1.twoFingerScrollActive = v.twoFingerScrollActive ∧
      (v.moveOneFinger P ev).1.scrollAccumulatorX = v.scrollAccumulatorX ∧
      (v.moveOneFinger P ev).1.scrollAccumulatorY = v.scrollAccumulatorY ∧
      ∀ c ∈ (v.moveOneFinger P ev).2, ∃ dx dy, c = (.view, .onPointerMove dx dy) := by
  have hheld := (sameHeld_moveOneFinger P ev v).1
  revert hheld
  unfold moveOneFinger cancelHoldDetector
  cases (v.freePointers ev).find? fun p => (p.id : ℤ) = v.mousePointerId with
  | none => exact fun _ => ⟨moved_refl v, rfl, rfl, rfl, rfl, by simp⟩
  | some p =>
    dsimp only
    intro hheld
    refine ⟨?_, ?_, ?_, ?_, ?_, ?_⟩
    · revert hheld
      split_ifs
      · exact fun hheld => ⟨hheld, rfl, rfl, rfl, rfl, rfl, fun h => by cases h⟩
      · exact fun hheld => ⟨hheld, rfl, rfl, rfl, rfl, rfl, id⟩
    · split_ifs <;> rfl
    · split_ifs <;> rfl
    · split_ifs <;> rfl
    · split_ifs <;> rfl
    · split_ifs
      · simp
      · simp

theorem centred_countFreePointers (h : v.twoFingerScrollActive = false ∧
    v.scrollAccumulatorX = 0 ∧ v.scrollAccumulatorY = 0)
    (hn : 2 ≤ (v.countFreePointers ev).freePointerCount) :
    Centred ev (v.countFreePointers ev) := by
  revert hn
  unfold countFreePointers
  dsimp only
  split_ifs with htwo
  · exact fun _ => ⟨fun _ => rfl, rfl, rfl⟩
  · refine fun hn => ⟨fun hle => absurd ⟨le_antisymm hle hn, h.1⟩ htwo, h.2⟩

/-- `ACTION_MOVE` counts the free pointers and moves the cursor; it does not scroll. -/
theorem moveFreePointers_still (P : Platform) (ev : MotionEvent)
    (h : v.twoFingerScrollActive = false ∧ v.scrollAccumulatorX = 0 ∧ v.scrollAccumulatorY = 0) :
    Moved v (v.moveFreePointers P ev).1 ∧
      (v.moveFreePointers P ev).1.freePointerCount = (v.freePointers ev).length ∧
      ((v.moveFreePointers P ev).1.twoFingerScrollActive = false ∧
        (v.moveFreePointers P ev).1.scrollAccumulatorX = 0 ∧
        (v.moveFreePointers P ev).1.scrollAccumulatorY = 0) ∧
      ∀ c ∈ (v.moveFreePointers P ev).2, ∃ dx dy, c = (.view, .onPointerMove dx dy) := by
  have hmoved := moved_countFreePointers ev v
  have hcount : (v.countFreePointers ev).freePointerCount = (v.freePointers ev).length ∧
      (v.countFreePointers ev).twoFingerScrollActive = false ∧
      (v.countFreePointers ev).scrollAccumulatorX = 0 ∧
      (v.countFreePointers ev).scrollAccumulatorY = 0 := by
    unfold countFreePointers
    dsimp only
    split_ifs
    · exact ⟨rfl, h.1, rfl, rfl⟩
    · exact ⟨rfl, h⟩
  unfold moveFreePointers
  dsimp only
  split_ifs with htwo hone
  · obtain ⟨hcalls, hmoved', hn, ha, hX, hY⟩ :=
      moveTwoFingers_centred P (centred_countFreePointers h htwo.1)
    refine ⟨hmoved.trans hmoved', hn.trans hcount.1, ⟨ha.trans hcount.2.1, hX, hY⟩, ?_⟩
    rw [hcalls]
    simp
  · obtain ⟨hmoved', hn, ha, hX, hY, hcalls⟩ := moveOneFinger_spec P ev (v.countFreePointers ev)
    exact ⟨hmoved.trans hmoved', hn.trans hcount.1, ⟨ha.trans hcount.2.1,
      hX.trans hcount.2.2.1, hY.trans hcount.2.2.2⟩, hcalls⟩
  · exact ⟨hmoved, hcount.1, hcount.2, by simp⟩

/-- What is kept by `ACTION_MOVE` as a whole. -/
theorem kept_touchMove (P : Platform) (ev : MotionEvent)
    (h : v.twoFingerScrollActive = false ∧ v.scrollAccumulatorX = 0 ∧ v.scrollAccumulatorY = 0) :
    (v.touchMove P ev).1.pointerOnElement = v.pointerOnElement ∧
      (v.touchMove P ev).1.mousePointerId = v.mousePointerId ∧
      (v.touchMove P ev).1.tapCount = v.tapCount := by
  obtain ⟨hmoved, -⟩ := moveFreePointers_still P ev (v := v.withElements
    (touchMoveElements (v.host P) ev.pointers v.elements).1) h
  exact ⟨hmoved.pointerOnElement, hmoved.mousePointerId, hmoved.tapCount⟩

theorem freeIds_touchMove (P : Platform) (ev : MotionEvent)
    (h : v.twoFingerScrollActive = false ∧ v.scrollAccumulatorX = 0 ∧ v.scrollAccumulatorY = 0)
    (down : List ℕ) : (v.touchMove P ev).1.freeIds down = v.freeIds down := by
  rw [freeIds, freeIds, (kept_touchMove P ev h).1]

theorem Tracks.move (h : Tracks down v) (hids : ev.ids.Perm down) (P : Platform) :
    Tracks down (v.moveFreePointers P ev).1 := by
  obtain ⟨hmoved, hcount, hstill, -⟩ := moveFreePointers_still P ev h.still
  have hfree : (v.moveFreePointers P ev).1.freeIds down = v.freeIds down := by
    rw [freeIds, freeIds, hmoved.pointerOnElement]
  refine
    { entries := fun id => ?_
      count := ?_
      mouse := ?_
      pos := fun id => ?_
      time := fun id => ?_
      still := hstill
      posted := fun hp => ?_
      taps := ?_ }
  · rw [hmoved.pointerOnElement, hmoved.held.frame.playing]
    exact h.entries id
  · rw [hcount, hfree, length_freePointers hids]
  · rw [hmoved.mousePointerId, hfree]
    exact h.mouse
  · rw [hmoved.touchDownPos, hfree]
    exact h.pos id
  · rw [hmoved.touchDownTime, hfree]
    exact h.time id
  · rw [hfree]
    exact h.posted (hmoved.posted hp)
  · rw [hmoved.tapCount]
    exact h.taps

/-! ### A pointer goes down -/

/-- Whether an element takes the pointer that goes down is put down. -/
def enter (id : ℕ) (taken : Bool) (v : View) : View :=
  { v with pointerOnElement := v.pointerOnElement.insert id taken }

theorem freeIds_enter {id : ℕ} (hnew : id ∉ down) (taken : Bool) (v : View) :
    (v.enter id taken).freeIds (id :: down) =
      if taken then v.freeIds down else id :: v.freeIds down := by
  have hrest : (v.enter id taken).freeIds down = v.freeIds down := by
    refine List.filter_congr fun id' hid' => ?_
    have hne : id' ≠ id := fun h => hnew (h ▸ hid')
    show decide ((v.pointerOnElement.insert id taken).lookup id' = some false) = _
    rw [AList.lookup_insert_ne hne]
  have hhead : (v.enter id taken).pointerOnElement.lookup id = some taken :=
    AList.lookup_insert _
  rw [freeIds, List.filter_cons, hhead]
  cases taken with
  | true => exact hrest
  | false =>
    show id :: _ = _
    rw [← hrest]
    rfl

theorem entries_enter {id : ℕ} (h : ∀ id, (v.pointerOnElement.lookup id).isSome = true ↔
      v.Playing ∧ id ∈ down) (hplay : v.Playing) (taken : Bool) (id' : ℕ) :
    ((v.enter id taken).pointerOnElement.lookup id').isSome = true ↔
      v.Playing ∧ id' ∈ id :: down := by
  show ((v.pointerOnElement.insert id taken).lookup id').isSome = true ↔ _
  rw [List.mem_cons]
  by_cases heq : id' = id
  · subst heq
    rw [AList.lookup_insert]
    exact ⟨fun _ => ⟨hplay, Or.inl rfl⟩, fun _ => rfl⟩
  · rw [AList.lookup_insert_ne heq, h id']
    simp [heq]

/-- What a free pointer that goes down changes. -/
theorem freePointerDown_spec (P : Platform) (ev : MotionEvent) (v : View) :
    (v.freePointerDown P ev).pointerOnElement = v.pointerOnElement ∧
      (v.freePointerDown P ev).touchDownPos =
        v.touchDownPos.insert ev.actionPointer.id (ev.actionPointer.x, ev.actionPointer.y) ∧
      (v.freePointerDown P ev).touchDownTime =
        v.touchDownTime.insert ev.actionPointer.id P.uptimeMillis ∧
      (v.freePointerDown P ev).freePointerCount = v.freePointerCount + 1 ∧
      (v.freePointerDown P ev).mousePointerId =
        (if v.mousePointerId = -1 then (ev.actionPointer.id : ℤ) else v.mousePointerId) ∧
      (v.freePointerDown P ev).scrollAccumulatorX = v.scrollAccumulatorX ∧
      (v.freePointerDown P ev).scrollAccumulatorY = v.scrollAccumulatorY ∧
      (v.freePointerDown P ev).tapCount = v.tapCount := by
  unfold freePointerDown scheduleHoldDetector
  dsimp only
  split_ifs <;> exact ⟨rfl, rfl, rfl, rfl, rfl, rfl, rfl, rfl⟩

/-- A free pointer that goes down joins the others. -/
theorem freeIds_freePointerDown (hnew : ev.actionPointer.id ∉ down) (P : Platform) (v : View) :
    ((v.enter ev.actionPointer.id false).freePointerDown P ev).freeIds
      (ev.actionPointer.id :: down) = ev.actionPointer.id :: v.freeIds down := by
  rw [freeIds, (freePointerDown_spec P ev _).1]
  exact freeIds_enter hnew false v

/-- The pointer that is put on the cursor is where it went down. -/
theorem mouseLast_freePointerDown (P : Platform) (ev : MotionEvent) (h : v.mousePointerId = -1) :
    (v.freePointerDown P ev).mouseLastX = ev.actionPointer.x ∧
      (v.freePointerDown P ev).mouseLastY = ev.actionPointer.y := by
  unfold freePointerDown scheduleHoldDetector
  dsimp only
  rw [if_pos h]
  split_ifs <;> exact ⟨rfl, rfl⟩

theorem twoFingerScrollActive_freePointerDown (P : Platform) (ev : MotionEvent)
    (h : v.twoFingerScrollActive = false) :
    (v.freePointerDown P ev).twoFingerScrollActive = false := by
  unfold freePointerDown scheduleHoldDetector
  dsimp only
  split_ifs <;> first | exact h | rfl

theorem isSome_insert {α : Type} {m : SparseArray α} {ids : List ℕ}
    (h : ∀ id, (m.lookup id).isSome = true ↔ id ∈ ids) (id : ℕ) (a : α) (id' : ℕ) :
    ((m.insert id a).lookup id').isSome = true ↔ id' ∈ id :: ids := by
  rw [List.mem_cons]
  by_cases heq : id' = id
  · subst heq
    rw [AList.lookup_insert]
    exact ⟨fun _ => Or.inl rfl, fun _ => rfl⟩
  · rw [AList.lookup_insert_ne heq, h id']
    simp [heq]

theorem Tracks.taken (h : Tracks down v) (hplay : v.Playing) {id : ℕ} (hnew : id ∉ down) :
    Tracks (id :: down) (v.enter id true) := by
  have hfree : (v.enter id true).freeIds (id :: down) = v.freeIds down :=
    freeIds_enter hnew true v
  exact
    { entries := entries_enter h.entries hplay true
      count := by rw [hfree]; exact h.count
      mouse := by rw [hfree]; exact h.mouse
      pos := by rw [hfree]; exact h.pos
      time := by rw [hfree]; exact h.time
      still := h.still
      posted := by rw [hfree]; exact h.posted
      taps := h.taps }

theorem Tracks.free (h : Tracks down v) (hplay : v.Playing) (hnew : ev.actionPointer.id ∉ down)
    (P : Platform) :
    Tracks (ev.actionPointer.id :: down)
      ((v.enter ev.actionPointer.id false).freePointerDown P ev) := by
  obtain ⟨hentries, hpos, htime, hcount, hmouse, hX, hY, htaps⟩ :=
    freePointerDown_spec P ev (v.enter ev.actionPointer.id false)
  have hsame := sameHeld_freePointerDown P ev (v.enter ev.actionPointer.id false)
  have hfree := freeIds_freePointerDown hnew P v
  refine
    { entries := fun id => ?_
      count := ?_
      mouse := Or.inr ?_
      pos := ?_
      time := ?_
      still := ⟨twoFingerScrollActive_freePointerDown P ev h.still.1, ?_⟩
      posted := fun _ => ?_
      taps := ?_ }
  · rw [hentries, hsame.frame.playing]
    exact entries_enter h.entries hplay false id
  · rw [hcount, hfree, List.length_cons, Nat.cast_succ]
    exact congrArg (· + 1) h.count
  · rw [hmouse, hfree]
    split_ifs with hnone
    · exact ⟨_, List.mem_cons_self, rfl⟩
    · obtain ⟨id, hid, heq⟩ := h.mouse.resolve_left hnone
      exact ⟨id, List.mem_cons_of_mem _ hid, heq⟩
  · rw [hpos, hfree]
    exact isSome_insert h.pos _ _
  · rw [htime, hfree]
    exact isSome_insert h.time _ _
  · rw [hX, hY]
    exact h.still.2
  · rw [hfree]
    exact List.cons_ne_nil _ _
  · rw [htaps]
    exact h.taps

/-! ### A pointer goes up -/

/-- What a pointer that goes up changes. -/
theorem removePointer_spec (P : Platform) (ev : MotionEvent) (v : View) :
    (v.removePointer P ev).pointerOnElement = v.pointerOnElement.erase ev.actionPointer.id ∧
      (v.removePointer P ev).touchDownPos = v.touchDownPos.erase ev.actionPointer.id ∧
      (v.removePointer P ev).touchDownTime = v.touchDownTime.erase ev.actionPointer.id ∧
      (v.removePointer P ev).freePointerCount =
        (if (v.pointerOnElement.lookup ev.actionPointer.id).getD false then v.freePointerCount
          else max 0 (v.freePointerCount - 1)) ∧
      (v.removePointer P ev).mousePointerId =
        (if (ev.actionPointer.id : ℤ) = v.mousePointerId then -1 else v.mousePointerId) ∧
      (v.removePointer P ev).twoFingerScrollActive = v.twoFingerScrollActive ∧
      (v.removePointer P ev).scrollAccumulatorX = v.scrollAccumulatorX ∧
      (v.removePointer P ev).scrollAccumulatorY = v.scrollAccumulatorY ∧
      (v.removePointer P ev).holdDetectorPosted = v.holdDetectorPosted := by
  unfold removePointer
  dsimp only
  split_ifs <;> exact ⟨rfl, rfl, rfl, rfl, rfl, rfl, rfl, rfl, rfl⟩

/-- A tap is counted for a free pointer, as long as no button is held. -/
theorem tapCount_removePointer (P : Platform) (ev : MotionEvent) (v : View) :
    (v.removePointer P ev).tapCount =
      if (v.pointerOnElement.lookup ev.actionPointer.id).getD false then v.tapCount
      else if P.touchGestures = false ∧ v.twoFingerScrollActive = false ∧
          v.rightButtonHeld = false ∧ v.leftButtonHeld = false ∧ v.isTap P ev = true then
        v.tapCount + 1
      else v.tapCount := by
  unfold removePointer
  dsimp only
  split_ifs <;> first | contradiction | rfl

theorem isSome_erase {α : Type} {m : SparseArray α} {ids : List ℕ} (hnodup : ids.Nodup)
    (h : ∀ id, (m.lookup id).isSome = true ↔ id ∈ ids) (id id' : ℕ) :
    ((m.erase id).lookup id').isSome = true ↔ id' ∈ ids.erase id := by
  rw [hnodup.mem_erase_iff]
  by_cases heq : id' = id
  · subst heq
    rw [AList.lookup_erase]
    simp
  · rw [AList.lookup_erase_ne heq, h id']
    simp [heq]

/-- The pointer is no more among the free ones. -/
theorem freeIds_erase (hnodup : down.Nodup) {id : ℕ}
    (hv : v'.pointerOnElement = v.pointerOnElement.erase id) :
    v'.freeIds (down.erase id) = (v.freeIds down).erase id := by
  rw [freeIds, freeIds, hv, hnodup.erase_eq_filter, (hnodup.filter _).erase_eq_filter,
    List.filter_filter, List.filter_filter]
  refine List.filter_congr fun id' _ => ?_
  by_cases heq : id' = id
  · simp [heq]
  · rw [AList.lookup_erase_ne heq, Bool.and_comm]

theorem freeIds_afterUp (hnodup : down.Nodup) (P : Platform) (ev : MotionEvent) (v : View) :
    (v.afterUp P ev).freeIds (down.erase ev.actionPointer.id) =
      (v.freeIds down).erase ev.actionPointer.id :=
  freeIds_erase hnodup (removePointer_spec P ev _).1

/-- The books after a pointer has gone up. -/
theorem Tracks.removePointer (h : Tracks down v) (hnodup : down.Nodup) (hplay : v.Playing)
    (hid : ev.actionPointer.id ∈ down) (hposted : v.holdDetectorPosted = false) (P : Platform) :
    Tracks (down.erase ev.actionPointer.id) (v.removePointer P ev) := by
  obtain ⟨hentries, hpos, htime, hcount, hmouse, hactive, hX, hY, hhold⟩ :=
    removePointer_spec P ev v
  have hsame := sameHeld_removePointer P ev v
  have hfree := freeIds_erase hnodup hentries
  have hnodup' : (v.freeIds down).Nodup := hnodup.filter _
  refine
    { entries := fun id => ?_
      count := ?_
      mouse := ?_
      pos := ?_
      time := ?_
      still := ?_
      posted := fun hp => ?_
      taps := ?_ }
  · have hdown : ∀ id, (v.pointerOnElement.lookup id).isSome = true ↔ id ∈ down :=
      fun id => (h.entries id).trans (and_iff_right hplay)
    rw [hentries, isSome_erase hnodup hdown, hsame.frame.playing, and_iff_right hplay]
  · rw [hcount, hfree, h.count]
    obtain ⟨taken, hlookup⟩ := Option.isSome_iff_exists.1
      ((h.entries ev.actionPointer.id).2 ⟨hplay, hid⟩)
    rw [hlookup]
    cases taken with
    | true =>
      have hnot : ev.actionPointer.id ∉ v.freeIds down := by
        rw [mem_freeIds, hlookup]
        simp
      rw [List.erase_of_not_mem hnot]
      rfl
    | false =>
      have hmem : ev.actionPointer.id ∈ v.freeIds down := mem_freeIds.2 ⟨hid, hlookup⟩
      have hpositive := List.length_pos_of_mem hmem
      rw [List.length_erase_of_mem hmem]
      simp only [Option.getD_some, Bool.false_eq_true, if_false]
      omega
  · rw [hmouse, hfree]
    split_ifs with heq
    · exact Or.inl rfl
    · refine h.mouse.imp_right fun ⟨id, hmem, hm⟩ => ⟨id, ?_, hm⟩
      refine (List.mem_erase_of_ne fun h => heq ?_).2 hmem
      rw [hm, h]
  · rw [hpos, hfree]
    exact isSome_erase hnodup' h.pos _
  · rw [htime, hfree]
    exact isSome_erase hnodup' h.time _
  · rw [hactive, hX, hY]
    exact h.still
  · rw [hhold, hposted] at hp
    cases hp
  · have htaps := h.taps
    rw [tapCount_removePointer]
    split_ifs
    · exact htaps
    · omega
    · exact htaps

theorem tracks_cancelHoldDetector (h : Tracks down v) : Tracks down v.cancelHoldDetector :=
  { h with posted := fun hp => by cases hp }

/-- The books before the end of the gesture is looked at. -/
theorem tracks_afterUp (h : Tracks down v) (hnodup : down.Nodup) (hplay : v.Playing)
    (hid : ev.actionPointer.id ∈ down) (P : Platform) :
    Tracks (down.erase ev.actionPointer.id) (v.afterUp P ev) := by
  have hw := sameFingers_withElements
    (forElements (fun e => e.handleTouchUp (v.host P) ev.actionPointer.id) v.elements).1
    v.cancelHoldDetector
  exact ((tracks_cancelHoldDetector h).congr hw).removePointer hnodup (hw.playing.2 hplay) hid rfl P

theorem holdDetectorPosted_afterUp (P : Platform) (ev : MotionEvent) (v : View) :
    (v.afterUp P ev).holdDetectorPosted = false :=
  (removePointer_spec P ev _).2.2.2.2.2.2.2.2

theorem untouched_allPointersReleased (P : Platform) (h : v.holdDetectorPosted = false) :
    (v.allPointersReleased P).1.Untouched :=
  ⟨rfl, rfl, rfl, rfl, rfl, rfl, rfl, ⟨rfl, rfl⟩, ⟨rfl, rfl⟩, h⟩

/-! ### The hold detector -/

theorem runHoldDetector_idle (P : Platform) (h : v.holdDetectorPosted = false) :
    v.runHoldDetector P = (v, []) := by
  simp [runHoldDetector, h]

/-- The hold detector only leaves the queue, or it presses the right button, or the left one. -/
theorem runHoldDetector_cases (P : Platform) (v : View) :
    v.runHoldDetector P = ({ v with holdDetectorPosted := false }, []) ∨
      v.holdDetectorPosted = true ∧ P.touchGestures = false ∧ v.inputSender = true ∧
        ((2 ≤ v.freePointerCount ∧ v.rightButtonHeld = false ∧ v.leftButtonHeld = false ∧
            v.runHoldDetector P =
              ({ v with holdDetectorPosted := false, rightButtonHeld := true },
                [(.view, .onPointerButton 3 true)])) ∨
          (v.freePointerCount = 1 ∧ v.leftButtonHeld = false ∧
            v.runHoldDetector P =
              ({ v with holdDetectorPosted := false, leftButtonHeld := true },
                [(.view, .onPointerButton 1 true)]))) := by
  cases hposted : v.holdDetectorPosted with
  | false =>
    have hself : { v with holdDetectorPosted := false } = v := by
      rw [← hposted]
    rw [runHoldDetector_idle P hposted, hself]
    exact Or.inl rfl
  | true =>
    unfold runHoldDetector
    dsimp only
    rw [if_pos hposted]
    split_ifs with hon hright hleft
    · obtain ⟨hg, hi⟩ : P.touchGestures = false ∧ v.inputSender = true := by simpa using hon
      exact Or.inr ⟨rfl, hg, hi, Or.inl ⟨hright.1, hright.2.2.1, hright.2.2.2, rfl⟩⟩
    · obtain ⟨hg, hi⟩ : P.touchGestures = false ∧ v.inputSender = true := by simpa using hon
      exact Or.inr ⟨rfl, hg, hi, Or.inr ⟨hleft.1, hleft.2, rfl⟩⟩
    · exact Or.inl rfl
    · exact Or.inl rfl

/-- Whatever it does, it is about the buttons alone. -/
theorem runHoldDetector_fst (P : Platform) (v : View) :
    ∃ l r, (v.runHoldDetector P).1 =
      { v with holdDetectorPosted := false, leftButtonHeld := l, rightButtonHeld := r } := by
  rcases runHoldDetector_cases P v with heq | ⟨-, -, -, ⟨-, -, -, heq⟩ | ⟨-, -, heq⟩⟩
  · exact ⟨v.leftButtonHeld, v.rightButtonHeld, by rw [heq]⟩
  · exact ⟨v.leftButtonHeld, true, by rw [heq]⟩
  · exact ⟨true, v.rightButtonHeld, by rw [heq]⟩

theorem runHoldDetector_snd (P : Platform) (v : View) :
    ∀ c ∈ (v.runHoldDetector P).2, ∃ n, c = (.view, .onPointerButton n true) := by
  intro c hc
  rcases runHoldDetector_cases P v with heq | ⟨-, -, -, ⟨-, -, -, heq⟩ | ⟨-, -, heq⟩⟩
  · rw [heq] at hc
    cases hc
  · rw [heq] at hc
    exact ⟨3, List.mem_singleton.1 hc⟩
  · rw [heq] at hc
    exact ⟨1, List.mem_singleton.1 hc⟩

theorem pointerOnElement_runHoldDetector (P : Platform) (v : View) :
    (v.runHoldDetector P).1.pointerOnElement = v.pointerOnElement := by
  obtain ⟨l, r, heq⟩ := runHoldDetector_fst P v
  rw [heq]

theorem tracks_runHoldDetector (h : Tracks down v) (P : Platform) :
    Tracks down (v.runHoldDetector P).1 := by
  obtain ⟨l, r, heq⟩ := runHoldDetector_fst P v
  rw [heq]
  exact { h with posted := fun hp => by cases hp }

/-- The hold detector waits for a pointer that is down. -/
theorem Tracks.not_posted (h : Tracks down v) (hrest : ¬ v.Playing ∨ down = []) :
    v.holdDetectorPosted = false := by
  cases hposted : v.holdDetectorPosted with
  | false => rfl
  | true =>
    obtain ⟨id, hid⟩ := List.exists_mem_of_ne_nil _ (h.posted hposted)
    obtain ⟨hmem, hlookup⟩ := mem_freeIds.1 hid
    rcases hrest with hplay | rfl
    · exact absurd ((h.entries id).1 (by rw [hlookup]; rfl)).1 hplay
    · cases hmem

/-! ### Outside play -/

theorem SameFingers.trans {v'' : View} (h : SameFingers v v') (h' : SameFingers v' v'') :
    SameFingers v v'' :=
  ⟨h'.playing.trans h.playing, h'.pointerOnElement.trans h.pointerOnElement,
    h'.touchDownPos.trans h.touchDownPos, h'.touchDownTime.trans h.touchDownTime,
    h'.mousePointerId.trans h.mousePointerId,
    ⟨h'.mouseLast.1.trans h.mouseLast.1, h'.mouseLast.2.trans h.mouseLast.2⟩,
    h'.freePointerCount.trans h.freePointerCount,
    ⟨h'.still.1.trans h.still.1, h'.still.2.1.trans h.still.2.1, h'.still.2.2.trans h.still.2.2⟩,
    h'.tapCount.trans h.tapCount, ⟨h'.held.1.trans h.held.1, h'.held.2.trans h.held.2⟩,
    h'.holdDetectorPosted.trans h.holdDetectorPosted⟩

theorem SameFingers.refl (v : View) : SameFingers v v :=
  ⟨Iff.rfl, rfl, rfl, rfl, rfl, ⟨rfl, rfl⟩, rfl, ⟨rfl, rfl, rfl⟩, rfl, ⟨rfl, rfl⟩, rfl⟩

theorem sameFingers_save (v : View) : SameFingers v v.save := by
  unfold save
  split
  · exact SameFingers.refl v
  · exact ⟨Iff.rfl, rfl, rfl, rfl, rfl, ⟨rfl, rfl⟩, rfl, ⟨rfl, rfl, rfl⟩, rfl, ⟨rfl, rfl⟩, rfl⟩

theorem sameFingers_selectElement (ref : Option ℕ) (v : View) :
    SameFingers v (v.selectElement ref) := by
  have hplaying := (quiet_selectElement ref v).frame.playing
  cases ref <;> exact ⟨hplaying, rfl, rfl, rfl, rfl, ⟨rfl, rfl⟩, rfl, ⟨rfl, rfl, rfl⟩, rfl,
    ⟨rfl, rfl⟩, rfl⟩

theorem sameFingers_pickUp (p : Pointer) (hit : Option Element) (v : View) :
    SameFingers v (v.pickUp p hit) := by
  cases hit <;>
    exact ⟨Iff.rfl, rfl, rfl, rfl, rfl, ⟨rfl, rfl⟩, rfl, ⟨rfl, rfl, rfl⟩, rfl, ⟨rfl, rfl⟩, rfl⟩

theorem sameFingers_touchEdit (hv' : v.touchEdit ev = some v') : SameFingers v v' := by
  unfold touchEdit at hv'
  cases ha : ev.action with
  | down =>
    simp only [ha] at hv'
    obtain ⟨r, -, rfl⟩ := Option.map_eq_some_iff.1 hv'
    exact ((sameFingers_withElements r.2 v).trans (sameFingers_pickUp _ _ _)).trans
      (sameFingers_selectElement _ _)
  | move =>
    simp only [ha, Option.some.injEq] at hv'
    subst hv'
    exact sameFingers_withElements _ v
  | up =>
    simp only [ha, Option.some.injEq] at hv'
    subst hv'
    have hsave : SameFingers v (if v.selectedElement.isSome then v.save else v) := by
      split_ifs
      · exact sameFingers_save v
      · exact SameFingers.refl v
    refine hsave.trans ?_
    split_ifs <;>
      exact ⟨Iff.rfl, rfl, rfl, rfl, rfl, ⟨rfl, rfl⟩, rfl, ⟨rfl, rfl, rfl⟩, rfl, ⟨rfl, rfl⟩, rfl⟩
  | pointerDown | pointerUp | cancel =>
    simp only [ha, Option.some.injEq] at hv'
    subst hv'
    exact SameFingers.refl v

theorem frame_onTouchEvent {r : View × Calls} (hr : v.onTouchEvent P ev = some r) :
    Frame v r.1 := by
  unfold onTouchEvent at hr
  split_ifs at hr with hedit hplay
  · obtain ⟨v', hv', rfl⟩ := Option.map_eq_some_iff.1 hr
    exact (quiet_touchEdit hv').frame
  · obtain ⟨-, hp, -⟩ := hplay
    cases ha : ev.action with
    | down | pointerDown =>
      simp only [ha] at hr
      obtain ⟨s, -, ht, -⟩ := touched_touchDown hp hr
      exact ht.frame
    | move =>
      simp only [ha, Option.some.injEq] at hr
      subst hr
      exact (touched_touchMove P ev hp).frame
    | up | pointerUp | cancel =>
      simp only [ha, Option.some.injEq] at hr
      subst hr
      rw [touchUp_eq]
      have hup := (touched_afterUp P ev hp).frame
      split_ifs
      · exact hup.trans ⟨rfl, rfl, rfl, rfl, rfl⟩
      · exact hup
  · obtain rfl := Option.some.inj hr
    exact Frame.refl v

theorem frame_run {c : Callback} {r : View × Calls} (hr : c.run v = some r) : Frame v r.1 := by
  cases c with
  | touch P ev => exact frame_onTouchEvent hr
  | holdDetector P =>
    obtain rfl := Option.some.inj hr
    unfold runHoldDetector
    dsimp only
    split_ifs <;> exact ⟨rfl, rfl, rfl, rfl, rfl⟩
  | fling ref =>
    obtain rfl := Option.some.inj hr
    exact (quiet_runFling ref v).frame

/-- In edit mode, and while the controls are hidden, touches do not reach the free pointers. -/
theorem sameFingers_onTouchEvent {r : View × Calls} (hplay : ¬ v.Playing)
    (hr : v.onTouchEvent P ev = some r) : SameFingers v r.1 ∧ r.2 = [] := by
  unfold onTouchEvent at hr
  rw [Playing] at hplay
  rw [if_neg hplay] at hr
  split_ifs at hr with hedit
  · obtain ⟨v', hv', rfl⟩ := Option.map_eq_some_iff.1 hr
    exact ⟨sameFingers_touchEdit hv', rfl⟩
  · obtain rfl := Option.some.inj hr
    exact ⟨SameFingers.refl v, rfl⟩

theorem onTouchEvent_playing (hplay : v.Playing) (P : Platform) (ev : MotionEvent) :
    v.onTouchEvent P ev =
      match ev.action with
      | .down | .pointerDown => v.touchDown P ev
      | .move => some (v.touchMove P ev)
      | .up | .pointerUp | .cancel => some (v.touchUp P ev) := by
  rw [onTouchEvent, if_neg (by simp [hplay.1])]
  exact if_pos hplay

theorem onTouchEvent_down (hplay : v.Playing) (ha : ev.action = .down ∨ ev.action = .pointerDown)
    (P : Platform) : v.onTouchEvent P ev = v.touchDown P ev := by
  rw [onTouchEvent_playing hplay]
  rcases ha with ha | ha <;> simp only [ha]

theorem onTouchEvent_up (hplay : v.Playing)
    (ha : ev.action = .up ∨ ev.action = .pointerUp ∨ ev.action = .cancel) (P : Platform) :
    v.onTouchEvent P ev = some (v.touchUp P ev) := by
  rw [onTouchEvent_playing hplay]
  rcases ha with ha | ha | ha <;> simp only [ha]

/-- What a touch in play comes to. -/
theorem onTouchEvent_cases (hplay : v.Playing) {r : View × Calls}
    (hr : v.onTouchEvent P ev = some r) :
    (ev.action = .down ∨ ev.action = .pointerDown) ∧ v.touchDown P ev = some r ∨
      ev.action = .move ∧ r = v.touchMove P ev ∨
      (ev.action = .up ∨ ev.action = .pointerUp ∨ ev.action = .cancel) ∧ r = v.touchUp P ev := by
  rw [onTouchEvent_playing hplay] at hr
  cases ha : ev.action with
  | down =>
    simp only [ha] at hr
    exact Or.inl ⟨Or.inl rfl, hr⟩
  | pointerDown =>
    simp only [ha] at hr
    exact Or.inl ⟨Or.inr rfl, hr⟩
  | move =>
    simp only [ha, Option.some.injEq] at hr
    exact Or.inr (Or.inl ⟨rfl, hr.symm⟩)
  | up =>
    simp only [ha, Option.some.injEq] at hr
    exact Or.inr (Or.inr ⟨Or.inl rfl, hr.symm⟩)
  | pointerUp =>
    simp only [ha, Option.some.injEq] at hr
    exact Or.inr (Or.inr ⟨Or.inr (Or.inl rfl), hr.symm⟩)
  | cancel =>
    simp only [ha, Option.some.injEq] at hr
    exact Or.inr (Or.inr ⟨Or.inr (Or.inr rfl), hr.symm⟩)

theorem Tracks.lookup_not_playing (h : Tracks down v) (hplay : ¬ v.Playing) (id : ℕ) :
    ¬ (v.pointerOnElement.lookup id).isSome = true :=
  fun hid => hplay ((h.entries id).1 hid).1

theorem Tracks.freeIds_not_playing (h : Tracks down v) (hplay : ¬ v.Playing) (down' : List ℕ) :
    v.freeIds down' = [] := by
  refine List.filter_eq_nil_iff.2 fun id _ hid => h.lookup_not_playing hplay id ?_
  rw [of_decide_eq_true hid]
  rfl

/-- Without play the books do not depend on the pointers. -/
theorem Tracks.of_not_playing (h : Tracks down v) (hplay : ¬ v.Playing) (down' : List ℕ) :
    Tracks down' v := by
  have hfree := h.freeIds_not_playing hplay
  have hcount := h.count
  have hmouse := h.mouse
  have hpos := h.pos
  have htime := h.time
  have hposted := h.posted
  rw [hfree] at hcount hmouse hposted
  simp only [hfree down] at hpos htime
  refine ⟨fun id => ?_, ?_, ?_, ?_, ?_, h.still, ?_, h.taps⟩
  · exact iff_of_false (h.lookup_not_playing hplay id) fun hid => hplay hid.1
  · rw [hfree]
    exact hcount
  · rw [hfree]
    exact hmouse
  · simpa only [hfree down'] using hpos
  · simpa only [hfree down'] using htime
  · rw [hfree]
    exact hposted

end View

namespace Gesture

/-- The books are kept, and at rest nothing is held and no tap is counted. -/
structure Tracked (g : Gesture) : Prop where
  nodup : g.down.Nodup
  tracks : g.view.Tracks g.down
  rest : ¬ g.view.Playing ∨ g.down = [] →
    g.view.leftButtonHeld = false ∧ g.view.rightButtonHeld = false ∧ g.view.tapCount = 0

theorem tracked_start {v : View} (h : v.Untouched) : Tracked { view := v } :=
  ⟨List.nodup_nil, h.tracks, fun _ => ⟨h.held.1, h.held.2, h.tapCount⟩⟩

/-- What the callback returns becomes the state. -/
theorem step_eq {g g' : Gesture} {c : Callback} (h : g.step c = some g') :
    ∃ r, c.run g.view = some r ∧ g' = ⟨g.view.deliver r, c.pointersAfter g.down⟩ := by
  obtain ⟨v, hv, rfl⟩ := Option.map_eq_some_iff.1 h
  obtain ⟨r, hr, rfl⟩ := Option.map_eq_some_iff.1 hv
  exact ⟨r, hr, rfl⟩

/-- What `ACTION_DOWN` and `ACTION_POINTER_DOWN` do: an element takes the pointer or none does. -/
theorem touchDown_eq {v : View} {P : Platform} {ev : MotionEvent} {r : View × Calls}
    (hr : v.touchDown P ev = some r) :
    ∃ (taken : Bool) (es : List Element), Calls.own r.2 = [] ∧
      r.1 = if taken then (v.withElements es).enter ev.actionPointer.id true
        else ((v.withElements es).enter ev.actionPointer.id false).freePointerDown P ev := by
  obtain ⟨s, hs, rfl⟩ := Option.map_eq_some_iff.1 hr
  refine ⟨s.1, s.2.1, own_touchDownElements hs, ?_⟩
  cases s.1 <;> rfl

/-- A pointer that goes down was not down. -/
theorem not_mem_down {down : List ℕ} {ev : MotionEvent} (h : ev.WellFormed down)
    (ha : ev.action = .down ∨ ev.action = .pointerDown) : ev.actionPointer.id ∉ down := by
  rcases ha with ha | ha
  · simp only [MotionEvent.WellFormed, ha] at h
    rw [h.1]
    exact List.not_mem_nil
  · simp only [MotionEvent.WellFormed, ha] at h
    exact h.2.1

theorem pointersAfter_down {down : List ℕ} {ev : MotionEvent}
    (ha : ev.action = .down ∨ ev.action = .pointerDown) :
    ev.pointersAfter down = ev.actionPointer.id :: down := by
  rcases ha with ha | ha
  · simp only [MotionEvent.pointersAfter, ha]
  · simp only [MotionEvent.pointersAfter, ha]

/-- While pointers stay down the gesture is not at its end. -/
theorem not_released {down : List ℕ} {v : View} (h : v.Tracks down) (hplay : v.Playing)
    (hne : down ≠ []) :
    ¬ (v.freePointerCount = 0 ∧ v.pointerOnElement.entries.length = 0) := by
  rintro ⟨-, hnone⟩
  obtain ⟨id, hid⟩ := List.exists_mem_of_ne_nil down hne
  have hsome := (h.entries id).2 ⟨hplay, hid⟩
  rw [AList.lookup_isSome, AList.mem_keys, AList.keys, List.length_eq_zero_iff.1 hnone] at hsome
  cases hsome

/-- `ACTION_POINTER_UP` does not end the gesture. -/
theorem touchUp_pointerUp {v : View} {down : List ℕ} {ev : MotionEvent} (h : v.Tracks down)
    (hnodup : down.Nodup) (hplay : v.Playing) (hwf : ev.WellFormed down)
    (ha : ev.action = .pointerUp) (P : Platform) :
    down.erase ev.actionPointer.id ≠ [] ∧ (v.touchUp P ev).1 = v.afterUp P ev ∧
      Calls.own (v.touchUp P ev).2 = [] := by
  simp only [MotionEvent.WellFormed, ha] at hwf
  have hid := hwf.1.mem_iff.1 ev.actionPointer_mem
  have hne : down.erase ev.actionPointer.id ≠ [] := by
    intro hnil
    have hlength := List.length_erase_of_mem hid
    rw [hnil, List.length_nil] at hlength
    omega
  have hplay' : (v.afterUp P ev).Playing :=
    (View.touched_afterUp P ev hplay.2.1).frame.playing.2 hplay
  have hgoes : ¬ (ev.action = .up ∨ ev.action = .cancel ∨
      ((v.afterUp P ev).freePointerCount = 0 ∧
        (v.afterUp P ev).pointerOnElement.entries.length = 0)) := by
    rintro (hup | hcancel | hall)
    · exact absurd (ha.symm.trans hup) (by decide)
    · exact absurd (ha.symm.trans hcancel) (by decide)
    · exact not_released (View.tracks_afterUp h hnodup hplay hid P) hplay' hne hall
  refine ⟨hne, ?_, ?_⟩
  · rw [View.touchUp_eq, if_neg hgoes]
  · rw [View.own_touchUp, if_neg hgoes]

/-- The books after a touch event in play. -/
theorem tracks_touch {v : View} {down : List ℕ} {P : Platform} {ev : MotionEvent}
    {r : View × Calls} (h : v.Tracks down) (hnodup : down.Nodup) (hplay : v.Playing)
    (hwf : ev.WellFormed down) (hr : v.onTouchEvent P ev = some r) :
    r.1.Tracks (ev.pointersAfter down) ∧ (ev.pointersAfter down = [] → r.1.Untouched) := by
  rcases View.onTouchEvent_cases hplay hr with ⟨ha, hr⟩ | ⟨ha, rfl⟩ | ⟨ha, rfl⟩
  · rw [pointersAfter_down ha]
    obtain ⟨taken, es, -, heq⟩ := touchDown_eq hr
    have hw := View.sameFingers_withElements es v
    have hnew := not_mem_down hwf ha
    refine ⟨?_, fun h => absurd h (List.cons_ne_nil _ _)⟩
    rw [heq]
    cases taken with
    | true => exact (h.congr hw).taken (hw.playing.2 hplay) hnew
    | false => exact (h.congr hw).free (hw.playing.2 hplay) hnew P
  · simp only [MotionEvent.WellFormed, ha] at hwf
    simp only [MotionEvent.pointersAfter, ha]
    refine ⟨(h.congr (View.sameFingers_withElements _ v)).move hwf P, fun hnil => ?_⟩
    -- there is no event without pointers
    have hmem := hwf.mem_iff.1 ev.actionPointer_mem
    rw [hnil] at hmem
    cases hmem
  · have hend (ha : ev.action = .up ∨ ev.action = .cancel) :
        (v.touchUp P ev).1.Tracks (ev.pointersAfter down) ∧
          (ev.pointersAfter down = [] → (v.touchUp P ev).1.Untouched) := by
      have huntouched : (v.touchUp P ev).1.Untouched := by
        rw [View.touchUp_eq, if_pos (ha.imp_right Or.inl)]
        exact View.untouched_allPointersReleased P (View.holdDetectorPosted_afterUp P ev v)
      rw [pointersAfter_end hwf ha]
      exact ⟨huntouched.tracks, fun _ => huntouched⟩
    rcases ha with ha | ha | ha
    · exact hend (Or.inl ha)
    · obtain ⟨hne, heq, -⟩ := touchUp_pointerUp h hnodup hplay hwf ha P
      simp only [MotionEvent.WellFormed, ha] at hwf
      simp only [MotionEvent.pointersAfter, ha]
      rw [heq]
      exact ⟨View.tracks_afterUp h hnodup hplay (hwf.1.mem_iff.1 ev.actionPointer_mem) P,
        fun h => absurd h hne⟩
    · exact hend (Or.inr ha)

theorem nodup_pointersAfter {down : List ℕ} {c : Callback} {v : View} (hnodup : down.Nodup)
    (hwf : WellFormed ⟨v, down⟩ c) : (c.pointersAfter down).Nodup := by
  cases c with
  | holdDetector P => exact hnodup
  | fling ref => exact hnodup
  | touch P ev =>
    show (ev.pointersAfter down).Nodup
    unfold MotionEvent.pointersAfter
    cases ha : ev.action with
    | down => exact List.nodup_cons.2 ⟨not_mem_down hwf (Or.inl ha), hnodup⟩
    | pointerDown => exact List.nodup_cons.2 ⟨not_mem_down hwf (Or.inr ha), hnodup⟩
    | move => exact hnodup
    | up => exact hnodup.erase _
    | pointerUp => exact hnodup.erase _
    | cancel => exact List.nodup_nil

theorem Tracked.step {g g' : Gesture} {c : Callback} (h : g.Tracked) (hwf : g.WellFormed c)
    (hs : g.step c = some g') : g'.Tracked := by
  obtain ⟨r, hr, rfl⟩ := step_eq hs
  have hnodup := nodup_pointersAfter (v := g.view) h.nodup hwf
  have hplaying := (View.frame_run hr).playing
  have hdeliver := View.sameFingers_deliver g.view r
  suffices hr' : r.1.Tracks (c.pointersAfter g.down) ∧ (¬ r.1.Playing ∨ c.pointersAfter g.down = [] →
      r.1.leftButtonHeld = false ∧ r.1.rightButtonHeld = false ∧ r.1.tapCount = 0) from
    ⟨hnodup, hr'.1.congr hdeliver, hr'.2⟩
  cases c with
  | touch P ev =>
    by_cases hplay : g.view.Playing
    · obtain ⟨htracks, hend⟩ := tracks_touch h.tracks h.nodup hplay hwf hr
      refine ⟨htracks, fun hrest => ?_⟩
      have hu := hend (hrest.resolve_left (not_not.2 (hplaying.2 hplay)))
      exact ⟨hu.held.1, hu.held.2, hu.tapCount⟩
    · obtain ⟨hsame, -⟩ := View.sameFingers_onTouchEvent hplay hr
      refine ⟨(h.tracks.congr hsame).of_not_playing (fun h => hplay (hplaying.1 h)) _, fun _ => ?_⟩
      rw [hsame.held.1, hsame.held.2, hsame.tapCount]
      exact h.rest (Or.inl hplay)
  | holdDetector P =>
    obtain rfl := Option.some.inj hr
    refine ⟨View.tracks_runHoldDetector h.tracks P, fun hrest => ?_⟩
    have hrest := hrest.imp_left fun hn hp => hn (hplaying.2 hp)
    rw [View.runHoldDetector_idle P (h.tracks.not_posted hrest)]
    exact h.rest hrest
  | fling ref =>
    obtain rfl := Option.some.inj hr
    exact ⟨h.tracks.congr (View.sameFingers_withElements _ _),
      fun hrest => h.rest (hrest.imp_left fun hn hp => hn (hplaying.2 hp))⟩

/-- The books are kept in every state that a well-formed gesture reaches. -/
theorem tracked_exec {v : View} (hstart : v.Untouched) {cs : List Callback} {g : Gesture}
    (h : TryAlways step WellFormed { view := v } cs)
    (hrun : tryExec step { view := v } cs = some g) : g.Tracked :=
  tryExec_invariant (fun _ _ _ hg hwf hs => Tracked.step hg hwf hs) (tracked_start hstart) h hrun

end Gesture

end TermuxX11.VirtualKeys
