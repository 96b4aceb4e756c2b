import TermuxX11.Lib.Run
import TermuxX11.VirtualKeys.Cells

/-!
# Gestures and flings of a range button

While a finger drags a range button, the scroll offset moves against the finger, so that the
position of the finger on the row stays what it was: a gesture keeps the index with which it
began (`wrappedIndex_drag`).  A fling moves the row on between two gestures; its callback posts
itself again and sends nothing.

`Rests` and `Drags` are the two states of a scroller, without a finger and with one.
`act_cases` says what an event can do to the button, and the results about runs follow from it.
-/

namespace TermuxX11.VirtualKeys

open Java Ledger RangeScroller Run

/-- The host at another time. -/
def Host.atTime (H : Host) (now : ℤ) : Host := { H with currentTimeMillis := now }

/-- What happens to a range button: the touches of any pointers, with the time, and the frames on
which a posted `flingRunnable` runs. -/
inductive RangeEvent
  | down (now : ℤ) (pointerId : ℕ) (px py : ℚ)
  | move (now : ℤ) (pointerId : ℕ) (px py : ℚ)
  | up (now : ℤ) (pointerId : ℕ)
  | frame
  deriving DecidableEq

/-- A range button, with what it has sent. -/
structure RangeRun where
  element : Element
  log : List Output := []

namespace Element

/-- What a button does with an event. -/
def act (H : Host) (e : Element) : RangeEvent → Element × List Output
  | .down now pointerId px py => (e.handleTouchDown (H.atTime now) pointerId px py).2
  | .move now pointerId px py => e.handleTouchMove (H.atTime now) pointerId px py
  | .up now pointerId => e.handleTouchUp (H.atTime now) pointerId
  | .frame => (e.runFling, [])

/-- The binding of `lastActivatedIndex`. -/
def activeKey (e : Element) : Option Binding :=
  e.scroller.bind fun s =>
    if 0 ≤ s.lastActivatedIndex then
      some (getBindingForRangeIndex (rangeOf e) s.lastActivatedIndex)
    else none

/-- The posted runs of `flingRunnable`. -/
def posted (e : Element) : ℕ := (e.scroller.map RangeScroller.pending).getD 0

end Element

/-- One event. -/
def RangeRun.step (H : Host) (s : RangeRun) (a : RangeEvent) : RangeRun :=
  let r := s.element.act H a
  ⟨r.1, s.log ++ r.2⟩

/-! ### The scroller -/

namespace RangeScroller

/-- A scroller without a finger: a callback is posted exactly during a fling. -/
structure Rests (s : RangeScroller) : Prop where
  isDragging : s.isDragging = false
  index : s.lastActivatedIndex = -1
  pending : s.pending = if s.flinging then 1 else 0

/-- A scroller under a finger: the active index is the one under the finger. -/
structure Drags (H : Host) (e : Element) (s : RangeScroller) : Prop where
  isDragging : s.isDragging = true
  index : s.lastActivatedIndex = s.wrappedIndex H e
  flinging : s.flinging = false
  pending : s.pending = 0

theorem rests_default : Rests {} := ⟨rfl, rfl, rfl⟩

/-- The row moves with the finger. -/
theorem wrappedIndex_drag (H : Host) (e : Element) (s : RangeScroller) (now : ℤ) (x y : ℚ) :
    (s.drag (H.atTime now) e x y).wrappedIndex H e = s.wrappedIndex H e := by
  by_cases ho : e.orientation = 0
  · have hsum : x - (e.getBoundingBox H.snappingSize).left + (s.scrollOffset - (x - s.lastTouchX)) =
        s.lastTouchX - (e.getBoundingBox H.snappingSize).left + s.scrollOffset := by
      ring
    simp only [wrappedIndex, drag, if_pos ho, hsum]
  · have hsum : y - (e.getBoundingBox H.snappingSize).top + (s.scrollOffset - (y - s.lastTouchY)) =
        s.lastTouchY - (e.getBoundingBox H.snappingSize).top + s.scrollOffset := by
      ring
    simp only [wrappedIndex, drag, if_neg ho, hsum]

/-- An index of the range has a key of its own. -/
theorem sendIndex_wrappedIndex (H : Host) (e : Element) (s : RangeScroller) (d : Bool) :
    sendIndex H (rangeOf e) (s.wrappedIndex H e) d =
      [.onKeyEvent (getBindingForRangeIndex (rangeOf e) (s.wrappedIndex H e)) d] := by
  have h0 := wrappedIndex_nonneg H e s
  have hmax := wrappedIndex_lt H e s
  revert h0 hmax
  generalize s.wrappedIndex H e = index
  intro h0 hmax
  cases hr : rangeOf e <;> rw [hr] at hmax <;> simp only [Range.max] at hmax <;>
    interval_cases index <;> rfl

theorem drags_handleTouchDown (H : Host) (e : Element) {s : RangeScroller} (hs : s.Rests)
    (now : ℤ) (x y : ℚ) :
    (s.handleTouchDown (H.atTime now) e x y).1.Drags H e ∧
      (s.handleTouchDown (H.atTime now) e x y).2 =
        [.onKeyEvent (getBindingForRangeIndex (rangeOf e)
          (s.handleTouchDown (H.atTime now) e x y).1.lastActivatedIndex) true] := by
  have h0 := wrappedIndex_nonneg (H.atTime now) e (s.grab x y)
  have hne : (s.grab x y).wrappedIndex (H.atTime now) e ≠ (s.grab x y).lastActivatedIndex := by
    show _ ≠ -1
    omega
  have hpending : (s.grab x y).pending = 0 := by
    show (if s.flinging then 0 else s.pending) = 0
    rw [hs.pending]
    split_ifs <;> rfl
  have hneg : ¬ 0 ≤ (s.grab x y).lastActivatedIndex := by
    show ¬ (0 : ℤ) ≤ -1
    omega
  unfold handleTouchDown updateActivatedIndex
  simp only [if_neg hne, if_neg hneg, List.nil_append, sendIndex_wrappedIndex]
  exact ⟨⟨rfl, rfl, rfl, hpending⟩, trivial⟩

/-- A move keeps the index and sends nothing. -/
theorem drags_handleTouchMove (H : Host) (e : Element) {s : RangeScroller} (hs : s.Drags H e)
    (now : ℤ) (x y : ℚ) :
    (s.handleTouchMove (H.atTime now) e x y).1.Drags H e ∧
      (s.handleTouchMove (H.atTime now) e x y).1.lastActivatedIndex = s.lastActivatedIndex ∧
      (s.handleTouchMove (H.atTime now) e x y).2 = [] := by
  have hindex : (s.drag (H.atTime now) e x y).wrappedIndex (H.atTime now) e =
      (s.drag (H.atTime now) e x y).lastActivatedIndex := by
    show _ = s.lastActivatedIndex
    rw [hs.index]
    exact wrappedIndex_drag H e s now x y
  unfold handleTouchMove updateActivatedIndex
  simp only [if_pos hs.isDragging, if_pos hindex]
  exact ⟨⟨hs.isDragging, hindex.symm, hs.flinging, hs.pending⟩, rfl, trivial⟩

theorem rests_handleTouchUp (H : Host) (e : Element) {s : RangeScroller} (hs : s.Drags H e)
    (now : ℤ) :
    (s.handleTouchUp (H.atTime now) e).1.Rests ∧
      (s.handleTouchUp (H.atTime now) e).2 =
        [.onKeyEvent (getBindingForRangeIndex (rangeOf e) s.lastActivatedIndex) false] := by
  have h0 : 0 ≤ s.lastActivatedIndex := hs.index ▸ wrappedIndex_nonneg H e s
  unfold handleTouchUp
  simp only [if_pos h0, hs.flinging, hs.pending]
  refine ⟨⟨rfl, rfl, ?_⟩, ?_⟩
  · by_cases hv : flingMinVelocity < |s.velocity|
    · simp [hv]
    · simp [hv]
  · rw [hs.index]
    exact sendIndex_wrappedIndex (H.atTime now) e s false

/-- A frame slows the fling down, or ends it. -/
theorem rests_flingRunnable {s : RangeScroller} (hs : s.Rests) (hp : 0 < s.pending) :
    s.flingRunnable.Rests ∧ s.flingRunnable.velocity = s.velocity * (23 / 25) ∧
      (|s.velocity * (23 / 25)| < flingMinVelocity → s.flingRunnable.pending = 0) := by
  have hone : s.pending = 1 := by
    have := hs.pending
    split_ifs at this <;> omega
  have hfling : s.flinging = true := by
    by_contra hf
    have := hs.pending
    rw [if_neg hf] at this
    omega
  unfold flingRunnable
  simp only [hs.isDragging, hone, Bool.false_eq_true, if_false]
  by_cases hv : |s.velocity * (23 / 25)| < flingMinVelocity
  · simp only [if_pos hv]
    exact ⟨⟨rfl, hs.index, rfl⟩, trivial, fun _ => trivial⟩
  · simp only [if_neg hv]
    exact ⟨⟨rfl, hs.index, by rw [if_pos hfling]⟩, trivial, fun h => absurd h hv⟩

end RangeScroller

/-! ### The button -/

namespace Element

/-- A range button without a finger. -/
structure Free (e : Element) : Prop where
  type : e.type = .rangeButton
  pointer : e.currentPointerId = -1
  states : e.states = fun _ => false
  rests : ∀ s, e.scroller = some s → s.Rests

/-- A range button under the finger of a pointer. -/
structure Busy (H : Host) (pointerId : ℕ) (e : Element) : Prop where
  type : e.type = .rangeButton
  pointer : e.currentPointerId = pointerId
  states : e.states = fun _ => false
  drags : ∃ s, e.scroller = some s ∧ s.Drags H e

theorem Free.activeKey {e : Element} (h : e.Free) : e.activeKey = none := by
  cases hs : e.scroller with
  | none => rw [Element.activeKey, hs]; rfl
  | some s =>
    rw [Element.activeKey, hs, Option.bind_some, (h.rests s hs).index, if_neg (by omega)]

theorem activeKey_of_drags {H : Host} {e : Element} {s : RangeScroller} (hs : e.scroller = some s)
    (h : s.Drags H e) :
    e.activeKey = some (getBindingForRangeIndex (rangeOf e) s.lastActivatedIndex) := by
  rw [Element.activeKey, hs, Option.bind_some, if_pos (h.index ▸ wrappedIndex_nonneg H e s)]

theorem releaseStates_false (H : Host) (bs : List Binding) :
    releaseStates H bs (fun _ => false) = [] := by
  simp [releaseStates]

theorem Free.rests_getD {e : Element} (h : e.Free) : (e.scroller.getD {}).Rests := by
  cases hs : e.scroller with
  | none => exact rests_default
  | some s => exact h.rests s hs

/-- A finger on a free button presses a key. -/
theorem Free.down_inside (H : Host) {e : Element} (h : e.Free) (now : ℤ) (pointerId : ℕ)
    {px py : ℚ} (hin : e.containsPoint H.snappingSize px py = true) :
    (e.act H (.down now pointerId px py)).1.Busy H pointerId ∧
      rangeOf (e.act H (.down now pointerId px py)).1 = rangeOf e ∧
      ∃ b, (e.act H (.down now pointerId px py)).1.activeKey = some b ∧
        (e.act H (.down now pointerId px py)).2 = [.onKeyEvent b true] := by
  obtain ⟨hdrags, hout⟩ :=
    drags_handleTouchDown H (e.cacheBoundingBox H.snappingSize) h.rests_getD now px py
  have hact : e.act H (.down now pointerId px py) =
      (e.cacheBoundingBox H.snappingSize).capture (H.atTime now) pointerId px py := by
    show (e.handleTouchDown (H.atTime now) pointerId px py).2 = _
    rw [handleTouchDown, if_pos h.pointer,
      show (H.atTime now).snappingSize = H.snappingSize from rfl, if_pos hin]
  have htype : (e.cacheBoundingBox H.snappingSize).type = .rangeButton := h.type
  simp only [hact, capture, htype]
  have hbusy : Drags H { (e.cacheBoundingBox H.snappingSize).withPointer pointerId with
      scroller := some ((e.scroller.getD {}).handleTouchDown (H.atTime now)
        (e.cacheBoundingBox H.snappingSize) px py).1 }
      ((e.scroller.getD {}).handleTouchDown (H.atTime now)
        (e.cacheBoundingBox H.snappingSize) px py).1 :=
    ⟨hdrags.isDragging, hdrags.index, hdrags.flinging, hdrags.pending⟩
  exact ⟨⟨h.type, rfl, h.states, _, rfl, hbusy⟩, rfl, _, activeKey_of_drags rfl hbusy, hout⟩

/-- The events that a button does not take: its box may be computed. -/
def Misses (H : Host) (e : Element) : RangeEvent → Prop
  | .down _ _ px py => e.currentPointerId ≠ -1 ∨ e.containsPoint H.snappingSize px py = false
  | .move _ pointerId _ _ => (pointerId : ℤ) ≠ e.currentPointerId
  | .up _ pointerId => (pointerId : ℤ) ≠ e.currentPointerId
  | .frame => e.posted = 0

/-- The same button, up to the cached box. -/
structure SameButton (H : Host) (e e' : Element) : Prop where
  type : e'.type = e.type
  pointer : e'.currentPointerId = e.currentPointerId
  states : e'.states = e.states
  scroller : e'.scroller = e.scroller
  range : e'.range = e.range
  orientation : e'.orientation = e.orientation
  scale : e'.scale = e.scale
  box : e'.getBoundingBox H.snappingSize = e.getBoundingBox H.snappingSize

theorem sameButton_refl (H : Host) (e : Element) : SameButton H e e :=
  ⟨rfl, rfl, rfl, rfl, rfl, rfl, rfl, rfl⟩

theorem Misses.act {H : Host} {e : Element} {a : RangeEvent} (h : e.Misses H a) :
    SameButton H e (e.act H a).1 ∧ (e.act H a).2 = [] := by
  cases a with
  | down now pointerId px py =>
    show SameButton H e (e.handleTouchDown (H.atTime now) pointerId px py).2.1 ∧
      (e.handleTouchDown (H.atTime now) pointerId px py).2.2 = []
    rw [handleTouchDown]
    by_cases hp : e.currentPointerId = -1
    · have hin : e.containsPoint (H.atTime now).snappingSize px py = false :=
        h.resolve_left (not_not_intro hp)
      rw [if_pos hp, if_neg (by rw [hin]; exact Bool.false_ne_true)]
      exact ⟨⟨rfl, rfl, rfl, rfl, rfl, rfl, rfl, rfl⟩, rfl⟩
    · rw [if_neg hp]
      exact ⟨sameButton_refl H e, rfl⟩
  | move now pointerId px py =>
    show SameButton H e (e.handleTouchMove (H.atTime now) pointerId px py).1 ∧
      (e.handleTouchMove (H.atTime now) pointerId px py).2 = []
    rw [handleTouchMove, if_neg h]
    exact ⟨sameButton_refl H e, rfl⟩
  | up now pointerId =>
    show SameButton H e (e.handleTouchUp (H.atTime now) pointerId).1 ∧
      (e.handleTouchUp (H.atTime now) pointerId).2 = []
    rw [handleTouchUp, if_neg h]
    exact ⟨sameButton_refl H e, rfl⟩
  | frame =>
    have hmap : e.runFling.scroller = e.scroller := by
      cases hs : e.scroller with
      | none => rw [runFling, hs]; rfl
      | some s =>
        have hzero : s.pending = 0 := by
          have hposted : e.posted = 0 := h
          rwa [posted, hs, Option.map_some, Option.getD_some] at hposted
        simp [runFling, hs, hzero]
    exact ⟨⟨rfl, rfl, rfl, hmap, rfl, rfl, rfl, rfl⟩, rfl⟩

section SameButton

variable {H : Host} {e e' : Element}

theorem SameButton.activeKey (h : SameButton H e e') : e'.activeKey = e.activeKey := by
  rw [Element.activeKey, Element.activeKey, rangeOf, rangeOf, h.scroller, h.range]

theorem SameButton.posted (h : SameButton H e e') : e'.posted = e.posted := by
  rw [Element.posted, Element.posted, h.scroller]

theorem SameButton.free (h : SameButton H e e') (hf : e.Free) : e'.Free :=
  ⟨h.type.trans hf.type, h.pointer.trans hf.pointer, h.states.trans hf.states,
    fun s hs => hf.rests s (h.scroller ▸ hs)⟩

theorem SameButton.busy (h : SameButton H e e') {pointerId : ℕ} (hb : e.Busy H pointerId) :
    e'.Busy H pointerId := by
  obtain ⟨s, hs, hd⟩ := hb.drags
  have hindex : s.wrappedIndex H e' = s.wrappedIndex H e := by
    simp only [wrappedIndex, rangeOf, getElementSize, h.box, h.orientation, h.range, h.scale]
  exact ⟨h.type.trans hb.type, h.pointer.trans hb.pointer, h.states.trans hb.states, s,
    h.scroller.trans hs, hd.isDragging, hd.index.trans hindex.symm, hd.flinging, hd.pending⟩

end SameButton

section Busy

variable {H : Host} {pointerId : ℕ} {e : Element}

theorem Busy.posted (h : e.Busy H pointerId) : e.posted = 0 := by
  obtain ⟨s, hs, hd⟩ := h.drags
  rw [Element.posted, hs]
  exact hd.pending

/-- A move of the finger keeps the key and sends nothing. -/
theorem Busy.move (h : e.Busy H pointerId) (now : ℤ) (px py : ℚ) :
    (e.act H (.move now pointerId px py)).1.Busy H pointerId ∧
      (e.act H (.move now pointerId px py)).1.activeKey = e.activeKey ∧
      (e.act H (.move now pointerId px py)).2 = [] := by
  obtain ⟨s, hs, hd⟩ := h.drags
  obtain ⟨hdrags, hindex, hout⟩ := drags_handleTouchMove H e hd now px py
  have hact : e.act H (.move now pointerId px py) =
      ({ e.cacheBoundingBox H.snappingSize with
          scroller := some (s.handleTouchMove (H.atTime now) e px py).1 }, []) := by
    show e.handleTouchMove (H.atTime now) pointerId px py = _
    simp only [handleTouchMove, h.pointer, h.type, hs, hd.isDragging, hout, if_true]
    rfl
  have hbusy : Drags H { e.cacheBoundingBox H.snappingSize with
      scroller := some (s.handleTouchMove (H.atTime now) e px py).1 }
      (s.handleTouchMove (H.atTime now) e px py).1 :=
    ⟨hdrags.isDragging, hdrags.index, hdrags.flinging, hdrags.pending⟩
  rw [hact]
  refine ⟨⟨h.type, h.pointer, h.states, _, rfl, hbusy⟩, ?_, rfl⟩
  rw [activeKey_of_drags rfl hbusy, activeKey_of_drags hs hd, hindex]
  rfl

/-- When the finger goes up the key is released. -/
theorem Busy.up (h : e.Busy H pointerId) (now : ℤ) :
    (e.act H (.up now pointerId)).1.Free ∧
      ∃ b, e.activeKey = some b ∧ (e.act H (.up now pointerId)).2 = [.onKeyEvent b false] := by
  obtain ⟨s, hs, hd⟩ := h.drags
  obtain ⟨hrests, hout⟩ := rests_handleTouchUp H e hd now
  have hact : e.act H (.up now pointerId) =
      ({ e.withPointer (-1) with
          states := fun _ => false
          scroller := some (s.handleTouchUp (H.atTime now) e).1
          currentPosition := none }, (s.handleTouchUp (H.atTime now) e).2) := by
    show e.handleTouchUp (H.atTime now) pointerId = _
    simp only [handleTouchUp, h.pointer, h.type, h.states, hs, releaseStates_false, if_true,
      List.nil_append]
  rw [hact]
  refine ⟨⟨h.type, rfl, rfl, fun s' hs' => ?_⟩, _, activeKey_of_drags hs hd, hout⟩
  obtain rfl := Option.some.inj hs'
  exact hrests

theorem Busy.ne_pointer (h : e.Busy H pointerId) {id : ℕ} (hne : id ≠ pointerId) :
    (id : ℤ) ≠ e.currentPointerId := by
  rw [h.pointer]
  exact_mod_cast hne

/-- What is not a move or the end of its finger does not concern a button that has one. -/
theorem Busy.misses (h : e.Busy H pointerId) {a : RangeEvent}
    (hmove : ∀ now px py, a ≠ .move now pointerId px py) (hup : ∀ now, a ≠ .up now pointerId) :
    e.Misses H a := by
  cases a with
  | down now id px py =>
    left
    rw [h.pointer]
    omega
  | move now id px py => exact h.ne_pointer fun hid => hmove now px py (hid ▸ rfl)
  | up now id => exact h.ne_pointer fun hid => hup now (hid ▸ rfl)
  | frame => exact h.posted

end Busy

/-- A frame of a fling. -/
theorem Free.frame (H : Host) {e : Element} (h : e.Free) (hp : e.posted ≠ 0) :
    ∃ s, e.scroller = some s ∧ 0 < s.pending ∧
      (e.act H .frame).1 = { e with scroller := some s.flingRunnable } ∧
      (e.act H .frame).1.Free := by
  cases hs : e.scroller with
  | none =>
    rw [posted, hs] at hp
    exact absurd rfl hp
  | some s =>
    have hpos : 0 < s.pending := by
      rw [posted, hs, Option.map_some, Option.getD_some] at hp
      omega
    have hact : (e.act H .frame).1 = { e with scroller := some s.flingRunnable } := by
      show e.runFling = _
      simp only [runFling, hs, Option.map_some, if_pos hpos]
    refine ⟨s, rfl, hpos, hact, hact ▸ ⟨h.type, h.pointer, h.states, fun s' hs' => ?_⟩⟩
    obtain rfl := Option.some.inj hs'
    exact (rests_flingRunnable (h.rests s hs) hpos).1

/-- Without a finger only a touch of the box or a frame concerns a button. -/
theorem Free.misses {H : Host} {e : Element} (h : e.Free) {a : RangeEvent}
    (hdown : ∀ now id px py, a = .down now id px py → e.containsPoint H.snappingSize px py = false)
    (hframe : a = .frame → e.posted = 0) : e.Misses H a := by
  cases a with
  | down now id px py => exact Or.inr (hdown now id px py rfl)
  | move now id px py =>
    show (id : ℤ) ≠ e.currentPointerId
    rw [h.pointer]
    omega
  | up now id =>
    show (id : ℤ) ≠ e.currentPointerId
    rw [h.pointer]
    omega
  | frame => exact hframe rfl

/-- What concerns a button without a finger is a frame of its fling or a touch of its box. -/
theorem Free.cases_of_not_misses {H : Host} {e : Element} (h : e.Free) {a : RangeEvent}
    (hm : ¬ e.Misses H a) :
    a = .frame ∧ e.posted ≠ 0 ∨
      ∃ now id px py, a = .down now id px py ∧ e.containsPoint H.snappingSize px py = true := by
  cases a with
  | down now id px py =>
    refine Or.inr ⟨now, id, px, py, rfl, ?_⟩
    by_contra hin
    exact hm (Or.inr (Bool.eq_false_iff.2 hin))
  | frame => exact Or.inl ⟨rfl, hm⟩
  | move | up => exact absurd (h.misses (by simp) (by simp)) hm

/-- A range button between two events. -/
def Ready (H : Host) (e : Element) : Prop := e.Free ∨ ∃ pointerId, e.Busy H pointerId

/-- What an event can do: nothing that is sent, a press by a button that held nothing, or the
release of the key that it held. -/
theorem act_cases {H : Host} {e : Element} (h : e.Ready H) (a : RangeEvent) :
    (e.act H a).1.Ready H ∧
      ((e.act H a).1.activeKey = e.activeKey ∧ (e.act H a).2 = [] ∨
        e.activeKey = none ∧
          (∃ b, (e.act H a).1.activeKey = some b ∧ (e.act H a).2 = [.onKeyEvent b true]) ∨
        (e.act H a).1.activeKey = none ∧
          ∃ b, e.activeKey = some b ∧ (e.act H a).2 = [.onKeyEvent b false]) := by
  rcases h with h | ⟨pointerId, h⟩
  · by_cases hm : e.Misses H a
    · exact ⟨Or.inl (hm.act.1.free h), Or.inl ⟨hm.act.1.activeKey, hm.act.2⟩⟩
    · rcases h.cases_of_not_misses hm with ⟨rfl, hp⟩ | ⟨now, id, px, py, rfl, hin⟩
      · obtain ⟨s, -, -, -, hfree⟩ := h.frame H hp
        exact ⟨Or.inl hfree, Or.inl ⟨hfree.activeKey.trans h.activeKey.symm, rfl⟩⟩
      · obtain ⟨hbusy, -, hpress⟩ := h.down_inside H now id hin
        exact ⟨Or.inr ⟨id, hbusy⟩, Or.inr (Or.inl ⟨h.activeKey, hpress⟩)⟩
  · by_cases hmove : ∃ now px py, a = .move now pointerId px py
    · obtain ⟨now, px, py, rfl⟩ := hmove
      obtain ⟨hbusy, hkey, hout⟩ := h.move now px py
      exact ⟨Or.inr ⟨pointerId, hbusy⟩, Or.inl ⟨hkey, hout⟩⟩
    · by_cases hup : ∃ now, a = .up now pointerId
      · obtain ⟨now, rfl⟩ := hup
        obtain ⟨hfree, hrelease⟩ := h.up now
        exact ⟨Or.inl hfree, Or.inr (Or.inr ⟨hfree.activeKey, hrelease⟩)⟩
      · have hm : e.Misses H a :=
          h.misses (fun now px py ha => hmove ⟨now, px, py, ha⟩) fun now ha => hup ⟨now, ha⟩
        exact ⟨Or.inr ⟨pointerId, hm.act.1.busy h⟩, Or.inl ⟨hm.act.1.activeKey, hm.act.2⟩⟩

theorem Ready.posted_le {H : Host} {e : Element} (h : e.Ready H) : e.posted ≤ 1 := by
  rcases h with h | ⟨pointerId, h⟩
  · cases hs : e.scroller with
    | none => simp [posted, hs]
    | some s =>
      rw [posted, hs, Option.map_some, Option.getD_some, (h.rests s hs).pending]
      split_ifs <;> omega
  · rw [h.posted]
    omega

/-- The active key is one of the range. -/
theorem Ready.activeKey_mem {H : Host} {e : Element} (h : e.Ready H) {b : Binding}
    (hb : e.activeKey = some b) :
    ∃ index, 0 ≤ index ∧ index < (rangeOf e).max ∧
      b = getBindingForRangeIndex (rangeOf e) index := by
  rcases h with h | ⟨pointerId, h⟩
  · rw [h.activeKey] at hb
    cases hb
  · obtain ⟨s, hs, hd⟩ := h.drags
    rw [activeKey_of_drags hs hd] at hb
    refine ⟨s.lastActivatedIndex, ?_, ?_, (Option.some.inj hb).symm⟩
    · exact hd.index ▸ wrappedIndex_nonneg H e s
    · exact hd.index ▸ wrappedIndex_lt H e s

end Element

/-! ### Runs -/

namespace RangeRun

variable (H : Host)

/-- What is down is the key of the active index, and never was more than one key down. -/
structure Sound (s : RangeRun) : Prop where
  ready : s.element.Ready H
  down : ∀ k, Down (events s.log) k ↔ ∃ b, s.element.activeKey = some b ∧ k = .key b
  once : ∀ pre, pre <+: s.log → ∀ k k', Down (events pre) k → Down (events pre) k' → k = k'

variable {H}

theorem Sound.step {s : RangeRun} (h : s.Sound H) (a : RangeEvent) : (s.step H a).Sound H := by
  obtain ⟨hready, hcases⟩ := Element.act_cases h.ready a
  have hdown : ∀ k, Down (events (s.step H a).log) k ↔
      ∃ b, (s.step H a).element.activeKey = some b ∧ k = .key b := by
    intro k
    show Down (events (s.log ++ (s.element.act H a).2)) k ↔
      ∃ b, (s.element.act H a).1.activeKey = some b ∧ k = .key b
    rcases hcases with ⟨hkey, hout⟩ | ⟨hnone, b, hkey, hout⟩ | ⟨hkey, b, hsome, hout⟩
    · rw [hkey, hout, List.append_nil]
      exact h.down k
    · rw [hkey, hout, events_append, show events [.onKeyEvent b true] = [(.key b, true)] from rfl,
        down_concat, h.down, hnone]
      by_cases hk : Signal.key b = k
      · simp [← hk]
      · simp [hk, Ne.symm hk]
    · rw [hkey, hout, events_append, show events [.onKeyEvent b false] = [(.key b, false)] from rfl,
        down_concat, h.down, hsome]
      by_cases hk : Signal.key b = k
      · simp [hk]
      · simp [hk, Ne.symm hk]
  refine ⟨hready, hdown, fun pre hpre k k' hk hk' => ?_⟩
  -- at most one call was made, so the row of calls is either the old one or complete
  have hlog : pre <+: s.log ∨ pre = (s.step H a).log := by
    show pre <+: s.log ∨ pre = s.log ++ (s.element.act H a).2
    rcases hcases with ⟨-, hout⟩ | ⟨-, b, -, hout⟩ | ⟨-, b, -, hout⟩
    · rw [RangeRun.step, hout, List.append_nil] at hpre
      exact Or.inl hpre
    · rw [RangeRun.step, hout] at hpre
      rw [hout]
      exact (List.prefix_concat_iff.1 hpre).symm
    · rw [RangeRun.step, hout] at hpre
      rw [hout]
      exact (List.prefix_concat_iff.1 hpre).symm
  rcases hlog with hold | rfl
  · exact h.once pre hold k k' hk hk'
  · obtain ⟨b, hb, rfl⟩ := (hdown k).1 hk
    obtain ⟨b', hb', rfl⟩ := (hdown k').1 hk'
    rw [Option.some.inj (hb.symm.trans hb')]

theorem sound_start {e : Element} (h : e.Free) : Sound H ⟨e, []⟩ := by
  refine ⟨Or.inl h, fun k => ?_, fun pre hpre k k' hk => ?_⟩
  · rw [h.activeKey]
    simp [Down]
  · rw [List.prefix_nil.1 hpre] at hk
    simp [Down] at hk

theorem sound_exec {s : RangeRun} (h : s.Sound H) (as : List RangeEvent) :
    (exec (step H) s as).Sound H := by
  induction as generalizing s with
  | nil => exact h
  | cons a as ih => exact ih (h.step a)

/-- During a gesture nothing is sent and the key stays. -/
theorem exec_busy {pointerId : ℕ} (as : List RangeEvent) {s : RangeRun}
    (h : s.element.Busy H pointerId) (hup : ∀ now, RangeEvent.up now pointerId ∉ as) :
    (exec (step H) s as).element.Busy H pointerId ∧
      (exec (step H) s as).element.activeKey = s.element.activeKey ∧
      (exec (step H) s as).log = s.log := by
  induction as generalizing s with
  | nil => exact ⟨h, rfl, rfl⟩
  | cons a as ih =>
    have hstep : (s.step H a).element.Busy H pointerId ∧
        (s.step H a).element.activeKey = s.element.activeKey ∧ (s.step H a).log = s.log := by
      by_cases hmove : ∃ now px py, a = .move now pointerId px py
      · obtain ⟨now, px, py, rfl⟩ := hmove
        obtain ⟨hbusy, hkey, hout⟩ := h.move now px py
        exact ⟨hbusy, hkey, by rw [step, hout, List.append_nil]⟩
      · have hm : s.element.Misses H a :=
          h.misses (fun now px py ha => hmove ⟨now, px, py, ha⟩)
            fun now ha => hup now (ha ▸ List.mem_cons_self)
        exact ⟨hm.act.1.busy h, hm.act.1.activeKey, by rw [step, hm.act.2, List.append_nil]⟩
    obtain ⟨hbusy, hkey, hlog⟩ := ih hstep.1 fun now hmem => hup now (List.mem_cons_of_mem a hmem)
    exact ⟨hbusy, hkey.trans hstep.2.1, hlog.trans hstep.2.2⟩

/-- The finger of a pointer at a point, whatever comes before it goes up again, and its end: one
key is pressed at the beginning and released at the end. -/
def ClicksOnce (H : Host) (s : RangeRun) (pointerId : ℕ) (px py : ℚ) : Prop :=
  ∀ now, ∃ index, 0 ≤ index ∧ index < (rangeOf s.element).max ∧
    ∀ ms, (∀ t, RangeEvent.up t pointerId ∉ ms) →
      (exec (step H) s (.down now pointerId px py :: ms)).log =
          s.log ++ [.onKeyEvent (getBindingForRangeIndex (rangeOf s.element) index) true] ∧
        ∀ t, (exec (step H) s (.down now pointerId px py :: ms ++ [.up t pointerId])).log =
            s.log ++ [.onKeyEvent (getBindingForRangeIndex (rangeOf s.element) index) true,
              .onKeyEvent (getBindingForRangeIndex (rangeOf s.element) index) false] ∧
          (exec (step H) s
            (.down now pointerId px py :: ms ++ [.up t pointerId])).element.currentPointerId = -1

theorem clicksOnce_of_free {s : RangeRun} (h : s.element.Free) (pointerId : ℕ) {px py : ℚ}
    (hin : s.element.containsPoint H.snappingSize px py = true) :
    s.ClicksOnce H pointerId px py := by
  intro now
  obtain ⟨hbusy, hrange, b, hkey, hout⟩ := h.down_inside H now pointerId hin
  obtain ⟨index, h0, hmax, hb⟩ := Element.Ready.activeKey_mem (Or.inr ⟨pointerId, hbusy⟩) hkey
  rw [hrange] at hmax hb
  subst hb
  refine ⟨index, h0, hmax, fun ms hms => ?_⟩
  obtain ⟨hbusy', hkey', hlog⟩ := exec_busy ms (s := s.step H (.down now pointerId px py)) hbusy hms
  have hpress : (exec (step H) s (.down now pointerId px py :: ms)).log =
      s.log ++ [.onKeyEvent (getBindingForRangeIndex (rangeOf s.element) index) true] := by
    rw [exec_cons, hlog, step, hout]
  refine ⟨hpress, fun t => ?_⟩
  obtain ⟨hfree, b', hb', hrelease⟩ := hbusy'.up t
  rw [hkey'] at hb'
  obtain rfl := Option.some.inj (hb'.symm.trans hkey)
  rw [exec_concat]
  refine ⟨?_, hfree.pointer⟩
  show (exec (step H) s (.down now pointerId px py :: ms)).log ++ _ = _
  rw [hpress, List.append_assoc]
  exact congrArg _ (congrArg _ hrelease)

/-! ### The end of a fling -/

theorem abs_mul_pow_succ (v : ℚ) (n : ℕ) :
    |v| * (23 / 25) ^ (n + 1) = |v * (23 / 25)| * (23 / 25) ^ n := by
  rw [abs_mul, abs_of_pos (by norm_num : (0 : ℚ) < 23 / 25), pow_succ', mul_assoc]

/-- Frames that slow a fling down below the least velocity end it, whatever comes between. -/
theorem posted_eq_zero_of_count {n : ℕ} (bs : List RangeEvent) {s : RangeRun}
    (h : s.element.Free) (hv : ∀ sc, s.element.scroller = some sc →
      |sc.velocity| * (23 / 25) ^ (n + 1) < flingMinVelocity)
    (hn : n + 1 ≤ bs.count .frame) :
    ∃ pre, pre <+: bs ∧ (exec (step H) s pre).element.posted = 0 := by
  induction bs generalizing s n with
  | nil => simp at hn
  | cons a bs ih =>
    have extend : (∃ pre, pre <+: bs ∧ (exec (step H) (s.step H a) pre).element.posted = 0) →
        ∃ pre, pre <+: a :: bs ∧ (exec (step H) s pre).element.posted = 0 := by
      rintro ⟨pre, hpre, hzero⟩
      exact ⟨a :: pre, List.cons_prefix_cons.2 ⟨rfl, hpre⟩, hzero⟩
    by_cases hp : s.element.posted = 0
    · exact ⟨[], List.nil_prefix, hp⟩
    · by_cases hm : s.element.Misses H a
      · have hframe : a ≠ .frame := by
          rintro rfl
          exact hp hm
        rw [List.count_cons_of_ne hframe] at hn
        refine extend (ih (s := s.step H a) (hm.act.1.free h) (fun sc hsc => hv sc ?_) hn)
        rw [← hm.act.1.scroller]
        exact hsc
      · rcases h.cases_of_not_misses hm with ⟨rfl, -⟩ | ⟨now, id, px, py, rfl, hin⟩
        · obtain ⟨sc, hsc, hpos, hact, hfree⟩ := h.frame H hp
          obtain ⟨-, hvel, hstop⟩ := rests_flingRunnable (h.rests sc hsc) hpos
          have hslow := abs_mul_pow_succ sc.velocity n ▸ hv sc hsc
          cases n with
          | zero =>
            rw [pow_zero, mul_one] at hslow
            refine extend ⟨[], List.nil_prefix, ?_⟩
            show (s.element.act H .frame).1.posted = 0
            rw [hact]
            exact hstop hslow
          | succ n =>
            rw [List.count_cons_self] at hn
            refine extend (ih (n := n) (s := s.step H .frame) hfree (fun sc' hsc' => ?_) (by omega))
            have hsc'' : (s.element.act H .frame).1.scroller = some sc' := hsc'
            rw [hact] at hsc''
            obtain rfl := Option.some.inj hsc''
            rwa [hvel]
        · -- a finger takes the button, and its callback is removed
          exact extend ⟨[], List.nil_prefix, (h.down_inside H now id hin).1.posted⟩

theorem fling_stops {s : RangeRun} (h : s.element.Ready H) :
    ∃ n, ∀ bs : List RangeEvent, n ≤ bs.count .frame →
      ∃ pre, pre <+: bs ∧ (exec (step H) s pre).element.posted = 0 := by
  rcases h with h | ⟨pointerId, h⟩
  · cases hs : s.element.scroller with
    | none =>
      refine ⟨0, fun bs _ => ⟨[], List.nil_prefix, ?_⟩⟩
      show s.element.posted = 0
      simp [Element.posted, hs]
    | some sc =>
      obtain ⟨n, hn⟩ := exists_pow_lt_of_lt_one
        (div_pos (by norm_num [flingMinVelocity] : 0 < flingMinVelocity)
          (by positivity : 0 < |sc.velocity| + 1))
        (by norm_num : (23 / 25 : ℚ) < 1)
      rw [lt_div_iff₀ (by positivity)] at hn
      have hpow : (0 : ℚ) < (23 / 25) ^ n := by positivity
      have habs := abs_nonneg sc.velocity
      refine ⟨n + 1, fun bs hbs => posted_eq_zero_of_count bs h (n := n) (fun sc' hsc' => ?_) hbs⟩
      obtain rfl := Option.some.inj (hs.symm.trans hsc')
      rw [pow_succ]
      nlinarith
  · exact ⟨0, fun bs _ => ⟨[], List.nil_prefix, h.posted⟩⟩

/-- **One key per gesture.**  After any run of a range button, what is down is the key of the
active index, and never was more than one key down; a gesture that begins there presses one key,
whatever comes before its end, and releases it then; at most one callback is posted, a frame sends
nothing, and the fling ends after finitely many frames. -/
theorem one_key_per_gesture (H : Host) {e : Element} (he : e.Free) (as : List RangeEvent) :
    (∀ k, Down (events (exec (step H) ⟨e, []⟩ as).log) k ↔
        ∃ b, (exec (step H) ⟨e, []⟩ as).element.activeKey = some b ∧ k = .key b) ∧
      (∀ pre, pre <+: (exec (step H) ⟨e, []⟩ as).log → ∀ k k',
        Down (events pre) k → Down (events pre) k' → k = k') ∧
      (∀ pointerId px py, (exec (step H) ⟨e, []⟩ as).element.currentPointerId = -1 →
        (exec (step H) ⟨e, []⟩ as).element.containsPoint H.snappingSize px py = true →
        (exec (step H) ⟨e, []⟩ as).ClicksOnce H pointerId px py) ∧
      (exec (step H) ⟨e, []⟩ as).element.posted ≤ 1 ∧
      (exec (step H) ⟨e, []⟩ (as ++ [.frame])).log = (exec (step H) ⟨e, []⟩ as).log ∧
      ∃ n, ∀ bs : List RangeEvent, n ≤ bs.count .frame →
        ∃ pre, pre <+: bs ∧ (exec (step H) ⟨e, []⟩ (as ++ pre)).element.posted = 0 := by
  have hsound := sound_exec (sound_start (H := H) he) as
  refine ⟨hsound.down, hsound.once, fun pointerId px py hp hin => ?_, hsound.ready.posted_le, ?_,
    ?_⟩
  · rcases hsound.ready with hfree | ⟨id, hbusy⟩
    · exact clicksOnce_of_free hfree pointerId hin
    · rw [hbusy.pointer] at hp
      omega
  · rw [exec_concat]
    exact List.append_nil _
  · obtain ⟨n, hn⟩ := fling_stops hsound.ready
    refine ⟨n, fun bs hbs => ?_⟩
    obtain ⟨pre, hpre, hzero⟩ := hn bs hbs
    refine ⟨pre, hpre, ?_⟩
    rwa [exec_append]

/-- A finger on the first cell of a row of letters holds `A` down. -/
theorem letterRow_one_key :
    Down (events (exec (step rangeHost) ⟨letterRow {}, []⟩ [.down 0 7 5 5]).log) (.key .keyA) :=
  ((one_key_per_gesture rangeHost (e := letterRow {}) ⟨rfl, rfl, rfl, by
      intro s hs
      obtain rfl := Option.some.inj hs
      exact rests_default⟩ [.down 0 7 5 5]).1 (.key .keyA)).2 ⟨.keyA, by decide +kernel, rfl⟩

end RangeRun

end TermuxX11.VirtualKeys
