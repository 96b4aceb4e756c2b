import TermuxX11.VirtualKeys.View
import TermuxX11.Lib.Run

/-!
# Swipe or pinch

`SwipeDetector` compares the ways of two fingers from where the second one went down.  A swipe is
remembered in `mInSwipe` and never looked at again; a pinch is not remembered, and the next event
is judged afresh.  `isSwiping_moves` says what this comes to: the detector is swiping from the
first event on in which both fingers have moved the same way.
-/

namespace TermuxX11.Input

open Run

/-- The fields of the detector. -/
structure SwipeDetector where
  mInSwipe : Bool := false
  mFirstX0 : ℚ := 0
  mFirstY0 : ℚ := 0
  mFirstX1 : ℚ := 0
  mFirstY1 : ℚ := 0
  mInGesture : Bool := false
  deriving DecidableEq

namespace SwipeDetector

/-- `reset`. -/
def reset (d : SwipeDetector) : SwipeDetector := { d with mInSwipe := false, mInGesture := false }

/-- `isSwiping`. -/
def isSwiping (d : SwipeDetector) : Bool := d.mInSwipe

variable (mTouchSlopSquare : ℤ)

/-- `onTouchEvent`. -/
def onTouchEvent (d : SwipeDetector) (ev : VirtualKeys.MotionEvent) : SwipeDetector :=
  match ev.pointers with
  | [p₀, p₁] =>
    let d := if ev.action ≠ .move then d.reset else d
    if ev.action ≠ .move ∧ ev.action ≠ .pointerDown then d
    else if d.mInSwipe then d
    else if !d.mInGesture then
      { d with
        mFirstX0 := p₀.x, mFirstY0 := p₀.y, mFirstX1 := p₁.x, mFirstY1 := p₁.y, mInGesture := true }
    else
      let deltaX0 := p₀.x - d.mFirstX0
      let deltaY0 := p₀.y - d.mFirstY0
      let deltaX1 := p₁.x - d.mFirstX1
      let deltaY1 := p₁.y - d.mFirstY1
      let finger0Moved := decide ((mTouchSlopSquare : ℚ) < deltaX0 * deltaX0 + deltaY0 * deltaY0)
      let finger1Moved := decide ((mTouchSlopSquare : ℚ) < deltaX1 * deltaX1 + deltaY1 * deltaY1)
      if (!finger0Moved && !finger1Moved) || (finger0Moved && !finger1Moved) ||
          (!finger0Moved && finger1Moved) then d
      else { d with mInSwipe := decide (0 < deltaX0 * deltaX1 + deltaY0 * deltaY1) }
  | _ => d.reset

end SwipeDetector

/-! ### The decision -/

/-- An event with two pointers: their ids and places, and the index of the one it is about. -/
structure TwoFingers where
  ids : ℕ × ℕ := (0, 1)
  index : Fin 2 := 0
  first : ℚ × ℚ
  second : ℚ × ℚ
  deriving DecidableEq

namespace TwoFingers

variable (mTouchSlopSquare : ℤ) (start now : TwoFingers)

/-- The event. -/
def event (action : VirtualKeys.Action) : VirtualKeys.MotionEvent where
  action := action
  pointers :=
    [⟨now.ids.1, now.first.1, now.first.2⟩, ⟨now.ids.2, now.second.1, now.second.2⟩]
  actionIndex := now.index
  actionIndex_lt := now.index.isLt

/-- Every event with two fingers is of this form. -/
theorem exists_event {ev : VirtualKeys.MotionEvent} (h : ev.pointers.length = 2) :
    ∃ now : TwoFingers, now.event ev.action = ev := by
  obtain ⟨action, pointers, actionIndex, hlt⟩ := ev
  obtain ⟨p, q, rfl⟩ := List.length_eq_two.1 h
  exact ⟨⟨(p.id, q.id), ⟨actionIndex, hlt⟩, (p.x, p.y), (q.x, q.y)⟩, rfl⟩

/-- The squared way of a finger is beyond the slop. -/
def Beyond (p q : ℚ × ℚ) : Prop :=
  (mTouchSlopSquare : ℚ) < (q.1 - p.1) * (q.1 - p.1) + (q.2 - p.2) * (q.2 - p.2)

/-- Both fingers have moved. -/
def BothMoved : Prop :=
  Beyond mTouchSlopSquare start.first now.first ∧ Beyond mTouchSlopSquare start.second now.second

/-- Both fingers have moved, and the same way. -/
def SameWay : Prop :=
  BothMoved mTouchSlopSquare start now ∧
    0 < (now.first.1 - start.first.1) * (now.second.1 - start.second.1) +
      (now.first.2 - start.first.2) * (now.second.2 - start.second.2)

instance (p q : ℚ × ℚ) : Decidable (Beyond mTouchSlopSquare p q) :=
  inferInstanceAs (Decidable (_ < _))

instance : Decidable (BothMoved mTouchSlopSquare start now) :=
  inferInstanceAs (Decidable (_ ∧ _))

instance : Decidable (SameWay mTouchSlopSquare start now) :=
  inferInstanceAs (Decidable (_ ∧ _))

end TwoFingers

namespace SwipeDetector

open TwoFingers

variable (mTouchSlopSquare : ℤ) (d : SwipeDetector) (start : TwoFingers)

/-- The detector after a second finger went down and the two fingers moved. -/
def afterMoves (moves : List TwoFingers) : SwipeDetector :=
  exec (onTouchEvent mTouchSlopSquare) d
    (start.event .pointerDown :: moves.map fun m => m.event .move)

/-- Once both fingers have moved, the detector keeps what it says then. -/
def DecisionKept (before : List TwoFingers) (now : TwoFingers) (later : List TwoFingers) : Prop :=
  BothMoved mTouchSlopSquare start now → ∀ more, more <+: later →
    (afterMoves mTouchSlopSquare d start (before ++ now :: more)).isSwiping =
      (afterMoves mTouchSlopSquare d start (before ++ [now])).isSwiping

/-- A detector whose gesture began with the two fingers at `start`. -/
structure Begun (start : TwoFingers) (d : SwipeDetector) : Prop where
  first : start.first = (d.mFirstX0, d.mFirstY0)
  second : start.second = (d.mFirstX1, d.mFirstY1)
  inGesture : d.mInGesture = true

theorem begun_pointerDown :
    Begun start (d.onTouchEvent mTouchSlopSquare (start.event .pointerDown)) ∧
      (d.onTouchEvent mTouchSlopSquare (start.event .pointerDown)).mInSwipe = false := by
  simp only [onTouchEvent, event, reset]
  exact ⟨⟨rfl, rfl, rfl⟩, rfl⟩

variable {mTouchSlopSquare d start}

theorem Begun.move (h : Begun start d) (now : TwoFingers) :
    Begun start (d.onTouchEvent mTouchSlopSquare (now.event .move)) ∧
      (d.onTouchEvent mTouchSlopSquare (now.event .move)).mInSwipe =
        (d.mInSwipe || decide (SameWay mTouchSlopSquare start now)) := by
  obtain ⟨hfirst, hsecond, hin⟩ := h
  cases hswipe : d.mInSwipe with
  | true =>
    have heq : d.onTouchEvent mTouchSlopSquare (now.event .move) = d := by
      simp [onTouchEvent, event, hswipe]
    rw [heq]
    exact ⟨⟨hfirst, hsecond, hin⟩, hswipe⟩
  | false =>
    by_cases hmoved : BothMoved mTouchSlopSquare start now
    · have hboth := hmoved
      simp only [BothMoved, Beyond, hfirst, hsecond] at hboth
      have heq : d.onTouchEvent mTouchSlopSquare (now.event .move) =
          { d with mInSwipe := decide (SameWay mTouchSlopSquare start now) } := by
        simp only [SameWay, hmoved, true_and, hfirst, hsecond]
        simp [onTouchEvent, event, hswipe, hin, hboth.1, hboth.2]
      rw [heq]
      exact ⟨⟨hfirst, hsecond, hin⟩, rfl⟩
    · have hnot := hmoved
      simp only [BothMoved, Beyond, hfirst, hsecond, not_and_or] at hnot
      have heq : d.onTouchEvent mTouchSlopSquare (now.event .move) = d := by
        rcases hnot with hnot | hnot
        · simp [onTouchEvent, event, hswipe, hin, hnot]
        · simp [onTouchEvent, event, hswipe, hin, hnot]
      rw [heq, hswipe, Bool.false_or]
      exact ⟨⟨hfirst, hsecond, hin⟩, (decide_eq_false fun hs => hmoved hs.1).symm⟩

theorem isSwiping_moves (h : Begun start d) (moves : List TwoFingers) :
    (exec (onTouchEvent mTouchSlopSquare) d (moves.map fun m => m.event .move)).isSwiping =
      (d.mInSwipe || decide (∃ m ∈ moves, SameWay mTouchSlopSquare start m)) := by
  induction moves generalizing d with
  | nil => simp [isSwiping]
  | cons m moves ih =>
    have hmove : Begun start (d.onTouchEvent mTouchSlopSquare (m.event .move)) ∧ _ := h.move m
    obtain ⟨hbegun, hswipe⟩ := hmove
    rw [List.map_cons, exec_cons, ih hbegun, hswipe, Bool.or_assoc, ← Bool.decide_or]
    simp only [List.exists_mem_cons_iff]

/-- The detector is swiping from the first event on in which both fingers have moved the same
way. -/
theorem isSwiping_afterMoves (moves : List TwoFingers) :
    (afterMoves mTouchSlopSquare d start moves).isSwiping =
      decide (∃ m ∈ moves, SameWay mTouchSlopSquare start m) := by
  obtain ⟨hbegun, hswipe⟩ := begun_pointerDown mTouchSlopSquare d start
  rw [afterMoves, exec_cons, isSwiping_moves hbegun, hswipe, Bool.false_or]

/-- **A decision is kept** exactly if the fingers do not move the same way later, or have done so
before. -/
theorem decisionKept_iff (mTouchSlopSquare : ℤ) (d : SwipeDetector) (start : TwoFingers)
    (before : List TwoFingers) (now : TwoFingers) (later : List TwoFingers) :
    DecisionKept mTouchSlopSquare d start before now later ↔
      (BothMoved mTouchSlopSquare start now →
        (∃ m ∈ later, SameWay mTouchSlopSquare start m) →
          ∃ m ∈ before ++ [now], SameWay mTouchSlopSquare start m) := by
  refine forall_congr' fun _ => ?_
  constructor
  · rintro h ⟨m, hm, hsame⟩
    have heq := h later (List.prefix_refl later)
    rw [isSwiping_afterMoves, isSwiping_afterMoves, decide_eq_decide] at heq
    exact heq.1 ⟨m, by simp [hm], hsame⟩
  · intro h more hmore
    rw [isSwiping_afterMoves, isSwiping_afterMoves, decide_eq_decide]
    constructor
    · rintro ⟨m, hm, hsame⟩
      rw [List.append_cons] at hm
      rcases List.mem_append.1 hm with hm | hm
      · exact ⟨m, hm, hsame⟩
      · exact h ⟨m, hmore.subset hm, hsame⟩
    · rintro ⟨m, hm, hsame⟩
      refine ⟨m, ?_, hsame⟩
      rw [List.append_cons]
      exact List.mem_append_left more hm

/-- Two fingers are pinched apart, and then the first one follows the second. -/
theorem pinch_becomes_swipe :
    ¬ ∀ (mTouchSlopSquare : ℤ) (d : SwipeDetector) (start : TwoFingers) (before : List TwoFingers)
      (now : TwoFingers) (later : List TwoFingers),
      DecisionKept mTouchSlopSquare d start before now later := by
  intro h
  have hkept := h 64 {} { first := (0, 0), second := (100, 0) } []
    { first := (-20, 0), second := (120, 0) } [{ first := (20, 0), second := (120, 0) }]
    (by decide +kernel) _ (List.prefix_refl _)
  exact absurd hkept (by decide +kernel)

end SwipeDetector

end TermuxX11.Input
