import TermuxX11.VirtualKeys.Gesture

/-!
# Taps and long presses

`TapGestureDetector` tells a tap or a long press from the motion events of a gesture and a message
that it posts to itself.  The point it reports is `mInitialPoint`, which the first finger of a
gesture sets only if it is `null`: a long press and the end of a gesture by `ACTION_UP` clear it,
`ACTION_CANCEL` does not, and the next gesture is reported where the cancelled one began.

`TapRun` has the detector together with what the events tell of the current gesture, which is what
a verdict is compared with.
-/

namespace TermuxX11.Input

open Run

/-! ### The detector -/

/-- The calls on `OnTapListener`. -/
inductive TapVerdict
  | onTap (pointerCount : ℕ) (x y : ℚ)
  | onLongPress (pointerCount : ℕ) (x y : ℚ)
  deriving DecidableEq, Repr

namespace TapVerdict

/-- The number of fingers that is reported. -/
def pointerCount : TapVerdict → ℕ
  | onTap n _ _ | onLongPress n _ _ => n

/-- The point that is reported. -/
def point : TapVerdict → ℚ × ℚ
  | onTap _ x y | onLongPress _ x y => (x, y)

end TapVerdict

/-- The fields of the detector, with the number of messages that its handler has posted. -/
structure TapGestureDetector where
  mInitialPositions : VirtualKeys.SparseArray (ℚ × ℚ) := ∅
  mPointerCount : ℕ := 0
  mInitialPoint : Option (ℚ × ℚ) := none
  mTapCancelled : Bool := false
  messages : ℕ := 0

namespace TapGestureDetector

/-- `cancelLongTouchNotification`. -/
def cancelLongTouchNotification (d : TapGestureDetector) : TapGestureDetector :=
  { d with messages := 0 }

/-- `reset`. -/
def reset (d : TapGestureDetector) : TapGestureDetector :=
  { d.cancelLongTouchNotification with
    mPointerCount := 0, mInitialPositions := ∅, mTapCancelled := false }

/-- `trackDownEvent`. -/
def trackDownEvent (d : TapGestureDetector) (ev : VirtualKeys.MotionEvent) : TapGestureDetector :=
  let p := if ev.action = .pointerDown then ev.actionPointer else ev.firstPointer
  { d with
    mInitialPositions := d.mInitialPositions.insert p.id (p.x, p.y)
    mInitialPoint := some (d.mInitialPoint.getD (p.x, p.y)) }

/-- `trackUpEvent`. -/
def trackUpEvent (d : TapGestureDetector) (ev : VirtualKeys.MotionEvent) : TapGestureDetector :=
  let p := if ev.action = .pointerUp then ev.actionPointer else ev.firstPointer
  { d with mInitialPositions := d.mInitialPositions.erase p.id }

/-- The loop of `trackMoveEvent`: the positions it leaves and whether a finger has moved. -/
def trackMoveEvent (mTouchSlopSquare : ℤ) :
    List VirtualKeys.Pointer → VirtualKeys.SparseArray (ℚ × ℚ) →
      VirtualKeys.SparseArray (ℚ × ℚ) × Bool
  | [], positions => (positions, false)
  | p :: ps, positions =>
    match positions.lookup p.id with
    | none => trackMoveEvent mTouchSlopSquare ps (positions.insert p.id (p.x, p.y))
    | some downPoint =>
      let deltaX := p.x - downPoint.1
      let deltaY := p.y - downPoint.2
      if (mTouchSlopSquare : ℚ) < deltaX * deltaX + deltaY * deltaY then (positions, true)
      else trackMoveEvent mTouchSlopSquare ps positions

/-- `onTouchEvent`; `none` is a `NullPointerException`. -/
def onTouchEvent (mTouchSlopSquare : ℤ) (d : TapGestureDetector) (ev : VirtualKeys.MotionEvent) :
    Option (TapGestureDetector × List TapVerdict) :=
  match ev.action with
  | .down =>
    let d := d.reset.trackDownEvent ev
    some ({ d with messages := d.messages + 1, mPointerCount := 1 }, [])
  | .pointerDown =>
    let d := d.trackDownEvent ev
    some ({ d with mPointerCount := max d.mPointerCount ev.pointers.length }, [])
  | .move =>
    if d.mTapCancelled then some (d, [])
    else
      let r := trackMoveEvent mTouchSlopSquare ev.pointers d.mInitialPositions
      let d := { d with mInitialPositions := r.1 }
      some (if r.2 then { d.cancelLongTouchNotification with mTapCancelled := true } else d, [])
  | .up =>
    let d := d.cancelLongTouchNotification
    if d.mTapCancelled then some ({ d with mInitialPoint := none }, [])
    else d.mInitialPoint.map fun p =>
      ({ d with mInitialPoint := none }, [.onTap d.mPointerCount p.1 p.2])
  | .pointerUp => some (d.cancelLongTouchNotification.trackUpEvent ev, [])
  | .cancel => some (d.cancelLongTouchNotification, [])

/-- `handleMessage`. -/
def handleMessage (d : TapGestureDetector) : Option (TapGestureDetector × List TapVerdict) :=
  d.mInitialPoint.map fun p =>
    ({ d with messages := d.messages - 1, mTapCancelled := true, mInitialPoint := none },
      [.onLongPress d.mPointerCount p.1 p.2])

end TapGestureDetector

/-! ### Gestures -/

/-- A motion event, or the delivery of a posted message. -/
inductive TapStep
  | event (ev : VirtualKeys.MotionEvent)
  | timeout

/-- The most fingers in the events of a gesture. -/
def maxFingers (gesture : List VirtualKeys.MotionEvent) : ℕ :=
  (gesture.map fun ev => ev.pointers.length).foldr max 0

/-- Where a gesture began. -/
def firstDown (gesture : List VirtualKeys.MotionEvent) : Option (ℚ × ℚ) :=
  gesture.head?.map fun ev => (ev.firstPointer.x, ev.firstPointer.y)

/-- A detector with the pointers that are down, the events of the gesture from its `ACTION_DOWN`
on and the verdicts on it.  `fresh` says that the `ACTION_DOWN` found no initial point, or its
own. -/
structure TapRun where
  detector : TapGestureDetector := {}
  down : List ℕ := []
  gesture : List VirtualKeys.MotionEvent := []
  verdicts : List TapVerdict := []
  fresh : Bool := true

namespace TapRun

variable (mTouchSlopSquare : ℤ)

/-- What the detector does in a step. -/
def handle (s : TapRun) : TapStep → Option (TapGestureDetector × List TapVerdict)
  | .event ev => s.detector.onTouchEvent mTouchSlopSquare ev
  | .timeout => s.detector.handleMessage

/-- The run after a step in which the detector has done `r`. -/
def after (s : TapRun) (r : TapGestureDetector × List TapVerdict) : TapStep → TapRun
  | .event ev =>
    let down := ev.pointersAfter s.down
    if ev.action = .down then
      { detector := r.1, down := down, gesture := [ev], verdicts := r.2,
        fresh := decide (∀ p ∈ s.detector.mInitialPoint, firstDown [ev] = some p) }
    else
      { s with detector := r.1, down := down, gesture := s.gesture ++ [ev],
               verdicts := s.verdicts ++ r.2 }
  | .timeout => { s with detector := r.1, verdicts := s.verdicts ++ r.2 }

/-- One step. -/
def step (s : TapRun) (a : TapStep) : Option TapRun :=
  (s.handle mTouchSlopSquare a).map fun r => s.after r a

/-- The events are those of the platform, and a message is delivered that has been posted. -/
def WellFormed (s : TapRun) : TapStep → Prop
  | .event ev => ev.WellFormed s.down
  | .timeout => 0 < s.detector.messages

/-- What a step adds is the only verdict on a gesture that has not been cancelled, with the most
fingers so far and the point where the gesture began. -/
structure Right (s : TapRun) (a : TapStep) : Prop where
  once : ∀ s', s.step mTouchSlopSquare a = some s' → s'.verdicts.length ≤ 1
  exact : ∀ r, s.handle mTouchSlopSquare a = some r → ∀ v ∈ r.2,
    (∀ ev ∈ (s.after r a).gesture, ev.action ≠ .cancel) ∧
      v.pointerCount = maxFingers (s.after r a).gesture ∧
      firstDown (s.after r a).gesture = some v.point

/-- The step gives a verdict: a tap that has not been cancelled ends, or the message arrives. -/
def GivesVerdict (s : TapRun) : TapStep → Prop
  | .event ev => ev.action = .up ∧ s.detector.mTapCancelled = false
  | .timeout => True

/-- A verdict is given only on a gesture whose `ACTION_DOWN` found no initial point, or its own. -/
def VerdictFresh (s : TapRun) (a : TapStep) : Prop := s.GivesVerdict a → s.fresh = true

/-! ### What a step keeps -/

theorem maxFingers_append (gesture : List VirtualKeys.MotionEvent) (ev : VirtualKeys.MotionEvent) :
    maxFingers (gesture ++ [ev]) = max (maxFingers gesture) ev.pointers.length := by
  induction gesture with
  | nil => simp [maxFingers]
  | cons ev' gesture ih =>
    rw [maxFingers] at ih ⊢
    simp only [maxFingers, List.cons_append, List.map_cons, List.foldr_cons] at ih ⊢
    rw [ih, max_assoc]

theorem firstDown_append {gesture : List VirtualKeys.MotionEvent} (h : gesture ≠ [])
    (ev : VirtualKeys.MotionEvent) : firstDown (gesture ++ [ev]) = firstDown gesture := by
  cases gesture with
  | nil => exact absurd rfl h
  | cons ev' gesture => rfl

/-- A message is posted only while a tap is possible, and then there is an initial point; the count
is that of the events. -/
structure Sound (s : TapRun) : Prop where
  posted : 0 < s.detector.messages → s.down ≠ [] ∧ s.detector.mTapCancelled = false
  single : s.detector.messages ≤ 1
  once : s.verdicts.length ≤ 1
  going : s.down ≠ [] → s.gesture ≠ [] ∧ (∀ ev ∈ s.gesture, ev.action ≠ .cancel) ∧
    s.detector.mPointerCount = maxFingers s.gesture ∧ s.down.length ≤ maxFingers s.gesture
  awaiting : s.down ≠ [] → s.detector.mTapCancelled = false → s.verdicts = [] ∧
    ∃ p, s.detector.mInitialPoint = some p ∧ (s.fresh = true ↔ firstDown s.gesture = some p)

variable {mTouchSlopSquare : ℤ} {s : TapRun} {a : TapStep}

theorem step_eq {r : TapGestureDetector × List TapVerdict}
    (h : s.handle mTouchSlopSquare a = some r) :
    s.step mTouchSlopSquare a = some (s.after r a) := by
  rw [step, h]
  rfl

/-- A step without a verdict. -/
theorem right_of_nil {d : TapGestureDetector} (h : s.handle mTouchSlopSquare a = some (d, []))
    (hs : s.verdicts.length ≤ 1) : s.Right mTouchSlopSquare a := by
  constructor
  · intro s' hs'
    rw [step_eq h] at hs'
    obtain rfl := Option.some.inj hs'
    cases a with
    | timeout => simpa [after] using hs
    | event ev =>
      simp only [after]
      split_ifs
      · exact Nat.zero_le 1
      · simpa using hs
  · intro r hr v hv
    obtain rfl := Option.some.inj (h.symm.trans hr)
    cases hv

/-- A verdict on a gesture that has not been cancelled, the first one and with the right count. -/
theorem right_iff_of_verdict {d : TapGestureDetector} {v : TapVerdict}
    (h : s.handle mTouchSlopSquare a = some (d, [v]))
    (hs : (s.after (d, [v]) a).verdicts.length ≤ 1)
    (hcancel : ∀ ev ∈ (s.after (d, [v]) a).gesture, ev.action ≠ .cancel)
    (hcount : v.pointerCount = maxFingers (s.after (d, [v]) a).gesture) :
    s.Right mTouchSlopSquare a ↔ firstDown (s.after (d, [v]) a).gesture = some v.point := by
  constructor
  · intro hr
    exact (hr.exact _ h v List.mem_cons_self).2.2
  · intro hpoint
    constructor
    · intro s' hs'
      rw [step_eq h] at hs'
      obtain rfl := Option.some.inj hs'
      exact hs
    · intro r hr v' hv'
      obtain rfl := Option.some.inj (h.symm.trans hr)
      obtain rfl := List.mem_singleton.1 hv'
      exact ⟨hcancel, hcount, hpoint⟩

theorem step_timeout (h : s.Sound) (hposted : 0 < s.detector.messages) :
    ∃ s', s.step mTouchSlopSquare .timeout = some s' ∧ s'.Sound ∧
      (s.Right mTouchSlopSquare .timeout ↔ s.VerdictFresh .timeout) := by
  obtain ⟨hdown, hcancel⟩ := h.posted hposted
  obtain ⟨hnone, p, hp, hfresh⟩ := h.awaiting hdown hcancel
  obtain ⟨hne, hgoing, hcount, hlen⟩ := h.going hdown
  have hhandle : s.handle mTouchSlopSquare .timeout =
      some ({ s.detector with
        messages := s.detector.messages - 1, mTapCancelled := true, mInitialPoint := none },
        [.onLongPress s.detector.mPointerCount p.1 p.2]) := by
    rw [handle, TapGestureDetector.handleMessage, hp]
    rfl
  have hone : (s.verdicts ++
      [TapVerdict.onLongPress s.detector.mPointerCount p.1 p.2]).length ≤ 1 := by
    rw [hnone]
    exact le_rfl
  refine ⟨_, step_eq hhandle, ⟨?_, ?_, hone, fun _ => ⟨hne, hgoing, hcount, hlen⟩, ?_⟩, ?_⟩
  · intro hpos
    have hpos' : 0 < s.detector.messages - 1 := hpos
    have := h.single
    omega
  · have := h.single
    show s.detector.messages - 1 ≤ 1
    omega
  · intro _ hfalse
    cases hfalse
  · rw [right_iff_of_verdict hhandle hone hgoing hcount]
    exact ⟨fun hpoint _ => hfresh.2 hpoint, fun hf => hfresh.1 (hf trivial)⟩

theorem length_pointers {ev : VirtualKeys.MotionEvent} {down : List ℕ} (h : ev.ids.Perm down) :
    ev.pointers.length = down.length := by
  rw [← h.length_eq, VirtualKeys.MotionEvent.ids, List.length_map]

theorem actionPointer_mem {ev : VirtualKeys.MotionEvent} {down : List ℕ}
    (h : ev.ids.Perm down) : ev.actionPointer.id ∈ down :=
  h.subset (List.mem_map.2 ⟨_, List.get_mem _ _, rfl⟩)

theorem step_down (h : s.Sound) {ev : VirtualKeys.MotionEvent} (hev : ev.action = .down)
    (hwf : ev.WellFormed s.down) :
    ∃ s', s.step mTouchSlopSquare (.event ev) = some s' ∧ s'.Sound ∧
      (s.Right mTouchSlopSquare (.event ev) ↔ s.VerdictFresh (.event ev)) := by
  rw [VirtualKeys.MotionEvent.WellFormed, hev] at hwf
  obtain ⟨hdown, hids⟩ := hwf
  have hlen : ev.pointers.length = 1 := length_pointers (List.Perm.of_eq hids)
  have hafter : ev.pointersAfter s.down = [ev.actionPointer.id] := by
    rw [VirtualKeys.MotionEvent.pointersAfter, hev, hdown]
  have hhandle : s.handle mTouchSlopSquare (.event ev) =
      some ({ s.detector.reset.trackDownEvent ev with messages := 1, mPointerCount := 1 }, []) := by
    rw [handle, TapGestureDetector.onTouchEvent, hev]
    rfl
  refine ⟨_, step_eq hhandle, ?_, ?_⟩
  · simp only [after, if_pos hev, hafter]
    refine ⟨fun _ => ⟨List.cons_ne_nil _ _, rfl⟩, le_rfl, Nat.zero_le 1, fun _ => ?_, fun _ _ => ?_⟩
    · refine ⟨List.cons_ne_nil _ _, ?_, ?_, ?_⟩
      · simp [hev]
      · simp [maxFingers, hlen]
      · simp [maxFingers, hlen]
    · refine ⟨rfl, _, rfl, ?_⟩
      rw [decide_eq_true_iff]
      cases hp : s.detector.mInitialPoint with
      | none => simp [firstDown, hev, TapGestureDetector.reset,
          TapGestureDetector.cancelLongTouchNotification, hp]
      | some p => simp [firstDown, TapGestureDetector.reset,
          TapGestureDetector.cancelLongTouchNotification, hp]
  · refine iff_of_true (right_of_nil hhandle h.once) fun hgives => ?_
    have hup := hgives.1
    rw [hev] at hup
    cases hup

/-- An event in the middle of a gesture. -/
theorem step_between (h : s.Sound) {ev : VirtualKeys.MotionEvent} {d : TapGestureDetector}
    (hhandle : s.handle mTouchSlopSquare (.event ev) = some (d, []))
    (hev : ev.action = .pointerDown ∨ ev.action = .move ∨ ev.action = .pointerUp)
    (hdown : s.down ≠ []) (hafter : ev.pointersAfter s.down ≠ [])
    (hlen : (ev.pointersAfter s.down).length ≤ ev.pointers.length)
    (hcount : d.mPointerCount = max s.detector.mPointerCount ev.pointers.length)
    (hposted : d.messages ≤ s.detector.messages ∧ (0 < d.messages → d.mTapCancelled = false))
    (hpoint : d.mTapCancelled = false → s.detector.mTapCancelled = false ∧
      ∀ p, s.detector.mInitialPoint = some p → d.mInitialPoint = some p) :
    ∃ s', s.step mTouchSlopSquare (.event ev) = some s' ∧ s'.Sound ∧
      (s.Right mTouchSlopSquare (.event ev) ↔ s.VerdictFresh (.event ev)) := by
  obtain ⟨hne, hgoing, hmax, hle⟩ := h.going hdown
  have hnotDown : ev.action ≠ .down := by
    rcases hev with hev | hev | hev <;> rw [hev] <;> decide
  refine ⟨_, step_eq hhandle, ?_, ?_⟩
  · simp only [after, if_neg hnotDown, List.append_nil]
    refine ⟨fun hpos => ⟨hafter, hposted.2 hpos⟩, hposted.1.trans h.single, h.once, fun _ => ?_,
      fun _ hfalse => ?_⟩
    · refine ⟨by simp, ?_, ?_, ?_⟩
      · intro ev' hmem
        rcases List.mem_append.1 hmem with hmem | hmem
        · exact hgoing ev' hmem
        · rw [List.mem_singleton.1 hmem]
          rcases hev with hev | hev | hev <;> rw [hev] <;> decide
      · rw [hcount, hmax, maxFingers_append]
      · rw [maxFingers_append]
        exact hlen.trans (le_max_right _ _)
    · obtain ⟨hcancel, hkeep⟩ := hpoint hfalse
      obtain ⟨hnone, p, hp, hfresh⟩ := h.awaiting hdown hcancel
      refine ⟨hnone, p, hkeep p hp, ?_⟩
      rw [firstDown_append hne]
      exact hfresh
  · refine iff_of_true (right_of_nil hhandle h.once) fun hgives => ?_
    have hup := hgives.1
    rcases hev with hev | hev | hev <;> rw [hev] at hup <;> cases hup

/-- An event that ends a gesture without a verdict. -/
theorem step_end (h : s.Sound) {ev : VirtualKeys.MotionEvent} {d : TapGestureDetector}
    (hhandle : s.handle mTouchSlopSquare (.event ev) = some (d, [])) (hev : ev.action ≠ .down)
    (hafter : ev.pointersAfter s.down = []) (hmessages : d.messages = 0)
    (hgives : ¬ s.GivesVerdict (.event ev)) :
    ∃ s', s.step mTouchSlopSquare (.event ev) = some s' ∧ s'.Sound ∧
      (s.Right mTouchSlopSquare (.event ev) ↔ s.VerdictFresh (.event ev)) := by
  refine ⟨_, step_eq hhandle, ?_,
    iff_of_true (right_of_nil hhandle h.once) fun hg => absurd hg hgives⟩
  simp only [after, if_neg hev, List.append_nil, hafter]
  refine ⟨fun hpos => ?_, hmessages ▸ Nat.zero_le 1, h.once, fun hne => absurd rfl hne,
    fun hne => absurd rfl hne⟩
  have hpos' : 0 < d.messages := hpos
  omega

/-- The event that ends a gesture with a tap. -/
theorem step_tap (h : s.Sound) {ev : VirtualKeys.MotionEvent} (hev : ev.action = .up)
    (hids : ev.ids.Perm s.down) (hdown : s.down ≠ []) (hafter : ev.pointersAfter s.down = [])
    (hcancel : s.detector.mTapCancelled = false) :
    ∃ s', s.step mTouchSlopSquare (.event ev) = some s' ∧ s'.Sound ∧
      (s.Right mTouchSlopSquare (.event ev) ↔ s.VerdictFresh (.event ev)) := by
  obtain ⟨hne, hgoing, hcount, hlen⟩ := h.going hdown
  obtain ⟨hnone, p, hp, hfresh⟩ := h.awaiting hdown hcancel
  have hnotDown : ev.action ≠ .down := by
    rw [hev]
    decide
  have hhandle : s.handle mTouchSlopSquare (.event ev) =
      some ({ s.detector.cancelLongTouchNotification with mInitialPoint := none },
        [.onTap s.detector.mPointerCount p.1 p.2]) := by
    rw [handle, TapGestureDetector.onTouchEvent, hev]
    show (if s.detector.mTapCancelled = true then _ else s.detector.mInitialPoint.map _) = _
    rw [if_neg (Bool.eq_false_iff.1 hcancel), hp]
    rfl
  have hgesture : (s.after
      ({ s.detector.cancelLongTouchNotification with mInitialPoint := none },
        [.onTap s.detector.mPointerCount p.1 p.2]) (.event ev)).gesture = s.gesture ++ [ev] := by
    simp only [after, if_neg hnotDown]
  have hverdicts : (s.after
      ({ s.detector.cancelLongTouchNotification with mInitialPoint := none },
        [.onTap s.detector.mPointerCount p.1 p.2]) (.event ev)).verdicts.length ≤ 1 := by
    simp only [after, if_neg hnotDown, hnone]
    exact le_rfl
  refine ⟨_, step_eq hhandle, ?_, ?_⟩
  · refine ⟨?_, ?_, hverdicts, ?_, ?_⟩
    all_goals simp only [after, if_neg hnotDown, hafter]
    · exact fun hpos => absurd hpos (lt_irrefl 0)
    · exact Nat.zero_le 1
    · exact fun hnil => absurd rfl hnil
    · exact fun hnil => absurd rfl hnil
  · rw [right_iff_of_verdict hhandle hverdicts]
    · rw [hgesture, firstDown_append hne]
      exact ⟨fun hpoint _ => hfresh.2 hpoint, fun hf => hfresh.1 (hf ⟨hev, hcancel⟩)⟩
    · rw [hgesture]
      intro ev' hmem
      rcases List.mem_append.1 hmem with hmem | hmem
      · exact hgoing ev' hmem
      · rw [List.mem_singleton.1 hmem, hev]
        decide
    · rw [hgesture, maxFingers_append, max_eq_left (length_pointers hids ▸ hlen)]
      exact hcount

theorem step_up (h : s.Sound) {ev : VirtualKeys.MotionEvent} (hev : ev.action = .up)
    (hwf : ev.WellFormed s.down) :
    ∃ s', s.step mTouchSlopSquare (.event ev) = some s' ∧ s'.Sound ∧
      (s.Right mTouchSlopSquare (.event ev) ↔ s.VerdictFresh (.event ev)) := by
  rw [VirtualKeys.MotionEvent.WellFormed, hev] at hwf
  obtain ⟨hids, hone⟩ := hwf
  have hdown : s.down ≠ [] := List.ne_nil_of_length_pos (by omega)
  have hafter : ev.pointersAfter s.down = [] := by
    rw [VirtualKeys.MotionEvent.pointersAfter, hev]
    refine List.length_eq_zero_iff.1 ?_
    rw [List.length_erase_of_mem (actionPointer_mem hids), hone]
  by_cases hcancel : s.detector.mTapCancelled = true
  · have hhandle : s.handle mTouchSlopSquare (.event ev) =
        some ({ s.detector.cancelLongTouchNotification with mInitialPoint := none }, []) := by
      rw [handle, TapGestureDetector.onTouchEvent, hev]
      exact if_pos hcancel
    refine step_end h hhandle (by rw [hev]; decide) hafter rfl fun hgives => ?_
    rw [hgives.2] at hcancel
    cases hcancel
  · exact step_tap h hev hids hdown hafter (Bool.eq_false_iff.2 hcancel)

theorem step_pointerDown (h : s.Sound) {ev : VirtualKeys.MotionEvent}
    (hev : ev.action = .pointerDown)
    (hwf : ev.WellFormed s.down) :
    ∃ s', s.step mTouchSlopSquare (.event ev) = some s' ∧ s'.Sound ∧
      (s.Right mTouchSlopSquare (.event ev) ↔ s.VerdictFresh (.event ev)) := by
  rw [VirtualKeys.MotionEvent.WellFormed, hev] at hwf
  obtain ⟨hdown, -, hids⟩ := hwf
  have hafter : ev.pointersAfter s.down = ev.actionPointer.id :: s.down := by
    rw [VirtualKeys.MotionEvent.pointersAfter, hev]
  have hhandle : s.handle mTouchSlopSquare (.event ev) =
      some ({ s.detector.trackDownEvent ev with
        mPointerCount := max s.detector.mPointerCount ev.pointers.length }, []) := by
    rw [handle, TapGestureDetector.onTouchEvent, hev]
    rfl
  refine step_between h hhandle (Or.inl hev) hdown (hafter ▸ List.cons_ne_nil _ _)
    (by rw [hafter, length_pointers hids]) rfl ⟨le_rfl, fun hpos => (h.posted hpos).2⟩
    fun hcancel => ⟨hcancel, fun p hp => ?_⟩
  simp [TapGestureDetector.trackDownEvent, hp]

theorem step_move (h : s.Sound) {ev : VirtualKeys.MotionEvent} (hev : ev.action = .move)
    (hwf : ev.WellFormed s.down) :
    ∃ s', s.step mTouchSlopSquare (.event ev) = some s' ∧ s'.Sound ∧
      (s.Right mTouchSlopSquare (.event ev) ↔ s.VerdictFresh (.event ev)) := by
  rw [VirtualKeys.MotionEvent.WellFormed, hev] at hwf
  have hlen := length_pointers hwf
  have hdown : s.down ≠ [] := by
    intro hnil
    rw [hnil] at hlen
    exact absurd hlen (Nat.zero_lt_of_lt ev.actionIndex_lt).ne'
  have hafter : ev.pointersAfter s.down = s.down := by
    rw [VirtualKeys.MotionEvent.pointersAfter, hev]
  have hle : (ev.pointersAfter s.down).length ≤ ev.pointers.length := by rw [hafter, hlen]
  obtain ⟨-, -, hcount, hmost⟩ := h.going hdown
  have hmax : s.detector.mPointerCount = max s.detector.mPointerCount ev.pointers.length := by
    rw [max_eq_left (by omega)]
  by_cases hcancel : s.detector.mTapCancelled = true
  · have hhandle : s.handle mTouchSlopSquare (.event ev) = some (s.detector, []) := by
      rw [handle, TapGestureDetector.onTouchEvent, hev]
      exact if_pos hcancel
    exact step_between h hhandle (Or.inr (Or.inl hev)) hdown (hafter.symm ▸ hdown) hle hmax
      ⟨le_rfl, fun hpos => (h.posted hpos).2⟩ fun hfalse => ⟨hfalse, fun p hp => hp⟩
  · have hfalse : s.detector.mTapCancelled = false := Bool.eq_false_iff.2 hcancel
    have hhandle : ∃ d, s.handle mTouchSlopSquare (.event ev) = some (d, []) ∧
        d.mPointerCount = s.detector.mPointerCount ∧ d.mInitialPoint = s.detector.mInitialPoint ∧
        (d.messages = 0 ∨ d.messages = s.detector.messages ∧ d.mTapCancelled = false) := by
      rw [handle, TapGestureDetector.onTouchEvent, hev]
      refine ⟨_, if_neg hcancel, ?_⟩
      split_ifs
      · exact ⟨rfl, rfl, Or.inl rfl⟩
      · exact ⟨rfl, rfl, Or.inr ⟨rfl, hfalse⟩⟩
    obtain ⟨d, hhandle, hcount', hpoint, hmessages⟩ := hhandle
    refine step_between h hhandle (Or.inr (Or.inl hev)) hdown (hafter.symm ▸ hdown) hle
      (hcount'.trans hmax) ?_ fun _ => ⟨hfalse, fun p hp => hpoint.trans hp⟩
    rcases hmessages with hzero | ⟨hsame, hd⟩
    · exact ⟨by omega, fun hpos => by omega⟩
    · exact ⟨hsame.le, fun _ => hd⟩

theorem step_pointerUp (h : s.Sound) {ev : VirtualKeys.MotionEvent} (hev : ev.action = .pointerUp)
    (hwf : ev.WellFormed s.down) :
    ∃ s', s.step mTouchSlopSquare (.event ev) = some s' ∧ s'.Sound ∧
      (s.Right mTouchSlopSquare (.event ev) ↔ s.VerdictFresh (.event ev)) := by
  rw [VirtualKeys.MotionEvent.WellFormed, hev] at hwf
  obtain ⟨hids, htwo⟩ := hwf
  have hlen := length_pointers hids
  have hdown : s.down ≠ [] := List.ne_nil_of_length_pos (by omega)
  have hafter : (ev.pointersAfter s.down).length = s.down.length - 1 := by
    rw [VirtualKeys.MotionEvent.pointersAfter, hev]
    exact List.length_erase_of_mem (actionPointer_mem hids)
  have hne : ev.pointersAfter s.down ≠ [] := by
    intro hnil
    rw [hnil, List.length_nil] at hafter
    omega
  obtain ⟨-, -, hcount, hmost⟩ := h.going hdown
  have hhandle : s.handle mTouchSlopSquare (.event ev) =
      some (s.detector.cancelLongTouchNotification.trackUpEvent ev, []) := by
    rw [handle, TapGestureDetector.onTouchEvent, hev]
  refine step_between h hhandle (Or.inr (Or.inr hev)) hdown hne (by omega) ?_
    ⟨Nat.zero_le _, fun hpos => absurd hpos (lt_irrefl 0)⟩ fun hcancel => ⟨hcancel, fun p hp => hp⟩
  show s.detector.mPointerCount = _
  rw [max_eq_left (by omega)]

theorem step_cancel (h : s.Sound) {ev : VirtualKeys.MotionEvent} (hev : ev.action = .cancel) :
    ∃ s', s.step mTouchSlopSquare (.event ev) = some s' ∧ s'.Sound ∧
      (s.Right mTouchSlopSquare (.event ev) ↔ s.VerdictFresh (.event ev)) := by
  have hhandle : s.handle mTouchSlopSquare (.event ev) =
      some (s.detector.cancelLongTouchNotification, []) := by
    rw [handle, TapGestureDetector.onTouchEvent, hev]
  refine step_end h hhandle (by rw [hev]; decide) ?_ rfl fun hgives => ?_
  · rw [VirtualKeys.MotionEvent.pointersAfter, hev]
  · have hup := hgives.1
    rw [hev] at hup
    cases hup

theorem step_sound (h : s.Sound) (hwf : s.WellFormed a) :
    ∃ s', s.step mTouchSlopSquare a = some s' ∧ s'.Sound ∧
      (s.Right mTouchSlopSquare a ↔ s.VerdictFresh a) := by
  cases a with
  | timeout => exact step_timeout h hwf
  | event ev =>
    cases hev : ev.action with
    | down => exact step_down h hev hwf
    | pointerDown => exact step_pointerDown h hev hwf
    | move => exact step_move h hev hwf
    | up => exact step_up h hev hwf
    | pointerUp => exact step_pointerUp h hev hwf
    | cancel => exact step_cancel h hev

theorem sound_start : Sound {} := by
  refine ⟨fun hpos => absurd hpos (lt_irrefl 0), Nat.zero_le 1, Nat.zero_le 1, ?_, ?_⟩
  · exact fun hne => absurd rfl hne
  · exact fun hne => absurd rfl hne

/-- **The verdicts of a run.**  The detector finds its initial point whenever it needs it, and its
verdicts are right exactly if they are given on gestures whose `ACTION_DOWN` found no initial
point, or its own. -/
theorem tryAlways_right_iff (mTouchSlopSquare : ℤ) {as : List TapStep}
    (h : TryAlways (step mTouchSlopSquare) WellFormed {} as) :
    (∃ s, tryExec (step mTouchSlopSquare) {} as = some s) ∧
      (TryAlways (step mTouchSlopSquare) (Right mTouchSlopSquare) {} as ↔
        TryAlways (step mTouchSlopSquare) VerdictFresh {} as) := by
  constructor
  · refine tryExec_total (I := Sound) (fun s a hs ha => ?_) sound_start h
    obtain ⟨s', hs', hsound, -⟩ := step_sound hs ha
    exact ⟨s', hs', hsound⟩
  · refine tryAlways_iff_of_invariant (I := Sound) (fun s a s' hs ha hs' => ?_)
      (fun s a hs ha => ?_) sound_start h
    · obtain ⟨s'', hs'', hsound, -⟩ := step_sound hs ha
      obtain rfl := Option.some.inj (hs'.symm.trans hs'')
      exact hsound
    · have hsound : ∃ s', step mTouchSlopSquare s a = some s' ∧ _ := step_sound hs ha
      obtain ⟨-, -, -, hiff⟩ := hsound
      exact hiff

/-- An event about the only finger on the screen. -/
def oneFinger (action : VirtualKeys.Action) (x y : ℚ) : TapStep :=
  .event ⟨action, [⟨0, x, y⟩], 0, Nat.one_pos⟩

/-- A finger goes down and up again. -/
theorem tap_right :
    TryAlways (step 64) (Right 64) {} [oneFinger .down 10 10, oneFinger .up 12 12] := by
  have hwf : TryAlways (step 64) WellFormed {} [oneFinger .down 10 10, oneFinger .up 12 12] := by
    refine ⟨⟨rfl, rfl⟩, fun s hs => ⟨?_, fun _ _ => trivial⟩⟩
    obtain rfl := Option.some.inj hs
    exact ⟨List.Perm.refl _, rfl⟩
  refine (tryAlways_right_iff 64 hwf).2.2 ?_
  refine ⟨fun _ => rfl, fun s hs => ⟨fun _ => ?_, fun _ _ => trivial⟩⟩
  obtain rfl := Option.some.inj hs
  rfl

/-- A gesture that is cancelled, and a tap somewhere else. -/
def tapAfterCancel : List TapStep :=
  [oneFinger .down 10 10, oneFinger .cancel 10 10, oneFinger .down 200 200, oneFinger .up 200 200]

/-- The tap is reported where the cancelled gesture began. -/
theorem tapAfterCancel_misplaced :
    ¬ ∀ (mTouchSlopSquare : ℤ) (as : List TapStep),
      TryAlways (step mTouchSlopSquare) WellFormed {} as →
        TryAlways (step mTouchSlopSquare) (Right mTouchSlopSquare) {} as := by
  intro h
  have hwf : TryAlways (step 64) WellFormed {} tapAfterCancel := by
    refine ⟨⟨rfl, rfl⟩, fun s₁ h₁ => ⟨?_, fun s₂ h₂ => ⟨?_, fun s₃ h₃ => ⟨?_, fun _ _ => trivial⟩⟩⟩⟩
    · obtain rfl := Option.some.inj h₁
      exact List.Perm.refl _
    · obtain rfl := Option.some.inj h₁
      obtain rfl := Option.some.inj h₂
      exact ⟨rfl, rfl⟩
    · obtain rfl := Option.some.inj h₁
      obtain rfl := Option.some.inj h₂
      obtain rfl := Option.some.inj h₃
      exact ⟨List.Perm.refl _, rfl⟩
  have hlast := (((h 64 tapAfterCancel hwf).2 _ rfl).2 _ rfl).2 _ rfl
  have hpoint := (hlast.1.exact _ rfl (.onTap 1 10 10) List.mem_cons_self).2.2
  exact absurd hpoint (by decide +kernel)

end TapRun

end TermuxX11.Input
