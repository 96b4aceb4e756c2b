import TermuxX11.Input.Mouse

/-!
# The touchpad of a DeX desktop

`DexListener` turns the events of a touchpad into presses of the left button: a tap presses it at
once, a drag posts the press, and the buttons of the pad are compared with those of the event
before.  Each `ACTION_UP` decides by its own flags and by `onTap` whether it releases the button;
`ACTION_CANCEL` and `ACTION_HOVER_EXIT` clear the flags and release nothing.

`Dex` has the listener together with what the events say: whether a gesture goes on, and which
buttons are physically down.  `Careful` says in which steps the left button stays right, by
what was sent before: whatever presses it finds it up, whatever releases it finds it down, and a
step after which all is quiet leaves it up.

The cursor and the wheel are left out.  The `GestureDetector` belongs to the platform: its calls of
`onSingleTapConfirmed` and `onDoubleTapEvent` are steps of their own.
-/

namespace TermuxX11.Input

open Run Ledger

/-! ### The listener -/

/-- What the listener reads of a `MotionEvent`; `twoFingerSwipe` says that the platform classifies
it as `CLASSIFICATION_TWO_FINGER_SWIPE`. -/
structure DexEvent where
  action : MotionAction
  flags : BitVec 32 := 0
  twoFingerSwipe : Bool := false
  buttonState : BitVec 32 := 0
  deriving DecidableEq

/-- The flags of an event of scrolling. -/
def scrollFlags : BitVec 32 := 0x14000000

/-- The flag of a drag. -/
def dragFlags : BitVec 32 := 0x4000000

namespace DexEvent

variable (e : DexEvent)

/-- `hasFlags`. -/
def hasFlags (flags : BitVec 32) : Bool := e.flags &&& flags = flags

/-- `isScrollingEvent`. -/
def isScrollingEvent : Bool := e.hasFlags scrollFlags || e.twoFingerSwipe

/-- The event has the flag of a drag, and is not one of scrolling. -/
def isDraggingEvent : Bool := !e.isScrollingEvent && e.hasFlags dragFlags

/-- The event has no flag. -/
def isPlain : Bool := !e.isScrollingEvent && !e.hasFlags dragFlags

end DexEvent

/-- The fields of the listener, with the number of posted runs of `mouseDownRunnable`. -/
structure DexListener where
  savedBS : BitVec 32 := 0
  onTap : Bool := false
  mIsDragging : Bool := false
  mIsScrolling : Bool := false
  posted : ℕ := 0
  deriving DecidableEq

namespace DexListener

/-- What `checkButtons` sends. -/
def checkButtons (l : DexListener) (e : DexEvent) : List (MouseButton × Bool) :=
  sendChanged l.savedBS e.buttonState

/-- `checkButtons` finds a button that has changed. -/
def isButtonHandled (l : DexListener) (e : DexEvent) : Bool := l.checkButtons e ≠ []

/-- `onTouch`: the listener afterwards and the buttons that it sends. -/
def onTouch (l : DexListener) (e : DexEvent) : DexListener × List (MouseButton × Bool) :=
  match e.action with
  | .buttonPress | .buttonRelease =>
    ({ l with
        posted := 0, onTap := decide (e.action = .buttonPress), mIsDragging := false,
        savedBS := e.buttonState },
      l.checkButtons e)
  | .down =>
    let isButtonHandled := l.isButtonHandled e
    let sent := l.checkButtons e
    let l := { l with savedBS := e.buttonState }
    if e.isScrollingEvent then ({ l with mIsScrolling := true }, sent)
    else if e.hasFlags dragFlags then ({ l with mIsDragging := true, posted := l.posted + 1 }, sent)
    else if !isButtonHandled then ({ l with onTap := true }, sent ++ [(.left, true)])
    else (l, sent)
  | .up =>
    let isButtonHandled := l.isButtonHandled e
    let sent := l.checkButtons e
    let l := { l with savedBS := e.buttonState }
    if e.isScrollingEvent then ({ l with mIsScrolling := false }, sent)
    else if e.hasFlags dragFlags then ({ l with mIsDragging := false }, sent ++ [(.left, false)])
    else if !isButtonHandled && l.onTap then ({ l with onTap := false }, sent ++ [(.left, false)])
    else (l, sent)
  | .hoverExit | .cancel =>
    ({ l with onTap := false, mIsScrolling := false, mIsDragging := false }, [])
  -- a motion of the cursor, or nothing
  | .hoverMove | .move | .outside | .pointerDown | .pointerUp | .scroll | .hoverEnter => (l, [])

/-- `mouseDownRunnable`. -/
def mouseDownRunnable (l : DexListener) : DexListener × List (MouseButton × Bool) :=
  ({ l with posted := l.posted - 1 }, [(.left, true)])

/-- `onSingleTapConfirmed`. -/
def onSingleTapConfirmed : List (MouseButton × Bool) := [(.left, true), (.left, false)]

/-- `onDoubleTapEvent`. -/
def onDoubleTapEvent : List (MouseButton × Bool) := onSingleTapConfirmed ++ onSingleTapConfirmed

/-- An `ACTION_DOWN` is the press of a tap. -/
def taps (l : DexListener) (e : DexEvent) : Bool := e.isPlain && !l.isButtonHandled e

/-- An `ACTION_UP` releases the left button for a tap or a drag. -/
def releases (l : DexListener) (e : DexEvent) : Bool :=
  e.isDraggingEvent || (e.isPlain && !l.isButtonHandled e && l.onTap)

end DexListener

/-! ### Runs -/

/-- An event, the posted press, or a call of the gesture detector. -/
inductive DexStep
  | touch (e : DexEvent)
  | mouseDownRunnable
  | singleTapConfirmed
  | doubleTapEvent
  deriving DecidableEq

/-- The listener with what it has sent.  `gesture` says that an `ACTION_DOWN` has not been ended, and
`buttonState` which buttons are physically down. -/
structure Dex where
  listener : DexListener := {}
  sent : List (MouseButton × Bool) := []
  gesture : Bool := false
  buttonState : BitVec 32 := 0
  deriving DecidableEq

/-- No button is down in a state of buttons. -/
def noButton (buttonState : BitVec 32) : Prop := ∀ b : MouseButton, b.isIn buttonState = false

namespace Dex

/-- One step. -/
def step (s : Dex) : DexStep → Dex
  | .touch e =>
    let r := s.listener.onTouch e
    { listener := r.1
      sent := s.sent ++ r.2
      gesture :=
        if e.action = .down then true
        else if e.action = .up ∨ e.action = .cancel then false else s.gesture
      buttonState := e.buttonState }
  | .mouseDownRunnable =>
    let r := s.listener.mouseDownRunnable
    { s with listener := r.1, sent := s.sent ++ r.2 }
  | .singleTapConfirmed => { s with sent := s.sent ++ DexListener.onSingleTapConfirmed }
  | .doubleTapEvent => { s with sent := s.sent ++ DexListener.onDoubleTapEvent }

/-- Gestures begin with `ACTION_DOWN` and end with `ACTION_UP` or `ACTION_CANCEL`, and a press runs
that has been posted. -/
def WellFormed (s : Dex) : DexStep → Prop
  | .touch e =>
    (e.action = .down → s.gesture = false) ∧
      (e.action = .up ∨ e.action = .move ∨ e.action = .cancel → s.gesture = true)
  | .mouseDownRunnable => 0 < s.listener.posted
  | .singleTapConfirmed | .doubleTapEvent => True

/-- No gesture goes on, no button is physically down and nothing is posted. -/
def Quiet (s : Dex) : Prop :=
  s.gesture = false ∧ noButton s.buttonState ∧ s.listener.posted = 0

/-- Presses and releases alternate, and the left button is up when all is quiet. -/
structure Right (s : Dex) : Prop where
  alternates : Alternates s.sent
  quiet : s.Quiet → ¬ Down s.sent .left

/-- The left button of the pad is compared, and is not where `checkButtons` last saw it. -/
def LeftChanged (s : Dex) (e : DexEvent) : Prop :=
  checksButtons e.action = true ∧
    MouseButton.left.isIn s.listener.savedBS ≠ MouseButton.left.isIn e.buttonState

instance (s : Dex) (e : DexEvent) : Decidable (s.LeftChanged e) :=
  inferInstanceAs (Decidable (_ ∧ _))

/-- The left button is down for the server when the buttons have been compared. -/
def LeftCompared (s : Dex) (e : DexEvent) : Prop :=
  if s.LeftChanged e then MouseButton.left.isIn e.buttonState = true else Down s.sent .left

/-- All is quiet after an event. -/
def Quieted (s : Dex) (e : DexEvent) : Prop :=
  (e.action = .up ∨ e.action = .cancel ∨ e.action ≠ .down ∧ s.gesture = false) ∧
    noButton e.buttonState ∧
    (e.action = .buttonPress ∨ e.action = .buttonRelease ∨ s.listener.posted = 0)

/-- An event that compares the buttons finds the left one as it was seen last, if it has changed; a
tap presses it while it is up, an `ACTION_UP` releases it while it is down; and an event after
which all is quiet releases it or finds it up. -/
structure CarefulTouch (s : Dex) (e : DexEvent) : Prop where
  compare : s.LeftChanged e →
    (Down s.sent .left ↔ MouseButton.left.isIn s.listener.savedBS = true)
  tap : e.action = .down → s.listener.taps e = true → ¬ Down s.sent .left
  release : e.action = .up → s.listener.releases e = true → s.LeftCompared e
  quiet : s.Quieted e → e.action = .up ∧ s.listener.releases e = true ∨ ¬ s.LeftCompared e

/-- The left button is up when a posted press or a tap of the gesture detector comes, and a press
is not the last thing that was waited for. -/
def Careful (s : Dex) : DexStep → Prop
  | .touch e => s.CarefulTouch e
  | .mouseDownRunnable =>
    ¬ Down s.sent .left ∧
      (s.gesture = false → noButton s.buttonState → 1 < s.listener.posted)
  | .singleTapConfirmed | .doubleTapEvent => ¬ Down s.sent .left

/-! ### What an event sends -/

variable {s : Dex} {e : DexEvent}

/-- What the comparison of the buttons sends, if the event makes one. -/
def compared (s : Dex) (e : DexEvent) : List (MouseButton × Bool) :=
  if checksButtons e.action then s.listener.checkButtons e else []

/-- What a tap or the end of a gesture sends after that. -/
def tapped (s : Dex) (e : DexEvent) : List (MouseButton × Bool) :=
  if e.action = .down ∧ s.listener.taps e = true then [(.left, true)]
  else if e.action = .up ∧ s.listener.releases e = true then [(.left, false)]
  else []

theorem onTouch_spec (s : Dex) (e : DexEvent) :
    (s.listener.onTouch e).2 = s.compared e ++ s.tapped e ∧
      (s.listener.onTouch e).1.savedBS =
        (if checksButtons e.action then e.buttonState else s.listener.savedBS) ∧
      (s.listener.onTouch e).1.posted =
        (if e.action = .buttonPress ∨ e.action = .buttonRelease then 0
        else if e.action = .down ∧ e.isDraggingEvent = true then s.listener.posted + 1
        else s.listener.posted) := by
  rw [compared, tapped, DexListener.onTouch, DexListener.taps, DexListener.releases,
    DexEvent.isDraggingEvent, DexEvent.isPlain]
  cases ha : e.action with
  | down =>
    by_cases hscroll : e.isScrollingEvent = true
    · simp [hscroll, checksButtons]
    · by_cases hdrag : e.hasFlags dragFlags = true
      · simp [hscroll, hdrag, checksButtons]
      · by_cases hbutton : s.listener.isButtonHandled e = true
        · simp [hscroll, hdrag, hbutton, checksButtons]
        · simp [hscroll, hdrag, hbutton, checksButtons]
  | up =>
    by_cases hscroll : e.isScrollingEvent = true
    · simp [hscroll, checksButtons]
    · by_cases hdrag : e.hasFlags dragFlags = true
      · simp [hscroll, hdrag, checksButtons]
      · by_cases htap : (!s.listener.isButtonHandled e && s.listener.onTap) = true
        · simp [hscroll, hdrag, htap, checksButtons]
        · simp [hscroll, hdrag, htap, checksButtons]
  | buttonPress | buttonRelease => simp [checksButtons]
  | _ => simp [checksButtons]

theorem sent_touch : (s.step (.touch e)).sent = s.sent ++ s.compared e ++ s.tapped e := by
  rw [List.append_assoc, ← (onTouch_spec s e).1]
  rfl

/-- All is quiet after an event exactly if that can be seen before. -/
theorem quiet_touch_iff : (s.step (.touch e)).Quiet ↔ s.Quieted e := by
  have hposted : (s.step (.touch e)).listener.posted = _ := (onTouch_spec s e).2.2
  rw [Quiet, Quieted, hposted]
  simp only [step]
  cases ha : e.action with
  | down => simp
  | up | cancel => simp
  | buttonPress | buttonRelease => simp
  | _ => simp

/-! ### The left button -/

/-- What has been sent alternates, and the other buttons are where `checkButtons` last saw them. -/
structure Sound (s : Dex) : Prop where
  alternates : Alternates s.sent
  others : ∀ b : MouseButton, b ≠ .left → (Down s.sent b ↔ b.isIn s.listener.savedBS = true)

/-- The comparison of the buttons alternates exactly if the left one is as it was seen last. -/
theorem Sound.alternates_compared_iff (h : s.Sound) :
    Alternates (s.sent ++ s.compared e) ↔ (s.LeftChanged e →
      (Down s.sent .left ↔ MouseButton.left.isIn s.listener.savedBS = true)) := by
  rw [compared]
  by_cases hchecks : checksButtons e.action = true
  · rw [if_pos hchecks, DexListener.checkButtons, sendChanged_eq,
      alternates_append_changes (by decide), and_iff_right h.alternates]
    constructor
    · exact fun hall hchanged => hall .left (by decide) hchanged.2
    · intro hleft b _ hne
      by_cases hb : b = .left
      · subst hb
        exact hleft ⟨hchecks, hne⟩
      · exact h.others b hb
  · rw [if_neg hchecks, List.append_nil]
    exact iff_of_true h.alternates fun hchanged => absurd hchanged.1 hchecks

theorem down_compared_left : Down (s.sent ++ s.compared e) .left ↔ s.LeftCompared e := by
  rw [compared, LeftCompared]
  by_cases hchecks : checksButtons e.action = true
  · rw [if_pos hchecks, DexListener.checkButtons, sendChanged_eq, down_append_changes]
    refine Eq.to_iff (if_congr ?_ rfl rfl)
    exact ⟨fun h => ⟨hchecks, h.2⟩, fun h => ⟨MouseButton.mem_all _, h.2⟩⟩
  · have hsame : ¬ s.LeftChanged e := fun h => hchecks h.1
    rw [if_neg hchecks, if_neg hsame, List.append_nil]

theorem Sound.down_compared (h : s.Sound) {b : MouseButton} (hb : b ≠ .left) :
    Down (s.sent ++ s.compared e) b ↔
      b.isIn (if checksButtons e.action then e.buttonState else s.listener.savedBS) = true := by
  rw [compared]
  by_cases hchecks : checksButtons e.action = true
  · rw [if_pos hchecks, if_pos hchecks, DexListener.checkButtons, sendChanged_eq,
      down_append_changes, h.others b hb]
    by_cases hsame : b.isIn s.listener.savedBS = b.isIn e.buttonState
    · simp [hsame]
    · simp [hsame, b.mem_all]
  · rw [if_neg hchecks, if_neg hchecks, List.append_nil, h.others b hb]

/-- The buttons are not compared for a tap that follows. -/
theorem leftCompared_of_taps (htaps : s.listener.taps e = true) :
    s.LeftCompared e ↔ Down s.sent .left := by
  have hhandled : s.listener.isButtonHandled e = false := by
    rw [DexListener.taps, Bool.and_eq_true, Bool.not_eq_true'] at htaps
    exact htaps.2
  rw [LeftCompared, if_neg]
  rintro ⟨-, hne⟩
  have hmem : MouseButton.left ∈ [MouseButton.left, .middle, .right].filter fun b =>
      b.isIn s.listener.savedBS != b.isIn e.buttonState := by
    simp [hne]
  rw [DexListener.isButtonHandled, DexListener.checkButtons, sendChanged_eq, changes] at hhandled
  simp only [ne_eq, List.map_eq_nil_iff, decide_not, Bool.not_eq_false', decide_eq_true_eq]
    at hhandled
  rw [hhandled] at hmem
  cases hmem

/-- What is sent after the comparison is of the left button. -/
theorem down_tapped_of_ne {evs : List (MouseButton × Bool)} {b : MouseButton} (hb : b ≠ .left) :
    Down (evs ++ s.tapped e) b ↔ Down evs b := by
  rw [tapped]
  split_ifs
  · rw [down_concat, if_neg (Ne.symm hb)]
  · rw [down_concat, if_neg (Ne.symm hb)]
  · rw [List.append_nil]

/-- An event alternates exactly if the left button is where it is expected. -/
theorem Sound.alternates_touch_iff (h : s.Sound) :
    Alternates (s.step (.touch e)).sent ↔
      (s.LeftChanged e →
        (Down s.sent .left ↔ MouseButton.left.isIn s.listener.savedBS = true)) ∧
      (e.action = .down → s.listener.taps e = true → ¬ Down s.sent .left) ∧
      (e.action = .up → s.listener.releases e = true → s.LeftCompared e) := by
  rw [sent_touch, tapped, ← h.alternates_compared_iff]
  by_cases htap : e.action = .down ∧ s.listener.taps e = true
  · rw [if_pos htap, alternates_concat, down_compared_left, leftCompared_of_taps htap.2]
    simp [htap.1, htap.2]
  · rw [if_neg htap]
    by_cases hup : e.action = .up ∧ s.listener.releases e = true
    · rw [if_pos hup, alternates_concat, down_compared_left]
      simp [hup.1, hup.2]
    · rw [if_neg hup, List.append_nil]
      refine (and_iff_left ⟨?_, ?_⟩).symm
      · exact fun ha ht => absurd ⟨ha, ht⟩ htap
      · exact fun ha hr => absurd ⟨ha, hr⟩ hup

/-- Where the left button is after an event. -/
theorem not_down_touch_left_iff (hquiet : s.Quieted e) :
    ¬ Down (s.step (.touch e)).sent .left ↔
      e.action = .up ∧ s.listener.releases e = true ∨ ¬ s.LeftCompared e := by
  have hdown : e.action ≠ .down := by
    rintro ha
    rcases hquiet.1 with h | h | h
    · rw [ha] at h
      cases h
    · rw [ha] at h
      cases h
    · exact h.1 ha
  rw [sent_touch, tapped, if_neg fun h => hdown h.1]
  by_cases hup : e.action = .up ∧ s.listener.releases e = true
  · rw [if_pos hup, down_concat]
    simp [hup.1, hup.2]
  · rw [if_neg hup, List.append_nil, down_compared_left]
    exact (or_iff_right hup).symm

theorem Sound.right_touch_iff (h : s.Sound) :
    (s.step (.touch e)).Right ↔ s.CarefulTouch e := by
  constructor
  · intro hright
    obtain ⟨hcompare, htap, hrelease⟩ := h.alternates_touch_iff.1 hright.alternates
    refine ⟨hcompare, htap, hrelease, fun hquiet => ?_⟩
    exact (not_down_touch_left_iff hquiet).1 (hright.quiet (quiet_touch_iff.2 hquiet))
  · intro hcareful
    refine ⟨h.alternates_touch_iff.2 ⟨hcareful.compare, hcareful.tap, hcareful.release⟩, ?_⟩
    intro hquiet
    have hquiet' := quiet_touch_iff.1 hquiet
    exact (not_down_touch_left_iff hquiet').2 (hcareful.quiet hquiet')

/-- A posted press. -/
theorem Sound.right_mouseDownRunnable_iff (h : s.Sound) :
    (s.step .mouseDownRunnable).Right ↔ s.Careful .mouseDownRunnable := by
  have hsent : (s.step .mouseDownRunnable).sent = s.sent ++ [(.left, true)] := rfl
  have hposted : (s.step .mouseDownRunnable).listener.posted = s.listener.posted - 1 := rfl
  have hdown : Down (s.step .mouseDownRunnable).sent .left := by
    rw [hsent, down_concat, if_pos rfl]
  have halternates : Alternates (s.step .mouseDownRunnable).sent ↔ ¬ Down s.sent .left := by
    rw [hsent, alternates_concat, and_iff_right h.alternates]
    simp
  constructor
  · intro hright
    refine ⟨halternates.1 hright.alternates, fun hgesture hbuttons => ?_⟩
    by_contra hle
    exact hright.quiet ⟨hgesture, hbuttons, by rw [hposted]; omega⟩ hdown
  · rintro ⟨hup, hwaits⟩
    refine ⟨halternates.2 hup, fun hquiet => ?_⟩
    have hmore := hwaits hquiet.1 hquiet.2.1
    have hzero := hquiet.2.2
    rw [hposted] at hzero
    omega

/-- A tap of the gesture detector is a click, and a double tap two of them. -/
theorem Sound.alternates_taps_iff (h : s.Sound) :
    (Alternates (s.step .singleTapConfirmed).sent ↔ ¬ Down s.sent .left) ∧
      (Alternates (s.step .doubleTapEvent).sent ↔ ¬ Down s.sent .left) := by
  have hone : Alternates (s.step .singleTapConfirmed).sent ↔ ¬ Down s.sent .left := by
    rw [step, DexListener.onSingleTapConfirmed, alternates_click]
    exact and_iff_right h.alternates
  have htwo : (s.step .doubleTapEvent).sent =
      (s.step .singleTapConfirmed).sent ++ [(.left, true), (.left, false)] :=
    (List.append_assoc _ _ _).symm
  refine ⟨hone, ?_⟩
  rw [htwo, alternates_click, hone]
  refine and_iff_left ?_
  rw [step, DexListener.onSingleTapConfirmed, down_click]
  simp

theorem down_taps (b : MouseButton) :
    (Down (s.step .singleTapConfirmed).sent b ↔ MouseButton.left ≠ b ∧ Down s.sent b) ∧
      (Down (s.step .doubleTapEvent).sent b ↔ MouseButton.left ≠ b ∧ Down s.sent b) := by
  have hone : Down (s.step .singleTapConfirmed).sent b ↔ MouseButton.left ≠ b ∧ Down s.sent b :=
    down_click
  have htwo : (s.step .doubleTapEvent).sent =
      (s.step .singleTapConfirmed).sent ++ [(.left, true), (.left, false)] :=
    (List.append_assoc _ _ _).symm
  refine ⟨hone, ?_⟩
  rw [htwo, down_click, hone, and_self_left]

/-- A step is right exactly if it is careful. -/
theorem Sound.right_step_iff (h : s.Sound) (a : DexStep) : (s.step a).Right ↔ s.Careful a := by
  cases a with
  | touch e => exact h.right_touch_iff
  | mouseDownRunnable => exact h.right_mouseDownRunnable_iff
  | singleTapConfirmed =>
    rw [Careful, ← h.alternates_taps_iff.1]
    exact ⟨Right.alternates, fun halt => ⟨halt, fun _ hd => ((down_taps .left).1.1 hd).1 rfl⟩⟩
  | doubleTapEvent =>
    rw [Careful, ← h.alternates_taps_iff.2]
    exact ⟨Right.alternates, fun halt => ⟨halt, fun _ hd => ((down_taps .left).2.1 hd).1 rfl⟩⟩

theorem Sound.step (h : s.Sound) {a : DexStep} (hright : (s.step a).Right) :
    (s.step a).Sound := by
  refine ⟨hright.alternates, fun b hb => ?_⟩
  cases a with
  | touch e =>
    have hsaved : (s.step (.touch e)).listener.savedBS = _ := (onTouch_spec s e).2.1
    rw [sent_touch, down_tapped_of_ne hb, h.down_compared hb, hsaved]
  | mouseDownRunnable =>
    have hsent : (s.step .mouseDownRunnable).sent = s.sent ++ [(.left, true)] := rfl
    rw [hsent, down_concat, if_neg (Ne.symm hb)]
    exact h.others b hb
  | singleTapConfirmed =>
    rw [(down_taps b).1, and_iff_right (Ne.symm hb)]
    exact h.others b hb
  | doubleTapEvent =>
    rw [(down_taps b).2, and_iff_right (Ne.symm hb)]
    exact h.others b hb

theorem sound_start : Sound {} where
  alternates := alternates_nil
  others b _ := by cases b <;> decide

end Dex

end TermuxX11.Input
