import TermuxX11.Input.Mouse

/-!
# Buttons held by finger gestures

An input strategy presses a button when fingers are held down, remembers it in `mHeldButton`, and
releases it at the `ACTION_UP` that ends the gesture.  `setInputMode` replaces the strategy by a
new one that remembers nothing.

The steps are the calls on the strategy and the replacements, in any order: which callbacks the
detectors of gestures make, and when, is left to them.  The cursor and the wheel are left out.
-/

namespace TermuxX11.Input

open Run Ledger

/-! ### Strategies -/

/-- The calls of `InputStub.sendMouseEvent` for a button. -/
structure MouseCall where
  button : MouseButton
  down : Bool
  relative : Bool
  deriving DecidableEq, Repr

/-- The strategies, with their `mHeldButton`; `BUTTON_UNDEFINED` is `none`. -/
inductive InputStrategy
  | null
  | simulatedTouch (mHeldButton : Option MouseButton)
  | trackpad (mHeldButton : Option MouseButton)
  deriving DecidableEq, Repr

def sendMouseDown (button : MouseButton) (relative : Bool) : List MouseCall :=
  [⟨button, true, relative⟩]

def sendMouseUp (button : MouseButton) (relative : Bool) : List MouseCall :=
  [⟨button, false, relative⟩]

def sendMouseClick (button : MouseButton) (relative : Bool) : List MouseCall :=
  [⟨button, true, relative⟩, ⟨button, false, relative⟩]

/-- `onMotionEvent` of a strategy that can hold a button. -/
def releaseOnUp (relative : Bool) (action : MotionAction) (mHeldButton : Option MouseButton) :
    Option MouseButton × List MouseCall :=
  match mHeldButton with
  | some button =>
    if action = .up then (none, sendMouseUp button relative) else (some button, [])
  | none => (none, [])

namespace InputStrategy

variable (tapToMove : Bool)

def held : InputStrategy → Option MouseButton
  | null => none
  | simulatedTouch mHeldButton => mHeldButton
  | trackpad mHeldButton => mHeldButton

def onMotionEvent (action : MotionAction) : InputStrategy → InputStrategy × List MouseCall
  | null => (null, [])
  | simulatedTouch mHeldButton =>
    let r := releaseOnUp false action mHeldButton
    (simulatedTouch r.1, r.2)
  | trackpad mHeldButton =>
    let r := releaseOnUp true action mHeldButton
    (trackpad r.1, r.2)

def onPressAndHold (button : MouseButton) (force : Bool) :
    InputStrategy → InputStrategy × List MouseCall
  | null => (null, [])
  | simulatedTouch _ => (simulatedTouch (some button), sendMouseDown button false)
  | trackpad mHeldButton =>
    if tapToMove && !force then (trackpad mHeldButton, [])
    else (trackpad (some button), sendMouseDown button true)

/-- `onPressAndHold` presses the button. -/
def presses (force : Bool) : InputStrategy → Bool
  | null => false
  | simulatedTouch _ => true
  | trackpad _ => !(tapToMove && !force)

def onTap (button : MouseButton) : InputStrategy → List MouseCall
  | null => []
  | simulatedTouch _ => sendMouseClick button false
  | trackpad _ => sendMouseClick button true

end InputStrategy

/-! ### The handler -/

inductive InputMode
  | trackpad | simulatedTouch | touch
  deriving DecidableEq, Repr

/-- The strategy of a handler, `tapToMove` of its sender, and the buttons that were sent. -/
structure Fingers where
  mInputStrategy : InputStrategy := .trackpad none
  tapToMove : Bool := false
  sent : List MouseCall := []

/-- What happens between a handler and its strategy. -/
inductive FingerStep
  | motionEvent (action : MotionAction)
  | pressAndHold (button : MouseButton) (force : Bool)
  | tap (button : MouseButton)
  | setInputMode (mode : InputMode)
  | reloadPreferences (touchMode : InputMode) (tapToMove : Bool)
  deriving DecidableEq, Repr

namespace Fingers

variable (isTouchpad : Bool)

/-- `setInputMode`; the handler of a touchpad has no `mTouchpadHandler` and is always a
trackpad. -/
def setInputMode (inputMode : InputMode) (s : Fingers) : Fingers :=
  { s with mInputStrategy :=
      if isTouchpad then .trackpad none
      else
        match inputMode with
        | .touch => .null
        | .simulatedTouch => .simulatedTouch none
        | .trackpad => .trackpad none }

/-- A call on the strategy, with the strategy after it and what it sends. -/
def act (s : Fingers) (r : InputStrategy × List MouseCall) : Fingers :=
  { s with mInputStrategy := r.1, sent := s.sent ++ r.2 }

/-- One step. -/
def step (s : Fingers) : FingerStep → Fingers
  | .motionEvent action => s.act (s.mInputStrategy.onMotionEvent action)
  | .pressAndHold button force =>
    s.act (s.mInputStrategy.onPressAndHold s.tapToMove button force)
  | .tap button => s.act (s.mInputStrategy, s.mInputStrategy.onTap button)
  | .setInputMode mode => s.setInputMode isTouchpad mode
  | .reloadPreferences touchMode tapToMove =>
    { s.setInputMode isTouchpad touchMode with tapToMove := tapToMove }

/-- The presses and releases that were sent. -/
def events (s : Fingers) : List (MouseButton × Bool) := s.sent.map fun c => (c.button, c.down)

/-- The button that the strategy remembers. -/
def held (s : Fingers) : Option MouseButton := s.mInputStrategy.held

end Fingers

/-- The step ends a gesture. -/
def FingerStep.EndsGesture (a : FingerStep) : Prop :=
  a = .motionEvent .up ∨ a = .motionEvent .cancel

/-- After a step, presses and releases alternate, and no button is down if it ended a gesture. -/
structure FingerStep.LetsGo (a : FingerStep) (s : Fingers) : Prop where
  alternates : Alternates s.events
  ended : a.EndsGesture → ∀ b, ¬ Down s.events b

/-- The gesture is not cancelled and the strategy not replaced while a button is held, and no
other button is held then, nor the same one pressed or tapped. -/
def Fingers.Free (s : Fingers) : FingerStep → Prop
  | .motionEvent action => action = .cancel → s.held = none
  | .pressAndHold _ force => s.mInputStrategy.presses s.tapToMove force = true → s.held = none
  | .tap button => s.held ≠ some button
  | .setInputMode _ => s.held = none
  | .reloadPreferences _ _ => s.held = none

/-! ### What a step sends and remembers -/

namespace Fingers

variable (isTouchpad : Bool) (s : Fingers)

theorem events_act (r : InputStrategy × List MouseCall) :
    (s.act r).events = s.events ++ r.2.map fun c => (c.button, c.down) := by
  simp [act, events]

theorem events_motionEvent (action : MotionAction) :
    (s.step isTouchpad (.motionEvent action)).events =
      s.events ++ if action = .up then s.held.toList.map fun b => (b, false) else [] := by
  rw [step, events_act, held]
  cases s.mInputStrategy with
  | null => simp [InputStrategy.onMotionEvent, InputStrategy.held]
  | simulatedTouch h =>
    cases h <;> by_cases ha : action = .up <;>
      simp [InputStrategy.onMotionEvent, InputStrategy.held, releaseOnUp, sendMouseUp, ha]
  | trackpad h =>
    cases h <;> by_cases ha : action = .up <;>
      simp [InputStrategy.onMotionEvent, InputStrategy.held, releaseOnUp, sendMouseUp, ha]

theorem held_motionEvent (action : MotionAction) :
    (s.step isTouchpad (.motionEvent action)).held = if action = .up then none else s.held := by
  rw [step, act, held, held]
  cases s.mInputStrategy with
  | null => simp [InputStrategy.onMotionEvent, InputStrategy.held]
  | simulatedTouch h =>
    cases h <;> by_cases ha : action = .up <;>
      simp [InputStrategy.onMotionEvent, InputStrategy.held, releaseOnUp, ha]
  | trackpad h =>
    cases h <;> by_cases ha : action = .up <;>
      simp [InputStrategy.onMotionEvent, InputStrategy.held, releaseOnUp, ha]

theorem events_pressAndHold (button : MouseButton) (force : Bool) :
    (s.step isTouchpad (.pressAndHold button force)).events =
      s.events ++ if s.mInputStrategy.presses s.tapToMove force then [(button, true)] else [] := by
  rw [step, events_act]
  cases s.mInputStrategy with
  | null => simp [InputStrategy.onPressAndHold, InputStrategy.presses]
  | simulatedTouch h =>
    simp [InputStrategy.onPressAndHold, InputStrategy.presses, sendMouseDown]
  | trackpad h =>
    by_cases ht : (s.tapToMove && !force) = true
    · simp [InputStrategy.onPressAndHold, InputStrategy.presses, ht]
    · simp [InputStrategy.onPressAndHold, InputStrategy.presses, sendMouseDown, ht]

theorem held_pressAndHold (button : MouseButton) (force : Bool) :
    (s.step isTouchpad (.pressAndHold button force)).held =
      if s.mInputStrategy.presses s.tapToMove force then some button else s.held := by
  rw [step, act, held, held]
  cases s.mInputStrategy with
  | null => rfl
  | simulatedTouch h => rfl
  | trackpad h =>
    by_cases ht : (s.tapToMove && !force) = true
    · simp [InputStrategy.onPressAndHold, InputStrategy.presses, InputStrategy.held, ht]
    · simp [InputStrategy.onPressAndHold, InputStrategy.presses, InputStrategy.held, ht]

theorem events_tap (button : MouseButton) :
    (s.step isTouchpad (.tap button)).events = s.events ++
      if s.mInputStrategy = .null then [] else [(button, true), (button, false)] := by
  rw [step, events_act]
  cases s.mInputStrategy with
  | null => simp [InputStrategy.onTap]
  | simulatedTouch h => simp [InputStrategy.onTap, sendMouseClick]
  | trackpad h => simp [InputStrategy.onTap, sendMouseClick]

theorem held_tap (button : MouseButton) : (s.step isTouchpad (.tap button)).held = s.held := rfl

theorem held_setInputMode (mode : InputMode) : (s.setInputMode isTouchpad mode).held = none := by
  cases isTouchpad <;> cases mode <;> rfl

theorem held_step_setInputMode (mode : InputMode) :
    (s.step isTouchpad (.setInputMode mode)).held = none :=
  s.held_setInputMode isTouchpad mode

theorem held_step_reloadPreferences (mode : InputMode) (tapToMove : Bool) :
    (s.step isTouchpad (.reloadPreferences mode tapToMove)).held = none :=
  s.held_setInputMode isTouchpad mode

end Fingers

/-! ### Runs -/

/-- Presses and releases alternate, and the button that is down is the one that is
remembered. -/
structure Fingers.Sound (s : Fingers) : Prop where
  alternates : Alternates s.events
  down : ∀ b, Down s.events b ↔ s.held = some b

/-- A button is down that the strategy does not remember. -/
def Fingers.Forgotten (s : Fingers) : Prop := ∃ b, Down s.events b ∧ s.held ≠ some b

section

variable {isTouchpad : Bool} {s s' : Fingers}

theorem Fingers.Sound.of_same (h : s.Sound) (hevents : s'.events = s.events)
    (hheld : s'.held = s.held) : s'.Sound where
  alternates := hevents ▸ h.alternates
  down b := by rw [hevents, hheld, h.down]

/-- A button is pressed while none is held. -/
theorem Fingers.Sound.press (h : s.Sound) {b : MouseButton} (hnone : s.held = none)
    (hevents : s'.events = s.events ++ [(b, true)]) (hheld : s'.held = some b) : s'.Sound where
  alternates := by
    rw [hevents, alternates_concat]
    refine ⟨h.alternates, ?_⟩
    rw [h.down, hnone]
    simp
  down b' := by
    rw [hevents, down_concat, hheld, h.down, hnone]
    by_cases hb : b = b' <;> simp [hb]

/-- The held button is released. -/
theorem Fingers.Sound.release (h : s.Sound) {b : MouseButton} (hb : s.held = some b)
    (hevents : s'.events = s.events ++ [(b, false)]) (hheld : s'.held = none) : s'.Sound where
  alternates := by
    rw [hevents, alternates_concat]
    refine ⟨h.alternates, ?_⟩
    rw [h.down, hb]
    simp
  down b' := by
    rw [hevents, down_concat, hheld, h.down, hb]
    by_cases hb' : b = b' <;> simp [hb']

/-- A button that is not held is clicked. -/
theorem Fingers.Sound.click (h : s.Sound) {b : MouseButton} (hb : s.held ≠ some b)
    (hevents : s'.events = s.events ++ [(b, true)] ++ [(b, false)]) (hheld : s'.held = s.held) :
    s'.Sound where
  alternates := by
    rw [hevents, alternates_concat, alternates_concat, down_concat]
    refine ⟨⟨h.alternates, ?_⟩, by simp⟩
    rw [h.down]
    simp [hb]
  down b' := by
    rw [hevents, down_concat, down_concat, hheld, h.down]
    by_cases hb' : b = b'
    · subst hb'
      simp [hb]
    · simp [hb']

theorem Fingers.Sound.step (h : s.Sound) {a : FingerStep} (hfree : s.Free a) :
    (s.step isTouchpad a).Sound := by
  cases a with
  | motionEvent action =>
    have hevents := s.events_motionEvent isTouchpad action
    have hheld := s.held_motionEvent isTouchpad action
    by_cases hup : action = .up
    · rw [if_pos hup] at hevents hheld
      cases hb : s.held with
      | none =>
        rw [hb] at hevents
        exact h.of_same (hevents.trans (List.append_nil _)) (hheld.trans hb.symm)
      | some b =>
        rw [hb] at hevents
        exact h.release hb hevents hheld
    · rw [if_neg hup] at hevents hheld
      exact h.of_same (hevents.trans (List.append_nil _)) hheld
  | pressAndHold b force =>
    have hevents := s.events_pressAndHold isTouchpad b force
    have hheld := s.held_pressAndHold isTouchpad b force
    by_cases hp : s.mInputStrategy.presses s.tapToMove force = true
    · rw [if_pos hp] at hevents hheld
      exact h.press (hfree hp) hevents hheld
    · rw [if_neg hp] at hevents hheld
      exact h.of_same (hevents.trans (List.append_nil _)) hheld
  | tap b =>
    have hevents := s.events_tap isTouchpad b
    by_cases hnull : s.mInputStrategy = .null
    · rw [if_pos hnull] at hevents
      exact h.of_same (hevents.trans (List.append_nil _)) rfl
    · rw [if_neg hnull] at hevents
      exact h.click hfree (hevents.trans (by simp)) rfl
  | setInputMode mode =>
    exact h.of_same rfl ((s.held_step_setInputMode isTouchpad mode).trans hfree.symm)
  | reloadPreferences mode tapToMove =>
    exact h.of_same rfl
      ((s.held_step_reloadPreferences isTouchpad mode tapToMove).trans hfree.symm)

theorem held_of_endsGesture {a : FingerStep} (ha : a.EndsGesture) (hfree : s.Free a) :
    (s.step isTouchpad a).held = none := by
  rcases ha with rfl | rfl
  · exact s.held_motionEvent isTouchpad .up
  · exact (s.held_motionEvent isTouchpad .cancel).trans (hfree rfl)

theorem Fingers.Sound.letsGo (h : s.Sound) {a : FingerStep} (hfree : s.Free a) :
    a.LetsGo (s.step isTouchpad a) where
  alternates := (h.step hfree).alternates
  ended ha b hd := by
    rw [(h.step hfree).down, held_of_endsGesture ha hfree] at hd
    cases hd

/-- A button that is down is not pressed again. -/
theorem ne_of_alternates_press {evs rest : List (MouseButton × Bool)} {b b' : MouseButton}
    (h : Alternates (evs ++ (b, true) :: rest)) (hd : Down evs b') : b ≠ b' := by
  rintro rfl
  exact (h evs (b, true) ⟨rest, by simp⟩).1 rfl hd

/-- A button that is forgotten stays so until it shows. -/
theorem Fingers.Forgotten.step (h : s.Forgotten) {a : FingerStep}
    (hgo : a.LetsGo (s.step isTouchpad a)) : (s.step isTouchpad a).Forgotten := by
  obtain ⟨b, hd, hb⟩ := h
  have halt := hgo.alternates
  cases a with
  | motionEvent action =>
    refine ⟨b, ?_⟩
    rw [events_motionEvent, held_motionEvent]
    by_cases hup : action = .up
    · rw [if_pos hup, if_pos hup]
      refine ⟨?_, by simp⟩
      cases hheld : s.held with
      | none => simpa using hd
      | some b' =>
        have hne : b' ≠ b := by
          rintro rfl
          exact hb hheld
        show Down (s.events ++ [(b', false)]) b
        rw [down_concat, if_neg hne]
        exact hd
    · rw [if_neg hup, if_neg hup, List.append_nil]
      exact ⟨hd, hb⟩
  | pressAndHold b' force =>
    refine ⟨b, ?_⟩
    rw [events_pressAndHold] at halt
    rw [events_pressAndHold, held_pressAndHold]
    by_cases hp : s.mInputStrategy.presses s.tapToMove force = true
    · rw [if_pos hp] at halt
      have hne : b' ≠ b := ne_of_alternates_press halt hd
      rw [if_pos hp, if_pos hp, down_concat, if_neg hne]
      refine ⟨hd, ?_⟩
      simpa using hne
    · rw [if_neg hp, if_neg hp, List.append_nil]
      exact ⟨hd, hb⟩
  | tap b' =>
    refine ⟨b, ?_⟩
    rw [events_tap] at halt
    rw [events_tap, held_tap]
    by_cases hnull : s.mInputStrategy = .null
    · rw [if_pos hnull, List.append_nil]
      exact ⟨hd, hb⟩
    · rw [if_neg hnull] at halt
      have hne : b' ≠ b := ne_of_alternates_press halt hd
      have hsplit : s.events ++ [(b', true), (b', false)] =
          s.events ++ [(b', true)] ++ [(b', false)] := by simp
      rw [if_neg hnull, hsplit, down_concat, if_neg hne, down_concat, if_neg hne]
      exact ⟨hd, hb⟩
  | setInputMode mode =>
    refine ⟨b, hd, ?_⟩
    rw [held_step_setInputMode]
    exact (Option.some_ne_none b).symm
  | reloadPreferences mode tapToMove =>
    refine ⟨b, hd, ?_⟩
    rw [held_step_reloadPreferences]
    exact (Option.some_ne_none b).symm

/-- A step that is not free and lets go all the same has forgotten a button. -/
theorem Fingers.Sound.forgotten (h : s.Sound) {a : FingerStep} (hfree : ¬ s.Free a)
    (hgo : a.LetsGo (s.step isTouchpad a)) : (s.step isTouchpad a).Forgotten := by
  have halt := hgo.alternates
  cases a with
  | motionEvent action =>
    obtain ⟨rfl, hheld⟩ := Classical.not_imp.1 hfree
    obtain ⟨b, hb⟩ := Option.ne_none_iff_exists'.1 hheld
    refine absurd ?_ (hgo.ended (.inr rfl) b)
    rw [events_motionEvent, if_neg (by decide), List.append_nil, h.down]
    exact hb
  | pressAndHold b' force =>
    obtain ⟨hp, hheld⟩ := Classical.not_imp.1 hfree
    obtain ⟨b, hb⟩ := Option.ne_none_iff_exists'.1 hheld
    have hd : Down s.events b := (h.down b).2 hb
    rw [events_pressAndHold, if_pos hp] at halt
    have hne : b' ≠ b := ne_of_alternates_press halt hd
    refine ⟨b, ?_⟩
    rw [events_pressAndHold, held_pressAndHold, if_pos hp, if_pos hp, down_concat, if_neg hne]
    refine ⟨hd, ?_⟩
    simpa using hne
  | tap b =>
    have hb : s.held = some b := Classical.not_not.1 hfree
    have hnull : s.mInputStrategy ≠ .null := by
      intro hnull
      rw [held, hnull] at hb
      cases hb
    rw [events_tap, if_neg hnull] at halt
    exact absurd rfl (ne_of_alternates_press halt ((h.down b).2 hb))
  | setInputMode mode =>
    obtain ⟨b, hb⟩ := Option.ne_none_iff_exists'.1 hfree
    refine ⟨b, (h.down b).2 hb, ?_⟩
    rw [held_step_setInputMode]
    nofun
  | reloadPreferences mode tapToMove =>
    obtain ⟨b, hb⟩ := Option.ne_none_iff_exists'.1 hfree
    refine ⟨b, (h.down b).2 hb, ?_⟩
    rw [held_step_reloadPreferences]
    nofun

end

/-- **No button is left held.** Buttons alternate and none is down after a gesture if no step
comes in the way of a held button; and only then, in a stream whose last gesture is ended. -/
theorem fingers_let_go (isTouchpad : Bool) (as : List FingerStep) :
    (Always (Fingers.step isTouchpad) Fingers.Free {} as →
      Always (Fingers.step isTouchpad) (fun s a => a.LetsGo (s.step isTouchpad a)) {} as) ∧
    ∀ z : FingerStep, z.EndsGesture →
      Always (Fingers.step isTouchpad) (fun s a => a.LetsGo (s.step isTouchpad a)) {} (as ++ [z]) →
      Always (Fingers.step isTouchpad) Fingers.Free {} (as ++ [z]) := by
  have hstart : Fingers.Sound {} := by
    refine ⟨alternates_nil, fun b => ?_⟩
    simp [Fingers.events, Fingers.held, InputStrategy.held, Down]
  constructor
  · intro h
    exact h.imp_of_invariant (fun s a hs hfree => hs.step hfree)
      (fun s a hs hfree => hs.letsGo hfree) hstart
  · intro z hz
    refine (always_concat_iff_of_trap (I := Fingers.Sound) (O := Fingers.Forgotten)
      (fun s a h hfree => ⟨h.step hfree, h.letsGo hfree⟩) (fun s a h => h.forgotten)
      (fun s a h => h.step) ?_ hstart as).1
    rintro s hgo ⟨b, hd, -⟩
    exact hgo.ended hz b hd

/-- A long press that ends as it should. -/
theorem longPress_lets_go :
    Always (Fingers.step false) (fun s a => a.LetsGo (s.step false a)) {}
      [.motionEvent .down, .pressAndHold .left false, .motionEvent .move, .motionEvent .up] :=
  (fingers_let_go false _).1 ⟨nofun, fun _ => rfl, nofun, nofun, trivial⟩

/-- A long press that is cancelled, and one during which the preferences are reloaded. -/
theorem longPress_left_held :
    ¬ Always (Fingers.step false) (fun s a => a.LetsGo (s.step false a)) {}
        [.motionEvent .down, .pressAndHold .left false, .motionEvent .cancel] ∧
      ¬ Always (Fingers.step false) (fun s a => a.LetsGo (s.step false a)) {}
        [.motionEvent .down, .pressAndHold .left false, .reloadPreferences .trackpad false,
          .motionEvent .up] := by
  constructor
  · intro h
    exact h.2.2.1.ended (.inr rfl) .left (by decide)
  · intro h
    exact h.2.2.2.1.ended (.inl rfl) .left (by decide)

end TermuxX11.Input
