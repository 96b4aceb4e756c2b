import TermuxX11.Input.Keys

/-!
# Intercepted keys

`KeyInterceptor` is an accessibility service that sees the keys before Android uses them up, and
hands them to the listener of the activity while the activity is to get them.  A release is handed
on for a key that was pressed while the activity got the keys, whoever gets them now; but the
filter of the Win key in `handleKey` looks at the meta state that comes with the release.

The state of the activity changes in any way between two steps.  Android gives key events to the
service only while `enabled`, which asks for them: a release that comes after the service stopped
asking is not handed on by it.  `recheck` stops asking two minutes after it was called without the
focus, and does not take this back when the focus returns before, so that a key may go down in
between.  `held` is not part of the service: it is the set of keys that are down, whoever was told.
-/

namespace TermuxX11.Input

open Run Ledger

/-! ### The activity -/

/-- What the service asks of `MainActivity`. -/
structure ActivityState where
  hasInputHandler : Bool := true
  hasWindowFocus : Bool := true
  textInputFocused : Bool := false
  pauseKeyInterceptingWithEsc : Bool := false
  keyIntercepting : Bool := false
  filterOutWinKey : Bool := false
  deriving DecidableEq, Repr

namespace ActivityState

variable (a : ActivityState) (e : KeyEvent)

def shouldInterceptKeys : Bool :=
  if !a.hasInputHandler || !a.hasWindowFocus || a.textInputFocused then false
  else !a.pauseKeyInterceptingWithEsc || a.keyIntercepting

/-- `KEYCODE_META_LEFT`, `KEYCODE_META_RIGHT`, or a key with the Win key. -/
def isWinKey : Bool := e.keyCode = 117 || e.keyCode = 118 || e.isMetaPressed

/-- `handleKey` calls the listener. -/
def handleKey : Bool := !(a.filterOutWinKey && isWinKey e)

end ActivityState

/-! ### The service -/

/-- The service, the instance of the activity if there is one, and the events that its listener
got; `disablePending` says that the callback of `recheck` is waiting. -/
structure Interceptor where
  instance? : Option ActivityState := none
  pressedKeys : Finset ℤ := ∅
  enabled : Bool := false
  disablePending : Bool := false
  held : Finset ℤ := ∅
  forwarded : List KeyEvent := []

/-- What happens to the service, and the keys whether or not it is told of them. -/
inductive InterceptorStep
  | keyEvent (e : KeyEvent)
  | activity (instance? : Option ActivityState)
  | recheck
  | disableImmediately

namespace Interceptor

variable (s : Interceptor) (e : KeyEvent)

def recheck : Interceptor :=
  let shouldBeEnabled :=
    s.instance?.any fun a => a.hasWindowFocus || decide (s.pressedKeys ≠ ∅)
  if shouldBeEnabled = s.enabled then s
  else if shouldBeEnabled then { s with disablePending := false, enabled := true }
  else { s with disablePending := true }

/-- `onKeyEvent` hands the event to the listener. -/
def forwards : Bool :=
  s.instance?.any fun a =>
    (a.shouldInterceptKeys || (e.action = .up && e.keyCode ∈ s.pressedKeys)) && a.handleKey e

/-- `pressedKeys` after an event for which the activity does or does not intercept. -/
def pressedAfter (intercept : Bool) : Finset ℤ :=
  if intercept && e.action = .down then insert e.keyCode s.pressedKeys
  else if e.action = .up then s.pressedKeys.erase e.keyCode
  else s.pressedKeys

def onKeyEvent : Interceptor :=
  match s.instance? with
  | none => s
  | some a =>
    recheck
      { s with
        pressedKeys := s.pressedAfter e a.shouldInterceptKeys
        forwarded := if s.forwards e then s.forwarded ++ [e] else s.forwarded }

/-- One step. -/
def step (s : Interceptor) : InterceptorStep → Interceptor
  | .keyEvent e => { (if s.enabled then s.onKeyEvent e else s) with held := e.holds s.held }
  | .activity instance? => { s with instance? := instance? }
  | .recheck => s.recheck
  | .disableImmediately =>
    if s.disablePending then { s with disablePending := false, enabled := false } else s

/-- The presses and releases that the listener got. -/
def events : List (ℤ × Bool) :=
  s.forwarded.filterMap fun e =>
    match e.action with
    | .down => some (e.keyCode, true)
    | .up => some (e.keyCode, false)
    | .multiple => none

/-- The key is down for the listener. -/
def Down (key : ℤ) : Prop := Ledger.Down s.events key

instance (key : ℤ) : Decidable (s.Down key) := inferInstanceAs (Decidable (Ledger.Down _ _))

end Interceptor

/-- The release of a key reaches the listener, if the press did; and with no key held none is down
for the listener. -/
structure InterceptorStep.Releases (a : InterceptorStep) (s s' : Interceptor) : Prop where
  released : ∀ e, a = .keyEvent e → e.action = .up → ¬ s'.Down e.keyCode
  allUp : s'.held = ∅ → ∀ key, ¬ s'.Down key

/-- The release of a key that is down for the listener comes while the service asks for key events,
finds an activity, and is not filtered out with the Win key. -/
def Interceptor.Passes (s : Interceptor) : InterceptorStep → Prop
  | .keyEvent e =>
    e.action = .up → s.Down e.keyCode → s.enabled = true ∧
      ∃ a, s.instance? = some a ∧ ¬ (a.filterOutWinKey = true ∧ ActivityState.isWinKey e = true)
  | _ => True

/-! ### One key event -/

namespace Interceptor

variable (s : Interceptor) (e : KeyEvent)

/-- `recheck` concerns the two flags only. -/
theorem recheck_frame :
    s.recheck.pressedKeys = s.pressedKeys ∧ s.recheck.held = s.held ∧
      s.recheck.forwarded = s.forwarded := by
  rw [recheck]
  split_ifs <;> exact ⟨rfl, rfl, rfl⟩

theorem forwarded_onKeyEvent :
    (s.onKeyEvent e).forwarded = if s.forwards e then s.forwarded ++ [e] else s.forwarded := by
  rw [onKeyEvent]
  cases ha : s.instance? with
  | none => simp [forwards, ha]
  | some a => exact (recheck_frame _).2.2

theorem pressedKeys_onKeyEvent {a : ActivityState} (ha : s.instance? = some a) :
    (s.onKeyEvent e).pressedKeys = s.pressedAfter e a.shouldInterceptKeys := by
  rw [onKeyEvent, ha]
  exact (recheck_frame _).1

/-- The events of a key other than that of the event stay as they are. -/
theorem down_onKeyEvent_of_ne {key : ℤ} (hne : e.keyCode ≠ key) :
    (s.onKeyEvent e).Down key ↔ s.Down key := by
  rw [Down, Down, events, events, forwarded_onKeyEvent]
  split_ifs
  · rw [List.filterMap_append]
    cases hact : e.action with
    | down => simp [hact, down_concat, hne]
    | up => simp [hact, down_concat, hne]
    | multiple => simp [hact]
  · exact Iff.rfl

/-- A release leaves the key down for the listener if it was so and the release is not handed
on. -/
theorem down_onKeyEvent_up (hup : e.action = .up) :
    (s.onKeyEvent e).Down e.keyCode ↔ s.Down e.keyCode ∧ s.forwards e = false := by
  rw [Down, Down, events, events, forwarded_onKeyEvent]
  cases hf : s.forwards e with
  | true => simp [List.filterMap_append, hup, down_concat]
  | false => simp

theorem down_onKeyEvent_multiple {key : ℤ} (hact : e.action = .multiple) :
    (s.onKeyEvent e).Down key ↔ s.Down key := by
  rw [Down, Down, events, events, forwarded_onKeyEvent]
  split_ifs
  · simp [List.filterMap_append, hact]
  · exact Iff.rfl

/-- A press that is handed on is one of the keys that were pressed while intercepting. -/
theorem intercepts_of_forwards (hup : e.action ≠ .up) (hf : s.forwards e = true) :
    ∃ a, s.instance? = some a ∧ a.shouldInterceptKeys = true := by
  cases ha : s.instance? with
  | none => simp [forwards, ha] at hf
  | some a =>
    refine ⟨a, rfl, ?_⟩
    simp only [forwards, ha, Option.any_some, Bool.and_eq_true, Bool.or_eq_true,
      decide_eq_true_eq] at hf
    rcases hf.1 with hi | hi
    · exact hi
    · exact absurd hi.1 hup

/-! ### Runs -/

/-- What is down for the listener was pressed while intercepting, and is held. -/
structure Sound : Prop where
  pressed : ∀ key, s.Down key → key ∈ s.pressedKeys
  held : ∀ key, s.Down key → key ∈ s.held

variable {s e}

theorem Sound.of_frame (h : s.Sound) {s' : Interceptor} (hp : s'.pressedKeys = s.pressedKeys)
    (hh : s'.held = s.held) (hf : s'.forwarded = s.forwarded) : s'.Sound := by
  have hdown : ∀ key, s'.Down key ↔ s.Down key := by
    intro key
    rw [Down, Down, events, events, hf]
  refine ⟨fun key hd => ?_, fun key hd => ?_⟩
  · rw [hp]
    exact h.pressed key ((hdown key).1 hd)
  · rw [hh]
    exact h.held key ((hdown key).1 hd)

/-- With the invariant a release is handed on unless there is no activity or it is filtered
out. -/
theorem Sound.forwards_up_iff (h : s.Sound) (hup : e.action = .up) (hd : s.Down e.keyCode) :
    s.forwards e = true ↔ ∃ a, s.instance? = some a ∧
      ¬ (a.filterOutWinKey = true ∧ ActivityState.isWinKey e = true) := by
  have hmem := h.pressed e.keyCode hd
  cases ha : s.instance? with
  | none => simp [forwards, ha]
  | some a =>
    cases hwin : a.filterOutWinKey <;>
      simp [forwards, ha, hup, hmem, ActivityState.handleKey, hwin]

/-- A key that was down for the listener, or is handed on now, is among the pressed ones unless it
is released. -/
theorem Sound.pressed_onKeyEvent (h : s.Sound) (hup : e.action ≠ .up)
    (hd : (s.onKeyEvent e).Down e.keyCode) : e.keyCode ∈ (s.onKeyEvent e).pressedKeys := by
  cases hf : s.forwards e with
  | true =>
    obtain ⟨a, ha, hi⟩ := s.intercepts_of_forwards e hup hf
    rw [s.pressedKeys_onKeyEvent e ha, pressedAfter, hi]
    cases hact : e.action with
    | down => simp
    | up => exact absurd hact hup
    | multiple =>
      have hold := (s.down_onKeyEvent_multiple e hact).1 hd
      simpa using h.pressed e.keyCode hold
  | false =>
    have hold : s.Down e.keyCode := by
      rw [Down, events, forwarded_onKeyEvent, hf] at hd
      exact hd
    have hmem := h.pressed e.keyCode hold
    cases ha : s.instance? with
    | none =>
      rw [onKeyEvent, ha]
      exact hmem
    | some a =>
      rw [s.pressedKeys_onKeyEvent e ha, pressedAfter]
      split_ifs with hdown
      · exact Finset.mem_insert_self _ _
      · exact hmem

theorem Sound.held_onKeyEvent (h : s.Sound) (hup : e.action ≠ .up)
    (hd : (s.onKeyEvent e).Down e.keyCode) : e.keyCode ∈ e.holds s.held := by
  rw [KeyEvent.holds]
  cases hact : e.action with
  | down => exact Finset.mem_insert_self _ _
  | up => exact absurd hact hup
  | multiple => exact h.held e.keyCode ((s.down_onKeyEvent_multiple e hact).1 hd)

/-- A key that is not that of the event stays pressed and held. -/
theorem mem_pressedKeys_onKeyEvent {key : ℤ} (hne : key ≠ e.keyCode) (hmem : key ∈ s.pressedKeys) :
    key ∈ (s.onKeyEvent e).pressedKeys := by
  cases ha : s.instance? with
  | none =>
    rw [onKeyEvent, ha]
    exact hmem
  | some a =>
    rw [s.pressedKeys_onKeyEvent e ha, pressedAfter]
    split_ifs
    · exact Finset.mem_insert_of_mem hmem
    · exact Finset.mem_erase.2 ⟨hne, hmem⟩
    · exact hmem

theorem mem_holds {key : ℤ} {held : Finset ℤ} (hne : key ≠ e.keyCode) (hmem : key ∈ held) :
    key ∈ e.holds held := by
  rw [KeyEvent.holds]
  cases e.action with
  | down => exact Finset.mem_insert_of_mem hmem
  | up => exact Finset.mem_erase.2 ⟨hne, hmem⟩
  | multiple => exact hmem

/-- A key event after which its key is not down for the listener if it was a release. -/
theorem Sound.keyEvent (h : s.Sound)
    (hreleased : e.action = .up → ¬ (s.onKeyEvent e).Down e.keyCode) :
    Sound { s.onKeyEvent e with held := e.holds s.held } := by
  have hcases : ∀ key, (s.onKeyEvent e).Down key →
      key ∈ (s.onKeyEvent e).pressedKeys ∧ key ∈ e.holds s.held := by
    intro key hd
    by_cases hkey : key = e.keyCode
    · subst hkey
      have hup : e.action ≠ .up := fun hup => hreleased hup hd
      exact ⟨h.pressed_onKeyEvent hup hd, h.held_onKeyEvent hup hd⟩
    · have hold := (s.down_onKeyEvent_of_ne e (Ne.symm hkey)).1 hd
      exact ⟨mem_pressedKeys_onKeyEvent hkey (h.pressed key hold),
        mem_holds hkey (h.held key hold)⟩
  exact ⟨fun key hd => (hcases key hd).1, fun key hd => (hcases key hd).2⟩

/-- An event that the service is not told of changes nothing for the listener. -/
theorem Sound.keyEvent_untold (h : s.Sound) (hreleased : e.action = .up → ¬ s.Down e.keyCode) :
    Sound { s with held := e.holds s.held } := by
  refine ⟨h.pressed, fun key hd => ?_⟩
  have hold : s.Down key := hd
  by_cases hkey : key = e.keyCode
  · subst hkey
    change e.keyCode ∈ e.holds s.held
    rw [KeyEvent.holds]
    cases hact : e.action with
    | down => exact Finset.mem_insert_self _ _
    | up => exact absurd hold (hreleased hact)
    | multiple => exact h.held e.keyCode hold
  · exact mem_holds hkey (h.held key hold)

theorem Sound.step (h : s.Sound) {a : InterceptorStep}
    (hr : ∀ e, a = .keyEvent e → e.action = .up → ¬ (s.step a).Down e.keyCode) :
    (s.step a).Sound := by
  cases a with
  | keyEvent e =>
    have hreleased := hr e rfl
    rw [Interceptor.step] at hreleased ⊢
    by_cases hen : s.enabled = true
    · rw [if_pos hen] at hreleased ⊢
      exact h.keyEvent hreleased
    · rw [if_neg hen] at hreleased ⊢
      exact h.keyEvent_untold hreleased
  | activity instance? => exact h.of_frame rfl rfl rfl
  | recheck =>
    obtain ⟨hp, hh, hf⟩ := s.recheck_frame
    exact h.of_frame hp hh hf
  | disableImmediately =>
    rw [Interceptor.step]
    split_ifs
    · exact h.of_frame rfl rfl rfl
    · exact h

/-- Under the invariant a release is handed on exactly if it passes. -/
theorem Sound.released_iff (h : s.Sound) (a : InterceptorStep) :
    (∀ e, a = .keyEvent e → e.action = .up → ¬ (s.step a).Down e.keyCode) ↔ s.Passes a := by
  cases a with
  | keyEvent e =>
    have hstep : (s.step (.keyEvent e)).Down e.keyCode ↔
        (if s.enabled then s.onKeyEvent e else s).Down e.keyCode := Iff.rfl
    have hiff : ∀ hup : e.action = .up, ¬ (s.step (.keyEvent e)).Down e.keyCode ↔
        (s.Down e.keyCode → s.enabled = true ∧ s.forwards e = true) := by
      intro hup
      rw [hstep]
      by_cases hen : s.enabled = true
      · rw [if_pos hen, s.down_onKeyEvent_up e hup, not_and, Bool.not_eq_false]
        simp only [hen, true_and]
      · rw [if_neg hen]
        exact (imp_iff_not fun h => hen h.1).symm
    constructor
    · intro hr hup hd
      obtain ⟨hen, hforwards⟩ := (hiff hup).1 (hr e rfl hup) hd
      exact ⟨hen, (h.forwards_up_iff hup hd).1 hforwards⟩
    · rintro hp _ ⟨⟩ hup
      refine (hiff hup).2 fun hd => ?_
      obtain ⟨hen, hpasses⟩ := hp hup hd
      exact ⟨hen, (h.forwards_up_iff hup hd).2 hpasses⟩
  | activity instance? => exact iff_of_true nofun trivial
  | recheck => exact iff_of_true nofun trivial
  | disableImmediately => exact iff_of_true nofun trivial

theorem Sound.releases_iff (h : s.Sound) (a : InterceptorStep) :
    a.Releases s (s.step a) ↔ s.Passes a := by
  rw [← h.released_iff a]
  constructor
  · intro hr
    exact hr.released
  · intro hreleased
    refine ⟨hreleased, fun hall key hd => ?_⟩
    have hmem := (h.step hreleased).held key hd
    rw [hall] at hmem
    exact absurd hmem (Finset.notMem_empty key)

end Interceptor

/-- **Intercepted keys are released**, in all of a run, if and only if every release of a key that
is down for the listener comes while the service asks for key events, finds an activity and is not
filtered out with the Win key. -/
theorem intercepted_keys_released_iff (as : List InterceptorStep) :
    Always Interceptor.step (fun s a => a.Releases s (s.step a)) {} as ↔
      Always Interceptor.step Interceptor.Passes {} as := by
  refine always_iff_of_invariant (I := Interceptor.Sound) (fun s a h hr => h.step hr.released)
    (fun s a h => h.releases_iff a) ?_ as
  have hnone : ∀ key, ¬ Interceptor.Down {} key := by
    intro key hd
    cases hd
  exact ⟨fun key hd => absurd hd (hnone key), fun key hd => absurd hd (hnone key)⟩

/-- With the filter on, the letter `a` is pressed, then the Win key, and then the letter is
released. -/
def releasedWithWin : List InterceptorStep :=
  [.activity (some { filterOutWinKey := true }), .recheck,
    .keyEvent { action := .down, keyCode := 29 },
    .keyEvent { action := .down, keyCode := 117, metaState := 0x10000 },
    .keyEvent { action := .up, keyCode := 29, metaState := 0x10000 },
    .keyEvent { action := .up, keyCode := 117 }]

/-- The release of the letter is filtered out, and the letter stays down with no key held. -/
theorem releasedWithWin_stuck :
    ¬ Always Interceptor.step (fun s a => a.Releases s (s.step a)) {} releasedWithWin := by
  intro h
  refine h.2.2.2.2.2.1.allUp ?_ 29 ?_
  · decide +kernel
  · decide +kernel

end TermuxX11.Input
