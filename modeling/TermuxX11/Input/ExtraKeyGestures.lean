import TermuxX11.Input.ExtraKeys

/-!
# Touching the extra keys

The touch listener that `ExtraKeysView` gives to each button clicks it, repeats its key or locks it
while the finger stays, or shows its popup above it and clicks that.  The popup, the count of the
repeated presses and what is scheduled are fields of the view: all buttons share them.

A run of the repeating task is one step, though the task is on the thread of an executor: none of
its writes to the view comes between those of the listener.

The gestures are those of one finger at a time.  `meant` goes along with the view and has the calls
that each gesture stands for by itself.  A popup is closed when the finger comes back or is lifted,
but not when the gesture is cancelled: it is still there for the next one, which is then taken for a
gesture that has swiped up.
-/

namespace TermuxX11.Input

open Run

/-- `PRIMARY_REPETITIVE_KEYS`. -/
def repetitiveKeys : List String := ["UP", "DOWN", "LEFT", "RIGHT", "BKSP", "DEL", "PGUP", "PGDN"]

/-- The key of a button and that of its popup. -/
structure BarButton where
  key : String
  popup : Option String := none
  deriving DecidableEq, Repr

/-- A call of the client, the click of a special button and its long hold. -/
inductive KeyCall
  | click (key : String)
  | toggle (key : String)
  | longHold (key : String)
  deriving DecidableEq, Repr

/-- The fields of `ExtraKeysView` that the listeners share, with the calls so far.  What is
scheduled is given by its button, and is `none` when it has been stopped or, if it is a long hold,
has run. -/
structure KeyTouch where
  mPopupWindow : Bool := false
  mLongPressCount : ℕ := 0
  mScheduledExecutor : Option BarButton := none
  mSpecialButtonsLongHoldRunnable : Option BarButton := none
  calls : List KeyCall := []
  deriving DecidableEq, Repr

/-- The actions that a listener looks at; `y` is counted from the top of the button downwards. -/
inductive ButtonAction
  | down
  | move (y : ℚ)
  | cancel
  | up
  deriving DecidableEq, Repr

/-- What `onAnyExtraKeyButtonClick` calls for a key. -/
def clickCalls (mLongPressCount : ℕ) (key : String) : List KeyCall :=
  if isModifierKey key then if 0 < mLongPressCount then [] else [.toggle key] else [.click key]

namespace KeyTouch

variable (s : KeyTouch)

/-- `onAnyExtraKeyButtonClick`. -/
def onAnyExtraKeyButtonClick (key : String) : KeyTouch :=
  { s with calls := s.calls ++ clickCalls s.mLongPressCount key }

/-- `stopScheduledExecutors`. -/
def stopScheduledExecutors : KeyTouch :=
  { s with mScheduledExecutor := none, mSpecialButtonsLongHoldRunnable := none }

/-- `startScheduledExecutors`. -/
def startScheduledExecutors (b : BarButton) : KeyTouch :=
  let s := { s.stopScheduledExecutors with mLongPressCount := 0 }
  if b.key ∈ repetitiveKeys then { s with mScheduledExecutor := some b }
  else if isModifierKey b.key then { s with mSpecialButtonsLongHoldRunnable := some b }
  else s

/-- `ACTION_MOVE`: `showPopup` on a swipe up, `dismissPopup` when the finger comes back. -/
def move (b : BarButton) (y : ℚ) : KeyTouch :=
  if b.popup = none then s
  else
    let s :=
      if s.mPopupWindow = false ∧ y < 0 then { s.stopScheduledExecutors with mPopupWindow := true }
      else s
    if s.mPopupWindow = true ∧ 0 < y then { s with mPopupWindow := false } else s

/-- `ACTION_UP`. -/
def up (b : BarButton) : KeyTouch :=
  let s := s.stopScheduledExecutors
  if s.mLongPressCount = 0 ∨ s.mPopupWindow = true then
    if s.mPopupWindow = true then
      let s := { s with mPopupWindow := false }
      match b.popup with
      | none => s
      | some key => s.onAnyExtraKeyButtonClick key
    else s.onAnyExtraKeyButtonClick b.key
  else s

/-- The touch listener of a button. -/
def onTouch (b : BarButton) : ButtonAction → KeyTouch
  | .down => s.startScheduledExecutors b
  | .move y => s.move b y
  | .cancel => s.stopScheduledExecutors
  | .up => s.up b

/-- One run of the task that repeats a key. -/
def runExecutor : Option KeyTouch :=
  s.mScheduledExecutor.map fun b =>
    { s with mLongPressCount := s.mLongPressCount + 1, calls := s.calls ++ [.click b.key] }

/-- `SpecialButtonsLongHoldRunnable`, which runs once. -/
def runLongHold : Option KeyTouch :=
  s.mSpecialButtonsLongHoldRunnable.map fun b =>
    { s with
      mSpecialButtonsLongHoldRunnable := none, mLongPressCount := s.mLongPressCount + 1,
      calls := s.calls ++ [.longHold b.key] }

end KeyTouch

/-! ### Gestures -/

/-- The finger that is down: its button, whether it is above it, where the popup is, and how often
the key was repeated or held. -/
structure KeyFinger where
  button : BarButton
  above : Bool := false
  presses : ℕ := 0
  deriving DecidableEq, Repr

namespace KeyFinger

variable (f : KeyFinger)

/-- The finger moves. -/
def move (y : ℚ) : KeyFinger :=
  if f.button.popup = none then f
  else { f with above := if y < 0 then true else if 0 < y then false else f.above }

theorem button_move (y : ℚ) : (f.move y).button = f.button := by
  rw [move]
  by_cases h : f.button.popup = none
  · rw [if_pos h]
  · rw [if_neg h]

theorem presses_move (y : ℚ) : (f.move y).presses = f.presses := by
  rw [move]
  by_cases h : f.button.popup = none
  · rw [if_pos h]
  · rw [if_neg h]

/-- What is meant by lifting the finger: the popup, or the button unless it was repeated or held. -/
def lift : List KeyCall :=
  if f.above then (f.button.popup.map (clickCalls f.presses)).getD []
  else if f.presses = 0 then clickCalls 0 f.button.key
  else []

end KeyFinger

/-- The view with the finger.  `left` says that a gesture was cancelled under its popup, and that
the popup is still there. -/
structure KeyGestures where
  view : KeyTouch := {}
  finger : Option KeyFinger := none
  left : Bool := false
  meant : List KeyCall := []
  deriving DecidableEq, Repr

inductive KeyGestureStep
  | touch (b : BarButton) (action : ButtonAction)
  | runExecutor
  | runLongHold
  deriving DecidableEq, Repr

namespace KeyGestures

variable (s : KeyGestures)

/-- An action on the button that the finger is on. -/
def act (f : KeyFinger) : ButtonAction → KeyGestures
  | .down => s
  | .move y =>
    { s with
      view := s.view.onTouch f.button (.move y), finger := some (f.move y),
      left := s.left && !(f.button.popup.isSome && decide (0 < y)) }
  | .cancel =>
    { s with
      view := s.view.onTouch f.button .cancel, finger := none, left := s.left || f.above }
  | .up =>
    { view := s.view.onTouch f.button .up, finger := none, left := false,
      meant := s.meant ++ f.lift }

/-- The finger holds its button down, which makes a call. -/
def press (call : String → KeyCall) (view : KeyTouch) : KeyGestures :=
  { s with
    view := view,
    finger := s.finger.map fun f => { f with presses := f.presses + 1 },
    meant := s.meant ++ (s.finger.map fun f => call f.button.key).toList }

/-- One step; `none` if it is not this step's turn. -/
def step : KeyGestureStep → Option KeyGestures
  | .touch b action =>
    match s.finger, action with
    | none, .down => some { s with view := s.view.onTouch b .down, finger := some { button := b } }
    | none, _ => none
    | some _, .down => none
    | some f, action => if f.button = b then some (s.act f action) else none
  | .runExecutor => s.view.runExecutor.map (s.press .click)
  | .runLongHold => s.view.runLongHold.map (s.press .longHold)

/-- A gesture ends under a popup that another one has left, and makes other calls for it. -/
def Misled (a : KeyGestureStep) : Prop :=
  ∃ f, s.finger = some f ∧ a = .touch f.button .up ∧ s.left = true ∧ f.above = false ∧
    if f.presses = 0 then f.button.popup ≠ some f.button.key
    else ∃ key, f.button.popup = some key ∧ isModifierKey key = false

end KeyGestures

/-! ### What the listener does -/

namespace KeyTouch

variable (s : KeyTouch) (b : BarButton)

/-- The calls that are made when a finger is lifted from a button. -/
def upCalls (mLongPressCount : ℕ) (mPopupWindow : Bool) : List KeyCall :=
  if mPopupWindow then (b.popup.map (clickCalls mLongPressCount)).getD []
  else if mLongPressCount = 0 then clickCalls 0 b.key
  else []

/-- Lifting a finger stops what is scheduled and closes the popup. -/
theorem up_eq : s.up b =
    { s.stopScheduledExecutors with
      mPopupWindow := false, calls := s.calls ++ upCalls b s.mLongPressCount s.mPopupWindow } := by
  obtain ⟨window, count, executor, runnable, calls⟩ := s
  cases window with
  | true =>
    cases hpopup : b.popup with
    | none => simp [up, stopScheduledExecutors, upCalls, hpopup]
    | some key => simp [up, stopScheduledExecutors, upCalls, hpopup, onAnyExtraKeyButtonClick]
  | false =>
    by_cases hcount : count = 0
    · simp [up, stopScheduledExecutors, upCalls, hcount, onAnyExtraKeyButtonClick]
    · simp [up, stopScheduledExecutors, upCalls, hcount]

/-- A move may stop what is scheduled, and otherwise concerns the popup alone. -/
theorem move_cases (y : ℚ) :
    ∃ t, (t = s ∨ t = s.stopScheduledExecutors) ∧ s.move b y =
      { t with
        mPopupWindow :=
          if b.popup = none then s.mPopupWindow
          else if y < 0 then true else if 0 < y then false else s.mPopupWindow } := by
  obtain ⟨window, count, executor, runnable, calls⟩ := s
  by_cases hpopup : b.popup = none
  · exact ⟨_, .inl rfl, by simp [move, hpopup]⟩
  rcases lt_trichotomy y 0 with hy | rfl | hy
  · cases window with
    | true => exact ⟨_, .inl rfl, by simp [move, hpopup, hy, hy.le]⟩
    | false => exact ⟨_, .inr rfl, by simp [move, hpopup, hy, hy.le, stopScheduledExecutors]⟩
  · exact ⟨_, .inl rfl, by simp [move, hpopup]⟩
  · cases window with
    | true => exact ⟨_, .inl rfl, by simp [move, hpopup, hy, not_lt.2 hy.le]⟩
    | false => exact ⟨_, .inl rfl, by simp [move, hpopup, not_lt.2 hy.le]⟩

/-- A button that is touched is what is scheduled, if anything is. -/
theorem startScheduledExecutors_spec :
    (s.startScheduledExecutors b).mLongPressCount = 0 ∧
      (s.startScheduledExecutors b).mPopupWindow = s.mPopupWindow ∧
      (s.startScheduledExecutors b).calls = s.calls ∧
      (∀ b', (s.startScheduledExecutors b).mScheduledExecutor = some b' → b = b') ∧
      ∀ b', (s.startScheduledExecutors b).mSpecialButtonsLongHoldRunnable = some b' → b = b' := by
  rw [startScheduledExecutors]
  split_ifs
  · exact ⟨rfl, rfl, rfl, fun _ h => Option.some.inj h, fun _ h => by cases h⟩
  · exact ⟨rfl, rfl, rfl, fun _ h => (by cases h), fun _ h => Option.some.inj h⟩
  · exact ⟨rfl, rfl, rfl, fun _ h => (by cases h), fun _ h => by cases h⟩

end KeyTouch

namespace KeyGestures

/-- What holds whatever gestures were made: what is scheduled is for the button that is down, the
count is that of its finger, and a popup is there because of the finger or was left. -/
structure Sound (s : KeyGestures) : Prop where
  popup : s.view.mPopupWindow = (s.left || (s.finger.map KeyFinger.above).getD false)
  executor : ∀ b, s.view.mScheduledExecutor = some b → ∃ f, s.finger = some f ∧ f.button = b
  longHold : ∀ b, s.view.mSpecialButtonsLongHoldRunnable = some b →
    ∃ f, s.finger = some f ∧ f.button = b
  count : ∀ f, s.finger = some f → s.view.mLongPressCount = f.presses

variable {s s' : KeyGestures} {a : KeyGestureStep}

theorem sound_start : Sound {} :=
  ⟨rfl, fun _ h => (by cases h), fun _ h => (by cases h), fun _ h => by cases h⟩

/-- A finger that goes down makes no call. -/
theorem down_spec (h : s.Sound) {b : BarButton} (hfinger : s.finger = none)
    (hs : s.step (.touch b .down) = some s') :
    s'.Sound ∧ s'.view.calls = s.view.calls ∧ s'.meant = s.meant := by
  simp only [step, hfinger] at hs
  obtain rfl := Option.some.inj hs
  obtain ⟨hcount, hwindow, hcalls, hexecutor, hlongHold⟩ := s.view.startScheduledExecutors_spec b
  refine ⟨⟨?_, ?_, ?_, ?_⟩, hcalls, rfl⟩
  · have hpopup := h.popup
    rw [hfinger] at hpopup
    exact hwindow.trans hpopup
  · exact fun b' hb' => ⟨_, rfl, hexecutor b' hb'⟩
  · exact fun b' hb' => ⟨_, rfl, hlongHold b' hb'⟩
  · intro f hf
    obtain rfl := Option.some.inj hf
    exact hcount

/-- A move makes no call: it shows a popup or closes it. -/
theorem move_spec (h : s.Sound) {f : KeyFinger} (hfinger : s.finger = some f) (y : ℚ) :
    (s.act f (.move y)).Sound ∧ (s.act f (.move y)).view.calls = s.view.calls ∧
      (s.act f (.move y)).meant = s.meant := by
  obtain ⟨t, ht, hmove⟩ := s.view.move_cases f.button y
  have hpopup := h.popup
  rw [hfinger] at hpopup
  have hview : (s.act f (.move y)).view = s.view.move f.button y := rfl
  have hexecutor : ∀ b, t.mScheduledExecutor = some b → f.button = b := fun b hb => by
    rcases ht with rfl | rfl
    · obtain ⟨f', hf', hb'⟩ := h.executor b hb
      obtain rfl := Option.some.inj (hfinger.symm.trans hf')
      exact hb'
    · cases hb
  have hlongHold : ∀ b, t.mSpecialButtonsLongHoldRunnable = some b → f.button = b := fun b hb => by
    rcases ht with rfl | rfl
    · obtain ⟨f', hf', hb'⟩ := h.longHold b hb
      obtain rfl := Option.some.inj (hfinger.symm.trans hf')
      exact hb'
    · cases hb
  have hcount : t.mLongPressCount = f.presses := by
    rcases ht with rfl | rfl
    · exact h.count f hfinger
    · exact h.count f hfinger
  refine ⟨⟨?_, ?_, ?_, ?_⟩, ?_, rfl⟩
  · rw [hview, hmove]
    change _ = ((s.left && !(f.button.popup.isSome && decide (0 < y))) || (f.move y).above)
    rw [KeyFinger.move, hpopup]
    by_cases hnone : f.button.popup = none
    · simp [hnone]
    · obtain ⟨key, hkey⟩ := Option.ne_none_iff_exists'.1 hnone
      rcases lt_trichotomy y 0 with hy | rfl | hy
      · simp [hkey, hy]
      · simp [hkey]
      · simp [hkey, hy, not_lt.2 hy.le]
  · intro b hb
    rw [hview, hmove] at hb
    exact ⟨_, rfl, (f.button_move y).trans (hexecutor b hb)⟩
  · intro b hb
    rw [hview, hmove] at hb
    exact ⟨_, rfl, (f.button_move y).trans (hlongHold b hb)⟩
  · intro f' hf'
    obtain rfl := Option.some.inj hf'
    rw [hview, hmove, f.presses_move]
    exact hcount
  · rw [hview, hmove]
    rcases ht with rfl | rfl
    · rfl
    · rfl

/-- A gesture that is cancelled makes no call, and leaves its popup. -/
theorem cancel_spec (h : s.Sound) {f : KeyFinger} (hfinger : s.finger = some f) :
    (s.act f .cancel).Sound := by
  have hpopup := h.popup
  rw [hfinger] at hpopup
  refine ⟨?_, fun _ hb => (by cases hb), fun _ hb => (by cases hb), fun _ hf => by cases hf⟩
  exact hpopup.trans (Bool.or_false _).symm

/-- A finger that is lifted makes the calls of `upCalls`. -/
theorem up_spec (h : s.Sound) {f : KeyFinger} (hfinger : s.finger = some f) :
    (s.act f .up).Sound ∧ (s.act f .up).view.calls =
      s.view.calls ++ KeyTouch.upCalls f.button f.presses (s.left || f.above) := by
  have hpopup := h.popup
  rw [hfinger] at hpopup
  have hview : (s.act f .up).view = s.view.up f.button := rfl
  rw [KeyTouch.up_eq, h.count f hfinger, hpopup] at hview
  refine ⟨⟨?_, ?_, ?_, fun _ hf => by cases hf⟩, ?_⟩
  · rw [hview]
    rfl
  · intro b hb
    rw [hview] at hb
    cases hb
  · intro b hb
    rw [hview] at hb
    cases hb
  · rw [hview]
    rfl

/-- What is scheduled presses the button that is down. -/
theorem runExecutor_spec (h : s.Sound) (hs : s.step .runExecutor = some s') :
    s'.Sound ∧ ∃ key, s'.view.calls = s.view.calls ++ [.click key] ∧
      s'.meant = s.meant ++ [.click key] := by
  obtain ⟨v, hv, rfl⟩ := Option.map_eq_some_iff.1 hs
  obtain ⟨b, hb, rfl⟩ := Option.map_eq_some_iff.1 hv
  obtain ⟨f, hf, rfl⟩ := h.executor b hb
  have hpopup := h.popup
  have hlongHold := h.longHold
  rw [hf] at hpopup hlongHold
  rw [press, hf]
  refine ⟨⟨hpopup, fun b' hb' => ⟨_, rfl, ?_⟩, fun b' hb' => ⟨_, rfl, ?_⟩, ?_⟩, _, rfl, rfl⟩
  · exact Option.some.inj (hb.symm.trans hb')
  · obtain ⟨f', hf', hb''⟩ := hlongHold b' hb'
    obtain rfl := Option.some.inj hf'
    exact hb''
  · intro f' hf'
    obtain rfl := Option.some.inj hf'
    exact congrArg (· + 1) (h.count f hf)

theorem runLongHold_spec (h : s.Sound) (hs : s.step .runLongHold = some s') :
    s'.Sound ∧ ∃ key, s'.view.calls = s.view.calls ++ [.longHold key] ∧
      s'.meant = s.meant ++ [.longHold key] := by
  obtain ⟨v, hv, rfl⟩ := Option.map_eq_some_iff.1 hs
  obtain ⟨b, hb, rfl⟩ := Option.map_eq_some_iff.1 hv
  obtain ⟨f, hf, rfl⟩ := h.longHold b hb
  have hpopup := h.popup
  have hexecutor := h.executor
  rw [hf] at hpopup hexecutor
  rw [press, hf]
  refine ⟨⟨hpopup, fun b' hb' => ⟨_, rfl, ?_⟩, fun b' hb' => (by cases hb'), ?_⟩, _, rfl, rfl⟩
  · obtain ⟨f', hf', hb''⟩ := hexecutor b' hb'
    obtain rfl := Option.some.inj hf'
    exact hb''
  · intro f' hf'
    obtain rfl := Option.some.inj hf'
    exact congrArg (· + 1) (h.count f hf)

/-! ### The calls of a run -/

theorem clickCalls_zero_inj {key key' : String} (h : clickCalls 0 key = clickCalls 0 key') :
    key = key' := by
  simp only [clickCalls, lt_irrefl, if_false] at h
  split_ifs at h
  · exact KeyCall.toggle.inj (List.cons.inj h).1
  · cases (List.cons.inj h).1
  · cases (List.cons.inj h).1
  · exact KeyCall.click.inj (List.cons.inj h).1

theorem clickCalls_ne_nil (key : String) : clickCalls 0 key ≠ [] := by
  rw [clickCalls]
  split_ifs with hmod hpos
  · exact absurd hpos (lt_irrefl 0)
  · exact List.cons_ne_nil _ _
  · exact List.cons_ne_nil _ _

theorem clickCalls_eq_nil_iff {n : ℕ} (hn : n ≠ 0) (key : String) :
    clickCalls n key = [] ↔ isModifierKey key = true := by
  rw [clickCalls, if_pos (Nat.pos_of_ne_zero hn)]
  by_cases hmod : isModifierKey key = true
  · rw [if_pos hmod]
    exact iff_of_true rfl hmod
  · rw [if_neg hmod]
    exact iff_of_false (List.cons_ne_nil _ _) hmod

/-- A tap under a popup clicks the tapped key exactly if the popup is for it. -/
theorem popupCalls_zero_eq_iff (popup : Option String) (key : String) :
    (popup.map (clickCalls 0)).getD [] = clickCalls 0 key ↔ popup = some key := by
  cases popup with
  | none => exact iff_of_false (fun h => clickCalls_ne_nil key h.symm) fun h => by cases h
  | some key' =>
    constructor
    · intro h
      exact congrArg some (clickCalls_zero_inj h)
    · intro h
      rw [Option.some.inj h]
      rfl

/-- A hold under a popup makes no call exactly if the popup is for no key but a modifier. -/
theorem popupCalls_eq_nil_iff {n : ℕ} (hn : n ≠ 0) (popup : Option String) :
    (popup.map (clickCalls n)).getD [] = [] ↔
      ¬ ∃ key, popup = some key ∧ isModifierKey key = false := by
  cases popup with
  | none =>
    refine iff_of_true rfl ?_
    rintro ⟨key, hkey, -⟩
    cases hkey
  | some key =>
    rw [Option.map_some, Option.getD_some, clickCalls_eq_nil_iff hn, ← Bool.not_eq_false]
    refine not_congr ⟨fun hmod => ⟨key, rfl, hmod⟩, fun h => ?_⟩
    obtain ⟨key', hkey', hmod⟩ := h
    rwa [Option.some.inj hkey']

/-- Lifting a finger makes the calls that are meant, unless a popup that was left misleads it. -/
theorem upCalls_eq_lift_iff (f : KeyFinger) (left : Bool) :
    KeyTouch.upCalls f.button f.presses (left || f.above) = f.lift ↔
      ¬ (left = true ∧ f.above = false ∧
        if f.presses = 0 then f.button.popup ≠ some f.button.key
        else ∃ key, f.button.popup = some key ∧ isModifierKey key = false) := by
  cases habove : f.above with
  | true =>
    refine iff_of_true ?_ fun h => by cases h.2.1
    rw [Bool.or_true, KeyTouch.upCalls, KeyFinger.lift, if_pos rfl, habove, if_pos rfl]
  | false =>
    rw [Bool.or_false, KeyTouch.upCalls, KeyFinger.lift, habove]
    cases left with
    | false => exact iff_of_true rfl fun h => by cases h.1
    | true =>
      rw [if_pos rfl, if_neg Bool.false_ne_true]
      simp only [true_and]
      by_cases hpresses : f.presses = 0
      · rw [if_pos hpresses, if_pos hpresses, hpresses, popupCalls_zero_eq_iff, not_not]
      · rw [if_neg hpresses, if_neg hpresses, popupCalls_eq_nil_iff hpresses]

/-- A finger comes down where none was, or the one that is down does something else on its
button. -/
theorem touch_cases {b : BarButton} {action : ButtonAction}
    (hs : s.step (.touch b action) = some s') :
    (s.finger = none ∧ action = .down) ∨
      ∃ f, s.finger = some f ∧ f.button = b ∧ action ≠ .down ∧ s' = s.act f action := by
  cases hfinger : s.finger with
  | none =>
    refine .inl ⟨rfl, ?_⟩
    by_contra hdown
    simp only [step, hfinger] at hs
    cases hs
  | some f =>
    have hdown : action ≠ .down := by
      rintro rfl
      simp only [step, hfinger] at hs
      cases hs
    simp only [step, hfinger] at hs
    split_ifs at hs with hb
    exact .inr ⟨f, rfl, hb, hdown, (Option.some.inj hs).symm⟩

/-- A step keeps the invariant, and keeps the calls as they are meant unless it is misled. -/
theorem step_spec (h : s.Sound) (hs : s.step a = some s') :
    s'.Sound ∧ (s.view.calls = s.meant → (s'.view.calls = s'.meant ↔ ¬ s.Misled a)) := by
  have hquiet : (∀ b, a ≠ .touch b .up) → ¬ s.Misled a := fun hne hm => by
    obtain ⟨f, -, ha, -⟩ := hm
    exact hne _ ha
  cases a with
  | runExecutor =>
    obtain ⟨hsound, key, hcalls, hmeant⟩ := runExecutor_spec h hs
    refine ⟨hsound, fun heq => iff_of_true ?_ (hquiet fun b => by simp)⟩
    rw [hcalls, hmeant, heq]
  | runLongHold =>
    obtain ⟨hsound, key, hcalls, hmeant⟩ := runLongHold_spec h hs
    refine ⟨hsound, fun heq => iff_of_true ?_ (hquiet fun b => by simp)⟩
    rw [hcalls, hmeant, heq]
  | touch b action =>
    obtain ⟨hfinger, rfl⟩ | ⟨f, hfinger, rfl, hdown, rfl⟩ := touch_cases hs
    · obtain ⟨hsound, hcalls, hmeant⟩ := down_spec h hfinger hs
      refine ⟨hsound, fun heq => iff_of_true ?_ (hquiet fun b => by simp)⟩
      rw [hcalls, hmeant, heq]
    · cases action with
      | down => exact absurd rfl hdown
      | move y =>
        obtain ⟨hsound, hcalls, hmeant⟩ := move_spec h hfinger y
        refine ⟨hsound, fun heq => iff_of_true ?_ (hquiet fun b => by simp)⟩
        rw [hcalls, hmeant, heq]
      | cancel =>
        exact ⟨cancel_spec h hfinger, fun heq => iff_of_true heq (hquiet fun b => by simp)⟩
      | up =>
        obtain ⟨hsound, hcalls⟩ := up_spec h hfinger
        refine ⟨hsound, fun heq => ?_⟩
        have hmeant : (s.act f .up).meant = s.meant ++ f.lift := rfl
        rw [hcalls, hmeant, heq, List.append_cancel_left_eq, upCalls_eq_lift_iff]
        refine not_congr ⟨fun hm => ⟨f, hfinger, rfl, hm⟩, fun hm => ?_⟩
        obtain ⟨f', hf', -, hm⟩ := hm
        obtain rfl := Option.some.inj (hfinger.symm.trans hf')
        exact hm

/-- **Gestures do what they stand for.**  With one finger at a time the calls are those that the
gestures stand for, in every state of a run, exactly if no gesture ends under a popup that a
cancelled one has left and makes other calls for it. -/
theorem calls_meant_iff {as : List KeyGestureStep} (he : tryExec step {} as = some s') :
    (∀ as₁ as₂ t, as = as₁ ++ as₂ → tryExec step {} as₁ = some t → t.view.calls = t.meant) ↔
      TryAlways step (fun s a => ¬ s.Misled a) {} as :=
  reached_iff_of_invariant (I := Sound) (Q := fun _ _ => True)
    (fun _ _ _ h _ hs => (step_spec h hs).1)
    (fun _ _ _ h heq _ hs => (step_spec h hs).2 heq) sound_start rfl (tryAlways_true _ _) he

/-- A swipe up is cancelled, and another key is tapped. -/
def tapAfterCancel : List KeyGestureStep :=
  let esc : BarButton := { key := "ESC", popup := some "HOME" }
  let tab : BarButton := { key := "TAB" }
  [.touch esc .down, .touch esc (.move (-1)), .touch esc .cancel, .touch tab .down,
    .touch tab .up]

theorem calls_meant_iff_tapAfterCancel : ∃ s, tryExec step {} tapAfterCancel = some s ∧
    ((∀ as₁ as₂ t, tapAfterCancel = as₁ ++ as₂ → tryExec step {} as₁ = some t →
      t.view.calls = t.meant) ↔ TryAlways step (fun s a => ¬ s.Misled a) {} tapAfterCancel) := by
  obtain ⟨s, hs⟩ := Option.isSome_iff_exists.1
    (show (tryExec step {} tapAfterCancel).isSome = true by decide +kernel)
  exact ⟨s, hs, calls_meant_iff hs⟩

end KeyGestures

end TermuxX11.Input
