import TermuxX11.Lib.Ledger
import TermuxX11.Lib.Run

/-!
# Key events

`InputEventSender.sendKeyEvent` sends a key of Android on as text, as a pair of keys, or as the
key itself, and the activity makes an X keycode of the scan code or, if that is zero, of a table.
Which of these it is depends on the modifiers, and is decided for the press and for the release
separately.

The stream of events is followed with the keys of Android that are down, and for each of them
the events that pressed something for it and the X keycodes that are still owed.  As long as each
release finds the modifiers, the characters and the scan code as they were at the press, or the
same X keycode by another way, every X keycode is released by the key that pressed it.

The call of `setCapturingEnabled` for the escape key is left out.
-/

namespace TermuxX11.Input

open Run Ledger

/-! ### `KeyEvent` -/

/-- `getAction()`. -/
inductive KeyAction
  | down | up | multiple
  deriving DecidableEq, Repr

/-- What is read of an `android.view.KeyEvent`.  A string is a row of UTF-16 units; `canceled` is
`FLAG_CANCELED`. -/
structure KeyEvent where
  action : KeyAction
  keyCode : ℤ
  scanCode : ℤ := 0
  metaState : ℕ := 0
  unicodeChar : ℤ := 0
  characters : Option (List UInt16) := none
  repeatCount : ℕ := 0
  canceled : Bool := false
  deriving DecidableEq

/-- The key codes that `sendKeyEvent` names. -/
def KEYCODE_ENTER : ℤ := 66

@[inherit_doc KEYCODE_ENTER]
def KEYCODE_ALT_RIGHT : ℤ := 58

@[inherit_doc KEYCODE_ENTER]
def KEYCODE_SHIFT_LEFT : ℤ := 59

namespace KeyEvent

variable (preferScancodes : Bool) (e : KeyEvent)

/-- The bit `META_ALT_ON`. -/
def isAltPressed : Bool := e.metaState.testBit 1

/-- The bit `META_CTRL_ON`. -/
def isCtrlPressed : Bool := e.metaState.testBit 12

/-- The bit `META_META_ON`. -/
def isMetaPressed : Bool := e.metaState.testBit 16

/-- The bit `META_ALT_RIGHT_ON`. -/
def isAltRightOn : Bool := e.metaState.testBit 5

/-- `no_modifiers`: none but shift, or AltGr with a character. -/
def noModifiers : Bool :=
  (!e.isAltPressed && !e.isCtrlPressed && !e.isMetaPressed) ||
    (e.isAltRightOn && (e.characters.isSome || e.unicodeChar != 0))

/-- `unicode`: the character as a `char`, and none for Enter. -/
def unicode : UInt16 := if e.keyCode = KEYCODE_ENTER then 0 else UInt16.ofInt e.unicodeChar

/-- `scancode`: zero if the table is to be used. -/
def scancode : ℤ := if preferScancodes || !e.noModifiers then e.scanCode else 0

/-- `chars`: the deprecated keys for `@`, `#`, `*` and `+`, each with its character and the key
that has it above. -/
def chars : List (ℤ × UInt16 × ℤ) :=
  [(77, 0x40, 9), (18, 0x23, 10), (17, 0x2A, 15), (81, 0x2B, 70)]

/-- The key that is sent with shift, for a deprecated key that comes with its character. -/
def shiftedKey : Option ℤ :=
  (chars.find? fun i => e.keyCode = i.1 ∧
    (e.characters = some [i.2.1] ∨ e.unicodeChar = i.2.1.toNat)).map fun i => i.2.2

/-- The event is a press that is sent as text. -/
def isText : Bool :=
  !preferScancodes && e.action == .down && e.unicode != 0 && e.noModifiers

end KeyEvent

/-! ### `InputEventSender` -/

/-- The calls on the injector. -/
inductive InjectorCall
  | sendKeyEvent (scanCode keyCode : ℤ) (keyDown : Bool)
  | sendTextEvent (text : List UInt16)

/-- The sets of `InputEventSender`. -/
structure InputEventSender where
  mPressedTextKeys : Finset ℤ := ∅
  mPressedKeys : Finset ℤ := ∅

/-- `InputEventSender.sendKeyEvent`. -/
def InputEventSender.sendKeyEvent (preferScancodes : Bool) (s : InputEventSender) (e : KeyEvent) :
    InputEventSender × List InjectorCall :=
  let pressed := decide (e.action = .down)
  if e.canceled then (s, [])
  else if e.action = .multiple then
    match e.characters with
    | some text => (s, [.sendTextEvent text])
    | none =>
      (s, if e.unicodeChar = 0 then [] else [.sendTextEvent [UInt16.ofInt e.unicodeChar]])
  else if e.isText preferScancodes then
    -- For layouts with AltGr: it is up while the text is sent.
    let altGr (keyDown : Bool) : List InjectorCall :=
      if e.isAltRightOn then [.sendKeyEvent 0 KEYCODE_ALT_RIGHT keyDown] else []
    ({ s with mPressedTextKeys := insert e.keyCode s.mPressedTextKeys },
      altGr false ++ [.sendTextEvent [e.unicode]] ++ altGr true)
  else if !preferScancodes && !pressed && e.keyCode ∈ s.mPressedTextKeys then
    ({ s with mPressedTextKeys := s.mPressedTextKeys.erase e.keyCode }, [])
  else
    match e.shiftedKey with
    | some key =>
      (s, [.sendKeyEvent 0 KEYCODE_SHIFT_LEFT pressed, .sendKeyEvent 0 key pressed])
    | none =>
      -- the repetitions of Android are ignored
      if 0 < e.repeatCount ∧ e.keyCode ∈ s.mPressedKeys then (s, [])
      else
        ({ s with mPressedKeys :=
            if pressed then insert e.keyCode s.mPressedKeys else s.mPressedKeys.erase e.keyCode },
          [.sendKeyEvent (e.scancode preferScancodes) e.keyCode pressed])

/-! ### The activity -/

/-- The entries of `android_to_linux_keycode` that are given. -/
def keycodeEntries : List (ℤ × ℤ) :=
  [(4, 1), (7, 11), (8, 2), (9, 3), (10, 4), (11, 5), (12, 6), (13, 7), (14, 8), (15, 9),
    (16, 10), (17, 55), (19, 103), (20, 108), (21, 105), (22, 106), (23, 28), (24, 115),
    (25, 114), (26, 116), (27, 212), (28, 355), (29, 30), (30, 48), (31, 46), (32, 32), (33, 18),
    (34, 33), (35, 34), (36, 35), (37, 23), (38, 36), (39, 37), (40, 38), (41, 50), (42, 49),
    (43, 24), (44, 25), (45, 16), (46, 19), (47, 31), (48, 20), (49, 22), (50, 47), (51, 17),
    (52, 45), (53, 21), (54, 44), (55, 51), (56, 52), (57, 56), (58, 100), (59, 42), (60, 54),
    (61, 15), (62, 57), (64, 150), (65, 155), (66, 28), (67, 14), (68, 41), (69, 12), (70, 13),
    (71, 26), (72, 27), (73, 43), (74, 39), (75, 40), (76, 53), (81, 78), (82, 438), (84, 217),
    (85, 164), (86, 625), (87, 163), (88, 165), (89, 168), (90, 208), (91, 113), (92, 104),
    (93, 109), (111, 1), (112, 111), (113, 29), (114, 97), (115, 58), (116, 70), (117, 125),
    (118, 126), (120, 210), (121, 411), (122, 102), (123, 107), (124, 110), (125, 159),
    (126, 200), (127, 201), (128, 160), (129, 161), (130, 167), (131, 59), (132, 60), (133, 61),
    (134, 62), (135, 63), (136, 64), (137, 65), (138, 66), (139, 67), (140, 68), (141, 87),
    (142, 88), (143, 69), (144, 82), (145, 79), (146, 80), (147, 81), (148, 75), (149, 76),
    (150, 77), (151, 71), (152, 72), (153, 73), (154, 98), (155, 55), (156, 74), (157, 78),
    (158, 83), (159, 121), (160, 96), (161, 117), (162, 179), (163, 180), (164, 113), (165, 358),
    (166, 402), (167, 403), (168, 418), (169, 419), (170, 377), (208, 397), (210, 140)]

/-- `android_to_linux_keycode`, an array of 304 entries; `beyond` is what is read outside of
it. -/
def androidToLinuxKeycode (beyond : ℤ → ℤ) (keyCode : ℤ) : ℤ :=
  if 0 ≤ keyCode ∧ keyCode < 304 then (keycodeEntries.lookup keyCode).getD 0 else beyond keyCode

/-- The X keycode that the activity's `sendKeyEvent` writes, a `uint16_t`. -/
def xKeycode (beyond : ℤ → ℤ) (scanCode keyCode : ℤ) : UInt16 :=
  UInt16.ofInt ((if scanCode = 0 then androidToLinuxKeycode beyond keyCode else scanCode) + 8)

/-- The key events that the server gets. -/
def xEvents (beyond : ℤ → ℤ) (calls : List InjectorCall) : List (UInt16 × Bool) :=
  calls.filterMap fun
    | .sendKeyEvent scanCode keyCode keyDown => some (xKeycode beyond scanCode keyCode, keyDown)
    | .sendTextEvent _ => none

/-- Only keys are sent, and not none: the calls are for the key of the event. -/
def sendsKeys (calls : List InjectorCall) : Bool :=
  !calls.isEmpty && calls.all fun
    | .sendKeyEvent _ _ _ => true
    | .sendTextEvent _ => false

/-! ### Streams -/

/-- The sender, the keys of Android that are down, the events that have pressed X keycodes for a
key since it was last released, the X keycodes that a key has pressed and not released, and all
events that the server got. -/
structure Typing where
  sender : InputEventSender := {}
  held : Finset ℤ := ∅
  downs : ℤ → List KeyEvent := fun _ => []
  owed : ℤ → Finset UInt16 := fun _ => ∅
  sent : List (UInt16 × Bool) := []

/-- The keys that are down after an event. -/
def KeyEvent.holds (e : KeyEvent) (held : Finset ℤ) : Finset ℤ :=
  match e.action with
  | .down => insert e.keyCode held
  | .up => held.erase e.keyCode
  | .multiple => held

section

variable (preferScancodes : Bool) (beyond : ℤ → ℤ)

namespace Typing

variable (t : Typing) (e : KeyEvent)

/-- The calls that are made for an event. -/
def calls : List InjectorCall := (t.sender.sendKeyEvent preferScancodes e).2

/-- The X keycodes that are pressed or released for the key of the event. -/
def keycodes : Finset UInt16 :=
  if sendsKeys (t.calls preferScancodes e) then
    ((xEvents beyond (t.calls preferScancodes e)).map Prod.fst).toFinset
  else ∅

/-- One event. -/
def step : Typing where
  sender := (t.sender.sendKeyEvent preferScancodes e).1
  held := e.holds t.held
  downs :=
    if sendsKeys (t.calls preferScancodes e) then
      Function.update t.downs e.keyCode
        (if e.action = .down then t.downs e.keyCode ++ [e] else [])
    else t.downs
  owed :=
    Function.update t.owed e.keyCode
      (if e.action = .down then t.owed e.keyCode ∪ t.keycodes preferScancodes beyond e
        else t.owed e.keyCode \ t.keycodes preferScancodes beyond e)
  sent := t.sent ++ xEvents beyond (t.calls preferScancodes e)

/-- The streams of Android: a press of a key that is down is a repetition, and a release is one
of a key that is down and is never repeated. -/
def WellFormed : Prop :=
  match e.action with
  | .down => e.keyCode ∈ t.held → 0 < e.repeatCount
  | .up => e.keyCode ∈ t.held ∧ e.repeatCount = 0
  | .multiple => True

/-- What is released for a key is what was pressed for it. -/
def ReleasesOwn : Prop :=
  e.action = .up → sendsKeys (t.calls preferScancodes e) →
    t.keycodes preferScancodes beyond e = t.owed e.keyCode

end Typing

/-- The event has the number of the table: its scan code is not used, or is none, or is that
number. -/
def KeyEvent.OnTable (e : KeyEvent) : Prop :=
  (preferScancodes = false ∧ e.noModifiers = true) ∨ e.scanCode = 0 ∨
    e.scanCode = androidToLinuxKeycode beyond e.keyCode

/-- The release is made in the way of the press: both as a pair of keys or both not; and then
with the same scan code, which is used for both or for neither, or else with the number of the
table. -/
structure KeyEvent.Agrees (d e : KeyEvent) : Prop where
  shiftedKey : d.shiftedKey = e.shiftedKey
  scanCode : e.shiftedKey = none →
    (d.scanCode = e.scanCode ∧ (preferScancodes = true ∨ d.noModifiers = e.noModifiers)) ∨
      (d.OnTable preferScancodes beyond ∧ e.OnTable preferScancodes beyond)

/-- The release is not sent on. -/
def Typing.Withheld (t : Typing) (e : KeyEvent) : Prop :=
  e.canceled ∨ (preferScancodes = false ∧ e.keyCode ∈ t.sender.mPressedTextKeys)

/-- The releases of keys that have pressed something are not cancelled or taken for those of
text, and agree with the presses; text with AltGr is sent while the right Alt is down with the
number of the table. -/
def Typing.Careful (t : Typing) (e : KeyEvent) : Prop :=
  match e.action with
  | .down =>
    e.canceled = false → e.isText preferScancodes → e.isAltRightOn →
      KEYCODE_ALT_RIGHT ∈ t.held ∧
        ∃ d ∈ t.downs KEYCODE_ALT_RIGHT, d.OnTable preferScancodes beyond
  | .up =>
    (t.Withheld preferScancodes e → t.downs e.keyCode = []) ∧
      (¬ t.Withheld preferScancodes e →
        t.downs e.keyCode ≠ [] ∧ ∀ d ∈ t.downs e.keyCode, d.Agrees preferScancodes beyond e)
  | .multiple => True

/-! ### What one event sends -/

/-- The X keycodes of an event that is sent as keys. -/
def KeyEvent.codes (e : KeyEvent) : List UInt16 :=
  match e.shiftedKey with
  | some key => [xKeycode beyond 0 KEYCODE_SHIFT_LEFT, xKeycode beyond 0 key]
  | none => [xKeycode beyond (e.scancode preferScancodes) e.keyCode]

/-- What an event sends to the server: no keys, the two events of AltGr around a text, or the
keys of the event. -/
inductive Typing.Outcome (t : Typing) (e : KeyEvent) : Prop
  | silent (keys : sendsKeys (t.calls preferScancodes e) = false)
      (events : xEvents beyond (t.calls preferScancodes e) = [])
      (withheld : e.action = .up → e.repeatCount = 0 → t.Withheld preferScancodes e)
  | altGr (action : e.action = .down) (canceled : e.canceled = false)
      (text : e.isText preferScancodes = true) (on : e.isAltRightOn = true)
      (keys : sendsKeys (t.calls preferScancodes e) = false)
      (events : xEvents beyond (t.calls preferScancodes e) =
        [(xKeycode beyond 0 KEYCODE_ALT_RIGHT, false), (xKeycode beyond 0 KEYCODE_ALT_RIGHT, true)])
  | sent (action : e.action ≠ .multiple) (keys : sendsKeys (t.calls preferScancodes e) = true)
      (events : xEvents beyond (t.calls preferScancodes e) =
        (e.codes preferScancodes beyond).map fun c => (c, decide (e.action = .down)))
      (withheld : e.action = .up → ¬ t.Withheld preferScancodes e)

variable {preferScancodes beyond}

section

variable {t : Typing} {e : KeyEvent}

/-- An event for which no keys are sent. -/
theorem Typing.Outcome.of_calls {calls : List InjectorCall}
    (hcalls : t.calls preferScancodes e = calls) (hkeys : sendsKeys calls = false)
    (hevents : xEvents beyond calls = [])
    (hup : e.action = .up → e.repeatCount = 0 → t.Withheld preferScancodes e) :
    t.Outcome preferScancodes beyond e :=
  .silent (hcalls ▸ hkeys) (hcalls ▸ hevents) hup

theorem outcome_multiple (hcanceled : ¬ e.canceled = true) (haction : e.action = .multiple) :
    t.Outcome preferScancodes beyond e := by
  have hcalls : t.calls preferScancodes e =
      match e.characters with
      | some text => [.sendTextEvent text]
      | none =>
        if e.unicodeChar = 0 then [] else [.sendTextEvent [UInt16.ofInt e.unicodeChar]] := by
    rw [Typing.calls, InputEventSender.sendKeyEvent, if_neg hcanceled, if_pos haction]
    cases e.characters <;> rfl
  have hup : e.action = .up → e.repeatCount = 0 → t.Withheld preferScancodes e := by
    rw [haction]
    nofun
  cases hchars : e.characters with
  | some text =>
    rw [hchars] at hcalls
    exact .of_calls hcalls rfl rfl hup
  | none =>
    rw [hchars] at hcalls
    dsimp only at hcalls
    split_ifs at hcalls
    · exact .of_calls hcalls rfl rfl hup
    · exact .of_calls hcalls rfl rfl hup

theorem outcome_text (hcanceled : ¬ e.canceled = true) (haction : e.action = .down)
    (htext : e.isText preferScancodes = true) : t.Outcome preferScancodes beyond e := by
  have hcalls : t.calls preferScancodes e =
      (if e.isAltRightOn then [.sendKeyEvent 0 KEYCODE_ALT_RIGHT false] else []) ++
        [.sendTextEvent [e.unicode]] ++
        (if e.isAltRightOn then [.sendKeyEvent 0 KEYCODE_ALT_RIGHT true] else []) := by
    rw [Typing.calls, InputEventSender.sendKeyEvent, if_neg hcanceled,
      if_neg (by rw [haction]; nofun), if_pos htext]
  by_cases hon : e.isAltRightOn = true
  · rw [if_pos hon, if_pos hon] at hcalls
    exact .altGr haction (Bool.eq_false_of_not_eq_true hcanceled) htext hon (hcalls ▸ rfl)
      (hcalls ▸ rfl)
  · rw [if_neg hon, if_neg hon] at hcalls
    refine .of_calls hcalls rfl rfl ?_
    rw [haction]
    nofun

/-- An event that is neither text nor the release of text. -/
theorem outcome_keys (hcanceled : ¬ e.canceled = true) (haction : e.action ≠ .multiple)
    (htext : ¬ e.isText preferScancodes = true)
    (hfree : e.action = .up → ¬ t.Withheld preferScancodes e) :
    t.Outcome preferScancodes beyond e := by
  have hbranch : ¬ (!preferScancodes && !decide (e.action = .down) &&
      decide (e.keyCode ∈ t.sender.mPressedTextKeys)) = true := by
    intro h
    simp only [Bool.and_eq_true, Bool.not_eq_true', decide_eq_false_iff_not,
      decide_eq_true_eq] at h
    have hup : e.action = .up := by
      cases hact : e.action with
      | down => exact absurd hact h.1.2
      | up => rfl
      | multiple => exact absurd hact haction
    exact hfree hup (.inr ⟨h.1.1, h.2⟩)
  cases hpair : e.shiftedKey with
  | some key =>
    have hcalls : t.calls preferScancodes e =
        [.sendKeyEvent 0 KEYCODE_SHIFT_LEFT (decide (e.action = .down)),
          .sendKeyEvent 0 key (decide (e.action = .down))] := by
      rw [Typing.calls, InputEventSender.sendKeyEvent, if_neg hcanceled, if_neg haction,
        if_neg htext, if_neg hbranch, hpair]
    refine .sent haction (hcalls ▸ rfl) ?_ hfree
    rw [hcalls, KeyEvent.codes, hpair]
    rfl
  | none =>
    by_cases hrepeat : 0 < e.repeatCount ∧ e.keyCode ∈ t.sender.mPressedKeys
    · have hcalls : t.calls preferScancodes e = [] := by
        rw [Typing.calls, InputEventSender.sendKeyEvent, if_neg hcanceled, if_neg haction,
          if_neg htext, if_neg hbranch, hpair]
        dsimp only
        rw [if_pos hrepeat]
      exact .of_calls hcalls rfl rfl fun _ hzero => absurd hrepeat.1 (by omega)
    · have hcalls : t.calls preferScancodes e =
          [.sendKeyEvent (e.scancode preferScancodes) e.keyCode (decide (e.action = .down))] := by
        rw [Typing.calls, InputEventSender.sendKeyEvent, if_neg hcanceled, if_neg haction,
          if_neg htext, if_neg hbranch, hpair]
        dsimp only
        rw [if_neg hrepeat]
      refine .sent haction (hcalls ▸ rfl) ?_ hfree
      rw [hcalls, KeyEvent.codes, hpair]
      rfl

variable (t e)

theorem Typing.outcome : t.Outcome preferScancodes beyond e := by
  by_cases hcanceled : e.canceled = true
  · have hcalls : t.calls preferScancodes e = [] := by
      rw [Typing.calls, InputEventSender.sendKeyEvent, if_pos hcanceled]
    exact .of_calls hcalls rfl rfl fun _ _ => .inl hcanceled
  · by_cases htext : e.isText preferScancodes = true
    · have haction : e.action = .down := by
        simp only [KeyEvent.isText, Bool.and_eq_true, beq_iff_eq] at htext
        exact htext.1.1.2
      exact outcome_text hcanceled haction htext
    · cases haction : e.action with
      | multiple => exact outcome_multiple hcanceled haction
      | down =>
        refine outcome_keys hcanceled (by rw [haction]; nofun) htext ?_
        rw [haction]
        nofun
      | up =>
        by_cases hmem : preferScancodes = false ∧ e.keyCode ∈ t.sender.mPressedTextKeys
        · have hcalls : t.calls preferScancodes e = [] := by
            rw [Typing.calls, InputEventSender.sendKeyEvent, if_neg hcanceled,
              if_neg (by rw [haction]; nofun), if_neg htext, if_pos (by simp [haction, hmem])]
          exact .of_calls hcalls rfl rfl fun _ _ => .inr hmem
        · refine outcome_keys hcanceled (by rw [haction]; nofun) htext fun _ hheld => ?_
          rcases hheld with h | h
          · exact hcanceled h
          · exact hmem h

end

/-! ### Every key releases what it pressed -/

theorem KeyEvent.OnTable.xKeycode_eq {e : KeyEvent} (h : e.OnTable preferScancodes beyond) :
    xKeycode beyond (e.scancode preferScancodes) e.keyCode = xKeycode beyond 0 e.keyCode := by
  rcases h with ⟨hprefer, hmod⟩ | h | h
  · rw [KeyEvent.scancode, hprefer, hmod]
    rfl
  · rw [KeyEvent.scancode, h, ite_self]
  · unfold KeyEvent.scancode
    by_cases hused : (preferScancodes || !e.noModifiers) = true
    · rw [if_pos hused, xKeycode, xKeycode, if_pos (Eq.refl (0 : ℤ))]
      split_ifs
      · rfl
      · rw [h]
    · rw [if_neg hused]

theorem KeyEvent.Agrees.codes_eq {d e : KeyEvent} (h : d.Agrees preferScancodes beyond e)
    (hkey : d.keyCode = e.keyCode) :
    d.codes preferScancodes beyond = e.codes preferScancodes beyond := by
  unfold KeyEvent.codes
  rw [h.shiftedKey]
  cases hpair : e.shiftedKey with
  | some key => rfl
  | none =>
    dsimp only
    rcases h.scanCode hpair with ⟨hscan, hmod⟩ | ⟨hd, he⟩
    · have hsame : d.scancode preferScancodes = e.scancode preferScancodes := by
        unfold KeyEvent.scancode
        rcases hmod with hprefer | hmod
        · rw [hprefer, hscan]
          rfl
        · rw [hmod, hscan]
      rw [hsame, hkey]
    · rw [hd.xKeycode_eq, he.xKeycode_eq, hkey]

variable (preferScancodes beyond) in
/-- Every X keycode that is down is owed by a key that is down, and what a key owes is what its
events have pressed. -/
structure Typing.Sound (t : Typing) : Prop where
  covered : ∀ c, Down t.sent c → ∃ k ∈ t.held, c ∈ t.owed k
  owed : ∀ k c, c ∈ t.owed k ↔ ∃ d ∈ t.downs k, c ∈ d.codes preferScancodes beyond
  keyCode : ∀ k, ∀ d ∈ t.downs k, d.keyCode = k

namespace Typing

variable {t : Typing} {e : KeyEvent}

theorem keycodes_of_silent (hkeys : sendsKeys (t.calls preferScancodes e) = false) :
    t.keycodes preferScancodes beyond e = ∅ := by
  rw [keycodes, hkeys]
  rfl

theorem keycodes_of_sent (hkeys : sendsKeys (t.calls preferScancodes e) = true) {b : Bool}
    (hevents : xEvents beyond (t.calls preferScancodes e) =
      (e.codes preferScancodes beyond).map fun c => (c, b)) :
    t.keycodes preferScancodes beyond e = (e.codes preferScancodes beyond).toFinset := by
  have hfst : ((e.codes preferScancodes beyond).map fun c => (c, b)).map Prod.fst =
      e.codes preferScancodes beyond := by
    rw [List.map_map]
    exact List.map_id _
  rw [keycodes, if_pos hkeys, hevents, hfst]

/-- Without keys, nothing changes in what is owed. -/
theorem step_of_silent (hkeys : sendsKeys (t.calls preferScancodes e) = false) :
    (t.step preferScancodes beyond e).owed = t.owed ∧
      (t.step preferScancodes beyond e).downs = t.downs := by
  refine ⟨?_, ?_⟩
  · rw [step, keycodes_of_silent hkeys, Finset.union_empty, Finset.sdiff_empty, ite_self,
      Function.update_eq_self]
  · rw [step, hkeys]
    rfl

/-- A release finds what is owed. -/
theorem Sound.owed_eq_codes (h : t.Sound preferScancodes beyond) (haction : e.action = .up)
    (hcareful : t.Careful preferScancodes beyond e) (hsent : ¬ t.Withheld preferScancodes e) :
    t.owed e.keyCode = (e.codes preferScancodes beyond).toFinset := by
  rw [Careful, haction] at hcareful
  obtain ⟨hne, hagrees⟩ := hcareful.2 hsent
  have hcodes : ∀ d ∈ t.downs e.keyCode,
      d.codes preferScancodes beyond = e.codes preferScancodes beyond :=
    fun d hd => (hagrees d hd).codes_eq (h.keyCode _ d hd)
  ext c
  rw [h.owed, List.mem_toFinset]
  constructor
  · rintro ⟨d, hd, hc⟩
    rwa [← hcodes d hd]
  · intro hc
    obtain ⟨d, hd⟩ := List.exists_mem_of_ne_nil _ hne
    exact ⟨d, hd, (hcodes d hd).symm ▸ hc⟩

/-- A key that has pressed nothing owes nothing. -/
theorem Sound.owed_eq_empty (h : t.Sound preferScancodes beyond) {k : ℤ}
    (hdowns : t.downs k = []) : t.owed k = ∅ := by
  refine Finset.eq_empty_of_forall_notMem fun c hc => ?_
  obtain ⟨d, hd, -⟩ := (h.owed k c).1 hc
  rw [hdowns] at hd
  cases hd

/-- The X keycodes that the keys in `held` owe. -/
def Owes (held : Finset ℤ) (owed : ℤ → Finset UInt16) (c : UInt16) : Prop :=
  ∃ k ∈ held, c ∈ owed k

theorem explains_silent (h : t.Sound preferScancodes beyond) (hwf : t.WellFormed e)
    (hcareful : t.Careful preferScancodes beyond e)
    (hwithheld : e.action = .up → e.repeatCount = 0 → t.Withheld preferScancodes e) :
    Explains (Owes t.held t.owed) (Owes (e.holds t.held) t.owed) [] := by
  refine .of_imp ?_
  rintro c ⟨k, hk, hc⟩
  unfold KeyEvent.holds
  cases haction : e.action with
  | down => exact ⟨k, Finset.mem_insert_of_mem hk, hc⟩
  | multiple => exact ⟨k, hk, hc⟩
  | up =>
    rw [WellFormed, haction] at hwf
    rw [Careful, haction] at hcareful
    have hdowns := hcareful.1 (hwithheld haction hwf.2)
    refine ⟨k, Finset.mem_erase.2 ⟨?_, hk⟩, hc⟩
    rintro rfl
    rw [h.owed_eq_empty hdowns] at hc
    exact absurd hc (Finset.notMem_empty c)

/-- Around a text the right Alt is released and pressed again, and it is the key that owes it. -/
theorem explains_altGr (h : t.Sound preferScancodes beyond) (haction : e.action = .down)
    (hcanceled : e.canceled = false) (htext : e.isText preferScancodes = true)
    (hon : e.isAltRightOn = true) (hcareful : t.Careful preferScancodes beyond e) :
    Explains (Owes t.held t.owed) (Owes (e.holds t.held) t.owed)
      [(xKeycode beyond 0 KEYCODE_ALT_RIGHT, false),
        (xKeycode beyond 0 KEYCODE_ALT_RIGHT, true)] := by
  rw [Careful, haction] at hcareful
  obtain ⟨hheld, d, hd, htable⟩ := hcareful hcanceled htext hon
  have hkey : d.keyCode = KEYCODE_ALT_RIGHT := h.keyCode _ d hd
  have hpair : d.shiftedKey = none := by
    simp [KeyEvent.shiftedKey, KeyEvent.chars, hkey, KEYCODE_ALT_RIGHT]
  have howed : xKeycode beyond 0 KEYCODE_ALT_RIGHT ∈ t.owed KEYCODE_ALT_RIGHT := by
    refine (h.owed _ _).2 ⟨d, hd, ?_⟩
    rw [KeyEvent.codes, hpair, ← hkey]
    exact List.mem_singleton.2 htable.xKeycode_eq.symm
  have hmono : ∀ k ∈ t.held, k ∈ e.holds t.held := by
    intro k hk
    rw [KeyEvent.holds, haction]
    exact Finset.mem_insert_of_mem hk
  constructor
  · -- the last of the two events is a press, of a keycode that is owed already
    intro c hc
    have hmem := mem_of_last hc
    simp only [List.mem_cons, Prod.mk.injEq, List.not_mem_nil, or_false, Bool.true_eq_false,
      and_false, false_or, and_true] at hmem
    subst hmem
    exact ⟨_, hmono _ hheld, howed⟩
  · rintro c - ⟨k, hk, hc⟩
    exact ⟨k, hmono k hk, hc⟩

theorem explains_press (haction : e.action = .down) {cs : List UInt16} :
    Explains (Owes t.held t.owed)
      (Owes (e.holds t.held) (Function.update t.owed e.keyCode (t.owed e.keyCode ∪ cs.toFinset)))
      (cs.map fun c => (c, true)) := by
  rw [KeyEvent.holds, haction]
  refine .press (fun c hc => ⟨e.keyCode, Finset.mem_insert_self _ _, ?_⟩) ?_
  · rw [Function.update_self]
    exact Finset.mem_union_right _ (List.mem_toFinset.2 hc)
  · rintro c ⟨k, hk, hc⟩
    refine ⟨k, Finset.mem_insert_of_mem hk, ?_⟩
    by_cases hkey : k = e.keyCode
    · subst hkey
      rw [Function.update_self]
      exact Finset.mem_union_left _ hc
    · rwa [Function.update_of_ne hkey]

theorem explains_release (haction : e.action = .up) {cs : List UInt16}
    (howed : t.owed e.keyCode = cs.toFinset) (os : Finset UInt16) :
    Explains (Owes t.held t.owed) (Owes (e.holds t.held) (Function.update t.owed e.keyCode os))
      (cs.map fun c => (c, false)) := by
  rw [KeyEvent.holds, haction]
  refine .release ?_
  rintro c ⟨k, hk, hc⟩
  by_cases hkey : k = e.keyCode
  · subst hkey
    rw [howed, List.mem_toFinset] at hc
    exact .inl hc
  · refine .inr ⟨k, Finset.mem_erase.2 ⟨hkey, hk⟩, ?_⟩
    rwa [Function.update_of_ne hkey]

/-- An event without keys. -/
theorem Sound.step_silent (h : t.Sound preferScancodes beyond)
    (hkeys : sendsKeys (t.calls preferScancodes e) = false)
    (hexplains : Explains (Owes t.held t.owed) (Owes (e.holds t.held) t.owed)
      (xEvents beyond (t.calls preferScancodes e))) :
    (t.step preferScancodes beyond e).Sound preferScancodes beyond := by
  obtain ⟨howed, hdowns⟩ := @step_of_silent preferScancodes beyond t e hkeys
  refine ⟨?_, ?_, ?_⟩
  · rw [howed]
    exact hexplains.covers h.covered
  · rw [howed, hdowns]
    exact h.owed
  · rw [hdowns]
    exact h.keyCode

/-- An event with keys: its key owes what is pressed for it by then. -/
theorem Sound.step_keys (h : t.Sound preferScancodes beyond) {ds : List KeyEvent}
    {os : Finset UInt16}
    (hdowns : (t.step preferScancodes beyond e).downs = Function.update t.downs e.keyCode ds)
    (howed : (t.step preferScancodes beyond e).owed = Function.update t.owed e.keyCode os)
    (hos : ∀ c, c ∈ os ↔ ∃ d ∈ ds, c ∈ d.codes preferScancodes beyond)
    (hds : ∀ d ∈ ds, d.keyCode = e.keyCode)
    (hexplains : Explains (Owes t.held t.owed)
      (Owes (e.holds t.held) (Function.update t.owed e.keyCode os))
      (xEvents beyond (t.calls preferScancodes e))) :
    (t.step preferScancodes beyond e).Sound preferScancodes beyond := by
  refine ⟨?_, fun k c => ?_, fun k d hd => ?_⟩
  · rw [howed]
    exact hexplains.covers h.covered
  · rw [howed, hdowns]
    by_cases hkey : k = e.keyCode
    · subst hkey
      rw [Function.update_self, Function.update_self]
      exact hos c
    · rw [Function.update_of_ne hkey, Function.update_of_ne hkey]
      exact h.owed k c
  · rw [hdowns] at hd
    by_cases hkey : k = e.keyCode
    · subst hkey
      rw [Function.update_self] at hd
      exact hds d hd
    · rw [Function.update_of_ne hkey] at hd
      exact h.keyCode k d hd

theorem Sound.step_press (h : t.Sound preferScancodes beyond) (haction : e.action = .down)
    (hkeys : sendsKeys (t.calls preferScancodes e) = true)
    (hevents : xEvents beyond (t.calls preferScancodes e) =
      (e.codes preferScancodes beyond).map fun c => (c, true)) :
    (t.step preferScancodes beyond e).Sound preferScancodes beyond := by
  have howed : (t.step preferScancodes beyond e).owed = Function.update t.owed e.keyCode
      (t.owed e.keyCode ∪ (e.codes preferScancodes beyond).toFinset) := by
    simp only [step, if_pos haction, keycodes_of_sent hkeys hevents]
  have hdowns : (t.step preferScancodes beyond e).downs =
      Function.update t.downs e.keyCode (t.downs e.keyCode ++ [e]) := by
    rw [step, if_pos hkeys, if_pos haction]
  refine h.step_keys hdowns howed (fun c => ?_) (fun d hd => ?_) ?_
  · rw [Finset.mem_union, h.owed, List.mem_toFinset]
    simp only [List.mem_append, List.mem_singleton, or_and_right, exists_or, exists_eq_left]
  · rcases List.mem_append.1 hd with hd | hd
    · exact h.keyCode _ d hd
    · rw [List.mem_singleton.1 hd]
  · rw [hevents]
    exact explains_press haction

theorem Sound.step_release (h : t.Sound preferScancodes beyond) (haction : e.action = .up)
    (hkeys : sendsKeys (t.calls preferScancodes e) = true)
    (hevents : xEvents beyond (t.calls preferScancodes e) =
      (e.codes preferScancodes beyond).map fun c => (c, false))
    (howes : t.owed e.keyCode = (e.codes preferScancodes beyond).toFinset) :
    (t.step preferScancodes beyond e).Sound preferScancodes beyond := by
  have hne : e.action ≠ .down := by rw [haction]; nofun
  have howed : (t.step preferScancodes beyond e).owed = Function.update t.owed e.keyCode ∅ := by
    simp only [step, if_neg hne, keycodes_of_sent hkeys hevents, howes, Finset.sdiff_self]
  have hdowns : (t.step preferScancodes beyond e).downs = Function.update t.downs e.keyCode [] := by
    rw [step, if_pos hkeys, if_neg hne]
  refine h.step_keys hdowns howed (fun c => by simp) (fun d hd => ?_) ?_
  · exact absurd hd List.not_mem_nil
  · rw [hevents]
    exact explains_release haction howes ∅

theorem Sound.step (h : t.Sound preferScancodes beyond) (hwf : t.WellFormed e)
    (hcareful : t.Careful preferScancodes beyond e) :
    (t.step preferScancodes beyond e).Sound preferScancodes beyond := by
  cases @outcome preferScancodes beyond t e with
  | silent keys events withheld =>
    exact h.step_silent keys (events ▸ explains_silent h hwf hcareful withheld)
  | altGr action canceled text on keys events =>
    exact h.step_silent keys (events ▸ explains_altGr h action canceled text on hcareful)
  | sent action keys events withheld =>
    cases haction : e.action with
    | multiple => exact absurd haction action
    | down =>
      simp only [haction, decide_true] at events
      exact h.step_press haction keys events
    | up =>
      have howes := h.owed_eq_codes haction hcareful (withheld haction)
      simp only [haction, reduceCtorEq, decide_false] at events
      exact h.step_release haction keys events howes

/-- What is released is what is owed. -/
theorem Sound.releasesOwn (h : t.Sound preferScancodes beyond)
    (hcareful : t.Careful preferScancodes beyond e) :
    t.ReleasesOwn preferScancodes beyond e := by
  intro haction hsends
  cases @outcome preferScancodes beyond t e with
  | silent keys _ _ => exact absurd (hsends.symm.trans keys) nofun
  | altGr _ _ _ _ keys _ => exact absurd (hsends.symm.trans keys) nofun
  | sent action keys events withheld =>
    rw [keycodes_of_sent keys events, h.owed_eq_codes haction hcareful (withheld haction)]

end Typing

end

/-- **Every press is released**: in a well-formed stream whose releases agree with the presses,
what is released for a key is what was pressed for it, and once all keys of Android are up no X
keycode is down. -/
theorem keys_balanced {preferScancodes : Bool} {beyond : ℤ → ℤ} {es : List KeyEvent}
    (hwf : Always (Typing.step preferScancodes beyond) Typing.WellFormed {} es)
    (hcareful : Always (Typing.step preferScancodes beyond)
      (Typing.Careful preferScancodes beyond) {} es) :
    Always (Typing.step preferScancodes beyond) (Typing.ReleasesOwn preferScancodes beyond) {} es ∧
      ((exec (Typing.step preferScancodes beyond) {} es).held = ∅ →
        ∀ c, ¬ Down (exec (Typing.step preferScancodes beyond) {} es).sent c) := by
  have hstart : Typing.Sound preferScancodes beyond {} := by
    refine ⟨?_, ?_, ?_⟩
    · intro c hc
      cases hc
    · simp
    · intro k d hd
      cases hd
  have hboth := hwf.and hcareful
  have hstep : ∀ (t : Typing) (e : KeyEvent), t.Sound preferScancodes beyond →
      (t.WellFormed e ∧ t.Careful preferScancodes beyond e) →
      (t.step preferScancodes beyond e).Sound preferScancodes beyond :=
    fun t e ht he => ht.step he.1 he.2
  refine ⟨hboth.imp_of_invariant hstep (fun t e ht he => ht.releasesOwn he.2) hstart, ?_⟩
  intro hheld c hc
  obtain ⟨k, hk, -⟩ := (exec_invariant_of_always hstep hstart hboth).covered c hc
  rw [hheld] at hk
  exact absurd hk (Finset.notMem_empty k)

/-- A release that agrees with the only press of its key. -/
theorem Typing.careful_release {preferScancodes : Bool} {beyond : ℤ → ℤ} {t : Typing}
    {d e : KeyEvent} (haction : e.action = .up) (hcanceled : e.canceled = false)
    (htext : e.keyCode ∉ t.sender.mPressedTextKeys) (hdowns : t.downs e.keyCode = [d])
    (hagrees : d.Agrees preferScancodes beyond e) : t.Careful preferScancodes beyond e := by
  rw [Careful, haction]
  constructor
  · rintro (h | h)
    · exact absurd (h.symm.trans hcanceled) nofun
    · exact absurd h.2 htext
  · intro _
    rw [hdowns]
    exact ⟨List.cons_ne_nil d [], List.forall_mem_singleton.2 hagrees⟩

/-- The left Ctrl is pressed, then a key, and they are released in the same order. -/
def ctrlChord (keyCode scanCode unicodeChar : ℤ) : List KeyEvent :=
  [{ action := .down, keyCode := 113, scanCode := 29, metaState := 0x3000 },
    { action := .down, keyCode := keyCode, scanCode := scanCode, metaState := 0x3000 },
    { action := .up, keyCode := 113, scanCode := 29 },
    { action := .up, keyCode := keyCode, scanCode := scanCode, unicodeChar := unicodeChar }]

theorem wellFormed_ctrlChord {preferScancodes : Bool} {beyond : ℤ → ℤ}
    {keyCode scanCode unicodeChar : ℤ} (hkey : keyCode ≠ 113) :
    Always (Typing.step preferScancodes beyond) Typing.WellFormed {}
      (ctrlChord keyCode scanCode unicodeChar) := by
  refine ⟨fun h => ?_, fun h => ?_, ⟨?_, rfl⟩, ⟨?_, rfl⟩, trivial⟩
  · simp at h
  · simp [Typing.step, KeyEvent.holds, hkey] at h
  · simp [Typing.step, KeyEvent.holds]
  · simp [Typing.step, KeyEvent.holds, hkey]

/-- Ctrl and C on a keyboard whose scan code for C is the number in the table. -/
theorem keys_balanced_ctrlC :
    Always (Typing.step false id) (Typing.ReleasesOwn false id) {} (ctrlChord 31 46 99) ∧
      ∀ c, ¬ Down (exec (Typing.step false id) {} (ctrlChord 31 46 99)).sent c := by
  have hcareful : Always (Typing.step false id) (Typing.Careful false id) {}
      (ctrlChord 31 46 99) := by
    refine ⟨fun _ h => ?_, fun _ h => ?_, ?_, ?_, trivial⟩
    · exact absurd h (by decide +kernel)
    · exact absurd h (by decide +kernel)
    · refine Typing.careful_release rfl rfl (by decide +kernel)
        (d := { action := .down, keyCode := 113, scanCode := 29, metaState := 0x3000 })
        (by decide +kernel) ⟨by decide +kernel, fun _ => .inr ⟨.inr (.inr rfl), .inr (.inr rfl)⟩⟩
    · refine Typing.careful_release rfl rfl (by decide +kernel)
        (d := { action := .down, keyCode := 31, scanCode := 46, metaState := 0x3000 })
        (by decide +kernel) ⟨by decide +kernel, fun _ => .inr ⟨.inr (.inr rfl), .inr (.inr rfl)⟩⟩
  obtain ⟨howns, hup⟩ := keys_balanced (wellFormed_ctrlChord (by decide)) hcareful
  exact ⟨howns, hup (by decide +kernel)⟩

/-- Ctrl and A on a keyboard with another layout, where the scan code of A is that of Q: the Q
that was pressed stays down. -/
theorem ctrlA_stuck :
    Always (Typing.step false id) Typing.WellFormed {} (ctrlChord 29 16 97) ∧
      (exec (Typing.step false id) {} (ctrlChord 29 16 97)).held = ∅ ∧
      Down (exec (Typing.step false id) {} (ctrlChord 29 16 97)).sent 24 :=
  ⟨wellFormed_ctrlChord (by decide), by decide +kernel, by decide +kernel⟩

end TermuxX11.Input
