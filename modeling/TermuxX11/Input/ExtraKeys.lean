import TermuxX11.Lib.Ledger
import TermuxX11.Lib.Run

/-!
# The modifiers of the extra keys

The bar of extra keys shows a button for each modifier.  `ExtraKeysView` keeps whether it is active
and whether it is locked; `TermuxX11ExtraKeys` tells the server, 100 ms after a click, from
`unsetSpecialKeys`, and around the keys of a macro.

The delayed tasks run in the order in which they were posted, at any time.  A key may show the
button of a modifier in a popup, which is clicked when the finger that leads to it is lifted: this
click makes no task.  The actions of the application that some keys stand for, `PASTE` among them,
are left out.
-/

namespace TermuxX11.Input

open Run Ledger

/-! ### `ExtraKeysView` -/

/-- The special buttons that stand for a modifier. -/
inductive Modifier
  | CTRL | ALT | SHIFT | META
  deriving DecidableEq, Repr

namespace Modifier

/-- The modifiers in the order in which they are gone through. -/
def all : List Modifier := [CTRL, ALT, SHIFT, META]

/-- `SpecialButton.getKey`. -/
def key : Modifier → String
  | CTRL => "CTRL"
  | ALT => "ALT"
  | SHIFT => "SHIFT"
  | META => "META"

/-- `KEYCODE_CTRL_LEFT`, `KEYCODE_ALT_LEFT`, `KEYCODE_SHIFT_LEFT` and `KEYCODE_META_LEFT`. -/
def keyCode : Modifier → ℤ
  | CTRL => 113
  | ALT => 57
  | SHIFT => 59
  | META => 117

end Modifier

structure SpecialButtonState where
  isCreated : Bool := false
  isActive : Bool := false
  isLocked : Bool := false
  deriving DecidableEq, Repr

namespace SpecialButtonState

variable (b : SpecialButtonState)

/-- `onAnyExtraKeyButtonClick`: a click toggles the button, and unlocks it if it is not active
then. -/
def click : SpecialButtonState :=
  { b with isActive := !b.isActive, isLocked := if !b.isActive then b.isLocked else false }

/-- `SpecialButtonsLongHoldRunnable`. -/
def longHold : SpecialButtonState := { b with isLocked := !b.isActive, isActive := !b.isActive }

/-- `readSpecialButton`: what is read, and the button afterwards. -/
def read (autoSetInActive : Bool) : Bool × SpecialButtonState :=
  if !b.isCreated || !b.isActive then (false, b)
  else (true, if autoSetInActive && !b.isLocked then { b with isActive := false } else b)

end SpecialButtonState

/-! ### `TermuxX11ExtraKeys` -/

/-- The calls on `LorieView`. -/
inductive ExtraKeysCall
  | sendKeyEvent (keyCode : ℤ) (keyDown : Bool)
  | sendTextEvent (text : String)
  deriving DecidableEq, Repr

/-- `PRIMARY_KEY_CODES_FOR_STRINGS`. -/
def primaryKeyCodes : List (String × ℤ) :=
  [("SPACE", 62), ("ESC", 111), ("TAB", 61), ("HOME", 122), ("END", 123), ("PGUP", 92),
    ("PGDN", 93), ("INS", 124), ("DEL", 112), ("BKSP", 67), ("UP", 19), ("LEFT", 21),
    ("RIGHT", 22), ("DOWN", 20), ("ENTER", 66), ("F1", 131), ("F2", 132), ("F3", 133),
    ("F4", 134), ("F5", 135), ("F6", 136), ("F7", 137), ("F8", 138), ("F9", 139), ("F10", 140),
    ("F11", 141), ("F12", 142)]

/-- The keys that `onLorieExtraKeyButtonClick` takes for actions of the application. -/
def actionKeys : List String :=
  ["KEYBOARD", "DRAWER", "PREFERENCES", "EXIT", "PASTE", "MOUSE_HELPER", "STYLUS_HELPER",
    "ZOOM_IN", "ZOOM_OUT", "ZOOM_RESET"]

/-- The special buttons, the flags `ctrlDown`, `altDown`, `shiftDown` and `metaDown` of the client,
the delayed tasks, and what was sent. -/
structure ExtraKeys where
  buttons : Modifier → SpecialButtonState
  down : Modifier → Bool := fun _ => false
  pending : List Modifier := []
  sent : List ExtraKeysCall := []

/-- What is sent for a key itself. -/
def keyCalls : Option String → List ExtraKeysCall
  | none => []
  | some key =>
    match primaryKeyCodes.lookup key with
    | some keyCode => [.sendKeyEvent keyCode true, .sendKeyEvent keyCode false]
    | none => [.sendTextEvent key]

/-- The keys of modifiers; `FN` is one without a key code. -/
def isModifierKey (key : String) : Bool := key = "FN" || Modifier.all.any fun m => m.key = key

namespace ExtraKeys

variable (s : ExtraKeys)

/-- `onTerminalExtraKeyButtonClick`: the flags that differ are sent, then the key. -/
def onTerminalExtraKeyButtonClick (key : Option String) (down : Modifier → Bool) : ExtraKeys :=
  { s with
    down := down
    sent := s.sent ++
      (changes Modifier.all s.down down).map (fun e => .sendKeyEvent e.1.keyCode e.2) ++
      keyCalls key }

def onLorieExtraKeyButtonClick (key : Option String) (down : Modifier → Bool) : ExtraKeys :=
  if key.any (· ∈ actionKeys) then s else s.onTerminalExtraKeyButtonClick key down

/-- `unsetSpecialKeys` for one modifier. -/
def unsetSpecialKey (m : Modifier) : ExtraKeys :=
  let r := (s.buttons m).read true
  { s with
    buttons := Function.update s.buttons m r.2
    sent := s.sent ++ if r.1 then [.sendKeyEvent m.keyCode false] else [] }

def unsetSpecialKeys : ExtraKeys := Modifier.all.foldl unsetSpecialKey s

/-- `onExtraKeyButtonClick` for a macro, with its keys. -/
def onMacroClick (keys : List String) : ExtraKeys :=
  let down : Modifier → Bool := fun m => keys.contains m.key
  let s := (keys.filter fun key => !isModifierKey key).foldl
    (fun s key => s.onLorieExtraKeyButtonClick (some key) down) s
  if keys.any isModifierKey then
    (s.onLorieExtraKeyButtonClick none fun _ => false).unsetSpecialKeys
  else s

/-- The task that `performExtraKeyButtonHapticFeedback` posts. -/
def sendModifier (m : Modifier) : ExtraKeys :=
  { s with sent := s.sent ++ [.sendKeyEvent m.keyCode ((s.buttons m).read false).1] }

end ExtraKeys

/-- What happens to the bar.  `countedClick` is a click that finds `mLongPressCount` not 0, as one
of the keyboard or of an accessibility service may after a long press. -/
inductive ExtraKeysStep
  | click (m : Modifier)
  | countedClick (m : Modifier)
  | longHold (m : Modifier)
  | showPopup (m : Modifier)
  | popupClick (m : Modifier)
  | extraKey (key : String)
  | macroKey (keys : List String)
  | unsetSpecialKeys
  | runTask

namespace ExtraKeys

/-- One step; a button that is not there is not clicked.  The finger that clicks the popup of its
key need not have shown it, as another key's popup does as well. -/
def step (s : ExtraKeys) : ExtraKeysStep → ExtraKeys
  | .click m =>
    if (s.buttons m).isCreated then
      { s with
        buttons := Function.update s.buttons m (s.buttons m).click
        pending := s.pending ++ [m] }
    else s
  | .countedClick m =>
    if (s.buttons m).isCreated then { s with pending := s.pending ++ [m] } else s
  | .longHold m =>
    if (s.buttons m).isCreated then
      { s with buttons := Function.update s.buttons m (s.buttons m).longHold }
    else s
  | .showPopup m =>
    { s with buttons := Function.update s.buttons m { s.buttons m with isCreated := true } }
  | .popupClick m => { s with buttons := Function.update s.buttons m (s.buttons m).click }
  | .extraKey key => s.onLorieExtraKeyButtonClick (some key) fun _ => false
  | .macroKey keys => s.onMacroClick keys
  | .unsetSpecialKeys => s.unsetSpecialKeys
  | .runTask =>
    match s.pending with
    | [] => s
    | m :: rest => { s.sendModifier m with pending := rest }

/-- All delayed tasks have run. -/
def settle (s : ExtraKeys) : ExtraKeys :=
  exec step s (List.replicate s.pending.length .runTask)

/-- The bar before the first click, with the buttons that were created. -/
def start (created : Modifier → Bool) : ExtraKeys where
  buttons m := { isCreated := created m }

/-! ### Agreement -/

/-- The presses and releases of modifiers among the calls. -/
def modifierEvents (calls : List ExtraKeysCall) : List (Modifier × Bool) :=
  calls.filterMap fun
    | .sendKeyEvent keyCode keyDown =>
      (Modifier.all.find? fun m => m.keyCode = keyCode).map fun m => (m, keyDown)
    | .sendTextEvent _ => none

/-- The modifier is down for the server. -/
def Down (s : ExtraKeys) (m : Modifier) : Prop := Ledger.Down (modifierEvents s.sent) m

instance (s : ExtraKeys) (m : Modifier) : Decidable (s.Down m) :=
  inferInstanceAs (Decidable (Ledger.Down _ _))

/-- The modifiers that are down are those whose buttons are active or locked. -/
def Agrees (s : ExtraKeys) : Prop :=
  ∀ m, s.Down m ↔ (s.buttons m).isActive = true ∨ (s.buttons m).isLocked = true

/-- No modifier is locked, unless a task for it is pending. -/
def NoneLocked (s : ExtraKeys) : Prop := ∀ m, (s.buttons m).isLocked = true → m ∈ s.pending

/-- A button is held down long, or clicked in a popup, only while a task for it is pending, and the
special keys are unset, by themselves or after a macro with a modifier, only while none is
locked. -/
def Told (s : ExtraKeys) : ExtraKeysStep → Prop
  | .longHold m => (s.buttons m).isCreated = true → m ∈ s.pending
  | .popupClick m => m ∈ s.pending
  | .macroKey keys => keys.any isModifierKey = true → s.NoneLocked
  | .unsetSpecialKeys => s.NoneLocked
  | _ => True

/-! ### What the calls send -/

theorem find_keyCode (m : Modifier) :
    (Modifier.all.find? fun m' => m'.keyCode = m.keyCode) = some m := by
  cases m <;> rfl

theorem modifierEvents_append (calls calls' : List ExtraKeysCall) :
    modifierEvents (calls ++ calls') = modifierEvents calls ++ modifierEvents calls' :=
  List.filterMap_append

theorem modifierEvents_map (evs : List (Modifier × Bool)) :
    modifierEvents (evs.map fun e => .sendKeyEvent e.1.keyCode e.2) = evs := by
  induction evs with
  | nil => rfl
  | cons e evs ih =>
    rw [List.map_cons, modifierEvents, List.filterMap_cons_some (b := e)]
    · exact congrArg (e :: ·) ih
    · dsimp only
      rw [find_keyCode]
      rfl

/-- No key of a string is a modifier. -/
theorem modifierEvents_keyCalls (key : Option String) : modifierEvents (keyCalls key) = [] := by
  cases key with
  | none => rfl
  | some key =>
    rw [keyCalls]
    cases hcode : primaryKeyCodes.lookup key with
    | none => rfl
    | some code =>
      have hall : ∀ p ∈ primaryKeyCodes,
          (Modifier.all.find? fun m => m.keyCode = p.2) = none := by
        decide
      obtain ⟨l₁, l₂, hl, -⟩ := List.lookup_eq_some_iff.1 hcode
      have hnone := hall (key, code) (by rw [hl]; simp)
      simp [modifierEvents, hnone]

section

variable (s : ExtraKeys) (key : Option String) (down : Modifier → Bool)

theorem modifierEvents_onTerminal :
    modifierEvents (s.onTerminalExtraKeyButtonClick key down).sent =
      modifierEvents s.sent ++ changes Modifier.all s.down down := by
  rw [onTerminalExtraKeyButtonClick, modifierEvents_append, modifierEvents_append,
    modifierEvents_map, modifierEvents_keyCalls, List.append_nil]

theorem mem_all (m : Modifier) : m ∈ Modifier.all := by
  cases m <;> decide

/-- A flag that is sent decides, one that stays leaves the modifier as it is. -/
theorem down_onTerminal (m : Modifier) :
    (s.onTerminalExtraKeyButtonClick key down).Down m ↔
      if s.down m = down m then s.Down m else down m = true := by
  rw [Down, modifierEvents_onTerminal, Ledger.Down, last_append, last_changes]
  by_cases hsame : s.down m = down m
  · simp [hsame, Down, Ledger.Down]
  · simp [hsame, mem_all]

/-- A key without modifiers, while no flag is set. -/
theorem sent_onLorie_false (hflags : ∀ m, s.down m = false) :
    modifierEvents (s.onLorieExtraKeyButtonClick key fun _ => false).sent =
      modifierEvents s.sent := by
  rw [onLorieExtraKeyButtonClick]
  split_ifs
  · rfl
  · have hflags' : s.down = fun _ => false := funext hflags
    rw [modifierEvents_onTerminal, hflags']
    simp [changes]

end

theorem down_sendModifier (s : ExtraKeys) (m m' : Modifier) :
    (s.sendModifier m).Down m' ↔
      if m' = m then ((s.buttons m').read false).1 = true else s.Down m' := by
  have hone : modifierEvents [.sendKeyEvent m.keyCode ((s.buttons m).read false).1] =
      [(m, ((s.buttons m).read false).1)] := modifierEvents_map [(m, _)]
  rw [sendModifier, Down, modifierEvents_append, hone, down_concat]
  by_cases h : m = m'
  · simp [h]
  · simp [h, Ne.symm h, Down]

/-! ### Unsetting the special keys -/

section

variable (s : ExtraKeys) (m m' : Modifier)

theorem buttons_unsetSpecialKey :
    (s.unsetSpecialKey m).buttons m' =
      if m' = m then ((s.buttons m).read true).2 else s.buttons m' := by
  rw [unsetSpecialKey]
  by_cases h : m' = m
  · subst h
    simp
  · simp [h]

theorem down_unsetSpecialKey :
    (s.unsetSpecialKey m).Down m' ↔
      s.Down m' ∧ ¬ (m' = m ∧ ((s.buttons m).read true).1 = true) := by
  rw [unsetSpecialKey, Down, Down, modifierEvents_append]
  cases hread : ((s.buttons m).read true).1 with
  | false => simp [modifierEvents]
  | true =>
    have hone : modifierEvents [.sendKeyEvent m.keyCode false] = [(m, false)] :=
      modifierEvents_map [(m, false)]
    rw [if_pos rfl, hone, down_concat]
    by_cases h : m = m'
    · simp [h]
    · simp [h, Ne.symm h]

/-- After the modifiers of a list were unset one after the other. -/
theorem foldl_unsetSpecialKey {ms : List Modifier} (hms : ms.Nodup) :
    ((ms.foldl unsetSpecialKey s).buttons m' =
        if m' ∈ ms then ((s.buttons m').read true).2 else s.buttons m') ∧
      ((ms.foldl unsetSpecialKey s).Down m' ↔
        s.Down m' ∧ ¬ (m' ∈ ms ∧ ((s.buttons m').read true).1 = true)) ∧
      (ms.foldl unsetSpecialKey s).pending = s.pending ∧
      (ms.foldl unsetSpecialKey s).down = s.down := by
  induction ms generalizing s with
  | nil => simp
  | cons m ms ih =>
    obtain ⟨hm, hms⟩ := List.nodup_cons.1 hms
    obtain ⟨hb, hd, hp, hf⟩ := ih (s.unsetSpecialKey m) hms
    rw [List.foldl_cons]
    refine ⟨?_, ?_, hp, hf⟩
    · rw [hb, buttons_unsetSpecialKey]
      by_cases heq : m' = m
      · subst heq
        simp [hm]
      · simp [heq]
    · rw [hd, buttons_unsetSpecialKey, down_unsetSpecialKey]
      by_cases heq : m' = m
      · subst heq
        simp [hm]
      · simp [heq]

theorem unsetSpecialKeys_spec :
    (s.unsetSpecialKeys.buttons m' = ((s.buttons m').read true).2) ∧
      (s.unsetSpecialKeys.Down m' ↔ s.Down m' ∧ ¬ ((s.buttons m').read true).1 = true) ∧
      s.unsetSpecialKeys.pending = s.pending ∧ s.unsetSpecialKeys.down = s.down := by
  have h := s.foldl_unsetSpecialKey m' (show Modifier.all.Nodup by decide)
  rw [unsetSpecialKeys]
  simpa [mem_all] using h

end

/-! ### Macros -/

section

variable {s s' : ExtraKeys}

/-- From `s` to `s'` only flags were set: what is down and has no flag was down before. -/
structure OnlyFlags (s s' : ExtraKeys) : Prop where
  buttons : s'.buttons = s.buttons
  pending : s'.pending = s.pending
  down : ∀ m, s'.down m = false → s'.Down m → s.Down m

theorem OnlyFlags.onTerminal (h : OnlyFlags s s') (key : Option String) (down : Modifier → Bool) :
    OnlyFlags s (s'.onTerminalExtraKeyButtonClick key down) where
  buttons := h.buttons
  pending := h.pending
  down m hflag hd := by
    have hflag' : down m = false := hflag
    rw [down_onTerminal, hflag'] at hd
    split_ifs at hd with hsame
    exact h.down m hsame hd

theorem OnlyFlags.onLorie (h : OnlyFlags s s') (key : Option String) (down : Modifier → Bool) :
    OnlyFlags s (s'.onLorieExtraKeyButtonClick key down) := by
  rw [onLorieExtraKeyButtonClick]
  split_ifs
  · exact h
  · exact h.onTerminal key down

theorem OnlyFlags.foldl (h : OnlyFlags s s') (down : Modifier → Bool) (keys : List String) :
    OnlyFlags s (keys.foldl (fun s key => s.onLorieExtraKeyButtonClick (some key) down) s') := by
  induction keys generalizing s' with
  | nil => exact h
  | cons key keys ih => exact ih (h.onLorie (some key) down)

/-- A macro with modifiers: its own are up again, and the special keys are unset. -/
theorem onMacroClick_of_any (s : ExtraKeys) {keys : List String}
    (h : keys.any isModifierKey = true) :
    ∃ t, s.onMacroClick keys = t.unsetSpecialKeys ∧ OnlyFlags s t ∧ ∀ m, t.down m = false := by
  refine ⟨_, by rw [onMacroClick, if_pos h], ?_, fun _ => rfl⟩
  refine OnlyFlags.onLorie (OnlyFlags.foldl ?_ _ _) none _
  exact ⟨rfl, rfl, fun _ _ hd => hd⟩

/-- From `s` to `s'` nothing was done to the modifiers, and no flag is set. -/
structure Untouched (s s' : ExtraKeys) : Prop where
  buttons : s'.buttons = s.buttons
  pending : s'.pending = s.pending
  events : modifierEvents s'.sent = modifierEvents s.sent
  flags : ∀ m, s'.down m = false

theorem Untouched.onLorie (h : Untouched s s') (key : Option String) :
    Untouched s (s'.onLorieExtraKeyButtonClick key fun _ => false) where
  buttons := by
    rw [onLorieExtraKeyButtonClick]
    split_ifs <;> exact h.buttons
  pending := by
    rw [onLorieExtraKeyButtonClick]
    split_ifs <;> exact h.pending
  events := (sent_onLorie_false s' key h.flags).trans h.events
  flags := by
    rw [onLorieExtraKeyButtonClick]
    split_ifs
    · exact h.flags
    · exact fun _ => rfl

/-- A macro without modifiers sets no flag. -/
theorem flags_of_not_any {keys : List String} (h : ¬ keys.any isModifierKey = true) :
    (fun m : Modifier => keys.contains m.key) = fun _ => false := by
  funext m
  rw [Bool.eq_false_iff]
  intro hm
  refine h (List.any_eq_true.2 ⟨m.key, List.contains_iff_mem.1 hm, ?_⟩)
  cases m <;> decide

/-- A macro without modifiers is a row of keys. -/
theorem onMacroClick_of_not_any (hflags : ∀ m, s.down m = false) {keys : List String}
    (h : ¬ keys.any isModifierKey = true) : Untouched s (s.onMacroClick keys) := by
  have hrow : ∀ (l : List String) (t : ExtraKeys), Untouched s t →
      Untouched s (l.foldl (fun s key => s.onLorieExtraKeyButtonClick (some key) fun _ => false)
        t) := by
    intro l
    induction l with
    | nil => exact fun t ht => ht
    | cons key l ih => exact fun t ht => ih _ (ht.onLorie (some key))
  rw [onMacroClick, if_neg h, flags_of_not_any h]
  exact hrow _ s ⟨rfl, rfl, rfl, hflags⟩

end

/-! ### Runs -/

/-- Between two steps no flag is set. -/
def Unflagged (s : ExtraKeys) : Prop := ∀ m, s.down m = false

/-- A button that is active or has a task was created, and a locked one is active. -/
structure Shape (s : ExtraKeys) : Prop where
  created : ∀ m, (s.buttons m).isActive = true ∨ m ∈ s.pending → (s.buttons m).isCreated = true
  locked : ∀ m, (s.buttons m).isLocked = true → (s.buttons m).isActive = true

/-- Each modifier is as its button is, or a task for it is pending. -/
def Synced (s : ExtraKeys) : Prop :=
  ∀ m, m ∈ s.pending ∨ (s.Down m ↔ (s.buttons m).isActive = true)

section

variable {s s' : ExtraKeys}

theorem Unflagged.step (h : s.Unflagged) (a : ExtraKeysStep) : (s.step a).Unflagged := by
  cases a with
  | click m | countedClick m =>
    rw [ExtraKeys.step]
    split_ifs
    · exact h
    · exact h
  | longHold m =>
    rw [ExtraKeys.step]
    split_ifs
    · exact h
    · exact h
  | showPopup m => exact h
  | popupClick m => exact h
  | extraKey key => exact (Untouched.onLorie ⟨rfl, rfl, rfl, h⟩ (some key)).flags
  | macroKey keys =>
    by_cases hany : keys.any isModifierKey = true
    · obtain ⟨t, heq, -, hflags⟩ := s.onMacroClick_of_any hany
      intro m
      rw [ExtraKeys.step, heq, (t.unsetSpecialKeys_spec m).2.2.2]
      exact hflags m
    · exact (onMacroClick_of_not_any h hany).flags
  | unsetSpecialKeys =>
    intro m
    rw [ExtraKeys.step, (s.unsetSpecialKeys_spec m).2.2.2]
    exact h m
  | runTask =>
    rw [ExtraKeys.step]
    split
    · exact h
    · exact h

theorem Untouched.shape (h : Untouched s s') (hs : s.Shape) : s'.Shape where
  created m := by
    rw [h.buttons, h.pending]
    exact hs.created m
  locked m := by
    rw [h.buttons]
    exact hs.locked m

theorem Untouched.synced_iff (h : Untouched s s') : s'.Synced ↔ s.Synced := by
  rw [Synced, Synced, h.buttons, h.pending]
  refine forall_congr' fun m => or_congr_right ?_
  rw [Down, Down, h.events]

theorem Shape.read_false (h : s.Shape) (m : Modifier) :
    ((s.buttons m).read false).1 = (s.buttons m).isActive := by
  rw [SpecialButtonState.read]
  cases hact : (s.buttons m).isActive with
  | false => simp
  | true => simp [h.created m (.inl hact)]

theorem Shape.read_true (h : s.Shape) (m : Modifier) :
    (s.buttons m).read true = ((s.buttons m).isActive,
      { s.buttons m with isActive := (s.buttons m).isLocked }) := by
  have hcreated := fun hact => h.created m (.inl hact)
  have hlocked := h.locked m
  rw [SpecialButtonState.read]
  rcases hb : s.buttons m with ⟨created, active, locked⟩
  rw [hb] at hcreated hlocked
  cases active <;> cases locked <;> simp_all

/-- One button changes, to one that was created and is active if it is locked. -/
theorem Shape.update (h : s.Shape) {m : Modifier} (b : SpecialButtonState)
    (hc : b.isCreated = true) (hl : b.isLocked = true → b.isActive = true)
    (hb : s'.buttons = Function.update s.buttons m b)
    (hp : ∀ m', m' ∈ s'.pending → m' = m ∨ m' ∈ s.pending) : s'.Shape where
  created m' := by
    rw [hb]
    by_cases heq : m' = m
    · subst heq
      simpa using fun _ => hc
    · rw [Function.update_of_ne heq]
      exact fun hshown => h.created m' (hshown.imp_right fun hmem => (hp m' hmem).resolve_left heq)
  locked m' := by
    rw [hb]
    by_cases heq : m' = m
    · subst heq
      simpa using hl
    · simpa [heq] using h.locked m'

/-- The special keys are unset where only flags were set. -/
theorem Shape.unset (h : s.Shape) {t : ExtraKeys} (ht : OnlyFlags s t) :
    t.unsetSpecialKeys.Shape where
  created m hshown := by
    rw [(t.unsetSpecialKeys_spec m).1, (t.unsetSpecialKeys_spec m).2.2.1, ht.buttons, ht.pending,
      h.read_true] at hshown
    rw [(t.unsetSpecialKeys_spec m).1, ht.buttons, h.read_true]
    exact h.created m (hshown.imp_left (h.locked m))
  locked m hlock := by
    rw [(t.unsetSpecialKeys_spec m).1, ht.buttons, h.read_true] at hlock ⊢
    exact hlock

theorem click_locked (b : SpecialButtonState) (h : b.click.isLocked = true) :
    b.click.isActive = true := by
  cases hact : b.isActive with
  | false => simp [SpecialButtonState.click, hact]
  | true => simp [SpecialButtonState.click, hact] at h

/-- A popup is clicked while a task is pending, or the step is another one. -/
theorem Shape.step (h : s.Shape) (hflags : s.Unflagged) {a : ExtraKeysStep}
    (hpopup : ∀ m, a = .popupClick m → m ∈ s.pending) : (s.step a).Shape := by
  cases a with
  | click m =>
    rw [ExtraKeys.step]
    split_ifs with hc
    · refine h.update (s.buttons m).click hc (click_locked _) rfl fun m' hmem => ?_
      rcases List.mem_append.1 hmem with hmem | hmem
      · exact .inr hmem
      · exact .inl (List.mem_singleton.1 hmem)
    · exact h
  | countedClick m =>
    rw [ExtraKeys.step]
    split_ifs with hc
    · refine h.update (s.buttons m) hc (h.locked m) (Function.update_eq_self m s.buttons).symm
        fun m' hmem => ?_
      rcases List.mem_append.1 hmem with hmem | hmem
      · exact .inr hmem
      · exact .inl (List.mem_singleton.1 hmem)
    · exact h
  | longHold m =>
    rw [ExtraKeys.step]
    split_ifs with hc
    · have hl : (s.buttons m).longHold.isLocked = true →
          (s.buttons m).longHold.isActive = true := fun hl => hl
      exact h.update (s.buttons m).longHold hc hl rfl fun _ => .inr
    · exact h
  | showPopup m =>
    exact h.update { s.buttons m with isCreated := true } rfl (h.locked m) rfl fun _ => .inr
  | popupClick m =>
    have hc : (s.buttons m).click.isCreated = true := h.created m (.inr (hpopup m rfl))
    exact h.update (s.buttons m).click hc (click_locked _) rfl fun _ => .inr
  | extraKey key =>
    exact (Untouched.onLorie ⟨rfl, rfl, rfl, hflags⟩ (some key)).shape h
  | macroKey keys =>
    by_cases hany : keys.any isModifierKey = true
    · obtain ⟨t, heq, ht, -⟩ := s.onMacroClick_of_any hany
      rw [ExtraKeys.step, heq]
      exact h.unset ht
    · exact (onMacroClick_of_not_any hflags hany).shape h
  | unsetSpecialKeys => exact h.unset ⟨rfl, rfl, fun _ _ hd => hd⟩
  | runTask =>
    rw [ExtraKeys.step]
    cases hp : s.pending with
    | nil => exact h
    | cons m rest =>
      have hrest : ∀ m' ∈ rest, m' ∈ s.pending := by
        rw [hp]
        exact fun m' => List.mem_cons_of_mem m
      exact ⟨fun m' hshown => h.created m' (hshown.imp_right (hrest m')), h.locked⟩

/-- Where only flags were set, unsetting the special keys goes well if none is locked. -/
theorem Shape.synced_unset_iff (h : s.Shape) (hs : s.Synced) {t : ExtraKeys} (ht : OnlyFlags s t)
    (hflags : ∀ m, t.down m = false) : t.unsetSpecialKeys.Synced ↔ s.NoneLocked := by
  have hspec : ∀ m, (t.unsetSpecialKeys.buttons m).isActive = (s.buttons m).isLocked ∧
      (t.unsetSpecialKeys.Down m ↔ t.Down m ∧ ¬ (s.buttons m).isActive = true) := by
    intro m
    obtain ⟨hb, hd, -, -⟩ := t.unsetSpecialKeys_spec m
    rw [ht.buttons, h.read_true] at hb hd
    exact ⟨congrArg SpecialButtonState.isActive hb, hd⟩
  have hpending : t.unsetSpecialKeys.pending = s.pending :=
    (t.unsetSpecialKeys_spec .CTRL).2.2.1.trans ht.pending
  constructor
  · intro hsync m hl
    rcases hsync m with hmem | hiff
    · exact hpending ▸ hmem
    · rw [(hspec m).1, (hspec m).2] at hiff
      exact absurd (h.locked m hl) (hiff.2 hl).2
  · intro hnone m
    rw [hpending, (hspec m).1, (hspec m).2]
    by_cases hmem : m ∈ s.pending
    · exact .inl hmem
    · have hl : ¬ (s.buttons m).isLocked = true := fun hl => hmem (hnone m hl)
      refine .inr (iff_of_false ?_ hl)
      -- an inactive modifier was up, and is so still
      rintro ⟨hd, hact⟩
      exact hact (((hs m).resolve_left hmem).1 (ht.down m (hflags m) hd))

/-- A button that is clicked or held down changes whether it is active. -/
theorem Synced.update (hs : s.Synced) {m : Modifier} (b : SpecialButtonState)
    (hmem : m ∈ s.pending ∨ b.isActive = (s.buttons m).isActive) :
    Synced { s with buttons := Function.update s.buttons m b } := by
  intro m'
  show m' ∈ s.pending ∨ (s.Down m' ↔ (Function.update s.buttons m b m').isActive = true)
  by_cases heq : m' = m
  · subst heq
    rw [Function.update_self]
    rcases hmem with hmem | hsame
    · exact .inl hmem
    · rw [hsame]
      exact hs m'
  · rw [Function.update_of_ne heq]
    exact hs m'

/-- A step keeps the modifiers in step exactly if the server is told. -/
theorem Shape.synced_step_iff (h : s.Shape) (hflags : s.Unflagged) (hs : s.Synced)
    {a : ExtraKeysStep} (hpopup : ∀ m, a = .popupClick m → m ∈ s.pending) :
    (s.step a).Synced ↔ s.Told a := by
  cases a with
  | click m =>
    refine iff_of_true ?_ trivial
    rw [ExtraKeys.step]
    split_ifs with hc
    · intro m'
      by_cases heq : m' = m
      · exact .inl (by simp [heq])
      · refine (hs m').imp (fun hmem => by simp [hmem]) fun hiff => ?_
        show s.Down m' ↔ (Function.update s.buttons m (s.buttons m).click m').isActive = true
        rw [Function.update_of_ne heq]
        exact hiff
    · exact hs
  | countedClick m =>
    refine iff_of_true ?_ trivial
    rw [ExtraKeys.step]
    split_ifs
    · exact fun m' => (hs m').imp_left fun hmem => List.mem_append_left _ hmem
    · exact hs
  | longHold m =>
    rw [ExtraKeys.step, Told]
    split_ifs with hc
    · constructor
      · intro hsync _
        by_contra hmem
        have hold := (hs m).resolve_left hmem
        have hnew : s.Down m ↔
            (Function.update s.buttons m (s.buttons m).longHold m).isActive = true :=
          (hsync m).resolve_left hmem
        rw [hold, Function.update_self, SpecialButtonState.longHold] at hnew
        cases hact : (s.buttons m).isActive <;> simp [hact] at hnew
      · exact fun hmem => hs.update (s.buttons m).longHold (.inl (hmem hc))
    · exact iff_of_true hs fun hc' => absurd hc' hc
  | showPopup m =>
    exact iff_of_true (hs.update { s.buttons m with isCreated := true } (.inr rfl)) trivial
  | popupClick m =>
    exact iff_of_true (hs.update (s.buttons m).click (.inl (hpopup m rfl))) (hpopup m rfl)
  | extraKey key =>
    have hkey : Untouched s (s.step (.extraKey key)) :=
      Untouched.onLorie ⟨rfl, rfl, rfl, hflags⟩ (some key)
    exact iff_of_true (hkey.synced_iff.2 hs) trivial
  | macroKey keys =>
    rw [Told]
    by_cases hany : keys.any isModifierKey = true
    · obtain ⟨t, heq, ht, hflags'⟩ := s.onMacroClick_of_any hany
      rw [ExtraKeys.step, heq, h.synced_unset_iff hs ht hflags']
      exact (imp_iff_right hany).symm
    · have hkeys : Untouched s (s.step (.macroKey keys)) := onMacroClick_of_not_any hflags hany
      exact iff_of_true (hkeys.synced_iff.2 hs) fun hany' => absurd hany' hany
  | unsetSpecialKeys => exact h.synced_unset_iff hs ⟨rfl, rfl, fun _ _ hd => hd⟩ hflags
  | runTask =>
    refine iff_of_true ?_ trivial
    rw [ExtraKeys.step]
    cases hp : s.pending with
    | nil => exact hs
    | cons m rest =>
      intro m'
      show m' ∈ rest ∨ ((s.sendModifier m).Down m' ↔ (s.buttons m').isActive = true)
      rw [down_sendModifier, h.read_false]
      by_cases heq : m' = m
      · exact .inr (by simp [heq])
      · rw [if_neg heq]
        refine (hs m').imp_left fun hmem => ?_
        rw [hp] at hmem
        exact (List.mem_cons.1 hmem).resolve_left heq

/-- After the tasks have run, what is pending is as its button is read and the rest as it was. -/
theorem settle_spec (s : ExtraKeys) (m : Modifier) :
    s.settle.buttons = s.buttons ∧
      (s.settle.Down m ↔
        if m ∈ s.pending then ((s.buttons m).read false).1 = true else s.Down m) := by
  rw [settle]
  generalize hp : s.pending = ps
  induction ps generalizing s with
  | nil => simp
  | cons m' ps ih =>
    have hstep : s.step .runTask = { s.sendModifier m' with pending := ps } := by
      rw [ExtraKeys.step, hp]
    obtain ⟨hb, hd⟩ := ih (s.step .runTask) (by rw [hstep])
    have hb' : (s.step .runTask).buttons = s.buttons := by
      rw [hstep]
      rfl
    have hd' : (s.step .runTask).Down m ↔ (s.sendModifier m').Down m := by
      rw [hstep]
      exact Iff.rfl
    rw [List.length_cons, List.replicate_succ, exec_cons]
    refine ⟨hb.trans hb', ?_⟩
    rw [hd, hb', hd', down_sendModifier]
    by_cases hmem : m ∈ ps
    · simp [hmem]
    · by_cases heq : m = m' <;> simp [hmem, heq]

theorem Shape.agrees_settle_iff (h : s.Shape) : s.settle.Agrees ↔ s.Synced := by
  refine forall_congr' fun m => ?_
  obtain ⟨hb, hd⟩ := s.settle_spec m
  have hshown : (s.buttons m).isActive = true ∨ (s.buttons m).isLocked = true ↔
      (s.buttons m).isActive = true := or_iff_left_of_imp (h.locked m)
  rw [hd, hb, hshown, h.read_false]
  by_cases hmem : m ∈ s.pending <;> simp [hmem]

/-- A popup that is clicked with no task pending is told to nobody. -/
theorem Synced.not_agrees_popupClick (hs : s.Synced) {m : Modifier} (hmem : m ∉ s.pending) :
    ¬ (s.step (.popupClick m)).settle.Agrees := by
  intro hagree
  have hold := (hs m).resolve_left hmem
  obtain ⟨hb, hd⟩ := (s.step (.popupClick m)).settle_spec m
  have hbutton : (s.step (.popupClick m)).buttons m = (s.buttons m).click := by
    rw [ExtraKeys.step]
    exact Function.update_self m _ s.buttons
  have hpending : m ∉ (s.step (.popupClick m)).pending := hmem
  have hdown : (s.step (.popupClick m)).Down m ↔ s.Down m := Iff.rfl
  have hnew := hagree m
  rw [hd, if_neg hpending, hdown, hold, hb, hbutton, SpecialButtonState.click] at hnew
  cases hact : (s.buttons m).isActive with
  | false => simp [hact] at hnew
  | true => simp [hact] at hnew

/-- Once the tasks have run after a step, the modifiers agree exactly if the server is told. -/
theorem Shape.agrees_step_iff (h : s.Shape) (hflags : s.Unflagged) (hs : s.Synced)
    (a : ExtraKeysStep) : (s.step a).settle.Agrees ↔ s.Told a := by
  by_cases hpopup : ∀ m, a = .popupClick m → m ∈ s.pending
  · rw [(h.step hflags hpopup).agrees_settle_iff, h.synced_step_iff hflags hs hpopup]
  · push Not at hpopup
    obtain ⟨m, rfl, hmem⟩ := hpopup
    exact iff_of_false (hs.not_agrees_popupClick hmem) hmem

theorem Told.pending_of_popupClick {a : ExtraKeysStep} (h : s.Told a) (m : Modifier)
    (ha : a = .popupClick m) : m ∈ s.pending := by
  subst ha
  exact h

end

theorem unflagged_start (created : Modifier → Bool) : (start created).Unflagged := fun _ => rfl

theorem shape_start (created : Modifier → Bool) : (start created).Shape where
  created _ h := by rcases h with h | h <;> cases h
  locked _ h := by cases h

end ExtraKeys

end TermuxX11.Input
