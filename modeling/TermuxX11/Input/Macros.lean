import TermuxX11.Input.ExtraKeys
import TermuxX11.Lib.Text

/-!
# Macros of the extra keys

A button with a macro has the names of several keys.  `onExtraKeyButtonClick` gathers the modifiers
among them, sends the others with these, and clears what was set by a last call without a key.

While no special button is active and no modifier is down, a click sends `calls`: the modifiers are
pressed before the first key and released after the last one.
-/

namespace TermuxX11.Input

open Run Ledger

/-- An `ExtraKeyButton`, with whether its key is a macro. -/
structure ExtraKeyButton where
  key : String
  isMacro : Bool

namespace ExtraKeyButton

variable (b : ExtraKeyButton)

/-- `buttonInfo.key.split(" ")` of a macro. -/
def keys : List String := (Java.split ' ' b.key.toList).map String.ofList

/-- The modifiers that a macro asks for. -/
def modifiers : List Modifier :=
  if b.isMacro then Modifier.all.filter fun m => b.keys.contains m.key else []

/-- The keys and texts of a button, in order. -/
def plainKeys : List String :=
  if b.isMacro then b.keys.filter fun key => !isModifierKey key
  else if b.key ∈ actionKeys then []
  else [b.key]

/-- What is sent for them. -/
def body : List ExtraKeysCall := b.plainKeys.flatMap fun key => keyCalls (some key)

/-- What a click sends. -/
def calls : List ExtraKeysCall :=
  if b.plainKeys = [] then []
  else
    b.modifiers.map (fun m => .sendKeyEvent m.keyCode true) ++ b.body ++
      b.modifiers.map fun m => .sendKeyEvent m.keyCode false

/-- A macro has no key that stands for an action of the application, and a key does not paste. -/
def Sends : Prop :=
  if b.isMacro then ∀ key ∈ b.keys, key ∉ actionKeys else b.key ≠ "PASTE"

instance : Decidable b.Sends :=
  inferInstanceAs (Decidable
    (if b.isMacro then ∀ key ∈ b.keys, key ∉ actionKeys else b.key ≠ "PASTE"))

end ExtraKeyButton

/-- The call presses or releases a modifier. -/
def isModifierCall (call : ExtraKeysCall) : Bool := !(ExtraKeys.modifierEvents [call]).isEmpty

/-- The presses and releases of keys among the calls, those of modifiers too. -/
def keyEvents (calls : List ExtraKeysCall) : List (ℤ × Bool) :=
  calls.filterMap fun
    | .sendKeyEvent keyCode keyDown => some (keyCode, keyDown)
    | .sendTextEvent _ => none

namespace ExtraKeys

/-- `onExtraKeyButtonClick`. -/
def onExtraKeyButtonClick (s : ExtraKeys) (b : ExtraKeyButton) : ExtraKeys :=
  if b.isMacro then s.onMacroClick b.keys
  else s.onLorieExtraKeyButtonClick (some b.key) fun _ => false

/-- No special button is active, and no modifier is down. -/
structure Calm (s : ExtraKeys) : Prop where
  inactive : ∀ m, (s.buttons m).isActive = false
  up : ∀ m, ¬ s.Down m

/-- What a click sends is balanced: the keys and texts of the button come in order, a key is
released when it was pressed, exactly the modifiers of the button are down at each of them, and
afterwards no key is down and no special button is active. -/
structure Balanced (s : ExtraKeys) (b : ExtraKeyButton) (calls : List ExtraKeysCall) : Prop where
  sent : (s.onExtraKeyButtonClick b).sent = s.sent ++ calls
  order : calls.filter (fun call => !isModifierCall call) = b.body
  held : ∀ before call after, calls = before ++ call :: after → isModifierCall call = false →
    ∀ m, Ledger.Down (modifierEvents (s.sent ++ before)) m ↔ m ∈ b.modifiers
  up : ∀ keyCode, ¬ Ledger.Down (keyEvents (s.onExtraKeyButtonClick b).sent) keyCode
  inactive : ∀ m, ((s.onExtraKeyButtonClick b).buttons m).isActive = false

/-! ### What a click sends -/

section

variable {s : ExtraKeys}

/-- Where the flags are as they are to be, only the key is sent. -/
theorem onTerminal_of_eq {down : Modifier → Bool} (h : s.down = down) (key : Option String) :
    s.onTerminalExtraKeyButtonClick key down = { s with sent := s.sent ++ keyCalls key } := by
  subst h
  rw [onTerminalExtraKeyButtonClick]
  simp [changes]

/-- A row of keys that go with the flags that are set. -/
theorem foldl_onLorie_of_eq {down : Modifier → Bool} (h : s.down = down) {keys : List String}
    (hkeys : ∀ key ∈ keys, key ∉ actionKeys) :
    keys.foldl (fun s key => s.onLorieExtraKeyButtonClick (some key) down) s =
      { s with sent := s.sent ++ keys.flatMap fun key => keyCalls (some key) } := by
  induction keys generalizing s with
  | nil => simp
  | cons key keys ih =>
    have hkey : ¬ (some key).any (· ∈ actionKeys) = true := by
      simpa using hkeys key List.mem_cons_self
    rw [List.foldl_cons, onLorieExtraKeyButtonClick, if_neg hkey, onTerminal_of_eq h]
    refine (ih (s := { s with sent := s.sent ++ keyCalls (some key) }) h ?_).trans ?_
    · exact fun key hmem => hkeys key (List.mem_cons_of_mem _ hmem)
    · rw [List.flatMap_cons, List.append_assoc]

theorem onTerminal_eq (hflags : ∀ m, s.down m = false) (key : Option String)
    (down : Modifier → Bool) :
    s.onTerminalExtraKeyButtonClick key down =
      { s with
        down := down
        sent := s.sent ++
          ((Modifier.all.filter down).map fun m => .sendKeyEvent m.keyCode true) ++
            keyCalls key } := by
  have hchanges : changes Modifier.all s.down down =
      (Modifier.all.filter down).map fun m => (m, true) := by
    have hdiffer : (fun m => s.down m != down m) = down := by
      funext m
      rw [hflags m, Bool.false_bne]
    rw [changes, hdiffer]
    refine List.map_congr_left fun m hm => ?_
    rw [(List.mem_filter.1 hm).2]
  rw [onTerminalExtraKeyButtonClick, hchanges, List.map_map]
  rfl

/-- The last call of a macro, without a key, clears the flags. -/
theorem onTerminal_none (s : ExtraKeys) :
    s.onTerminalExtraKeyButtonClick none (fun _ => false) =
      { s with
        down := fun _ => false
        sent := s.sent ++
          ((Modifier.all.filter s.down).map fun m => .sendKeyEvent m.keyCode false) } := by
  have hchanges : changes Modifier.all s.down (fun _ => false) =
      (Modifier.all.filter s.down).map fun m => (m, false) := by
    have hdiffer : (fun m => s.down m != false) = s.down := by
      funext m
      rw [Bool.bne_false]
    rw [changes, hdiffer]
  rw [onTerminalExtraKeyButtonClick, hchanges, List.map_map, keyCalls, List.append_nil]
  rfl

/-- Nothing is sent for a special button that is not active. -/
theorem unsetSpecialKey_of_inactive {m : Modifier} (h : (s.buttons m).isActive = false) :
    s.unsetSpecialKey m = s := by
  have hread : (s.buttons m).read true = (false, s.buttons m) := by
    rw [SpecialButtonState.read, h]
    simp
  rw [unsetSpecialKey, hread]
  simp

theorem unsetSpecialKeys_of_inactive (h : ∀ m, (s.buttons m).isActive = false) :
    s.unsetSpecialKeys = s := by
  have hfoldl : ∀ ms : List Modifier, ms.foldl unsetSpecialKey s = s := by
    intro ms
    induction ms with
    | nil => rfl
    | cons m ms ih => rw [List.foldl_cons, unsetSpecialKey_of_inactive (h m), ih]
  exact hfoldl Modifier.all

/-- The keys of a macro that are not modifiers are sent with its modifiers. -/
theorem foldl_onLorie (hflags : ∀ m, s.down m = false) (down : Modifier → Bool)
    {keys : List String} (hne : keys ≠ []) (hkeys : ∀ key ∈ keys, key ∉ actionKeys) :
    keys.foldl (fun s key => s.onLorieExtraKeyButtonClick (some key) down) s =
      { s with
        down := down
        sent := s.sent ++
          ((Modifier.all.filter down).map fun m => .sendKeyEvent m.keyCode true) ++
            keys.flatMap fun key => keyCalls (some key) } := by
  cases keys with
  | nil => exact absurd rfl hne
  | cons key keys =>
    have hkey : ¬ (some key).any (· ∈ actionKeys) = true := by
      simpa using hkeys key List.mem_cons_self
    rw [List.foldl_cons, onLorieExtraKeyButtonClick, if_neg hkey, onTerminal_eq hflags]
    refine (foldl_onLorie_of_eq (show ExtraKeys.down _ = down from rfl) ?_).trans ?_
    · exact fun key hmem => hkeys key (List.mem_cons_of_mem _ hmem)
    · rw [List.flatMap_cons, List.append_assoc _ (keyCalls (some key))]

theorem onMacroClick_eq (hflags : ∀ m, s.down m = false)
    (hinactive : ∀ m, (s.buttons m).isActive = false) {keys : List String}
    (hkeys : ∀ key ∈ keys, key ∉ actionKeys) :
    s.onMacroClick keys =
      { s with
        sent := s.sent ++
          if (keys.filter fun key => !isModifierKey key) = [] then []
          else
            ((Modifier.all.filter fun m => keys.contains m.key).map
              fun m => .sendKeyEvent m.keyCode true) ++
            ((keys.filter fun key => !isModifierKey key).flatMap fun key => keyCalls (some key)) ++
            (Modifier.all.filter fun m => keys.contains m.key).map
              fun m => .sendKeyEvent m.keyCode false } := by
  have hdown : s.down = fun _ => false := funext hflags
  have hlast : ∀ t : ExtraKeys, t.onLorieExtraKeyButtonClick none (fun _ => false) =
      t.onTerminalExtraKeyButtonClick none fun _ => false := fun t => if_neg (by simp)
  rw [onMacroClick]
  by_cases hplain : (keys.filter fun key => !isModifierKey key) = []
  · rw [hplain, if_pos rfl, List.foldl_nil, hlast, onTerminal_of_eq hdown, keyCalls,
      List.append_nil]
    split_ifs
    · exact unsetSpecialKeys_of_inactive hinactive
    · rfl
  · rw [if_neg hplain, foldl_onLorie hflags _ hplain
      fun key hmem => hkeys key (List.mem_filter.1 hmem).1]
    split_ifs with hany
    · rw [hlast, onTerminal_none, unsetSpecialKeys_of_inactive (by exact hinactive), hdown]
      simp only [List.append_assoc]
    · rw [flags_of_not_any hany, hdown, List.filter_false, List.map_nil, List.map_nil,
        List.append_nil, List.append_nil, List.nil_append]

/-- **What a click sends** while no flag is set and no special button is active. -/
theorem onExtraKeyButtonClick_eq (hflags : ∀ m, s.down m = false)
    (hinactive : ∀ m, (s.buttons m).isActive = false) {b : ExtraKeyButton} (hb : b.Sends) :
    s.onExtraKeyButtonClick b = { s with sent := s.sent ++ b.calls } := by
  rw [onExtraKeyButtonClick]
  rw [ExtraKeyButton.Sends] at hb
  split_ifs at hb ⊢ with hmacro
  · rw [onMacroClick_eq hflags hinactive hb, ExtraKeyButton.calls, ExtraKeyButton.body,
      ExtraKeyButton.modifiers, ExtraKeyButton.plainKeys, if_pos hmacro, if_pos hmacro]
  · rw [ExtraKeyButton.calls, ExtraKeyButton.body, ExtraKeyButton.modifiers,
      ExtraKeyButton.plainKeys, if_neg hmacro, if_neg hmacro, onLorieExtraKeyButtonClick]
    by_cases haction : b.key ∈ actionKeys
    · rw [if_pos haction, if_pos rfl, if_pos (by simpa using haction), List.append_nil]
    · rw [if_neg haction, if_neg (List.cons_ne_nil _ _), if_neg (by simpa using haction),
        onTerminal_of_eq (funext hflags)]
      simp

end

/-! ### The modifiers of a trace -/

theorem modifierEvents_mods (ms : List Modifier) (d : Bool) :
    modifierEvents (ms.map fun m => .sendKeyEvent m.keyCode d) = ms.map fun m => (m, d) := by
  have hmap := modifierEvents_map (ms.map fun m => (m, d))
  rwa [List.map_map] at hmap

theorem isModifierCall_keyCode (m : Modifier) (d : Bool) :
    isModifierCall (.sendKeyEvent m.keyCode d) = true := by
  have hone : modifierEvents [.sendKeyEvent m.keyCode d] = [(m, d)] := modifierEvents_mods [m] d
  rw [isModifierCall, hone]
  rfl

/-- A trace without calls for modifiers. -/
theorem modifierEvents_eq_nil_iff {calls : List ExtraKeysCall} :
    modifierEvents calls = [] ↔ ∀ call ∈ calls, isModifierCall call = false := by
  induction calls with
  | nil => simp [modifierEvents]
  | cons call calls ih =>
    have hcons : modifierEvents (call :: calls) = modifierEvents [call] ++ modifierEvents calls :=
      modifierEvents_append [call] calls
    rw [hcons, List.append_eq_nil_iff, ih, List.forall_mem_cons, isModifierCall,
      Bool.not_eq_false', List.isEmpty_iff]

theorem modifierEvents_body (b : ExtraKeyButton) : modifierEvents b.body = [] := by
  rw [modifierEvents_eq_nil_iff]
  intro call hcall
  obtain ⟨key, -, hcall⟩ := List.mem_flatMap.1 hcall
  exact modifierEvents_eq_nil_iff.1 (modifierEvents_keyCalls (some key)) call hcall

/-- Among the calls between two rows of calls for modifiers, one that is for none is in the middle,
and all that comes before it is the first row and a part of the middle. -/
theorem prefix_of_middle {front body back before after : List ExtraKeysCall} {call : ExtraKeysCall}
    (hfront : ∀ c ∈ front, isModifierCall c = true) (hback : ∀ c ∈ back, isModifierCall c = true)
    (hcall : isModifierCall call = false)
    (h : front ++ body ++ back = before ++ call :: after) :
    ∃ t, before = front ++ t ∧ t <+: body := by
  have hnot : ∀ l : List ExtraKeysCall, (∀ c ∈ l, isModifierCall c = true) → call ∉ l := by
    intro l hl hmem
    exact Bool.false_ne_true (hcall.symm.trans (hl call hmem))
  rw [List.append_assoc, List.append_eq_append_iff] at h
  rcases h with ⟨t, hbefore, h⟩ | ⟨t, hfront', h⟩
  · rcases List.append_eq_append_iff.1 h with ⟨u, -, hback'⟩ | ⟨u, hbody, -⟩
    · refine absurd ?_ (hnot back hback)
      rw [hback']
      exact List.mem_append_right u List.mem_cons_self
    · exact ⟨t, hbefore, u, hbody.symm⟩
  · cases t with
    | nil => exact ⟨[], by rw [hfront', List.append_nil, List.append_nil], List.nil_prefix⟩
    | cons c t =>
      refine absurd ?_ (hnot front hfront)
      rw [hfront', (List.cons.inj h).1]
      exact List.mem_append_right before List.mem_cons_self

section

variable {s : ExtraKeys} {b : ExtraKeyButton}

theorem isModifierCall_of_mem {ms : List Modifier} {d : Bool} :
    ∀ call ∈ ms.map (fun m => ExtraKeysCall.sendKeyEvent m.keyCode d),
      isModifierCall call = true := by
  intro call hcall
  obtain ⟨m, -, rfl⟩ := List.mem_map.1 hcall
  exact isModifierCall_keyCode m d

/-- The keys and texts come in order. -/
theorem filter_calls (b : ExtraKeyButton) :
    b.calls.filter (fun call => !isModifierCall call) = b.body := by
  have hmods : ∀ d, (b.modifiers.map fun m => ExtraKeysCall.sendKeyEvent m.keyCode d).filter
      (fun call => !isModifierCall call) = [] := by
    intro d
    refine List.filter_eq_nil_iff.2 fun call hcall => ?_
    simp [isModifierCall_of_mem call hcall]
  have hbody : b.body.filter (fun call => !isModifierCall call) = b.body := by
    refine List.filter_eq_self.2 fun call hcall => ?_
    simp [modifierEvents_eq_nil_iff.1 (modifierEvents_body b) call hcall]
  rw [ExtraKeyButton.calls]
  split_ifs with hplain
  · rw [ExtraKeyButton.body, hplain]
    rfl
  · rw [List.filter_append, List.filter_append, hmods, hmods, hbody, List.nil_append,
      List.append_nil]

/-- At each of them exactly the modifiers of the button are down. -/
theorem held_calls (hup : ∀ m, ¬ s.Down m) {before after : List ExtraKeysCall}
    {call : ExtraKeysCall} (h : b.calls = before ++ call :: after)
    (hcall : isModifierCall call = false) (m : Modifier) :
    Ledger.Down (modifierEvents (s.sent ++ before)) m ↔ m ∈ b.modifiers := by
  rw [ExtraKeyButton.calls] at h
  split_ifs at h
  · exact absurd h (by simp)
  obtain ⟨t, rfl, u, hbody⟩ := prefix_of_middle isModifierCall_of_mem isModifierCall_of_mem hcall h
  have ht : modifierEvents t = [] := by
    have hnil := modifierEvents_body b
    rw [← hbody, modifierEvents_append] at hnil
    exact (List.append_eq_nil_iff.1 hnil).1
  rw [modifierEvents_append, modifierEvents_append, ht, modifierEvents_mods, List.append_nil,
    Ledger.Down, last_append, last_map]
  by_cases hm : m ∈ b.modifiers
  · simp [hm]
  · simpa [hm, Down, Ledger.Down] using hup m

/-- Afterwards all modifiers are up. -/
theorem up_calls (hup : ∀ m, ¬ s.Down m) (m : Modifier) :
    ¬ Ledger.Down (modifierEvents (s.sent ++ b.calls)) m := by
  rw [ExtraKeyButton.calls]
  split_ifs
  · rw [List.append_nil]
    exact hup m
  · rw [modifierEvents_append, modifierEvents_append, modifierEvents_append, modifierEvents_mods,
      modifierEvents_mods, modifierEvents_body, List.append_nil, Ledger.Down, last_append,
      last_append, last_map, last_map]
    by_cases hm : m ∈ b.modifiers
    · simp [hm]
    · simpa [hm, Down, Ledger.Down] using hup m

end

/-! ### The keys of a trace -/

/-- No key but those of modifiers is down. -/
def KeysUp (calls : List ExtraKeysCall) : Prop :=
  ∀ keyCode, (∀ m : Modifier, m.keyCode ≠ keyCode) → ¬ Ledger.Down (keyEvents calls) keyCode

theorem keyEvents_append (calls calls' : List ExtraKeysCall) :
    keyEvents (calls ++ calls') = keyEvents calls ++ keyEvents calls' :=
  List.filterMap_append

theorem keysUp_nil : KeysUp [] := fun _ _ h => by cases h

theorem KeysUp.append {calls calls' : List ExtraKeysCall} (h : KeysUp calls)
    (h' : KeysUp calls') : KeysUp (calls ++ calls') := by
  intro keyCode hkey hdown
  rw [keyEvents_append, Ledger.Down, last_append, Option.or_eq_some_iff] at hdown
  rcases hdown with hdown | ⟨-, hdown⟩
  · exact h' keyCode hkey hdown
  · exact h keyCode hkey hdown

theorem keysUp_mods (ms : List Modifier) (d : Modifier → Bool) :
    KeysUp (ms.map fun m => .sendKeyEvent m.keyCode (d m)) := by
  intro keyCode hkey hdown
  obtain ⟨call, hcall, hevent⟩ := List.mem_filterMap.1 (mem_of_last hdown)
  obtain ⟨m, -, rfl⟩ := List.mem_map.1 hcall
  exact hkey m (Prod.mk.inj (Option.some.inj hevent)).1

theorem keysUp_keyCalls (key : Option String) : KeysUp (keyCalls key) := by
  cases key with
  | none => exact keysUp_nil
  | some key =>
    rw [keyCalls]
    cases primaryKeyCodes.lookup key with
    | none => exact fun _ _ h => by cases h
    | some code =>
      intro keyCode _ hdown
      have hevents : keyEvents [.sendKeyEvent code true, .sendKeyEvent code false] =
        [(code, true), (code, false)] := rfl
      rw [hevents, Ledger.Down, last_cons, last_singleton] at hdown
      by_cases hcode : code = keyCode
      · simp [hcode] at hdown
      · simp [hcode] at hdown

theorem keyCode_eq_iff {m m' : Modifier} : m.keyCode = m'.keyCode ↔ m = m' := by
  cases m <;> cases m' <;> decide

/-- A modifier is down as a key if it is as a modifier. -/
theorem last_keyEvents_keyCode (calls : List ExtraKeysCall) (m : Modifier) :
    last (keyEvents calls) m.keyCode = last (modifierEvents calls) m := by
  induction calls with
  | nil => rfl
  | cons call calls ih =>
    have hkeys : keyEvents (call :: calls) = keyEvents [call] ++ keyEvents calls :=
      keyEvents_append [call] calls
    have hmods : modifierEvents (call :: calls) = modifierEvents [call] ++ modifierEvents calls :=
      modifierEvents_append [call] calls
    have hone : last (keyEvents [call]) m.keyCode = last (modifierEvents [call]) m := by
      cases call with
      | sendTextEvent text => rfl
      | sendKeyEvent code d =>
        have hkey : keyEvents [.sendKeyEvent code d] = [(code, d)] := rfl
        rw [hkey, last_singleton]
        by_cases hmod : ∃ m' : Modifier, m'.keyCode = code
        · obtain ⟨m', rfl⟩ := hmod
          have hevent : modifierEvents [.sendKeyEvent m'.keyCode d] = [(m', d)] :=
            modifierEvents_mods [m'] d
          rw [hevent, last_singleton]
          exact if_congr keyCode_eq_iff rfl rfl
        · have hnone : (Modifier.all.find? fun m' => m'.keyCode = code) = none :=
            List.find?_eq_none.2 fun m' _ hm' => hmod ⟨m', of_decide_eq_true hm'⟩
          have hevents : modifierEvents [.sendKeyEvent code d] = [] := by
            simp [modifierEvents, hnone]
          rw [hevents, last_nil, if_neg fun hcode => hmod ⟨m, hcode.symm⟩]
    rw [hkeys, hmods, last_append, last_append, ih, hone]

section

variable {s : ExtraKeys}

theorem keysUp_onLorie (h : KeysUp s.sent) (key : Option String) (down : Modifier → Bool) :
    KeysUp (s.onLorieExtraKeyButtonClick key down).sent := by
  rw [onLorieExtraKeyButtonClick]
  split_ifs
  · exact h
  · rw [onTerminalExtraKeyButtonClick]
    refine (h.append ?_).append (keysUp_keyCalls key)
    rw [changes, List.map_map]
    exact keysUp_mods _ down

theorem keysUp_unsetSpecialKey (h : KeysUp s.sent) (m : Modifier) :
    KeysUp (s.unsetSpecialKey m).sent := by
  rw [unsetSpecialKey]
  refine h.append ?_
  split_ifs
  · exact keysUp_mods [m] fun _ => false
  · exact keysUp_nil

theorem keysUp_unsetSpecialKeys (h : KeysUp s.sent) : KeysUp s.unsetSpecialKeys.sent := by
  refine List.foldlRecOn Modifier.all unsetSpecialKey
    (motive := fun t => KeysUp t.sent) h ?_
  exact fun t ht m _ => keysUp_unsetSpecialKey ht m

/-- A step releases every key that it presses. -/
theorem keysUp_step (h : KeysUp s.sent) (a : ExtraKeysStep) : KeysUp (s.step a).sent := by
  cases a with
  | click m | countedClick m =>
    rw [step]
    split_ifs <;> exact h
  | longHold m =>
    rw [step]
    split_ifs <;> exact h
  | showPopup m => exact h
  | popupClick m => exact h
  | extraKey key => exact keysUp_onLorie h (some key) _
  | macroKey keys =>
    have hrow : ∀ (l : List String) (down : Modifier → Bool), KeysUp
        (l.foldl (fun s key => s.onLorieExtraKeyButtonClick (some key) down) s).sent := by
      intro l down
      refine List.foldlRecOn l
        (fun (s : ExtraKeys) key => s.onLorieExtraKeyButtonClick (some key) down)
        (motive := fun t => KeysUp t.sent) h ?_
      exact fun t ht key _ => keysUp_onLorie ht (some key) down
    rw [step, onMacroClick]
    split_ifs
    · exact keysUp_unsetSpecialKeys (keysUp_onLorie (hrow _ _) none _)
    · exact hrow _ _
  | unsetSpecialKeys => exact keysUp_unsetSpecialKeys h
  | runTask =>
    rw [step]
    split
    · exact h
    · exact h.append (keysUp_mods [_] fun m => ((s.buttons m).read false).1)

end

/-! ### Runs of clicks -/

section

variable {s : ExtraKeys} {b : ExtraKeyButton}

/-- A click is a step of the bar. -/
theorem onExtraKeyButtonClick_eq_step (s : ExtraKeys) (b : ExtraKeyButton) :
    s.onExtraKeyButtonClick b =
      s.step (if b.isMacro then .macroKey b.keys else .extraKey b.key) := by
  rw [onExtraKeyButtonClick]
  split_ifs
  · rfl
  · rfl

/-- What a run of clicks keeps: nothing is active, down or flagged. -/
structure Quiet (s : ExtraKeys) : Prop extends Calm s where
  flags : ∀ m, s.down m = false
  keysUp : KeysUp s.sent

theorem Quiet.up_key (h : s.Quiet) (keyCode : ℤ) :
    ¬ Ledger.Down (keyEvents s.sent) keyCode := by
  by_cases hmod : ∃ m : Modifier, m.keyCode = keyCode
  · obtain ⟨m, rfl⟩ := hmod
    rw [Ledger.Down, last_keyEvents_keyCode]
    exact h.up m
  · exact h.keysUp keyCode fun m hm => hmod ⟨m, hm⟩

/-- One click. -/
theorem Quiet.click (h : s.Quiet) (hb : b.Sends) : (s.onExtraKeyButtonClick b).Quiet := by
  have heq := onExtraKeyButtonClick_eq h.flags h.inactive hb
  refine ⟨⟨?_, ?_⟩, ?_, ?_⟩
  · rw [heq]
    exact h.inactive
  · rw [heq]
    exact up_calls h.up
  · rw [heq]
    exact h.flags
  · rw [onExtraKeyButtonClick_eq_step]
    exact keysUp_step h.keysUp _

theorem Quiet.balanced (h : s.Quiet) (hb : b.Sends) : Balanced s b b.calls where
  sent := congrArg ExtraKeys.sent (onExtraKeyButtonClick_eq h.flags h.inactive hb)
  order := filter_calls b
  held _ _ _ hcalls hcall m := held_calls h.up hcalls hcall m
  up := (h.click hb).up_key
  inactive := (h.click hb).inactive

/-- Between two steps of the bar no flag is set, and no key but those of modifiers is down. -/
theorem flags_keysUp (created : Modifier → Bool) (as : List ExtraKeysStep) :
    (exec step (start created) as).Unflagged ∧ KeysUp (exec step (start created) as).sent := by
  refine List.foldlRecOn as step (motive := fun s => s.Unflagged ∧ KeysUp s.sent) ?_ ?_
  · exact ⟨unflagged_start created, keysUp_nil⟩
  · exact fun s hs a _ => ⟨hs.1.step a, keysUp_step hs.2 a⟩

/-- **Macros are balanced.**  In every state that the bar can be in, while no special button is
active and no modifier is down, every run of clicks on macros and keys sends balanced calls, and
ends in such a state. -/
theorem macros_balanced (created : Modifier → Bool) (as : List ExtraKeysStep)
    (hcalm : (exec step (start created) as).Calm) {bs : List ExtraKeyButton}
    (hbs : ∀ b ∈ bs, b.Sends) :
    Always onExtraKeyButtonClick (fun s b => Balanced s b b.calls)
        (exec step (start created) as) bs ∧
      (exec onExtraKeyButtonClick (exec step (start created) as) bs).Calm := by
  obtain ⟨hflags, hkeys⟩ := flags_keysUp created as
  have hquiet : (exec step (start created) as).Quiet := ⟨hcalm, hflags, hkeys⟩
  have hsends : Always onExtraKeyButtonClick (fun _ b => b.Sends)
      (exec step (start created) as) bs := always_of_forall (fun b hb _ => hbs b hb) _
  have hstep : ∀ (s : ExtraKeys) (b : ExtraKeyButton), s.Quiet → b.Sends →
      (s.onExtraKeyButtonClick b).Quiet := fun _ _ h hb => h.click hb
  constructor
  · exact hsends.imp_of_invariant hstep (fun _ _ h hb => h.balanced hb) hquiet
  · exact (exec_invariant_of_always hstep hquiet hsends).toCalm

end

/-- A macro and a key, while CTRL was clicked on and off. -/
theorem macros_balanced_delete :
    Always onExtraKeyButtonClick (fun s b => Balanced s b b.calls)
      (exec step (start fun _ => true) [.click .CTRL, .runTask, .click .CTRL, .runTask])
      [⟨"CTRL ALT DEL", true⟩, ⟨"ESC", false⟩] := by
  refine (macros_balanced (fun _ => true) [.click .CTRL, .runTask, .click .CTRL, .runTask]
    ⟨fun m => ?_, fun m => ?_⟩ ?_).1
  · cases m <;> decide
  · cases m <;> decide
  · decide +kernel

example : (ExtraKeyButton.mk "DEL CTRL  ALT" true).calls =
    [.sendKeyEvent 113 true, .sendKeyEvent 57 true, .sendKeyEvent 112 true,
      .sendKeyEvent 112 false, .sendTextEvent "", .sendKeyEvent 113 false,
      .sendKeyEvent 57 false] := by
  decide +kernel

/-- A macro less than 100 ms after CTRL was clicked off: no special button is active, and the key is
sent while CTRL is down still. -/
theorem macro_with_ctrl_down :
    (∀ m, ((exec step (start fun _ => true)
        [.click .CTRL, .runTask, .click .CTRL]).buttons m).isActive = false) ∧
      (ExtraKeyButton.mk "ENTER" true).Sends ∧
      ¬ ∃ calls, Balanced (exec step (start fun _ => true)
        [.click .CTRL, .runTask, .click .CTRL]) (.mk "ENTER" true) calls := by
  refine ⟨fun m => ?_, by decide +kernel, ?_⟩
  · cases m <;> decide
  · rintro ⟨calls, h⟩
    -- the key of CTRL
    exact h.up 113 (by decide +kernel)

end ExtraKeys

end TermuxX11.Input
