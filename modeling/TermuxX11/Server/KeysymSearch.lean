import TermuxX11.Server.Keymap

/-!
# The search for a key

`lorieKeysymToKeycode` as it is written: a loop over the keys that goes on past a fake key, and a
function that calls itself, with `new_state` `NULL`, for the other states of the Shift and level
three modifiers.  The mask of level three is found by the same function.

A keycode of zero is none.  `findKey` and `keysymToKeycode` say in one expression each what the loop
and the function find (`loop_eq`, `lorieKeysymToKeycode_eq`).
-/

namespace TermuxX11.Server.Xkb

namespace Keymap

variable (m : Keymap) (lib : Library)

/-- The loop over the keys, with the fake key that was found first. -/
def loop (keysym : KeySym) (state : UInt32) : KeyCode → List KeyCode → KeyCode
  | fallback, [] => fallback
  | fallback, key :: keys =>
    let (stateOut, ks) := m.translateKeyCode key state
    if ks = NoSymbol then loop keysym state fallback keys
    else
      let ks := if state &&& ~~~stateOut &&& LockMask ≠ 0 then (lib.convertCase ks).2 else ks
      if ks ≠ keysym then loop keysym state fallback keys
      else if key ∈ fakeKeys then loop keysym state (if fallback = 0 then key else fallback) keys
      else key

/-- `lorieKeysymToKeycode` where `new_state` is `NULL`. -/
def keycodeAt (keysym : KeySym) (state : UInt32) : KeyCode := m.loop lib keysym state 0 m.keys

/-- `lorieGetLevelThreeMask`, for the state that `lorieGetKeyboardState` gives. -/
def lorieGetLevelThreeMask (keyboardState : UInt32) : UInt32 :=
  let state := keyboardState &&& ~~~0xff
  let keycode := m.keycodeAt lib XK_ISO_Level3_Shift state
  let keycode := if keycode = 0 then m.keycodeAt lib XK_Mode_switch state else keycode
  if keycode = 0 then 0
  else
    match m.keyAction keycode state with
    | some (.setMods useModMapMods mask) => if useModMapMods then m.modmap keycode else mask
    | _ => 0

/-- The state with Shift the other way. -/
def shiftToggled (state : UInt32) : UInt32 := state &&& ~~~ShiftMask ||| opposite state ShiftMask

/-- The state with the modifiers of a mask the other way. -/
def maskToggled (mask state : UInt32) : UInt32 := state &&& ~~~mask ||| opposite state mask

/-- The state with both the other way. -/
def bothToggled (mask state : UInt32) : UInt32 :=
  state &&& ~~~(ShiftMask ||| mask) ||| opposite state ShiftMask ||| opposite state mask

/-- `lorieKeysymToKeycode`: the key, and `new_state`. -/
def lorieKeysymToKeycode (keyboardState : UInt32) (keysym : KeySym) (state : UInt32) :
    KeyCode × UInt32 :=
  let key := m.loop lib keysym state 0 m.keys
  if key ≠ 0 then (key, state)
  else
    let newState := shiftToggled state
    let key := m.keycodeAt lib keysym newState
    if key ≠ 0 then (key, newState)
    else
      let mask := m.lorieGetLevelThreeMask lib keyboardState
      if mask = 0 then (0, newState)
      else
        let newState := maskToggled mask state
        let key := m.keycodeAt lib keysym newState
        if key ≠ 0 then (key, newState)
        else
          let newState := bothToggled mask state
          (m.keycodeAt lib keysym newState, newState)

/-- The states that are tried. -/
def states (mask state : UInt32) : List UInt32 :=
  [state, shiftToggled state, maskToggled mask state, bothToggled mask state]

/-- The key gives the symbol in the state. -/
def Produces (keysym : KeySym) (state : UInt32) (key : KeyCode) : Prop :=
  key ∈ m.keys ∧ m.gives lib keysym state key = true

variable {m lib} {keysym : KeySym} {state : UInt32}

/-! ### The loop -/

theorem loop_cons (fallback key : KeyCode) (keys : List KeyCode) :
    m.loop lib keysym state fallback (key :: keys) =
      if m.gives lib keysym state key = true then
        if key ∈ fakeKeys then
          m.loop lib keysym state (if fallback = 0 then key else fallback) keys
        else key
      else m.loop lib keysym state fallback keys := by
  rw [loop, gives]
  rcases m.translateKeyCode key state with ⟨stateOut, ks⟩
  dsimp only
  by_cases hks : ks = NoSymbol
  · simp only [if_pos hks, Bool.false_eq_true, if_false]
  · simp only [if_neg hks, decide_eq_true_eq, ne_eq, ite_not]

/-- The loop finds the first key that is not fake, or else the first that is. -/
theorem loop_eq (fallback : KeyCode) {keys : List KeyCode} (hkeys : 0 ∉ keys) :
    m.loop lib keysym state fallback keys =
      ((keys.find? fun key => m.gives lib keysym state key && key ∉ fakeKeys).or
        (if fallback = 0 then
          keys.find? fun key => m.gives lib keysym state key && key ∈ fakeKeys
        else some fallback)).getD 0 := by
  induction keys generalizing fallback with
  | nil =>
    by_cases hfallback : fallback = 0
    · simp [loop, hfallback]
    · simp [loop, hfallback]
  | cons key keys ih =>
    rw [List.mem_cons, not_or] at hkeys
    have hkey : key ≠ 0 := Ne.symm hkeys.1
    rw [loop_cons]
    by_cases hgives : m.gives lib keysym state key = true
    · rw [if_pos hgives]
      by_cases hfake : key ∈ fakeKeys
      · rw [if_pos hfake, ih _ hkeys.2]
        by_cases hfallback : fallback = 0
        · simp [hgives, hfake, hfallback, hkey]
        · simp [hgives, hfake, hfallback]
      · rw [if_neg hfake]
        simp [hgives, hfake]
    · rw [if_neg hgives, ih _ hkeys.2]
      simp [hgives]

theorem zero_notMem_keys (m : Keymap) : 0 ∉ m.keys := by
  intro h
  have hle := (mem_keys h).1
  omega

/-- The first call finds what `findKey` finds. -/
theorem keycodeAt_eq (keysym : KeySym) (state : UInt32) :
    m.keycodeAt lib keysym state = (m.findKey lib keysym state).getD 0 :=
  loop_eq 0 m.zero_notMem_keys

theorem keycodeAt_ne_zero_iff :
    m.keycodeAt lib keysym state ≠ 0 ↔ ∃ key, m.findKey lib keysym state = some key := by
  rw [keycodeAt_eq]
  cases h : m.findKey lib keysym state with
  | none => simp
  | some key =>
    refine iff_of_true ?_ ⟨key, rfl⟩
    rintro rfl
    exact m.zero_notMem_keys (findKey_eq_some h).1

/-- A key is found if there is one that gives the symbol, and it is fake only if all are. -/
theorem keycodeAt_spec :
    (m.keycodeAt lib keysym state ≠ 0 ↔ ∃ key, m.Produces lib keysym state key) ∧
      (m.keycodeAt lib keysym state ≠ 0 →
        m.Produces lib keysym state (m.keycodeAt lib keysym state) ∧
          (m.keycodeAt lib keysym state ∈ fakeKeys →
            ∀ key, m.Produces lib keysym state key → key ∈ fakeKeys)) := by
  constructor
  · rw [keycodeAt_ne_zero_iff]
    constructor
    · rintro ⟨key, hkey⟩
      exact ⟨key, findKey_eq_some hkey⟩
    · rintro ⟨key, hmem, hgives⟩
      rw [← Option.isSome_iff_exists, findKey, Option.isSome_or, Bool.or_eq_true,
        List.find?_isSome, List.find?_isSome]
      by_cases hfake : key ∈ fakeKeys
      · exact Or.inr ⟨key, hmem, by simp [hgives, hfake]⟩
      · exact Or.inl ⟨key, hmem, by simp [hgives, hfake]⟩
  · intro hne
    obtain ⟨key, hkey⟩ := keycodeAt_ne_zero_iff.1 hne
    rw [keycodeAt_eq, hkey, Option.getD_some]
    refine ⟨findKey_eq_some hkey, fun hfake other hother => ?_⟩
    by_contra hreal
    rw [findKey, Option.or_eq_some_iff] at hkey
    rcases hkey with hkey | ⟨hnone, -⟩
    · have htest := List.find?_some hkey
      simp [hfake] at htest
    · have htest := List.find?_eq_none.1 hnone other hother.1
      simp [hother.2, hreal] at htest

/-! ### The states -/

@[simp] theorem maskToggled_zero (state : UInt32) : maskToggled 0 state = state := by
  simp [maskToggled, opposite]

@[simp] theorem bothToggled_zero (state : UInt32) : bothToggled 0 state = shiftToggled state := by
  simp [bothToggled, shiftToggled, opposite]

/-- The function gives the key for the first of the states in which there is one. -/
theorem lorieKeysymToKeycode_first (m : Keymap) (lib : Library) (keyboardState : UInt32)
    (keysym : KeySym) (state : UInt32) :
    let l := states (m.lorieGetLevelThreeMask lib keyboardState) state
    let r := m.lorieKeysymToKeycode lib keyboardState keysym state
    r.1 = 0 ∧ (∀ s ∈ l, m.keycodeAt lib keysym s = 0) ∨
      r.1 ≠ 0 ∧ r.1 = m.keycodeAt lib keysym r.2 ∧
        ∃ before after, l = before ++ r.2 :: after ∧
          ∀ s ∈ before, m.keycodeAt lib keysym s = 0 := by
  dsimp only
  generalize hmask : m.lorieGetLevelThreeMask lib keyboardState = mask
  have hloop : m.loop lib keysym state 0 m.keys = m.keycodeAt lib keysym state := rfl
  simp only [lorieKeysymToKeycode, hloop, hmask]
  by_cases hgiven : m.keycodeAt lib keysym state = 0
  swap
  · rw [if_pos hgiven]
    exact Or.inr ⟨hgiven, rfl, [], _, rfl, List.forall_mem_nil _⟩
  rw [if_neg (not_not.2 hgiven)]
  by_cases hshift : m.keycodeAt lib keysym (shiftToggled state) = 0
  swap
  · rw [if_pos hshift]
    exact Or.inr ⟨hshift, rfl, [state], _, rfl, by simpa using hgiven⟩
  rw [if_neg (not_not.2 hshift)]
  by_cases hzero : mask = 0
  · rw [if_pos hzero, hzero]
    exact Or.inl ⟨rfl, by simp [states, hgiven, hshift]⟩
  rw [if_neg hzero]
  by_cases hthree : m.keycodeAt lib keysym (maskToggled mask state) = 0
  swap
  · rw [if_pos hthree]
    exact Or.inr ⟨hthree, rfl, [state, shiftToggled state], _, rfl, by simp [hgiven, hshift]⟩
  rw [if_neg (not_not.2 hthree)]
  by_cases hboth : m.keycodeAt lib keysym (bothToggled mask state) = 0
  · exact Or.inl ⟨hboth, by simp [states, hgiven, hshift, hthree, hboth]⟩
  · refine Or.inr ⟨hboth, rfl, [state, shiftToggled state, maskToggled mask state], [], rfl, ?_⟩
    simp [hgiven, hshift, hthree]

/-- **The search for a symbol is sound and complete.**  For every keymap, symbol, state and state of
the keyboard, a key is found exactly if some key gives the symbol in one of the four states; the
state that is reported is the first of them in which one does, the key gives the symbol in it, and
it is a fake key only if no other key does. -/
theorem lorieKeysymToKeycode_spec (m : Keymap) (lib : Library) (keyboardState : UInt32)
    (keysym : KeySym) (state : UInt32) :
    let mask := m.lorieGetLevelThreeMask lib keyboardState
    let r := m.lorieKeysymToKeycode lib keyboardState keysym state
    (r.1 ≠ 0 ↔ ∃ s ∈ states mask state, ∃ key, m.Produces lib keysym s key) ∧
      (r.1 ≠ 0 → (∃ before after, states mask state = before ++ r.2 :: after ∧
          ∀ s ∈ before, ∀ key, ¬ m.Produces lib keysym s key) ∧
        m.Produces lib keysym r.2 r.1 ∧
        (r.1 ∈ fakeKeys → ∀ key, m.Produces lib keysym r.2 key → key ∈ fakeKeys)) := by
  have hnone : ∀ s, m.keycodeAt lib keysym s = 0 → ∀ key, ¬ m.Produces lib keysym s key := by
    intro s hs key hkey
    exact keycodeAt_spec.1.2 ⟨key, hkey⟩ hs
  rcases lorieKeysymToKeycode_first m lib keyboardState keysym state with
    ⟨hzero, hall⟩ | ⟨hne, hkey, before, after, hstates, hbefore⟩
  · refine ⟨iff_of_false (not_not.2 hzero) ?_, fun h => absurd hzero h⟩
    rintro ⟨s, hs, key, hkey⟩
    exact hnone s (hall s hs) key hkey
  · have hfound := hne
    rw [hkey] at hfound
    obtain ⟨hproduces, hfake⟩ := keycodeAt_spec.2 hfound
    rw [← hkey] at hproduces hfake
    refine ⟨iff_of_true hne ⟨_, ?_, _, hproduces⟩, fun _ => ⟨?_, hproduces, hfake⟩⟩
    · rw [hstates]
      exact List.mem_append_right _ List.mem_cons_self
    · exact ⟨before, after, hstates, fun s hs => hnone s (hbefore s hs)⟩

/-! ### The keyboard in the state that is asked for -/

theorem keycodeAt_eq_zero_iff :
    m.keycodeAt lib keysym state = 0 ↔ m.findKey lib keysym state = none := by
  rw [← not_iff_not, ← ne_eq, keycodeAt_ne_zero_iff, ← ne_eq, Option.ne_none_iff_exists']

theorem keycodeAt_of_findKey {key : KeyCode} (h : m.findKey lib keysym state = some key) :
    m.keycodeAt lib keysym state = key ∧ key ≠ 0 := by
  have hkey : m.keycodeAt lib keysym state = key := by rw [keycodeAt_eq, h, Option.getD_some]
  refine ⟨hkey, ?_⟩
  rw [← hkey]
  exact keycodeAt_ne_zero_iff.2 ⟨key, h⟩

/-- The mask is that of the first key that is found for one of the two symbols. -/
theorem lorieGetLevelThreeMask_eq (state : UInt32) :
    m.lorieGetLevelThreeMask lib state = m.levelThreeMask lib state := by
  have haction : ∀ key group, (m.setModsMask key group).getD 0 =
      match m.keyAction key group with
      | some (.setMods useModMapMods mask) => if useModMapMods then m.modmap key else mask
      | _ => 0 := by
    intro key group
    unfold setModsMask
    cases m.keyAction key group with
    | none => rfl
    | some action =>
      cases action with
      | setMods useModMapMods mask => rfl
      | lockMods useModMapMods mask => rfl
      | other => rfl
  unfold lorieGetLevelThreeMask levelThreeMask
  dsimp only
  cases hlevel : m.findKey lib XK_ISO_Level3_Shift (state &&& ~~~0xff) with
  | some key =>
    obtain ⟨hkey, hne⟩ := keycodeAt_of_findKey hlevel
    rw [hkey, if_neg hne, if_neg hne, Option.some_or]
    exact (haction key _).symm
  | none =>
    rw [keycodeAt_eq_zero_iff.2 hlevel, if_pos rfl, Option.none_or]
    cases hmode : m.findKey lib XK_Mode_switch (state &&& ~~~0xff) with
    | some key =>
      obtain ⟨hkey, hne⟩ := keycodeAt_of_findKey hmode
      rw [hkey, if_neg hne]
      exact (haction key _).symm
    | none =>
      rw [keycodeAt_eq_zero_iff.2 hmode]
      rfl

/-- What the function gives where the keyboard is in the state. -/
theorem lorieKeysymToKeycode_eq (keysym : KeySym) (state : UInt32) :
    m.keysymToKeycode lib keysym state =
      let r := m.lorieKeysymToKeycode lib state keysym state
      if r.1 = 0 then none else some r := by
  have hattempt : ∀ s, (m.findKey lib keysym s).map (fun key => (key, s)) =
      if m.keycodeAt lib keysym s = 0 then none else some (m.keycodeAt lib keysym s, s) := by
    intro s
    cases h : m.findKey lib keysym s with
    | none => rw [if_pos (keycodeAt_eq_zero_iff.2 h), Option.map_none]
    | some key =>
      obtain ⟨hkey, hne⟩ := keycodeAt_of_findKey h
      rw [hkey, if_neg hne, Option.map_some]
  have hloop : m.loop lib keysym state 0 m.keys = m.keycodeAt lib keysym state := rfl
  unfold keysymToKeycode lorieKeysymToKeycode
  simp only [hattempt, hloop, lorieGetLevelThreeMask_eq]
  generalize m.levelThreeMask lib state = mask
  have hshift : state &&& ~~~ShiftMask ||| opposite state ShiftMask = shiftToggled state := rfl
  have hthree : state &&& ~~~mask ||| opposite state mask = maskToggled mask state := rfl
  have hboth : state &&& ~~~(ShiftMask ||| mask) ||| opposite state ShiftMask |||
      opposite state mask = bothToggled mask state := rfl
  rw [hshift, hthree, hboth]
  by_cases h₁ : m.keycodeAt lib keysym state = 0
  swap
  · simp [h₁]
  by_cases h₂ : m.keycodeAt lib keysym (shiftToggled state) = 0
  swap
  · simp [h₁, h₂]
  by_cases hzero : mask = 0
  · simp [h₁, h₂, hzero]
  by_cases h₃ : m.keycodeAt lib keysym (maskToggled mask state) = 0
  · simp [h₁, h₂, hzero, h₃]
  · simp [h₁, h₂, hzero, h₃]

end Keymap

end TermuxX11.Server.Xkb
