import TermuxX11.Server.Keysym
import TermuxX11.Server.KeysymSearch
import TermuxX11.Server.Lookups

/-!
# Keys that NumLock changes

`lorieIsAffectedByNumLock` looks for a key that gives `Num_Lock`, and asks whether the type of a key
uses one of the modifiers that the action of the other locks.  These are either in the action or,
if it says so, in the modifier map, and there the function looks up the wrong key of the two.
-/

namespace TermuxX11.Server.Xkb

namespace Keymap

variable (m : Keymap) (lib : Library)

/-- The type of a key in its effective group. -/
def effectiveType (keycode : KeyCode) (state : UInt32) : KeyType :=
  (m.key keycode).types.getD (m.xkbKeyEffectiveGroup keycode state) default

/-- `lorieIsAffectedByNumLock`, for the state that `lorieGetKeyboardState` gives. -/
def lorieIsAffectedByNumLock (keyboardState : UInt32) (keycode : KeyCode) : ℤ :=
  let state := keyboardState &&& ~~~0xff
  let numlockKeycode := m.keycodeAt lib XK_Num_Lock state
  if numlockKeycode = 0 then 0
  else
    match m.xkbKeyActionPtr numlockKeycode state with
    | some (_, .lockMods useModMapMods mask) =>
      -- not the modifiers of `numlockKeycode`
      let numlockMask := if useModMapMods then m.modmap keycode else mask
      if (m.effectiveType keycode state).mods &&& numlockMask = 0 then 0 else 1
    | _ => 0

/-- The key that is found for `Num_Lock` in a group, and its action, which locks modifiers. -/
structure LocksMods (state : UInt32) (numlock : KeyCode) (useModMapMods : Bool) (mask : UInt32) :
    Prop where
  produces : m.Produces lib XK_Num_Lock state numlock
  found : m.keycodeAt lib XK_Num_Lock state = numlock
  action : ∃ cell, m.xkbKeyActionPtr numlock state = some (cell, .lockMods useModMapMods mask)

/-- The type of the key uses one of the modifiers that the `Num_Lock` key locks. -/
def UsesNumLock (keyboardState : UInt32) (keycode : KeyCode) : Prop :=
  let state := keyboardState &&& ~~~0xff
  ∃ numlock useModMapMods mask, m.LocksMods lib state numlock useModMapMods mask ∧
    (m.effectiveType keycode state).mods &&&
      (if useModMapMods then m.modmap numlock else mask) ≠ 0

/-- The `Num_Lock` key locks the modifiers of its modifier map, and the type of the key uses some of
these and none of its own, or the other way round. -/
def MapsDiffer (keyboardState : UInt32) (keycode : KeyCode) : Prop :=
  let state := keyboardState &&& ~~~0xff
  ∃ numlock mask, m.LocksMods lib state numlock true mask ∧
    ¬ ((m.effectiveType keycode state).mods &&& m.modmap keycode ≠ 0 ↔
      (m.effectiveType keycode state).mods &&& m.modmap numlock ≠ 0)

variable {m lib} {state : UInt32} {keycode : KeyCode}

theorem LocksMods.unique {numlock numlock' : KeyCode} {use use' : Bool} {mask mask' : UInt32}
    (h : m.LocksMods lib state numlock use mask) (h' : m.LocksMods lib state numlock' use' mask') :
    numlock = numlock' ∧ use = use' ∧ mask = mask' := by
  obtain rfl : numlock = numlock' := h.found.symm.trans h'.found
  obtain ⟨cell, hcell⟩ := h.action
  obtain ⟨cell', hcell'⟩ := h'.action
  have heq := Option.some.inj (hcell.symm.trans hcell')
  obtain ⟨-, haction⟩ := Prod.mk.inj heq
  obtain ⟨huse, hmask⟩ := Action.lockMods.inj haction
  exact ⟨rfl, huse, hmask⟩

theorem LocksMods.exists_iff {numlock : KeyCode} {use : Bool} {mask : UInt32}
    (h : m.LocksMods lib state numlock use mask) (P : KeyCode → Bool → UInt32 → Prop) :
    (∃ numlock' use' mask', m.LocksMods lib state numlock' use' mask' ∧ P numlock' use' mask') ↔
      P numlock use mask := by
  constructor
  · rintro ⟨numlock', use', mask', h', hP⟩
    obtain ⟨rfl, rfl, rfl⟩ := h.unique h'
    exact hP
  · exact fun hP => ⟨numlock, use, mask, h, hP⟩

/-- What the function decides by. -/
theorem lorieIsAffectedByNumLock_eq_one_iff (keyboardState : UInt32) :
    m.lorieIsAffectedByNumLock lib keyboardState keycode = 1 ↔
      ∃ numlock useModMapMods mask,
        m.LocksMods lib (keyboardState &&& ~~~0xff) numlock useModMapMods mask ∧
          (m.effectiveType keycode (keyboardState &&& ~~~0xff)).mods &&&
            (if useModMapMods then m.modmap keycode else mask) ≠ 0 := by
  rw [lorieIsAffectedByNumLock]
  dsimp only
  generalize keyboardState &&& ~~~0xff = state
  constructor
  · intro h
    split_ifs at h with hzero
    · exact absurd h (by decide)
    · split at h
      next cell use mask haction =>
        refine ⟨_, use, mask, ⟨(keycodeAt_spec.2 hzero).1, rfl, cell, haction⟩, fun hmods => ?_⟩
        rw [if_pos hmods] at h
        exact absurd h (by decide)
      next => exact absurd h (by decide)
  · rintro ⟨numlock, use, mask, hlocks, hmods⟩
    have hne : m.keycodeAt lib XK_Num_Lock state ≠ 0 :=
      keycodeAt_spec.1.2 ⟨numlock, hlocks.produces⟩
    obtain ⟨cell, haction⟩ := hlocks.action
    rw [if_neg hne, hlocks.found, haction]
    exact if_neg hmods

/-- A key that gives a symbol is in range and has a group. -/
theorem gives_groups {keysym : KeySym} {key : KeyCode}
    (h : m.gives lib keysym state key = true) :
    m.keycodeInRange key = true ∧ (m.key key).numGroups ≠ 0 := by
  by_contra hnot
  have hearly : (!m.keycodeInRange key || (m.key key).numGroups == 0) = true := by
    rw [Bool.or_eq_true, Bool.not_eq_true', beq_iff_eq]
    rw [not_and_or, not_not, Bool.not_eq_true] at hnot
    exact hnot
  have hnone : m.translateKeyCode key state = (0, NoSymbol) := by
    rw [translateKeyCode, if_pos hearly]
  rw [gives, hnone] at h
  exact Bool.false_ne_true h

/-- The two keys of the function have groups and are in range, so that it gives what
`isAffectedByNumLock` says. -/
theorem isAffectedByNumLock_eq (hrange : m.keycodeInRange keycode = true)
    (hgroups : (m.key keycode).numGroups ≠ 0) (state : UInt32) :
    m.isAffectedByNumLock lib state keycode =
      decide (m.lorieIsAffectedByNumLock lib state keycode = 1) := by
  have htype : m.effectiveType keycode (state &&& ~~~0xff) =
      (m.key keycode).type (state &&& ~~~0xff) := by
    rw [effectiveType, xkbKeyEffectiveGroup_eq hrange hgroups]
    rfl
  rw [isAffectedByNumLock, lorieIsAffectedByNumLock]
  dsimp only
  rw [htype]
  cases hfind : m.findKey lib XK_Num_Lock (state &&& ~~~0xff) with
  | none =>
    rw [if_pos (keycodeAt_eq_zero_iff.2 hfind)]
    rfl
  | some numlock =>
    obtain ⟨hkey, hne⟩ := keycodeAt_of_findKey hfind
    obtain ⟨hnumlock, hnumlockGroups⟩ := gives_groups (findKey_eq_some hfind).2
    rw [hkey, if_neg hne, xkbKeyActionPtr_eq hnumlock hnumlockGroups]
    dsimp only
    cases m.keyAction numlock (state &&& ~~~0xff) with
    | none => rfl
    | some action =>
      cases action with
      | lockMods use mask =>
        show decide (_ ≠ 0) = decide ((if _ = 0 then (0 : ℤ) else 1) = 1)
        generalize ((m.key keycode).type (state &&& ~~~0xff)).mods &&&
          (if use = true then m.modmap keycode else mask) = used
        by_cases hused : used = 0
        · simp [hused]
        · simp [hused]
      | setMods use mask => rfl
      | other => rfl

/-- **NumLock dependence is decided by the `Num_Lock` key** if and only if the modifier maps of the
two keys do not matter or do not differ for the type. -/
theorem lorieIsAffectedByNumLock_correct_iff (m : Keymap) (lib : Library) (keyboardState : UInt32)
    (keycode : KeyCode) :
    (m.lorieIsAffectedByNumLock lib keyboardState keycode = 1 ↔
        m.UsesNumLock lib keyboardState keycode) ↔
      ¬ m.MapsDiffer lib keyboardState keycode := by
  rw [lorieIsAffectedByNumLock_eq_one_iff, UsesNumLock, MapsDiffer]
  generalize keyboardState &&& ~~~0xff = state
  by_cases hkey : ∃ numlock use mask, m.LocksMods lib state numlock use mask
  · obtain ⟨numlock, use, mask, hlocks⟩ := hkey
    rw [hlocks.exists_iff fun _ use mask => (m.effectiveType keycode state).mods &&&
        (if use then m.modmap keycode else mask) ≠ 0,
      hlocks.exists_iff fun numlock use mask => (m.effectiveType keycode state).mods &&&
        (if use then m.modmap numlock else mask) ≠ 0]
    cases use with
    | true =>
      rw [if_pos rfl, if_pos rfl]
      constructor
      · rintro hsame ⟨numlock', mask', hlocks', hdiffer⟩
        obtain ⟨rfl, -, -⟩ := hlocks.unique hlocks'
        exact hdiffer hsame
      · intro hnot
        by_contra hdiffer
        exact hnot ⟨numlock, mask, hlocks, hdiffer⟩
    | false =>
      refine iff_of_true Iff.rfl ?_
      rintro ⟨numlock', mask', hlocks', -⟩
      obtain ⟨-, huse, -⟩ := hlocks.unique hlocks'
      exact absurd huse (by decide)
  · -- without such a key all three fail
    refine iff_of_true (iff_of_false ?_ ?_) ?_
    · rintro ⟨numlock, use, mask, hlocks, -⟩
      exact hkey ⟨numlock, use, mask, hlocks⟩
    · rintro ⟨numlock, use, mask, hlocks, -⟩
      exact hkey ⟨numlock, use, mask, hlocks⟩
    · rintro ⟨numlock, mask, hlocks, -⟩
      exact hkey ⟨numlock, true, mask, hlocks⟩

/-- A keyboard whose `Num_Lock` key locks the modifiers of its modifier map, and a key of the
numeric pad, which is on no map. -/
def numpad : Keymap :=
  { Keysym.danish with
    key := fun key =>
      if key = 77 then
        { numGroups := 1
          width := 1
          types := [{}]
          syms := [XK_Num_Lock]
          actions := some [.lockMods true 0x10] }
      else if key = 87 then
        { numGroups := 1
          width := 2
          types := [{ mods := ShiftMask ||| 0x10
                      map := [{ mods := ShiftMask, level := 1 }, { mods := 0x10, level := 1 }] }]
          syms := [0xff9c, 0xffb1] }
      else {}
    modmap := fun key => if key = 77 then 0x10 else 0 }

/-- `Num_Lock` changes the key of the pad, and the function says that it does not. -/
theorem numpad_key_not_affected :
    (numpad.key 87).numGroups = 1 ∧
      numpad.lorieIsAffectedByNumLock Keysym.asciiLibrary 0 87 = 0 ∧
      numpad.UsesNumLock Keysym.asciiLibrary 0 87 := by
  have hfound : numpad.keycodeAt Keysym.asciiLibrary XK_Num_Lock (0 &&& ~~~0xff) = 77 := by
    decide +kernel
  have hgives : numpad.gives Keysym.asciiLibrary XK_Num_Lock (0 &&& ~~~0xff) 77 = true := by
    decide +kernel
  refine ⟨rfl, by decide +kernel, 77, true, 0x10, ⟨⟨?_, hgives⟩, hfound, ?_⟩, by decide +kernel⟩
  · decide +kernel
  · exact ⟨⟨0, 0⟩, rfl⟩

end Keymap

end TermuxX11.Server.Xkb
