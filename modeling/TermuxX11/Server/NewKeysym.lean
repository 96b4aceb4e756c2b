import TermuxX11.Server.AddedKeysyms
import TermuxX11.Server.KeysymSearch
import TermuxX11.Server.Lookups

/-!
# A new symbol can be typed

`lorieAddKeysym` puts the two cases of a symbol on the two levels of a key with the type
`ALPHABETIC`, in its first and only group.  `lorieKeysymToKeycode` is then called again, and has to
find the symbol there with the state as it is or with Shift the other way.

This rests on the type using up Lock: the search writes a symbol in capitals where Lock is left.
-/

namespace TermuxX11.Server.Keysym

open Run Xkb

/-- A type that goes by Shift and Lock: a state with just one of them gives the second level, and
any other the first. -/
structure Alphabetic (type : KeyType) : Prop where
  mods : type.mods = ShiftMask ||| LockMask
  level_one : ∀ state, (state &&& ShiftMask = 0 ↔ state &&& LockMask = 0) → type.level state = 0
  level_two : ∀ state, ¬ (state &&& ShiftMask = 0 ↔ state &&& LockMask = 0) → type.level state = 1

/-- The type that a key is given. -/
def newType (lib : Library) (m : Keymap) (key : KeyCode) : KeyType :=
  ((lib.changeTypesOfKey m key).key key).types.getD 0 default

/-- `XkbChangeTypesOfKey` gives a key the type `ALPHABETIC`. -/
structure AddsAlphabetic (lib : Library) : Prop extends ChangesOneKey lib where
  alphabetic : ∀ m key, Alphabetic (newType lib m key)

/-- The type does not preserve Lock. -/
def UsesUpLock (lib : Library) : Prop :=
  ∀ m key state, (newType lib m key).preserved state &&& LockMask = 0

/-- The keys on the list that have a group are keys of the keyboard. -/
def Listed (m : Keymap) (added : List (KeyCode × KeySym)) : Prop :=
  ∀ a ∈ added, (m.key a.1).numGroups ≠ 0 → a.1 ∈ m.keys

/-! ### Shift and Lock -/

/-- The modifiers that are not those of the mask stay. -/
theorem maskToggled_and {mask other : UInt32} (h : mask &&& other = 0) (state : UInt32) :
    Keymap.maskToggled mask state &&& other = state &&& other := by
  have hbit : ∀ i (hi : i < 32), (mask.toBitVec[i] && other.toBitVec[i]) = false := by
    intro i hi
    have hzero := congrArg (fun w : UInt32 => w.toBitVec[i]) h
    simpa using hzero
  rw [Keymap.maskToggled, Keymap.opposite, ← UInt32.toBitVec_inj]
  ext i hi
  have hdisjoint := hbit i hi
  split_ifs
  · cases hother : other.toBitVec[i] <;> simp_all
  · cases hother : other.toBitVec[i] <;> simp_all

theorem maskToggled_and_self (mask state : UInt32) :
    Keymap.maskToggled mask state &&& mask = Keymap.opposite state mask := by
  rw [Keymap.maskToggled, Keymap.opposite, ← UInt32.toBitVec_inj]
  ext i hi
  split_ifs
  · simp
  · cases hmask : mask.toBitVec[i] <;> simp [hmask]

/-- Only Shift is the other way. -/
theorem shiftToggled_spec (state : UInt32) :
    (Keymap.shiftToggled state &&& ShiftMask = 0 ↔ ¬ state &&& ShiftMask = 0) ∧
      Keymap.shiftToggled state &&& LockMask = state &&& LockMask ∧
      Keymap.shiftToggled state &&& ~~~ShiftMask = state &&& ~~~ShiftMask := by
  refine ⟨?_, maskToggled_and (by decide) state, maskToggled_and (by decide) state⟩
  have hself : Keymap.shiftToggled state &&& ShiftMask = Keymap.opposite state ShiftMask :=
    maskToggled_and_self ShiftMask state
  rw [hself, Keymap.opposite]
  split_ifs with h
  · exact iff_of_true rfl h
  · exact iff_of_false (by decide) h

/-! ### A key is added -/

section

variable {lib : Library} {m : Keymap} {added : List (KeyCode × KeySym)} {keysym : KeySym}
  {key : KeyCode}

/-- The keycode that is used again is on the list and has a group. -/
theorem getReusableKeycode_mem (h : (m.getReusableKeycode added).1 = some key) :
    ∃ a ∈ added, a.1 = key ∧ (m.key key).numGroups ≠ 0 := by
  unfold Keymap.getReusableKeycode at h
  dsimp only at h
  obtain ⟨a, ha, rfl⟩ := Option.map_eq_some_iff.1 h
  rw [← List.find?_eq_head?_dropWhile_not] at ha
  have htest := List.find?_some ha
  rw [Bool.and_eq_true, Bool.and_eq_true, decide_eq_true_eq] at htest
  exact ⟨a, List.mem_reverse.1 (List.mem_of_find?_eq_some ha), rfl, htest.1.1.ne'⟩

theorem getReusableKeycode_subset (m : Keymap) (added : List (KeyCode × KeySym)) :
    (m.getReusableKeycode added).2 ⊆ added := by
  intro a ha
  have hmem := List.mem_of_mem_tail (List.mem_reverse.1 ha)
  exact List.mem_reverse.1 ((List.dropWhile_sublist _).subset hmem)

/-- The symbol is put on a key of the keyboard, and the other entries were on the list before. -/
theorem addKeysym_of_listed (h : Listed m added)
    (hkey : (m.addKeysym lib added keysym).2.2 = some key) :
    key ∈ m.keys ∧ ∃ rest, rest ⊆ added ∧ m.addKeysym lib added keysym =
      (putSymbol lib m key keysym, (key, (lib.convertCase keysym).1) :: rest, some key) := by
  rcases addKeysym_forms lib m added keysym with
    ⟨free, hmem, -, heq⟩ | ⟨-, ⟨-, heq⟩ | ⟨reused, hreuse, heq⟩⟩
  · rw [heq] at hkey
    obtain rfl := Option.some.inj hkey
    exact ⟨hmem, added, List.Subset.refl _, heq⟩
  · rw [heq] at hkey
    cases hkey
  · rw [heq] at hkey
    obtain rfl := Option.some.inj hkey
    obtain ⟨a, ha, rfl, hgroups⟩ := getReusableKeycode_mem hreuse
    exact ⟨h a ha hgroups, _, getReusableKeycode_subset m added, heq⟩

/-- Where no key is found for the symbol, the keymap stays. -/
theorem addKeysym_none (hkey : (m.addKeysym lib added keysym).2.2 = none) :
    (m.addKeysym lib added keysym).1 = m ∧ (m.addKeysym lib added keysym).2.1 ⊆ added := by
  rcases addKeysym_forms lib m added keysym with
    ⟨free, -, -, heq⟩ | ⟨-, ⟨-, heq⟩ | ⟨reused, -, heq⟩⟩
  · rw [heq] at hkey
    cases hkey
  · rw [heq]
    exact ⟨rfl, getReusableKeycode_subset m added⟩
  · rw [heq] at hkey
    cases hkey

theorem keys_putSymbol (hlib : ChangesOneKey lib) : (putSymbol lib m key keysym).keys = m.keys := by
  have hmin : (putSymbol lib m key keysym).min_key_code = m.min_key_code := hlib.min_key_code m key
  have hmax : (putSymbol lib m key keysym).max_key_code = m.max_key_code := hlib.max_key_code m key
  rw [Keymap.keys, Keymap.keys, hmin, hmax]

/-- The server keeps no groups for keys that are out of range. -/
theorem listed_of_outside (h : ∀ key, key ∉ m.keys → (m.key key).numGroups = 0) :
    Listed m added := by
  intro a _ hgroups
  by_contra hmem
  exact hgroups (h a.1 hmem)

/-- A new symbol leaves the keys of the list on the keyboard. -/
theorem Listed.add (hlib : ChangesOneKey lib) (h : Listed m added) (keysym : KeySym) :
    Listed (m.addKeysym lib added keysym).1 (m.addKeysym lib added keysym).2.1 := by
  cases hkey : (m.addKeysym lib added keysym).2.2 with
  | none =>
    obtain ⟨hkeymap, hsubset⟩ := addKeysym_none hkey
    rw [hkeymap]
    exact fun a ha => h a (hsubset ha)
  | some key =>
    obtain ⟨hmem, rest, hsubset, heq⟩ := addKeysym_of_listed h hkey
    rw [heq]
    intro a ha hgroups
    rw [keys_putSymbol hlib]
    by_cases hkey : a.1 = key
    · exact hkey ▸ hmem
    · rw [key_putSymbol_of_ne hlib hkey] at hgroups
      rcases List.mem_cons.1 ha with rfl | hold
      · exact absurd rfl hkey
      · exact h a (hsubset hold) hgroups

/-- The list has keys of the keyboard in every run. -/
theorem listed_typed (hlib : ChangesOneKey lib) (first : Keymap) (cs : List Character) :
    Listed (typed lib first cs).state.keymap (typed lib first cs).state.addedKeysyms := by
  refine List.foldlRecOn cs (Typed.step lib)
    (motive := fun t => Listed t.state.keymap t.state.addedKeysyms) ?_ ?_
  · intro a ha
    cases ha
  intro t ht c _
  have hfind : Listed (findKeycode lib t.state c.state (lib.ucs2keysym c.code)).1.keymap
      (findKeycode lib t.state c.state (lib.ucs2keysym c.code)).1.addedKeysyms := by
    rcases findKeycode_added lib t.state c.state (lib.ucs2keysym c.code) with
      ⟨found, -, heq⟩ | ⟨-, hkeymap, hadded⟩
    · rw [heq]
      exact ht
    · rw [hkeymap, hadded]
      exact ht.add hlib _
  obtain ⟨hkeymap, hadded⟩ := t.step_added lib c
  rw [hkeymap, hadded]
  cases usedKey lib c.state c.down t.state (lib.ucs2keysym c.code) with
  | none => exact hfind
  | some key => exact fun a ha => hfind a (mem_onKeyUsed ha)

/-! ### The search finds it -/

theorem keycodeInRange_of_mem {key : ℕ} (h : key ∈ m.keys) : m.keycodeInRange key = true := by
  rw [Keymap.keys, List.mem_range'_1] at h
  have hle : key ≤ m.max_key_code := by omega
  rw [Keymap.keycodeInRange, Bool.and_eq_true, decide_eq_true_eq, decide_eq_true_eq]
  exact ⟨h.1, hle⟩

/-- A key with one group has its first group in effect in every state. -/
theorem effectiveGroup_eq_zero {k : Key} (h : k.numGroups = 1) (state : UInt32) :
    k.effectiveGroup state = 0 := by
  have hlt := Key.effectiveGroup_lt (by rw [h]; decide) state
  omega

/-- Lock is among the modifiers of the type and is not preserved. -/
theorem lock_used_up {preserved : UInt32} (h : preserved &&& LockMask = 0) (state : UInt32) :
    state &&& ~~~((ShiftMask ||| LockMask) &&& ~~~preserved) &&& LockMask = 0 := by
  have hlock : ∀ i (hi : i < 32), LockMask.toBitVec[i] = true →
      preserved.toBitVec[i] = false := by
    intro i hi hbit
    have hzero := congrArg (fun w : UInt32 => w.toBitVec[i]) h
    simpa [hbit] using hzero
  rw [← UInt32.toBitVec_inj]
  ext i hi
  cases hbit : LockMask.toBitVec[i] with
  | false => simp [hbit]
  | true => simp [hbit, hlock i hi hbit]

/-- What the new key gives in a state: Lock is used up, and the level chooses the case. -/
theorem translateKeyCode_putSymbol (hlib : AddsAlphabetic lib) (hlock : UsesUpLock lib)
    (hmem : key ∈ m.keys) (keysym : KeySym) (state : UInt32) :
    ∃ stateOut, state &&& ~~~stateOut &&& LockMask = 0 ∧
      (putSymbol lib m key keysym).translateKeyCode key state =
        (stateOut, if state &&& ShiftMask = 0 ↔ state &&& LockMask = 0 then
          (lib.convertCase keysym).1 else (lib.convertCase keysym).2) := by
  have hkey : (putSymbol lib m key keysym).key key =
      { (lib.changeTypesOfKey m key).key key with
        syms := (((lib.changeTypesOfKey m key).key key).syms.set 0 (lib.convertCase keysym).1).set 1
          (lib.convertCase keysym).2 } :=
    Function.update_self _ _ _
  have hone : ((putSymbol lib m key keysym).key key).numGroups = 1 := by
    rw [hkey]
    exact hlib.numGroups m key
  have hrange : (putSymbol lib m key keysym).keycodeInRange key = true :=
    keycodeInRange_of_mem ((keys_putSymbol hlib.toChangesOneKey).symm ▸ hmem)
  have htype : ((putSymbol lib m key keysym).key key).type state = newType lib m key := by
    rw [Key.type, effectiveGroup_eq_zero hone, hkey, newType]
  have hcol : ((putSymbol lib m key keysym).key key).col state =
      (newType lib m key).level state := by
    rw [Key.col_eq, htype, effectiveGroup_eq_zero hone, zero_mul, zero_add]
  have halphabetic := hlib.alphabetic m key
  refine ⟨(newType lib m key).mods &&& ~~~(newType lib m key).preserved state, ?_, ?_⟩
  · rw [halphabetic.mods]
    exact lock_used_up (hlock m key state) state
  · have hgroups : ((putSymbol lib m key keysym).key key).numGroups ≠ 0 := by
      rw [hone]
      decide
    rw [Keymap.translateKeyCode, if_neg (Keymap.not_early hrange hgroups)]
    dsimp only
    rw [htype, hcol, hkey]
    refine Prod.ext rfl ?_
    show List.getD (List.set (List.set _ 0 _) 1 _) _ _ = _
    have hroom := hlib.two_le m key
    split_ifs with hcase
    · rw [halphabetic.level_one state hcase]
      have hzero : 0 < ((lib.changeTypesOfKey m key).key key).syms.length := by omega
      simp [hzero]
    · rw [halphabetic.level_two state hcase]
      have hone : 1 < ((lib.changeTypesOfKey m key).key key).syms.length := by omega
      simp [hone]

/-- **A new symbol is given** by its key in the state as it is, or with Shift the other way. -/
theorem gives_putSymbol (hlib : AddsAlphabetic lib) (hlock : UsesUpLock lib) (hmem : key ∈ m.keys)
    (hne : keysym ≠ NoSymbol)
    (hcase : keysym = (lib.convertCase keysym).1 ∨ keysym = (lib.convertCase keysym).2)
    (state : UInt32) :
    (putSymbol lib m key keysym).gives lib keysym state key = true ∨
      (putSymbol lib m key keysym).gives lib keysym (Keymap.shiftToggled state) key = true := by
  have hgives : ∀ s, (if s &&& ShiftMask = 0 ↔ s &&& LockMask = 0 then
      (lib.convertCase keysym).1 else (lib.convertCase keysym).2) = keysym →
        (putSymbol lib m key keysym).gives lib keysym s key = true := by
    intro s hs
    obtain ⟨stateOut, hused, htranslate⟩ := translateKeyCode_putSymbol hlib hlock hmem keysym s
    rw [Keymap.gives, htranslate, hs]
    dsimp only
    rw [if_neg hne, if_neg (not_not.2 hused), decide_eq_true rfl]
  obtain ⟨hshift, hother, -⟩ := shiftToggled_spec state
  have hchange : (Keymap.shiftToggled state &&& ShiftMask = 0 ↔
      Keymap.shiftToggled state &&& LockMask = 0) ↔
        ¬ (state &&& ShiftMask = 0 ↔ state &&& LockMask = 0) := by
    rw [hshift, hother]
    exact not_iff.symm
  by_cases hlevel : state &&& ShiftMask = 0 ↔ state &&& LockMask = 0
  · rcases hcase with hlower | hupper
    · exact Or.inl (hgives state (by rw [if_pos hlevel, ← hlower]))
    · refine Or.inr (hgives _ ?_)
      rw [if_neg fun h => hchange.1 h hlevel, ← hupper]
  · rcases hcase with hlower | hupper
    · refine Or.inr (hgives _ ?_)
      rw [if_pos (hchange.2 hlevel), ← hlower]
    · exact Or.inl (hgives state (by rw [if_neg hlevel, ← hupper]))

end

section

variable {lib : Library}

/-- Where a key is found for the state or with Shift the other way, level three is not tried. -/
theorem lorieKeysymToKeycode_of_shift {m : Keymap} {keysym : KeySym} {state : UInt32}
    (keyboardState : UInt32)
    (h : m.keycodeAt lib keysym state ≠ 0 ∨
      m.keycodeAt lib keysym (Keymap.shiftToggled state) ≠ 0) :
    (m.lorieKeysymToKeycode lib keyboardState keysym state).1 ≠ 0 ∧
      ((m.lorieKeysymToKeycode lib keyboardState keysym state).2 = state ∨
        (m.lorieKeysymToKeycode lib keyboardState keysym state).2 =
          Keymap.shiftToggled state) := by
  have hloop : m.loop lib keysym state 0 m.keys = m.keycodeAt lib keysym state := rfl
  unfold Keymap.lorieKeysymToKeycode
  dsimp only
  rw [hloop]
  by_cases hgiven : m.keycodeAt lib keysym state = 0
  · have hshift := h.resolve_left (not_not.2 hgiven)
    rw [if_neg (not_not.2 hgiven), if_pos hshift]
    exact ⟨hshift, Or.inr rfl⟩
  · rw [if_pos hgiven]
    exact ⟨hgiven, Or.inl rfl⟩

/-- The search finds the symbol that was put on a key. -/
theorem lorieKeysymToKeycode_putSymbol (hlib : AddsAlphabetic lib) (hlock : UsesUpLock lib)
    {m : Keymap} {key : KeyCode} (hmem : key ∈ m.keys) {keysym : KeySym} (hne : keysym ≠ NoSymbol)
    (hcase : keysym = (lib.convertCase keysym).1 ∨ keysym = (lib.convertCase keysym).2)
    (keyboardState state : UInt32) :
    let r := (putSymbol lib m key keysym).lorieKeysymToKeycode lib keyboardState keysym state
    r.1 ≠ 0 ∧ (r.2 = state ∨ r.2 = Keymap.shiftToggled state) := by
  have hkeys : key ∈ (putSymbol lib m key keysym).keys := by
    rw [keys_putSymbol hlib.toChangesOneKey]
    exact hmem
  refine lorieKeysymToKeycode_of_shift keyboardState ?_
  refine (gives_putSymbol hlib hlock hmem hne hcase state).imp ?_ ?_
  · exact fun hgives => Keymap.keycodeAt_spec.1.2 ⟨key, hkeys, hgives⟩
  · exact fun hgives => Keymap.keycodeAt_spec.1.2 ⟨key, hkeys, hgives⟩

/-- **A new symbol can be typed.**  For every keymap, every state of the keyboard, with any
modifiers and in any group, and every symbol but `NoSymbol`: if a key is added for the symbol, the
search finds a key for it, in the state as it is or with Shift the other way, and
`lorieKeysymKeyboardEvent` goes on with a key.  The type of the new key must not preserve Lock. -/
theorem newKeysym_typed (hlib : AddsAlphabetic lib) (hlock : UsesUpLock lib) (s : State)
    (hlisted : Listed s.keymap s.addedKeysyms) {keysym : KeySym} (hne : keysym ≠ NoSymbol)
    (hcase : keysym = (lib.convertCase keysym).1 ∨ keysym = (lib.convertCase keysym).2)
    (keyboardState state : UInt32)
    (hadded : (s.keymap.addKeysym lib s.addedKeysyms keysym).2.2 ≠ none) :
    let r := (s.keymap.addKeysym lib s.addedKeysyms keysym).1.lorieKeysymToKeycode lib
      keyboardState keysym state
    r.1 ≠ 0 ∧ (r.2 = state ∨ r.2 = Keymap.shiftToggled state) ∧
      r.2 &&& ~~~ShiftMask = state &&& ~~~ShiftMask ∧
      (findKeycode lib s state keysym).2 ≠ none := by
  obtain ⟨key, hkey⟩ := Option.ne_none_iff_exists'.1 hadded
  obtain ⟨hmem, rest, -, heq⟩ := addKeysym_of_listed hlisted hkey
  have hfound := lorieKeysymToKeycode_putSymbol hlib hlock hmem hne hcase
  rw [heq]
  obtain ⟨hne, hstate⟩ := hfound keyboardState state
  refine ⟨hne, hstate, ?_, ?_⟩
  · rcases hstate with hsame | hshift
    · rw [hsame]
    · rw [hshift]
      exact (shiftToggled_spec state).2.2
  · rw [findKeycode]
    split
    · exact Option.some_ne_none _
    · rw [heq]
      show (putSymbol lib s.keymap key keysym).keysymToKeycode lib keysym state ≠ none
      rw [Keymap.lorieKeysymToKeycode_eq]
      dsimp only
      rw [if_neg (hfound state state).1]
      exact Option.some_ne_none _

end

/-! ### Types with Shift and Lock -/

theorem level_and_mods (type : KeyType) (state : UInt32) :
    type.level (state &&& type.mods) = type.level state := by
  have hentry : type.entry (state &&& type.mods) = type.entry state := by
    rw [KeyType.entry, KeyType.entry, UInt32.and_assoc, UInt32.and_self]
  rw [KeyType.level, KeyType.level, hentry]

/-- A modifier is in a state or it is not. -/
theorem and_mask_cases (mask : UInt32) (i : ℕ) (hmask : mask.toBitVec = BitVec.twoPow 32 i)
    (state : UInt32) : state &&& mask = 0 ∨ state &&& mask = mask := by
  rw [← UInt32.toBitVec_inj, ← UInt32.toBitVec_inj, UInt32.toBitVec_and, hmask,
    BitVec.and_twoPow]
  split_ifs
  · exact Or.inr rfl
  · exact Or.inl rfl

/-- The four states of Shift and Lock decide. -/
theorem alphabetic_of_levels {type : KeyType} (hmods : type.mods = ShiftMask ||| LockMask)
    (hnone : type.level 0 = 0) (hshift : type.level ShiftMask = 1)
    (hlock : type.level LockMask = 1) (hboth : type.level (ShiftMask ||| LockMask) = 0) :
    Alphabetic type := by
  have hlevel : ∀ state, type.level state =
      if state &&& ShiftMask = 0 ↔ state &&& LockMask = 0 then 0 else 1 := by
    intro state
    have hsplit : state &&& type.mods = state &&& ShiftMask ||| state &&& LockMask := by
      rw [hmods, ← UInt32.toBitVec_inj]
      exact BitVec.and_or_distrib_left
    have hne : ShiftMask ≠ 0 ∧ LockMask ≠ 0 := by decide
    rw [← level_and_mods, hsplit]
    rcases and_mask_cases ShiftMask 0 rfl state with hs | hs
    · rcases and_mask_cases LockMask 1 rfl state with hl | hl
      · simpa [hs, hl] using hnone
      · simpa [hs, hl, hne] using hlock
    · rcases and_mask_cases LockMask 1 rfl state with hl | hl
      · simpa [hs, hl, hne] using hshift
      · simpa [hs, hl, hne] using hboth
  refine ⟨hmods, fun state hiff => ?_, fun state hnot => ?_⟩
  · rw [hlevel, if_pos hiff]
  · rw [hlevel, if_neg hnot]

theorem newType_asciiLibrary (m : Keymap) (key : KeyCode) :
    newType asciiLibrary m key = { mods := ShiftMask ||| LockMask
                                   map := [{ mods := ShiftMask, level := 1 },
                                     { mods := LockMask, level := 1 }] } := by
  simp [newType, asciiLibrary]

theorem addsAlphabetic_asciiLibrary : AddsAlphabetic asciiLibrary where
  toChangesOneKey := changesOneKey_asciiLibrary
  alphabetic m key := by
    rw [newType_asciiLibrary]
    exact alphabetic_of_levels rfl (by decide) (by decide) (by decide) (by decide)

theorem usesUpLock_asciiLibrary : UsesUpLock asciiLibrary := by
  intro m key state
  rw [newType_asciiLibrary, KeyType.preserved]
  split
  · rw [List.getD_nil, UInt32.zero_and]
  · rfl

/-- The letter B is added while Lock is on. -/
theorem newKeysym_typed_letter :
    let r := (danish.addKeysym asciiLibrary [] 0x62).1.lorieKeysymToKeycode asciiLibrary LockMask
      0x62 LockMask
    r.1 ≠ 0 ∧ (r.2 = LockMask ∨ r.2 = Keymap.shiftToggled LockMask) := by
  have htyped := newKeysym_typed addsAlphabetic_asciiLibrary usesUpLock_asciiLibrary
    { keymap := danish } nofun (show (0x62 : KeySym) ≠ NoSymbol by decide) (Or.inl (by decide))
    LockMask LockMask (by decide +kernel)
  exact ⟨htyped.1, htyped.2.1⟩

/-- The type has a row for Shift with Lock, which preserves Lock. -/
def preservingLibrary : Library :=
  { asciiLibrary with
    changeTypesOfKey := fun m key =>
      { m with
        key := Function.update m.key key
          { numGroups := 1
            width := 2
            types := [{ mods := ShiftMask ||| LockMask
                        map := [{ mods := ShiftMask, level := 1 }, { mods := LockMask, level := 1 },
                          { mods := ShiftMask ||| LockMask, level := 0 }]
                        preserve := [0, 0, LockMask] }]
            syms := [NoSymbol, NoSymbol] } } }

theorem addsAlphabetic_preservingLibrary : AddsAlphabetic preservingLibrary where
  key_of_ne _ _ _ hk := Function.update_of_ne hk _ _
  min_key_code _ _ := rfl
  max_key_code _ _ := rfl
  numGroups m key := by simp [preservingLibrary]
  two_le m key := by simp [preservingLibrary]
  alphabetic m key := by
    have htype : newType preservingLibrary m key =
        { mods := ShiftMask ||| LockMask
          map := [{ mods := ShiftMask, level := 1 }, { mods := LockMask, level := 1 },
            { mods := ShiftMask ||| LockMask, level := 0 }]
          preserve := [0, 0, LockMask] } := by
      simp [newType, preservingLibrary]
    rw [htype]
    exact alphabetic_of_levels rfl (by decide) (by decide) (by decide) (by decide)

/-- `NoSymbol` is added and never found; and a small letter is not where the type preserves Lock. -/
theorem newKeysym_not_typed :
    (AddsAlphabetic asciiLibrary ∧
        NoSymbol = (asciiLibrary.convertCase NoSymbol).1 ∧
        (danish.lorieKeysymToKeycode asciiLibrary 0 NoSymbol 0).1 = 0 ∧
        (danish.addKeysym asciiLibrary [] NoSymbol).2.2 = some 255 ∧
        ((danish.addKeysym asciiLibrary [] NoSymbol).1.lorieKeysymToKeycode asciiLibrary 0
          NoSymbol 0).1 = 0) ∧
      AddsAlphabetic preservingLibrary ∧
        0x62 = (preservingLibrary.convertCase 0x62).1 ∧
        (danish.lorieKeysymToKeycode preservingLibrary LockMask 0x62 LockMask).1 = 0 ∧
        (danish.addKeysym preservingLibrary [] 0x62).2.2 = some 255 ∧
        ((danish.addKeysym preservingLibrary [] 0x62).1.lorieKeysymToKeycode preservingLibrary
          LockMask 0x62 LockMask).1 = 0 :=
  ⟨⟨addsAlphabetic_asciiLibrary, by decide +kernel, by decide +kernel, by decide +kernel,
      by decide +kernel⟩,
    addsAlphabetic_preservingLibrary, by decide +kernel, by decide +kernel, by decide +kernel,
    by decide +kernel⟩

end TermuxX11.Server.Keysym
