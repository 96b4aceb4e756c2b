import Mathlib

/-!
# Keymaps

The tables of the keyboard extension, as far as the server looks into them to find a key for a
symbol: `XkbTranslateKeyCode`, `XkbKeyActionPtr`, `lorieKeysymToKeycode`, the keys for the Shift
and level three modifiers, and `lorieAddKeysym`.

Keycodes start at eight, so that a keycode of zero stands for none; it is `none` here.
-/

namespace TermuxX11.Server.Xkb

abbrev KeySym := ℕ

abbrev KeyCode := ℕ

def NoSymbol : KeySym := 0

def XK_Tab : KeySym := 0xff09

def XK_Num_Lock : KeySym := 0xff7f

def XK_ISO_Level3_Shift : KeySym := 0xfe03

def XK_Mode_switch : KeySym := 0xff7e

def ShiftMask : UInt32 := 1

def LockMask : UInt32 := 2

/-! ### Tables -/

/-- A row of the map of a key type. -/
structure MapEntry where
  active : Bool := true
  mods : UInt32
  level : ℕ

structure KeyType where
  mods : UInt32 := 0
  map : List MapEntry := []
  preserve : List UInt32 := []
  deriving Inhabited

/-- What becomes of a group that a key does not have. -/
inductive OutOfRange
  | wrap
  | clamp
  | redirect (group : ℕ)

/-- The actions that are told apart; `useModMapMods` says that the modifiers are those of the key. -/
inductive Action
  | setMods (useModMapMods : Bool) (mask : UInt32)
  | lockMods (useModMapMods : Bool) (mask : UInt32)
  | other

/-- A key, with the type of each of its groups. -/
structure Key where
  numGroups : ℕ := 0
  outOfRange : OutOfRange := .wrap
  width : ℕ := 0
  types : List KeyType := []
  syms : List KeySym := []
  actions : Option (List Action) := none

/-- A keymap, with the first letters of the names of the keys. -/
structure Keymap where
  min_key_code : ℕ
  max_key_code : ℕ
  key : KeyCode → Key
  modmap : KeyCode → UInt32
  names : Option (KeyCode → Char)
  le_min : 8 ≤ min_key_code
  max_le : max_key_code ≤ 255

/-- What the server's own library does: the symbol of a code point, the lower and upper case of a
symbol, and a key that is given one alphabetic group. -/
structure Library where
  ucs2keysym : ℕ → KeySym
  convertCase : KeySym → KeySym × KeySym
  changeTypesOfKey : Keymap → KeyCode → Keymap
  upper_ne : ∀ sym, sym ≠ NoSymbol → (convertCase sym).2 ≠ NoSymbol

/-- `XkbGroupForCoreState`. -/
def groupForCoreState (mods : UInt32) : ℕ := ((mods >>> 13) &&& 3).toNat

/-- `XkbKeyEffectiveGroup` of a key that has groups. -/
def Key.effectiveGroup (k : Key) (mods : UInt32) : ℕ :=
  if groupForCoreState mods < k.numGroups then groupForCoreState mods
  else
    match k.outOfRange with
    | .wrap => groupForCoreState mods % k.numGroups
    | .clamp => k.numGroups - 1
    | .redirect group => if group < k.numGroups then group else 0

def Key.type (k : Key) (mods : UInt32) : KeyType := k.types.getD (k.effectiveGroup mods) default

/-- The row of the map for a state, with its place. -/
def KeyType.entry (t : KeyType) (mods : UInt32) : Option (MapEntry × ℕ) :=
  t.map.zipIdx.find? fun e => e.1.active && (mods &&& t.mods) == e.1.mods

/-- The column of the tables of a key for a state. -/
def Key.col (k : Key) (mods : UInt32) : ℕ :=
  k.effectiveGroup mods * k.width +
    match (k.type mods).entry mods with
    | some (e, _) => e.level
    | none => 0

namespace Keymap

variable (m : Keymap)

/-- The keycodes, in the order of the loops over them. -/
def keys : List KeyCode := List.range' m.min_key_code (m.max_key_code + 1 - m.min_key_code)

/-- `XkbKeycodeInRange`. -/
def keycodeInRange (key : KeyCode) : Bool := m.min_key_code ≤ key && key ≤ m.max_key_code

/-- `XkbTranslateKeyCode`: the modifiers that the key looks at, and its symbol. -/
def translateKeyCode (key : KeyCode) (mods : UInt32) : UInt32 × KeySym :=
  let k := m.key key
  if !m.keycodeInRange key || k.numGroups == 0 then (0, NoSymbol)
  else
    let preserve :=
      match (k.type mods).entry mods with
      | some (_, i) => (k.type mods).preserve.getD i 0
      | none => 0
    ((k.type mods).mods &&& ~~~preserve, k.syms.getD (k.col mods) NoSymbol)

/-- `XkbKeyActionPtr`. -/
def keyAction (key : KeyCode) (mods : UInt32) : Option Action :=
  let k := m.key key
  match k.actions with
  | none => none
  | some acts =>
    if !m.keycodeInRange key || k.numGroups == 0 then none else some (acts.getD (k.col mods) .other)

/-- The modifiers that a key sets as long as it is held. -/
def setModsMask (key : KeyCode) (mods : UInt32) : Option UInt32 :=
  match m.keyAction key mods with
  | some (.setMods useModMapMods mask) => some (if useModMapMods then m.modmap key else mask)
  | _ => none

/-! ### Looking for a symbol -/

/-- Keys that are never sent by a real keyboard. -/
def fakeKeys : List KeyCode := [92, 203, 204, 205, 206, 207]

variable (lib : Library)

/-- The key gives the symbol in a state. -/
def gives (keysym : KeySym) (state : UInt32) (key : KeyCode) : Bool :=
  let (stateOut, ks) := m.translateKeyCode key state
  if ks = NoSymbol then false
  else (if state &&& ~~~stateOut &&& LockMask ≠ 0 then (lib.convertCase ks).2 else ks) = keysym

/-- `lorieKeysymToKeycode` for a fixed state; the fake keys come last. -/
def findKey (keysym : KeySym) (state : UInt32) : Option KeyCode :=
  (m.keys.find? fun key => m.gives lib keysym state key && key ∉ fakeKeys).or
    (m.keys.find? fun key => m.gives lib keysym state key && key ∈ fakeKeys)

/-- `lorieGetLevelThreeMask`; zero is none. -/
def levelThreeMask (state : UInt32) : UInt32 :=
  let group := state &&& ~~~0xff
  match (m.findKey lib XK_ISO_Level3_Shift group).or (m.findKey lib XK_Mode_switch group) with
  | none => 0
  | some keycode => (m.setModsMask keycode group).getD 0

/-- The other state of a modifier. -/
def opposite (state mask : UInt32) : UInt32 := if state &&& mask ≠ 0 then 0 else mask

/-- `lorieKeysymToKeycode`: a key for the symbol, and the state it needs. -/
def keysymToKeycode (keysym : KeySym) (state : UInt32) : Option (KeyCode × UInt32) :=
  let attempt (newState : UInt32) := (m.findKey lib keysym newState).map fun key => (key, newState)
  let mask := m.levelThreeMask lib state
  ((attempt state).or (attempt (state &&& ~~~ShiftMask ||| opposite state ShiftMask))).or
    (if mask = 0 then none
      else
        (attempt (state &&& ~~~mask ||| opposite state mask)).or
          (attempt (state &&& ~~~(ShiftMask ||| mask) ||| opposite state ShiftMask |||
            opposite state mask)))

/-! ### Modifier keys -/

/-- `loriePressShift`. -/
def pressShift (state : UInt32) : Option KeyCode :=
  if state &&& ShiftMask ≠ 0 then none
  else
    m.keys.find? fun key =>
      match m.setModsMask key state with
      | some mask => mask &&& ShiftMask = ShiftMask
      | none => false

/-- The keys that are down and set some modifiers; none if they are more than eight. -/
def heldKeys (mask state : UInt32) (down : KeyCode → Bool) : List KeyCode :=
  let held := m.keys.filter fun key =>
    down key &&
      match m.setModsMask key state with
      | some keyMask => keyMask &&& mask ≠ 0
      | none => false
  if held.length ≤ 8 then held else []

/-- `lorieReleaseShift`. -/
def releaseShift (state : UInt32) (down : KeyCode → Bool) : List KeyCode :=
  if state &&& ShiftMask = 0 then [] else m.heldKeys ShiftMask state down

/-- `loriePressLevelThree`. -/
def pressLevelThree (state : UInt32) : Option KeyCode :=
  let mask := m.levelThreeMask lib state
  if mask = 0 ∨ state &&& mask ≠ 0 then none
  else
    ((m.findKey lib XK_ISO_Level3_Shift state).or (m.findKey lib XK_Mode_switch state)).filter
      fun key => (m.setModsMask key state).isSome

/-- `lorieReleaseLevelThree`. -/
def releaseLevelThree (state : UInt32) (down : KeyCode → Bool) : List KeyCode :=
  let mask := m.levelThreeMask lib state
  if mask = 0 ∨ state &&& mask = 0 then [] else m.heldKeys mask state down

/-- `lorieIsAffectedByNumLock`. -/
def isAffectedByNumLock (state : UInt32) (keycode : KeyCode) : Bool :=
  let group := state &&& ~~~0xff
  match m.findKey lib XK_Num_Lock group with
  | none => false
  | some numlock =>
    match m.keyAction numlock group with
    | some (.lockMods useModMapMods mask) =>
      (((m.key keycode).type group).mods &&&
        (if useModMapMods then m.modmap keycode else mask)) ≠ 0
    | _ => false

/-! ### New keys -/

/-- `getReusableKeycode`: the oldest of the keys that were added and are still as they were; those
that are not are forgotten.  The list has the newest in front. -/
def getReusableKeycode (added : List (KeyCode × KeySym)) :
    Option KeyCode × List (KeyCode × KeySym) :=
  let usable (a : KeyCode × KeySym) : Bool :=
    0 < (m.key a.1).numGroups && (m.key a.1).syms.getD 0 NoSymbol == a.2 &&
      match m.names with
      | none => true
      | some name => name a.1 == 'T'
  let rest := added.reverse.dropWhile (!usable ·)
  (rest.head?.map Prod.fst, rest.tail.reverse)

/-- `lorieAddKeysym`. -/
def addKeysym (added : List (KeyCode × KeySym)) (keysym : KeySym) :
    Keymap × List (KeyCode × KeySym) × Option KeyCode :=
  let (key?, added) :=
    match m.keys.reverse.find? fun key => (m.key key).numGroups = 0 with
    | some key => (some key, added)
    | none => m.getReusableKeycode added
  match key? with
  | none => (m, added, none)
  | some key =>
    let (lower, upper) := lib.convertCase keysym
    let m' := lib.changeTypesOfKey m key
    let m' : Keymap :=
      { m' with
        key := Function.update m'.key key
          { m'.key key with syms := ((m'.key key).syms.set 0 lower).set 1 upper }
        names := m.names.map fun name => Function.update name key 'T' }
    (m', (key, lower) :: added, some key)

end Keymap

/-! ### Where keys are found -/

namespace Keymap

variable {m : Keymap} {lib : Library}

theorem mem_keys {key : ℕ} (h : key ∈ m.keys) : 8 ≤ key ∧ key ≤ 255 := by
  have hmin := m.le_min
  have hmax := m.max_le
  rw [keys, List.mem_range'_1] at h
  omega

theorem findKey_eq_some {keysym : KeySym} {state : UInt32} {key : KeyCode}
    (h : m.findKey lib keysym state = some key) :
    key ∈ m.keys ∧ m.gives lib keysym state key = true := by
  rw [findKey, Option.or_eq_some_iff] at h
  rcases h with h | ⟨-, h⟩
  · have hgives := List.find?_some h
    exact ⟨List.mem_of_find?_eq_some h, (Bool.and_eq_true_iff.1 hgives).1⟩
  · have hgives := List.find?_some h
    exact ⟨List.mem_of_find?_eq_some h, (Bool.and_eq_true_iff.1 hgives).1⟩

/-- There is no key for no symbol. -/
theorem findKey_noSymbol (state : UInt32) : m.findKey lib NoSymbol state = none := by
  cases h : m.findKey lib NoSymbol state with
  | none => rfl
  | some key =>
    have hgives := (findKey_eq_some h).2
    rcases htranslate : m.translateKeyCode key state with ⟨stateOut, ks⟩
    simp only [gives, htranslate] at hgives
    split_ifs at hgives with hks hlock
    · exact absurd (of_decide_eq_true hgives) (lib.upper_ne ks hks)
    · exact absurd (of_decide_eq_true hgives) hks

theorem keysymToKeycode_mem {keysym : KeySym} {state newState : UInt32} {key : KeyCode}
    (h : m.keysymToKeycode lib keysym state = some (key, newState)) :
    key ∈ m.keys ∧ keysym ≠ NoSymbol := by
  have hattempt : ∀ state', (m.findKey lib keysym state').map (fun key => (key, state')) =
      some (key, newState) → ∃ state', m.findKey lib keysym state' = some key := by
    intro state' h
    obtain ⟨key', hkey, h⟩ := Option.map_eq_some_iff.1 h
    obtain ⟨rfl, -⟩ := Prod.mk.inj h
    exact ⟨state', hkey⟩
  have hfind : ∃ state', m.findKey lib keysym state' = some key := by
    rw [keysymToKeycode] at h
    rcases Option.or_eq_some_iff.1 h with h | ⟨-, h⟩
    · rcases Option.or_eq_some_iff.1 h with h | ⟨-, h⟩
      · exact hattempt _ h
      · exact hattempt _ h
    · split_ifs at h
      rcases Option.or_eq_some_iff.1 h with h | ⟨-, h⟩
      · exact hattempt _ h
      · exact hattempt _ h
  obtain ⟨state', hfind⟩ := hfind
  refine ⟨(findKey_eq_some hfind).1, ?_⟩
  rintro rfl
  rw [findKey_noSymbol] at hfind
  cases hfind

theorem pressShift_mem {state : UInt32} {key : KeyCode} (h : m.pressShift state = some key) :
    key ∈ m.keys := by
  rw [pressShift] at h
  split_ifs at h
  exact List.mem_of_find?_eq_some h

theorem pressLevelThree_mem {state : UInt32} {key : KeyCode}
    (h : m.pressLevelThree lib state = some key) : key ∈ m.keys := by
  rw [pressLevelThree] at h
  split_ifs at h
  obtain ⟨h, -⟩ := Option.filter_eq_some_iff.1 h
  rcases Option.or_eq_some_iff.1 h with h | ⟨-, h⟩
  · exact (findKey_eq_some h).1
  · exact (findKey_eq_some h).1

theorem heldKeys_mem {mask state : UInt32} {down : KeyCode → Bool} {key : KeyCode}
    (h : key ∈ m.heldKeys mask state down) : key ∈ m.keys ∧ down key = true := by
  rw [heldKeys] at h
  split_ifs at h
  · obtain ⟨hmem, hdown⟩ := List.mem_filter.1 h
    exact ⟨hmem, (Bool.and_eq_true_iff.1 hdown).1⟩
  · cases h

end Keymap

end TermuxX11.Server.Xkb
