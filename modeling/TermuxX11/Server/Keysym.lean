import TermuxX11.Lib.Ledger
import TermuxX11.Server.Keymap

/-!
# Typing a character

The server types a character that the activity sends by pressing and releasing a key that has its
symbol.  If the key needs other modifiers than there are, `lorieKeysymKeyboardEvent` presses or
releases the keys of Shift and of level three around it.

The events are put on a queue and are processed at the end, so that the state of the keyboard does
not change meanwhile.
-/

namespace TermuxX11.Server.Keysym

open Xkb

/-- What the file keeps: the keymap of the keyboard, the keys that were added to it, and the
symbols that keys were pressed for. -/
structure State where
  keymap : Keymap
  addedKeysyms : List (KeyCode × KeySym) := []
  pressedKeys : KeyCode → KeySym := fun _ => NoSymbol

/-- `QueueKeyboardEvents`, which takes no keycode that is out of range. -/
def queueKeyboardEvents (key : KeyCode) (down : Bool) : List (KeyCode × Bool) :=
  if key < 8 ∨ 255 < key then [] else [(key, down)]

/-! ### Choosing a key -/

/-- Symbols with the same meaning. -/
def altKeysym : List (KeySym × KeySym) :=
  [(0xffe1, 0xffe2), (0xffe3, 0xffe4), (0xffe7, 0xffe8), (0xffe9, 0xffea), (0xffeb, 0xffec),
    (0xffed, 0xffee), (0xff80, 0x20), (0xff89, 0xff09), (0xff8d, 0xff0d), (0xff91, 0xffbe),
    (0xff92, 0xffbf), (0xff93, 0xffc0), (0xff94, 0xffc1), (0xff95, 0xff50), (0xff96, 0xff51),
    (0xff97, 0xff52), (0xff98, 0xff53), (0xff99, 0xff54), (0xff9a, 0xff55), (0xff9b, 0xff56),
    (0xff9c, 0xff57), (0xff9d, 0xff58), (0xff9e, 0xff63), (0xff9f, 0xffff), (0xffbd, 0x3d),
    (0xffaa, 0x2a), (0xffab, 0x2b), (0xffac, 0x2c), (0xffad, 0x2d), (0xffae, 0x2e),
    (0xffaf, 0x2f), (0xffb0, 0x30), (0xffb1, 0x31), (0xffb2, 0x32), (0xffb3, 0x33),
    (0xffb4, 0x34), (0xffb5, 0x35), (0xffb6, 0x36), (0xffb7, 0x37), (0xffb8, 0x38),
    (0xffb9, 0x39), (XK_ISO_Level3_Shift, XK_Mode_switch)]

/-- The symbols with the meaning of a symbol, in the order of the table. -/
def alternatives (keysym : KeySym) : List KeySym :=
  altKeysym.filterMap fun (a, b) =>
    if a = keysym then some b else if b = keysym then some a else none

section

variable (lib : Library)

/-- A key for the symbol, or for one with the same meaning, or for the symbol on a new key. -/
def findKeycode (s : State) (state : UInt32) (keysym : KeySym) :
    State × Option (KeyCode × UInt32) :=
  match (s.keymap.keysymToKeycode lib keysym state).or
      ((alternatives keysym).findSome? fun altsym => s.keymap.keysymToKeycode lib altsym state) with
  | some found => (s, some found)
  | none =>
    let (keymap, addedKeysyms, key?) := s.keymap.addKeysym lib s.addedKeysyms keysym
    ({ s with keymap, addedKeysyms },
      key?.bind fun _ => keymap.keysymToKeycode lib keysym state)

/-- The Shift modifier has to change for a key that NumLock changes too. -/
def needsFakeShift (m : Keymap) (state : UInt32) (found : KeyCode × UInt32) : Bool :=
  (state &&& ShiftMask) ≠ (found.2 &&& ShiftMask) && m.isAffectedByNumLock lib state found.1

/-- The key that is pressed for a symbol, and the modifiers that it needs. -/
def choose (s : State) (state : UInt32) (keysym : KeySym) : State × Option (KeyCode × UInt32) :=
  let (s, found) := findKeycode lib s state keysym
  (s, found.map fun found =>
    let found :=
      if needsFakeShift lib s.keymap state found then
        (((alternatives keysym).filterMap fun altsym =>
          s.keymap.keysymToKeycode lib altsym state).find?
            (!needsFakeShift lib s.keymap state ·)).getD found
      else found
    -- a shifted Tab stays shifted
    if keysym = XK_Tab ∧ state &&& ShiftMask ≠ 0 then (found.1, found.2 ||| ShiftMask) else found)

/-! ### Modifiers -/

/-- What is done about a modifier: a key is pressed, or keys are released. -/
inductive Fake
  | nothing
  | press (key : KeyCode)
  | release (keys : List KeyCode)
  deriving DecidableEq

namespace Fake

def events : Fake → List (KeyCode × Bool)
  | nothing => []
  | press key => queueKeyboardEvents key true
  | release keys => keys.flatMap (queueKeyboardEvents · false)

/-- What undoes it. -/
def undo : Fake → List (KeyCode × Bool)
  | nothing => []
  | press key => queueKeyboardEvents key false
  | release keys => keys.flatMap (queueKeyboardEvents · true)

/-- The keys that are released. -/
def released : Fake → List KeyCode
  | release keys => keys
  | _ => []

/-- A key if one is found. -/
def ofPress : Option KeyCode → Option Fake
  | some key => some (press key)
  | none => none

/-- Keys if some are found. -/
def ofRelease : List KeyCode → Option Fake
  | [] => none
  | keys => some (release keys)

end Fake

variable (m : Keymap) (state newState : UInt32) (down : KeyCode → Bool)

/-- What is done about Shift, unless no key is found. -/
def fakeShift : Option Fake :=
  if state &&& ShiftMask = 0 ∧ newState &&& ShiftMask ≠ 0 then Fake.ofPress (m.pressShift state)
  else if state &&& ShiftMask ≠ 0 ∧ newState &&& ShiftMask = 0 then
    Fake.ofRelease (m.releaseShift state down)
  else some .nothing

/-- What is done about level three, unless no key is found. -/
def fakeLevelThree : Option Fake :=
  let mask :=
    if newState &&& ~~~ShiftMask ≠ state &&& ~~~ShiftMask then m.levelThreeMask lib state else 0
  if state &&& mask = 0 ∧ newState &&& mask ≠ 0 then Fake.ofPress (m.pressLevelThree lib state)
  else if state &&& mask ≠ 0 ∧ newState &&& mask = 0 then
    Fake.ofRelease (m.releaseLevelThree lib state down)
  else some .nothing

end

/-! ### The events -/

section

variable (lib : Library) (state : UInt32) (down : KeyCode → Bool)

/-- `vncOnKeyUsed`. -/
def onKeyUsed (addedKeysyms : List (KeyCode × KeySym)) (usedKeycode : KeyCode) :
    List (KeyCode × KeySym) :=
  match addedKeysyms.find? fun a => a.1 = usedKeycode with
  | some a => a :: addedKeysyms.eraseP fun a => a.1 = usedKeycode
  | none => addedKeysyms

/-- `lorieKeysymKeyboardEvent` for a press, with the events that it queues. -/
def keysymPress (s : State) (keysym : KeySym) : State × List (KeyCode × Bool) :=
  let (s, chosen) := choose lib s state keysym
  match chosen with
  | none => (s, [])
  | some (keycode, newState) =>
    match fakeShift s.keymap state newState down with
    | none => (s, [])
    | some shift =>
      match fakeLevelThree lib s.keymap state newState down with
      | none => (s, shift.events)
      | some levelThree =>
        ({ s with
            addedKeysyms := onKeyUsed s.addedKeysyms keycode
            pressedKeys := fun i =>
              if i = keycode then keysym
              else if s.pressedKeys i = keysym then NoSymbol else s.pressedKeys i },
          shift.events ++ levelThree.events ++ queueKeyboardEvents keycode true ++
            levelThree.undo ++ shift.undo)

/-- `lorieKeysymKeyboardEvent` for a release. -/
def keysymRelease (s : State) (keysym : KeySym) : State × List (KeyCode × Bool) :=
  match (List.range 256).find? fun i => s.pressedKeys i = keysym with
  | some i =>
    ({ s with pressedKeys := Function.update s.pressedKeys i NoSymbol },
      queueKeyboardEvents i false)
  | none => (s, [])

/-- The handling of `EVENT_UNICODE`. -/
def unicode (s : State) (code : ℕ) : State × List (KeyCode × Bool) :=
  let keysym := lib.ucs2keysym code
  let (s, pressed) := keysymPress lib state down s keysym
  let (s, released) := keysymRelease s keysym
  (s, pressed ++ released)

end

/-! ### Fake events -/

theorem queueKeyboardEvents_eq {key : KeyCode} (h : 8 ≤ key ∧ key ≤ 255) (d : Bool) :
    queueKeyboardEvents key d = [(key, d)] :=
  if_neg (not_or.2 ⟨not_lt.2 h.1, not_lt.2 h.2⟩)

theorem flatMap_queueKeyboardEvents {keys : List KeyCode} (h : ∀ k ∈ keys, 8 ≤ k ∧ k ≤ 255)
    (d : Bool) : keys.flatMap (queueKeyboardEvents · d) = keys.map fun k => (k, d) := by
  rw [List.map_eq_flatMap]
  exact List.flatMap_congr fun k hk => queueKeyboardEvents_eq (h k hk) d

/-- The keys are keys of the keyboard, and those that are released are down. -/
def Fake.Valid (down : KeyCode → Bool) : Fake → Prop
  | .nothing => True
  | .press k => 8 ≤ k ∧ k ≤ 255
  | .release ks => ks ≠ [] ∧ ∀ k ∈ ks, (8 ≤ k ∧ k ≤ 255) ∧ down k = true

namespace Fake

variable {down : KeyCode → Bool} {f : Fake}

theorem last_events (h : f.Valid down) (k : KeyCode) :
    Ledger.last f.events k =
      if f = .press k then some true else if k ∈ f.released then some false else none := by
  cases f with
  | nothing => rfl
  | press key =>
    rw [events, queueKeyboardEvents_eq h, Ledger.last_singleton]
    by_cases hk : key = k
    · simp [hk]
    · simp [hk, released]
  | release keys =>
    rw [events, flatMap_queueKeyboardEvents fun k hk => (h.2 k hk).1, Ledger.last_map]
    by_cases hk : k ∈ keys
    · simp [released, hk]
    · simp [released, hk]

theorem undo_eq_flip (f : Fake) : f.undo = f.events.map fun e => (e.1, !e.2) := by
  have hqueue : ∀ key d,
      queueKeyboardEvents key (!d) = (queueKeyboardEvents key d).map fun e => (e.1, !e.2) := by
    intro key d
    rw [queueKeyboardEvents, queueKeyboardEvents]
    split_ifs
    · rfl
    · rfl
  cases f with
  | nothing => rfl
  | press key => exact hqueue key true
  | release keys =>
    rw [undo, events, List.map_flatMap]
    exact List.flatMap_congr fun key _ => hqueue key false

theorem last_undo (h : f.Valid down) (k : KeyCode) :
    Ledger.last f.undo k =
      if f = .press k then some false else if k ∈ f.released then some true else none := by
  rw [undo_eq_flip, Ledger.last_flip, last_events h]
  split_ifs
  · rfl
  · rfl
  · rfl

theorem Valid.down_of_released (h : f.Valid down) {k : KeyCode} (hk : k ∈ f.released) :
    down k = true := by
  cases f with
  | nothing => cases hk
  | press key => cases hk
  | release keys => exact (h.2 k hk).2

theorem valid_ofPress {key? : Option KeyCode} (h : ∀ k ∈ key?, 8 ≤ k ∧ k ≤ 255)
    (hf : ofPress key? = some f) : f.Valid down := by
  cases key? with
  | none => cases hf
  | some key =>
    obtain rfl := Option.some.inj hf
    exact h key rfl

theorem valid_ofRelease {keys : List KeyCode}
    (h : ∀ k ∈ keys, (8 ≤ k ∧ k ≤ 255) ∧ down k = true) (hf : ofRelease keys = some f) :
    f.Valid down := by
  cases keys with
  | nil => cases hf
  | cons k keys =>
    obtain rfl := Option.some.inj hf
    exact ⟨List.cons_ne_nil k keys, h⟩

end Fake

section

variable {lib : Library} {m : Keymap} {state newState : UInt32} {down : KeyCode → Bool} {f : Fake}

theorem valid_fakeShift (h : fakeShift m state newState down = some f) : f.Valid down := by
  rw [fakeShift] at h
  split_ifs at h with hpress hrelease
  · exact Fake.valid_ofPress (fun k hk => Keymap.mem_keys (Keymap.pressShift_mem hk)) h
  · refine Fake.valid_ofRelease (fun k hk => ?_) h
    rw [Keymap.releaseShift, if_neg hrelease.1] at hk
    obtain ⟨hmem, hdown⟩ := Keymap.heldKeys_mem hk
    exact ⟨Keymap.mem_keys hmem, hdown⟩
  · obtain rfl := Option.some.inj h
    trivial

theorem valid_fakeLevelThree (h : fakeLevelThree lib m state newState down = some f) :
    f.Valid down := by
  rw [fakeLevelThree] at h
  generalize (if newState &&& ~~~ShiftMask ≠ state &&& ~~~ShiftMask then m.levelThreeMask lib state
    else 0) = mask at h
  by_cases hpress : state &&& mask = 0 ∧ newState &&& mask ≠ 0
  · rw [if_pos hpress] at h
    exact Fake.valid_ofPress (fun k hk => Keymap.mem_keys (Keymap.pressLevelThree_mem hk)) h
  rw [if_neg hpress] at h
  by_cases hrelease : state &&& mask ≠ 0 ∧ newState &&& mask = 0
  · rw [if_pos hrelease] at h
    refine Fake.valid_ofRelease (fun k hk => ?_) h
    rw [Keymap.releaseLevelThree] at hk
    split_ifs at hk
    · cases hk
    · obtain ⟨hmem, hdown⟩ := Keymap.heldKeys_mem hk
      exact ⟨Keymap.mem_keys hmem, hdown⟩
  · rw [if_neg hrelease] at h
    obtain rfl := Option.some.inj h
    trivial

end

/-! ### The key that is chosen -/

section

variable {lib : Library} {s : State} {state newState : UInt32} {keysym : KeySym} {key : KeyCode}

theorem alternatives_noSymbol : alternatives NoSymbol = [] := by
  decide

theorem keysym_ne_of_mem_alternatives {altsym : KeySym} (h : altsym ∈ alternatives keysym) :
    keysym ≠ NoSymbol := by
  rintro rfl
  rw [alternatives_noSymbol] at h
  cases h

theorem findKeycode_pressedKeys :
    (findKeycode lib s state keysym).1.pressedKeys = s.pressedKeys := by
  rw [findKeycode]
  split
  · rfl
  · rfl

theorem findKeycode_mem (h : (findKeycode lib s state keysym).2 = some (key, newState)) :
    key ∈ (findKeycode lib s state keysym).1.keymap.keys ∧ keysym ≠ NoSymbol := by
  rw [findKeycode] at h ⊢
  split at h
  · rename_i found hfound
    obtain rfl := Option.some.inj h
    rcases Option.or_eq_some_iff.1 hfound with hfound | ⟨-, hfound⟩
    · exact Keymap.keysymToKeycode_mem hfound
    · obtain ⟨altsym, hmem, hfound⟩ := List.exists_of_findSome?_eq_some hfound
      exact ⟨(Keymap.keysymToKeycode_mem hfound).1, keysym_ne_of_mem_alternatives hmem⟩
  · obtain ⟨-, -, h⟩ := Option.bind_eq_some_iff.1 h
    exact Keymap.keysymToKeycode_mem h

theorem choose_pressedKeys : (choose lib s state keysym).1.pressedKeys = s.pressedKeys :=
  findKeycode_pressedKeys

/-- What is chosen is a key of the keyboard, and there is none for no symbol. -/
theorem choose_mem (h : (choose lib s state keysym).2 = some (key, newState)) :
    key ∈ (choose lib s state keysym).1.keymap.keys ∧ keysym ≠ NoSymbol := by
  rcases hfind : findKeycode lib s state keysym with ⟨s', found?⟩
  simp only [choose, hfind] at h ⊢
  obtain ⟨found, rfl, hfound⟩ := Option.map_eq_some_iff.1 h
  obtain ⟨hmem, hne⟩ := findKeycode_mem (congrArg Prod.snd hfind)
  rw [hfind] at hmem
  refine ⟨?_, hne⟩
  generalize hinstead : (if needsFakeShift lib s'.keymap state found then
      (((alternatives keysym).filterMap fun altsym =>
        s'.keymap.keysymToKeycode lib altsym state).find?
          (!needsFakeShift lib s'.keymap state ·)).getD found else found) = instead at hfound
  -- a key that is taken instead is found in the same keymap
  have hkey : instead.1 ∈ s'.keymap.keys := by
    rw [← hinstead]
    split_ifs
    · cases hfind : ((alternatives keysym).filterMap fun altsym =>
        s'.keymap.keysymToKeycode lib altsym state).find?
          (!needsFakeShift lib s'.keymap state ·) with
      | none => exact hmem
      | some instead =>
        obtain ⟨altsym, -, halt⟩ := List.mem_filterMap.1 (List.mem_of_find?_eq_some hfind)
        exact (Keymap.keysymToKeycode_mem halt).1
    · exact hmem
  split_ifs at hfound
  · obtain ⟨rfl, -⟩ := Prod.mk.inj hfound
    exact hkey
  · obtain rfl := hfound
    exact hkey

end

/-! ### One character -/

section

variable {lib : Library} {s : State} {state newState : UInt32} {down : KeyCode → Bool}
  {keysym : KeySym} {key : KeyCode} {code : ℕ}

/-- No key is pressed for a symbol. -/
def State.Idle (s : State) : Prop := ∀ i, s.pressedKeys i = NoSymbol

/-- The states of the file, whose keymap may be changed between two characters. -/
inductive Reachable (lib : Library) : State → Prop
  | init (keymap : Keymap) : Reachable lib { keymap }
  | remap {s : State} (keymap : Keymap) : Reachable lib s → Reachable lib { s with keymap }
  | unicode {s : State} (state : UInt32) (down : KeyCode → Bool) (code : ℕ) :
      Reachable lib s → Reachable lib (unicode lib state down s code).1

/-- The events of a character, if those are known that are queued for its modifiers. -/
def typing (key : KeyCode) : Option Fake → Option Fake → List (KeyCode × Bool)
  | none, _ => []
  | some shift, none => shift.events
  | some shift, some levelThree =>
    shift.events ++ levelThree.events ++ [(key, true)] ++ levelThree.undo ++ shift.undo ++
      [(key, false)]

/-- Nothing is pressed for a symbol, so that nothing is released; index zero, which looks like
being pressed for no symbol, is no key. -/
theorem keysymRelease_idle (hs : s.Idle) (keysym : KeySym) :
    (keysymRelease s keysym).1.Idle ∧ (keysymRelease s keysym).2 = [] := by
  rw [keysymRelease]
  cases hfind : (List.range 256).find? fun i => s.pressedKeys i = keysym with
  | none => exact ⟨hs, rfl⟩
  | some i =>
    have hsym : keysym = NoSymbol := by
      have hi := List.find?_some hfind
      rw [← of_decide_eq_true hi, hs]
    have hzero : i = 0 := by
      have hhead : (List.range 256).find? (fun i => s.pressedKeys i = keysym) = some 0 := by
        rw [List.range_eq_range', List.range'_succ]
        exact List.find?_cons_of_pos (decide_eq_true (by rw [hs, hsym]))
      rw [hhead] at hfind
      exact (Option.some.inj hfind).symm
    subst hzero
    refine ⟨fun j => ?_, rfl⟩
    rcases eq_or_ne j 0 with rfl | hj
    · exact Function.update_self 0 NoSymbol s.pressedKeys
    · exact (Function.update_of_ne hj NoSymbol s.pressedKeys).trans (hs j)

/-- The key that was pressed is released. -/
theorem keysymRelease_pressed (hkey : key ≤ 255) (hne : keysym ≠ NoSymbol)
    (hs : ∀ i, s.pressedKeys i = if i = key then keysym else NoSymbol) :
    (keysymRelease s keysym).1.Idle ∧
      (keysymRelease s keysym).2 = queueKeyboardEvents key false := by
  have hpressed : ∀ i, s.pressedKeys i = keysym ↔ i = key := by
    intro i
    rw [hs]
    split_ifs with hi
    · exact ⟨fun _ => hi, fun _ => rfl⟩
    · exact ⟨fun h => absurd h.symm hne, fun h => absurd h hi⟩
  have hfind : ((List.range 256).find? fun i => s.pressedKeys i = keysym) = some key := by
    cases hfind : (List.range 256).find? fun i => s.pressedKeys i = keysym with
    | none =>
      have hnone := List.find?_eq_none.1 hfind key (List.mem_range.2 (Nat.lt_succ_of_le hkey))
      exact absurd (decide_eq_true ((hpressed key).2 rfl)) hnone
    | some i =>
      have hi := List.find?_some hfind
      rw [(hpressed i).1 (of_decide_eq_true hi)]
  rw [keysymRelease, hfind]
  refine ⟨fun i => ?_, rfl⟩
  rcases eq_or_ne i key with rfl | hi
  · exact Function.update_self i NoSymbol s.pressedKeys
  · exact (Function.update_of_ne hi NoSymbol s.pressedKeys).trans ((hs i).trans (if_neg hi))

/-- If the press returns early, the release queues nothing. -/
theorem unicode_of_idle {t : State} {evs : List (KeyCode × Bool)}
    (h : keysymPress lib state down s (lib.ucs2keysym code) = (t, evs)) (ht : t.Idle) :
    (unicode lib state down s code).1.Idle ∧ (unicode lib state down s code).2 = evs := by
  obtain ⟨hidle, hnone⟩ := keysymRelease_idle ht (lib.ucs2keysym code)
  simp only [unicode, h]
  refine ⟨hidle, ?_⟩
  rw [hnone, List.append_nil]

/-- If a key was pressed, it is released. -/
theorem unicode_of_pressed {t : State} {evs : List (KeyCode × Bool)}
    (h : keysymPress lib state down s (lib.ucs2keysym code) = (t, evs))
    (hkey : 8 ≤ key ∧ key ≤ 255) (hne : lib.ucs2keysym code ≠ NoSymbol)
    (ht : ∀ i, t.pressedKeys i = if i = key then lib.ucs2keysym code else NoSymbol) :
    (unicode lib state down s code).1.Idle ∧
      (unicode lib state down s code).2 = evs ++ [(key, false)] := by
  obtain ⟨hidle, hreleased⟩ := keysymRelease_pressed hkey.2 hne ht
  simp only [unicode, h]
  refine ⟨hidle, ?_⟩
  rw [hreleased, queueKeyboardEvents_eq hkey]

/-- What is queued for a character, and that no key stays pressed for it. -/
theorem unicode_eq (hs : s.Idle) (state : UInt32) (down : KeyCode → Bool) (code : ℕ) :
    (unicode lib state down s code).1.Idle ∧
      (unicode lib state down s code).2 =
        match choose lib s state (lib.ucs2keysym code) with
        | (_, none) => []
        | (s', some (key, newState)) =>
          typing key (fakeShift s'.keymap state newState down)
            (fakeLevelThree lib s'.keymap state newState down) := by
  rcases hchoose : choose lib s state (lib.ucs2keysym code) with ⟨s', chosen⟩
  have hs' : s'.Idle := by
    intro i
    have hkeep : (choose lib s state (lib.ucs2keysym code)).1.pressedKeys = s.pressedKeys :=
      choose_pressedKeys
    rw [hchoose] at hkeep
    exact (congrFun hkeep i).trans (hs i)
  cases chosen with
  | none =>
    refine unicode_of_idle ?_ hs'
    rw [keysymPress, hchoose]
  | some chosen =>
    obtain ⟨key, newState⟩ := chosen
    obtain ⟨hmem, hne⟩ := choose_mem (congrArg Prod.snd hchoose)
    rw [hchoose] at hmem
    have hkey := Keymap.mem_keys hmem
    dsimp only
    cases hshift : fakeShift s'.keymap state newState down with
    | none =>
      refine unicode_of_idle ?_ hs'
      simp only [keysymPress, hchoose, hshift, typing]
    | some shift =>
      cases hlevel : fakeLevelThree lib s'.keymap state newState down with
      | none =>
        refine unicode_of_idle ?_ hs'
        simp only [keysymPress, hchoose, hshift, hlevel, typing]
      | some levelThree =>
        rcases hpress : keysymPress lib state down s (lib.ucs2keysym code) with ⟨t, evs⟩
        have heq := hpress
        simp only [keysymPress, hchoose, hshift, hlevel, Prod.mk.injEq] at heq
        obtain ⟨rfl, rfl⟩ := heq
        rw [queueKeyboardEvents_eq hkey] at hpress
        refine unicode_of_pressed hpress hkey hne fun i => ?_
        dsimp only
        rw [hs' i, ite_self]

/-- Between two characters no key is pressed for a symbol. -/
theorem Reachable.idle (hs : Reachable lib s) : s.Idle := by
  induction hs with
  | init keymap => exact fun _ => rfl
  | remap keymap _ ih => exact ih
  | unicode state down code _ ih => exact (unicode_eq ih state down code).1

/-! ### No net effect -/

/-- Every key is as it was. -/
def NoEffect (down : KeyCode → Bool) (evs : List (KeyCode × Bool)) : Prop :=
  ∀ k, (Ledger.last evs k).getD (down k) = down k

/-- What is queued for the modifiers is undone: if there is no key for level three, then Shift was
left alone, or a key of it was pressed that was down; else no key was pressed that was down, but
for one of level three that is a key of Shift that was released. -/
def FakesUndone (down : KeyCode → Bool) : Option Fake → Option Fake → Prop
  | none, _ => True
  | some shift, none => shift.released = [] ∧ ∀ k, shift = .press k → down k = true
  | some shift, some levelThree =>
    (∀ k, shift = .press k → down k = false) ∧
      ∀ k, levelThree = .press k → down k = false ∨ k ∈ shift.released

theorem noEffect_nil : NoEffect down [] := fun _ => rfl

theorem noEffect_events_iff {shift : Fake} (hshift : shift.Valid down) :
    NoEffect down shift.events ↔ shift.released = [] ∧ ∀ k, shift = .press k → down k = true := by
  constructor
  · intro h
    refine ⟨List.eq_nil_iff_forall_not_mem.2 fun k hk => ?_, ?_⟩
    · have hnot : shift ≠ .press k := by
        rintro rfl
        cases hk
      have hup := h k
      rw [Fake.last_events hshift, if_neg hnot, if_pos hk, hshift.down_of_released hk] at hup
      cases hup
    · rintro k rfl
      have hdown := h k
      rw [Fake.last_events hshift, if_pos rfl] at hdown
      exact hdown.symm
  · rintro ⟨hnone, hpress⟩ k
    rw [Fake.last_events hshift, hnone]
    split_ifs with hk hmem
    · exact (hpress k hk).symm
    · cases hmem
    · rfl

/-- The last event of a key is the release of the key that is typed, or one that undoes. -/
theorem last_typing {shift levelThree : Fake} (hshift : shift.Valid down)
    (hlevel : levelThree.Valid down) (k : KeyCode) :
    Ledger.last (typing key (some shift) (some levelThree)) k =
      if key = k then some false
      else (Ledger.last shift.undo k).or (Ledger.last levelThree.undo k) := by
  simp only [typing, Ledger.last_append, Ledger.last_singleton]
  by_cases hk : key = k
  · simp [hk]
  · simp only [hk, if_false, Option.none_or, Fake.last_undo hshift, Fake.last_undo hlevel,
      Fake.last_events hshift, Fake.last_events hlevel]
    split_ifs <;> rfl

theorem typing_keeps_iff {shift levelThree : Fake} (hshift : shift.Valid down)
    (hlevel : levelThree.Valid down) (hkey : down key = false) (k : KeyCode) :
    (Ledger.last (typing key (some shift) (some levelThree)) k).getD (down k) = down k ↔
      (shift = .press k → down k = false) ∧
        (levelThree = .press k → down k = false ∨ k ∈ shift.released) := by
  rw [last_typing hshift hlevel]
  by_cases hk : key = k
  · subst hk
    simp [hkey]
  rw [if_neg hk, Fake.last_undo hshift, Fake.last_undo hlevel]
  by_cases hpress : shift = .press k
  · simp only [hpress, if_true, Option.some_or, Option.getD_some, true_implies]
    exact ⟨fun h => ⟨h.symm, fun _ => Or.inl h.symm⟩, fun h => h.1.symm⟩
  by_cases hmem : k ∈ shift.released
  · simp [hpress, hmem, hshift.down_of_released hmem]
  simp only [hpress, hmem, if_false, Option.none_or, or_false, false_implies, true_and]
  by_cases hpress' : levelThree = .press k
  · simp only [hpress', if_true, Option.getD_some, true_implies]
    exact eq_comm
  by_cases hmem' : k ∈ levelThree.released
  · simp [hpress', hmem', hlevel.down_of_released hmem']
  · simp [hpress', hmem']

/-- **Exactly when typing leaves the keyboard as it was**: if the fake events are undone. -/
theorem unicode_noEffect_iff (hs : Reachable lib s)
    (hheld : ∀ key newState, (choose lib s state (lib.ucs2keysym code)).2 = some (key, newState) →
      down key = false) :
    (NoEffect down (unicode lib state down s code).2 ∧
        ∀ i, (unicode lib state down s code).1.pressedKeys i = s.pressedKeys i) ↔
      ∀ key newState, (choose lib s state (lib.ucs2keysym code)).2 = some (key, newState) →
        FakesUndone down
          (fakeShift (choose lib s state (lib.ucs2keysym code)).1.keymap state newState down)
          (fakeLevelThree lib (choose lib s state (lib.ucs2keysym code)).1.keymap state newState
            down) := by
  obtain ⟨hidle, hevents⟩ := unicode_eq hs.idle state down code
  have hpressed : ∀ i, (unicode lib state down s code).1.pressedKeys i = s.pressedKeys i :=
    fun i => (hidle i).trans (hs.idle i).symm
  rw [hevents, and_iff_left hpressed]
  generalize choose lib s state (lib.ucs2keysym code) = c at hheld ⊢
  obtain ⟨s', chosen⟩ := c
  cases chosen with
  | none =>
    refine ⟨fun _ key newState h => ?_, fun _ => noEffect_nil⟩
    cases h
  | some chosen =>
    obtain ⟨key, newState⟩ := chosen
    have hkey := hheld key newState rfl
    have hone : ∀ P : KeyCode → UInt32 → Prop,
        (∀ key' newState', some (key, newState) = some (key', newState') → P key' newState') ↔
          P key newState := by
      intro P
      refine ⟨fun h => h key newState rfl, fun h key' newState' heq => ?_⟩
      obtain ⟨rfl, rfl⟩ := Prod.mk.inj (Option.some.inj heq)
      exact h
    refine Iff.trans ?_ (hone _).symm
    dsimp only
    cases hshift : fakeShift s'.keymap state newState down with
    | none => exact ⟨fun _ => trivial, fun _ => noEffect_nil⟩
    | some shift =>
      have hvalid := valid_fakeShift hshift
      cases hlevel : fakeLevelThree lib s'.keymap state newState down with
      | none => exact noEffect_events_iff hvalid
      | some levelThree =>
        have hkeeps := typing_keeps_iff hvalid (valid_fakeLevelThree hlevel) hkey
        exact (forall_congr' hkeeps).trans forall_and

end

/-! ### A keyboard with level three -/

/-- The library on ASCII letters. -/
def asciiLibrary : Library where
  ucs2keysym code := if 0x100 ≤ code then code ||| 0x01000000 else code
  convertCase sym :=
    if 0x61 ≤ sym ∧ sym ≤ 0x7a then (sym, sym - 0x20)
    else if 0x41 ≤ sym ∧ sym ≤ 0x5a then (sym + 0x20, sym)
    else (sym, sym)
  changeTypesOfKey m key :=
    { m with
      key := Function.update m.key key
        { numGroups := 1
          width := 2
          types := [{ mods := ShiftMask ||| LockMask
                      map := [{ mods := ShiftMask, level := 1 }, { mods := LockMask, level := 1 }] }]
          syms := [NoSymbol, NoSymbol] } }
  upper_ne := by
    intro sym hne
    split_ifs with hlower hupper
    · exact Nat.sub_ne_zero_of_lt (lt_of_lt_of_le (by decide) hlower.1)
    · exact hne
    · exact hne

/-- The modifier of level three. -/
def Mod5Mask : UInt32 := 0x80

/-- A key of one level. -/
def modifierKey (sym : KeySym) (mask : UInt32) : Key where
  numGroups := 1
  width := 1
  types := [{}]
  syms := [sym]
  actions := some [.setMods false mask]

/-- A keyboard with the letter A, which has `æ` at level three, and the keys for Shift and for
level three. -/
def danish : Keymap where
  min_key_code := 8
  max_key_code := 255
  key key :=
    if key = 38 then
      { numGroups := 1
        width := 4
        types := [{ mods := ShiftMask ||| Mod5Mask
                    map := [{ mods := ShiftMask, level := 1 }, { mods := Mod5Mask, level := 2 },
                      { mods := ShiftMask ||| Mod5Mask, level := 3 }] }]
        syms := [0x61, 0x41, 0xe6, 0xc6] }
    else if key = 50 then modifierKey 0xffe1 ShiftMask
    else if key = 108 then modifierKey XK_ISO_Level3_Shift Mod5Mask
    else {}
  modmap key := if key = 50 then ShiftMask else if key = 108 then Mod5Mask else 0
  names := none
  le_min := by decide
  max_le := by decide

/-- A capital letter is typed with a fake Shift that is undone. -/
theorem capital_noEffect :
    NoEffect (fun _ => false) (unicode asciiLibrary 0 (fun _ => false) { keymap := danish } 0x41).2 ∧
      ∀ i, (unicode asciiLibrary 0 (fun _ => false) { keymap := danish } 0x41).1.pressedKeys i =
        NoSymbol := by
  refine (unicode_noEffect_iff (.init danish) fun _ _ _ => rfl).2 fun key newState h => ?_
  have hchosen : (choose asciiLibrary { keymap := danish } 0 (asciiLibrary.ucs2keysym 0x41)).2 =
      some (38, ShiftMask) := by
    decide +kernel
  obtain ⟨-, rfl⟩ := Prod.mk.inj (Option.some.inj (hchosen.symm.trans h))
  have hshift : fakeShift (choose asciiLibrary { keymap := danish } 0
      (asciiLibrary.ucs2keysym 0x41)).1.keymap 0 ShiftMask (fun _ => false) =
        some (.press 50) := by
    decide +kernel
  have hlevel : fakeLevelThree asciiLibrary (choose asciiLibrary { keymap := danish } 0
      (asciiLibrary.ucs2keysym 0x41)).1.keymap 0 ShiftMask (fun _ => false) = some .nothing := by
    decide +kernel
  rw [hshift, hlevel]
  exact ⟨fun _ _ => rfl, fun _ _ => Or.inl rfl⟩

/-- If level three is locked and no key of it is held, the fake Shift stays down. -/
theorem capital_leaves_shift_down :
    Reachable asciiLibrary { keymap := danish } ∧
      (choose asciiLibrary { keymap := danish } Mod5Mask (asciiLibrary.ucs2keysym 0x41)).2 =
        some (38, ShiftMask) ∧
      (unicode asciiLibrary Mod5Mask (fun _ => false) { keymap := danish } 0x41).2 =
        [(50, true)] ∧
      ¬ NoEffect (fun _ => false)
        (unicode asciiLibrary Mod5Mask (fun _ => false) { keymap := danish } 0x41).2 := by
  have hevents : (unicode asciiLibrary Mod5Mask (fun _ => false) { keymap := danish } 0x41).2 =
      [(50, true)] := by
    decide +kernel
  refine ⟨.init danish, by decide +kernel, hevents, fun h => ?_⟩
  rw [hevents] at h
  exact absurd (h 50) (by decide)

end TermuxX11.Server.Keysym
