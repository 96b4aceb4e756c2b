import TermuxX11.Lib.Recency
import TermuxX11.Lib.Run
import TermuxX11.Server.Keysym

/-!
# The keys that are added

A symbol that no key gives is put on a key that has none, or else on the key that was added or used
the longest time ago.  `addedKeysyms` has the keys that were added, and `vncOnKeyUsed` keeps them in
the order of use.

`uses` goes along with the state and has the keys that were added and used, the newest first.
-/

namespace TermuxX11.Server.Keysym

open Recency Run Xkb

/-- What is documented of `XkbChangeTypesOfKey`: the key gets one group with room for two levels,
and no other key is changed. -/
structure ChangesOneKey (lib : Library) : Prop where
  key_of_ne : ∀ m {key k}, k ≠ key → (lib.changeTypesOfKey m key).key k = m.key k
  min_key_code : ∀ m key, (lib.changeTypesOfKey m key).min_key_code = m.min_key_code
  max_key_code : ∀ m key, (lib.changeTypesOfKey m key).max_key_code = m.max_key_code
  numGroups : ∀ m key, ((lib.changeTypesOfKey m key).key key).numGroups = 1
  two_le : ∀ m key, 2 ≤ ((lib.changeTypesOfKey m key).key key).syms.length

/-- The test that `getReusableKeycode` makes of an entry: the key has the symbol at level one, and a
name that was given to it. -/
structure Usable (m : Keymap) (a : KeyCode × KeySym) : Prop where
  numGroups : 0 < (m.key a.1).numGroups
  sym : (m.key a.1).syms.getD 0 NoSymbol = a.2
  name : ∀ name, m.names = some name → name a.1 = 'T'

/-- Each key has a symbol. -/
def Full (m : Keymap) : Prop := ∀ key ∈ m.keys, (m.key key).numGroups ≠ 0

variable {lib : Library} {m : Keymap} {added : List (KeyCode × KeySym)}

/-! ### A key is added -/

/-- Where all entries pass the test, the last is taken. -/
theorem getReusableKeycode_eq (h : ∀ a ∈ added, Usable m a) :
    m.getReusableKeycode added = (added.getLast?.map Prod.fst, added.dropLast) := by
  unfold Keymap.getReusableKeycode
  dsimp only
  rw [List.dropWhile_eq_self_iff.2 ?_]
  · simp
  intro hl
  obtain ⟨hgroups, hsym, hname⟩ := h _ (List.mem_reverse.1 (List.getElem_mem hl))
  rw [decide_eq_true hgroups, hsym, beq_self_eq_true, Bool.true_and, Bool.true_and]
  split
  · decide
  next name hnames =>
    rw [hname name hnames]
    decide

/-- The keymap with a symbol on a key, as `lorieAddKeysym` puts it there. -/
def putSymbol (lib : Library) (m : Keymap) (key : KeyCode) (keysym : KeySym) : Keymap :=
  let m' := lib.changeTypesOfKey m key
  { m' with
    key := Function.update m'.key key
      { m'.key key with
        syms := ((m'.key key).syms.set 0 (lib.convertCase keysym).1).set 1
          (lib.convertCase keysym).2 }
    names := m.names.map fun name => Function.update name key 'T' }

theorem key_putSymbol_of_ne (hlib : ChangesOneKey lib) {key k : KeyCode} (hk : k ≠ key)
    (keysym : KeySym) : (putSymbol lib m key keysym).key k = m.key k :=
  (Function.update_of_ne hk _ _).trans (hlib.key_of_ne m hk)

/-- The new key passes the test. -/
theorem usable_putSymbol (hlib : ChangesOneKey lib) (m : Keymap) (key : KeyCode)
    (keysym : KeySym) : Usable (putSymbol lib m key keysym) (key, (lib.convertCase keysym).1) := by
  have hgroups := hlib.numGroups m key
  have hroom := hlib.two_le m key
  unfold putSymbol
  refine ⟨?_, ?_, fun name hname => ?_⟩
  · simp [hgroups]
  · have hzero : 0 < ((lib.changeTypesOfKey m key).key key).syms.length := by omega
    simp [hzero]
  · obtain ⟨name', -, rfl⟩ := Option.map_eq_some_iff.1 hname
    exact Function.update_self key 'T' name'

/-- The others still do. -/
theorem Usable.putSymbol (hlib : ChangesOneKey lib) {a : KeyCode × KeySym} (ha : Usable m a)
    {key : KeyCode} (hne : a.1 ≠ key) (keysym : KeySym) :
    Usable (putSymbol lib m key keysym) a := by
  refine ⟨?_, ?_, fun name hname => ?_⟩
  · rw [key_putSymbol_of_ne hlib hne]
    exact ha.numGroups
  · rw [key_putSymbol_of_ne hlib hne]
    exact ha.sym
  · obtain ⟨name', hname', rfl⟩ := Option.map_eq_some_iff.1 hname
    exact (Function.update_of_ne hne 'T' name').trans (ha.name name' hname')

/-- All that `lorieAddKeysym` can do: the symbol is put on a key that was without one, or, if each
key has one, on the key that is used again, or on none. -/
theorem addKeysym_forms (lib : Library) (m : Keymap) (added : List (KeyCode × KeySym))
    (keysym : KeySym) :
    (∃ key ∈ m.keys, (m.key key).numGroups = 0 ∧ m.addKeysym lib added keysym =
        (putSymbol lib m key keysym, (key, (lib.convertCase keysym).1) :: added, some key)) ∨
      Full m ∧
        ((m.getReusableKeycode added).1 = none ∧
            m.addKeysym lib added keysym = (m, (m.getReusableKeycode added).2, none) ∨
          ∃ key, (m.getReusableKeycode added).1 = some key ∧ m.addKeysym lib added keysym =
            (putSymbol lib m key keysym,
              (key, (lib.convertCase keysym).1) :: (m.getReusableKeycode added).2, some key)) := by
  unfold Keymap.addKeysym
  cases hfind : m.keys.reverse.find? fun key => (m.key key).numGroups = 0 with
  | some key =>
    have hmem := List.mem_reverse.1 (List.mem_of_find?_eq_some hfind)
    have htest := List.find?_some hfind
    exact Or.inl ⟨key, hmem, of_decide_eq_true htest, rfl⟩
  | none =>
    refine Or.inr ⟨fun key hkey hzero => ?_, ?_⟩
    · exact List.find?_eq_none.1 hfind key (List.mem_reverse.2 hkey) (decide_eq_true hzero)
    · dsimp only
      rcases m.getReusableKeycode added with ⟨key?, rest⟩
      cases key? with
      | none => exact Or.inl ⟨rfl, rfl⟩
      | some key => exact Or.inr ⟨key, rfl, rfl⟩

/-- What is left of that where the entries pass the test: nothing is done if there is neither a key
without a symbol nor an entry, and a key that is used again is that of the last entry. -/
theorem addKeysym_cases (lib : Library) (h : ∀ a ∈ added, Usable m a) (keysym : KeySym) :
    (added = [] ∧ m.addKeysym lib added keysym = (m, [], none)) ∨
      ∃ key rest, m.addKeysym lib added keysym =
          (putSymbol lib m key keysym, (key, (lib.convertCase keysym).1) :: rest, some key) ∧
        (key ∈ m.keys ∧ (m.key key).numGroups = 0 ∧ rest = added ∨
          Full m ∧ ∃ sym, added = rest ++ [(key, sym)]) := by
  have hreuse := getReusableKeycode_eq h
  rcases addKeysym_forms lib m added keysym with
    ⟨key, hmem, hzero, heq⟩ | ⟨hfull, ⟨hnone, heq⟩ | ⟨key, hkey, heq⟩⟩
  · exact Or.inr ⟨key, added, heq, Or.inl ⟨hmem, hzero, rfl⟩⟩
  · rw [hreuse] at hnone heq
    obtain rfl := List.getLast?_eq_none_iff.1 (Option.map_eq_none_iff.1 hnone)
    exact Or.inl ⟨rfl, heq⟩
  · rw [hreuse] at hkey heq
    obtain ⟨⟨key', sym⟩, hlast, rfl⟩ := Option.map_eq_some_iff.1 hkey
    refine Or.inr ⟨key', added.dropLast, heq, Or.inr ⟨hfull, sym, ?_⟩⟩
    exact (List.dropLast_append_getLast? _ hlast).symm

/-- Where each key has a symbol, a new one is put on the key of the last entry. -/
theorem addKeysym_of_full (h : ∀ a ∈ added, Usable m a) (hfull : Full m) {keysym : KeySym}
    {key : KeyCode} (hkey : (m.addKeysym lib added keysym).2.2 = some key) :
    ∃ rest sym, added = rest ++ [(key, sym)] := by
  rcases addKeysym_cases lib h keysym with ⟨-, heq⟩ | ⟨key', rest, heq, hfrom⟩
  · rw [heq] at hkey
    cases hkey
  · rw [heq] at hkey
    obtain rfl := Option.some.inj hkey
    rcases hfrom with ⟨hmem, hzero, -⟩ | ⟨-, sym, hadded⟩
    · exact absurd hzero (hfull key' hmem)
    · exact ⟨rest, sym, hadded⟩

/-! ### A key is used -/

/-- The key that is used goes to the front, if it is on the list. -/
theorem keys_onKeyUsed (added : List (KeyCode × KeySym)) (key : KeyCode) :
    (onKeyUsed added key).map Prod.fst =
      if key ∈ added.map Prod.fst then key :: (added.map Prod.fst).erase key
      else added.map Prod.fst := by
  have herase : (added.eraseP fun a => a.1 = key).map Prod.fst =
      (added.map Prod.fst).erase key := by
    induction added with
    | nil => rfl
    | cons a added ih =>
      rw [List.map_cons]
      by_cases ha : a.1 = key
      · simp [ha]
      · rw [List.eraseP_cons_of_neg (by simpa using ha), List.map_cons, ih,
          List.erase_cons_tail (by simpa using ha)]
  unfold onKeyUsed
  cases hfind : added.find? fun a => a.1 = key with
  | some a =>
    have htest := List.find?_some hfind
    have hkey : a.1 = key := of_decide_eq_true htest
    have hmem : key ∈ added.map Prod.fst :=
      List.mem_map.2 ⟨a, List.mem_of_find?_eq_some hfind, hkey⟩
    rw [if_pos hmem, List.map_cons, herase, hkey]
  | none =>
    have hnot : key ∉ added.map Prod.fst := by
      rintro hmem
      obtain ⟨a, ha, hkey⟩ := List.mem_map.1 hmem
      exact List.find?_eq_none.1 hfind a ha (decide_eq_true hkey)
    rw [if_neg hnot]

theorem mem_onKeyUsed {a : KeyCode × KeySym} {key : KeyCode} (ha : a ∈ onKeyUsed added key) :
    a ∈ added := by
  unfold onKeyUsed at ha
  split at ha
  next b hb =>
    rcases List.mem_cons.1 ha with rfl | ha
    · exact List.mem_of_find?_eq_some hb
    · exact List.mem_of_mem_eraseP ha
  · exact ha

/-! ### One character -/

/-- A key that gives the symbol, or one with the same meaning, without a new one. -/
def known (lib : Library) (s : State) (state : UInt32) (keysym : KeySym) :
    Option (KeyCode × UInt32) :=
  (s.keymap.keysymToKeycode lib keysym state).or
    ((alternatives keysym).findSome? fun altsym => s.keymap.keysymToKeycode lib altsym state)

/-- The key that is added for a symbol. -/
def addedKey (lib : Library) (s : State) (state : UInt32) (keysym : KeySym) : Option KeyCode :=
  if (known lib s state keysym).isSome then none
  else (s.keymap.addKeysym lib s.addedKeysyms keysym).2.2

/-- The key that `vncOnKeyUsed` is called with, where it is. -/
def usedKey (lib : Library) (state : UInt32) (down : KeyCode → Bool) (s : State)
    (keysym : KeySym) : Option KeyCode :=
  let (s, chosen) := choose lib s state keysym
  chosen.bind fun (keycode, newState) =>
    if (fakeShift s.keymap state newState down).isSome ∧
        (fakeLevelThree lib s.keymap state newState down).isSome then some keycode
    else none

/-- What a press leaves of the keymap and of the list. -/
theorem keysymPress_added (lib : Library) (state : UInt32) (down : KeyCode → Bool) (s : State)
    (keysym : KeySym) :
    (keysymPress lib state down s keysym).1.keymap = (findKeycode lib s state keysym).1.keymap ∧
      (keysymPress lib state down s keysym).1.addedKeysyms =
        match usedKey lib state down s keysym with
        | some key => onKeyUsed (findKeycode lib s state keysym).1.addedKeysyms key
        | none => (findKeycode lib s state keysym).1.addedKeysyms := by
  rcases hchoose : choose lib s state keysym with ⟨s', chosen⟩
  have hs' : (findKeycode lib s state keysym).1 = s' := congrArg Prod.fst hchoose
  simp only [keysymPress, usedKey, hchoose, hs']
  cases chosen with
  | none => exact ⟨rfl, rfl⟩
  | some chosen =>
    dsimp only [Option.bind_some]
    cases fakeShift s'.keymap state chosen.2 down with
    | none => exact ⟨rfl, rfl⟩
    | some shift =>
      cases fakeLevelThree lib s'.keymap state chosen.2 down with
      | none => exact ⟨rfl, rfl⟩
      | some levelThree => exact ⟨rfl, rfl⟩

/-- A release leaves both. -/
theorem keysymRelease_added (s : State) (keysym : KeySym) :
    (keysymRelease s keysym).1.keymap = s.keymap ∧
      (keysymRelease s keysym).1.addedKeysyms = s.addedKeysyms := by
  unfold keysymRelease
  split
  · exact ⟨rfl, rfl⟩
  · exact ⟨rfl, rfl⟩

/-- Looking for a key adds one, or leaves the state. -/
theorem findKeycode_added (lib : Library) (s : State) (state : UInt32) (keysym : KeySym) :
    (∃ found, known lib s state keysym = some found ∧ (findKeycode lib s state keysym).1 = s) ∨
      known lib s state keysym = none ∧
        (findKeycode lib s state keysym).1.keymap =
          (s.keymap.addKeysym lib s.addedKeysyms keysym).1 ∧
        (findKeycode lib s state keysym).1.addedKeysyms =
          (s.keymap.addKeysym lib s.addedKeysyms keysym).2.1 := by
  unfold findKeycode
  cases hknown : known lib s state keysym with
  | some found =>
    rw [known] at hknown
    rw [hknown]
    exact Or.inl ⟨found, rfl, rfl⟩
  | none =>
    rw [known] at hknown
    rw [hknown]
    exact Or.inr ⟨rfl, rfl, rfl⟩

/-! ### Runs -/

/-- An `EVENT_UNICODE`, with the state of the keyboard and the keys that are down. -/
structure Character where
  code : ℕ
  state : UInt32
  down : KeyCode → Bool

/-- The state, and the keys that were added or used, the newest first. -/
structure Typed where
  state : State
  uses : List KeyCode := []

/-- One character. -/
def Typed.step (lib : Library) (t : Typed) (c : Character) : Typed where
  state := (unicode lib c.state c.down t.state c.code).1
  uses := (usedKey lib c.state c.down t.state (lib.ucs2keysym c.code)).toList ++
    (addedKey lib t.state c.state (lib.ucs2keysym c.code)).toList ++ t.uses

/-- What a character leaves of the keymap and of the list. -/
theorem Typed.step_added (lib : Library) (t : Typed) (c : Character) :
    (t.step lib c).state.keymap =
        (findKeycode lib t.state c.state (lib.ucs2keysym c.code)).1.keymap ∧
      (t.step lib c).state.addedKeysyms =
        match usedKey lib c.state c.down t.state (lib.ucs2keysym c.code) with
        | some key =>
          onKeyUsed (findKeycode lib t.state c.state (lib.ucs2keysym c.code)).1.addedKeysyms key
        | none => (findKeycode lib t.state c.state (lib.ucs2keysym c.code)).1.addedKeysyms := by
  obtain ⟨hkeymap, hadded⟩ :=
    keysymPress_added lib c.state c.down t.state (lib.ucs2keysym c.code)
  obtain ⟨hkeymap', hadded'⟩ := keysymRelease_added
    (keysymPress lib c.state c.down t.state (lib.ucs2keysym c.code)).1 (lib.ucs2keysym c.code)
  exact ⟨hkeymap'.trans hkeymap, hadded'.trans hadded⟩

/-- The list is in the order of use, its entries pass the test and are about keys that the first
keymap has no symbol on, and the other keys are as they were. -/
structure Cached (first m : Keymap) (added : List (KeyCode × KeySym)) (uses : List KeyCode) :
    Prop where
  ordered : Ordered uses (added.map Prod.fst)
  usable : ∀ a ∈ added, Usable m a
  unmapped : ∀ a ∈ added, (first.key a.1).numGroups = 0
  original : ∀ key, (first.key key).numGroups ≠ 0 → m.key key = first.key key

section

variable {first : Keymap} {uses : List KeyCode}

/-- A key is used. -/
theorem Cached.use (h : Cached first m added uses) (key : KeyCode) :
    Cached first m (onKeyUsed added key) (key :: uses) where
  ordered := by
    rw [keys_onKeyUsed]
    split_ifs with hmem
    · exact h.ordered.touch key
    · exact h.ordered.other hmem
  usable a ha := h.usable a (mem_onKeyUsed ha)
  unmapped a ha := h.unmapped a (mem_onKeyUsed ha)
  original := h.original

/-- A key is added. -/
theorem Cached.add (hlib : ChangesOneKey lib) (h : Cached first m added uses) (keysym : KeySym) :
    Cached first (m.addKeysym lib added keysym).1 (m.addKeysym lib added keysym).2.1
      ((m.addKeysym lib added keysym).2.2.toList ++ uses) := by
  rcases addKeysym_cases lib h.usable keysym with ⟨rfl, heq⟩ | ⟨key, rest, heq, hfrom⟩
  · rw [heq]
    exact h
  -- the key is not that of an entry that stays
  have hrest : rest.Sublist added ∧ key ∉ rest.map Prod.fst ∧ (first.key key).numGroups = 0 := by
    rcases hfrom with ⟨-, hzero, rfl⟩ | ⟨-, sym, rfl⟩
    · refine ⟨List.Sublist.refl _, fun hmem => ?_, ?_⟩
      · obtain ⟨a, ha, rfl⟩ := List.mem_map.1 hmem
        exact (h.usable a ha).numGroups.ne' hzero
      · by_contra hne
        rw [h.original key hne] at hzero
        exact hne hzero
    · have hnodup := h.ordered.nodup
      rw [List.map_append, List.nodup_append] at hnodup
      refine ⟨List.sublist_append_left _ _, fun hmem => ?_, ?_⟩
      · exact hnodup.2.2 key hmem key List.mem_cons_self rfl
      · exact h.unmapped (key, sym) (List.mem_append_right _ List.mem_cons_self)
  obtain ⟨hsub, hnot, hzero⟩ := hrest
  rw [heq]
  refine ⟨(h.ordered.sublist (hsub.map _)).push hnot, ?_, ?_, ?_⟩
  · intro a ha
    rcases List.mem_cons.1 ha with rfl | hold
    · exact usable_putSymbol hlib _ _ _
    · refine (h.usable a (hsub.subset hold)).putSymbol hlib ?_ keysym
      rintro rfl
      exact hnot (List.mem_map_of_mem hold)
  · intro a ha
    rcases List.mem_cons.1 ha with rfl | hold
    · exact hzero
    · exact h.unmapped a (hsub.subset hold)
  · intro k hk
    have hne : k ≠ key := by
      rintro rfl
      exact hk hzero
    exact (key_putSymbol_of_ne hlib hne keysym).trans (h.original k hk)

/-- One character. -/
theorem cached_step (hlib : ChangesOneKey lib) {t : Typed}
    (h : Cached first t.state.keymap t.state.addedKeysyms t.uses) (c : Character) :
    Cached first (t.step lib c).state.keymap (t.step lib c).state.addedKeysyms
      (t.step lib c).uses := by
  have hfind : Cached first (findKeycode lib t.state c.state (lib.ucs2keysym c.code)).1.keymap
      (findKeycode lib t.state c.state (lib.ucs2keysym c.code)).1.addedKeysyms
      ((addedKey lib t.state c.state (lib.ucs2keysym c.code)).toList ++ t.uses) := by
    rcases findKeycode_added lib t.state c.state (lib.ucs2keysym c.code) with
      ⟨found, hknown, heq⟩ | ⟨hknown, hkeymap, hadded⟩
    · rw [heq, addedKey, hknown]
      exact h
    · rw [hkeymap, hadded, addedKey, hknown]
      exact h.add hlib _
  obtain ⟨hkeymap, hadded⟩ := t.step_added lib c
  have huses : (t.step lib c).uses =
      (usedKey lib c.state c.down t.state (lib.ucs2keysym c.code)).toList ++
        ((addedKey lib t.state c.state (lib.ucs2keysym c.code)).toList ++ t.uses) :=
    List.append_assoc _ _ _
  rw [hkeymap, hadded, huses]
  cases usedKey lib c.state c.down t.state (lib.ucs2keysym c.code) with
  | none => exact hfind
  | some key => exact hfind.use key

/-- The run of the characters, with nothing added before. -/
def typed (lib : Library) (first : Keymap) (cs : List Character) : Typed :=
  exec (Typed.step lib) { state := { keymap := first } } cs

/-- **The keys that are added are a cache that forgets the oldest.**  For every run of characters,
the keys on the list are distinct and in the order in which they were added or used, each still has
its symbol at level one, and no key with a symbol of the first keymap is changed; and where no key
is without a symbol, a new one is put on the key of the last entry, which was not added or used
since any other was. -/
theorem added_cache (hlib : ChangesOneKey lib) (first : Keymap) (cs : List Character) :
    let t := typed lib first cs
    Ordered t.uses (t.state.addedKeysyms.map Prod.fst) ∧
      (∀ a ∈ t.state.addedKeysyms, 0 < (t.state.keymap.key a.1).numGroups ∧
        (t.state.keymap.key a.1).syms.getD 0 NoSymbol = a.2) ∧
      (∀ key, (first.key key).numGroups ≠ 0 → t.state.keymap.key key = first.key key) ∧
      (Full t.state.keymap → ∀ keysym key,
        (t.state.keymap.addKeysym lib t.state.addedKeysyms keysym).2.2 = some key →
          ∃ rest sym, t.state.addedKeysyms = rest ++ [(key, sym)] ∧
            ∀ a ∈ rest, Newer t.uses a.1 key) := by
  have hcached : Cached first (typed lib first cs).state.keymap
      (typed lib first cs).state.addedKeysyms (typed lib first cs).uses := by
    refine List.foldlRecOn cs (Typed.step lib)
      (motive := fun t => Cached first t.state.keymap t.state.addedKeysyms t.uses) ?_ ?_
    · exact ⟨ordered_nil _, nofun, nofun, fun _ _ => rfl⟩
    · exact fun t ht c _ => cached_step hlib ht c
  refine ⟨hcached.ordered, fun a ha => ⟨(hcached.usable a ha).numGroups, (hcached.usable a ha).sym⟩,
    hcached.original, fun hfull keysym key hkey => ?_⟩
  obtain ⟨rest, sym, hadded⟩ := addKeysym_of_full hcached.usable hfull hkey
  refine ⟨rest, sym, hadded, fun a ha => ?_⟩
  have hordered := hcached.ordered
  rw [hadded, List.map_append] at hordered
  exact hordered.newer_last (List.mem_map_of_mem ha)

end

theorem changesOneKey_asciiLibrary : ChangesOneKey asciiLibrary where
  key_of_ne _ _ _ hk := Function.update_of_ne hk _ _
  min_key_code _ _ := rfl
  max_key_code _ _ := rfl
  numGroups m key := by simp [asciiLibrary]
  two_le m key := by simp [asciiLibrary]

/-- Two characters, of which the first is typed again. -/
def greek : List Character :=
  [⟨0x3b1, 0, fun _ => false⟩, ⟨0x3b2, 0, fun _ => false⟩, ⟨0x3b1, 0, fun _ => false⟩]

/-- The one that was typed last is in front. -/
theorem added_cache_greek :
    (typed asciiLibrary danish greek).state.addedKeysyms.map Prod.fst = [255, 254] ∧
      Ordered (typed asciiLibrary danish greek).uses
        ((typed asciiLibrary danish greek).state.addedKeysyms.map Prod.fst) :=
  ⟨by decide +kernel, (added_cache changesOneKey_asciiLibrary danish greek).1⟩

end TermuxX11.Server.Keysym
