import TermuxX11.Server.Keysym

/-!
# The three lookups

`XkbTranslateKeyCode`, `XkbKeyActionPtr` and `XkbKeyEffectiveGroup` as they are written.  Each one
brings the group of the state into the range of the groups of the key by itself, and the first two
go through the map of the key type for the column.

The number of groups and the column are `int`, the group is `unsigned`.  Next to what it returns, a
lookup has the cell of the tables that this is from, unless it returns before it has found one.
`translateKeyCode`, `keyAction` and `Key.effectiveGroup` say what they give (`xkb…_eq`).
-/

namespace TermuxX11.Server.Xkb

/-- The group that a lookup uses, and the column of the tables. -/
structure Cell where
  effectiveGroup : ℕ
  col : ℤ
  deriving DecidableEq, Repr

/-- What `XkbTranslateKeyCode` returns. -/
structure Translation where
  mods_rtrn : UInt32 := 0
  keysym_rtrn : KeySym := NoSymbol
  hasSymbol : Bool := false
  cell : Option Cell := none

namespace KeyType

variable (type : KeyType) (mods : UInt32)

/-- The loop of `XkbTranslateKeyCode` over the map: the column, and the modifiers that are
preserved.  A type that preserves nothing may be without the second table. -/
def translateColumn : ℕ → List MapEntry → ℤ → ℤ × UInt32
  | _, [], col => (col, 0)
  | i, entry :: map, col =>
    if entry.active && (mods &&& type.mods) == entry.mods then
      (col + entry.level, type.preserve.getD i 0)
    else translateColumn (i + 1) map col

/-- The loop of `XkbKeyActionPtr` over the map. -/
def actionColumn : List MapEntry → ℤ → ℤ
  | [], col => col
  | entry :: map, col =>
    if entry.active && (mods &&& type.mods) == entry.mods then col + entry.level
    else actionColumn map col

/-- The levels that a type can give: the first, and those of the rows of its map. -/
def levels : List ℕ := 0 :: type.map.map MapEntry.level

/-- The level for a state. -/
def level : ℕ :=
  match type.entry mods with
  | some (e, _) => e.level
  | none => 0

/-- The modifiers that are preserved in a state. -/
def preserved : UInt32 :=
  match type.entry mods with
  | some (_, i) => type.preserve.getD i 0
  | none => 0

end KeyType

namespace Keymap

variable (m : Keymap) (key : KeyCode) (mods : UInt32)

/-- `XkbTranslateKeyCode`. -/
def xkbTranslateKeyCode : Translation :=
  let k := m.key key
  let nKeyGroups : ℤ := k.numGroups
  if !m.keycodeInRange key || nKeyGroups == 0 then {}
  else
    let effectiveGroup := groupForCoreState mods
    let effectiveGroup :=
      if effectiveGroup ≥ nKeyGroups.toNat then
        match k.outOfRange with
        | .wrap => effectiveGroup % nKeyGroups.toNat
        | .clamp => (nKeyGroups - 1).toNat
        | .redirect group => if group ≥ nKeyGroups.toNat then 0 else group
      else effectiveGroup
    let col : ℤ := effectiveGroup * k.width
    let type := k.types.getD effectiveGroup default
    let (col, preserve) := type.translateColumn mods 0 type.map col
    let keysym := k.syms.getD col.toNat NoSymbol
    { mods_rtrn := type.mods &&& ~~~preserve
      keysym_rtrn := keysym
      hasSymbol := keysym ≠ NoSymbol
      cell := some ⟨effectiveGroup, col⟩ }

/-- `XkbKeyActionPtr`. -/
def xkbKeyActionPtr : Option (Cell × Action) :=
  let k := m.key key
  match k.actions with
  | none => none
  | some acts =>
    let nKeyGroups : ℤ := k.numGroups
    if !m.keycodeInRange key || nKeyGroups == 0 then none
    else
      let effectiveGroup := groupForCoreState mods
      let effectiveGroup :=
        if effectiveGroup ≥ nKeyGroups.toNat then
          match k.outOfRange with
          | .wrap => effectiveGroup % nKeyGroups.toNat
          | .clamp => (nKeyGroups - 1).toNat
          | .redirect group => if group ≥ nKeyGroups.toNat then 0 else group
        else effectiveGroup
      let col : ℤ := effectiveGroup * k.width
      let type := k.types.getD effectiveGroup default
      let col := type.actionColumn mods type.map col
      some (⟨effectiveGroup, col⟩, acts.getD col.toNat .other)

/-- `XkbKeyEffectiveGroup`. -/
def xkbKeyEffectiveGroup : ℕ :=
  let k := m.key key
  let nKeyGroups : ℤ := k.numGroups
  if !m.keycodeInRange key || nKeyGroups == 0 then 0
  else
    let effectiveGroup := groupForCoreState mods
    if effectiveGroup ≥ nKeyGroups.toNat then
      match k.outOfRange with
      | .wrap => effectiveGroup % nKeyGroups.toNat
      | .clamp => (nKeyGroups - 1).toNat
      | .redirect group => if group ≥ nKeyGroups.toNat then 0 else group
    else effectiveGroup

end Keymap

/-! ### The column -/

namespace KeyType

variable (type : KeyType) (mods : UInt32)

theorem translateColumn_eq (i : ℕ) (map : List MapEntry) (col : ℤ) :
    type.translateColumn mods i map col =
      match (map.zipIdx i).find? fun e => e.1.active && (mods &&& type.mods) == e.1.mods with
      | some (e, j) => (col + e.level, type.preserve.getD j 0)
      | none => (col, 0) := by
  induction map generalizing i with
  | nil => rfl
  | cons entry map ih =>
    rw [translateColumn, List.zipIdx_cons, List.find?_cons]
    cases htest : entry.active && (mods &&& type.mods) == entry.mods with
    | true => rfl
    | false => exact ih (i + 1)

/-- The loop adds the level to the column. -/
theorem translateColumn_map (col : ℤ) :
    type.translateColumn mods 0 type.map col = (col + type.level mods, type.preserved mods) := by
  rw [translateColumn_eq, level, preserved, entry]
  split
  · rfl
  · rw [Nat.cast_zero, add_zero]

/-- Both loops come to the same column. -/
theorem actionColumn_eq (i : ℕ) (map : List MapEntry) (col : ℤ) :
    type.actionColumn mods map col = (type.translateColumn mods i map col).1 := by
  induction map generalizing i with
  | nil => rfl
  | cons entry map ih =>
    rw [actionColumn, translateColumn]
    split_ifs
    · rfl
    · exact ih (i + 1)

theorem level_mem_levels : type.level mods ∈ type.levels := by
  rw [level, levels]
  split
  next e i heq =>
    have hmem : e ∈ type.map := List.fst_mem_of_mem_zipIdx (List.mem_of_find?_eq_some heq)
    exact List.mem_cons_of_mem 0 (List.mem_map_of_mem hmem)
  next => exact List.mem_cons_self

end KeyType

/-! ### The group -/

/-- A group that a key does not have becomes one that it has. -/
theorem Key.effectiveGroup_lt {k : Key} (h : k.numGroups ≠ 0) (mods : UInt32) :
    k.effectiveGroup mods < k.numGroups := by
  have hpos : 0 < k.numGroups := Nat.pos_of_ne_zero h
  rw [Key.effectiveGroup]
  split_ifs with hgroup
  · exact hgroup
  · split
    · exact Nat.mod_lt _ hpos
    · exact Nat.sub_one_lt h
    · split_ifs with hredirect
      · exact hredirect
      · exact hpos

/-- The group as each of the lookups works it out, from an `int` and an `unsigned`. -/
theorem Key.effectiveGroup_eq (k : Key) (mods : UInt32) :
    (if groupForCoreState mods ≥ (k.numGroups : ℤ).toNat then
      match k.outOfRange with
      | .wrap => groupForCoreState mods % (k.numGroups : ℤ).toNat
      | .clamp => ((k.numGroups : ℤ) - 1).toNat
      | .redirect group => if group ≥ (k.numGroups : ℤ).toNat then 0 else group
    else groupForCoreState mods) = k.effectiveGroup mods := by
  have hclamp : ((k.numGroups : ℤ) - 1).toNat = k.numGroups - 1 := by omega
  rw [Key.effectiveGroup, Int.toNat_natCast, hclamp]
  by_cases hgroup : groupForCoreState mods < k.numGroups
  · rw [if_pos hgroup, if_neg (not_le.2 hgroup)]
  · rw [if_neg hgroup, if_pos (not_lt.1 hgroup)]
    cases k.outOfRange with
    | wrap => rfl
    | clamp => rfl
    | redirect group =>
      show (if group ≥ k.numGroups then 0 else group) = if group < k.numGroups then group else 0
      by_cases hredirect : group < k.numGroups
      · rw [if_neg (not_le.2 hredirect), if_pos hredirect]
      · rw [if_pos (not_lt.1 hredirect), if_neg hredirect]

theorem Key.col_eq (k : Key) (mods : UInt32) :
    k.col mods = k.effectiveGroup mods * k.width + (k.type mods).level mods := rfl

/-! ### The lookups -/

namespace Keymap

variable {m : Keymap} {key : KeyCode}

/-- The early return of all three is not taken for a key that has groups. -/
theorem not_early (hrange : m.keycodeInRange key = true) (hgroups : (m.key key).numGroups ≠ 0) :
    ¬ (!m.keycodeInRange key || (m.key key).numGroups == 0) = true := by
  rw [hrange]
  simpa using hgroups

theorem not_early_int (hrange : m.keycodeInRange key = true)
    (hgroups : (m.key key).numGroups ≠ 0) :
    ¬ (!m.keycodeInRange key || ((m.key key).numGroups : ℤ) == 0) = true := by
  rw [hrange]
  simpa using hgroups

theorem xkbKeyEffectiveGroup_eq (hrange : m.keycodeInRange key = true)
    (hgroups : (m.key key).numGroups ≠ 0) (mods : UInt32) :
    m.xkbKeyEffectiveGroup key mods = (m.key key).effectiveGroup mods := by
  rw [xkbKeyEffectiveGroup, if_neg (not_early_int hrange hgroups)]
  exact Key.effectiveGroup_eq _ mods

/-- The cell for a state. -/
def cell (m : Keymap) (key : KeyCode) (mods : UInt32) : Cell where
  effectiveGroup := (m.key key).effectiveGroup mods
  col := (m.key key).col mods

theorem xkbTranslateKeyCode_eq (hrange : m.keycodeInRange key = true)
    (hgroups : (m.key key).numGroups ≠ 0) (mods : UInt32) :
    m.xkbTranslateKeyCode key mods =
      { mods_rtrn := (m.translateKeyCode key mods).1
        keysym_rtrn := (m.translateKeyCode key mods).2
        hasSymbol := (m.translateKeyCode key mods).2 ≠ NoSymbol
        cell := some (m.cell key mods) } := by
  rw [xkbTranslateKeyCode, if_neg (not_early_int hrange hgroups), translateKeyCode,
    if_neg (not_early hrange hgroups)]
  dsimp only
  rw [Key.effectiveGroup_eq, ← Key.type, KeyType.translateColumn_map, ← Nat.cast_mul,
    ← Nat.cast_add, ← Key.col_eq]
  rfl

theorem xkbKeyActionPtr_eq (hrange : m.keycodeInRange key = true)
    (hgroups : (m.key key).numGroups ≠ 0) (mods : UInt32) :
    m.xkbKeyActionPtr key mods =
      (m.keyAction key mods).map fun action => (m.cell key mods, action) := by
  rw [xkbKeyActionPtr, keyAction]
  cases hactions : (m.key key).actions with
  | none => rfl
  | some acts =>
    dsimp only
    rw [if_neg (not_early_int hrange hgroups), if_neg (not_early hrange hgroups),
      Key.effectiveGroup_eq, ← Key.type, KeyType.actionColumn_eq _ _ 0,
      KeyType.translateColumn_map, ← Nat.cast_mul, ← Nat.cast_add, ← Key.col_eq]
    rfl

/-- **The three lookups agree.**  For every keymap, every key in range that has a group and every
state, they use the same group, which the key has; the symbol and the action are those of the same
level of it, which is within the width of the group if the levels of the type are. -/
theorem lookups_agree (hrange : m.keycodeInRange key = true)
    (hgroups : (m.key key).numGroups ≠ 0) (mods : UInt32) :
    ∃ group level : ℕ, group < (m.key key).numGroups ∧
      m.xkbKeyEffectiveGroup key mods = group ∧
      (m.xkbTranslateKeyCode key mods).cell = some ⟨group, group * (m.key key).width + level⟩ ∧
      (m.xkbTranslateKeyCode key mods).keysym_rtrn =
        (m.key key).syms.getD (group * (m.key key).width + level) NoSymbol ∧
      (∀ acts, (m.key key).actions = some acts →
        m.xkbKeyActionPtr key mods = some (⟨group, group * (m.key key).width + level⟩,
          acts.getD (group * (m.key key).width + level) .other)) ∧
      ((∀ l ∈ ((m.key key).types.getD group default).levels, l < (m.key key).width) →
        level < (m.key key).width) := by
  refine ⟨(m.key key).effectiveGroup mods, ((m.key key).type mods).level mods,
    Key.effectiveGroup_lt hgroups mods, xkbKeyEffectiveGroup_eq hrange hgroups mods, ?_, ?_, ?_, ?_⟩
  · rw [xkbTranslateKeyCode_eq hrange hgroups]
    rfl
  · rw [xkbTranslateKeyCode_eq hrange hgroups]
    show (m.translateKeyCode key mods).2 = _
    rw [translateKeyCode, if_neg (not_early hrange hgroups), Key.col_eq]
  · intro acts hacts
    rw [xkbKeyActionPtr_eq hrange hgroups, keyAction, hacts]
    dsimp only
    rw [if_neg (not_early hrange hgroups)]
    rfl
  · intro hlevels
    exact hlevels _ (KeyType.level_mem_levels _ mods)

/-- The key of a pad with two groups, of which the second has one level. -/
def pad : Keymap :=
  { Keysym.danish with
    key := fun key =>
      if key = 87 then
        { numGroups := 2
          outOfRange := .redirect 1
          width := 2
          types := [{ mods := ShiftMask, map := [{ mods := ShiftMask, level := 1 }] }, {}]
          syms := [0xff9c, 0xffb1, 0xff57, NoSymbol]
          actions := some [.other, .setMods false ShiftMask, .other, .other] }
      else {} }

/-- The fourth group is redirected to the second, which has no level for Shift. -/
theorem lookups_agree_pad :
    (pad.keycodeInRange 87 = true ∧ (pad.key 87).numGroups ≠ 0) ∧
      ∃ level : ℕ, pad.xkbKeyEffectiveGroup 87 0x6001 = 1 ∧
        (pad.xkbTranslateKeyCode 87 0x6001).cell = some ⟨1, 1 * 2 + level⟩ ∧
        pad.xkbKeyActionPtr 87 0x6001 = some (⟨1, 1 * 2 + level⟩, .other) ∧ level < 2 := by
  have hkey : pad.keycodeInRange 87 = true ∧ (pad.key 87).numGroups ≠ 0 := by decide
  obtain ⟨group, level, -, hgroup, hcell, -, haction, hlevel⟩ :=
    lookups_agree hkey.1 hkey.2 0x6001
  have hone : pad.xkbKeyEffectiveGroup 87 0x6001 = 1 := by decide
  obtain rfl : 1 = group := hone.symm.trans hgroup
  have hlt : level < 2 := hlevel (by decide)
  refine ⟨hkey, level, hone, hcell, ?_, hlt⟩
  rw [haction _ rfl]
  interval_cases level
  · rfl
  · rfl

end Keymap

end TermuxX11.Server.Xkb
