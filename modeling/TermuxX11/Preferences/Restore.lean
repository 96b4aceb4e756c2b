import TermuxX11.Preferences.Receiver

/-!
# Dumping and restoring preferences

`termux-x11-preference list > file` writes the answer of `list` to a file, and
`termux-x11-preference < file` reads lines of keys and values and sends them as the extras of one
intent.

The printer puts quotes around a value and escapes nothing; the parser cuts a line at every equals
sign.  A list preference is printed as one of its entries.
-/

namespace TermuxX11.Preferences

open Java

/-! ### Reading -/

/-- The quotes around a string are taken off; they may not be one and the same. -/
def unquote (s : Text) : Option Text :=
  if s.head? = some '"' ∧ s.getLast? = some '"' then
    if s.length = 1 then none else some s.tail.dropLast
  else some s

/-- A line of the standard input.  Without an equals sign it is answered by `help`, without a
value by an exception. -/
def parseLine (line : Text) : Option (Text × Text) :=
  if '=' ∉ line then none
  else
    match split '=' line with
    | key :: value :: _ => (unquote key).bind fun key => (unquote value).map fun value => (key, value)
    | _ => none

/-- `main` with no arguments: what is put into the intent. -/
def main (input : Text) : Option (List (Text × Text)) := (scanLines input).mapM parseLine

/-- The order in which a bundle gives its keys, the one of the answering interface among them. -/
structure Bundle where
  keySet : List (Text × Text) → List (Option Text)
  nodup : ∀ puts, (keySet puts).Nodup
  mem_iff : ∀ puts key, key ∈ keySet puts ↔ key ∈ none :: puts.map fun e => some e.1

/-- The extras of the intent; the last string put under a key is the one that counts. -/
def Bundle.extras (B : Bundle) (puts : List (Text × Text)) : List (Option Text × Option Text) :=
  (B.keySet puts).map fun key => (key, key.bind fun key => puts.reverse.lookup key)

/-- The answer to the intent for an input, if it is sent. -/
def restore (P : Prefs) (granted : Bool) (B : Bundle) (s : Store) (input : Text) :
    Option Outcome :=
  (main input).map fun puts => onReceive P granted s (B.extras puts)

/-- The text is accepted and every preference keeps its value. -/
def Restored (P : Prefs) (granted : Bool) (B : Bundle) (s : Store) (text : Text) : Prop :=
  -- `println` ends the last line
  ∃ o, restore P granted B s (text ++ ['\n']) = some o ∧ o.answer.status = 0 ∧
    ∀ p ∈ P.keys, o.store.get p.1 p.2 = s.get p.1 p.2

/-! ### What is read back -/

/-- The text that is printed for a preference. -/
def Store.shown (s : Store) (p : Text × PrefType) : Option Text := (s.get p.1 p.2).bind p.2.shown

/-- The line that is printed for a preference, without its end. -/
def Store.printedLine (s : Store) (p : Text × PrefType) : Text :=
  '"' :: (p.1 ++ ['"']) ++ '=' :: '"' :: ((s.shown p).getD [] ++ ['"'])

/-- The text that is read for a value that was printed. -/
def readBack (shown : Text) : Option Text :=
  if '=' ∈ shown then unquote ('"' :: shown.takeWhile (· ≠ '=')) else some shown

/-- The text that is read for a preference. -/
def Store.reread (s : Store) (p : Text × PrefType) : Option Text := (s.shown p).bind readBack

/-- What is put into the intent for the preferences. -/
def Prefs.reread (P : Prefs) (s : Store) : List (Text × Text) :=
  P.keys.map fun p => (p.1, (s.reread p).getD [])

/-- The value of a preference. -/
def Prefs.value (P : Prefs) (s : Store) (key : Text) : Option Value := (P.get key).bind (s.get key)

/-- No value is printed on more than one line. -/
def Prefs.OneLine (P : Prefs) (s : Store) : Prop :=
  ∀ p ∈ P.keys, ∀ shown ∈ s.shown p, shown.all (fun c => !isTerminator c) = true

theorem mapM_eq_some_iff {α β : Type} {f : α → Option β} {l : List α} {l' : List β} (d : β) :
    l.mapM f = some l' ↔ (∀ a ∈ l, (f a).isSome = true) ∧ l' = l.map fun a => (f a).getD d := by
  induction l generalizing l' with
  | nil =>
    rw [List.mapM_nil, List.map_nil, Option.pure_def, Option.some_inj]
    exact ⟨fun h => ⟨fun a ha => absurd ha List.not_mem_nil, h.symm⟩, fun h => h.2.symm⟩
  | cons a l ih =>
    rw [List.mapM_cons, Option.bind_eq_bind, Option.bind_eq_some_iff]
    constructor
    · rintro ⟨b, hb, h⟩
      obtain ⟨bs, hbs, h⟩ := Option.bind_eq_some_iff.1 h
      obtain rfl := Option.some.inj h
      obtain ⟨hall, rfl⟩ := ih.1 hbs
      refine ⟨List.forall_mem_cons.2 ⟨by simp [hb], hall⟩, by simp [hb]⟩
    · rintro ⟨hall, rfl⟩
      obtain ⟨ha, hall⟩ := List.forall_mem_cons.1 hall
      obtain ⟨b, hb⟩ := Option.isSome_iff_exists.1 ha
      refine ⟨b, hb, Option.bind_eq_some_iff.2 ⟨_, ih.2 ⟨hall, rfl⟩, by simp [hb]⟩⟩

theorem unquote_quoted (s : Text) : unquote ('"' :: (s ++ ['"'])) = some s := by
  have hlast : ('"' :: (s ++ ['"'])).getLast? = some '"' := by
    rw [← List.cons_append, List.getLast?_concat]
  rw [unquote, if_pos ⟨rfl, hlast⟩, if_neg (by simp), List.tail_cons, List.dropLast_concat]

/-- The pieces of a value between quotes. -/
theorem splitOn_quoted (shown : Text) :
    ∃ piece rest, ('"' :: (shown ++ ['"'])).splitOn '=' = piece :: rest ∧ piece ≠ [] ∧
      unquote piece = readBack shown := by
  by_cases hmem : '=' ∈ shown
  · obtain ⟨first, rest, rfl, hfirst⟩ := List.eq_append_cons_of_mem hmem
    have hpos : ∀ c ∈ first, decide (c ≠ '=') = true := by
      intro c hc
      exact decide_eq_true fun h => hfirst (h ▸ hc)
    have htake : (first ++ '=' :: rest).takeWhile (· ≠ '=') = first := by
      rw [List.takeWhile_append_of_pos hpos]
      simp
    have hpiece : '=' ∉ '"' :: first := by
      simpa using hfirst
    refine ⟨'"' :: first, (rest ++ ['"']).splitOn '=', ?_, by simp, ?_⟩
    · rw [← List.splitOn_append_cons_self_of_not_mem hpiece]
      simp
    · rw [readBack, if_pos hmem, htake]
  · have hnone : '=' ∉ '"' :: (shown ++ ['"']) := by
      simpa using hmem
    refine ⟨_, [], List.splitOn_eq_singleton hnone, by simp, ?_⟩
    rw [unquote_quoted, readBack, if_neg hmem]

/-- The line that is printed for a preference is read as its key and a value. -/
theorem parseLine_printed {key : Text} (hkey : key.all isPlain = true) (shown : Text) :
    parseLine ('"' :: (key ++ ['"']) ++ '=' :: '"' :: (shown ++ ['"'])) =
      (readBack shown).map fun value => (key, value) := by
  have hplain : '=' ∉ '"' :: (key ++ ['"']) := by
    intro h
    rcases List.mem_cons.1 h with h | h
    · cases h
    · rcases List.mem_append.1 h with h | h
      · exact absurd (List.all_eq_true.1 hkey _ h) (by decide)
      · simp at h
  obtain ⟨piece, rest, hsplit, hne, hpiece⟩ := splitOn_quoted shown
  obtain ⟨rest', hrest⟩ := split_of_splitOn (b := piece)
    ((List.splitOn_append_cons_self_of_not_mem hplain _).trans (congrArg _ hsplit)) hne
  rw [parseLine, if_neg (by simp), hrest]
  show ((unquote _).bind fun key => (unquote piece).map fun value => (key, value)) = _
  rw [unquote_quoted, hpiece, Option.bind_some]

section

variable {P : Prefs} {s : Store} {text : Text}

/-- The lines of the list. -/
theorem list_lines (h : P.list s = some text) :
    (∀ p ∈ P.keys, ∃ shown, s.shown p = some shown) ∧
      text ++ ['\n'] = (P.keys.map s.printedLine).flatMap (· ++ ['\n']) := by
  have hline : ∀ p, s.line p = (s.shown p).map (listLine p.1) := by
    intro p
    rw [Store.line, Store.shown, Option.map_bind]
    rfl
  obtain ⟨lines, hlines, h⟩ := Option.bind_eq_some_iff.1 h
  obtain ⟨hall, rfl⟩ := (mapM_eq_some_iff []).1 hlines
  have hshown : ∀ p ∈ P.keys, ∃ shown, s.shown p = some shown := by
    intro p hp
    have hp' := hall p hp
    rw [hline, Option.isSome_map] at hp'
    exact Option.isSome_iff_exists.1 hp'
  have hprinted : ∀ p ∈ P.keys, (s.line p).getD [] = s.printedLine p ++ ['\n'] := by
    intro p hp
    obtain ⟨shown, hshown⟩ := hshown p hp
    rw [hline, Store.printedLine, hshown]
    simp [listLine]
  rw [List.map_congr_left hprinted] at h
  refine ⟨hshown, ?_⟩
  split_ifs at h with hne
  obtain rfl := Option.some.inj h
  rcases List.eq_nil_or_concat P.keys with hkeys | ⟨keys, p, hkeys⟩
  · simp [hkeys] at hne
  · rw [hkeys]
    simp [List.flatMap_def, Function.comp_def]

/-- What `main` puts into the intent for the list. -/
theorem main_list (h : P.list s = some text) (hlines : P.OneLine s) (puts : List (Text × Text)) :
    main (text ++ ['\n']) = some puts ↔
      (∀ p ∈ P.keys, (s.reread p).isSome = true) ∧ puts = P.reread s := by
  obtain ⟨hshown, htext⟩ := list_lines h
  have hplain : ∀ l ∈ P.keys.map s.printedLine, ∀ c ∈ l, isTerminator c = false := by
    intro l hl c hc
    obtain ⟨p, hp, rfl⟩ := List.mem_map.1 hl
    obtain ⟨shown, hshown⟩ := hshown p hp
    have hkey : ∀ c ∈ p.1, isTerminator c = false := fun c hc => by
      have hplain := List.all_eq_true.1 (P.plain p hp) c hc
      rw [isPlain, Bool.and_eq_true] at hplain
      simpa using hplain.2
    have hvalue : ∀ c ∈ shown, isTerminator c = false := fun c hc => by
      simpa using List.all_eq_true.1 (hlines p hp shown hshown) c hc
    have hquote : isTerminator '"' = false := by decide
    have hequals : isTerminator '=' = false := by decide
    rw [Store.printedLine, hshown] at hc
    simp only [Option.getD_some, List.cons_append, List.append_assoc, List.mem_cons,
      List.mem_append, List.not_mem_nil, or_false, false_or] at hc
    rcases hc with rfl | hc | rfl | rfl | rfl | hc | rfl
    · exact hquote
    · exact hkey c hc
    · exact hquote
    · exact hequals
    · exact hquote
    · exact hvalue c hc
    · exact hquote
  have hparse : ∀ p ∈ P.keys,
      parseLine (s.printedLine p) = (s.reread p).map fun value => (p.1, value) := by
    intro p hp
    obtain ⟨shown, hshown⟩ := hshown p hp
    rw [Store.printedLine, parseLine_printed (P.plain p hp), Store.reread, hshown]
    rfl
  have hsome : (∀ p ∈ P.keys, ((parseLine ∘ s.printedLine) p).isSome = true) ↔
      ∀ p ∈ P.keys, (s.reread p).isSome = true := by
    refine forall₂_congr fun p hp => ?_
    rw [Function.comp_apply, hparse p hp, Option.isSome_map]
  rw [main, htext, scanLines_flatMap hplain, List.mapM_map, mapM_eq_some_iff ([], []), hsome]
  refine and_congr_right fun hall => ?_
  have hputs : (P.keys.map fun p => ((parseLine ∘ s.printedLine) p).getD ([], [])) = P.reread s := by
    refine List.map_congr_left fun p hp => ?_
    obtain ⟨t, ht⟩ := Option.isSome_iff_exists.1 (hall p hp)
    rw [Function.comp_apply, hparse p hp, ht]
    rfl
  rw [hputs]

end

/-! ### The request -/

theorem lookup_of_nodup {β : Type} {l : List (Text × β)} (h : (l.map Prod.fst).Nodup)
    {e : Text × β} (he : e ∈ l) : l.lookup e.1 = some e.2 := by
  obtain ⟨l₁, l₂, rfl⟩ := List.append_of_mem he
  refine List.lookup_eq_some_iff.2 ⟨l₁, l₂, rfl, fun e' he' => ?_⟩
  rw [List.map_append, List.nodup_append] at h
  simpa using (h.2.2 e'.1 (List.mem_map_of_mem he') e.1 List.mem_cons_self).symm

theorem lookup_reverse_of_nodup {β : Type} {l : List (Text × β)} (h : (l.map Prod.fst).Nodup)
    {e : Text × β} (he : e ∈ l) : l.reverse.lookup e.1 = some e.2 := by
  refine lookup_of_nodup ?_ (List.mem_reverse.2 he)
  rw [List.map_reverse]
  exact List.nodup_reverse.2 h

theorem Prefs.get_eq (P : Prefs) {p : Text × PrefType} (hp : p ∈ P.keys) : P.get p.1 = some p.2 :=
  lookup_of_nodup P.nodup hp

section

variable (B : Bundle) (puts : List (Text × Text))

/-- The entries of the intent are the pairs that count. -/
theorem mem_entries_extras {e : Text × Text} :
    e ∈ entries (B.extras puts) ↔ puts.reverse.lookup e.1 = some e.2 := by
  have hkey : puts.reverse.lookup e.1 = some e.2 → some e.1 ∈ B.keySet puts := by
    intro h
    obtain ⟨l₁, l₂, h, -⟩ := List.lookup_eq_some_iff.1 h
    have hmem : e ∈ puts := List.mem_reverse.1 (h ▸ List.mem_append_right _ List.mem_cons_self)
    exact (B.mem_iff puts _).2 (List.mem_cons_of_mem _ (List.mem_map.2 ⟨e, hmem, rfl⟩))
  rw [mem_entries, Bundle.extras, List.mem_map]
  constructor
  · rintro ⟨key, -, h⟩
    obtain ⟨rfl, h⟩ := Prod.mk.inj h
    exact h
  · intro h
    exact ⟨some e.1, hkey h, by simp [h]⟩

theorem nodup_entries_extras : ((entries (B.extras puts)).map Prod.fst).Nodup := by
  simp only [entries, Bundle.extras, List.filterMap_map, List.map_filterMap]
  refine (B.nodup puts).filterMap fun key key' k hk hk' => ?_
  rcases key with _ | key
  · simp at hk
  rcases key' with _ | key'
  · simp at hk'
  simp only [Function.comp_apply, Option.bind_some, Option.map_map, Option.mem_def,
    Option.map_eq_some_iff] at hk hk'
  obtain ⟨_, _, rfl⟩ := hk
  obtain ⟨_, _, h⟩ := hk'
  exact congrArg some h.symm

end

section

variable (P : Prefs) (B : Bundle) (s : Store)

theorem Prefs.nodup_reread : ((P.reread s).map Prod.fst).Nodup := by
  rw [Prefs.reread, List.map_map]
  exact P.nodup

theorem Prefs.mem_entries_reread {e : Text × Text} :
    e ∈ entries (B.extras (P.reread s)) ↔
      ∃ p ∈ P.keys, (p.1, (s.reread p).getD []) = e := by
  rw [mem_entries_extras]
  constructor
  · intro h
    obtain ⟨l₁, l₂, h, -⟩ := List.lookup_eq_some_iff.1 h
    have hmem : e ∈ P.reread s := List.mem_reverse.1 (h ▸ List.mem_append_right _ List.mem_cons_self)
    exact List.mem_map.1 hmem
  · rintro ⟨p, hp, rfl⟩
    exact lookup_reverse_of_nodup (P.nodup_reread s) (List.mem_map.2 ⟨p, hp, rfl⟩)

end

/-! ### The store after the request -/

section

variable {w : Text × Text → Value}

theorem lookup_alsoSet (key' key : Text) (value : Value) :
    (alsoSet key' value).reverse.lookup key =
      if key = additionalKbdVisible ∧ key' = showAdditionalKbd ∧ value = .boolean true then
        some (.boolean true)
      else none := by
  rw [alsoSet]
  by_cases hshow : key' = showAdditionalKbd ∧ value = .boolean true
  · rw [if_pos hshow, List.reverse_singleton]
    by_cases hkey : key = additionalKbdVisible
    · rw [if_pos ⟨hkey, hshow⟩, hkey, List.lookup_cons_self]
    · rw [if_neg fun h => hkey h.1]
      simpa using hkey
  · rw [if_neg hshow, if_neg fun h => hshow h.2]
    rfl

/-- What is put under a key that is not named. -/
theorem lookup_puts_of_notMem {es : List (Text × Text)} {key : Text} (h : key ∉ es.map Prod.fst) :
    (es.flatMap (putsOf w)).reverse.lookup key =
      if key = additionalKbdVisible ∧ ∃ e ∈ es, e.1 = showAdditionalKbd ∧ w e = .boolean true then
        some (.boolean true)
      else none := by
  induction es with
  | nil => simp
  | cons e es ih =>
    obtain ⟨hne, hes⟩ := not_or.1 (List.mem_cons.not.1 h)
    have hown : [(e.1, w e)].lookup key = none := by
      simpa using hne
    rw [List.flatMap_cons, List.reverse_append, List.lookup_append, ih hes, putsOf,
      List.reverse_cons, List.lookup_append, lookup_alsoSet, hown]
    simp only [List.exists_mem_cons_iff]
    by_cases hkey : key = additionalKbdVisible
    · by_cases hrest : ∃ e ∈ es, e.1 = showAdditionalKbd ∧ w e = .boolean true
      · rw [if_pos ⟨hkey, hrest⟩, Option.some_or, if_pos ⟨hkey, Or.inr hrest⟩]
      · rw [if_neg fun h => hrest h.2, Option.none_or, Option.or_none]
        simp only [hkey, hrest, or_false, true_and]
    · simp only [hkey, false_and, if_false, Option.or_none]

/-- What is put under a key that is named: another entry may come after it. -/
theorem lookup_puts {es l₁ l₂ : List (Text × Text)} {e : Text × Text} (hes : es = l₁ ++ e :: l₂)
    (h : e.1 ∉ l₂.map Prod.fst) :
    (es.flatMap (putsOf w)).reverse.lookup e.1 =
      if e.1 = additionalKbdVisible ∧ ∃ e' ∈ l₂, e'.1 = showAdditionalKbd ∧ w e' = .boolean true then
        some (.boolean true)
      else some (w e) := by
  have hself : (putsOf w e).reverse.lookup e.1 = some (w e) := by
    have hother : ¬ (e.1 = additionalKbdVisible ∧ e.1 = showAdditionalKbd ∧ w e = .boolean true) := by
      rintro ⟨h₁, h₂, -⟩
      exact absurd (h₁.symm.trans h₂) (by decide)
    rw [putsOf, List.reverse_cons, List.lookup_append, lookup_alsoSet, if_neg hother,
      Option.none_or, List.lookup_cons_self]
  rw [hes, List.flatMap_append, List.flatMap_cons, List.reverse_append, List.reverse_append,
    List.lookup_append, List.lookup_append, lookup_puts_of_notMem h, hself]
  split_ifs <;> rfl

end

theorem Store.preferences_commit (s : Store) (puts : List (Text × Value)) (key : Text) :
    (s.commit puts).preferences key = (puts.reverse.lookup key).or (s.preferences key) := by
  rw [Store.commit, Store.preferences, Store.preferences]
  by_cases h : s.onSecondary = true
  · simp only [h, if_true]
  · simp only [h, Bool.false_eq_true, if_false]

/-- The values of a preference are of its type. -/
def PrefType.Has : PrefType → Value → Prop
  | .string _, v | .list .., v => ∃ x, v = .string x
  | .int _, v => ∃ n, v = .int n
  | .boolean _, v => ∃ b, v = .boolean b

theorem Store.get_type {s : Store} {key : Text} {t : PrefType} {v : Value}
    (h : s.get key t = some v) : t.Has v := by
  cases t <;> simp only [Store.get] at h <;> split at h <;>
    first | exact ⟨_, (Option.some.inj h).symm⟩ | cases h

/-- A preference has its value again if that was put. -/
theorem Store.get_commit_iff (s : Store) {key : Text} {t : PrefType} {puts : List (Text × Value)}
    {v v' : Value} (hv : s.get key t = some v) (hput : puts.reverse.lookup key = some v')
    (hseparate : key = storeSecondaryDisplayPreferencesSeparately → (∃ b, v = .boolean b) → v' = v) :
    (s.commit puts).get key t = s.get key t ↔ v' = v := by
  have hpref : (s.commit puts).preferences key = some v' := by
    rw [s.preferences_commit, hput, Option.some_or]
  have htype := Store.get_type hv
  rw [hv]
  cases t with
  | string d =>
    obtain ⟨x, rfl⟩ := htype
    simp only [Store.get, hpref]
    cases v' <;> simp
  | int d =>
    obtain ⟨n, rfl⟩ := htype
    simp only [Store.get, hpref]
    cases v' <;> simp
  | list d r =>
    obtain ⟨x, rfl⟩ := htype
    simp only [Store.get, hpref]
    cases v' <;> simp
  | boolean d =>
    by_cases hkey : key = storeSecondaryDisplayPreferencesSeparately
    · obtain rfl := hseparate hkey htype
      refine iff_of_true ?_ rfl
      obtain ⟨b, rfl⟩ := htype
      simp only [Store.get, if_pos hkey] at hv ⊢
      -- these are always read from the built-in display
      by_cases hsecondary : s.onSecondary = true
      · rw [Store.commit, if_pos hsecondary]
        exact hv
      · rw [Store.commit, if_neg hsecondary]
        simp only [hput, Option.some_or]
    · obtain ⟨b, rfl⟩ := htype
      simp only [Store.get, if_neg hkey, hpref]
      cases v' <;> simp

/-! ### Which preferences are kept -/

section

variable (P : Prefs) (granted : Bool) (B : Bundle) (s : Store)

/-- What is read for a preference is accepted for the value that it has. -/
def Prefs.Kept (p : Text × PrefType) : Prop :=
  ∃ t v, s.reread p = some t ∧ s.get p.1 p.2 = some v ∧ Accepts P granted p.1 t v

/-- The additional keyboard is not made visible after its visibility was set, unless it is
visible. -/
def Prefs.InOrder : Prop :=
  (entries (B.extras (P.reread s))).Pairwise fun e e' =>
    e.1 = additionalKbdVisible → e'.1 = showAdditionalKbd →
      P.value s showAdditionalKbd = some (.boolean true) →
        P.value s additionalKbdVisible = some (.boolean true)

/-- Every value is read, and is accepted as it was; or all of it is taken for a listing. -/
structure Restorable : Prop where
  readable : ∀ p ∈ P.keys, (s.reread p).isSome = true
  kept : "list".toList ∈ P.keys.map Prod.fst ∨
    (∀ p ∈ P.keys, P.Kept granted s p) ∧ P.InOrder B s

variable {P granted B s} {p : Text × PrefType}

theorem value_eq (hp : p ∈ P.keys) : P.value s p.1 = s.get p.1 p.2 := by
  rw [Prefs.value, P.get_eq hp, Option.bind_some]

theorem reread_of_plain {v : Value} {t : Text} (hv : s.get p.1 p.2 = some v)
    (hshown : p.2.shown v = some t) (ht : '=' ∉ t) : s.reread p = some t := by
  rw [Store.reread, Store.shown, hv, Option.bind_some, hshown, Option.bind_some, readBack,
    if_neg ht]

theorem reread_boolean {b : Bool} (hv : s.get p.1 p.2 = some (.boolean b)) :
    s.reread p = some (ofBool b) := by
  refine reread_of_plain hv ?_ (by cases b <;> decide)
  cases p.2 <;> rfl

/-- The keys whose extras are checked in a way of their own. -/
def isSpecial (key : Text) : Bool :=
  key = displayResolutionCustom ∨ key = enableAccessibilityServiceAutomatically ∨
    key = extraKeysConfig

theorem accepts_iff_of_type (hp : p ∈ P.keys) (h : isSpecial p.1 = false) {newValue : Text}
    {v : Value} : Accepts P granted p.1 newValue v ↔ p.2.Accepts newValue v := by
  have h' : ¬ (p.1 = displayResolutionCustom ∨ p.1 = enableAccessibilityServiceAutomatically ∨
      p.1 = extraKeysConfig) := of_decide_eq_false h
  rw [not_or, not_or] at h'
  rw [Accepts, if_neg h'.1, if_neg h'.2.1, if_neg h'.2.2, P.get_eq hp]
  simp

theorem decide_ofBool (b : Bool) : decide (ofBool b = "true".toList) = b := by
  cases b <;> decide

/-- Truth values are kept. -/
theorem accepts_boolean (hp : p ∈ P.keys) (h : isSpecial p.1 = false) {b : Bool} {v : Value}
    (hv : s.get p.1 p.2 = some (.boolean b)) :
    Accepts P granted p.1 (ofBool b) v ↔ v = .boolean b := by
  have htype := Store.get_type hv
  rw [accepts_iff_of_type hp h]
  cases ht : p.2 with
  | boolean d => rw [PrefType.Accepts, decide_ofBool]
  | string d | int d | list d r => simp [ht, PrefType.Has] at htype

theorem kept_boolean (hp : p ∈ P.keys) (h : isSpecial p.1 = false) {b : Bool}
    (hv : s.get p.1 p.2 = some (.boolean b)) : P.Kept granted s p :=
  ⟨ofBool b, _, reread_boolean hv, hv, (accepts_boolean hp h hv).2 rfl⟩

/-- Numbers are kept. -/
theorem kept_int (hp : p ∈ P.keys) (h : isSpecial p.1 = false) {n : Int32}
    (hv : s.get p.1 p.2 = some (.int n)) : P.Kept granted s p := by
  have htype := Store.get_type hv
  have hread : s.reread p = some (ofInt n.toInt) := by
    refine reread_of_plain hv ?_ fun hmem => (mem_ofInt hmem).1 rfl
    cases p.2 <;> rfl
  have hparse : parseInt (ofInt n.toInt) = some n.toInt :=
    parseInt_ofInt n.le_toInt n.toInt_lt
  refine ⟨_, _, hread, hv, (accepts_iff_of_type hp h).2 ?_⟩
  cases ht : p.2 with
  | int d => exact ⟨n.toInt, hparse, by rw [Int32.ofInt_toInt]⟩
  | string d | boolean d | list d r => simp [ht, PrefType.Has] at htype

/-- The other preferences that are strings are never accepted. -/
theorem not_kept_string (hp : p ∈ P.keys) (h : isSpecial p.1 = false) {d : Text}
    (ht : p.2 = .string d) : ¬ P.Kept granted s p := by
  rintro ⟨t, v, -, -, haccepts⟩
  rw [accepts_iff_of_type hp h, ht] at haccepts
  exact haccepts

theorem mem_of_mem_unquote {x t : Text} (h : unquote x = some t) {c : Char} (hc : c ∈ t) :
    c ∈ x := by
  rw [unquote] at h
  split_ifs at h
  · obtain rfl := Option.some.inj h
    exact List.mem_of_mem_tail (List.mem_of_mem_dropLast hc)
  · obtain rfl := Option.some.inj h
    exact hc

/-- A text is read as it is exactly if there is no equals sign in it. -/
theorem reread_eq_iff {v : Value} {x : Text} (hv : s.get p.1 p.2 = some v)
    (hshown : p.2.shown v = some x) : s.reread p = some x ↔ '=' ∉ x := by
  refine ⟨fun hread hmem => ?_, reread_of_plain hv hshown⟩
  rw [Store.reread, Store.shown, hv, Option.bind_some, hshown, Option.bind_some, readBack,
    if_pos hmem] at hread
  rcases List.mem_cons.1 (mem_of_mem_unquote hread hmem) with h | h
  · cases h
  · simpa using List.mem_takeWhile_imp h

/-- The extra keys are kept exactly if there is no equals sign in their configuration. -/
theorem kept_extraKeysConfig_iff {d x : Text} (hkey : p.1 = extraKeysConfig)
    (ht : p.2 = .string d) (hv : s.get p.1 p.2 = some (.string x)) :
    P.Kept granted s p ↔ '=' ∉ x := by
  have haccepts : ∀ t v, Accepts P granted p.1 t v ↔ v = .string t := by
    intro t v
    rw [hkey, Accepts, if_neg (by decide), if_neg (by decide), if_pos rfl]
  rw [← reread_eq_iff hv (by rw [ht]; rfl)]
  constructor
  · rintro ⟨t, v, hread, hv', hacc⟩
    obtain rfl := Option.some.inj (hv.symm.trans hv')
    obtain rfl := Value.string.inj ((haccepts t _).1 hacc)
    exact hread
  · intro hread
    exact ⟨x, _, hread, hv, (haccepts _ _).2 rfl⟩

/-- The custom resolution is kept exactly if it is one, without an equals sign: an intent is
refused where the settings have stored what is none. -/
theorem kept_displayResolutionCustom_iff {d x : Text} (hkey : p.1 = displayResolutionCustom)
    (ht : p.2 = .string d) (hv : s.get p.1 p.2 = some (.string x)) :
    P.Kept granted s p ↔ '=' ∉ x ∧ IsResolution x := by
  have haccepts : ∀ t v, Accepts P granted p.1 t v ↔ IsResolution t ∧ v = .string t := by
    intro t v
    rw [hkey, Accepts, if_pos rfl]
  rw [← reread_eq_iff hv (by rw [ht]; rfl)]
  constructor
  · rintro ⟨t, v, hread, hv', hacc⟩
    obtain rfl := Option.some.inj (hv.symm.trans hv')
    obtain ⟨hresolution, hvalue⟩ := (haccepts t _).1 hacc
    obtain rfl := Value.string.inj hvalue
    exact ⟨hread, hresolution⟩
  · rintro ⟨hread, hresolution⟩
    exact ⟨x, _, hread, hv, (haccepts _ _).2 ⟨hresolution, rfl⟩⟩

/-- The accessibility service is not enabled without the permission. -/
theorem kept_enableAccessibilityService_iff {b : Bool}
    (hkey : p.1 = enableAccessibilityServiceAutomatically)
    (hv : s.get p.1 p.2 = some (.boolean b)) :
    P.Kept granted s p ↔ (b = true → granted = true) := by
  have haccepts : ∀ v, Accepts P granted p.1 (ofBool b) v ↔
      (b = true → granted = true) ∧ v = .boolean b := by
    intro v
    rw [hkey, Accepts, if_neg (by decide), if_pos rfl, decide_ofBool,
      ← decide_eq_true_iff (p := ofBool b = "true".toList), decide_ofBool]
  constructor
  · rintro ⟨t, v, hread, -, hacc⟩
    obtain rfl := Option.some.inj ((reread_boolean hv).symm.trans hread)
    exact ((haccepts v).1 hacc).1
  · intro hgranted
    exact ⟨_, _, reread_boolean hv, hv, (haccepts _).2 ⟨hgranted, rfl⟩⟩

/-- A value of a list is kept exactly if the entry that is printed for it, cut off at an equals
sign, is found among the entries or the values at a place that has the value. -/
theorem kept_list_iff {d x : Text} {r : ListResources} (hp : p ∈ P.keys)
    (h : isSpecial p.1 = false) (ht : p.2 = .list d r)
    (hv : s.get p.1 p.2 = some (.string x)) :
    P.Kept granted s p ↔ ∃ shown t i, p.2.shown (.string x) = some shown ∧
      readBack shown = some t ∧ r.index t = some i ∧ r.values[i]? = some x := by
  have haccepts : ∀ t, Accepts P granted p.1 t (.string x) ↔
      ∃ i, r.index t = some i ∧ r.values[i]? = some x := by
    intro t
    rw [accepts_iff_of_type hp h, ht]
    constructor
    · rintro ⟨i, v, hindex, hvalue, hx⟩
      obtain rfl := Value.string.inj hx
      exact ⟨i, hindex, hvalue⟩
    · rintro ⟨i, hindex, hvalue⟩
      exact ⟨i, x, hindex, hvalue, rfl⟩
  have hreread : ∀ t, s.reread p = some t ↔
      ∃ shown, p.2.shown (.string x) = some shown ∧ readBack shown = some t := by
    intro t
    rw [Store.reread, Store.shown, hv, Option.bind_some, Option.bind_eq_some_iff]
  constructor
  · rintro ⟨t, v, hread, hv', hacc⟩
    obtain rfl := Option.some.inj (hv.symm.trans hv')
    obtain ⟨shown, hshown, hback⟩ := (hreread t).1 hread
    obtain ⟨i, hindex, hvalue⟩ := (haccepts t).1 hacc
    exact ⟨shown, t, i, hshown, hback, hindex, hvalue⟩
  · rintro ⟨shown, t, i, hshown, hback, hindex, hvalue⟩
    exact ⟨t, _, (hreread t).2 ⟨shown, hshown, hback⟩, hv, (haccepts t).2 ⟨i, hindex, hvalue⟩⟩

/-! ### The whole way -/

/-- What is left of a preference after all entries were put. -/
theorem get_restored_iff {w : Text × Text → Value} {es l₁ l₂ : List (Text × Text)} {t : Text}
    {v : Value} (hp : p ∈ P.keys) (ht : s.reread p = some t) (hv : s.get p.1 p.2 = some v)
    (hw : Accepts P granted p.1 t (w (p.1, t))) (hnodup : (es.map Prod.fst).Nodup)
    (hes : es = l₁ ++ (p.1, t) :: l₂) :
    (s.commit (es.flatMap (putsOf w))).get p.1 p.2 = s.get p.1 p.2 ↔
      w (p.1, t) = v ∧ (p.1 = additionalKbdVisible →
        (∃ e ∈ l₂, e.1 = showAdditionalKbd ∧ w e = .boolean true) → v = .boolean true) := by
  have hnot : p.1 ∉ l₂.map Prod.fst := by
    rw [hes, List.map_append, List.map_cons] at hnodup
    exact (List.nodup_cons.1 (List.nodup_append.1 hnodup).2.1).1
  have hbool : isSpecial p.1 = false → (∃ b, v = .boolean b) → w (p.1, t) = v := by
    rintro hspecial ⟨b, rfl⟩
    obtain rfl := Option.some.inj (ht.symm.trans (reread_boolean hv))
    exact (accepts_boolean hp hspecial hv).1 hw
  have hlookup := lookup_puts (w := w) hes hnot
  by_cases hover : p.1 = additionalKbdVisible ∧
      ∃ e ∈ l₂, e.1 = showAdditionalKbd ∧ w e = .boolean true
  · rw [if_pos hover] at hlookup
    have hspecial : isSpecial p.1 = false := by
      rw [hover.1]
      decide
    rw [s.get_commit_iff hv hlookup fun h => absurd (hover.1.symm.trans h) (by decide)]
    constructor
    · rintro rfl
      exact ⟨hbool hspecial ⟨_, rfl⟩, fun _ _ => rfl⟩
    · intro h
      exact (h.2 hover.1 hover.2).symm
  · rw [if_neg hover] at hlookup
    have hseparate : p.1 = storeSecondaryDisplayPreferencesSeparately → (∃ b, v = .boolean b) →
        w (p.1, t) = v := by
      intro h
      refine hbool ?_
      rw [h]
      decide
    rw [s.get_commit_iff hv hlookup hseparate]
    exact ⟨fun h => ⟨h, fun h₁ h₂ => absurd ⟨h₁, h₂⟩ hover⟩, fun h => h.1⟩

theorem not_asksList_reread (hlist : "list".toList ∉ P.keys.map Prod.fst) :
    ¬ asksList (B.extras (P.reread s)) := by
  rintro ⟨v, hv⟩
  obtain ⟨p, hp, h⟩ := (P.mem_entries_reread B s).1 (mem_entries (e := (_, v)).2 hv)
  exact hlist (List.mem_map.2 ⟨p, hp, congrArg Prod.fst h⟩)

theorem entry_of_pref {t : Text} (hp : p ∈ P.keys) (ht : s.reread p = some t) :
    (p.1, t) ∈ entries (B.extras (P.reread s)) :=
  (P.mem_entries_reread B s).2 ⟨p, hp, by rw [ht]; rfl⟩

theorem pref_of_entry (hread : ∀ p ∈ P.keys, (s.reread p).isSome = true) {e : Text × Text}
    (he : e ∈ entries (B.extras (P.reread s))) :
    ∃ p ∈ P.keys, ∃ t, s.reread p = some t ∧ e = (p.1, t) := by
  obtain ⟨p, hp, rfl⟩ := (P.mem_entries_reread B s).1 he
  obtain ⟨t, ht⟩ := Option.isSome_iff_exists.1 (hread p hp)
  exact ⟨p, hp, t, ht, by simp [ht]⟩

section

variable (hlist : "list".toList ∉ P.keys.map Prod.fst)
  (hread : ∀ p ∈ P.keys, (s.reread p).isSome = true)
  (hget : ∀ p ∈ P.keys, ∃ v, s.get p.1 p.2 = some v)

include hlist hread hget

/-- If the request leaves the preferences as they are, then every value was accepted as it is. -/
theorem kept_of_request
    (hstatus : (onReceive P granted s (B.extras (P.reread s))).answer.status = 0)
    (hrestored : ∀ p ∈ P.keys,
      (onReceive P granted s (B.extras (P.reread s))).store.get p.1 p.2 = s.get p.1 p.2) :
    (∀ p ∈ P.keys, P.Kept granted s p) ∧ P.InOrder B s := by
  have hask := not_asksList_reread (B := B) (s := s) hlist
  have hacc := acceptable_of_status P granted _ hask hstatus
  choose! w hw using hacc
  rw [(onReceive_accepted P granted _ hask hw).2] at hrestored
  have hnodup := nodup_entries_extras B (P.reread s)
  have hvalue : ∀ e ∈ entries (B.extras (P.reread s)), P.value s e.1 = some (w e) := by
    intro e he
    obtain ⟨p, hp, t, ht, rfl⟩ := pref_of_entry hread he
    obtain ⟨v, hv⟩ := hget p hp
    obtain ⟨l₁, l₂, hes⟩ := List.append_of_mem he
    obtain ⟨hw, -⟩ := (get_restored_iff hp ht hv (hw _ he) hnodup hes).1 (hrestored p hp)
    rw [value_eq hp, hv, hw]
  refine ⟨fun p hp => ?_, ?_⟩
  · obtain ⟨t, ht⟩ := Option.isSome_iff_exists.1 (hread p hp)
    have he := entry_of_pref (B := B) hp ht
    exact ⟨t, _, ht, (value_eq hp).symm.trans (hvalue _ he), hw _ he⟩
  · refine List.pairwise_iff_forall_sublist.2 fun {e e'} hsub hvisible hshow htrue => ?_
    obtain ⟨r₁, r₂, hr, hmem, hmem'⟩ := List.cons_sublist_iff.1 hsub
    obtain ⟨l₁, l₂, rfl⟩ := List.append_of_mem hmem
    have hes : entries (B.extras (P.reread s)) = l₁ ++ e :: (l₂ ++ r₂) := by
      rw [hr, List.append_assoc, List.cons_append]
    have he : e ∈ entries (B.extras (P.reread s)) := hsub.subset List.mem_cons_self
    have he' : e' ∈ entries (B.extras (P.reread s)) :=
      hsub.subset (List.mem_cons_of_mem _ List.mem_cons_self)
    have hw' : w e' = .boolean true := by
      rw [← hshow, hvalue e' he'] at htrue
      exact Option.some.inj htrue
    obtain ⟨p, hp, t, ht, rfl⟩ := pref_of_entry hread he
    obtain ⟨v, hv⟩ := hget p hp
    obtain ⟨-, hover⟩ := (get_restored_iff hp ht hv (hw _ he) hnodup hes).1 (hrestored p hp)
    have hmem₂ : e' ∈ l₂ ++ r₂ := List.mem_append_right _ (List.singleton_sublist.1 hmem')
    rw [← hvisible, value_eq hp, hv, hover hvisible ⟨e', hmem₂, hshow, hw'⟩]

omit hget in
/-- If every value is accepted as it is, then the request leaves the preferences as they are. -/
theorem request_of_kept (hkept : ∀ p ∈ P.keys, P.Kept granted s p) (horder : P.InOrder B s) :
    (onReceive P granted s (B.extras (P.reread s))).answer.status = 0 ∧
      ∀ p ∈ P.keys,
        (onReceive P granted s (B.extras (P.reread s))).store.get p.1 p.2 = s.get p.1 p.2 := by
  have hask := not_asksList_reread (B := B) (s := s) hlist
  have hnodup := nodup_entries_extras B (P.reread s)
  let w : Text × Text → Value := fun e => (P.value s e.1).getD default
  have hvalue : ∀ p ∈ P.keys, ∀ t v, s.get p.1 p.2 = some v → w (p.1, t) = v := by
    intro p hp t v hv
    show (P.value s p.1).getD default = v
    rw [value_eq hp, hv, Option.getD_some]
  have hw : ∀ e ∈ entries (B.extras (P.reread s)), Accepts P granted e.1 e.2 (w e) := by
    intro e he
    obtain ⟨p, hp, t, ht, rfl⟩ := pref_of_entry hread he
    obtain ⟨t', v, ht', hv, haccepts⟩ := hkept p hp
    obtain rfl := Option.some.inj (ht.symm.trans ht')
    rw [hvalue p hp t v hv]
    exact haccepts
  obtain ⟨hanswer, hstore⟩ := onReceive_accepted P granted _ (s := s) hask hw
  refine ⟨by rw [hanswer]; rfl, fun p hp => ?_⟩
  obtain ⟨t, v, ht, hv, -⟩ := hkept p hp
  have he := entry_of_pref (B := B) hp ht
  obtain ⟨l₁, l₂, hes⟩ := List.append_of_mem he
  rw [hstore]
  refine (get_restored_iff hp ht hv (hw _ he) hnodup hes).2 ⟨hvalue p hp t v hv, ?_⟩
  rintro hvisible ⟨e', he', hshow, hw'⟩
  have hpair := horder
  rw [Prefs.InOrder, hes] at hpair
  have hafter := (List.pairwise_cons.1 (List.pairwise_append.1 hpair).2.1).1 e' he' hvisible hshow
  obtain ⟨p', hp', t', ht', rfl⟩ := pref_of_entry hread
    (hes ▸ List.mem_append_right _ (List.mem_cons_of_mem _ he') :
      e' ∈ entries (B.extras (P.reread s)))
  obtain ⟨-, v', -, hv', -⟩ := hkept p' hp'
  have htrue : P.value s showAdditionalKbd = some (.boolean true) := by
    rw [← hshow, value_eq hp', hv', ← hvalue p' hp' t' v' hv', hw']
  have hvalue' := hafter htrue
  rw [← hvisible, value_eq hp, hv] at hvalue'
  exact Option.some.inj hvalue'

end

/-- **Dumping and restoring**: if no value is printed on more than one line, then the text of the
list is accepted and brings every preference back exactly if each value is read and accepted as it
was, and the order of the entries does not make the additional keyboard visible. -/
theorem restored_iff {text : Text} (htext : P.list s = some text) (hlines : P.OneLine s) :
    Restored P granted B s text ↔ Restorable P granted B s := by
  have hmain := main_list htext hlines
  have hget : ∀ p ∈ P.keys, ∃ v, s.get p.1 p.2 = some v := by
    intro p hp
    obtain ⟨shown, hshown⟩ := (list_lines htext).1 p hp
    obtain ⟨v, hv, -⟩ := Option.bind_eq_some_iff.1 hshown
    exact ⟨v, hv⟩
  constructor
  · rintro ⟨o, ho, hstatus, hrestored⟩
    obtain ⟨puts, hputs, rfl⟩ := Option.map_eq_some_iff.1 ho
    obtain ⟨hread, rfl⟩ := (hmain puts).1 hputs
    refine ⟨hread, ?_⟩
    by_cases hlist : "list".toList ∈ P.keys.map Prod.fst
    · exact Or.inl hlist
    · exact Or.inr (kept_of_request hlist hread hget hstatus hrestored)
  · rintro ⟨hread, hkept⟩
    have hputs := (hmain _).2 ⟨hread, rfl⟩
    refine ⟨_, Option.map_eq_some_iff.2 ⟨_, hputs, rfl⟩, ?_⟩
    by_cases hlist : "list".toList ∈ P.keys.map Prod.fst
    · obtain ⟨p, hp, hkey⟩ := List.mem_map.1 hlist
      obtain ⟨t, ht⟩ := Option.isSome_iff_exists.1 (hread p hp)
      have hask : asksList (B.extras (P.reread s)) :=
        ⟨t, hkey ▸ mem_entries.1 (entry_of_pref hp ht)⟩
      rw [onReceive, if_pos hask, htext]
      exact ⟨rfl, fun _ _ => rfl⟩
    · obtain ⟨hkept, horder⟩ := hkept.resolve_left hlist
      exact request_of_kept hlist hread hkept horder

end

/-- A bundle that gives the keys as they were put. -/
def Bundle.inPutOrder : Bundle where
  keySet puts := none :: (puts.map Prod.fst).dedup.map some
  nodup puts := by
    refine List.nodup_cons.2 ⟨by simp, ?_⟩
    exact (List.nodup_dedup _).map (Option.some_injective _)
  mem_iff puts key := by simp

/-- Three preferences of different types. -/
def threePrefs : Prefs where
  keys := [("fullscreen".toList, .boolean true), ("displayScale".toList, .int 100),
    (extraKeysConfig, .string [])]
  nodup := by decide
  plain := by decide +kernel

/-- The extra keys are set, the rest is as it was. -/
def Store.withExtraKeys (config : Text) : Store :=
  ⟨fun key => if key = extraKeysConfig then some (.string config) else none, fun _ => none, false⟩

theorem escapeKey_restored :
    threePrefs.list (.withExtraKeys "[['ESC']]".toList) =
        some ("\"fullscreen\"=\"true\"\n\"displayScale\"=\"100\"\n" ++
          "\"extra_keys_config\"=\"[['ESC']]\"").toList ∧
      Restored threePrefs true .inPutOrder (.withExtraKeys "[['ESC']]".toList)
        ("\"fullscreen\"=\"true\"\n\"displayScale\"=\"100\"\n" ++
          "\"extra_keys_config\"=\"[['ESC']]\"").toList := by
  have htext : threePrefs.list (.withExtraKeys "[['ESC']]".toList) =
      some ("\"fullscreen\"=\"true\"\n\"displayScale\"=\"100\"\n" ++
        "\"extra_keys_config\"=\"[['ESC']]\"").toList := by
    decide +kernel
  have hlines : threePrefs.OneLine (.withExtraKeys "[['ESC']]".toList) := by
    unfold Prefs.OneLine
    decide +kernel
  refine ⟨htext, (restored_iff htext hlines).2 ⟨by decide +kernel, Or.inr ⟨?_, ?_⟩⟩⟩
  · intro p hp
    have hp' := hp
    simp only [threePrefs, List.mem_cons, List.not_mem_nil, or_false] at hp'
    rcases hp' with rfl | rfl | rfl
    · exact kept_boolean hp (by decide) rfl
    · exact kept_int hp (by decide) rfl
    · exact (kept_extraKeysConfig_iff rfl rfl rfl).2 (by decide)
  · unfold Prefs.InOrder
    decide +kernel

/-- A key for the equals sign cuts the configuration of the extra keys off. -/
theorem equalsKey_not_restored :
    threePrefs.list (.withExtraKeys "[['=']]".toList) =
        some ("\"fullscreen\"=\"true\"\n\"displayScale\"=\"100\"\n" ++
          "\"extra_keys_config\"=\"[['=']]\"").toList ∧
      ¬ Restored threePrefs true .inPutOrder (.withExtraKeys "[['=']]".toList)
        ("\"fullscreen\"=\"true\"\n\"displayScale\"=\"100\"\n" ++
          "\"extra_keys_config\"=\"[['=']]\"").toList := by
  refine ⟨by decide +kernel, ?_⟩
  rintro ⟨o, ho, -, hrestored⟩
  have hvalue : (restore threePrefs true .inPutOrder (.withExtraKeys "[['=']]".toList)
      (("\"fullscreen\"=\"true\"\n\"displayScale\"=\"100\"\n" ++
        "\"extra_keys_config\"=\"[['=']]\"").toList ++ ['\n'])).map
        (fun o => o.store.get extraKeysConfig (.string [])) =
      some (some (.string "\"[['".toList)) := by
    decide +kernel
  rw [ho, Option.map_some, hrestored (extraKeysConfig, .string []) (by simp [threePrefs])] at hvalue
  exact absurd hvalue (by decide +kernel)

end TermuxX11.Preferences
