import TermuxX11.Lib.Text

/-!
# Preferences from the command line

`LoriePreferences.Receiver.onReceive` prints all preferences, or changes those that are named by
the extras of an intent.  The extras are gone through in the order of the bundle; each is checked
and written to an editor, and its change is announced, before the next one is looked at, and the
editor is committed at the end.

The set of preferences is generated from `preferences.xml` and is arbitrary here; its keys are the
names of Java fields.  A bundle gives its entries in any order; a value that is no string reads as
`null`.
-/

namespace TermuxX11.Preferences

open Java

/-! ### Preferences and their store -/

/-- What a preference can be set to. -/
inductive Value
  | boolean (b : Bool)
  | int (n : Int32)
  | string (s : Text)
  deriving DecidableEq, Inhabited

/-- The arrays of a `ListPreference`: what `getStringArray` gives for its two resources, what
`getEntries` and `getValues` give, and whether the resources are the same. -/
structure ListResources where
  stringEntries : List Text
  stringValues : List Text
  entries : List Text
  values : List Text
  same : Bool

/-- The types of preferences, with their default values. -/
inductive PrefType
  | string (defValue : Text)
  | int (defValue : Int32)
  | boolean (defValue : Bool)
  | list (defValue : Text) (r : ListResources)

/-- A character that neither separates a key from its value nor ends a line. -/
def isPlain (c : Char) : Bool := c ≠ '=' && !isTerminator c

/-- `Prefs.keys`, in the order of the hash map. -/
structure Prefs where
  keys : List (Text × PrefType)
  nodup : (keys.map Prod.fst).Nodup
  plain : ∀ p ∈ keys, p.1.all isPlain = true

def Prefs.get (P : Prefs) (key : Text) : Option PrefType := P.keys.lookup key

/-- The preferences of the built-in and of the secondary display; `onSecondary` says that the
latter are the `preferences` that are used. -/
structure Store where
  builtIn : Text → Option Value
  secondary : Text → Option Value
  onSecondary : Bool

def displayResolutionCustom : Text := "displayResolutionCustom".toList

def enableAccessibilityServiceAutomatically : Text :=
  "enableAccessibilityServiceAutomatically".toList

def extraKeysConfig : Text := "extra_keys_config".toList

def showAdditionalKbd : Text := "showAdditionalKbd".toList

def additionalKbdVisible : Text := "additionalKbdVisible".toList

def storeSecondaryDisplayPreferencesSeparately : Text :=
  "storeSecondaryDisplayPreferencesSeparately".toList

namespace Store

variable (s : Store)

def preferences : Text → Option Value := if s.onSecondary then s.secondary else s.builtIn

/-- `commit` of an editor with what was put, the last put of a key being the one that counts. -/
def commit (puts : List (Text × Value)) : Store :=
  let write (store : Text → Option Value) : Text → Option Value := fun key =>
    (puts.reverse.lookup key).or (store key)
  if s.onSecondary then { s with secondary := write s.secondary }
  else { s with builtIn := write s.builtIn }

/-- The value of a preference of a type; a value of another type cannot be cast. -/
def get (key : Text) : PrefType → Option Value
  | .string defValue =>
    match s.preferences key with
    | none => some (.string defValue)
    | some (.string v) => some (.string v)
    | some _ => none
  | .int defValue =>
    match s.preferences key with
    | none => some (.int defValue)
    | some (.int n) => some (.int n)
    | some _ => none
  | .boolean defValue =>
    match (if key = storeSecondaryDisplayPreferencesSeparately then s.builtIn key
      else s.preferences key) with
    | none => some (.boolean defValue)
    | some (.boolean b) => some (.boolean b)
    | some _ => none
  | .list defValue _ =>
    match s.preferences key with
    | none => some (.string defValue)
    | some (.string v) => some (.string v)
    | some _ => none

end Store

/-! ### Listing -/

/-- The text of a truth value. -/
def ofBool (b : Bool) : Text := if b then "true".toList else "false".toList

/-- The text of a value of a preference: that of a list is its entry if it is one of the
values. -/
def PrefType.shown : PrefType → Value → Option Text
  | .list _ r, .string v =>
    match r.stringValues.idxOf? v with
    | some i => r.stringEntries[i]?
    | none => some v
  | _, .string v => some v
  | _, .int n => some (ofInt n.toInt)
  | _, .boolean b => some (ofBool b)

/-- A line of the list, with its end. -/
def listLine (key shown : Text) : Text :=
  '"' :: key ++ "\"=\"".toList ++ shown ++ "\"\n".toList

/-- The line of a preference. -/
def Store.line (s : Store) (p : Text × PrefType) : Option Text :=
  (s.get p.1 p.2).bind fun value => (p.2.shown value).map (listLine p.1)

/-- The result of `list`, without its last character. -/
def Prefs.list (P : Prefs) (s : Store) : Option Text :=
  (P.keys.mapM s.line).bind fun lines =>
    if lines.flatten = [] then none else some lines.flatten.dropLast

/-! ### Changing -/

/-- The answers. -/
inductive Answer
  | listing (text : Text)
  | done
  | wrongResolution
  | permissionDenied
  | notAnInteger (key : Text)
  | notAnOption (key newValue : Text) (r : ListResources)
  | unrecognised (key : Text)
  | exception

namespace Answer

/-- The status for the command line. -/
def status : Answer → ℕ
  | listing _ | done => 0
  | _ => 1

/-- `Arrays.toString`. -/
def arrayText (items : List Text) : Text :=
  '[' :: (", ".toList).intercalate items ++ [']']

/-- The text, up to that of an exception. -/
def text : Answer → Text
  | listing text => text
  | done => "Done".toList
  | wrongResolution => "displayResolutionCustom: Wrong resolution format.".toList
  | permissionDenied =>
    ("Permission denied.\nAndroid requires WRITE_SECURE_SETTINGS permission to change " ++
      "\x60enableAccessibilityServiceAutomatically\x60 setting.\nPlease, launch this command " ++
      "using ADB:\nadb shell pm grant com.termux.x11 " ++
      "android.permission.WRITE_SECURE_SETTINGS").toList
  | notAnInteger key => key ++ ": failed to parse integer: ".toList
  | notAnOption key newValue r =>
    key ++ ": can not be set to \"".toList ++ newValue ++ "\", possible options are ".toList ++
      arrayText r.entries ++ if r.same then [] else " or ".toList ++ arrayText r.values
  | unrecognised key => key ++ ": unrecognised option".toList
  | exception => []

end Answer

/-- What an extra puts into the editor, and whether it shuts the key interceptor down. -/
structure Change where
  puts : List (Text × Value)
  shutdown : Bool := false

/-- The check of a resolution; an index out of bounds is not among the exceptions that it
catches. -/
def checkResolution (newValue : Text) : Except Answer Change :=
  match split 'x' newValue with
  | [] => .error .exception
  | w :: rest =>
    match parseInt w with
    | none => .error .wrongResolution
    | some width =>
      match rest with
      | [] => .error .exception
      | h :: _ =>
        match parseInt h with
        | none => .error .wrongResolution
        | some height =>
          if width ≤ 0 ∨ height ≤ 0 then .error .wrongResolution
          else .ok { puts := [(displayResolutionCustom, .string newValue)] }

/-- The index of a new value of a list: among the entries, else among the values. -/
def ListResources.index (r : ListResources) (newValue : Text) : Option ℕ :=
  match r.entries.idxOf? newValue with
  | some i => some i
  | none => if r.same then none else r.values.idxOf? newValue

section

variable (P : Prefs) (granted : Bool)

/-- The body of the loop over the extras, up to the broadcast. -/
def change (key newValue : Text) : Except Answer Change :=
  if key = displayResolutionCustom then checkResolution newValue
  else if key = enableAccessibilityServiceAutomatically then
    if newValue ≠ "true".toList then .ok { puts := [(key, .boolean false)], shutdown := true }
    else if !granted then .error .permissionDenied
    else .ok { puts := [(key, .boolean true)] }
  else if key = extraKeysConfig then .ok { puts := [(key, .string newValue)] }
  else
    match P.get key with
    | some (.boolean _) =>
      .ok
        { puts := (key, .boolean (newValue = "true".toList)) ::
            if key = showAdditionalKbd ∧ newValue = "true".toList then
              [(additionalKbdVisible, .boolean true)]
            else [] }
    | some (.int _) =>
      match parseInt newValue with
      | some n => .ok { puts := [(key, .int (Int32.ofInt n))] }
      | none => .error (.notAnInteger key)
    | some (.list _ r) =>
      match r.index newValue with
      | some i =>
        match r.values[i]? with
        | some value => .ok { puts := [(key, .string value)] }
        | none => .error .exception
      | none => .error (.notAnOption key newValue r)
    | _ => .error (.unrecognised key)

/-- What was done so far: the puts of the editor, the keys of the broadcasts, and the shutdown. -/
structure Effects where
  puts : List (Text × Value) := []
  broadcasts : List Text := []
  shutdown : Bool := false

def Effects.add (f : Effects) (key : Text) (c : Change) : Effects where
  puts := f.puts ++ c.puts
  broadcasts := f.broadcasts ++ [key]
  shutdown := f.shutdown || c.shutdown

/-- The loop over the extras, with the answer that ended it early. -/
def changeAll (f : Effects) : List (Option Text × Option Text) → Effects × Option Answer
  | [] => (f, none)
  | (some key, some newValue) :: extras =>
    match change P granted key newValue with
    | .error a => (f, some a)
    | .ok c => changeAll (f.add key c) extras
  | _ :: extras => changeAll f extras

/-- The answer, the store, the keys of the broadcasts, and whether the key interceptor was shut
down. -/
structure Outcome where
  answer : Answer
  store : Store
  broadcasts : List Text := []
  shutdown : Bool := false

/-- `getStringExtra("list") != null`. -/
def asksList (extras : List (Option Text × Option Text)) : Prop :=
  ∃ v, (some "list".toList, some v) ∈ extras

instance (extras : List (Option Text × Option Text)) : Decidable (asksList extras) :=
  decidable_of_iff (extras.any fun e => e.1 = some "list".toList ∧ e.2.isSome) <| by
    simp [asksList, Option.isSome_iff_exists]

/-- `onReceive`. -/
def onReceive (s : Store) (extras : List (Option Text × Option Text)) : Outcome :=
  if asksList extras then
    match P.list s with
    | some text => { answer := .listing text, store := s }
    | none => { answer := .exception, store := s }
  else
    match changeAll P granted {} extras with
    | (f, some a) =>
      { answer := a, store := s, broadcasts := f.broadcasts, shutdown := f.shutdown }
    | (f, none) =>
      { answer := .done, store := s.commit f.puts, broadcasts := f.broadcasts,
        shutdown := f.shutdown }

/-! ### Which extras are accepted -/

/-- A width and a height, both positive. -/
def IsResolution (newValue : Text) : Prop :=
  ∃ w h rest width height, split 'x' newValue = w :: h :: rest ∧ parseInt w = some width ∧
    parseInt h = some height ∧ 0 < width ∧ 0 < height

/-- A new value is accepted for a preference of a type, and sets it to a value. -/
def PrefType.Accepts : PrefType → Text → Value → Prop
  | .string _, _, _ => False
  | .int _, newValue, value => ∃ n, parseInt newValue = some n ∧ value = .int (Int32.ofInt n)
  | .boolean _, newValue, value => value = .boolean (newValue = "true".toList)
  | .list _ r, newValue, value =>
    ∃ i v, r.index newValue = some i ∧ r.values[i]? = some v ∧ value = .string v

/-- The extra is accepted and sets the preference to a value. -/
def Accepts (key newValue : Text) (value : Value) : Prop :=
  if key = displayResolutionCustom then IsResolution newValue ∧ value = .string newValue
  else if key = enableAccessibilityServiceAutomatically then
    (newValue = "true".toList → granted = true) ∧
      value = .boolean (newValue = "true".toList)
  else if key = extraKeysConfig then value = .string newValue
  else ∃ t, P.get key = some t ∧ t.Accepts newValue value

/-- The extra is accepted. -/
def Acceptable (key newValue : Text) : Prop :=
  ∃ value, Accepts P granted key newValue value

end

/-- What is set along with a preference. -/
def alsoSet (key : Text) (value : Value) : List (Text × Value) :=
  if key = showAdditionalKbd ∧ value = .boolean true then [(additionalKbdVisible, .boolean true)]
  else []

/-- A check of an extra accepts what it sets, and refuses the rest with an error. -/
def Decides (key : Text) (accepts : Value → Prop) : Except Answer Change → Prop
  | .ok c => ∃ value, accepts value ∧ c.puts = (key, value) :: alsoSet key value
  | .error a => (¬ ∃ value, accepts value) ∧ a.status ≠ 0

theorem decides_checkResolution (newValue : Text) :
    Decides displayResolutionCustom
      (fun value => IsResolution newValue ∧ value = .string newValue)
      (checkResolution newValue) := by
  have hnone : ¬ IsResolution newValue →
      ¬ ∃ value, IsResolution newValue ∧ value = Value.string newValue :=
    fun h ⟨_, hr, _⟩ => h hr
  rw [checkResolution]
  split
  · rename_i hsplit
    refine ⟨hnone ?_, by decide⟩
    rintro ⟨w, h, rest, width, height, hs, -⟩
    simp [hsplit] at hs
  · rename_i w rest hsplit
    split
    · rename_i hw
      refine ⟨hnone ?_, by decide⟩
      rintro ⟨w', h, rest', width, height, hs, hw', -⟩
      obtain ⟨rfl, -⟩ := List.cons.inj (hsplit.symm.trans hs)
      simp [hw] at hw'
    · rename_i width hw
      split
      · refine ⟨hnone ?_, by decide⟩
        rintro ⟨w', h, rest', width', height, hs, -⟩
        simp [hsplit] at hs
      · rename_i h rest
        split
        · rename_i hh
          refine ⟨hnone ?_, by decide⟩
          rintro ⟨w', h', rest', width', height, hs, hw', hh', -⟩
          obtain ⟨rfl, hrest⟩ := List.cons.inj (hsplit.symm.trans hs)
          obtain ⟨rfl, -⟩ := List.cons.inj hrest
          simp [hh] at hh'
        · rename_i height hh
          split_ifs with hpos
          · refine ⟨hnone ?_, by decide⟩
            rintro ⟨w', h', rest', width', height', hs, hw', hh', hwpos, hhpos⟩
            obtain ⟨rfl, hrest⟩ := List.cons.inj (hsplit.symm.trans hs)
            obtain ⟨rfl, -⟩ := List.cons.inj hrest
            obtain rfl := Option.some.inj (hw.symm.trans hw')
            obtain rfl := Option.some.inj (hh.symm.trans hh')
            omega
          · exact ⟨_, ⟨⟨w, h, rest, width, height, hsplit, hw, hh, by omega, by omega⟩, rfl⟩, rfl⟩

section

variable {P : Prefs} {granted : Bool}

/-- The check of an extra, up to which error it is. -/
theorem decides_change (key newValue : Text) :
    Decides key (Accepts P granted key newValue)
      (change P granted key newValue) := by
  unfold Accepts change
  by_cases h₁ : key = displayResolutionCustom
  · subst h₁
    simp only [if_pos]
    exact decides_checkResolution newValue
  by_cases h₂ : key = enableAccessibilityServiceAutomatically
  · subst h₂
    simp only [if_neg h₁, if_pos]
    by_cases htrue : newValue = "true".toList
    · rw [if_neg (not_not.2 htrue)]
      cases granted with
      | false =>
        refine ⟨?_, by decide⟩
        rintro ⟨value, hallowed, -⟩
        cases hallowed htrue
      | true => exact ⟨_, ⟨fun _ => rfl, by rw [decide_eq_true htrue]⟩, rfl⟩
    · rw [if_pos htrue]
      exact ⟨_, ⟨fun h => absurd h htrue, by rw [decide_eq_false htrue]⟩, rfl⟩
  by_cases h₃ : key = extraKeysConfig
  · subst h₃
    simp only [if_neg h₁, if_neg h₂, if_pos]
    exact ⟨_, rfl, rfl⟩
  simp only [if_neg h₁, if_neg h₂, if_neg h₃]
  cases hget : P.get key with
  | none => exact ⟨by simp, Nat.one_ne_zero⟩
  | some t =>
    cases t with
    | string d => exact ⟨by simp [PrefType.Accepts], Nat.one_ne_zero⟩
    | int d =>
      dsimp only
      cases hn : parseInt newValue with
      | none => exact ⟨by simp [PrefType.Accepts, hn], Nat.one_ne_zero⟩
      | some n => exact ⟨_, ⟨_, rfl, n, hn, rfl⟩, by simp [alsoSet]⟩
    | boolean d => exact ⟨_, ⟨_, rfl, rfl⟩, by simp [alsoSet]⟩
    | list d r =>
      dsimp only
      cases hi : r.index newValue with
      | none => exact ⟨by simp [PrefType.Accepts, hi], Nat.one_ne_zero⟩
      | some i =>
        dsimp only
        cases hv : r.values[i]? with
        | none => exact ⟨by simp [PrefType.Accepts, hi, hv], Nat.one_ne_zero⟩
        | some v => exact ⟨_, ⟨_, rfl, i, v, hi, hv, rfl⟩, by simp [alsoSet]⟩

theorem PrefType.Accepts.unique {t : PrefType} {newValue : Text} {v v' : Value}
    (h : t.Accepts newValue v) (h' : t.Accepts newValue v') : v = v' := by
  cases t with
  | string d => exact h.elim
  | int d =>
    obtain ⟨n, hn, rfl⟩ := h
    obtain ⟨n', hn', rfl⟩ := h'
    rw [Option.some.inj (hn.symm.trans hn')]
  | boolean d => exact h.trans h'.symm
  | list d r =>
    obtain ⟨i, w, hi, hw, rfl⟩ := h
    obtain ⟨i', w', hi', hw', rfl⟩ := h'
    obtain rfl := Option.some.inj (hi.symm.trans hi')
    rw [Option.some.inj (hw.symm.trans hw')]

/-- The value that is set is determined by the extra. -/
theorem Accepts.unique {key newValue : Text} {v v' : Value} (h : Accepts P granted key newValue v)
    (h' : Accepts P granted key newValue v') : v = v' := by
  unfold Accepts at h h'
  split_ifs at h h' with h₁ h₂ h₃
  · rw [h.2, h'.2]
  · rw [h.2, h'.2]
  · rw [h, h']
  · obtain ⟨t, ht, h⟩ := h
    obtain ⟨t', ht', h'⟩ := h'
    obtain rfl := Option.some.inj (ht.symm.trans ht')
    exact PrefType.Accepts.unique h h'

/-! ### Whole requests -/

/-- The extras that are looked at: those with a key and a string. -/
def entries (extras : List (Option Text × Option Text)) : List (Text × Text) :=
  extras.filterMap fun e => e.1.bind fun key => e.2.map fun newValue => (key, newValue)

theorem mem_entries {extras : List (Option Text × Option Text)} {e : Text × Text} :
    e ∈ entries extras ↔ (some e.1, some e.2) ∈ extras := by
  rw [entries, List.mem_filterMap]
  constructor
  · rintro ⟨⟨_ | key, _ | newValue⟩, hmem, h⟩
    · cases h
    · cases h
    · cases h
    · obtain rfl := Option.some.inj h
      exact hmem
  · intro h
    exact ⟨_, h, rfl⟩

/-- The loop over the extras, seen from the entries. -/
theorem changeAll_induction {motive : Effects → List (Text × Text) → Effects × Option Answer → Prop}
    (nil : ∀ f, motive f [] (f, none))
    (refused : ∀ f key newValue es a, ¬ Acceptable P granted key newValue →
      a.status ≠ 0 → motive f ((key, newValue) :: es) (f, some a))
    (accepted : ∀ f key newValue es c value r,
      Accepts P granted key newValue value →
      c.puts = (key, value) :: alsoSet key value → motive (f.add key c) es r →
      motive f ((key, newValue) :: es) r)
    (f : Effects) (extras : List (Option Text × Option Text)) :
    motive f (entries extras) (changeAll P granted f extras) := by
  induction extras generalizing f with
  | nil => exact nil f
  | cons e extras ih =>
    match e with
    | (none, _) => exact ih f
    | (some key, none) => exact ih f
    | (some key, some newValue) =>
      have hspec : Decides key (Accepts P granted key newValue)
          (change P granted key newValue) := decides_change key newValue
      rw [changeAll]
      cases hc : change P granted key newValue with
      | error a =>
        rw [hc] at hspec
        exact refused f key newValue _ a hspec.1 hspec.2
      | ok c =>
        rw [hc] at hspec
        obtain ⟨value, hvalue, hputs⟩ := hspec
        exact accepted f key newValue _ c value _ hvalue hputs (ih _)

variable (P granted) (f : Effects) (extras : List (Option Text × Option Text))

/-- The loop ends early exactly if an entry is refused. -/
theorem changeAll_none_iff :
    (changeAll P granted f extras).2 = none ↔
      ∀ e ∈ entries extras, Acceptable P granted e.1 e.2 := by
  refine changeAll_induction
    (motive := fun _ es r => r.2 = none ↔ ∀ e ∈ es, Acceptable P granted e.1 e.2)
    ?_ ?_ ?_ f extras
  · intro f
    simp
  · intro f key newValue es a hrefused _
    simp [hrefused]
  · intro f key newValue es c value r hvalue _ ih
    have haccepted : Acceptable P granted key newValue := ⟨value, hvalue⟩
    simp [haccepted, ih]

/-- The answer of an early end is an error. -/
theorem changeAll_status {a : Answer} (h : (changeAll P granted f extras).2 = some a) :
    a.status ≠ 0 := by
  revert h
  refine changeAll_induction (P := P)
    (motive := fun _ _ r => r.2 = some a → a.status ≠ 0) ?_ ?_ ?_ f extras
  · intro f h
    cases h
  · rintro f key newValue es a' _ hstatus h
    obtain rfl := Option.some.inj h
    exact hstatus
  · intro f key newValue es c value r _ _ ih
    exact ih

/-- The first entry decides if there is a broadcast. -/
theorem changeAll_head :
    f.broadcasts.length ≤ (changeAll P granted f extras).1.broadcasts.length ∧
      ∀ e ∈ (entries extras).head?,
        (Acceptable P granted e.1 e.2 → f.broadcasts.length <
          (changeAll P granted f extras).1.broadcasts.length) ∧
        (¬ Acceptable P granted e.1 e.2 →
          (changeAll P granted f extras).1 = f) := by
  refine changeAll_induction (motive := fun f es r =>
    f.broadcasts.length ≤ r.1.broadcasts.length ∧ ∀ e ∈ es.head?,
      (Acceptable P granted e.1 e.2 →
        f.broadcasts.length < r.1.broadcasts.length) ∧
      (¬ Acceptable P granted e.1 e.2 → r.1 = f)) ?_ ?_ ?_ f extras
  · intro f
    simp
  · intro f key newValue es a hrefused _
    simp [hrefused]
  · intro f key newValue es c value r hvalue _ ih
    have haccepted : Acceptable P granted key newValue := ⟨value, hvalue⟩
    have hlt : f.broadcasts.length < r.1.broadcasts.length := by
      have hle := ih.1
      simp only [Effects.add, List.length_append, List.length_singleton] at hle
      omega
    refine ⟨hlt.le, ?_⟩
    rintro e he
    obtain rfl := Option.some.inj he
    exact ⟨fun _ => hlt, fun h => absurd haccepted h⟩

/-- What an entry puts into the editor. -/
def putsOf (w : Text × Text → Value) (e : Text × Text) : List (Text × Value) :=
  (e.1, w e) :: alsoSet e.1 (w e)

/-- The editor after a request all of which is accepted. -/
theorem changeAll_puts {w : Text × Text → Value}
    (h : ∀ e ∈ entries extras, Accepts P granted e.1 e.2 (w e)) :
    (changeAll P granted f extras).1.puts = f.puts ++ (entries extras).flatMap (putsOf w) := by
  revert h
  refine changeAll_induction (motive := fun f es r =>
    (∀ e ∈ es, Accepts P granted e.1 e.2 (w e)) → r.1.puts = f.puts ++ es.flatMap (putsOf w))
    ?_ ?_ ?_ f extras
  · intro f _
    simp
  · intro f key newValue es a hrefused _ h
    exact absurd ⟨_, h _ List.mem_cons_self⟩ hrefused
  · intro f key newValue es c value r hvalue hputs ih h
    have hw : w (key, newValue) = value := (h _ List.mem_cons_self).unique hvalue
    rw [ih fun e he => h e (List.mem_cons_of_mem _ he), List.flatMap_cons, putsOf, hw,
      ← List.append_assoc]
    simp only [Effects.add, hputs]

/-- A request that is not refused has only entries that are accepted. -/
theorem acceptable_of_status {s : Store} (hlist : ¬ asksList extras)
    (h : (onReceive P granted s extras).answer.status = 0) :
    ∀ e ∈ entries extras, Acceptable P granted e.1 e.2 := by
  refine (changeAll_none_iff P granted {} extras).1 ?_
  rw [onReceive, if_neg hlist] at h
  rcases hr : changeAll P granted {} extras with ⟨f, _ | a⟩
  · rfl
  · rw [hr] at h
    exact absurd h (changeAll_status P granted {} extras (by rw [hr]))

/-- A request all of which is accepted. -/
theorem onReceive_accepted {s : Store} {w : Text × Text → Value} (hlist : ¬ asksList extras)
    (hw : ∀ e ∈ entries extras, Accepts P granted e.1 e.2 (w e)) :
    (onReceive P granted s extras).answer = .done ∧
      (onReceive P granted s extras).store = s.commit ((entries extras).flatMap (putsOf w)) := by
  have hnone := (changeAll_none_iff P granted {} extras).2 fun e he => ⟨_, hw e he⟩
  have hputs := changeAll_puts P granted {} extras hw
  rw [onReceive, if_neg hlist]
  rcases hr : changeAll P granted {} extras with ⟨f, _ | a⟩
  · rw [hr] at hputs
    refine ⟨rfl, ?_⟩
    show s.commit f.puts = _
    rw [hputs]
    rfl
  · rw [hr] at hnone
    cases hnone

/-- Nothing was changed, announced or shut down. -/
structure Outcome.NoEffect (o : Outcome) (s : Store) : Prop where
  store_eq : o.store = s
  no_broadcast : o.broadcasts = []
  no_shutdown : o.shutdown = false

/-- The request is a listing, or all of it is accepted if its first entry is. -/
def FirstDecides (P : Prefs) (granted : Bool)
    (extras : List (Option Text × Option Text)) : Prop :=
  asksList extras ∨ ∀ e ∈ (entries extras).head?, Acceptable P granted e.1 e.2 →
    ∀ e' ∈ entries extras, Acceptable P granted e'.1 e'.2

/-- **Refused requests and their effects**: a request that is refused has no effect exactly if it is
the first entry that is refused. -/
theorem refused_noEffect_iff (P : Prefs) (granted : Bool) (s : Store)
    (extras : List (Option Text × Option Text)) :
    ((onReceive P granted s extras).answer.status ≠ 0 →
        (onReceive P granted s extras).NoEffect s) ↔
      FirstDecides P granted extras := by
  by_cases hlist : asksList extras
  · refine iff_of_true (fun _ => ?_) (Or.inl hlist)
    rw [onReceive, if_pos hlist]
    cases P.list s with
    | none => exact ⟨rfl, rfl, rfl⟩
    | some text => exact ⟨rfl, rfl, rfl⟩
  · have hall : (changeAll P granted {} extras).2 = none ↔
        ∀ e ∈ entries extras, Acceptable P granted e.1 e.2 := changeAll_none_iff P granted {} extras
    have hhead := (changeAll_head P granted {} extras).2
    rw [FirstDecides, or_iff_right hlist, onReceive, if_neg hlist]
    rcases hr : changeAll P granted {} extras with ⟨f, _ | a⟩
    · exact iff_of_true (fun h => absurd rfl h) fun _ _ _ => hall.1 (by rw [hr])
    · have ha : a.status ≠ 0 := changeAll_status P granted {} extras (by rw [hr])
      have hsome : ¬ ∀ e ∈ entries extras, Acceptable P granted e.1 e.2 := fun h => by
        have hnone := hall.2 h
        rw [hr] at hnone
        cases hnone
      cases hes : entries extras with
      | nil =>
        rw [hes] at hsome
        simp at hsome
      | cons e es =>
        rw [hes] at hsome
        obtain ⟨haccepted, hrefused⟩ := hhead e (by rw [hes]; rfl)
        rw [hr] at haccepted hrefused
        by_cases he : Acceptable P granted e.1 e.2
        · refine iff_of_false (fun h => ?_) fun h => hsome (h e rfl he)
          have hnone : f.broadcasts = [] := (h ha).no_broadcast
          have hlt : 0 < f.broadcasts.length := haccepted he
          rw [hnone] at hlt
          exact absurd hlt (lt_irrefl 0)
        · refine iff_of_true (fun _ => ?_) fun e' he' h => absurd (Option.some.inj he' ▸ h) he
          have hf : f = {} := hrefused he
          subst hf
          exact ⟨rfl, rfl, rfl⟩

/-- A single preference. -/
def accessibilityOnly : Prefs where
  keys := [(enableAccessibilityServiceAutomatically, .boolean false)]
  nodup := by decide
  plain := by decide +kernel

/-- Nothing was stored yet. -/
def Store.unset : Store := ⟨fun _ => none, fun _ => none, false⟩

/-- A request with an option that is not known. -/
def mistyped : List (Option Text × Option Text) :=
  [(some enableAccessibilityServiceAutomatically, some "false".toList),
    (some "fullscren".toList, some "true".toList)]

/-- The request is refused, but its first key was announced and the service is gone. -/
theorem mistyped_has_effect :
    (onReceive accessibilityOnly true .unset mistyped).answer.status ≠ 0 ∧
      (onReceive accessibilityOnly true .unset mistyped).broadcasts =
        [enableAccessibilityServiceAutomatically] ∧
      (onReceive accessibilityOnly true .unset mistyped).shutdown = true ∧
      ¬ ((onReceive accessibilityOnly true .unset mistyped).answer.status ≠ 0 →
        (onReceive accessibilityOnly true .unset mistyped).NoEffect .unset) := by
  have hstatus : (onReceive accessibilityOnly true .unset mistyped).answer.status ≠ 0 := by
    decide +kernel
  have hshutdown : (onReceive accessibilityOnly true .unset mistyped).shutdown = true := by
    decide +kernel
  refine ⟨hstatus, by decide +kernel, hshutdown, fun h => ?_⟩
  have hnone := (h hstatus).no_shutdown
  rw [hshutdown] at hnone
  cases hnone

end

end TermuxX11.Preferences
