import TermuxX11.Server.Clipboard

/-!
# What the replies name

`lorieConvertSelection` stores the data under `realProperty`, which is the target where the request
has the property `None`, and writes an event with the property of the request.  A run is looked at
through two logs: where data was stored, and what the replies name.
-/

namespace TermuxX11.Server.Clipboard

open Run

/-- A call of `lorieConvertSelection`, with what it gets. -/
structure Conversion where
  lookups : Lookups
  request : LorieDataTarget
  data : Option (List UInt8)

namespace Conversion

/-- The target is one for which there is something to store. -/
def Supplied (c : Conversion) : Prop :=
  c.request.target = .TARGETS ∨ c.request.target = .TIMESTAMP ∨
    c.data ≠ none ∧
      ((c.request.target = .STRING ∨ c.request.target = .TEXT) ∧ c.lookups.latin1 ≠ none ∨
        c.request.target = .UTF8_STRING)

/-- The data can be stored: nothing that is called on the way fails. -/
def Convertible (c : Conversion) : Prop :=
  c.lookups.selection = .Success ∧ c.lookups.window = .Success ∧ c.lookups.property = .Success ∧
    c.Supplied

/-- The request of an obsolete client, which has the property `None`, is converted. -/
def Unnamed (c : Conversion) : Prop := c.Convertible ∧ c.request.property = none

open Classical in
/-- Where data is stored by the conversion. -/
noncomputable def storedAt (c : Conversion) : List (ℕ × Atom) :=
  if c.Convertible then [(c.request.requestor, c.request.property.getD c.request.target)] else []

open Classical in
/-- What the reply to the conversion names. -/
noncomputable def named (c : Conversion) : List (ℕ × Atom) :=
  if c.Convertible then (c.request.property.map fun p => (c.request.requestor, p)).toList else []

theorem length_named_le (c : Conversion) : c.named.length ≤ c.storedAt.length := by
  rw [named, storedAt]
  split_ifs
  · cases c.request.property with
    | none => exact Nat.zero_le _
    | some p => exact le_rfl
  · exact le_rfl

theorem named_eq_iff (c : Conversion) : c.named = c.storedAt ↔ ¬ c.Unnamed := by
  rw [named, storedAt, Unnamed]
  split_ifs with h
  · cases c.request.property with
    | none => simp [h]
    | some p => simp
  · simp [h]

end Conversion

/-! ### One conversion -/

/-- A `dixChangeWindowProperty` that succeeds. -/
theorem store_of_success {l : Lookups} (h : l.property = .Success) (t : LorieDataTarget)
    (type : Atom) (format : ℕ) (value : PropertyValue) :
    ∃ p : StoredProperty, p.window = t.requestor ∧ p.property = t.property.getD t.target ∧
      ∀ s, store l t type format value s = (.Success, deliver t p s) :=
  ⟨_, rfl, rfl, fun _ => if_neg (not_not.2 h)⟩

theorem lorieConvertSelection_of_convertible {c : Conversion} (h : c.Convertible) :
    ∃ p : StoredProperty, p.window = c.request.requestor ∧
      p.property = c.request.property.getD c.request.target ∧
      ∀ s, lorieConvertSelection c.lookups c.request c.data s =
        (.Success, deliver c.request p s) := by
  obtain ⟨l, t, data⟩ := c
  unfold Conversion.Convertible Conversion.Supplied at h
  dsimp only at h ⊢
  obtain ⟨hsel, hwin, hprop, hsupplied⟩ := h
  have hstore := store_of_success hprop t
  unfold lorieConvertSelection
  simp only [ne_eq, hsel, hwin, not_true_eq_false, if_false]
  by_cases htargets : t.target = .TARGETS
  · simp only [htargets, if_true] at hstore ⊢
    exact hstore _ _ _
  by_cases htime : t.target = .TIMESTAMP
  · simp only [htime, if_true, reduceCtorEq, if_false] at hstore ⊢
    exact hstore _ _ _
  replace hsupplied := (hsupplied.resolve_left htargets).resolve_left htime
  simp only [htargets, htime, if_false]
  cases data with
  | none => exact absurd rfl hsupplied.1
  | some data =>
    dsimp only
    rcases hsupplied.2 with ⟨htarget, hlatin1⟩ | htarget
    · simp only [if_pos htarget]
      cases hl : l.latin1 with
      | none => exact absurd hl hlatin1
      | some latin1 => exact hstore _ _ _
    · simp only [htarget, reduceCtorEq, or_self, if_false, if_true] at hstore ⊢
      exact hstore _ _ _

/-- A conversion that stores nothing fails, or waits for the data. -/
theorem lorieConvertSelection_of_not_convertible {c : Conversion} (h : ¬ c.Convertible) :
    (∃ rc, rc ≠ .Success ∧ ∀ s, lorieConvertSelection c.lookups c.request c.data s = (rc, s)) ∨
      ∀ s, lorieConvertSelection c.lookups c.request c.data s = (.Success, queue c.request s) := by
  obtain ⟨l, t, data⟩ := c
  unfold Conversion.Convertible Conversion.Supplied at h
  dsimp only at h ⊢
  have hstore : l.property ≠ .Success → ∀ type format value, ∃ rc, rc ≠ .Success ∧
      ∀ s, store l t type format value s = (rc, s) :=
    fun hprop _ _ _ => ⟨l.property, hprop, fun _ => if_pos hprop⟩
  by_cases hlookup : l.selection = .Success ∧ l.window = .Success
  swap
  · exact .inl (lorieConvertSelection_of_lookup hlookup t data)
  obtain ⟨hsel, hwin⟩ := hlookup
  unfold lorieConvertSelection
  simp only [ne_eq, hsel, hwin, not_true_eq_false, if_false, true_and] at h ⊢
  by_cases htargets : t.target = .TARGETS
  · simp only [htargets, if_true]
    exact .inl (hstore (fun hprop => h ⟨hprop, .inl htargets⟩) _ _ _)
  by_cases htime : t.target = .TIMESTAMP
  · simp only [htime, reduceCtorEq, if_false, if_true]
    exact .inl (hstore (fun hprop => h ⟨hprop, .inr (.inl htime)⟩) _ _ _)
  simp only [htargets, htime, if_false, false_or] at h ⊢
  cases data with
  | none =>
    dsimp only
    split_ifs
    · exact .inl ⟨.BadMatch, nofun, fun _ => rfl⟩
    · exact .inl ⟨.BadAlloc, nofun, fun _ => rfl⟩
    · exact .inr fun _ => rfl
  | some data =>
    dsimp only
    by_cases htext : t.target = .STRING ∨ t.target = .TEXT
    · simp only [if_pos htext]
      cases hl : l.latin1 with
      | none => exact .inl ⟨.BadAlloc, nofun, fun _ => rfl⟩
      | some latin1 =>
        refine .inl (hstore (fun hprop => h ⟨hprop, nofun, .inl ⟨htext, ?_⟩⟩) _ _ _)
        rw [hl]
        nofun
    · simp only [if_neg htext]
      by_cases hutf8 : t.target = .UTF8_STRING
      · simp only [if_pos hutf8]
        exact .inl (hstore (fun hprop => h ⟨hprop, nofun, .inr hutf8⟩) _ _ _)
      · simp only [if_neg hutf8]
        exact .inl ⟨.BadMatch, nofun, fun _ => rfl⟩

/-! ### The logs -/

/-- The windows and the properties that data was stored in. -/
def storedAt (s : Clipboard) : List (ℕ × Atom) := s.stored.map fun p => (p.window, p.property)

/-- The windows and the properties that the replies name. -/
def named (s : Clipboard) : List (ℕ × Atom) :=
  s.written.filterMap fun e => e.property.map fun p => (e.requestor, p)

theorem named_write (e : SelectionNotify) (s : Clipboard) :
    named (s.write e) = named s ++ (e.property.map fun p => (e.requestor, p)).toList := by
  rw [named, write, List.filterMap_append]
  cases h : e.property with
  | none => simp [h, named]
  | some p => simp [h, named]

theorem answer_logs (c : Conversion) (s : Clipboard) :
    storedAt (answer c.lookups c.request c.data s) = storedAt s ++ c.storedAt ∧
      named (answer c.lookups c.request c.data s) = named s ++ c.named := by
  by_cases h : c.Convertible
  · obtain ⟨p, hwindow, hproperty, hdeliver⟩ := lorieConvertSelection_of_convertible h
    simp only [answer, hdeliver, ne_eq, not_true_eq_false, if_false, Conversion.storedAt,
      Conversion.named, if_pos h]
    constructor
    · simp [storedAt, deliver, write, hwindow, hproperty]
    · exact named_write _ _
  · simp only [Conversion.storedAt, Conversion.named, if_neg h, List.append_nil]
    rcases lorieConvertSelection_of_not_convertible h with ⟨rc, hrc, hfail⟩ | hqueue
    · simp only [answer, hfail, ne_eq, hrc, not_false_eq_true, if_true]
      exact ⟨rfl, (named_write _ s).trans (List.append_nil _)⟩
    · simp only [answer, hqueue, ne_eq, not_true_eq_false, if_false]
      exact ⟨rfl, rfl⟩

/-- The conversions that a step makes. -/
def conversions (s : Clipboard) : Action → List Conversion
  | .convertSelection l client stuff =>
    if l.accepts stuff then [⟨l.convert, ofReq client stuff s, s.cachedData⟩] else []
  | .announce => []
  | .data l data _ => s.lorieDataTargetHead.map fun t => ⟨l t, t, some data⟩

theorem answerPending_logs {l : LorieDataTarget → Lookups} {data : List UInt8} {fuel : ℕ}
    {s s' : Clipboard} (hdata : s.cachedData = some data)
    (h : answerPending l fuel s = some s') :
    storedAt s' = storedAt s ++ (conversions s (.data l data fuel)).flatMap Conversion.storedAt ∧
      named s' = named s ++ (conversions s (.data l data fuel)).flatMap Conversion.named := by
  induction fuel generalizing s with
  | zero => cases h
  | succ fuel ih =>
    cases hs : s.lorieDataTargetHead with
    | nil =>
      rw [answerPending_nil hs] at h
      obtain rfl := Option.some.inj h
      simp [conversions, hs]
    | cons t ts =>
      have hlogs := answer_logs ⟨l t, t, some data⟩ s
      rw [answerPending, hs, hdata] at h
      -- the list is as it was, so the request that is freed is the one that was answered
      have hkeep : (answer (l t) t (some data) s).lorieDataTargetHead = t :: ts ∧
          (answer (l t) t (some data) s).cachedData = some data := by
        rcases answer_cases (l t) t (some data) with ⟨hnone, -⟩ | ⟨ps, heq⟩
        · cases hnone
        · rw [heq]
          exact ⟨hs, hdata⟩
      obtain ⟨hstored, hnamed⟩ := ih (s := { answer (l t) t (some data) s with
        lorieDataTargetHead := (answer (l t) t (some data) s).lorieDataTargetHead.tail })
        hkeep.2 h
      simp only [conversions, hkeep.1, hs, List.tail_cons, List.map_cons, List.flatMap_cons] at *
      constructor
      · rw [hstored, ← List.append_assoc, ← hlogs.1]
        rfl
      · rw [hnamed, ← List.append_assoc, ← hlogs.2]
        rfl

theorem step_logs {s s' : Clipboard} {a : Action} (h : s.step a = some s') :
    storedAt s' = storedAt s ++ (conversions s a).flatMap Conversion.storedAt ∧
      named s' = named s ++ (conversions s a).flatMap Conversion.named := by
  cases a with
  | convertSelection l client stuff =>
    obtain rfl := Option.some.inj h
    cases hacc : l.accepts stuff with
    | false =>
      rw [lorieProcConvertSelection_refused hacc]
      simp [conversions, hacc, storedAt, named]
    | true =>
      rw [lorieProcConvertSelection_accepted hacc]
      simp only [conversions, hacc, if_true, List.flatMap_singleton]
      exact answer_logs ⟨l.convert, ofReq client stuff s, s.cachedData⟩ _
  | announce =>
    obtain rfl := Option.some.inj h
    simp [conversions, storedAt, named, lorieHandleClipboardAnnounce]
  | data l data fuel => exact answerPending_logs (s := { s with cachedData := some data }) rfl h

/-! ### Runs -/

theorem length_flatMap_named_le (cs : List Conversion) :
    (cs.flatMap Conversion.named).length ≤ (cs.flatMap Conversion.storedAt).length := by
  induction cs with
  | nil => exact le_rfl
  | cons c cs ih =>
    rw [List.flatMap_cons, List.flatMap_cons, List.length_append, List.length_append]
    exact Nat.add_le_add c.length_named_le ih

/-- Two logs that were appended to are equal only if both parts are, where one is never longer. -/
theorem append_eq_append_iff_of_le {α : Type} {a b c d : List α} (hac : a.length ≤ c.length)
    (hbd : b.length ≤ d.length) : a ++ b = c ++ d ↔ a = c ∧ b = d := by
  constructor
  · intro h
    have hlength := congrArg List.length h
    rw [List.length_append, List.length_append] at hlength
    exact List.append_inj h (by omega)
  · rintro ⟨rfl, rfl⟩
    rfl

theorem flatMap_named_eq_iff (cs : List Conversion) :
    cs.flatMap Conversion.named = cs.flatMap Conversion.storedAt ↔ ∀ c ∈ cs, ¬ c.Unnamed := by
  induction cs with
  | nil => simp
  | cons c cs ih =>
    rw [List.flatMap_cons, List.flatMap_cons,
      append_eq_append_iff_of_le c.length_named_le (length_flatMap_named_le cs), ih,
      c.named_eq_iff, List.forall_mem_cons]

/-- **A reply names what was stored unless the request named nothing.**  At the end of a run the
replies name, in order, exactly the properties that data was stored in, if and only if no request
with the property `None` was converted. -/
theorem named_eq_storedAt_iff {steps : List Action} {s : Clipboard}
    (h : tryExec step {} steps = some s) :
    named s = storedAt s ↔
      TryAlways step (fun s a => ∀ c ∈ conversions s a, ¬ c.Unnamed) {} steps := by
  have hstep : ∀ s a s', (named s).length ≤ (storedAt s).length → step s a = some s' →
      (named s').length ≤ (storedAt s').length ∧
        (named s' = storedAt s' ↔ named s = storedAt s ∧ ∀ c ∈ conversions s a, ¬ c.Unnamed) := by
    intro s a s' hle hs'
    obtain ⟨hstored, hnamed⟩ := step_logs hs'
    have hmore := length_flatMap_named_le (conversions s a)
    rw [hstored, hnamed, append_eq_append_iff_of_le hle hmore, flatMap_named_eq_iff,
      List.length_append, List.length_append]
    exact ⟨Nat.add_le_add hle hmore, Iff.rfl⟩
  have hrun := tryExec_iff_of_invariant (I := fun s => (named s).length ≤ (storedAt s).length)
    (R := fun s => named s = storedAt s) (P := fun s a => ∀ c ∈ conversions s a, ¬ c.Unnamed)
    (fun s a s' hI hs' => (hstep s a s' hI hs').1) (fun s a s' hI hs' => (hstep s a s' hI hs').2)
    (Nat.le_refl _) h
  rw [hrun]
  exact and_iff_right rfl

/-- A request that waits for the data and names its property. -/
theorem named_eq_storedAt_waiting :
    ∃ s, tryExec step {}
        [.convertSelection {} 1 ⟨.CLIPBOARD, .UTF8_STRING, some (.other 70), 9, 0⟩,
          .data (fun _ => {}) [104, 105] 2] = some s ∧
      storedAt s = [(9, .other 70)] ∧ named s = storedAt s := by
  have hs : tryExec step {}
      [.convertSelection {} 1 ⟨.CLIPBOARD, .UTF8_STRING, some (.other 70), 9, 0⟩,
        .data (fun _ => {}) [104, 105] 2] = some _ := rfl
  refine ⟨_, hs, rfl, (named_eq_storedAt_iff hs).2 ⟨?_, ?_⟩⟩
  · rintro c hc ⟨-, hnone⟩
    obtain rfl := List.mem_singleton.1 hc
    cases hnone
  · rintro s' hs'
    obtain rfl := Option.some.inj hs'
    refine ⟨?_, fun _ _ => trivial⟩
    rintro c hc ⟨-, hnone⟩
    obtain rfl := List.mem_singleton.1 hc
    cases hnone

/-- An obsolete client asks for the targets: they are stored under the target, and the reply names
nothing. -/
theorem unnamed_targets :
    ∃ s, tryExec step {} [.convertSelection {} 1 ⟨.CLIPBOARD, .TARGETS, none, 9, 0⟩] = some s ∧
      storedAt s = [(9, .TARGETS)] ∧ s.written.map SelectionNotify.property = [none] ∧
      named s ≠ storedAt s :=
  ⟨_, rfl, rfl, rfl, by decide⟩

end TermuxX11.Server.Clipboard
