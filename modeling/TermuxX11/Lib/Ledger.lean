import Mathlib

/-!
# Presses, releases and who answers for them

A trace of presses (`true`) and releases (`false`) of keys of any type `κ`.  A key is down
after a trace if its last event is a press.  A component of a program is described by the
set of keys it answers for; `Explains h h' evs` says that a component which answered for
`h` and sent `evs` may afterwards answer for `h'`: for all that it pressed last, and for
all of `h` that it did not touch.

If every step of a program explains the events it sends, every key that is down at any
moment is answered for (`Explains.covers`).
-/

namespace Ledger

variable {κ : Type} [DecidableEq κ]

/-- The last event of `k` in a trace. -/
def last (evs : List (κ × Bool)) (k : κ) : Option Bool :=
  evs.foldl (fun r e => if e.1 = k then some e.2 else r) none

theorem foldl_last (evs : List (κ × Bool)) (k : κ) (r : Option Bool) :
    evs.foldl (fun r e => if e.1 = k then some e.2 else r) r = (last evs k).or r := by
  induction evs generalizing r with
  | nil => rfl
  | cons e evs ih =>
    rw [last, List.foldl_cons, List.foldl_cons, ih, ih (if e.1 = k then some e.2 else none)]
    cases last evs k with
    | some b => rfl
    | none => by_cases h : e.1 = k <;> simp [h]

@[simp] theorem last_nil (k : κ) : last [] k = none := rfl

theorem last_append (evs evs' : List (κ × Bool)) (k : κ) :
    last (evs ++ evs') k = (last evs' k).or (last evs k) := by
  rw [last, List.foldl_append]
  exact foldl_last evs' k (last evs k)

theorem last_cons (e : κ × Bool) (evs : List (κ × Bool)) (k : κ) :
    last (e :: evs) k = (last evs k).or (if e.1 = k then some e.2 else none) := by
  rw [last, List.foldl_cons]
  exact foldl_last evs k _

@[simp] theorem last_singleton (e : κ × Bool) (k : κ) :
    last [e] k = if e.1 = k then some e.2 else none := rfl

theorem mem_of_last {evs : List (κ × Bool)} {k : κ} {b : Bool} (h : last evs k = some b) :
    (k, b) ∈ evs := by
  induction evs with
  | nil => cases h
  | cons e evs ih =>
    rw [last_cons, Option.or_eq_some_iff] at h
    rcases h with h | ⟨-, h⟩
    · exact List.mem_cons_of_mem e (ih h)
    · split_ifs at h with hk
      obtain rfl := Option.some.inj h
      rw [← hk]
      exact List.mem_cons_self

/-- A row of keys that are all pressed, or all released. -/
theorem last_map (ks : List κ) (d : Bool) (k : κ) :
    last (ks.map fun k => (k, d)) k = if k ∈ ks then some d else none := by
  induction ks with
  | nil => rfl
  | cons k' ks ih =>
    rw [List.map_cons, last_cons, ih]
    by_cases hk : k ∈ ks
    · simp [hk]
    · by_cases hk' : k' = k
      · simp [hk, hk']
      · simp [hk, hk', Ne.symm hk']

/-- The trace that has a press for each release and a release for each press. -/
theorem last_flip (evs : List (κ × Bool)) (k : κ) :
    last (evs.map fun e => (e.1, !e.2)) k = (last evs k).map not := by
  induction evs with
  | nil => rfl
  | cons e evs ih =>
    rw [List.map_cons, last_cons, last_cons, ih]
    cases last evs k with
    | some d => rfl
    | none => by_cases hk : e.1 = k <;> simp [hk]

/-- The key is down after the trace. -/
def Down (evs : List (κ × Bool)) (k : κ) : Prop := last evs k = some true

instance (evs : List (κ × Bool)) (k : κ) : Decidable (Down evs k) :=
  inferInstanceAs (Decidable (last evs k = some true))

/-- A component that answered for `h` sent `evs` and answers for `h'`. -/
structure Explains (h h' : κ → Prop) (evs : List (κ × Bool)) : Prop where
  pressed : ∀ k, last evs k = some true → h' k
  kept : ∀ k, last evs k = none → h k → h' k

namespace Explains

variable {h h' h'' g : κ → Prop} {evs evs' : List (κ × Bool)}

/-- Nothing was sent and nothing was forgotten. -/
theorem of_imp (hk : ∀ k, h k → h' k) : Explains h h' [] where
  pressed k hd := by simp at hd
  kept k _ := hk k

theorem refl (h : κ → Prop) : Explains h h [] := of_imp fun _ hk => hk

theorem trans (h₁ : Explains h h' evs) (h₂ : Explains h' h'' evs') :
    Explains h h'' (evs ++ evs') where
  pressed k hd := by
    rw [last_append, Option.or_eq_some_iff] at hd
    rcases hd with hd | ⟨hn, hd⟩
    · exact h₂.pressed k hd
    · exact h₂.kept k hn (h₁.pressed k hd)
  kept k hn hk := by
    rw [last_append, Option.or_eq_none_iff] at hn
    exact h₂.kept k hn.1 (h₁.kept k hn.2 hk)

theorem mono (h₁ : Explains h h' evs) (hk : ∀ k, h' k → h'' k) : Explains h h'' evs where
  pressed k hd := hk k (h₁.pressed k hd)
  kept k hn hh := hk k (h₁.kept k hn hh)

/-- Other components keep answering for what is theirs. -/
theorem frame (h₁ : Explains h h' evs) (g : κ → Prop) :
    Explains (fun k => h k ∨ g k) (fun k => h' k ∨ g k) evs where
  pressed k hd := Or.inl (h₁.pressed k hd)
  kept k hn hk := hk.imp_left (h₁.kept k hn)

theorem frame_left (h₁ : Explains h h' evs) (g : κ → Prop) :
    Explains (fun k => g k ∨ h k) (fun k => g k ∨ h' k) evs where
  pressed k hd := Or.inr (h₁.pressed k hd)
  kept k hn hk := hk.imp_right (h₁.kept k hn)

/-- A row of presses is explained by answering for it. -/
theorem press {ks : List κ} (hks : ∀ k ∈ ks, h' k) (hk : ∀ k, h k → h' k) :
    Explains h h' (ks.map fun k => (k, true)) where
  pressed k hd := by
    rw [last_map] at hd
    split_ifs at hd with hmem
    exact hks k hmem
  kept k _ := hk k

/-- What is in a row of releases needs no more answering for. -/
theorem release {ks : List κ} (hk : ∀ k, h k → k ∈ ks ∨ h' k) :
    Explains h h' (ks.map fun k => (k, false)) where
  pressed k hd := by
    rw [last_map] at hd
    split_ifs at hd
    cases hd
  kept k hn hh := by
    rw [last_map] at hn
    split_ifs at hn with hmem
    exact (hk k hh).resolve_left hmem

/-- A press that is released at once. -/
theorem tap (h : κ → Prop) (k : κ) : Explains h h [(k, true), (k, false)] where
  pressed k' hd := by
    rw [last_cons, last_singleton] at hd
    by_cases hk : k = k' <;> simp [hk] at hd
  kept k' _ hk := hk

/-- **The ledger is kept**: what is down after the step is answered for. -/
theorem covers {tr : List (κ × Bool)} (h₁ : Explains h h' evs) (hc : ∀ k, Down tr k → h k) :
    ∀ k, Down (tr ++ evs) k → h' k := by
  intro k hd
  rw [Down, last_append, Option.or_eq_some_iff] at hd
  rcases hd with hd | ⟨hn, hd⟩
  · exact h₁.pressed k hd
  · exact h₁.kept k hn (hc k hd)

end Explains

/-! ### Reports of a whole state -/

/-- The events of the keys `ks` by which a sender that has reported `saved` reports `current`:
those of the keys that differ. -/
def changes (ks : List κ) (saved current : κ → Bool) : List (κ × Bool) :=
  (ks.filter fun k => saved k != current k).map fun k => (k, current k)

theorem last_changes (ks : List κ) (saved current : κ → Bool) (k : κ) :
    last (changes ks saved current) k =
      if k ∈ ks ∧ saved k ≠ current k then some (current k) else none := by
  induction ks with
  | nil => simp [changes]
  | cons k' ks ih =>
    by_cases hk' : saved k' = current k'
    · have hskip : changes (k' :: ks) saved current = changes ks saved current := by
        simp [changes, hk']
      rw [hskip, ih]
      refine if_congr ?_ rfl rfl
      constructor
      · rintro ⟨hmem, hne⟩
        exact ⟨List.mem_cons_of_mem k' hmem, hne⟩
      · rintro ⟨hmem, hne⟩
        rcases List.mem_cons.1 hmem with rfl | hmem
        · exact absurd hk' hne
        · exact ⟨hmem, hne⟩
    · have hsend : changes (k' :: ks) saved current =
          (k', current k') :: changes ks saved current := by
        simp [changes, hk']
      rw [hsend, last_cons, ih]
      by_cases heq : k' = k
      · subst heq
        by_cases hmem : k' ∈ ks <;> simp [hmem, hk']
      · by_cases hmem : k ∈ ks ∧ saved k ≠ current k
        · simp [hmem]
        · simp [heq, Ne.symm heq, hmem]

/-- **A report is right** for a key exactly if the key is as reported already, wherever the
report is the one before. -/
theorem down_changes_iff {ks : List κ} {saved current : κ → Bool} {tr : List (κ × Bool)} {k : κ}
    (hk : k ∈ ks) :
    (Down (tr ++ changes ks saved current) k ↔ current k = true) ↔
      (saved k = current k → (Down tr k ↔ current k = true)) := by
  rw [Down, last_append, last_changes]
  by_cases hsame : saved k = current k
  · simp [hsame, Down]
  · simp [hsame, hk]

/-! ### Alternation -/

/-- Presses and releases of each key alternate: a key that is pressed is up, and one that is
released is down. -/
def Alternates (evs : List (κ × Bool)) : Prop :=
  ∀ before e, before ++ [e] <+: evs → (e.2 = true ↔ ¬ Down before e.1)

theorem alternates_nil : Alternates ([] : List (κ × Bool)) := by
  intro before e h
  simp at h

theorem alternates_concat {evs : List (κ × Bool)} {e : κ × Bool} :
    Alternates (evs ++ [e]) ↔ Alternates evs ∧ (e.2 = true ↔ ¬ Down evs e.1) := by
  constructor
  · intro h
    refine ⟨fun before e' hp => h before e' (hp.trans (List.prefix_append _ _)), ?_⟩
    exact h evs e (List.prefix_refl _)
  · rintro ⟨h, hlast⟩ before e' hp
    rcases List.prefix_concat_iff.1 hp with heq | hp
    · obtain ⟨rfl, hone⟩ := List.append_inj' heq rfl
      obtain rfl := List.singleton_inj.1 hone
      exact hlast
    · exact h before e' hp

theorem down_concat {evs : List (κ × Bool)} {e : κ × Bool} {k : κ} :
    Down (evs ++ [e]) k ↔ if e.1 = k then e.2 = true else Down evs k := by
  rw [Down, last_append, last_singleton]
  split_ifs with h
  · simp
  · exact Iff.rfl

/-- A key that is pressed and released at once. -/
theorem alternates_click {evs : List (κ × Bool)} {k : κ} :
    Alternates (evs ++ [(k, true), (k, false)]) ↔ Alternates evs ∧ ¬ Down evs k := by
  rw [List.append_cons, alternates_concat, alternates_concat, down_concat, and_assoc]
  simp

theorem down_click {evs : List (κ × Bool)} {k k' : κ} :
    Down (evs ++ [(k, true), (k, false)]) k' ↔ k ≠ k' ∧ Down evs k' := by
  rw [List.append_cons, down_concat, down_concat]
  by_cases h : k = k'
  · simp [h]
  · simp [h]

/-- What is down after a report: of the keys that it changes those that it presses. -/
theorem down_append_changes {ks : List κ} {saved current : κ → Bool} {evs : List (κ × Bool)}
    {k : κ} :
    Down (evs ++ changes ks saved current) k ↔
      if k ∈ ks ∧ saved k ≠ current k then current k = true else Down evs k := by
  rw [Down, last_append, last_changes]
  split_ifs
  · simp
  · exact Iff.rfl

/-- **A report alternates** with what was sent before exactly if the keys that it changes are as
they were reported. -/
theorem alternates_append_changes {ks : List κ} {saved current : κ → Bool}
    {evs : List (κ × Bool)} (hks : ks.Nodup) :
    Alternates (evs ++ changes ks saved current) ↔
      Alternates evs ∧ ∀ k ∈ ks, saved k ≠ current k → (Down evs k ↔ saved k = true) := by
  induction ks generalizing evs with
  | nil => simp [changes]
  | cons k' ks ih =>
    obtain ⟨hk', hks⟩ := List.nodup_cons.1 hks
    by_cases hsame : saved k' = current k'
    · have hskip : changes (k' :: ks) saved current = changes ks saved current := by
        simp [changes, hsame]
      rw [hskip, ih hks, List.forall_mem_cons]
      exact and_congr_right fun _ => (and_iff_right fun hne => absurd hsame hne).symm
    · have hsend : changes (k' :: ks) saved current =
          (k', current k') :: changes ks saved current := by
        simp [changes, hsame]
      have hother : ∀ k ∈ ks, (Down (evs ++ [(k', current k')]) k ↔ Down evs k) := by
        intro k hk
        have hne : k' ≠ k := fun heq => hk' (heq ▸ hk)
        rw [down_concat, if_neg hne]
      -- the key is pressed while up or released while down: it was as reported
      have hfirst : (current k' = true ↔ ¬ Down evs k') ↔ (Down evs k' ↔ saved k' = true) := by
        by_cases hdown : Down evs k'
        · cases hc : current k' <;> cases hs : saved k' <;> simp_all
        · cases hc : current k' <;> cases hs : saved k' <;> simp_all
      rw [hsend, List.append_cons, ih hks, alternates_concat, hfirst, and_assoc,
        List.forall_mem_cons]
      refine and_congr_right fun _ => and_congr ?_ ?_
      · exact ⟨fun h _ => h, fun h => h hsame⟩
      · exact forall₂_congr fun k hk => by rw [hother k hk]

/-- Presses and releases alternate, and `held` says which keys are down. -/
structure Follows (held : κ → Bool) (evs : List (κ × Bool)) : Prop where
  alternates : Alternates evs
  down : ∀ k, Down evs k ↔ held k = true

section

variable {held : κ → Bool} {evs : List (κ × Bool)} {k : κ}

/-- A key that is up is pressed, or one that is down is released. -/
theorem Follows.send {pressed : Bool} (h : Follows held evs) (hk : held k = !pressed) :
    Follows (Function.update held k pressed) (evs ++ [(k, pressed)]) where
  alternates := by
    rw [alternates_concat, h.down, hk]
    exact ⟨h.alternates, by simp⟩
  down k' := by
    rw [down_concat, h.down]
    by_cases heq : k = k'
    · simp [heq]
    · simp [heq, Ne.symm heq]

theorem Follows.press (h : Follows held evs) (hk : held k = false) :
    Follows (Function.update held k true) (evs ++ [(k, true)]) := h.send hk

theorem Follows.release (h : Follows held evs) (hk : held k = true) :
    Follows (Function.update held k false) (evs ++ [(k, false)]) := h.send hk

/-- A key that is up is pressed and released. -/
theorem Follows.click (h : Follows held evs) (hk : held k = false) :
    Follows held (evs ++ [(k, true), (k, false)]) where
  alternates := by
    rw [alternates_click, h.down, hk]
    exact ⟨h.alternates, by simp⟩
  down k' := by
    rw [down_click, h.down]
    constructor
    · exact And.right
    · rintro hheld
      refine ⟨fun heq => ?_, hheld⟩
      rw [← heq, hk] at hheld
      cases hheld

end

/-! ### Several senders -/

variable {ι : Type} [DecidableEq ι]

/-- The events of the sender `i`. -/
def tagged (i : ι) (evs : List (κ × Bool)) : List ((ι × κ) × Bool) :=
  evs.map fun e => ((i, e.1), e.2)

theorem last_tagged (i : ι) (evs : List (κ × Bool)) (k : ι × κ) :
    last (tagged i evs) k = if i = k.1 then last evs k.2 else none := by
  induction evs with
  | nil => simp [tagged]
  | cons e evs ih =>
    have hcons : tagged i (e :: evs) = ((i, e.1), e.2) :: tagged i evs := rfl
    rw [hcons, last_cons, ih, last_cons]
    by_cases hi : i = k.1
    · have hk : ((i, e.1) = k) ↔ e.1 = k.2 := by
        rw [Prod.ext_iff]
        exact and_iff_right hi
      simp [hi ▸ hk, hi]
    · have hk : (i, e.1) ≠ k := fun h => hi (congrArg Prod.fst h)
      simp [hi, hk]

/-- A component that is the only one to send as `i`. -/
theorem Explains.tagged {h h' : κ → Prop} {evs : List (κ × Bool)} (h₁ : Explains h h' evs)
    (i : ι) :
    Explains (fun k : ι × κ => i = k.1 ∧ h k.2) (fun k => i = k.1 ∧ h' k.2)
      (tagged i evs) where
  pressed k hd := by
    rw [last_tagged] at hd
    split_ifs at hd with hi
    exact ⟨hi, h₁.pressed k.2 hd⟩
  kept k hn hk := by
    rw [last_tagged, if_pos hk.1] at hn
    exact ⟨hk.1, h₁.kept k.2 hn hk.2⟩

/-- Forgetting who sent an event: what is down for the receiver is down for one sender. -/
theorem down_of_down_map {tr : List ((ι × κ) × Bool)} {k : κ}
    (h : Down (tr.map fun e => (e.1.2, e.2)) k) : ∃ i, Down tr (i, k) := by
  induction tr using List.reverseRecOn with
  | nil => simp [Down] at h
  | append_singleton tr e ih =>
    rw [List.map_append, Down, last_append, Option.or_eq_some_iff] at h
    rcases h with h | ⟨hn, h⟩
    · have hmem := mem_of_last h
      simp only [List.map_cons, List.map_nil, List.mem_singleton, Prod.mk.injEq] at hmem
      refine ⟨e.1.1, ?_⟩
      rw [Down, last_append, last_singleton, if_pos (by rw [hmem.1]), ← hmem.2]
      rfl
    · obtain ⟨i, hi⟩ := ih h
      refine ⟨i, ?_⟩
      have hne : e.1 ≠ (i, k) := by
        rintro he
        simp [he] at hn
      rw [Down, last_append, last_singleton, if_neg hne]
      exact hi

end Ledger
