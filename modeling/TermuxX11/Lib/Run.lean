import Mathlib

/-!
# Runs of a step function

A system is a step function `step : S → A → S`; a run is a list of actions.  `Always P`
says that `P` holds of every step of a run, as a relation between the action and the
state it is taken in.  The invariant rule is for what the steps meeting a condition
preserve.

A step that may fail is `act : S → A → Option S`; `tryExec` is its run, `TryAlways` the
condition on its steps.
-/

namespace Run

variable {S A : Type} (step : S → A → S)

/-- The state after a run. -/
def exec (s : S) (as : List A) : S := as.foldl step s

@[simp] theorem exec_nil (s : S) : exec step s [] = s := rfl

@[simp] theorem exec_cons (s : S) (a : A) (as : List A) :
    exec step s (a :: as) = exec step (step s a) as := rfl

theorem exec_concat (s : S) (as : List A) (a : A) :
    exec step s (as ++ [a]) = step (exec step s as) a := by
  simp [exec]

theorem exec_append (s : S) (as bs : List A) :
    exec step s (as ++ bs) = exec step (exec step s as) bs :=
  List.foldl_append

/-- `P` holds of every step of the run. -/
def Always (P : S → A → Prop) : S → List A → Prop
  | _, [] => True
  | s, a :: as => P s a ∧ Always P (step s a) as

variable {step} {I : S → Prop} {P Q : S → A → Prop}

/-- What the steps that meet `P` preserve holds at the end of every run made of them. -/
theorem exec_invariant_of_always (hstep : ∀ s a, I s → P s a → I (step s a)) {s : S} (hs : I s)
    {as : List A} (h : Always step P s as) : I (exec step s as) := by
  induction as generalizing s with
  | nil => exact hs
  | cons a as ih => exact ih (hstep s a hs h.1) h.2

theorem Always.and {s : S} {as : List A} (hP : Always step P s as) (hQ : Always step Q s as) :
    Always step (fun s a => P s a ∧ Q s a) s as := by
  induction as generalizing s with
  | nil => trivial
  | cons a as ih => exact ⟨⟨hP.1, hQ.1⟩, ih hP.2 hQ.2⟩

/-- What every action of a run meets in any state. -/
theorem always_of_forall {as : List A} (h : ∀ a ∈ as, ∀ s, P s a) (s : S) :
    Always step P s as := by
  induction as generalizing s with
  | nil => trivial
  | cons a as ih =>
    exact ⟨h a List.mem_cons_self s, ih (fun b hb => h b (List.mem_cons_of_mem a hb)) _⟩

/-- What follows from `P` under an invariant that the steps meeting `P` preserve. -/
theorem Always.imp_of_invariant {s : S} {as : List A} (h : Always step P s as)
    (hstep : ∀ s a, I s → P s a → I (step s a)) (hPQ : ∀ s a, I s → P s a → Q s a) (hs : I s) :
    Always step Q s as := by
  induction as generalizing s with
  | nil => trivial
  | cons a as ih => exact ⟨hPQ s a hs h.1, ih h.2 (hstep s a hs h.1)⟩

/-- Under an invariant of the steps that meet one of them, equivalent step properties hold of
the same runs. -/
theorem always_iff_of_invariant (hstep : ∀ s a, I s → P s a → I (step s a))
    (hPQ : ∀ s a, I s → (P s a ↔ Q s a)) {s : S} (hs : I s) (as : List A) :
    Always step P s as ↔ Always step Q s as := by
  induction as generalizing s with
  | nil => exact Iff.rfl
  | cons a as ih =>
    rw [Always, Always, ← hPQ s a hs]
    exact and_congr_right fun hP => ih (hstep s a hs hP)

/-- Under an invariant that the steps meeting `P` keep, equivalent step properties hold of the same
runs of such steps. -/
theorem Always.iff_of_invariant {Q' : S → A → Prop} {s : S} {as : List A}
    (h : Always step P s as) (hI : ∀ s a, I s → P s a → I (step s a))
    (hQ : ∀ s a, I s → P s a → (Q s a ↔ Q' s a)) (hs : I s) :
    Always step Q s as ↔ Always step Q' s as := by
  induction as generalizing s with
  | nil => exact Iff.rfl
  | cons a as ih => exact and_congr (hQ s a hs h.1) (ih h.2 (hI s a hs h.1))

/-- A step that does not meet `Q` leads into a trap, which no later step leaves and which the
last step shows: a run that meets `P` up to its last step has met `Q` all along. -/
theorem always_concat_iff_of_trap {O : S → Prop}
    (hkeep : ∀ s a, I s → Q s a → I (step s a) ∧ P s a)
    (henter : ∀ s a, I s → ¬ Q s a → P s a → O (step s a))
    (hstay : ∀ s a, O s → P s a → O (step s a)) {z : A} (hshow : ∀ s, P s z → ¬ O (step s z))
    {s : S} (hs : I s) (as : List A) :
    Always step P s (as ++ [z]) ↔ Always step Q s (as ++ [z]) := by
  have htrap : ∀ as s, O s → ¬ Always step P s (as ++ [z]) := by
    intro as
    induction as with
    | nil => exact fun s ho h => hshow s h.1 (hstay s z ho h.1)
    | cons a as ih => exact fun s ho h => ih (step s a) (hstay s a ho h.1) h.2
  induction as generalizing s with
  | nil =>
    constructor
    · intro h
      by_contra hq
      exact hshow s h.1 (henter s z hs (fun hQ => hq ⟨hQ, trivial⟩) h.1)
    · intro h
      exact ⟨(hkeep s z hs h.1).2, trivial⟩
  | cons a as ih =>
    by_cases hq : Q s a
    · obtain ⟨hI, hP⟩ := hkeep s a hs hq
      exact and_congr (iff_of_true hP hq) (ih hI)
    · refine iff_of_false (fun h => ?_) fun h => hq h.1
      exact htrap as (step s a) (henter s a hs hq h.1) h.2

theorem always_append {s : S} {as bs : List A} :
    Always step P s (as ++ bs) ↔ Always step P s as ∧ Always step P (exec step s as) bs := by
  induction as generalizing s with
  | nil => simp [Always]
  | cons a as ih => simp [Always, ih, and_assoc]

/-! ### Steps that may fail -/

section

variable (act : S → A → Option S)

/-- The state after a run, if no step of it fails. -/
def tryExec (s : S) : List A → Option S
  | [] => some s
  | a :: as => (act s a).bind fun s' => tryExec s' as

/-- `P` holds of every step of the run, up to the first that fails. -/
def TryAlways (P : S → A → Prop) : S → List A → Prop
  | _, [] => True
  | s, a :: as => P s a ∧ ∀ s', act s a = some s' → TryAlways P s' as

end

variable {act : S → A → Option S}

theorem tryExec_cons {s s' : S} {a : A} {as : List A} (h : tryExec act s (a :: as) = some s') :
    ∃ t, act s a = some t ∧ tryExec act t as = some s' :=
  Option.bind_eq_some_iff.1 h

theorem tryExec_append (s : S) (as bs : List A) :
    tryExec act s (as ++ bs) = (tryExec act s as).bind fun t => tryExec act t bs := by
  induction as generalizing s with
  | nil => rfl
  | cons a as ih =>
    rw [List.cons_append, tryExec, tryExec, Option.bind_assoc]
    exact congrArg _ (funext ih)

instance decidableTryAlways [∀ s a, Decidable (P s a)] (s : S) :
    (as : List A) → Decidable (TryAlways act P s as)
  | [] => .isTrue trivial
  | a :: as =>
    match h : act s a with
    | none => decidable_of_iff (P s a) (by simp [TryAlways, h])
    | some t =>
      haveI := decidableTryAlways t as
      decidable_of_iff (P s a ∧ TryAlways act P t as) (by simp [TryAlways, h])

/-- What the steps that meet `P` preserve holds at the end of a run made of them. -/
theorem tryExec_invariant (hstep : ∀ s a s', I s → P s a → act s a = some s' → I s') {s s' : S}
    (hs : I s) {as : List A} (h : TryAlways act P s as) (he : tryExec act s as = some s') :
    I s' := by
  induction as generalizing s with
  | nil =>
    obtain rfl := Option.some.inj he
    exact hs
  | cons a as ih =>
    obtain ⟨t, ht, he⟩ := tryExec_cons he
    exact ih (hstep s a t hs h.1 ht) (h.2 t ht) he

/-- If the steps that meet `P` cannot fail under the invariant, no run made of them fails. -/
theorem tryExec_total (hstep : ∀ s a, I s → P s a → ∃ s', act s a = some s' ∧ I s') {s : S}
    (hs : I s) {as : List A} (h : TryAlways act P s as) : ∃ s', tryExec act s as = some s' := by
  induction as generalizing s with
  | nil => exact ⟨s, rfl⟩
  | cons a as ih =>
    obtain ⟨t, ht, hI⟩ := hstep s a hs h.1
    obtain ⟨s', hs'⟩ := ih hI (h.2 t ht)
    exact ⟨s', by rw [tryExec, ht]; exact hs'⟩

/-- The last step of a run of steps that meet `P` and cannot fail under the invariant. -/
theorem tryExec_last (hstep : ∀ s a, I s → P s a → ∃ s', act s a = some s' ∧ I s') {s : S}
    (hs : I s) {as : List A} {a : A} (h : TryAlways act P s (as ++ [a])) :
    ∃ t s', tryExec act s (as ++ [a]) = some s' ∧ act t a = some s' ∧ P t a ∧ I t ∧ I s' := by
  induction as generalizing s with
  | nil =>
    obtain ⟨s', hs', hI⟩ := hstep s a hs h.1
    exact ⟨s, s', by rw [List.nil_append, tryExec, hs']; rfl, hs', h.1, hs, hI⟩
  | cons b as ih =>
    obtain ⟨u, hu, hI⟩ := hstep s b hs h.1
    obtain ⟨t, s', he, hlast⟩ := ih hI (h.2 u hu)
    exact ⟨t, s', by rw [List.cons_append, tryExec, hu]; exact he, hlast⟩

/-- Under an invariant of the steps that meet `Q`: if a step keeps the property `R` exactly when it
meets `P`, then `R` holds in every state that a run of such steps reaches exactly when all of
them meet `P`. -/
theorem reached_iff_of_invariant {R : S → Prop}
    (hI : ∀ s a s', I s → Q s a → act s a = some s' → I s')
    (hstep : ∀ s a s', I s → R s → Q s a → act s a = some s' → (R s' ↔ P s a))
    {s s' : S} (hs : I s) (hR : R s) {as : List A} (hQ : TryAlways act Q s as)
    (he : tryExec act s as = some s') :
    (∀ as₁ as₂ t, as = as₁ ++ as₂ → tryExec act s as₁ = some t → R t) ↔ TryAlways act P s as := by
  induction as generalizing s with
  | nil =>
    refine ⟨fun _ => trivial, fun _ as₁ as₂ t heq ht => ?_⟩
    obtain ⟨rfl, rfl⟩ := List.append_eq_nil_iff.1 heq.symm
    obtain rfl := Option.some.inj ht
    exact hR
  | cons a as ih =>
    obtain ⟨u, hu, he⟩ := tryExec_cons he
    have hIu := hI s a u hs hQ.1 hu
    constructor
    · intro h
      have hRu : R u := h [a] as u rfl (by rw [tryExec, hu]; rfl)
      refine ⟨(hstep s a u hs hR hQ.1 hu).1 hRu, fun u' hu' => ?_⟩
      obtain rfl := Option.some.inj (hu.symm.trans hu')
      refine (ih hIu hRu (hQ.2 u hu) he).1 fun as₁ as₂ t heq ht => ?_
      exact h (a :: as₁) as₂ t (by rw [heq, List.cons_append]) (by rw [tryExec, hu]; exact ht)
    · rintro ⟨hP, h⟩ as₁ as₂ t heq ht
      have hRu : R u := (hstep s a u hs hR hQ.1 hu).2 hP
      cases as₁ with
      | nil =>
        obtain rfl := Option.some.inj ht
        exact hR
      | cons b as₁ =>
        obtain ⟨rfl, rfl⟩ := List.cons.inj heq
        obtain ⟨u', hu', ht⟩ := tryExec_cons ht
        obtain rfl := Option.some.inj (hu.symm.trans hu')
        exact (ih hIu hRu (hQ.2 u hu) he).2 (h u hu) as₁ as₂ t rfl ht

/-- Under an invariant that the steps meeting `P` keep, equivalent step properties hold of the same
runs of such steps. -/
theorem tryAlways_iff_of_invariant {Q' : S → A → Prop}
    (hI : ∀ s a s', I s → P s a → act s a = some s' → I s')
    (hQ : ∀ s a, I s → P s a → (Q s a ↔ Q' s a)) {s : S} (hs : I s) {as : List A}
    (h : TryAlways act P s as) : TryAlways act Q s as ↔ TryAlways act Q' s as := by
  induction as generalizing s with
  | nil => exact Iff.rfl
  | cons a as ih =>
    refine and_congr (hQ s a hs h.1) (forall₂_congr fun s' hs' => ?_)
    exact ih (hI s a s' hs h.1 hs') (h.2 s' hs')

theorem tryAlways_of_forall {as : List A} (h : ∀ a ∈ as, ∀ s, P s a) (s : S) :
    TryAlways act P s as := by
  induction as generalizing s with
  | nil => trivial
  | cons a as ih =>
    rw [List.forall_mem_cons] at h
    exact ⟨h.1 s, fun s' _ => ih h.2 s'⟩

theorem tryAlways_true (s : S) (as : List A) : TryAlways act (fun _ _ => True) s as :=
  tryAlways_of_forall (fun _ _ _ => trivial) s

/-- A condition on the actions alone, of a run that does not fail. -/
theorem tryAlways_iff_forall {P : A → Prop} {s s' : S} {as : List A}
    (he : tryExec act s as = some s') : TryAlways act (fun _ a => P a) s as ↔ ∀ a ∈ as, P a := by
  refine ⟨fun h => ?_, fun h => tryAlways_of_forall (fun a ha _ => h a ha) s⟩
  induction as generalizing s with
  | nil => exact List.forall_mem_nil _
  | cons a as ih =>
    obtain ⟨t, ht, he⟩ := tryExec_cons he
    exact List.forall_mem_cons.2 ⟨h.1, ih he (h.2 t ht)⟩

/-- If a step keeps the property exactly when it meets `P`, the property holds in every state
that a run reaches exactly when all its steps meet `P`. -/
theorem reached_iff_tryAlways (hstep : ∀ s a s', I s → act s a = some s' → (I s' ↔ P s a))
    {s s' : S} (hs : I s) {as : List A} (he : tryExec act s as = some s') :
    (∀ as₁ as₂ t, as = as₁ ++ as₂ → tryExec act s as₁ = some t → I t) ↔ TryAlways act P s as :=
  reached_iff_of_invariant (I := fun _ => True) (fun _ _ _ _ _ _ => trivial)
    (fun s a s' _ hI _ hs' => hstep s a s' hI hs') trivial hs (tryAlways_true s as) he

/-- Under an invariant: if a step that leads to `R` is one that meets `P` from where `R` holds, then
`R` holds at the end of a run exactly when it held at the beginning and all steps meet `P`. -/
theorem tryExec_iff_of_invariant {R : S → Prop} (hI : ∀ s a s', I s → act s a = some s' → I s')
    (hstep : ∀ s a s', I s → act s a = some s' → (R s' ↔ R s ∧ P s a)) {s s' : S} (hs : I s)
    {as : List A} (he : tryExec act s as = some s') : R s' ↔ R s ∧ TryAlways act P s as := by
  induction as generalizing s with
  | nil =>
    obtain rfl := Option.some.inj he
    exact (and_iff_left trivial).symm
  | cons a as ih =>
    obtain ⟨t, ht, he⟩ := tryExec_cons he
    rw [ih (hI s a t hs ht) he, hstep s a t hs ht, and_assoc]
    refine and_congr_right fun _ => and_congr_right fun _ => ?_
    constructor
    · rintro h t' ht'
      obtain rfl := Option.some.inj (ht.symm.trans ht')
      exact h
    · exact fun h => h t ht

theorem TryAlways.and {s : S} {as : List A} (hP : TryAlways act P s as)
    (hQ : TryAlways act Q s as) : TryAlways act (fun s a => P s a ∧ Q s a) s as := by
  induction as generalizing s with
  | nil => trivial
  | cons a as ih => exact ⟨⟨hP.1, hQ.1⟩, fun s' hs' => ih (hP.2 s' hs') (hQ.2 s' hs')⟩

/-- What follows from `P` of the steps of a run that does not fail, under an invariant that the
steps meeting `P` keep. -/
theorem TryAlways.imp_of_invariant
    (hstep : ∀ s a s', I s → P s a → act s a = some s' → I s' ∧ Q s a) {s s' : S} (hs : I s)
    {as : List A} (h : TryAlways act P s as) (he : tryExec act s as = some s') :
    I s' ∧ TryAlways act Q s as := by
  induction as generalizing s with
  | nil =>
    obtain rfl := Option.some.inj he
    exact ⟨hs, trivial⟩
  | cons a as ih =>
    obtain ⟨t, ht, he⟩ := tryExec_cons he
    obtain ⟨hI, hQ⟩ := hstep s a t hs h.1 ht
    obtain ⟨hI', hrest⟩ := ih hI (h.2 t ht) he
    refine ⟨hI', hQ, fun t' ht' => ?_⟩
    obtain rfl := Option.some.inj (ht.symm.trans ht')
    exact hrest

/-- If every step either acts on a view of the state or leaves it alone, the view after a run is
what the steps that act on it make of it. -/
theorem view_tryExec {V : Type} {view : S → V} {viewStep : V → A → V} {on : A → Bool}
    (hstep : ∀ s a s', I s → P s a → act s a = some s' →
      I s' ∧ view s' = if on a then viewStep (view s) a else view s) {s s' : S} (hs : I s)
    {as : List A} (h : TryAlways act P s as) (he : tryExec act s as = some s') :
    view s' = exec viewStep (view s) (as.filter on) := by
  induction as generalizing s with
  | nil =>
    obtain rfl := Option.some.inj he
    rfl
  | cons a as ih =>
    obtain ⟨t, ht, he⟩ := tryExec_cons he
    obtain ⟨hI, hview⟩ := hstep s a t hs h.1 ht
    rw [ih hI (h.2 t ht) he, hview, List.filter_cons]
    split_ifs with ha
    · rfl
    · rfl

theorem TryAlways.append {s : S} {as bs : List A} (h : TryAlways act P s as)
    (h' : ∀ s', tryExec act s as = some s' → TryAlways act P s' bs) :
    TryAlways act P s (as ++ bs) := by
  induction as generalizing s with
  | nil => exact h' s rfl
  | cons a as ih =>
    refine ⟨h.1, fun t ht => ih (h.2 t ht) fun s' hs' => h' s' ?_⟩
    rw [tryExec, ht]
    exact hs'

theorem TryAlways.of_append {s : S} {as bs : List A} (h : TryAlways act P s (as ++ bs)) :
    TryAlways act P s as ∧ ∀ s', tryExec act s as = some s' → TryAlways act P s' bs := by
  induction as generalizing s with
  | nil =>
    refine ⟨trivial, fun s' hs' => ?_⟩
    obtain rfl := Option.some.inj hs'
    exact h
  | cons a as ih =>
    refine ⟨⟨h.1, fun t ht => (ih (h.2 t ht)).1⟩, fun s' hs' => ?_⟩
    obtain ⟨t, ht, hs'⟩ := tryExec_cons hs'
    exact (ih (h.2 t ht)).2 s' hs'

/-- If the steps that meet `P` keep an invariant, and every other step leads from it to where `R`
does not hold, then `R` holds in every state that a run reaches exactly when its steps meet `P`. -/
theorem reached_iff_of_kept {R : S → Prop} (hR : ∀ s, I s → R s)
    (hkeep : ∀ s a s', I s → P s a → act s a = some s' → I s')
    (hbreak : ∀ s a s', I s → ¬ P s a → act s a = some s' → ¬ R s') {s s' : S} (hs : I s)
    {as : List A} (he : tryExec act s as = some s') :
    (∀ as₁ as₂ t, as = as₁ ++ as₂ → tryExec act s as₁ = some t → R t) ↔ TryAlways act P s as := by
  constructor
  · intro h
    induction as generalizing s with
    | nil => trivial
    | cons a as ih =>
      obtain ⟨u, hu, he⟩ := tryExec_cons he
      have hP : P s a := by
        by_contra hnot
        exact hbreak s a u hs hnot hu (h [a] as u rfl (by rw [tryExec, hu]; rfl))
      refine ⟨hP, fun u' hu' => ?_⟩
      obtain rfl := Option.some.inj (hu.symm.trans hu')
      refine ih (hkeep s a u hs hP hu) he fun as₁ as₂ t heq ht => ?_
      exact h (a :: as₁) as₂ t (by rw [heq, List.cons_append]) (by rw [tryExec, hu]; exact ht)
  · intro h as₁ as₂ t heq ht
    rw [heq] at h
    exact hR t (tryExec_invariant hkeep hs h.of_append.1 ht)

/-! ### A run and what is left of it

`purge` goes through a run and keeps of each action what `keep` says, which may depend on the
states around it.  A relation between two systems that one action of the one and what is kept of
it in the other preserve holds at the end of the run and of its purge. -/

section

variable {T B : Type}

/-- What is kept of a run, up to the first step that fails. -/
def purge (act : S → A → Option S) (keep : S → A → S → Option B) : S → List A → List B
  | _, [] => []
  | s, a :: as =>
    match act s a with
    | none => []
    | some s' => (keep s a s').toList ++ purge act keep s' as

variable {keep : S → A → S → Option B} {act' : T → B → Option T} {R : S → T → Prop}

theorem purge_cons {s s' : S} {a : A} (h : act s a = some s') (as : List A) :
    purge act keep s (a :: as) = (keep s a s').toList ++ purge act keep s' as := by
  simp only [purge, h]

/-- The simulation rule. -/
theorem tryExec_purge (hstep : ∀ s a s' t, R s t → P s a → act s a = some s' →
      ∃ t', tryExec act' t (keep s a s').toList = some t' ∧ R s' t')
    {s s' : S} {t : T} (hR : R s t) {as : List A} (h : TryAlways act P s as)
    (he : tryExec act s as = some s') :
    ∃ t', tryExec act' t (purge act keep s as) = some t' ∧ R s' t' := by
  induction as generalizing s t with
  | nil =>
    obtain rfl := Option.some.inj he
    exact ⟨t, rfl, hR⟩
  | cons a as ih =>
    obtain ⟨u, hu, he⟩ := tryExec_cons he
    obtain ⟨t₁, ht₁, hR₁⟩ := hstep s a u t hR h.1 hu
    obtain ⟨t', ht', hR'⟩ := ih hR₁ (h.2 u hu) he
    refine ⟨t', ?_, hR'⟩
    rw [purge_cons hu, tryExec_append, ht₁]
    exact ht'

end

end Run
