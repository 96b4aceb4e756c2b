import Mathlib

/-!
# Lists that correspond place by place

Two lists `as` and `bs` with `List.Forall₂ R as bs`, whose members carry names: `key a` on
the one side, `name b` on the other.  `partner k as bs` is the name of the member of `bs`
that stands where `as` has the member with key `k`.  Where no key and no name occurs twice,
picking by key in `as` and by the partner's name in `bs` picks corresponding members, so that
updates and removals on both sides keep the correspondence.
-/

namespace Paired

variable {α β κ μ : Type} {R S : α → β → Prop} {as : List α} {bs : List β}

theorem forall₂_and (h : List.Forall₂ R as bs) (h' : List.Forall₂ S as bs) :
    List.Forall₂ (fun a b => R a b ∧ S a b) as bs :=
  h.mp (fun _ _ hr hs => ⟨hr, hs⟩) h'

theorem forall₂_eq_iff {γ : Type} {f : α → γ} {g : β → γ} :
    List.Forall₂ (fun a b => f a = g b) as bs ↔ as.map f = bs.map g := by
  rw [← List.forall₂_eq_eq_eq, List.forall₂_map_left_iff, List.forall₂_map_right_iff]

theorem exists_of_mem (h : List.Forall₂ R as bs) {a : α} (ha : a ∈ as) : ∃ b, R a b := by
  induction h with
  | nil => cases ha
  | cons hab _ ih =>
    rcases List.mem_cons.1 ha with rfl | ha
    · exact ⟨_, hab⟩
    · exact ih ha

/-- Corresponding members are updated. -/
theorem forall₂_update {p : α → Prop} {q : β → Prop} [DecidablePred p] [DecidablePred q]
    {f : α → α} {g : β → β} (h : List.Forall₂ (fun a b => R a b ∧ (p a ↔ q b)) as bs)
    (hfg : ∀ a b, R a b → p a → S (f a) (g b)) (hRS : ∀ a b, R a b → ¬ p a → S a b) :
    List.Forall₂ S (as.map fun a => if p a then f a else a)
      (bs.map fun b => if q b then g b else b) := by
  rw [List.forall₂_map_left_iff, List.forall₂_map_right_iff]
  refine h.imp fun a b hab => ?_
  by_cases hp : p a
  · rw [if_pos hp, if_pos (hab.2.1 hp)]
    exact hfg a b hab.1 hp
  · rw [if_neg hp, if_neg fun hq => hp (hab.2.2 hq)]
    exact hRS a b hab.1 hp

/-- Corresponding members are removed. -/
theorem forall₂_eraseP {p : α → Bool} {q : β → Bool}
    (h : List.Forall₂ (fun a b => R a b ∧ (p a = true ↔ q b = true)) as bs) :
    List.Forall₂ R (as.eraseP p) (bs.eraseP q) := by
  induction h with
  | nil => exact List.Forall₂.nil
  | @cons a b as bs hab htail ih =>
    by_cases hp : p a = true
    · rw [List.eraseP_cons_of_pos hp, List.eraseP_cons_of_pos (hab.2.1 hp)]
      exact htail.imp fun _ _ h => h.1
    · rw [List.eraseP_cons_of_neg hp, List.eraseP_cons_of_neg fun hq => hp (hab.2.2 hq)]
      exact List.Forall₂.cons hab.1 ih

/-! ### Names -/

section

variable [DecidableEq κ] (key : α → κ) (name : β → μ) (k : κ)

/-- The name of the member of `bs` in the place of the first member of `as` with key `k`. -/
def partner : List α → List β → Option μ
  | a :: as, b :: bs => if key a = k then some (name b) else partner as bs
  | _, _ => none

variable {key name k}

theorem partner_map {γ : Type} (f : γ → α) (cs : List γ) (bs : List β) :
    partner key name k (cs.map f) bs = partner (key ∘ f) name k cs bs := by
  induction cs generalizing bs with
  | nil => rfl
  | cons c cs ih =>
    cases bs with
    | nil => rfl
    | cons b bs => rw [List.map_cons, partner, partner, ih, Function.comp]

theorem mem_of_partner {m : μ} (h : partner key name k as bs = some m) : m ∈ bs.map name := by
  induction as generalizing bs with
  | nil => cases h
  | cons a as ih =>
    cases bs with
    | nil => cases h
    | cons b bs =>
      rw [partner] at h
      split_ifs at h
      · rw [← Option.some.inj h]
        exact List.mem_cons_self
      · exact List.mem_cons_of_mem _ (ih h)

/-- **The partner's name picks what the key picks.** -/
theorem forall₂_partner (h : List.Forall₂ R as bs) (hkey : (as.map key).Nodup)
    (hname : (bs.map name).Nodup) :
    List.Forall₂ (fun a b => key a = k ↔ some (name b) = partner key name k as bs) as bs := by
  induction h with
  | nil => exact List.Forall₂.nil
  | @cons a b as bs _ htail ih =>
    rw [List.map_cons, List.nodup_cons] at hkey hname
    rw [partner]
    split_ifs with hk
    · refine List.Forall₂.cons (iff_of_true hk rfl) ?_
      -- further on neither the key nor the name occurs
      refine (List.forall₂_iff_zip.2 ⟨htail.length_eq, fun {a' b'} hmem => ?_⟩)
      obtain ⟨ha', hb'⟩ := List.of_mem_zip hmem
      refine iff_of_false (fun hk' => hkey.1 ?_) (fun hb => hname.1 ?_)
      · rw [hk, ← hk']
        exact List.mem_map_of_mem ha'
      · rw [← Option.some.inj hb]
        exact List.mem_map_of_mem hb'
    · refine List.Forall₂.cons (iff_of_false hk fun hb => hname.1 ?_) (ih hkey.2 hname.2)
      exact mem_of_partner hb.symm

end

/-- A traversal that fails nowhere goes element by element. -/
theorem mapM_eq_some_iff {f : α → Option β} {as : List α} {bs : List β} :
    as.mapM f = some bs ↔ List.Forall₂ (fun a b => f a = some b) as bs := by
  induction as generalizing bs with
  | nil => cases bs <;> simp
  | cons a as ih =>
    rw [List.mapM_cons]
    cases bs with
    | nil => cases f a <;> cases as.mapM f <;> simp
    | cons b bs =>
      rw [List.forall₂_cons, ← ih]
      cases f a <;> cases as.mapM f <;> simp

end Paired
