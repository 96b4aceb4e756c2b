import Mathlib.Tactic

/-!
# Rows of words

Words that are told apart from the left: none is the beginning of another.  Of two rows of such
words at the beginning of a list one goes on where the other ends.
-/

namespace Words

variable {α : Type}

/-- The list is a row of words. -/
def Row (S : Set (List α)) (us : List (List α)) : Prop := ∀ u ∈ us, u ∈ S

/-- No word is empty or the beginning of another. -/
structure PrefixFree (S : Set (List α)) : Prop where
  nil_notMem : [] ∉ S
  inj : ∀ {u v x y : List α}, u ∈ S → v ∈ S → u ++ x = v ++ y → u = v

variable {S : Set (List α)}

theorem row_nil : Row S [] := List.forall_mem_nil _

theorem Row.cons {u : List α} {us : List (List α)} (hu : u ∈ S) (hus : Row S us) :
    Row S (u :: us) :=
  List.forall_mem_cons.2 ⟨hu, hus⟩

theorem row_append {us vs : List (List α)} : Row S (us ++ vs) ↔ Row S us ∧ Row S vs :=
  List.forall_mem_append

namespace PrefixFree

theorem length_pos (h : PrefixFree S) {u : List α} (hu : u ∈ S) : 0 < u.length := by
  refine List.length_pos_iff.2 ?_
  rintro rfl
  exact h.nil_notMem hu

theorem length_flatten_pos (h : PrefixFree S) {us : List (List α)} (hus : Row S us)
    (hne : us ≠ []) : 0 < us.flatten.length := by
  cases us with
  | nil => exact absurd rfl hne
  | cons u us =>
    rw [List.flatten_cons, List.length_append]
    exact Nat.add_pos_left (h.length_pos (hus u List.mem_cons_self)) _

theorem row_cases (h : PrefixFree S) {us vs : List (List α)} (hus : Row S us) (hvs : Row S vs)
    {x y : List α} (heq : us.flatten ++ x = vs.flatten ++ y) :
    (∃ ws, Row S ws ∧ vs = us ++ ws ∧ x = ws.flatten ++ y) ∨
      ∃ ws, Row S ws ∧ us = vs ++ ws ∧ y = ws.flatten ++ x := by
  induction us generalizing vs with
  | nil => exact Or.inl ⟨vs, hvs, rfl, heq⟩
  | cons u us ih =>
    cases vs with
    | nil => exact Or.inr ⟨u :: us, hus, rfl, heq.symm⟩
    | cons v vs =>
      rw [List.flatten_cons, List.flatten_cons, List.append_assoc, List.append_assoc] at heq
      obtain rfl := h.inj (hus u List.mem_cons_self) (hvs v List.mem_cons_self) heq
      rw [Row, List.forall_mem_cons] at hus hvs
      rcases ih hus.2 hvs.2 (List.append_cancel_left heq) with
        ⟨ws, hws, rfl, hx⟩ | ⟨ws, hws, rfl, hy⟩
      · exact Or.inl ⟨ws, hws, rfl, hx⟩
      · exact Or.inr ⟨ws, hws, rfl, hy⟩

/-- A row that ends where no word begins is no longer than another row at that place only if it is
the same. -/
theorem row_prefix (h : PrefixFree S) {us vs : List (List α)} (hus : Row S us) (hvs : Row S vs)
    {x y : List α} (heq : us.flatten ++ x = vs.flatten ++ y)
    (hx : ∀ u ∈ S, ¬ u <+: x) : ∃ ws, Row S ws ∧ us = vs ++ ws ∧ y = ws.flatten ++ x := by
  rcases h.row_cases hus hvs heq with ⟨ws, hws, rfl, rfl⟩ | hws
  · cases ws with
    | nil => exact ⟨[], row_nil, by simp, rfl⟩
    | cons w ws =>
      refine absurd ?_ (hx w (hws w List.mem_cons_self))
      rw [List.flatten_cons, List.append_assoc]
      exact List.prefix_append _ _
  · exact hws

end PrefixFree

end Words
