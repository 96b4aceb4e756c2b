import Mathlib.Data.List.Nodup
import Mathlib.Tactic

/-!
# Lists in the order of use

A list of keys is in the order of use if of any two of them the one in front was used after the last
use of the other.  `Ordered h ks` says so of the keys `ks` and the history `h` of their uses, newest
first.  A key that is used goes to the front (`Ordered.push`, `Ordered.touch`); the last key is the
one that was not used for the longest time.
-/

namespace Recency

variable {K : Type}

/-- `a` was used after the last use of `b`. -/
def Newer (h : List K) (a b : K) : Prop := ∃ l l', h = l ++ a :: l' ∧ b ∉ l

theorem newer_head (h : List K) (a b : K) : Newer (a :: h) a b := ⟨[], h, rfl, List.not_mem_nil⟩

/-- The use of another key changes nothing. -/
theorem Newer.cons {h : List K} {a b k : K} (hnewer : Newer h a b) (hk : k ≠ b) :
    Newer (k :: h) a b := by
  obtain ⟨l, l', rfl, hb⟩ := hnewer
  refine ⟨k :: l, l', rfl, ?_⟩
  rw [List.mem_cons, not_or]
  exact ⟨hk.symm, hb⟩

/-- The keys are distinct and in the order of use, the newest first. -/
structure Ordered (h ks : List K) : Prop where
  nodup : ks.Nodup
  newer : ks.Pairwise (Newer h)

variable {h ks : List K} {k : K}

theorem ordered_nil (h : List K) : Ordered h [] := ⟨List.nodup_nil, List.Pairwise.nil⟩

theorem Ordered.sublist {ks' : List K} (hks : Ordered h ks) (hsub : ks'.Sublist ks) :
    Ordered h ks' :=
  ⟨hks.nodup.sublist hsub, hks.newer.sublist hsub⟩

/-- A key that is not on the list is used. -/
theorem Ordered.other (hks : Ordered h ks) (hk : k ∉ ks) : Ordered (k :: h) ks := by
  refine ⟨hks.nodup, hks.newer.imp_of_mem fun {a b} _ hb hnewer => hnewer.cons ?_⟩
  rintro rfl
  exact hk hb

/-- A new key is used, and put in front. -/
theorem Ordered.push (hks : Ordered h ks) (hk : k ∉ ks) : Ordered (k :: h) (k :: ks) :=
  ⟨List.nodup_cons.2 ⟨hk, hks.nodup⟩,
    List.pairwise_cons.2 ⟨fun b _ => newer_head h k b, (hks.other hk).newer⟩⟩

/-- A key is used, and goes to the front. -/
theorem Ordered.touch [DecidableEq K] (hks : Ordered h ks) (k : K) :
    Ordered (k :: h) (k :: ks.erase k) :=
  (hks.sublist List.erase_sublist).push (List.Nodup.not_mem_erase hks.nodup)

/-- The last key was not used since any other was. -/
theorem Ordered.newer_last (hks : Ordered h (ks ++ [k])) {a : K} (ha : a ∈ ks) : Newer h a k :=
  (List.pairwise_append.1 hks.newer).2.2 a ha k List.mem_cons_self

end Recency
