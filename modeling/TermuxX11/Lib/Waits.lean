import Mathlib

/-!
# Who waits for whom

Each party waits for at most one other: `next i` is the one that `i` waits for.  The chain of `i` is
`i`, the one that it waits for, and so on; `after next i n` is its `n`-th member.  A chain ends, or
it is endless; among finitely many parties an endless chain leads into a circle.
-/

namespace Waits

variable {ι : Type} (next : ι → Option ι)

/-- The `n`-th member of the chain of `i`. -/
def after (i : ι) : ℕ → Option ι
  | 0 => some i
  | n + 1 => (after i n).bind next

/-- The chain of `i`. -/
def chain (i : ι) : Set ι := {j | ∃ n, after next i n = some j}

/-- The chain does not end. -/
def Endless (i : ι) : Prop := ∀ n, (after next i n).isSome

variable {next} {i j k : ι} {m n : ℕ}

theorem after_add (i : ι) (m n : ℕ) :
    after next i (m + n) = (after next i m).bind fun j => after next j n := by
  induction n with
  | zero =>
    cases after next i m with
    | none => rfl
    | some j => rfl
  | succ n ih =>
    rw [← Nat.add_assoc, after, ih, Option.bind_assoc]
    rfl

theorem after_succ_of_next (h : next i = some j) (n : ℕ) :
    after next i (n + 1) = after next j n := by
  rw [Nat.add_comm, after_add]
  show (after next i 1).bind _ = _
  rw [show after next i 1 = some j from h]
  rfl

theorem self_mem_chain (i : ι) : i ∈ chain next i := ⟨0, rfl⟩

theorem mem_chain_of_next (h : next i = some j) (hk : k ∈ chain next j) : k ∈ chain next i := by
  obtain ⟨n, hn⟩ := hk
  exact ⟨n + 1, (after_succ_of_next h n).trans hn⟩

/-- A chain that has ended does not go on. -/
theorem after_eq_none_of_le (h : after next i m = none) (hmn : m ≤ n) : after next i n = none := by
  obtain ⟨d, rfl⟩ := Nat.exists_eq_add_of_le hmn
  rw [after_add, h]
  rfl

/-- What is on an endless chain waits for something that is on it. -/
theorem Endless.next_mem (h : Endless next i) (hj : j ∈ chain next i) :
    ∃ k ∈ chain next i, next j = some k := by
  obtain ⟨n, hn⟩ := hj
  obtain ⟨k, hk⟩ := Option.isSome_iff_exists.1 (h (n + 1))
  refine ⟨k, ⟨n + 1, hk⟩, ?_⟩
  rw [after, hn] at hk
  exact hk

/-- A circle is gone around for ever. -/
theorem after_mul_of_circle (h : after next i n = some i) (m : ℕ) :
    after next i (n * m) = some i := by
  induction m with
  | zero => rfl
  | succ m ih =>
    rw [Nat.mul_succ, after_add, ih]
    exact h

theorem Endless.of_circle (hj : j ∈ chain next i) (hn : 0 < n) (h : after next j n = some j) :
    Endless next i := by
  obtain ⟨m, hm⟩ := hj
  intro l
  by_contra hnone
  rw [Bool.not_eq_true, Option.isSome_eq_false_iff, Option.isNone_iff_eq_none] at hnone
  have hle : l ≤ m + n * l := (Nat.le_mul_of_pos_left l hn).trans (Nat.le_add_left _ _)
  have hend := after_eq_none_of_le hnone hle
  rw [after_add, hm, Option.bind_some, after_mul_of_circle h] at hend
  cases hend

/-- Who waits at the end of a chain is not on the chain of the one that it waits for. -/
theorem not_mem_chain_of_ends (h : after next i n = none) (hj : next i = some j) :
    i ∉ chain next j := by
  rintro ⟨m, hm⟩
  have hendless : Endless next i := Endless.of_circle (self_mem_chain i) (Nat.succ_pos m)
    ((after_succ_of_next hj m).trans hm)
  have := hendless n
  rw [h] at this
  cases this

/-- Among finitely many that wait, an endless chain leads into a circle. -/
theorem endless_iff_circle (hfinite : {j | (next j).isSome}.Finite) :
    Endless next i ↔ ∃ j ∈ chain next i, ∃ n, 0 < n ∧ after next j n = some j := by
  constructor
  · intro h
    -- two of infinitely many members of the chain are the same
    choose member hmember using fun n => Option.isSome_iff_exists.1 (h n)
    have hwaits : ∀ n, (next (member n)).isSome := by
      intro n
      obtain ⟨k, -, hk⟩ := h.next_mem ⟨n, hmember n⟩
      exact Option.isSome_iff_exists.2 ⟨k, hk⟩
    have := hfinite.to_subtype
    obtain ⟨m, n, hmn, heq⟩ := Finite.exists_ne_map_eq_of_infinite
      fun n => (⟨member n, hwaits n⟩ : {j | (next j).isSome})
    have heq : member m = member n := congrArg Subtype.val heq
    have hcircle : ∀ {m n}, m < n → member m = member n →
        after next (member m) (n - m) = some (member m) := by
      intro m n hlt heq
      have hn := hmember n
      rw [← Nat.add_sub_of_le hlt.le, after_add, hmember m, Option.bind_some,
        Nat.add_sub_of_le hlt.le] at hn
      rw [hn, heq]
    obtain hlt | hlt := Nat.lt_or_gt_of_ne hmn
    · exact ⟨member m, ⟨m, hmember m⟩, n - m, Nat.sub_pos_of_lt hlt, hcircle hlt heq⟩
    · exact ⟨member n, ⟨n, hmember n⟩, m - n, Nat.sub_pos_of_lt hlt, hcircle hlt heq.symm⟩
  · rintro ⟨j, hj, n, hn, hcircle⟩
    exact Endless.of_circle hj hn hcircle

end Waits
