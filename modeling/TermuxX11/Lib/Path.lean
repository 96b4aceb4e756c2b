import Mathlib

/-!
# Relative paths

A relative path, over any alphabet, is split at its last separator into the part that names a
directory and the part that names an entry of it.  `walk` follows the first part from a directory,
one component after the other, through directories that exist.
-/

namespace Path

variable {α : Type} [DecidableEq α] (sep dot : α)

/-- The part up to and with the last separator. -/
def dirPart (p : List α) : List α := (p.reverse.dropWhile (· ≠ sep)).reverse

/-- The part after the last separator. -/
def basePart (p : List α) : List α := (p.reverse.takeWhile (· ≠ sep)).reverse

/-- The directory that the components lead to from `dir`, if all on the way exist. -/
def walk (dirs : List (List (List α))) : List (List α) → List (List α) → Option (List (List α))
  | dir, [] => some dir
  | dir, c :: cs =>
    if c = [] ∨ c = [dot] then walk dirs dir cs
    else if c = [dot, dot] then walk dirs dir.dropLast cs
    else if dir ++ [c] ∈ dirs then walk dirs (dir ++ [c]) cs
    else none

variable {sep}

theorem separator_notMem_basePart (p : List α) : sep ∉ basePart sep p := by
  intro h
  have := List.mem_takeWhile_imp (List.mem_reverse.1 h)
  simp at this

theorem forall_ne_of_notMem {q : List α} (hq : sep ∉ q) :
    ∀ c ∈ q.reverse, decide (c ≠ sep) = true := by
  intro c hc
  refine decide_eq_true fun heq => hq ?_
  rw [← heq]
  exact List.mem_reverse.1 hc

theorem dirPart_append {q : List α} (hq : sep ∉ q) (p : List α) :
    dirPart sep (p ++ q) = dirPart sep p := by
  rw [dirPart, dirPart, List.reverse_append, List.dropWhile_append_of_pos (forall_ne_of_notMem hq)]

theorem basePart_append {q : List α} (hq : sep ∉ q) (p : List α) :
    basePart sep (p ++ q) = basePart sep p ++ q := by
  rw [basePart, basePart, List.reverse_append, List.takeWhile_append_of_pos (forall_ne_of_notMem hq),
    List.reverse_append, List.reverse_reverse]

theorem dirPart_eq_nil {p : List α} (hp : sep ∉ p) : dirPart sep p = [] :=
  dirPart_append hp []

theorem basePart_eq_self {p : List α} (hp : sep ∉ p) : basePart sep p = p :=
  basePart_append hp []

end Path
