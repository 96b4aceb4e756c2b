import Mathlib

/-!
# Java text

Strings as rows of characters, with the methods of Java that cut them up: `String.split` at a
character, the lines of a `Scanner`, `Integer.parseInt` and its inverse.

An exception is `none`.
-/

namespace Java

/-- A string. -/
abbrev Text := List Char

/-! ### Pieces and lines -/

/-- `split` at a character: the pieces without the empty ones at the end, or the string itself if
there is nothing to split at. -/
def split (sep : Char) (s : Text) : List Text :=
  if sep ∈ s then (s.splitOn sep).rdropWhile (· = []) else [s]

/-- The characters that end a line for a `Scanner`. -/
def isTerminator (c : Char) : Bool := c ∈ ['\n', '\r', '\u0085', '\u2028', '\u2029']

/-- A carriage return and a line feed end one line together. -/
def joinReturns : Text → Text
  | [] => []
  | c :: s => if c = '\r' ∧ s.head? = some '\n' then joinReturns s else c :: joinReturns s

/-- The lines that `nextLine` gives, one after the other. -/
def scanLines (s : Text) : List Text :=
  let pieces := (joinReturns s).splitOnP isTerminator
  if pieces.getLast? = some [] then pieces.dropLast else pieces

theorem joinReturns_of_notMem {s : Text} (h : '\r' ∉ s) : joinReturns s = s := by
  induction s with
  | nil => rfl
  | cons c s ih =>
    have hc : c ≠ '\r' := fun hc => h (hc ▸ List.mem_cons_self)
    have hs : '\r' ∉ s := fun hs => h (List.mem_cons_of_mem c hs)
    rw [joinReturns, if_neg fun hr => hc hr.1, ih hs]

/-- Lines that are written one after the other are read again. -/
theorem scanLines_flatMap {ls : List Text} (h : ∀ l ∈ ls, ∀ c ∈ l, isTerminator c = false) :
    scanLines (ls.flatMap (· ++ ['\n'])) = ls := by
  have hsplit : (ls.flatMap (· ++ ['\n'])).splitOnP isTerminator = ls ++ [[]] := by
    induction ls with
    | nil => rfl
    | cons l ls ih =>
      have hl : ∀ c ∈ l, isTerminator c = false := h l List.mem_cons_self
      rw [List.flatMap_cons, List.append_assoc, List.singleton_append,
        List.splitOnP_append_cons_of_forall_mem hl '\n' (by decide),
        ih fun l' hl' => h l' (List.mem_cons_of_mem l hl')]
      rfl
  have hreturn : '\r' ∉ ls.flatMap (· ++ ['\n']) := by
    intro hmem
    obtain ⟨l, hl, hmem⟩ := List.mem_flatMap.1 hmem
    rcases List.mem_append.1 hmem with hmem | hmem
    · exact absurd (h l hl '\r' hmem) (by decide)
    · simp at hmem
  rw [scanLines, joinReturns_of_notMem hreturn, hsplit]
  simp

/-- The first two pieces of a string, the second of which is not empty. -/
theorem split_of_splitOn {sep : Char} {s a b : Text} {rest : List Text}
    (h : s.splitOn sep = a :: b :: rest) (hb : b ≠ []) :
    ∃ rest', split sep s = a :: b :: rest' := by
  have hmem : sep ∈ s := by
    by_contra hmem
    rw [List.splitOn_eq_singleton hmem] at h
    cases h
  rw [split, if_pos hmem, h]
  clear h
  induction rest using List.reverseRecOn with
  | nil =>
    refine ⟨[], List.rdropWhile_eq_self_iff.2 fun _ => ?_⟩
    simpa using hb
  | append_singleton rest c ih =>
    rw [show a :: b :: (rest ++ [c]) = (a :: b :: rest) ++ [c] from rfl, List.rdropWhile_concat]
    split_ifs with hc
    · exact ih
    · exact ⟨rest ++ [c], rfl⟩

/-! ### Numbers -/

/-- The zeros of the rows of decimal digits among the characters of one unit. -/
def digitZeros : List ℕ :=
  [0x30, 0x660, 0x6F0, 0x7C0, 0x966, 0x9E6, 0xA66, 0xAE6, 0xB66, 0xBE6, 0xC66, 0xCE6, 0xD66,
    0xDE6, 0xE50, 0xED0, 0xF20, 0x1040, 0x1090, 0x17E0, 0x1810, 0x1946, 0x19D0, 0x1A80, 0x1A90,
    0x1B50, 0x1BB0, 0x1C40, 0x1C50, 0xA620, 0xA8D0, 0xA900, 0xA9D0, 0xA9F0, 0xAA50, 0xABF0,
    0xFF10]

/-- `Character.digit`, to the base ten. -/
def digit (c : Char) : Option ℕ :=
  (digitZeros.find? fun z => z ≤ c.toNat && c.toNat < z + 10).map (c.toNat - ·)

/-- A row of digits that is not empty. -/
def parseDigits (s : Text) : Option ℕ :=
  if s = [] then none else s.foldlM (fun n c => (digit c).map (10 * n + ·)) 0

/-- `Integer.parseInt`. -/
def parseInt (s : Text) : Option ℤ :=
  let signed := s.head? = some '-' ∨ s.head? = some '+'
  let n := (parseDigits (if signed then s.tail else s)).map fun n : ℕ =>
    if s.head? = some '-' then -(n : ℤ) else n
  n.filter fun n => -2 ^ 31 ≤ n ∧ n < 2 ^ 31

def digitChar (d : ℕ) : Char := Char.ofNat (48 + d)

/-- A number in decimal. -/
def ofNat (n : ℕ) : Text :=
  if n = 0 then ['0'] else (Nat.digits 10 n).reverse.map digitChar

/-- `Integer.toString`. -/
def ofInt (n : ℤ) : Text := (if n < 0 then ['-'] else []) ++ ofNat n.natAbs

theorem digit_digitChar {d : ℕ} (h : d < 10) : digit (digitChar d) = some d := by
  revert d
  decide

theorem foldlM_digitChar {ds : List ℕ} (h : ∀ d ∈ ds, d < 10) (n : ℕ) :
    (ds.map digitChar).foldlM (fun n c => (digit c).map (10 * n + ·)) n =
      some (ds.foldl (fun n d => 10 * n + d) n) := by
  induction ds generalizing n with
  | nil => rfl
  | cons d ds ih =>
    rw [List.map_cons, List.foldlM_cons, digit_digitChar (h d List.mem_cons_self), Option.map_some,
      Option.bind_eq_bind, Option.bind_some, List.foldl_cons]
    exact ih (fun d' hd' => h d' (List.mem_cons_of_mem d hd')) _

theorem parseDigits_ofNat (n : ℕ) : parseDigits (ofNat n) = some n := by
  by_cases hn : n = 0
  · subst hn
    decide
  · have hdigits : ∀ d ∈ (Nat.digits 10 n).reverse, d < 10 := by
      intro d hd
      exact Nat.digits_lt_base (by omega) (List.mem_reverse.1 hd)
    have hne : (Nat.digits 10 n).reverse.map digitChar ≠ [] := by
      simpa [Nat.digits_eq_nil_iff_eq_zero] using hn
    have hvalue : (Nat.digits 10 n).reverse.foldl (fun n d => 10 * n + d) 0 = n := by
      rw [List.foldl_reverse]
      conv_rhs => rw [← Nat.ofDigits_digits 10 n, Nat.ofDigits_eq_foldr]
      congr 1
      funext d m
      simp [Nat.add_comm]
    rw [ofNat, if_neg hn, parseDigits, if_neg hne, foldlM_digitChar hdigits, hvalue]

/-- The digits of a number. -/
theorem mem_ofNat {n : ℕ} {c : Char} (h : c ∈ ofNat n) : ∃ d < 10, c = digitChar d := by
  rw [ofNat] at h
  split_ifs at h
  · exact ⟨0, by omega, List.mem_singleton.1 h⟩
  · obtain ⟨d, hd, rfl⟩ := List.mem_map.1 h
    exact ⟨d, Nat.digits_lt_base (by omega) (List.mem_reverse.1 hd), rfl⟩

theorem head_ofNat_ne (n : ℕ) {c : Char} (hc : ∀ d < 10, digitChar d ≠ c) :
    (ofNat n).head? ≠ some c := by
  intro h
  obtain ⟨d, hd, rfl⟩ := mem_ofNat (List.mem_of_mem_head? h)
  exact hc d hd rfl

/-- **Numbers are read as they were written.** -/
theorem parseInt_ofInt {n : ℤ} (hlow : -2 ^ 31 ≤ n) (hhigh : n < 2 ^ 31) :
    parseInt (ofInt n) = some n := by
  have hminus : ∀ d < 10, digitChar d ≠ '-' := by decide
  have hplus : ∀ d < 10, digitChar d ≠ '+' := by decide
  have hrange : (some n).filter (fun n => -2 ^ 31 ≤ n ∧ n < 2 ^ 31) = some n := by
    rw [Option.filter_some, if_pos (decide_eq_true ⟨hlow, hhigh⟩)]
  by_cases hneg : n < 0
  · have htext : ofInt n = '-' :: ofNat n.natAbs := by
      rw [ofInt, if_pos hneg]
      rfl
    have habs : -(n.natAbs : ℤ) = n := by omega
    have hhead : ('-' :: ofNat n.natAbs).head? = some '-' := rfl
    rw [parseInt, htext, if_pos (Or.inl hhead), List.tail_cons, parseDigits_ofNat, Option.map_some,
      if_pos hhead, habs]
    exact hrange
  · have htext : ofInt n = ofNat n.natAbs := by
      rw [ofInt, if_neg hneg]
      rfl
    have habs : (n.natAbs : ℤ) = n := by omega
    rw [parseInt, htext, if_neg (not_or.2 ⟨head_ofNat_ne _ hminus, head_ofNat_ne _ hplus⟩), parseDigits_ofNat,
      Option.map_some, if_neg (head_ofNat_ne _ hminus), habs]
    exact hrange

/-- Numbers are written without separators and on one line. -/
theorem mem_ofInt {n : ℤ} {c : Char} (h : c ∈ ofInt n) : c ≠ '=' ∧ isTerminator c = false := by
  have hdigit : ∀ d < 10, digitChar d ≠ '=' ∧ isTerminator (digitChar d) = false := by decide
  rcases List.mem_append.1 h with h | h
  · have hc : c = '-' := by
      split_ifs at h with hneg
      · simpa using h
      · cases h
    subst hc
    decide
  · obtain ⟨d, hd, rfl⟩ := mem_ofNat h
    exact hdigit d hd

end Java
