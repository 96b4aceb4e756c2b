import TermuxX11.Lib.Bytes

/-!
# Arrays of bytes in C

An object in memory is the row of its bytes.  What is read or written outside of it is undefined
behaviour, which is `none`: a function that gives a result has stayed inside its objects.
-/

namespace CMemory

open ByteCoding

/-- The byte at an index. -/
def load (m : Bytes) (i : ℕ) : Option UInt8 := m[i]?

/-- The object after a byte was written at an index. -/
def store (m : Bytes) (i : ℕ) (b : UInt8) : Option Bytes :=
  if i < m.length then some (m.set i b) else none

/-- An array of `n` bytes that `memset` has cleared. -/
def cleared (n : ℕ) : Bytes := List.replicate n 0

theorem load_eq_some_iff {m : Bytes} {i : ℕ} {b : UInt8} :
    load m i = some b ↔ ∃ p r, m = p ++ b :: r ∧ p.length = i := by
  rw [load]
  constructor
  · intro h
    obtain ⟨hlt, rfl⟩ := List.getElem?_eq_some_iff.1 h
    refine ⟨m.take i, m.drop (i + 1), ?_, List.length_take_of_le hlt.le⟩
    rw [List.cons_getElem_drop_succ, List.take_append_drop]
  · rintro ⟨p, r, rfl, rfl⟩
    simp

theorem load_append (p : Bytes) (b : UInt8) (r : Bytes) : load (p ++ b :: r) p.length = some b :=
  load_eq_some_iff.2 ⟨p, r, rfl, rfl⟩

/-- An index from where the pointer is. -/
theorem load_add (p r : Bytes) (k : ℕ) : load (p ++ r) (p.length + k) = load r k := by
  rw [load, load, List.getElem?_append_right (Nat.le_add_right _ _), Nat.add_sub_cancel_left]

theorem store_eq_some_iff {m m' : Bytes} {i : ℕ} {b : UInt8} :
    store m i b = some m' ↔ i < m.length ∧ m' = m.set i b := by
  rw [store]
  split_ifs with h
  · rw [Option.some_inj, and_iff_right h, eq_comm]
  · exact iff_of_false nofun fun h' => h h'.1

/-- The first byte that is not written yet. -/
theorem store_cleared (w : Bytes) (k : ℕ) (b : UInt8) :
    store (w ++ cleared (k + 1)) w.length b = some (w ++ [b] ++ cleared k) := by
  rw [store, if_pos (by simp [cleared])]
  simp [cleared, List.replicate_succ]

theorem cString_append_cleared (w : Bytes) (k : ℕ) : cString (w ++ cleared k) = cString w := by
  induction w with
  | nil =>
    cases k with
    | zero => rfl
    | succ k => rfl
  | cons b w ih =>
    by_cases hb : b = 0
    · rw [hb, List.cons_append, cString_zero_cons, cString_zero_cons]
    · rw [List.cons_append, cString_cons hb, cString_cons hb, ih]

/-- The string in an object, which has to end inside of it. -/
def readString (m : Bytes) : Option Bytes := if 0 ∈ m then some (cString m) else none

theorem zero_mem_append_cleared (w : Bytes) (k : ℕ) : (0 : UInt8) ∈ w ++ cleared (k + 1) :=
  List.mem_append_right _ (List.mem_replicate.2 ⟨k.succ_ne_zero, rfl⟩)

theorem readString_append_cleared (w : Bytes) (k : ℕ) :
    readString (w ++ cleared (k + 1)) = some (cString w) := by
  rw [readString, if_pos (zero_mem_append_cleared w k), cString_append_cleared]

/-- What an object holds from its NUL on. -/
theorem exists_eq_cString_append {m : Bytes} (h : (0 : UInt8) ∈ m) :
    ∃ r, m = cString m ++ 0 :: r := by
  induction m with
  | nil => cases h
  | cons b m ih =>
    by_cases hb : b = 0
    · exact ⟨m, by rw [hb, cString_zero_cons, List.nil_append]⟩
    · obtain ⟨r, hr⟩ := ih ((List.mem_cons.1 h).resolve_left (Ne.symm hb))
      exact ⟨r, by rw [cString_cons hb, List.cons_append, ← hr]⟩

/-! ### Rows of writes

An array of other things is a function of the index. -/

section

variable {ι α : Type}

/-- What a row of writes leaves at an index that all of them that meet it give one value. -/
theorem foldl_update_apply [DecidableEq ι] {writes : List (ι × α)} {dst : ι → α} {i : ι} {v : α}
    (hsame : ∀ w ∈ writes, w.1 = i → w.2 = v) (hmem : (∃ w ∈ writes, w.1 = i) ∨ dst i = v) :
    writes.foldl (fun dst w => Function.update dst w.1 w.2) dst i = v := by
  induction writes generalizing dst with
  | nil =>
    rcases hmem with ⟨w, hw, -⟩ | h
    · cases hw
    · exact h
  | cons w writes ih =>
    rw [List.forall_mem_cons] at hsame
    refine ih hsame.2 ?_
    dsimp only
    by_cases hi : w.1 = i
    · right
      rw [← hi, Function.update_self, hsame.1 hi]
    · rcases hmem with ⟨w', hw', hi'⟩ | h
      · rcases List.mem_cons.1 hw' with rfl | hw'
        · exact absurd hi' hi
        · exact Or.inl ⟨w', hw', hi'⟩
      · right
        rw [Function.update_of_ne (Ne.symm hi), h]

/-- Values are written to an array of `n` places, in order. -/
def storeAll (n : ℕ) (writes : List (ℕ × α)) (a : ℕ → α) : Option (ℕ → α) :=
  writes.foldlM (fun a w => if w.1 < n then some (Function.update a w.1 w.2) else none) a

/-- All the writes are inside of the array, if there is a result. -/
theorem storeAll_eq_some_iff {n : ℕ} {writes : List (ℕ × α)} {a a' : ℕ → α} :
    storeAll n writes a = some a' ↔
      (∀ w ∈ writes, w.1 < n) ∧ a' = writes.foldl (fun a w => Function.update a w.1 w.2) a := by
  induction writes generalizing a with
  | nil =>
    rw [eq_comm (a := a')]
    simp [storeAll]
  | cons w writes ih =>
    rw [List.forall_mem_cons, List.foldl_cons, and_assoc, ← ih]
    unfold storeAll
    rw [List.foldlM_cons]
    by_cases hw : w.1 < n
    · rw [if_pos hw, and_iff_right hw]
      rfl
    · rw [if_neg hw]
      exact iff_of_false nofun fun h => hw h.1

end

end CMemory
