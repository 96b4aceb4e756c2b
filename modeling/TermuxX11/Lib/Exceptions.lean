import TermuxX11.Lib.Java
import TermuxX11.Lib.Text

/-!
# Java exceptions and exact arithmetic

The exceptions of numbers and arrays, told apart by what a `catch` names.  An operator on `int`s
wraps its result around, where `addExact` and the like throw; code that is written once for both
(`Arithmetic`) gives the same with the operators whenever the exact methods do not throw
(`Refines`).
-/

namespace Java

/-- The exceptions. -/
inductive Exception
  | numberFormat
  | arrayIndexOutOfBounds
  | arithmetic
  deriving DecidableEq

/-- `a[i]`. -/
def index {α : Type} (a : List α) (i : ℕ) : Except Exception α :=
  match a[i]? with
  | some x => .ok x
  | none => .error .arrayIndexOutOfBounds

/-- `Integer.parseInt`. -/
def parse (s : Text) : Except Exception ℤ :=
  match parseInt s with
  | some n => .ok n
  | none => .error .numberFormat

/-- `catch (NumberFormatException ignored)`. -/
def catchNumberFormat {α : Type} (fallback : α) : Except Exception α → Except Exception α
  | .error .numberFormat => .ok fallback
  | x => x

theorem bind_eq_ok {ε α β : Type} {x : Except ε α} {f : α → Except ε β} {b : β} :
    x >>= f = .ok b ↔ ∃ a, x = .ok a ∧ f a = .ok b := by
  cases x with
  | error e => simp [bind, Except.bind]
  | ok a => simp [bind, Except.bind]

/-! ### Arithmetic -/

/-- What becomes of the exact result of an operation on `int`s. -/
abbrev Arithmetic := ℤ → Except Exception ℤ

namespace Arithmetic

/-- The operators. -/
def wrapping : Arithmetic := fun n => .ok (int n)

/-- `addExact`, `multiplyExact` and the like. -/
def checked : Arithmetic := fun n =>
  if -2 ^ 31 ≤ n ∧ n < 2 ^ 31 then .ok n else .error .arithmetic

/-- `/`. -/
def divide (A : Arithmetic) (m n : ℤ) : Except Exception ℤ :=
  if n = 0 then .error .arithmetic else A (m.tdiv n)

theorem checked_eq_ok {n m : ℤ} : checked n = .ok m ↔ n = m ∧ -2 ^ 31 ≤ n ∧ n < 2 ^ 31 := by
  rw [checked]
  split_ifs with h
  · rw [Except.ok.injEq]
    exact (and_iff_left h).symm
  · exact iff_of_false nofun fun hm => h hm.2

theorem checked_of_mem {n : ℤ} (hlow : -2 ^ 31 ≤ n) (hhigh : n < 2 ^ 31) : checked n = .ok n :=
  if_pos ⟨hlow, hhigh⟩

theorem divide_checked_eq_ok {m n q : ℤ} :
    checked.divide m n = .ok q ↔ n ≠ 0 ∧ m.tdiv n = q ∧ -2 ^ 31 ≤ q ∧ q < 2 ^ 31 := by
  rw [divide]
  split_ifs with h
  · simp [h]
  · rw [checked_eq_ok]
    constructor
    · rintro ⟨rfl, hmem⟩
      exact ⟨h, rfl, hmem⟩
    · rintro ⟨-, rfl, hmem⟩
      exact ⟨rfl, hmem⟩

/-- A quotient of nonnegative numbers is that of exact division. -/
theorem divide_checked_of_pos {m n : ℤ} (hm : 0 ≤ m) (hm' : m < 2 ^ 31) (hn : 0 < n) :
    checked.divide m n = .ok (m / n) := by
  have hquotient : m.tdiv n = m / n := Int.tdiv_eq_ediv_of_nonneg hm
  have hle : m / n ≤ m := Int.ediv_le_self _ hm
  have hnonneg : 0 ≤ m / n := Int.ediv_nonneg hm hn.le
  exact divide_checked_eq_ok.2 ⟨hn.ne', hquotient, by omega, by omega⟩

/-- A positive quotient of a positive number has a positive divisor. -/
theorem pos_of_divide_checked {m n q : ℤ} (hm : 0 < m) (hq : 0 < q)
    (h : checked.divide m n = .ok q) : 0 < n ∧ m / n = q := by
  obtain ⟨hn, rfl, -⟩ := divide_checked_eq_ok.1 h
  have hpos : 0 < n := by
    by_contra hneg
    have := Int.tdiv_nonpos_of_nonneg_of_nonpos hm.le (not_lt.1 hneg)
    omega
  exact ⟨hpos, (Int.tdiv_eq_ediv_of_nonneg hm.le).symm⟩

/-! The operators are those of `Int32`. -/

theorem wrapping_add (a b : Int32) : wrapping (a.toInt + b.toInt) = .ok (a + b).toInt := by
  rw [wrapping, int, ← Int32.toInt_add]

theorem wrapping_sub (a b : Int32) : wrapping (a.toInt - b.toInt) = .ok (a - b).toInt := by
  rw [wrapping, int, ← Int32.toInt_sub]

theorem wrapping_mul (a b : Int32) : wrapping (a.toInt * b.toInt) = .ok (a * b).toInt := by
  rw [wrapping, int, ← Int32.toInt_mul]

theorem divide_wrapping {a b : Int32} {q : ℤ} (h : wrapping.divide a.toInt b.toInt = .ok q) :
    q = (a / b).toInt := by
  rw [divide] at h
  split_ifs at h
  rw [Int32.toInt_div]
  exact (Except.ok.inj h).symm

end Arithmetic

/-! ### Refinement -/

section

variable {α β : Type}

/-- What `x` gives without an exception, `y` gives too. -/
def Refines (x y : Except Exception α) : Prop := ∀ v, x = .ok v → y = .ok v

theorem Refines.refl (x : Except Exception α) : Refines x x := fun _ h => h

theorem Refines.bind {x y : Except Exception α} {f g : α → Except Exception β} (h : Refines x y)
    (hf : ∀ a, Refines (f a) (g a)) : Refines (x >>= f) (y >>= g) := by
  intro v hv
  obtain ⟨a, ha, hv⟩ := bind_eq_ok.1 hv
  exact bind_eq_ok.2 ⟨a, h a ha, hf a v hv⟩

theorem Refines.ite {c : Prop} [Decidable c] {x x' y y' : Except Exception α} (h : Refines x x')
    (h' : Refines y y') : Refines (if c then x else y) (if c then x' else y') := by
  split_ifs
  · exact h
  · exact h'

theorem refines_checked (n : ℤ) : Refines (Arithmetic.checked n) (Arithmetic.wrapping n) := by
  intro v h
  obtain ⟨rfl, hlow, hhigh⟩ := Arithmetic.checked_eq_ok.1 h
  rw [Arithmetic.wrapping, int_of_mem hlow hhigh]

theorem refines_divide (m n : ℤ) :
    Refines (Arithmetic.checked.divide m n) (Arithmetic.wrapping.divide m n) :=
  Refines.ite (Refines.refl _) (refines_checked _)

end

end Java
