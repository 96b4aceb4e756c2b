import Mathlib

/-!
# Byte strings and little-endian integers

`leBytes w n` is the image of an unsigned integer of `w` bytes as a little-endian
machine stores it, and `leVal` reads such an image back; a value that does not fit is
reduced modulo `256 ^ w`, as an assignment to an unsigned field does.
`cString` is what C's string functions see of a buffer: the bytes before the first NUL.
-/

namespace ByteCoding

/-- A byte string. -/
abbrev Bytes := List UInt8

/-- The `w` bytes of `n`, least significant first. -/
def leBytes : ℕ → ℕ → Bytes
  | 0, _ => []
  | w + 1, n => UInt8.ofNat n :: leBytes w (n / 256)

/-- The value of a little-endian byte string. -/
def leVal : Bytes → ℕ
  | [] => 0
  | b :: bs => b.toNat + 256 * leVal bs

/-- The unsigned integer of `w` bytes stored at offset `off`. -/
def field (off w : ℕ) (bs : Bytes) : ℕ := leVal ((bs.drop off).take w)

@[simp] theorem length_leBytes (w n : ℕ) : (leBytes w n).length = w := by
  induction w generalizing n with
  | zero => rfl
  | succ w ih => simp [leBytes, ih]

theorem leVal_leBytes (w n : ℕ) : leVal (leBytes w n) = n % 256 ^ w := by
  induction w generalizing n with
  | zero => simp [leBytes, leVal, Nat.mod_one]
  | succ w ih =>
    have hb : (UInt8.ofNat n).toNat = n % 256 := by simp
    rw [leBytes, leVal, ih, hb, pow_succ, Nat.mul_comm (256 ^ w) 256, Nat.mod_mul]

/-- A value that fits its field is read back unchanged. -/
theorem leVal_leBytes_of_lt {w n : ℕ} (h : n < 256 ^ w) : leVal (leBytes w n) = n := by
  rw [leVal_leBytes, Nat.mod_eq_of_lt h]

theorem toNat_ofInt (n : ℤ) : ((UInt16.ofInt n).toNat : ℤ) = n % 2 ^ 16 := by
  have hnonneg : 0 ≤ n % 2 ^ 16 := Int.emod_nonneg n (by norm_num)
  rw [UInt16.ofInt, UInt16.toNat_ofNat', Nat.mod_eq_of_lt (by omega), Int.toNat_of_nonneg hnonneg]

/-- A number survives sixteen bits if it fits. -/
theorem toNat_ofInt_eq_iff {n : ℤ} : ((UInt16.ofInt n).toNat : ℤ) = n ↔ 0 ≤ n ∧ n < 2 ^ 16 := by
  rw [toNat_ofInt]
  omega

/-! ### C strings -/

/-- The bytes before the first NUL. -/
def cString (bs : Bytes) : Bytes := bs.takeWhile (· ≠ 0)

theorem length_cString_le (bs : Bytes) : (cString bs).length ≤ bs.length :=
  (List.takeWhile_sublist _).length_le

theorem zero_notMem_cString (bs : Bytes) : (0 : UInt8) ∉ cString bs := by
  intro h
  simpa using List.mem_takeWhile_imp h

theorem cString_eq_self {bs : Bytes} (h : (0 : UInt8) ∉ bs) : cString bs = bs := by
  refine List.takeWhile_eq_self_iff.2 fun b hb => ?_
  have hb0 : b ≠ 0 := fun h0 => h (h0 ▸ hb)
  simpa using hb0

theorem cString_zero_cons (bs : Bytes) : cString (0 :: bs) = [] :=
  List.takeWhile_cons_of_neg (by simp)

theorem cString_cons {b : UInt8} (hb : b ≠ 0) (bs : Bytes) : cString (b :: bs) = b :: cString bs :=
  List.takeWhile_cons_of_pos (decide_eq_true hb)

/-- What has no NUL is seen. -/
theorem prefix_cString {p bs : Bytes} (h : p <+: bs) (h0 : (0 : UInt8) ∉ p) : p <+: cString bs := by
  obtain ⟨r, rfl⟩ := h
  have hp : ∀ b ∈ p, decide (b ≠ 0) = true := fun b hb => decide_eq_true fun hb0 => h0 (hb0 ▸ hb)
  rw [cString, List.takeWhile_append_of_pos hp]
  exact List.prefix_append _ _

theorem cString_isPrefix (bs : Bytes) : cString bs <+: bs := List.takeWhile_prefix _

theorem cString_append_zero {p : Bytes} (h0 : (0 : UInt8) ∉ p) (r : Bytes) :
    cString (p ++ 0 :: r) = p := by
  have hp : ∀ b ∈ p, decide (b ≠ 0) = true := fun b hb => decide_eq_true fun hb0 => h0 (hb0 ▸ hb)
  rw [cString, List.takeWhile_append_of_pos hp]
  simp

end ByteCoding
