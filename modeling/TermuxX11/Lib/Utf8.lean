import Mathlib

/-!
# UTF-8

The bytes of `String.utf8EncodeChar` as numbers: a lead byte, which says how many continuation
bytes follow, and the rows of bits in them.  The masks by which C code tells the bytes apart are
ranges.
-/

namespace Utf8

/-- A continuation byte. -/
abbrev IsTail (b : UInt8) : Prop := b &&& 0xc0 = 0x80

/-- The bytes of a text. -/
def encode (text : List Char) : List UInt8 := text.flatMap String.utf8EncodeChar

/-- Well-formed UTF-8. -/
def WellFormed (bytes : List UInt8) : Prop := ∃ text, encode text = bytes

/-! ### Masks -/

theorem forall_byte {P : UInt8 → Prop} (h : ∀ n : Fin 256, P (UInt8.ofFin n)) (b : UInt8) :
    P b := by
  simpa using h b.toFin

theorem isTail_iff (b : UInt8) : IsTail b ↔ 0x80 ≤ b.toNat ∧ b.toNat < 0xc0 := by
  revert b
  refine forall_byte ?_
  decide +kernel

theorem and_80_iff (b : UInt8) : b &&& 0x80 = 0 ↔ b.toNat < 0x80 := by
  revert b
  refine forall_byte ?_
  decide +kernel

theorem and_e0_iff (b : UInt8) : b &&& 0xe0 = 0xc0 ↔ 0xc0 ≤ b.toNat ∧ b.toNat < 0xe0 := by
  revert b
  refine forall_byte ?_
  decide +kernel

theorem and_f0_iff (b : UInt8) : b &&& 0xf0 = 0xe0 ↔ 0xe0 ≤ b.toNat ∧ b.toNat < 0xf0 := by
  revert b
  refine forall_byte ?_
  decide +kernel

theorem and_f8_iff (b : UInt8) : b &&& 0xf8 = 0xf0 ↔ 0xf0 ≤ b.toNat ∧ b.toNat < 0xf8 := by
  revert b
  refine forall_byte ?_
  decide +kernel

theorem and_e0_eq_self_iff (b : UInt8) : b &&& 0xe0 = 0xe0 ↔ 0xe0 ≤ b.toNat := by
  revert b
  refine forall_byte ?_
  decide +kernel

theorem and_f0_eq_self_iff (b : UInt8) : b &&& 0xf0 = 0xf0 ↔ 0xf0 ≤ b.toNat := by
  revert b
  refine forall_byte ?_
  decide +kernel

/-- The low bits of a byte. -/
theorem toNat_and_low (b m : UInt8) {k : ℕ} (hm : m.toNat = 2 ^ k - 1) :
    (b &&& m).toNat = b.toNat % 2 ^ k := by
  rw [UInt8.toNat_and, hm]
  exact Nat.and_two_pow_sub_one_eq_mod b.toNat k

/-- A row of bits goes on with those of a continuation byte. -/
theorem shift_or_tail (n : ℕ) (b : UInt8) :
    n <<< 6 ||| (b &&& 0x3f).toNat = n * 64 + b.toNat % 64 := by
  rw [toNat_and_low b 0x3f (k := 6) rfl,
    ← Nat.shiftLeft_add_eq_or_of_lt (Nat.mod_lt _ (by norm_num)), Nat.shiftLeft_eq]

/-! ### The bytes of a character -/

/-- How a character is encoded, by its size. -/
theorem encode_cases (c : Char) :
    (∃ b, String.utf8EncodeChar c = [b] ∧ c.toNat < 0x80 ∧ b.toNat = c.toNat) ∨
      (∃ b t, String.utf8EncodeChar c = [b, t] ∧ 0x80 ≤ c.toNat ∧ c.toNat < 0x800 ∧
        b.toNat = 0xc0 + c.toNat / 64 ∧ t.toNat = 0x80 + c.toNat % 64) ∨
      (∃ b t₁ t₂, String.utf8EncodeChar c = [b, t₁, t₂] ∧ 0x800 ≤ c.toNat ∧ c.toNat < 0x10000 ∧
        b.toNat = 0xe0 + c.toNat / 4096 ∧ t₁.toNat = 0x80 + c.toNat / 64 % 64 ∧
        t₂.toNat = 0x80 + c.toNat % 64) ∨
      ∃ b t₁ t₂ t₃, String.utf8EncodeChar c = [b, t₁, t₂, t₃] ∧ 0x10000 ≤ c.toNat ∧
        b.toNat = 0xf0 + c.toNat / 262144 ∧ t₁.toNat = 0x80 + c.toNat / 4096 % 64 ∧
        t₂.toNat = 0x80 + c.toNat / 64 % 64 ∧ t₃.toNat = 0x80 + c.toNat % 64 := by
  have hvalid : c.toNat < 0x110000 := by
    rcases c.valid with h | h
    · exact lt_trans h (by norm_num)
    · exact h.2
  have hval : c.val.toNat = c.toNat := rfl
  have hbyte : ∀ n < 256, (UInt8.ofNat n).toNat = n := fun n hn => UInt8.toNat_ofNat_of_lt' hn
  unfold String.utf8EncodeChar
  dsimp only
  rw [hval]
  split_ifs with h₁ h₂ h₃
  · exact Or.inl ⟨_, rfl, by omega, hbyte _ (by omega)⟩
  · refine Or.inr (Or.inl ⟨_, _, rfl, by omega, by omega, ?_, ?_⟩)
    · rw [hbyte _ (by omega)]
      omega
    · rw [hbyte _ (by omega)]
      omega
  · refine Or.inr (Or.inr (Or.inl ⟨_, _, _, rfl, by omega, by omega, ?_, ?_, ?_⟩))
    · rw [hbyte _ (by omega)]
      omega
    · rw [hbyte _ (by omega)]
      omega
    · rw [hbyte _ (by omega)]
      omega
  · refine Or.inr (Or.inr (Or.inr ⟨_, _, _, _, rfl, by omega, ?_, ?_, ?_, ?_⟩))
    · rw [hbyte _ (by omega)]
      omega
    · rw [hbyte _ (by omega)]
      omega
    · rw [hbyte _ (by omega)]
      omega
    · rw [hbyte _ (by omega)]
      omega

/-- The character of a number that is none of the surrogates. -/
theorem exists_char {n : ℕ} (h : n < 0xd800 ∨ 0xe000 ≤ n ∧ n < 0x110000) :
    ∃ c : Char, c.toNat = n := by
  have hvalid : n.isValidChar := by
    rcases h with h | h
    · exact Or.inl h
    · exact Or.inr ⟨by omega, h.2⟩
  exact ⟨Char.ofNat n, by rw [Char.ofNat, dif_pos hvalid]; rfl⟩

theorem exists_encode_one {b : UInt8} (h : b.toNat < 0x80) :
    ∃ c, String.utf8EncodeChar c = [b] := by
  obtain ⟨c, hc⟩ := exists_char (n := b.toNat) (by omega)
  refine ⟨c, ?_⟩
  rcases encode_cases c with ⟨b', heq, -, hb⟩ | ⟨_, _, -, h0, -⟩ | ⟨_, _, _, -, h0, -⟩ |
    ⟨_, _, _, _, -, h0, -⟩
  · rw [heq, UInt8.toNat_inj.1 (hb.trans hc)]
  · omega
  · omega
  · omega

theorem exists_encode_two {b t : UInt8} (hb : 0xc2 ≤ b.toNat ∧ b.toNat < 0xe0) (ht : IsTail t) :
    ∃ c, String.utf8EncodeChar c = [b, t] := by
  rw [isTail_iff] at ht
  obtain ⟨c, hc⟩ := exists_char (n := (b.toNat - 0xc0) * 64 + (t.toNat - 0x80)) (by omega)
  refine ⟨c, ?_⟩
  rcases encode_cases c with ⟨_, -, h0, -⟩ | ⟨b', t', heq, -, -, hb', ht'⟩ | ⟨_, _, _, -, h0, -⟩ |
    ⟨_, _, _, _, -, h0, -⟩
  · omega
  · obtain rfl : b' = b := UInt8.toNat_inj.1 (by omega)
    obtain rfl : t' = t := UInt8.toNat_inj.1 (by omega)
    exact heq
  · omega
  · omega

theorem exists_encode_three {b t₁ t₂ : UInt8} (hb : 0xe0 ≤ b.toNat ∧ b.toNat < 0xf0)
    (ht₁ : IsTail t₁) (ht₂ : IsTail t₂) (hlow : ¬ (b.toNat = 0xe0 ∧ t₁.toNat < 0xa0))
    (hsurrogate : ¬ (b.toNat = 0xed ∧ 0xa0 ≤ t₁.toNat)) :
    ∃ c, String.utf8EncodeChar c = [b, t₁, t₂] := by
  rw [isTail_iff] at ht₁ ht₂
  obtain ⟨c, hc⟩ := exists_char
    (n := (b.toNat - 0xe0) * 4096 + (t₁.toNat - 0x80) * 64 + (t₂.toNat - 0x80)) (by omega)
  refine ⟨c, ?_⟩
  rcases encode_cases c with ⟨_, -, h0, -⟩ | ⟨_, _, -, -, h0, -⟩ |
    ⟨b', t₁', t₂', heq, -, -, hb', ht₁', ht₂'⟩ | ⟨_, _, _, _, -, h0, -⟩
  · omega
  · omega
  · obtain rfl : b' = b := UInt8.toNat_inj.1 (by omega)
    obtain rfl : t₁' = t₁ := UInt8.toNat_inj.1 (by omega)
    obtain rfl : t₂' = t₂ := UInt8.toNat_inj.1 (by omega)
    exact heq
  · omega

theorem exists_encode_four {b t₁ t₂ t₃ : UInt8} (hb : 0xf0 ≤ b.toNat ∧ b.toNat ≤ 0xf4)
    (ht₁ : IsTail t₁) (ht₂ : IsTail t₂) (ht₃ : IsTail t₃)
    (hlow : ¬ (b.toNat = 0xf0 ∧ t₁.toNat < 0x90)) (hhigh : ¬ (b.toNat = 0xf4 ∧ 0x90 ≤ t₁.toNat)) :
    ∃ c, String.utf8EncodeChar c = [b, t₁, t₂, t₃] := by
  rw [isTail_iff] at ht₁ ht₂ ht₃
  obtain ⟨c, hc⟩ := exists_char (n := (b.toNat - 0xf0) * 262144 + (t₁.toNat - 0x80) * 4096 +
    (t₂.toNat - 0x80) * 64 + (t₃.toNat - 0x80)) (by omega)
  refine ⟨c, ?_⟩
  rcases encode_cases c with ⟨_, -, h0, -⟩ | ⟨_, _, -, -, h0, -⟩ | ⟨_, _, _, -, -, h0, -⟩ |
    ⟨b', t₁', t₂', t₃', heq, -, hb', ht₁', ht₂', ht₃'⟩
  · omega
  · omega
  · omega
  · obtain rfl : b' = b := UInt8.toNat_inj.1 (by omega)
    obtain rfl : t₁' = t₁ := UInt8.toNat_inj.1 (by omega)
    obtain rfl : t₂' = t₂ := UInt8.toNat_inj.1 (by omega)
    obtain rfl : t₃' = t₃ := UInt8.toNat_inj.1 (by omega)
    exact heq

end Utf8
