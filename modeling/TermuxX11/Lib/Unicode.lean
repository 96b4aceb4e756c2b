import Mathlib

/-!
# Text in units and bytes

The strings of Java are rows of 16-bit units; a character above `0xFFFF` is a pair of surrogates.
`getBytes` makes UTF-8 of them, with a question mark for a surrogate that has no partner.
-/

namespace Unicode

/-! ### Units -/

/-- A character that is a single unit. -/
def isSingle (c : Char) : Bool := c.toNat < 0x10000

/-- The units of a character. -/
def units (c : Char) : List UInt16 :=
  if isSingle c then [UInt16.ofNat c.toNat]
  else
    [UInt16.ofNat (0xD800 + (c.toNat - 0x10000) / 0x400),
      UInt16.ofNat (0xDC00 + (c.toNat - 0x10000) % 0x400)]

/-- The Java string of a text. -/
def utf16 (text : List Char) : List UInt16 := text.flatMap units

def isHigh (u : UInt16) : Bool := 0xD800 ≤ u.toNat && u.toNat < 0xDC00

def isLow (u : UInt16) : Bool := 0xDC00 ≤ u.toNat && u.toNat < 0xE000

/-- The character of a unit that is on its own. -/
def charOf (u : UInt16) : Char := if isHigh u || isLow u then '?' else Char.ofNat u.toNat

/-- The characters of a Java string, as an encoder sees them. -/
def decode : List UInt16 → List Char
  | [] => []
  | [u] => [charOf u]
  | u :: v :: us =>
    if isHigh u && isLow v then
      Char.ofNat (0x10000 + (u.toNat - 0xD800) * 0x400 + (v.toNat - 0xDC00)) :: decode us
    else charOf u :: decode (v :: us)

/-- `getBytes(UTF_8)`. -/
def getBytes (us : List UInt16) : List UInt8 := (decode us).flatMap String.utf8EncodeChar

theorem toNat_valid (c : Char) : c.toNat < 0xD800 ∨ 0xDFFF < c.toNat ∧ c.toNat < 0x110000 :=
  c.valid

theorem units_single {c : Char} (h : isSingle c = true) : units c = [UInt16.ofNat c.toNat] := by
  rw [units, if_pos h]

theorem length_units (c : Char) : (units c).length = if isSingle c then 1 else 2 := by
  rw [units]
  split_ifs <;> rfl

theorem toNat_single {c : Char} (h : isSingle c = true) :
    (UInt16.ofNat c.toNat).toNat = c.toNat :=
  UInt16.toNat_ofNat_of_lt' (of_decide_eq_true h)

theorem isLow_single {c : Char} (h : isSingle c = true) :
    isLow (UInt16.ofNat c.toNat) = false := by
  have hvalid := toNat_valid c
  rw [isLow, toNat_single h]
  simp
  omega

theorem charOf_single {c : Char} (h : isSingle c = true) :
    isHigh (UInt16.ofNat c.toNat) = false ∧ charOf (UInt16.ofNat c.toNat) = c := by
  have hvalid := toNat_valid c
  have hhigh : isHigh (UInt16.ofNat c.toNat) = false := by
    rw [isHigh, toNat_single h]
    simp
    omega
  refine ⟨hhigh, ?_⟩
  rw [charOf, hhigh, isLow_single h, toNat_single h]
  simp

theorem decode_cons {u : UInt16} (h : isHigh u = false) (us : List UInt16) :
    decode (u :: us) = charOf u :: decode us := by
  cases us with
  | nil => rfl
  | cons v us => simp [decode, h]

/-- The surrogates of a character that is not a single unit. -/
theorem units_pair {c : Char} (h : isSingle c = false) :
    ∃ u v, units c = [u, v] ∧ isHigh u = true ∧ isLow v = true ∧
      0x10000 + (u.toNat - 0xD800) * 0x400 + (v.toNat - 0xDC00) = c.toNat := by
  have hge : 0x10000 ≤ c.toNat := by
    simpa [isSingle] using h
  have hvalid := toNat_valid c
  have hu : (UInt16.ofNat (0xD800 + (c.toNat - 0x10000) / 0x400)).toNat =
      0xD800 + (c.toNat - 0x10000) / 0x400 :=
    UInt16.toNat_ofNat_of_lt' (by rw [UInt16.size]; omega)
  have hv : (UInt16.ofNat (0xDC00 + (c.toNat - 0x10000) % 0x400)).toNat =
      0xDC00 + (c.toNat - 0x10000) % 0x400 :=
    UInt16.toNat_ofNat_of_lt' (by rw [UInt16.size]; omega)
  refine ⟨_, _, by rw [units, h]; rfl, ?_, ?_, ?_⟩
  · rw [isHigh, hu]
    simp
    omega
  · rw [isLow, hv]
    simp
    omega
  · rw [hu, hv]
    omega

/-- The characters are found again in their units. -/
theorem decode_units (c : Char) (us : List UInt16) : decode (units c ++ us) = c :: decode us := by
  cases h : isSingle c with
  | true =>
    obtain ⟨hhigh, hchar⟩ := charOf_single h
    rw [units_single h, List.singleton_append, decode_cons hhigh, hchar]
  | false =>
    obtain ⟨u, v, huv, hu, hv, hchar⟩ := units_pair h
    rw [huv]
    simp only [List.cons_append, List.nil_append, decode, hu, hv, Bool.and_self, if_true, hchar,
      Char.ofNat_toNat]

theorem decode_utf16_append (text : List Char) (us : List UInt16) :
    decode (utf16 text ++ us) = text ++ decode us := by
  induction text with
  | nil => rfl
  | cons c text ih =>
    rw [utf16, List.flatMap_cons, List.append_assoc, decode_units]
    exact congrArg _ ih

/-- A character that is a single unit is in the text where the unit is. -/
theorem mem_utf16_iff {c : Char} (h : isSingle c = true) {text : List Char} :
    UInt16.ofNat c.toNat ∈ utf16 text ↔ c ∈ text := by
  obtain ⟨hhigh, hchar⟩ := charOf_single h
  constructor
  · intro hmem
    obtain ⟨d, hd, hmem⟩ := List.mem_flatMap.1 hmem
    cases hs : isSingle d with
    | true =>
      rw [units_single hs, List.mem_singleton] at hmem
      rwa [← hchar, hmem, (charOf_single hs).2]
    | false =>
      -- a surrogate is no character
      obtain ⟨u, v, huv, hu, hv, -⟩ := units_pair hs
      rw [huv, List.mem_cons, List.mem_singleton] at hmem
      rcases hmem with rfl | rfl
      · rw [hu] at hhigh
        cases hhigh
      · rw [isLow_single h] at hv
        cases hv
  · intro hc
    refine List.mem_flatMap.2 ⟨c, hc, ?_⟩
    rw [units_single h, List.mem_singleton]

/-- A text is a beginning of another if its units are. -/
theorem utf16_prefix_iff {text text' : List Char} :
    utf16 text <+: utf16 text' ↔ text <+: text' := by
  constructor
  · rintro ⟨rest, h⟩
    have hdecode := congrArg decode h
    rw [decode_utf16_append, ← List.append_nil (utf16 text'), decode_utf16_append] at hdecode
    exact ⟨decode rest, hdecode.trans (List.append_nil _)⟩
  · rintro ⟨rest, rfl⟩
    exact ⟨utf16 rest, List.flatMap_append.symm⟩

theorem utf16_append (text text' : List Char) : utf16 (text ++ text') = utf16 text ++ utf16 text' :=
  List.flatMap_append

theorem utf16_eq_nil_iff {text : List Char} : utf16 text = [] ↔ text = [] := by
  cases text with
  | nil => simp [utf16]
  | cons c text =>
    have hne : units c ≠ [] := by
      rw [units]
      split_ifs <;> simp
    simp [utf16, hne]

/-- The characters of a text that are two units. -/
def pairs (text : List Char) : ℕ := text.countP fun c => !isSingle c

theorem length_utf16 (text : List Char) : (utf16 text).length = text.length + pairs text := by
  induction text with
  | nil => rfl
  | cons c text ih =>
    have ih' : (text.flatMap units).length = text.length + text.countP fun c => !isSingle c := ih
    rw [utf16, List.flatMap_cons, List.length_append, length_units, pairs, List.countP_cons, ih',
      List.length_cons]
    cases isSingle c <;> simp <;> omega

theorem pairs_eq_zero_iff {text : List Char} : pairs text = 0 ↔ ∀ c ∈ text, isSingle c = true := by
  simp [pairs, List.countP_eq_zero]

/-! ### Code points -/

/-- `String.codePoints()`: a surrogate that has no partner is a code point of its own. -/
def codePoints : List UInt16 → List UInt32
  | [] => []
  | [u] => [u.toUInt32]
  | u :: v :: us =>
    if isHigh u && isLow v then
      (0x10000 + (u.toUInt32 - 0xD800) * 0x400 + (v.toUInt32 - 0xDC00)) :: codePoints us
    else u.toUInt32 :: codePoints (v :: us)

/-- What an encoder makes of a code point: there is no UTF-8 of a surrogate. -/
def encodable (code : UInt32) : UInt32 :=
  if 0xD800 ≤ code.toNat ∧ code.toNat < 0xE000 then 0x3F else code

theorem val_charOf (u : UInt16) : (charOf u).val = encodable u.toUInt32 := by
  have hlt := u.toNat_lt
  have hnat : u.toUInt32.toNat = u.toNat := UInt16.toNat_toUInt32 u
  rw [charOf, encodable, hnat]
  by_cases h : 0xD800 ≤ u.toNat ∧ u.toNat < 0xE000
  · have hor : (isHigh u || isLow u) = true := by
      simp [isHigh, isLow]
      omega
    rw [if_pos h, if_pos hor]
    rfl
  · have hor : ¬ (isHigh u || isLow u) = true := by
      simp [isHigh, isLow]
      omega
    rw [if_neg h, if_neg hor]
    have hvalid : u.toNat.isValidChar := by
      rw [Nat.isValidChar]
      omega
    rw [Char.ofNat, dif_pos hvalid]
    exact UInt32.toNat_inj.1 (by rw [hnat]; rfl)

theorem val_pair {u v : UInt16} (hu : isHigh u = true) (hv : isLow v = true) :
    (Char.ofNat (0x10000 + (u.toNat - 0xD800) * 0x400 + (v.toNat - 0xDC00))).val =
      encodable (0x10000 + (u.toUInt32 - 0xD800) * 0x400 + (v.toUInt32 - 0xDC00)) := by
  have hu' : 0xD800 ≤ u.toNat ∧ u.toNat < 0xDC00 := by simpa [isHigh] using hu
  have hv' : 0xDC00 ≤ v.toNat ∧ v.toNat < 0xE000 := by simpa [isLow] using hv
  have hnat : (0x10000 + (u.toUInt32 - 0xD800) * 0x400 + (v.toUInt32 - 0xDC00)).toNat =
      0x10000 + (u.toNat - 0xD800) * 0x400 + (v.toNat - 0xDC00) := by
    simp only [UInt32.toNat_add, UInt32.toNat_mul, UInt32.toNat_sub, UInt16.toNat_toUInt32]
    simp
    omega
  have hvalid : (0x10000 + (u.toNat - 0xD800) * 0x400 + (v.toNat - 0xDC00)).isValidChar := by
    rw [Nat.isValidChar]
    omega
  rw [Char.ofNat, dif_pos hvalid, encodable, if_neg (by omega)]
  exact UInt32.toNat_inj.1 (by rw [hnat]; rfl)

/-- An encoder sees the code points, with a question mark for a surrogate. -/
theorem map_val_decode (us : List UInt16) :
    (decode us).map Char.val = (codePoints us).map encodable := by
  induction us using decode.induct with
  | case1 => rfl
  | case2 u => simp only [decode, codePoints, List.map_cons, List.map_nil, val_charOf]
  | case3 u v us h ih =>
    obtain ⟨hu, hv⟩ := (Bool.and_eq_true _ _).mp h
    rw [decode, codePoints, if_pos h, if_pos h, List.map_cons, List.map_cons, ih, val_pair hu hv]
  | case4 u v us h ih =>
    rw [decode, codePoints, if_neg h, if_neg h, List.map_cons, List.map_cons, ih, val_charOf]

theorem encodable_eq_zero_iff (code : UInt32) : encodable code = 0 ↔ code = 0 := by
  rw [encodable]
  split_ifs with h
  · refine iff_of_false (by decide) ?_
    rintro rfl
    exact absurd h.1 (by decide)
  · rfl

/-- Up to the first null character. -/
theorem map_val_takeWhile_decode (us : List UInt16) :
    ((decode us).takeWhile (· ≠ '\x00')).map Char.val =
      ((codePoints us).takeWhile (· ≠ 0)).map encodable := by
  have hchar : (fun c : Char => decide (c ≠ '\x00')) = (fun n => decide (n ≠ 0)) ∘ Char.val :=
    funext fun c => decide_eq_decide.2 (not_congr Char.ext_iff)
  have hcode : (fun n => decide (n ≠ 0)) ∘ encodable = fun n => decide (n ≠ 0) :=
    funext fun n => decide_eq_decide.2 (not_congr (encodable_eq_zero_iff n))
  rw [hchar, ← List.takeWhile_map, map_val_decode, List.takeWhile_map, hcode]

/-! ### Bytes -/

/-- `mbrtowc`: the character at the beginning of a row of bytes. -/
def mbrtowc (bytes : List UInt8) : Option Char := bytes.toByteArray.utf8DecodeChar? 0

theorem mbrtowc_encode (c : Char) (bytes : List UInt8) :
    mbrtowc (String.utf8EncodeChar c ++ bytes) = some c := by
  rw [mbrtowc, List.toByteArray_append]
  exact ByteArray.utf8DecodeChar?_utf8EncodeChar_append

/-- The bytes of a character begin with a zero only if they are that of the null character. -/
theorem head_encode_eq_zero_iff (c : Char) :
    (String.utf8EncodeChar c).head? = some 0 ↔ c = '\x00' := by
  have hne : ∀ n, n < 0x100 → n ≠ 0 → some (UInt8.ofNat n) ≠ some 0 := by
    intro n hn h0 h
    have hnat := congrArg UInt8.toNat (Option.some.inj h)
    rw [UInt8.toNat_ofNat_of_lt' hn] at hnat
    exact h0 hnat
  have hzero : c = '\x00' ↔ c.val.toNat = 0 := by
    rw [← Char.toNat_inj]
    rfl
  rw [hzero]
  unfold String.utf8EncodeChar
  dsimp only
  split_ifs with h₁ h₂ h₃
  · constructor
    · intro h
      by_contra h0
      exact hne _ (by omega) h0 h
    · intro h
      rw [h]
      rfl
  · exact iff_of_false (hne _ (by omega) (by omega)) (by omega)
  · exact iff_of_false (hne _ (by omega) (by omega)) (by omega)
  · exact iff_of_false (hne _ (by omega) (by omega)) (by omega)

end Unicode
