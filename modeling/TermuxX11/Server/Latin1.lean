import TermuxX11.Lib.Memory
import TermuxX11.Lib.Utf8

/-!
# The text conversions of the clipboard

`lorieConvertLF`, `lorieLatin1ToUTF8`, `lorieUtf8ToUCS4` and `lorieUtf8ToLatin1` of `clipboard.c`.
A string is the row of bytes of the object that holds it; what is read or written outside of an
object is `none`.  A `size_t` has 64 bits.  The arrays that the callers have on the stack are taken
to fit into it.

The two passes of `lorieUtf8ToLatin1` are one loop, with different bodies and a different number of
bytes that they are allowed.
-/

namespace TermuxX11.Server

open ByteCoding CMemory Utf8

/-! ### From Latin-1 -/

/-- The loop of `lorieConvertLF`. -/
def convertLF (src : Bytes) (bytes i : ℕ) (dst : Bytes) (j : ℕ) : Option Bytes :=
  if i < bytes then do
    let c ← load src i
    if c ≠ 13 then
      let dst ← store dst j c
      convertLF src bytes (i + 1) dst (j + 1)
    else convertLF src bytes (i + 1) dst j
  else some dst
termination_by bytes - i

/-- `lorieConvertLF`. -/
def lorieConvertLF (src dst : Bytes) (bytes : ℕ) : Option Bytes := convertLF src bytes 0 dst 0

/-- The loop of `lorieLatin1ToUTF8`. -/
def latin1ToUTF8 (out : Bytes) (j : ℕ) (inp : Bytes) (i : ℕ) : Option Bytes :=
  match h : load inp i with
  | none => none
  | some c =>
    if c = 0 then some out
    else if c < 128 then do
      let out ← store out j c
      latin1ToUTF8 out (j + 1) inp (i + 1)
    else do
      let out ← store out j (0xc2 + if 0xbf < c then 1 else 0)
      let out ← store out (j + 1) ((c &&& 0x3f) + 0x80)
      latin1ToUTF8 out (j + 2) inp (i + 1)
termination_by inp.length - i
decreasing_by
  all_goals
    have hlt := (List.getElem?_eq_some_iff.1 h).1
    omega

/-- `lorieLatin1ToUTF8`. -/
def lorieLatin1ToUTF8 (out inp : Bytes) : Option Bytes := latin1ToUTF8 out 0 inp 0

/-! ### To Latin-1 -/

/-- The loop of `lorieUtf8ToUCS4` over the continuation bytes behind an invalid one. -/
def skipTails (m : Bytes) : ℕ → ℕ → ℕ → Option ℕ
  | 0, _, consumed => some consumed
  | max + 1, src, consumed => do
    let c ← load m src
    if c &&& 0xc0 = 0x80 then skipTails m max (src + 1) (consumed + 1) else some consumed

/-- The loop of `lorieUtf8ToUCS4` over the `count` continuation bytes of a sequence, and what
follows it. -/
def takeTails (m : Bytes) : ℕ → ℕ → ℕ → ℕ → ℕ → Option (ℕ × ℕ)
  | 0, _, _, consumed, dst => some (consumed, if 0xd800 ≤ dst ∧ dst < 0xe000 then 0xfffd else dst)
  | count + 1, src, max, consumed, dst =>
    if max = 0 then some (consumed + 1, 0xfffd)
    else do
      let c ← load m src
      if c &&& 0xc0 ≠ 0x80 then some (consumed + 1, 0xfffd)
      else takeTails m count (src + 1) (max - 1) (consumed + 1) (dst <<< 6 ||| (c &&& 0x3f).toNat)

/-- `lorieUtf8ToUCS4` at the index `src`: what it returns and the value of `*dst`. -/
def lorieUtf8ToUCS4 (m : Bytes) (src max : ℕ) : Option (ℕ × ℕ) :=
  if max = 0 then some (0, 0xfffd)
  else do
    let c ← load m src
    if c &&& 0x80 = 0 then takeTails m 0 (src + 1) (max - 1) 1 c.toNat
    else if c &&& 0xe0 = 0xc0 then takeTails m 1 (src + 1) (max - 1) 1 (c &&& 0x1f).toNat
    else if c &&& 0xf0 = 0xe0 then takeTails m 2 (src + 1) (max - 1) 1 (c &&& 0x0f).toNat
    else if c &&& 0xf8 = 0xf0 then takeTails m 3 (src + 1) (max - 1) 1 (c &&& 0x07).toNat
    else do
      let consumed ← skipTails m (max - 1) (src + 1) 1
      some (consumed, 0xfffd)

/-- A difference of two values of type `size_t`. -/
def sizeSub (n k : ℕ) : ℕ := (n + 2 ^ 64 - k) % 2 ^ 64

theorem sizeSub_of_le {n k : ℕ} (hk : k ≤ n) (hn : n < 2 ^ 64) : sizeSub n k = n - k := by
  rw [sizeSub]
  omega

theorem lt_of_skipTails {m : Bytes} {max src consumed len : ℕ}
    (h : skipTails m max src consumed = some len) : consumed ≤ len := by
  induction max generalizing src consumed with
  | zero => exact (Option.some.inj h).le
  | succ max ih =>
    obtain ⟨c, -, h⟩ := Option.bind_eq_some_iff.1 h
    split_ifs at h
    · exact (Nat.le_succ _).trans (ih h)
    · exact (Option.some.inj h).le

theorem lt_of_takeTails {m : Bytes} {count src max consumed dst : ℕ} {r : ℕ × ℕ}
    (h : takeTails m count src max consumed dst = some r) : consumed ≤ r.1 := by
  induction count generalizing src max consumed dst with
  | zero =>
    obtain rfl := Option.some.inj h
    exact le_rfl
  | succ count ih =>
    rw [takeTails] at h
    split_ifs at h
    · obtain rfl := Option.some.inj h
      exact Nat.le_succ _
    · obtain ⟨c, -, h⟩ := Option.bind_eq_some_iff.1 h
      split_ifs at h
      · obtain rfl := Option.some.inj h
        exact Nat.le_succ _
      · exact (Nat.le_succ _).trans (ih h)

/-- What is looked at is consumed. -/
theorem consumed_pos {m : Bytes} {src max : ℕ} {r : ℕ × ℕ} (hmax : max ≠ 0)
    (h : lorieUtf8ToUCS4 m src max = some r) : 0 < r.1 := by
  rw [lorieUtf8ToUCS4, if_neg hmax] at h
  obtain ⟨c, -, h⟩ := Option.bind_eq_some_iff.1 h
  split_ifs at h
  · exact lt_of_takeTails h
  · exact lt_of_takeTails h
  · exact lt_of_takeTails h
  · exact lt_of_takeTails h
  · obtain ⟨len, hlen, h⟩ := Option.bind_eq_some_iff.1 h
    obtain rfl := Option.some.inj h
    exact lt_of_skipTails hlen

/-- The loop of a pass of `lorieUtf8ToLatin1`; `body` is what it does with a character. -/
def utf8Loop {α : Type} (body : α → ℕ → Option α) (m : Bytes) (inp inLen : ℕ) (a : α) : Option α :=
  if _hlen : inLen = 0 then some a
  else
    match _hc : load m inp with
    | none => none
    | some c =>
      if c = 0 then some a
      else
        match _hr : lorieUtf8ToUCS4 m inp inLen with
        | none => none
        | some r => (body a r.2).bind fun a => utf8Loop body m (inp + r.1) (sizeSub inLen r.1) a
termination_by m.length - inp
decreasing_by
  have hlt := (List.getElem?_eq_some_iff.1 _hc).1
  have hpos := consumed_pos _hlen _hr
  omega

/-- The first pass: the size of the output. -/
def outputSize (src : Bytes) : Option ℕ :=
  utf8Loop (fun sz _ => some (sz + 1)) src 0 (2 ^ 64 - 1) 0

/-- The body of the second pass, on the output and the position in it. -/
def putLatin1 (a : Bytes × ℕ) (ucs : ℕ) : Option (Bytes × ℕ) := do
  let out ← store a.1 a.2 (if 0xff < ucs then 63 else UInt8.ofNat ucs)
  some (out, a.2 + 1)

/-- The second pass, into an output that is cleared. -/
def convertInto (src : Bytes) (size : ℕ) : Option (Bytes × ℕ) :=
  utf8Loop putLatin1 src 0 4294967295 (cleared size, 0)

/-- `lorieUtf8ToLatin1`: the string that is copied by `strdup`. -/
def lorieUtf8ToLatin1 (src : Bytes) : Option Bytes := do
  let sz ← outputSize src
  let a ← convertInto src (sz + 1)
  readString a.1

/-! ### The loops, from where they are -/

theorem skipTails_append (p l : Bytes) (max k consumed : ℕ) :
    skipTails (p ++ l) max (p.length + k) consumed = skipTails l max k consumed := by
  induction max generalizing k consumed with
  | zero => rfl
  | succ max ih => simp only [skipTails, load_add, Nat.add_assoc, ih]

theorem takeTails_append (p l : Bytes) (count k max consumed dst : ℕ) :
    takeTails (p ++ l) count (p.length + k) max consumed dst =
      takeTails l count k max consumed dst := by
  induction count generalizing k max consumed dst with
  | zero => rfl
  | succ count ih => simp only [takeTails, load_add, Nat.add_assoc, ih]

theorem lorieUtf8ToUCS4_append (p l : Bytes) (k max : ℕ) :
    lorieUtf8ToUCS4 (p ++ l) (p.length + k) max = lorieUtf8ToUCS4 l k max := by
  simp only [lorieUtf8ToUCS4, load_add, Nat.add_assoc, takeTails_append, skipTails_append]

section Loop

variable {α : Type} {body : α → ℕ → Option α}

theorem utf8Loop_eq (m : Bytes) (inp inLen : ℕ) (a : α) :
    utf8Loop body m inp inLen a =
      if inLen = 0 then some a
      else (load m inp).bind fun c =>
        if c = 0 then some a
        else (lorieUtf8ToUCS4 m inp inLen).bind fun r =>
          (body a r.2).bind fun a => utf8Loop body m (inp + r.1) (sizeSub inLen r.1) a := by
  rw [utf8Loop]
  split
  · rfl
  · cases load m inp with
    | none => rfl
    | some c =>
      rw [Option.bind_some]
      refine if_congr Iff.rfl rfl ?_
      cases lorieUtf8ToUCS4 m inp inLen with
      | none => rfl
      | some r => rfl

theorem utf8Loop_append (p l : Bytes) (k n : ℕ) (a : α) :
    utf8Loop body (p ++ l) (p.length + k) n a = utf8Loop body l k n a := by
  induction hrest : l.length - k using Nat.strong_induction_on generalizing k n a with
  | _ rest ih =>
  subst hrest
  rw [utf8Loop_eq, utf8Loop_eq l, load_add, lorieUtf8ToUCS4_append]
  by_cases hn : n = 0
  · rw [if_pos hn, if_pos hn]
  rw [if_neg hn, if_neg hn]
  refine Option.bind_congr fun c hc => if_congr Iff.rfl rfl ?_
  refine Option.bind_congr fun r hr => Option.bind_congr fun a' _ => ?_
  have hlt := (List.getElem?_eq_some_iff.1 hc).1
  have hpos := consumed_pos hn hr
  rw [Nat.add_assoc]
  exact ih _ (by omega) _ _ _ rfl

theorem utf8Loop_stop (r : Bytes) (n : ℕ) (a : α) : utf8Loop body (0 :: r) 0 n a = some a := by
  rw [utf8Loop_eq]
  split_ifs
  · rfl
  · rfl

/-- One round of the loop. -/
theorem utf8Loop_cons {c : UInt8} (hc : c ≠ 0) (u l : Bytes) {n ucs : ℕ} (hn : n ≠ 0)
    (h : lorieUtf8ToUCS4 (c :: u ++ l) 0 n = some ((c :: u).length, ucs)) (a : α) :
    utf8Loop body (c :: u ++ l) 0 n a =
      (body a ucs).bind fun a => utf8Loop body l 0 (sizeSub n (c :: u).length) a := by
  have hload : load (c :: u ++ l) 0 = some c := rfl
  rw [utf8Loop_eq, if_neg hn, hload, Option.bind_some, if_neg hc, h, Option.bind_some]
  refine Option.bind_congr fun a' _ => ?_
  rw [Nat.zero_add]
  exact utf8Loop_append (c :: u) l 0 _ a'

/-- The loop further on in a string is that over the rest. -/
theorem utf8Loop_drop {s : Bytes} {k : ℕ} (hk : k ≤ s.length) (n : ℕ) (a : α) :
    utf8Loop body (s ++ [0]) k n a = utf8Loop body (s.drop k ++ [0]) 0 n a := by
  have hloop := @utf8Loop_append _ body (s.take k) (s.drop k ++ [0]) 0 n a
  rw [← List.append_assoc, List.take_append_drop, List.length_take_of_le hk, Nat.add_zero] at hloop
  exact hloop

/-- Behind the NUL nothing may be looked at. -/
theorem utf8Loop_behind {s : Bytes} {k : ℕ} (hk : s.length < k) (n : ℕ) (a : α) :
    utf8Loop body (s ++ [0]) k n a ≠ none ↔ n = 0 := by
  have hload : load (s ++ [0]) k = none := by
    refine List.getElem?_eq_none ?_
    rw [List.length_append, List.length_singleton]
    exact hk
  rw [utf8Loop_eq, hload]
  by_cases hn : n = 0
  · rw [if_pos hn]
    exact iff_of_true nofun hn
  · rw [if_neg hn]
    exact iff_of_false (not_not.2 rfl) hn

end Loop

/-! ### Well-formed text -/

/-- How a character begins, by the ranges of its lead byte. -/
theorem lorieUtf8ToUCS4_cons (b : UInt8) (l : Bytes) (max : ℕ) :
    lorieUtf8ToUCS4 (b :: l) 0 (max + 1) =
      if b.toNat < 0x80 then takeTails l 0 0 max 1 b.toNat
      else if 0xc0 ≤ b.toNat ∧ b.toNat < 0xe0 then takeTails l 1 0 max 1 (b.toNat % 32)
      else if 0xe0 ≤ b.toNat ∧ b.toNat < 0xf0 then takeTails l 2 0 max 1 (b.toNat % 16)
      else if 0xf0 ≤ b.toNat ∧ b.toNat < 0xf8 then takeTails l 3 0 max 1 (b.toNat % 8)
      else (skipTails l max 0 1).map fun consumed => (consumed, 0xfffd) := by
  have htake : ∀ count dst,
      takeTails (b :: l) count (0 + 1) max 1 dst = takeTails l count 0 max 1 dst :=
    fun count dst => takeTails_append [b] l count 0 max 1 dst
  have hskip : skipTails (b :: l) max (0 + 1) 1 = skipTails l max 0 1 :=
    skipTails_append [b] l max 0 1
  have hload : load (b :: l) 0 = some b := rfl
  have h5 : (b &&& 0x1f).toNat = b.toNat % 32 := toNat_and_low b 0x1f (k := 5) rfl
  have h4 : (b &&& 0x0f).toNat = b.toNat % 16 := toNat_and_low b 0x0f (k := 4) rfl
  have h3 : (b &&& 0x07).toNat = b.toNat % 8 := toNat_and_low b 0x07 (k := 3) rfl
  simp only [lorieUtf8ToUCS4, if_neg (Nat.succ_ne_zero max), hload, Option.bind_eq_bind,
    Option.bind_some, Nat.add_sub_cancel, htake, hskip, and_80_iff, and_e0_iff, and_f0_iff,
    and_f8_iff, h5, h4, h3]
  cases skipTails l max 0 1 with
  | none => rfl
  | some consumed => rfl

theorem takeTails_cons {t : UInt8} (ht : IsTail t) (l : Bytes) (count max consumed dst : ℕ) :
    takeTails (t :: l) (count + 1) 0 (max + 1) consumed dst =
      takeTails l count 0 max (consumed + 1) (dst * 64 + t.toNat % 64) := by
  have hload : load (t :: l) 0 = some t := rfl
  rw [takeTails, if_neg (Nat.succ_ne_zero max), hload, Option.bind_eq_bind, Option.bind_some,
    if_neg (not_not.2 ht), shift_or_tail]
  exact takeTails_append [t] l count 0 max _ _

/-- A character is read back, and all of its bytes are consumed. -/
theorem lorieUtf8ToUCS4_encode (c : Char) (l : Bytes) {n : ℕ}
    (hn : (String.utf8EncodeChar c).length ≤ n) :
    lorieUtf8ToUCS4 (String.utf8EncodeChar c ++ l) 0 n =
      some ((String.utf8EncodeChar c).length, c.toNat) := by
  have hvalid : c.toNat < 0xd800 ∨ 0xdfff < c.toNat ∧ c.toNat < 0x110000 := c.valid
  have hdone : ∀ max consumed, takeTails l 0 0 max consumed c.toNat = some (consumed, c.toNat) := by
    intro max consumed
    rw [takeTails, if_neg (by omega)]
  rcases encode_cases c with ⟨b, heq, hsize, hb⟩ | ⟨b, t, heq, hlow, hhigh, hb, ht⟩ |
    ⟨b, t₁, t₂, heq, hlow, hhigh, hb, ht₁, ht₂⟩ | ⟨b, t₁, t₂, t₃, heq, hlow, hb, ht₁, ht₂, ht₃⟩
  · rw [heq] at hn ⊢
    obtain ⟨max, rfl⟩ := Nat.exists_eq_add_of_le' hn
    rw [List.cons_append, List.nil_append]
    show lorieUtf8ToUCS4 (b :: l) 0 (max + 1) = _
    rw [lorieUtf8ToUCS4_cons, if_pos (by omega), hb, hdone]
    rfl
  · rw [heq] at hn ⊢
    obtain ⟨max, rfl⟩ := Nat.exists_eq_add_of_le' hn
    show lorieUtf8ToUCS4 (b :: t :: l) 0 (max + 1 + 1) = _
    rw [lorieUtf8ToUCS4_cons, if_neg (by omega), if_pos (by omega),
      takeTails_cons ((isTail_iff t).2 (by omega))]
    have hval : b.toNat % 32 * 64 + t.toNat % 64 = c.toNat := by omega
    rw [hval, hdone]
    rfl
  · rw [heq] at hn ⊢
    obtain ⟨max, rfl⟩ := Nat.exists_eq_add_of_le' hn
    show lorieUtf8ToUCS4 (b :: t₁ :: t₂ :: l) 0 (max + 2 + 1) = _
    rw [lorieUtf8ToUCS4_cons, if_neg (by omega), if_neg (by omega), if_pos (by omega),
      takeTails_cons ((isTail_iff t₁).2 (by omega)), takeTails_cons ((isTail_iff t₂).2 (by omega))]
    have hval : (b.toNat % 16 * 64 + t₁.toNat % 64) * 64 + t₂.toNat % 64 = c.toNat := by omega
    rw [hval, hdone]
    rfl
  · rw [heq] at hn ⊢
    obtain ⟨max, rfl⟩ := Nat.exists_eq_add_of_le' hn
    show lorieUtf8ToUCS4 (b :: t₁ :: t₂ :: t₃ :: l) 0 (max + 3 + 1) = _
    rw [lorieUtf8ToUCS4_cons, if_neg (by omega), if_neg (by omega), if_neg (by omega),
      if_pos (by omega), takeTails_cons ((isTail_iff t₁).2 (by omega)),
      takeTails_cons ((isTail_iff t₂).2 (by omega)), takeTails_cons ((isTail_iff t₃).2 (by omega))]
    have hval : ((b.toNat % 8 * 64 + t₁.toNat % 64) * 64 + t₂.toNat % 64) * 64 + t₃.toNat % 64 =
        c.toNat := by omega
    rw [hval, hdone]
    rfl

/-- The lead byte of a character. -/
theorem exists_lead {c : Char} (hc : c ≠ '\x00') :
    ∃ b u, String.utf8EncodeChar c = b :: u ∧ b ≠ 0 := by
  have hpos : c.toNat ≠ 0 := fun h => hc (Char.toNat_inj.1 h)
  have hne : ∀ b : UInt8, b.toNat ≠ 0 → b ≠ 0 := by
    rintro b hb rfl
    exact hb rfl
  rcases encode_cases c with ⟨b, heq, -, hb⟩ | ⟨b, t, heq, -, -, hb, -⟩ |
    ⟨b, t₁, t₂, heq, -, -, hb, -⟩ | ⟨b, t₁, t₂, t₃, heq, -, hb, -⟩
  · exact ⟨b, _, heq, hne b (by omega)⟩
  · exact ⟨b, _, heq, hne b (by omega)⟩
  · exact ⟨b, _, heq, hne b (by omega)⟩
  · exact ⟨b, _, heq, hne b (by omega)⟩

/-- The loop over well-formed text: one round for each of its characters. -/
theorem utf8Loop_encode {α : Type} {body : α → ℕ → Option α} {text : List Char}
    (h0 : '\x00' ∉ text) (l : Bytes) {n : ℕ} (hn : (encode text).length ≤ n) (hsize : n < 2 ^ 64)
    (a : α) :
    utf8Loop body (encode text ++ l) 0 n a =
      (text.foldlM (fun a c => body a c.toNat) a).bind fun a =>
        utf8Loop body l 0 (n - (encode text).length) a := by
  induction text generalizing n a with
  | nil => rfl
  | cons c text ih =>
    rw [List.mem_cons, not_or] at h0
    have hcons : encode (c :: text) = String.utf8EncodeChar c ++ encode text := List.flatMap_cons
    rw [hcons, List.length_append] at hn
    rw [hcons, List.append_assoc, List.foldlM_cons, List.length_append]
    have hdecode := lorieUtf8ToUCS4_encode c (encode text ++ l) (n := n) (by omega)
    obtain ⟨b, u, heq, hb⟩ := exists_lead (Ne.symm h0.1)
    rw [heq] at hdecode hn ⊢
    have hpos : n ≠ 0 := by
      rw [List.length_cons] at hn
      omega
    rw [utf8Loop_cons hb u _ hpos hdecode, Option.bind_eq_bind, Option.bind_assoc]
    refine Option.bind_congr fun a' _ => ?_
    rw [sizeSub_of_le (by omega) hsize, ih h0.2 (by omega) (by omega), Nat.sub_sub]

/-- The character of a byte in Latin-1. -/
def latin1Char (b : UInt8) : Char := Char.ofNat b.toNat

/-- The byte of a character in Latin-1, a question mark where there is none. -/
def latin1Byte (c : Char) : UInt8 := if 0xff < c.toNat then 63 else UInt8.ofNat c.toNat

theorem latin1Byte_ne_zero {c : Char} (hc : c ≠ '\x00') : latin1Byte c ≠ 0 := by
  have hpos : c.toNat ≠ 0 := fun h => hc (Char.toNat_inj.1 h)
  rw [latin1Byte]
  split_ifs with hlarge
  · decide
  · intro h
    have hval := congrArg UInt8.toNat h
    rw [UInt8.toNat_ofNat_of_lt' (show c.toNat < 256 by omega)] at hval
    exact hpos hval

theorem zero_notMem_latin1 {text : List Char} (h0 : '\x00' ∉ text) :
    (0 : UInt8) ∉ text.map latin1Byte := by
  intro h
  obtain ⟨c, hc, hzero⟩ := List.mem_map.1 h
  exact latin1Byte_ne_zero (fun h => h0 (h ▸ hc)) hzero

theorem foldlM_outputSize (text : List Char) (sz : ℕ) :
    text.foldlM (fun sz _ => some (sz + 1)) sz = some (sz + text.length) := by
  induction text generalizing sz with
  | nil => rfl
  | cons c text ih =>
    rw [List.foldlM_cons, Option.bind_eq_bind, Option.bind_some, ih, List.length_cons]
    congr 1
    omega

theorem foldlM_putLatin1 (text : List Char) (w : Bytes) (k : ℕ) :
    text.foldlM (fun a c => putLatin1 a c.toNat) (w ++ cleared (text.length + k), w.length) =
      some (w ++ text.map latin1Byte ++ cleared k, w.length + text.length) := by
  induction text generalizing w with
  | nil => simp
  | cons c text ih =>
    have hstore := store_cleared w (text.length + k) (latin1Byte c)
    have hput : putLatin1 (w ++ cleared (text.length + k + 1), w.length) c.toNat =
        some (w ++ [latin1Byte c] ++ cleared (text.length + k), (w ++ [latin1Byte c]).length) := by
      rw [List.length_append, List.length_singleton]
      exact congrArg (Option.bind · _) hstore
    rw [List.foldlM_cons, List.length_cons, Nat.add_right_comm, hput, Option.bind_eq_bind,
      Option.bind_some, ih]
    simp [Nat.add_comm, Nat.add_left_comm]

theorem outputSize_encode {text : List Char} (h0 : '\x00' ∉ text)
    (hlen : (encode text).length < 2 ^ 64) (r : Bytes) :
    outputSize (encode text ++ 0 :: r) = some text.length := by
  rw [outputSize, utf8Loop_encode h0 _ (by omega) (by norm_num), foldlM_outputSize,
    Option.bind_some, utf8Loop_stop, Nat.zero_add]

theorem convertInto_encode {text : List Char} (h0 : '\x00' ∉ text)
    (hlen : (encode text).length < 2 ^ 32) (r : Bytes) (k : ℕ) :
    convertInto (encode text ++ 0 :: r) (text.length + k) =
      some (text.map latin1Byte ++ cleared k, text.length) := by
  have hput := foldlM_putLatin1 text [] k
  rw [List.nil_append, List.nil_append, List.length_nil, Nat.zero_add] at hput
  rw [convertInto, utf8Loop_encode h0 _ (by omega) (by norm_num), hput, Option.bind_some,
    utf8Loop_stop]

/-- What is returned when the passes agree. -/
theorem lorieUtf8ToLatin1_eq {src w : Bytes} (hsize : outputSize src = some w.length)
    (hconvert : convertInto src (w.length + 1) = some (w ++ cleared 1, w.length))
    (h0 : (0 : UInt8) ∉ w) : lorieUtf8ToLatin1 src = some w := by
  simp only [lorieUtf8ToLatin1, hsize, hconvert, Option.bind_eq_bind, Option.bind_some,
    readString_append_cleared, cString_eq_self h0]

theorem lorieUtf8ToLatin1_map {text : List Char} (h0 : '\x00' ∉ text)
    (hlen : (encode text).length < 2 ^ 32) (r : Bytes) :
    lorieUtf8ToLatin1 (encode text ++ 0 :: r) = some (text.map latin1Byte) := by
  refine lorieUtf8ToLatin1_eq ?_ ?_ (zero_notMem_latin1 h0)
  · rw [outputSize_encode h0 (by omega), List.length_map]
  · rw [List.length_map]
    exact convertInto_encode h0 hlen r 1

/-! ### From Latin-1 and back -/

theorem utf8EncodeChar_latin1Char (b : UInt8) :
    String.utf8EncodeChar (latin1Char b) =
      if b < 128 then [b]
      else [0xc2 + if 0xbf < b then 1 else 0, (b &&& 0x3f) + 0x80] := by
  revert b
  refine forall_byte ?_
  decide +kernel

theorem latin1Byte_latin1Char (b : UInt8) : latin1Byte (latin1Char b) = b := by
  revert b
  refine forall_byte ?_
  decide +kernel

theorem latin1Char_ne_zero {b : UInt8} (hb : b ≠ 0) : latin1Char b ≠ '\x00' := by
  intro h
  have hb' := congrArg latin1Byte h
  rw [latin1Byte_latin1Char] at hb'
  exact hb hb'

theorem latin1ToUTF8_eq (out : Bytes) (j : ℕ) (inp : Bytes) (i : ℕ) :
    latin1ToUTF8 out j inp i =
      (load inp i).bind fun c =>
        if c = 0 then some out
        else if c < 128 then (store out j c).bind fun out => latin1ToUTF8 out (j + 1) inp (i + 1)
        else (store out j (0xc2 + if 0xbf < c then 1 else 0)).bind fun out =>
          (store out (j + 1) ((c &&& 0x3f) + 0x80)).bind fun out =>
            latin1ToUTF8 out (j + 2) inp (i + 1) := by
  rw [latin1ToUTF8]
  cases load inp i with
  | none => rfl
  | some c => rfl

/-- The loop writes a byte that is not NUL as its character and goes on behind it. -/
theorem latin1ToUTF8_cons {b : UInt8} (hb : 0 ≠ b) (out : Bytes) (j : ℕ) (p bytes : Bytes) :
    latin1ToUTF8 out j (p ++ b :: bytes) p.length =
      if b < 128 then
        (store out j b).bind fun out =>
          latin1ToUTF8 out (j + 1) (p ++ [b] ++ bytes) (p ++ [b]).length
      else (store out j (0xc2 + if 0xbf < b then 1 else 0)).bind fun out =>
        (store out (j + 1) ((b &&& 0x3f) + 0x80)).bind fun out =>
          latin1ToUTF8 out (j + 2) (p ++ [b] ++ bytes) (p ++ [b]).length := by
  have hp : p ++ b :: bytes = p ++ [b] ++ bytes := List.append_cons p b bytes
  have hlength : p.length + 1 = (p ++ [b]).length := by
    rw [List.length_append, List.length_singleton]
  rw [latin1ToUTF8_eq, load_append, Option.bind_some, if_neg hb.symm, hp, hlength]

theorem encode_map_latin1Char_cons (b : UInt8) (bytes : Bytes) :
    encode ((b :: bytes).map latin1Char) =
      String.utf8EncodeChar (latin1Char b) ++ encode (bytes.map latin1Char) := rfl

/-- The loop of `lorieLatin1ToUTF8` writes the characters of the bytes up to the NUL. -/
theorem latin1ToUTF8_append {bytes : Bytes} (h0 : (0 : UInt8) ∉ bytes) (w p r : Bytes) (k : ℕ) :
    latin1ToUTF8 (w ++ cleared ((encode (bytes.map latin1Char)).length + k)) w.length
        (p ++ (bytes ++ 0 :: r)) p.length =
      some (w ++ encode (bytes.map latin1Char) ++ cleared k) := by
  induction bytes generalizing w p with
  | nil =>
    rw [latin1ToUTF8_eq, List.nil_append, load_append, Option.bind_some, if_pos rfl]
    simp [encode]
  | cons b bytes ih =>
    rw [List.mem_cons, not_or] at h0
    rw [List.cons_append, latin1ToUTF8_cons h0.1, encode_map_latin1Char_cons,
      utf8EncodeChar_latin1Char]
    by_cases hb : b < 128
    · have hsize : ([b] ++ encode (bytes.map latin1Char)).length + k =
          (encode (bytes.map latin1Char)).length + k + 1 := by
        rw [List.length_append, List.length_singleton]
        omega
      have hrest := ih h0.2 (w ++ [b]) (p ++ [b])
      rw [List.length_append] at hrest
      rw [if_pos hb, if_pos hb, hsize, store_cleared, Option.bind_some, ← List.append_assoc w]
      exact hrest
    · set b₁ : UInt8 := 0xc2 + if 0xbf < b then 1 else 0
      set b₂ : UInt8 := (b &&& 0x3f) + 0x80
      have hsize : ([b₁, b₂] ++ encode (bytes.map latin1Char)).length + k =
          (encode (bytes.map latin1Char)).length + k + 1 + 1 := by
        rw [List.length_append]
        show 2 + _ + k = _
        omega
      have hstore := store_cleared (w ++ [b₁]) ((encode (bytes.map latin1Char)).length + k) b₂
      have hrest := ih h0.2 (w ++ [b₁] ++ [b₂]) (p ++ [b])
      rw [List.length_append, List.length_singleton] at hstore
      rw [List.length_append, List.length_append] at hrest
      rw [if_neg hb, if_neg hb, hsize, store_cleared, Option.bind_some, hstore, Option.bind_some]
      simpa using hrest

/-- `lorieLatin1ToUTF8` stays in an output that has room. -/
theorem lorieLatin1ToUTF8_eq {bytes : Bytes} (h0 : (0 : UInt8) ∉ bytes) (r : Bytes) {size : ℕ}
    (hsize : (encode (bytes.map latin1Char)).length ≤ size) :
    lorieLatin1ToUTF8 (cleared size) (bytes ++ 0 :: r) =
      some (encode (bytes.map latin1Char) ++
        cleared (size - (encode (bytes.map latin1Char)).length)) := by
  have h := latin1ToUTF8_append h0 [] [] r (size - (encode (bytes.map latin1Char)).length)
  rw [List.nil_append, Nat.add_sub_of_le hsize] at h
  exact h

/-- The characters of the bytes up to the NUL have room where the loop comes to its end. -/
theorem length_encode_le_of_latin1ToUTF8 {bytes : Bytes} (h0 : (0 : UInt8) ∉ bytes)
    {out out' : Bytes} {j : ℕ} (hj : j ≤ out.length) (p r : Bytes)
    (h : latin1ToUTF8 out j (p ++ (bytes ++ 0 :: r)) p.length = some out') :
    j + (encode (bytes.map latin1Char)).length ≤ out.length := by
  induction bytes generalizing out j p with
  | nil => exact hj
  | cons b bytes ih =>
    rw [List.mem_cons, not_or] at h0
    rw [List.cons_append, latin1ToUTF8_cons h0.1] at h
    rw [encode_map_latin1Char_cons, utf8EncodeChar_latin1Char, List.length_append,
      ← Nat.add_assoc]
    by_cases hb : b < 128
    · rw [if_pos hb] at h ⊢
      obtain ⟨out₁, hstore, h⟩ := Option.bind_eq_some_iff.1 h
      obtain ⟨hlt, rfl⟩ := store_eq_some_iff.1 hstore
      have hrest := ih h0.2 (by rw [List.length_set]; exact hlt) (p ++ [b]) h
      rwa [List.length_set] at hrest
    · rw [if_neg hb] at h ⊢
      obtain ⟨out₁, hstore, h⟩ := Option.bind_eq_some_iff.1 h
      obtain ⟨-, rfl⟩ := store_eq_some_iff.1 hstore
      obtain ⟨out₂, hstore', h⟩ := Option.bind_eq_some_iff.1 h
      obtain ⟨hlt, rfl⟩ := store_eq_some_iff.1 hstore'
      rw [List.length_set] at hlt
      have hrest := ih h0.2 (by rw [List.length_set, List.length_set]; exact hlt) (p ++ [b]) h
      rwa [List.length_set, List.length_set] at hrest

theorem zero_notMem_map_latin1Char {bytes : Bytes} (h0 : (0 : UInt8) ∉ bytes) :
    '\x00' ∉ bytes.map latin1Char := by
  intro h
  obtain ⟨b, hb, hzero⟩ := List.mem_map.1 h
  exact latin1Char_ne_zero (fun h => h0 (h ▸ hb)) hzero

theorem map_latin1Byte_latin1Char (bytes : Bytes) :
    (bytes.map latin1Char).map latin1Byte = bytes := by
  rw [List.map_map]
  refine (List.map_congr_left fun b _ => latin1Byte_latin1Char b).trans (List.map_id _)

theorem length_encode_replicate (n : ℕ) : (encode (List.replicate n 'a')).length = n := by
  induction n with
  | zero => rfl
  | succ n ih =>
    have hcons : encode (List.replicate (n + 1) 'a') = [97] ++ encode (List.replicate n 'a') := rfl
    rw [hcons, List.length_append, ih, List.length_singleton, Nat.add_comm]

/-- The second pass leaves off where its bytes are spent. -/
theorem convertInto_replicate {n : ℕ} (hn : 4294967295 < n) :
    ∃ out, convertInto (encode (List.replicate n 'a') ++ [0]) (n + 1) =
      some (out, 4294967295) := by
  obtain ⟨N, hN⟩ : ∃ N, N = 4294967295 := ⟨_, rfl⟩
  rw [← hN] at hn
  obtain ⟨k, rfl⟩ := Nat.exists_eq_add_of_le hn.le
  have hsplit : encode (List.replicate (N + k) 'a') ++ [0] =
      encode (List.replicate N 'a') ++ (encode (List.replicate k 'a') ++ [0]) := by
    rw [List.replicate_add, encode, List.flatMap_append, List.append_assoc]
    rfl
  have h0 : '\x00' ∉ List.replicate N 'a' := fun h => by cases List.eq_of_mem_replicate h
  have hput := foldlM_putLatin1 (List.replicate N 'a') [] (k + 1)
  rw [List.length_replicate, List.length_nil, List.nil_append, Nat.zero_add] at hput
  have hlength := length_encode_replicate N
  rw [convertInto, ← hN, hsplit, utf8Loop_encode h0 _ hlength.le (by omega), Nat.add_assoc, hput,
    Option.bind_some, hlength, Nat.sub_self, utf8Loop_eq, if_pos rfl]
  exact ⟨_, rfl⟩

/-- Both passes go through the text, and what is returned are its characters in Latin-1. -/
def Converted (text : List Char) : Prop :=
  ∀ r, outputSize (encode text ++ 0 :: r) = some text.length ∧
    (∃ out, convertInto (encode text ++ 0 :: r) (text.length + 1) = some (out, text.length)) ∧
    lorieUtf8ToLatin1 (encode text ++ 0 :: r) = some (text.map latin1Byte)

/-- **The conversion to Latin-1 is right for every text below four gigabytes**, and gives back the
bytes that the conversion from Latin-1 has encoded. -/
theorem converted_and_inverse :
    (∀ text, '\x00' ∉ text → (encode text).length < 2 ^ 32 → Converted text) ∧
      ∀ bytes r : Bytes, (0 : UInt8) ∉ bytes → (encode (bytes.map latin1Char)).length < 2 ^ 32 →
        ∀ size, (encode (bytes.map latin1Char)).length < size →
          ∃ utf8, lorieLatin1ToUTF8 (cleared size) (bytes ++ 0 :: r) = some utf8 ∧
            lorieUtf8ToLatin1 utf8 = some bytes := by
  constructor
  · intro text h0 hlen r
    exact ⟨outputSize_encode h0 (by omega) r, ⟨_, convertInto_encode h0 hlen r 1⟩,
      lorieUtf8ToLatin1_map h0 hlen r⟩
  · intro bytes r h0 hlen size hsize
    obtain ⟨k, rfl⟩ := Nat.exists_eq_add_of_lt hsize
    refine ⟨_, lorieLatin1ToUTF8_eq h0 r hsize.le, ?_⟩
    rw [Nat.add_assoc, Nat.add_sub_cancel_left, cleared, List.replicate_succ,
      lorieUtf8ToLatin1_map (zero_notMem_map_latin1Char h0) hlen, map_latin1Byte_latin1Char]

/-- A letter, an accented letter and the euro sign; and the bytes of a short word. -/
theorem converted_and_inverse_short :
    Converted ['a', 'é', '€'] ∧
      ∃ utf8, lorieLatin1ToUTF8 (cleared 9) ([233, 116, 233] ++ [0]) = some utf8 ∧
        lorieUtf8ToLatin1 utf8 = some [233, 116, 233] :=
  ⟨converted_and_inverse.1 _ (by decide) (by decide),
    converted_and_inverse.2 _ [] (by decide) (by decide) 9 (by decide)⟩

/-- Four gigabytes of one letter are cut short by the second pass. -/
theorem not_converted_long : ¬ Converted (List.replicate (2 ^ 32) 'a') := by
  intro h
  obtain ⟨-, ⟨out, hout⟩, -⟩ := h []
  obtain ⟨out', hout'⟩ := convertInto_replicate (n := 2 ^ 32) (by norm_num)
  rw [List.length_replicate, hout'] at hout
  have hposition := congrArg Prod.snd (Option.some.inj hout)
  norm_num at hposition

/-! ### Text that is cut -/

/-- The number of continuation bytes that a lead byte calls for. -/
def tailCount (b : UInt8) : Option ℕ :=
  if b.toNat < 0x80 then some 0
  else if 0xc0 ≤ b.toNat ∧ b.toNat < 0xe0 then some 1
  else if 0xe0 ≤ b.toNat ∧ b.toNat < 0xf0 then some 2
  else if 0xf0 ≤ b.toNat ∧ b.toNat < 0xf8 then some 3
  else none

/-- The number of continuation bytes at the beginning, of which `n` may be looked at. -/
def tails (n : ℕ) (s : Bytes) : ℕ := ((s.take n).takeWhile fun b => decide (IsTail b)).length

/-- The number of bytes that make a character by the masks, where `n` may be looked at: a lead byte
with the continuation bytes it calls for; with those there are and one byte more, if they are too
few; or a byte that begins nothing, with the continuation bytes behind it. -/
def span (n : ℕ) : Bytes → ℕ
  | [] => 0
  | b :: s =>
    match tailCount b with
    | some k => if k ≤ tails (n - 1) s then k + 1 else tails (n - 1) s + 2
    | none => tails (n - 1) s + 1

/-- Taken apart by the masks, with `n` bytes that may be looked at, the text ends in a whole
character: the byte that is taken for one more of the last character is not the NUL, unless the
bytes are spent there. -/
inductive Uncut : ℕ → Bytes → Prop
  | nil (n : ℕ) : Uncut n []
  | spent (s : Bytes) : Uncut 0 s
  | last {n : ℕ} {s : Bytes} (h : sizeSub n (span n s) = 0) : Uncut n s
  | next {n : ℕ} {s : Bytes} (hspan : span n s ≤ s.length)
      (h : Uncut (sizeSub n (span n s)) (s.drop (span n s))) : Uncut n s

theorem tails_zero (s : Bytes) : tails 0 s = 0 := by rw [tails, List.take_zero]; rfl

theorem tails_nil (n : ℕ) : tails n [] = 0 := by rw [tails, List.take_nil]; rfl

theorem tails_cons_of_tail {b : UInt8} (hb : IsTail b) (n : ℕ) (s : Bytes) :
    tails (n + 1) (b :: s) = tails n s + 1 := by
  rw [tails, List.take_succ_cons, List.takeWhile_cons_of_pos (by simpa using hb)]
  rfl

theorem tails_cons_of_not_tail {b : UInt8} (hb : ¬ IsTail b) (n : ℕ) (s : Bytes) :
    tails (n + 1) (b :: s) = 0 := by
  rw [tails, List.take_succ_cons, List.takeWhile_cons_of_neg (by simpa using hb)]
  rfl

theorem skipTails_eq (s : Bytes) (max consumed : ℕ) :
    skipTails (s ++ [0]) max 0 consumed = some (consumed + tails max s) := by
  induction max generalizing s consumed with
  | zero => rw [skipTails, tails_zero, Nat.add_zero]
  | succ max ih =>
    cases s with
    | nil => rfl
    | cons b s =>
      have hload : load (b :: s ++ [0]) 0 = some b := rfl
      rw [skipTails, hload, Option.bind_eq_bind, Option.bind_some]
      by_cases hb : IsTail b
      · have hnext : skipTails (b :: s ++ [0]) max (0 + 1) (consumed + 1) =
            skipTails (s ++ [0]) max 0 (consumed + 1) := skipTails_append [b] (s ++ [0]) max 0 _
        rw [if_pos hb, hnext, ih, tails_cons_of_tail hb, Nat.add_right_comm, Nat.add_assoc]
      · rw [if_neg hb, tails_cons_of_not_tail hb, Nat.add_zero]

theorem takeTails_eq (s : Bytes) (count max consumed dst : ℕ) :
    ∃ ucs, takeTails (s ++ [0]) count 0 max consumed dst =
      some (consumed + if count ≤ tails max s then count else tails max s + 1, ucs) := by
  induction count generalizing s max consumed dst with
  | zero => exact ⟨_, rfl⟩
  | succ count ih =>
    cases max with
    | zero => exact ⟨_, by rw [tails_zero]; rfl⟩
    | succ max =>
      cases s with
      | nil => exact ⟨_, by rw [tails_nil]; rfl⟩
      | cons b s =>
        by_cases hb : IsTail b
        · obtain ⟨ucs, hucs⟩ := ih s max (consumed + 1) (dst * 64 + b.toNat % 64)
          refine ⟨ucs, ?_⟩
          rw [List.cons_append, takeTails_cons hb, hucs, tails_cons_of_tail hb]
          simp only [Nat.add_le_add_iff_right]
          split_ifs
          · rw [Nat.add_assoc, Nat.add_comm 1]
          · rw [Nat.add_assoc, Nat.add_comm 1]
        · have hload : load (b :: s ++ [0]) 0 = some b := rfl
          rw [takeTails, if_neg (Nat.succ_ne_zero max), hload, Option.bind_eq_bind,
            Option.bind_some, if_pos hb, tails_cons_of_not_tail hb]
          exact ⟨_, rfl⟩

/-- What is consumed of a string. -/
theorem lorieUtf8ToUCS4_span (b : UInt8) (s : Bytes) (max : ℕ) :
    ∃ ucs, lorieUtf8ToUCS4 (b :: s ++ [0]) 0 (max + 1) = some (span (max + 1) (b :: s), ucs) := by
  rw [List.cons_append, lorieUtf8ToUCS4_cons, span, tailCount, Nat.add_sub_cancel]
  have htake : ∀ count dst, ∃ ucs, takeTails (s ++ [0]) count 0 max 1 dst =
      some (if count ≤ tails max s then count + 1 else tails max s + 2, ucs) := by
    intro count dst
    obtain ⟨ucs, hucs⟩ := takeTails_eq s count max 1 dst
    refine ⟨ucs, ?_⟩
    rw [hucs]
    split_ifs
    · rw [Nat.add_comm]
    · rw [Nat.add_comm]
  split_ifs
  · exact htake 0 _
  · exact htake 1 _
  · exact htake 2 _
  · exact htake 3 _
  · rw [skipTails_eq, Nat.add_comm]
    exact ⟨_, rfl⟩

theorem span_pos (n : ℕ) (b : UInt8) (s : Bytes) : 0 < span n (b :: s) := by
  rw [span]
  split
  · split_ifs
    · exact Nat.succ_pos _
    · exact Nat.succ_pos _
  · exact Nat.succ_pos _

/-- One round of the loop at the beginning of a string. -/
theorem utf8Loop_span {α : Type} {body : α → ℕ → Option α} {b : UInt8} (hb : b ≠ 0) (s : Bytes)
    (n : ℕ) :
    ∃ ucs, ∀ a, utf8Loop body (b :: s ++ [0]) 0 (n + 1) a =
      (body a ucs).bind (utf8Loop body (b :: s ++ [0]) (span (n + 1) (b :: s))
        (sizeSub (n + 1) (span (n + 1) (b :: s)))) := by
  obtain ⟨ucs, hucs⟩ := lorieUtf8ToUCS4_span b s n
  have hload : load (b :: s ++ [0]) 0 = some b := rfl
  refine ⟨ucs, fun a => ?_⟩
  rw [utf8Loop_eq, if_neg n.succ_ne_zero, hload, Option.bind_some, if_neg hb, hucs,
    Option.bind_some, Nat.zero_add]

/-- One character of a text. -/
theorem uncut_cons_iff (n : ℕ) (b : UInt8) (s : Bytes) :
    Uncut (n + 1) (b :: s) ↔
      if span (n + 1) (b :: s) ≤ (b :: s).length then
        Uncut (sizeSub (n + 1) (span (n + 1) (b :: s))) ((b :: s).drop (span (n + 1) (b :: s)))
      else sizeSub (n + 1) (span (n + 1) (b :: s)) = 0 := by
  constructor
  · intro h
    cases h with
    | last h =>
      rw [h]
      split_ifs
      · exact .spent _
      · rfl
    | next hspan h => rwa [if_pos hspan]
  · intro h
    split_ifs at h with hspan
    · exact .next hspan h
    · exact .last h

/-- With a body that does not fail, the loop stays inside the string if and only if the string is
not cut. -/
theorem utf8Loop_ne_none_iff {α : Type} {body : α → ℕ → Option α} {P : ℕ → α → Prop}
    (hbody : ∀ j a ucs, P (j + 1) a → ∃ a', body a ucs = some a' ∧ P j a') {s : Bytes}
    (h0 : (0 : UInt8) ∉ s) (n : ℕ) {j : ℕ} {a : α} (ha : P j a) (hj : s.length ≤ j) :
    utf8Loop body (s ++ [0]) 0 n a ≠ none ↔ Uncut n s := by
  induction hlength : s.length using Nat.strong_induction_on generalizing s n j a with
  | _ len ih =>
  subst hlength
  cases s with
  | nil =>
    rw [List.nil_append, utf8Loop_stop]
    exact iff_of_true nofun (.nil n)
  | cons b s =>
    cases n with
    | zero =>
      rw [utf8Loop_eq, if_pos rfl]
      exact iff_of_true nofun (.spent _)
    | succ n =>
      have hb : b ≠ 0 := fun h => h0 (h ▸ List.mem_cons_self)
      have hpos := span_pos (n + 1) b s
      obtain ⟨ucs, hround⟩ := @utf8Loop_span _ body b hb s n
      obtain ⟨j, rfl⟩ := Nat.exists_eq_add_of_le' ((Nat.succ_pos _).trans_le hj)
      obtain ⟨a', ha', hP⟩ := hbody j a ucs ha
      rw [hround, ha', Option.bind_some, uncut_cons_iff]
      split_ifs with hspan
      · rw [utf8Loop_drop hspan]
        have hshort : ((b :: s).drop (span (n + 1) (b :: s))).length < (b :: s).length := by
          rw [List.length_drop]
          omega
        exact ih _ hshort (fun h => h0 (List.mem_of_mem_drop h)) _ hP
          (Nat.le_of_lt_succ (hshort.trans_le hj)) rfl
      · exact utf8Loop_behind (not_le.1 hspan) _ a'

/-- Neither pass looks at a byte behind the NUL, where the second has room to write a character for
each byte. -/
def ReadsInside (s : Bytes) : Prop :=
  outputSize (s ++ [0]) ≠ none ∧ convertInto (s ++ [0]) s.length ≠ none

/-- **The conversion stays inside its input exactly where the text is not cut**, in either pass. -/
theorem readsInside_iff {s : Bytes} (h0 : (0 : UInt8) ∉ s) :
    ReadsInside s ↔ Uncut (2 ^ 64 - 1) s ∧ Uncut 4294967295 s := by
  have hput : ∀ (j : ℕ) (a : Bytes × ℕ) (ucs : ℕ), a.2 + (j + 1) ≤ a.1.length →
      ∃ a', putLatin1 a ucs = some a' ∧ a'.2 + j ≤ a'.1.length := by
    intro j a ucs ha
    rw [putLatin1, store, if_pos (by omega)]
    refine ⟨_, rfl, ?_⟩
    rw [List.length_set]
    omega
  refine and_congr ?_ ?_
  · exact utf8Loop_ne_none_iff (P := fun _ _ => True) (fun _ sz _ _ => ⟨sz + 1, rfl, trivial⟩) h0 _
      trivial le_rfl
  · refine utf8Loop_ne_none_iff (P := fun j a => a.2 + j ≤ a.1.length) hput h0 _ ?_ le_rfl
    rw [cleared, List.length_replicate, Nat.zero_add]

/-- The word `été`, which is not cut. -/
theorem readsInside_word : ReadsInside [195, 169, 116, 195, 169] := by
  refine (readsInside_iff (by decide)).2 ⟨?_, ?_⟩
  · refine .next (by decide) (.next (by decide) (.next (by decide) (.nil _)))
  · refine .next (by decide) (.next (by decide) (.next (by decide) (.nil _)))

/-- The lead byte of a sequence whose rest is missing. -/
theorem readsOutside_lead : ¬ ReadsInside [195] := by
  rintro ⟨hsize, -⟩
  have hdecode : lorieUtf8ToUCS4 ([195] ++ [0]) 0 (2 ^ 64 - 1) = some (2, 0xfffd) := by
    decide +kernel
  have hload : load ([195] ++ [0]) 0 = some 195 := rfl
  have hbehind : load ([195] ++ [0]) (0 + 2) = none := rfl
  have hspent : sizeSub (2 ^ 64 - 1) 2 ≠ 0 := by decide +kernel
  refine hsize ?_
  rw [outputSize, utf8Loop_eq, if_neg (by norm_num), hload, Option.bind_some, if_neg (by decide),
    hdecode, Option.bind_some, Option.bind_some, utf8Loop_eq, if_neg hspent, hbehind]
  rfl

end TermuxX11.Server
