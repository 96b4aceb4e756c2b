import TermuxX11.Lib.Memory
import TermuxX11.Lib.Utf8
import TermuxX11.Lib.Words

/-!
# The check of a clipboard text

`lorieCheckUTF8` decides which text of the clipboard is passed on as UTF-8.  It goes through the
text by the masks of its lead bytes, and looks at the byte behind the text before it compares the
index with the size.

The memory is the text with what follows it; what is looked at beyond that is undefined.  The index
is an `int`, so no byte from `2 ^ 31` on can be looked at.
-/

namespace TermuxX11.Server

open ByteCoding CMemory Utf8 Words

/-- The loop of `lorieCheckUTF8`, from the index `ix`. -/
def checkFrom (utf : Bytes) (size ix : ℕ) : Option ℕ := do
  let c ← load utf ix
  if h : c ≠ 0 ∧ ix < size then
    if c &&& 0x80 ≠ 0 then
      let b₁ ← load utf (ix + 1)
      if b₁ &&& 0xc0 ≠ 0x80 then some 0
      else if c &&& 0xe0 = 0xe0 then
        let b₂ ← load utf (ix + 2)
        if b₂ &&& 0xc0 ≠ 0x80 then some 0
        else if c &&& 0xf0 = 0xf0 then
          if c &&& 0xf8 ≠ 0xf0 then some 0
          else
            let b₃ ← load utf (ix + 3)
            if b₃ &&& 0xc0 ≠ 0x80 then some 0
            else checkFrom utf size (ix + 4)
        else checkFrom utf size (ix + 3)
      else checkFrom utf size (ix + 2)
    else checkFrom utf size (ix + 1)
  else some 1
termination_by size - ix

/-- `lorieCheckUTF8`. -/
def lorieCheckUTF8 (utf : Bytes) (size : ℕ) : Option ℕ := checkFrom (utf.take (2 ^ 31)) size 0

/-! ### Sequences by the masks -/

/-- What the masks take for one character. -/
inductive Sequence : Bytes → Prop
  | one {c : UInt8} (hc : 0 < c.toNat ∧ c.toNat < 0x80) : Sequence [c]
  | two {c b₁ : UInt8} (hc : 0x80 ≤ c.toNat ∧ c.toNat < 0xe0) (h₁ : IsTail b₁) : Sequence [c, b₁]
  | three {c b₁ b₂ : UInt8} (hc : 0xe0 ≤ c.toNat ∧ c.toNat < 0xf0) (h₁ : IsTail b₁)
      (h₂ : IsTail b₂) : Sequence [c, b₁, b₂]
  | four {c b₁ b₂ b₃ : UInt8} (hc : 0xf0 ≤ c.toNat ∧ c.toNat < 0xf8) (h₁ : IsTail b₁)
      (h₂ : IsTail b₂) (h₃ : IsTail b₃) : Sequence [c, b₁, b₂, b₃]

/-- A beginning that the masks refuse. -/
inductive Broken : Bytes → Prop
  | second {c b₁ : UInt8} {r : Bytes} (hc : 0x80 ≤ c.toNat) (h₁ : ¬ IsTail b₁) :
      Broken (c :: b₁ :: r)
  | third {c b₁ b₂ : UInt8} {r : Bytes} (hc : 0xe0 ≤ c.toNat) (h₁ : IsTail b₁)
      (h₂ : ¬ IsTail b₂) : Broken (c :: b₁ :: b₂ :: r)
  | lead {c b₁ b₂ : UInt8} {r : Bytes} (hc : 0xf8 ≤ c.toNat) (h₁ : IsTail b₁) (h₂ : IsTail b₂) :
      Broken (c :: b₁ :: b₂ :: r)
  | fourth {c b₁ b₂ b₃ : UInt8} {r : Bytes} (hc : 0xf0 ≤ c.toNat ∧ c.toNat < 0xf8)
      (h₁ : IsTail b₁) (h₂ : IsTail b₂) (h₃ : ¬ IsTail b₃) : Broken (c :: b₁ :: b₂ :: b₃ :: r)

/-- A beginning on which the masks have not decided. -/
inductive Pending : Bytes → Prop
  | nil : Pending []
  | one {c : UInt8} (hc : 0x80 ≤ c.toNat) : Pending [c]
  | two {c b₁ : UInt8} (hc : 0xe0 ≤ c.toNat) (h₁ : IsTail b₁) : Pending [c, b₁]
  | three {c b₁ b₂ : UInt8} (hc : 0xf0 ≤ c.toNat ∧ c.toNat < 0xf8) (h₁ : IsTail b₁)
      (h₂ : IsTail b₂) : Pending [c, b₁, b₂]

theorem sequence_prefixFree : PrefixFree {u | Sequence u} := by
  refine ⟨nofun, ?_⟩
  intro u v x y hu hv heq
  cases hu <;> cases hv <;>
    simp only [List.cons_append, List.nil_append, List.cons.injEq] at heq <;>
    obtain ⟨rfl, heq⟩ := heq <;> first | omega | simp_all

/-- How the loop ends at the index `n`, where the rest of the memory is `r`. -/
inductive Outcome (size n : ℕ) : Bytes → Option ℕ → Prop
  | accepted {c : UInt8} {r : Bytes} (h : c = 0 ∨ size ≤ n) : Outcome size n (c :: r) (some 1)
  | refused {r : Bytes} (h : n < size) (hr : Broken r) : Outcome size n r (some 0)
  | outside {r : Bytes} (h : r = [] ∨ n < size) (hr : Pending r) : Outcome size n r none

/-- The loop has gone through a row of sequences, each of which begins before the end of the
text. -/
structure Walk (size n : ℕ) (l : Bytes) (result : Option ℕ) (us : List Bytes) (r : Bytes) :
    Prop where
  row : Row {u | Sequence u} us
  eq : l = us.flatten ++ r
  lt : ∀ vs w, vs ++ [w] <+: us → n + vs.flatten.length < size
  outcome : Outcome size (n + us.flatten.length) r result

theorem Walk.stop {size n : ℕ} {r : Bytes} {result : Option ℕ} (h : Outcome size n r result) :
    Walk size n r result [] r :=
  ⟨row_nil, rfl, by simp, h⟩

theorem Walk.cons {size n : ℕ} {u l r : Bytes} {us : List Bytes} {result : Option ℕ}
    (hu : Sequence u) (hn : n < size) (h : Walk size (n + u.length) l result us r) :
    Walk size n (u ++ l) result (u :: us) r := by
  refine ⟨h.row.cons hu, ?_, fun vs w hvs => ?_, ?_⟩
  · rw [h.eq, List.flatten_cons, List.append_assoc]
  · cases vs with
    | nil => exact hn
    | cons v vs =>
      obtain ⟨rfl, hbegins⟩ := List.cons_prefix_cons.1 hvs
      rw [List.flatten_cons, List.length_append, ← Nat.add_assoc]
      exact h.lt vs w hbegins
  · rw [List.flatten_cons, List.length_append, ← Nat.add_assoc]
    exact h.outcome

/-- One round of the loop, by the bytes from the index on. -/
theorem checkFrom_eq (size : ℕ) (p l : Bytes) :
    checkFrom (p ++ l) size p.length =
      l[0]?.bind fun c =>
        if c ≠ 0 ∧ p.length < size then
          if ¬ c.toNat < 0x80 then
            l[1]?.bind fun b₁ =>
              if ¬ IsTail b₁ then some 0
              else if 0xe0 ≤ c.toNat then
                l[2]?.bind fun b₂ =>
                  if ¬ IsTail b₂ then some 0
                  else if 0xf0 ≤ c.toNat then
                    if ¬ (0xf0 ≤ c.toNat ∧ c.toNat < 0xf8) then some 0
                    else
                      l[3]?.bind fun b₃ =>
                        if ¬ IsTail b₃ then some 0 else checkFrom (p ++ l) size (p.length + 4)
                  else checkFrom (p ++ l) size (p.length + 3)
              else checkFrom (p ++ l) size (p.length + 2)
          else checkFrom (p ++ l) size (p.length + 1)
        else some 1 := by
  have h₀ : load (p ++ l) p.length = l[0]? := load_add p l 0
  have h₁ : load (p ++ l) (p.length + 1) = l[1]? := load_add p l 1
  have h₂ : load (p ++ l) (p.length + 2) = l[2]? := load_add p l 2
  have h₃ : load (p ++ l) (p.length + 3) = l[3]? := load_add p l 3
  rw [checkFrom, h₀, h₁, h₂, h₃]
  simp only [Option.bind_eq_bind, dite_eq_ite, ne_eq, and_80_iff, and_e0_eq_self_iff,
    and_f0_eq_self_iff, and_f8_iff]

theorem ne_zero_of_toNat_pos {c : UInt8} (h : 0 < c.toNat) : c ≠ 0 := by
  rintro rfl
  exact h.ne rfl

/-- The index goes on behind a sequence. -/
theorem checkFrom_sequence {u : Bytes} (hu : Sequence u) (p r : Bytes) {size : ℕ}
    (hlt : p.length < size) :
    checkFrom (p ++ (u ++ r)) size p.length =
      checkFrom (p ++ (u ++ r)) size (p.length + u.length) := by
  rw [checkFrom_eq]
  cases hu with
  | @one c hc =>
    have h0 : c ≠ 0 := ne_zero_of_toNat_pos hc.1
    rw [List.singleton_append, List.getElem?_cons_zero, Option.bind_some, if_pos ⟨h0, hlt⟩,
      if_neg (not_not.2 hc.2)]
    rfl
  | @two c b₁ hc h₁ =>
    have h0 : c ≠ 0 := ne_zero_of_toNat_pos (by omega)
    simp only [List.cons_append, List.nil_append, List.getElem?_cons_zero,
      List.getElem?_cons_succ, Option.bind_some]
    rw [if_pos ⟨h0, hlt⟩, if_pos hc.1.not_gt, if_neg (not_not.2 h₁), if_neg hc.2.not_ge]
    rfl
  | @three c b₁ b₂ hc h₁ h₂ =>
    have h0 : c ≠ 0 := ne_zero_of_toNat_pos (by omega)
    simp only [List.cons_append, List.nil_append, List.getElem?_cons_zero,
      List.getElem?_cons_succ, Option.bind_some]
    rw [if_pos ⟨h0, hlt⟩, if_pos (by omega), if_neg (not_not.2 h₁), if_pos hc.1,
      if_neg (not_not.2 h₂), if_neg hc.2.not_ge]
    rfl
  | @four c b₁ b₂ b₃ hc h₁ h₂ h₃ =>
    have h0 : c ≠ 0 := ne_zero_of_toNat_pos (by omega)
    simp only [List.cons_append, List.nil_append, List.getElem?_cons_zero,
      List.getElem?_cons_succ, Option.bind_some]
    rw [if_pos ⟨h0, hlt⟩, if_pos (by omega), if_neg (not_not.2 h₁), if_pos (by omega),
      if_neg (not_not.2 h₂), if_pos hc.1, if_neg (not_not.2 hc), if_neg (not_not.2 h₃)]
    rfl

theorem checkFrom_broken {r : Bytes} (hr : Broken r) (p : Bytes) {size : ℕ}
    (hlt : p.length < size) : checkFrom (p ++ r) size p.length = some 0 := by
  rw [checkFrom_eq]
  cases hr with
  | @second c b₁ r hc h₁ =>
    have h0 : c ≠ 0 := ne_zero_of_toNat_pos (by omega)
    simp only [List.getElem?_cons_zero, List.getElem?_cons_succ, Option.bind_some]
    rw [if_pos ⟨h0, hlt⟩, if_pos hc.not_gt, if_pos h₁]
  | @third c b₁ b₂ r hc h₁ h₂ =>
    have h0 : c ≠ 0 := ne_zero_of_toNat_pos (by omega)
    simp only [List.getElem?_cons_zero, List.getElem?_cons_succ, Option.bind_some]
    rw [if_pos ⟨h0, hlt⟩, if_pos (by omega), if_neg (not_not.2 h₁), if_pos hc, if_pos h₂]
  | @lead c b₁ b₂ r hc h₁ h₂ =>
    have h0 : c ≠ 0 := ne_zero_of_toNat_pos (by omega)
    simp only [List.getElem?_cons_zero, List.getElem?_cons_succ, Option.bind_some]
    rw [if_pos ⟨h0, hlt⟩, if_pos (by omega), if_neg (not_not.2 h₁), if_pos (by omega),
      if_neg (not_not.2 h₂), if_pos (by omega), if_pos (by omega)]
  | @fourth c b₁ b₂ b₃ r hc h₁ h₂ h₃ =>
    have h0 : c ≠ 0 := ne_zero_of_toNat_pos (by omega)
    simp only [List.getElem?_cons_zero, List.getElem?_cons_succ, Option.bind_some]
    rw [if_pos ⟨h0, hlt⟩, if_pos (by omega), if_neg (not_not.2 h₁), if_pos (by omega),
      if_neg (not_not.2 h₂), if_pos hc.1, if_neg (not_not.2 hc), if_pos h₃]

theorem checkFrom_pending {r : Bytes} (hr : Pending r) (p : Bytes) {size : ℕ}
    (hlt : r = [] ∨ p.length < size) : checkFrom (p ++ r) size p.length = none := by
  rw [checkFrom_eq]
  cases hr with
  | nil => rfl
  | @one c hc =>
    have h0 : c ≠ 0 := ne_zero_of_toNat_pos (by omega)
    rw [List.getElem?_cons_zero, Option.bind_some,
      if_pos ⟨h0, hlt.resolve_left (List.cons_ne_nil _ _)⟩, if_pos hc.not_gt]
    rfl
  | @two c b₁ hc h₁ =>
    have h0 : c ≠ 0 := ne_zero_of_toNat_pos (by omega)
    simp only [List.getElem?_cons_zero, List.getElem?_cons_succ, Option.bind_some]
    rw [if_pos ⟨h0, hlt.resolve_left (List.cons_ne_nil _ _)⟩, if_pos (by omega),
      if_neg (not_not.2 h₁), if_pos hc]
    rfl
  | @three c b₁ b₂ hc h₁ h₂ =>
    have h0 : c ≠ 0 := ne_zero_of_toNat_pos (by omega)
    simp only [List.getElem?_cons_zero, List.getElem?_cons_succ, Option.bind_some]
    rw [if_pos ⟨h0, hlt.resolve_left (List.cons_ne_nil _ _)⟩, if_pos (by omega),
      if_neg (not_not.2 h₁), if_pos (by omega), if_neg (not_not.2 h₂), if_pos hc.1,
      if_neg (not_not.2 hc)]
    rfl

/-- What a row of bytes begins with. -/
theorem beginning_cases {l : Bytes} (h0 : l.head? ≠ some 0) :
    (∃ u r, Sequence u ∧ l = u ++ r) ∨ Broken l ∨ Pending l := by
  cases l with
  | nil => exact Or.inr (Or.inr .nil)
  | cons c l =>
    have hpos : 0 < c.toNat := by
      refine Nat.pos_of_ne_zero fun h => h0 ?_
      rw [List.head?_cons, UInt8.toNat_inj.1 (h.trans UInt8.toNat_zero.symm)]
    by_cases hc : c.toNat < 0x80
    · exact Or.inl ⟨[c], l, .one ⟨hpos, hc⟩, rfl⟩
    rw [not_lt] at hc
    cases l with
    | nil => exact Or.inr (Or.inr (.one hc))
    | cons b₁ l =>
      by_cases h₁ : IsTail b₁
      swap
      · exact Or.inr (Or.inl (.second hc h₁))
      by_cases he : c.toNat < 0xe0
      · exact Or.inl ⟨[c, b₁], l, .two ⟨hc, he⟩ h₁, rfl⟩
      rw [not_lt] at he
      cases l with
      | nil => exact Or.inr (Or.inr (.two he h₁))
      | cons b₂ l =>
        by_cases h₂ : IsTail b₂
        swap
        · exact Or.inr (Or.inl (.third he h₁ h₂))
        by_cases h8 : 0xf8 ≤ c.toNat
        · exact Or.inr (Or.inl (.lead h8 h₁ h₂))
        rw [not_le] at h8
        by_cases hf : c.toNat < 0xf0
        · exact Or.inl ⟨[c, b₁, b₂], l, .three ⟨he, hf⟩ h₁ h₂, rfl⟩
        rw [not_lt] at hf
        cases l with
        | nil => exact Or.inr (Or.inr (.three ⟨hf, h8⟩ h₁ h₂))
        | cons b₃ l =>
          by_cases h₃ : IsTail b₃
          · exact Or.inl ⟨[c, b₁, b₂, b₃], l, .four ⟨hf, h8⟩ h₁ h₂ h₃, rfl⟩
          · exact Or.inr (Or.inl (.fourth ⟨hf, h8⟩ h₁ h₂ h₃))

theorem checkFrom_accepted {c : UInt8} {size : ℕ} {p : Bytes} (h : c = 0 ∨ size ≤ p.length)
    (r : Bytes) : checkFrom (p ++ c :: r) size p.length = some 1 := by
  rw [checkFrom_eq, List.getElem?_cons_zero, Option.bind_some, if_neg]
  rintro ⟨h0, hlt⟩
  exact h.elim h0 hlt.not_ge

theorem checkFrom_walk (size : ℕ) (p l : Bytes) :
    ∃ us r, Walk size p.length l (checkFrom (p ++ l) size p.length) us r := by
  induction hn : l.length using Nat.strong_induction_on generalizing p l with
  | _ n ih =>
  subst hn
  cases l with
  | nil =>
    rw [checkFrom_pending .nil p (Or.inl rfl)]
    exact ⟨[], _, .stop (.outside (Or.inl rfl) .nil)⟩
  | cons c l =>
    by_cases hstop : c = 0 ∨ size ≤ p.length
    · rw [checkFrom_accepted hstop]
      exact ⟨[], _, .stop (.accepted hstop)⟩
    rw [not_or, not_le] at hstop
    have h0 : (c :: l).head? ≠ some 0 := fun h => hstop.1 (Option.some.inj h)
    rcases beginning_cases h0 with ⟨u, r, hu, heq⟩ | hbroken | hpending
    · -- a sequence, and the rest of the walk
      rw [heq] at ih ⊢
      have hlength : r.length < (u ++ r).length := by
        rw [List.length_append]
        exact Nat.lt_add_of_pos_left (sequence_prefixFree.length_pos hu)
      obtain ⟨us, r', h⟩ := ih r.length hlength (p ++ u) r rfl
      rw [List.append_assoc, List.length_append, ← checkFrom_sequence hu p r hstop.2] at h
      exact ⟨u :: us, r', h.cons hu hstop.2⟩
    · rw [checkFrom_broken hbroken p hstop.2]
      exact ⟨[], _, .stop (.refused hstop.2 hbroken)⟩
    · rw [checkFrom_pending hpending p (Or.inr hstop.2)]
      exact ⟨[], _, .stop (.outside (Or.inr hstop.2) hpending)⟩

theorem lorieCheckUTF8_walk (utf : Bytes) (size : ℕ) :
    ∃ us r, Walk size 0 (utf.take (2 ^ 31)) (lorieCheckUTF8 utf size) us r :=
  checkFrom_walk size [] (utf.take (2 ^ 31))

/-! ### What the masks decide -/

theorem Sequence.head_ne_zero {u r : Bytes} (h : Sequence u) : (u ++ r).head? ≠ some 0 := by
  intro h0
  cases h with
  | one hc | two hc | three hc | four hc =>
    obtain rfl := Option.some.inj h0
    exact absurd hc (by decide)

theorem Broken.head_ne_zero {r : Bytes} (h : Broken r) : r.head? ≠ some 0 := by
  intro h0
  cases h with
  | second hc | third hc | lead hc | fourth hc =>
    obtain rfl := Option.some.inj h0
    exact absurd hc (by decide)

theorem Pending.head_ne_zero {r : Bytes} (h : Pending r) : r.head? ≠ some 0 := by
  intro h0
  cases h with
  | nil => cases h0
  | one hc | two hc | three hc =>
    obtain rfl := Option.some.inj h0
    exact absurd hc (by decide)

theorem Broken.append {r : Bytes} (h : Broken r) (s : Bytes) : Broken (r ++ s) := by
  cases h with
  | second hc h₁ => exact .second hc h₁
  | third hc h₁ h₂ => exact .third hc h₁ h₂
  | lead hc h₁ h₂ => exact .lead hc h₁ h₂
  | fourth hc h₁ h₂ h₃ => exact .fourth hc h₁ h₂ h₃

/-- No sequence begins where the masks refuse. -/
theorem Broken.not_prefix {r : Bytes} (h : Broken r) : ∀ u, Sequence u → ¬ u <+: r := by
  rintro u hu ⟨s, rfl⟩
  cases hu with
  | one hc =>
    cases h with
    | second hc' | third hc' | lead hc' | fourth hc' => omega
  | two hc h₁ =>
    cases h with
    | second _ h₁' => exact h₁' h₁
    | third hc' | lead hc' | fourth hc' => omega
  | three hc h₁ h₂ =>
    cases h with
    | second _ h₁' => exact h₁' h₁
    | third _ _ h₂' => exact h₂' h₂
    | lead hc' | fourth hc' => omega
  | four hc h₁ h₂ h₃ =>
    cases h with
    | second _ h₁' => exact h₁' h₁
    | third _ _ h₂' => exact h₂' h₂
    | lead hc' => omega
    | fourth _ _ _ h₃' => exact h₃' h₃

/-- No sequence begins where the masks have not decided. -/
theorem Pending.not_prefix {r : Bytes} (h : Pending r) : ∀ u, Sequence u → ¬ u <+: r := by
  rintro u hu hbegins
  have hlength := hbegins.length_le
  obtain ⟨s, rfl⟩ := hbegins
  cases hu with
  | one hc =>
    cases h with
    | one hc' | two hc' | three hc' => omega
  | two hc =>
    cases h with
    | two hc' | three hc' => omega
  | three hc =>
    cases h with
    | three hc' => omega
  | four => cases h

theorem Pending.not_broken {r : Bytes} (h : Pending r) : ¬ Broken r := by
  intro hb
  cases h with
  | nil | one => cases hb
  | two hc h₁ =>
    cases hb with
    | second _ h₁' => exact h₁' h₁
  | three hc h₁ h₂ =>
    cases hb with
    | second _ h₁' => exact h₁' h₁
    | third _ _ h₂' => exact h₂' h₂
    | lead hc' => omega

/-- The walk comes to the end of the text, to a NUL or to what the masks refuse, at an index that
is an `int`, and the memory goes on there. -/
def Decided (bytes following : Bytes) : Prop :=
  ∃ us r, Row {u | Sequence u} us ∧ (bytes ++ following).take (2 ^ 31) = us.flatten ++ r ∧ r ≠ [] ∧
    (bytes.length ≤ us.flatten.length ∨ r.head? = some 0 ∨ Broken r)

theorem lorieCheckUTF8_ne_none_iff (bytes following : Bytes) :
    lorieCheckUTF8 (bytes ++ following) bytes.length ≠ none ↔ Decided bytes following := by
  obtain ⟨us, r, hrow, heq, hlt, houtcome⟩ :=
    lorieCheckUTF8_walk (bytes ++ following) bytes.length
  rw [Nat.zero_add] at houtcome
  cases houtcome' : lorieCheckUTF8 (bytes ++ following) bytes.length with
  | some n =>
    rw [houtcome'] at houtcome
    refine iff_of_true nofun ⟨us, r, hrow, heq, ?_⟩
    cases houtcome with
    | accepted h =>
      refine ⟨nofun, ?_⟩
      rcases h with rfl | h
      · exact Or.inr (Or.inl rfl)
      · exact Or.inl h
    | refused _ hr =>
      refine ⟨?_, Or.inr (Or.inr hr)⟩
      rintro rfl
      cases hr
  | none =>
    rw [houtcome'] at houtcome
    refine iff_of_false (fun h => h rfl) ?_
    rintro ⟨us', r', hrow', heq', hne, hstop⟩
    obtain ⟨h, hr⟩ : (r = [] ∨ us.flatten.length < bytes.length) ∧ Pending r := by
      cases houtcome with
      | outside h hr => exact ⟨h, hr⟩
    obtain ⟨ws, hws, rfl, rfl⟩ :=
      sequence_prefixFree.row_prefix hrow hrow' (heq.symm.trans heq') hr.not_prefix
    cases ws with
    | nil =>
      rw [List.append_nil] at h
      rcases hstop with hstop | hstop | hstop
      · exact (h.resolve_left hne).not_ge hstop
      · exact hr.head_ne_zero hstop
      · exact hr.not_broken hstop
    | cons w ws =>
      have hw : Sequence w := hws w List.mem_cons_self
      rw [List.flatten_cons, List.append_assoc] at hstop
      rcases hstop with hstop | hstop | hstop
      · have hstart := hlt us' w ⟨ws, by rw [List.append_assoc]; rfl⟩
        omega
      · exact hw.head_ne_zero hstop
      · exact hstop.not_prefix w hw (List.prefix_append _ _)

theorem Sequence.length_le {u : Bytes} (h : Sequence u) : u.length ≤ 4 := by
  cases h with
  | one | two | three | four => simp

theorem Pending.length_le {r : Bytes} (h : Pending r) : r.length ≤ 3 := by
  cases h with
  | nil | one | two | three => simp

/-- With four bytes behind it every text is decided on, up to the size that indices can reach. -/
theorem decided_of_length {bytes following : Bytes} (hbytes : bytes.length + 4 ≤ 2 ^ 31)
    (hfollowing : 4 ≤ following.length) : Decided bytes following := by
  rw [← lorieCheckUTF8_ne_none_iff]
  intro hnone
  obtain ⟨us, r, hrow, heq, hlt, houtcome⟩ :=
    lorieCheckUTF8_walk (bytes ++ following) bytes.length
  rw [hnone, Nat.zero_add] at houtcome
  have hlength := congrArg List.length heq
  rw [List.length_take, List.length_append, List.length_append] at hlength
  cases houtcome with
  | outside h hr =>
    have hpending := hr.length_le
    rcases h with rfl | h
    · rcases List.eq_nil_or_concat us with rfl | ⟨vs, u, rfl⟩
      · rw [List.flatten_nil, List.length_nil] at hlength
        omega
      · rw [List.concat_eq_append] at *
        have hstart := hlt vs u List.prefix_rfl
        have hlast := (hrow u (List.mem_append_right _ List.mem_cons_self)).length_le
        rw [List.flatten_append, List.length_append, List.flatten_singleton] at hlength
        simp only [List.length_nil] at hlength
        omega
    · omega

/-- The text has a NUL or a refused beginning after a row of sequences by the masks. -/
def Stopped (bytes : Bytes) : Prop :=
  ∃ us r, Row {u | Sequence u} us ∧ bytes = us.flatten ++ r ∧ (r.head? = some 0 ∨ Broken r)

/-- **The check stays inside its text exactly where the text stops it**: no byte at an index that is
not smaller than the size is looked at if and only if a NUL or a beginning that the masks refuse
comes after a row of sequences, at an index that is an `int`. -/
theorem lorieCheckUTF8_inside_iff (bytes : Bytes) :
    lorieCheckUTF8 bytes bytes.length ≠ none ↔ Stopped (bytes.take (2 ^ 31)) := by
  have hdecided := lorieCheckUTF8_ne_none_iff bytes []
  rw [List.append_nil] at hdecided
  rw [hdecided, Decided, List.append_nil]
  refine exists₂_congr fun us r => and_congr_right fun hrow => and_congr_right fun heq => ?_
  constructor
  · rintro ⟨hne, hstop | hstop⟩
    · have hlength := congrArg List.length heq
      rw [List.length_take, List.length_append] at hlength
      have hpos := List.length_pos_iff.2 hne
      omega
    · exact hstop
  · intro hstop
    refine ⟨?_, Or.inr hstop⟩
    rintro rfl
    rcases hstop with hstop | hstop
    · cases hstop
    · cases hstop

/-- The text `h` is not stopped at its end. -/
theorem outside_letter : ¬ lorieCheckUTF8 [104] [104].length ≠ none := by
  simp [lorieCheckUTF8, checkFrom, load]

/-! ### What the masks overlook -/

/-- A sequence of the masks that is none of UTF-8: one led by a continuation byte or longer than
need be, a surrogate, or a number above `0x10FFFF`. -/
inductive Flawed : Bytes → Prop
  | two {c b₁ : UInt8} (hc : c.toNat < 0xc2) : Flawed [c, b₁]
  | three {c b₁ b₂ : UInt8}
      (hc : c.toNat = 0xe0 ∧ b₁.toNat < 0xa0 ∨ c.toNat = 0xed ∧ 0xa0 ≤ b₁.toNat) :
      Flawed [c, b₁, b₂]
  | four {c b₁ b₂ b₃ : UInt8}
      (hc : c.toNat = 0xf0 ∧ b₁.toNat < 0x90 ∨ c.toNat = 0xf4 ∧ 0x90 ≤ b₁.toNat ∨
        0xf4 < c.toNat) : Flawed [c, b₁, b₂, b₃]

theorem sequence_encode {c : Char} (hc : c ≠ '\x00') :
    Sequence (String.utf8EncodeChar c) ∧ ¬ Flawed (String.utf8EncodeChar c) := by
  have hvalid : c.toNat < 0xd800 ∨ 0xdfff < c.toNat ∧ c.toNat < 0x110000 := c.valid
  have hpos : c.toNat ≠ 0 := fun h => hc (Char.toNat_inj.1 h)
  rcases encode_cases c with ⟨b, heq, hsize, hb⟩ | ⟨b, t, heq, hlow, hhigh, hb, ht⟩ |
    ⟨b, t₁, t₂, heq, hlow, hhigh, hb, ht₁, ht₂⟩ | ⟨b, t₁, t₂, t₃, heq, hlow, hb, ht₁, ht₂, ht₃⟩
  · rw [heq]
    exact ⟨.one (by omega), nofun⟩
  · rw [heq]
    refine ⟨.two (by omega) ((isTail_iff t).2 (by omega)), ?_⟩
    rintro ⟨h⟩
    omega
  · rw [heq]
    refine ⟨.three (by omega) ((isTail_iff t₁).2 (by omega)) ((isTail_iff t₂).2 (by omega)), ?_⟩
    rintro ⟨h⟩
    omega
  · rw [heq]
    refine ⟨.four (by omega) ((isTail_iff t₁).2 (by omega)) ((isTail_iff t₂).2 (by omega))
      ((isTail_iff t₃).2 (by omega)), ?_⟩
    rintro ⟨h⟩
    omega

theorem exists_encode {u : Bytes} (hu : Sequence u) (hf : ¬ Flawed u) :
    ∃ c, String.utf8EncodeChar c = u := by
  cases hu with
  | one hc => exact exists_encode_one hc.2
  | two hc h₁ =>
    have h2 : ¬ _ := fun h => hf (.two h)
    exact exists_encode_two (by omega) h₁
  | three hc h₁ h₂ =>
    have h3 : ¬ _ := fun h => hf (.three h)
    exact exists_encode_three hc h₁ h₂ (fun h => h3 (Or.inl h)) fun h => h3 (Or.inr h)
  | four hc h₁ h₂ h₃ =>
    have h4 : ¬ _ := fun h => hf (.four h)
    exact exists_encode_four (by omega) h₁ h₂ h₃ (fun h => h4 (Or.inl h))
      fun h => h4 (Or.inr (Or.inl h))

/-- Well-formed UTF-8 without NUL is a row of sequences without a flaw. -/
theorem wellFormed_iff {s : Bytes} (h0 : (0 : UInt8) ∉ s) :
    WellFormed s ↔ ∃ us, Row {u | Sequence u} us ∧ (∀ u ∈ us, ¬ Flawed u) ∧ us.flatten = s := by
  constructor
  · rintro ⟨text, rfl⟩
    have hne : ∀ c ∈ text, c ≠ '\x00' := by
      rintro c hc rfl
      exact h0 (List.mem_flatMap.2 ⟨_, hc, List.mem_cons_self⟩)
    refine ⟨text.map String.utf8EncodeChar, ?_, ?_, rfl⟩
    · rintro u hu
      obtain ⟨c, hc, rfl⟩ := List.mem_map.1 hu
      exact (sequence_encode (hne c hc)).1
    · rintro u hu
      obtain ⟨c, hc, rfl⟩ := List.mem_map.1 hu
      exact (sequence_encode (hne c hc)).2
  · rintro ⟨us, hrow, hf, rfl⟩
    induction us with
    | nil => exact ⟨[], rfl⟩
    | cons u us ih =>
      obtain ⟨c, rfl⟩ := exists_encode (hrow u List.mem_cons_self) (hf u List.mem_cons_self)
      obtain ⟨text, htext⟩ := ih (fun v hv => hrow v (List.mem_cons_of_mem _ hv))
        (fun v hv => hf v (List.mem_cons_of_mem _ hv)) fun h => h0 (List.mem_append_right _ h)
      refine ⟨c :: text, ?_⟩
      rw [List.flatten_cons, ← htext]
      rfl

/-- The text, up to its first NUL, is a row of sequences by the masks, the last of which may be
completed by what follows the text, and one of them is flawed or sticks out. -/
def Overlooked (bytes following : Bytes) : Prop :=
  ∃ us u, Row {u | Sequence u} (us ++ [u]) ∧ (us ++ [u]).flatten <+: bytes ++ following ∧
    us.flatten.length < (cString bytes).length ∧
    (cString bytes).length ≤ (us ++ [u]).flatten.length ∧
    ((∃ v ∈ us ++ [u], Flawed v) ∨ (cString bytes).length < (us ++ [u]).flatten.length)

/-- `lorieCheckUTF8` says whether the text is well-formed up to its first NUL. -/
def Exact (bytes following : Bytes) : Prop :=
  ∃ result, lorieCheckUTF8 (bytes ++ following) bytes.length = some result ∧
    (result = 1 ↔ WellFormed (cString bytes))

theorem zero_notMem_flatten {us : List Bytes} (h : Row {u | Sequence u} us) :
    (0 : UInt8) ∉ us.flatten := by
  intro h0
  obtain ⟨u, hu, h0⟩ := List.mem_flatten.1 h0
  have htail : ∀ b : UInt8, IsTail b → (0 : UInt8) ≠ b := by
    rintro b hb rfl
    exact absurd hb (by decide)
  have hlead : ∀ b : UInt8, 0x80 ≤ b.toNat → (0 : UInt8) ≠ b := by
    rintro b hb rfl
    exact absurd hb (by decide)
  cases h u hu with
  | one hc =>
    obtain rfl := List.mem_singleton.1 h0
    exact absurd hc.1 (by decide)
  | two hc h₁ => simp [hlead _ hc.1, htail _ h₁] at h0
  | three hc h₁ h₂ =>
    simp [hlead _ (le_trans (by norm_num) hc.1), htail _ h₁, htail _ h₂] at h0
  | four hc h₁ h₂ h₃ =>
    simp [hlead _ (le_trans (by norm_num) hc.1), htail _ h₁, htail _ h₂, htail _ h₃] at h0

/-- A walk that ends within the text is followed there by a byte of the text. -/
theorem concat_prefix_of_lt {bytes following walked r : Bytes} {c : UInt8}
    (heq : bytes ++ following = walked ++ c :: r) (hlt : walked.length < bytes.length) :
    walked ++ [c] <+: bytes := by
  refine List.prefix_of_prefix_length_le ⟨r, ?_⟩ (List.prefix_append bytes following) ?_
  · rw [heq, List.append_assoc]
    rfl
  · rw [List.length_append, List.length_singleton]
    omega

/-- A walk that is accepted covers the text up to its first NUL. -/
theorem cString_prefix_of_accepted {bytes following r : Bytes} {c : UInt8} {us : List Bytes}
    (hrow : Row {u | Sequence u} us) (heq : bytes ++ following = us.flatten ++ c :: r)
    (h : c = 0 ∨ bytes.length ≤ us.flatten.length) :
    cString bytes <+: us.flatten ∧
      (us.flatten.length = (cString bytes).length ∨ cString bytes = bytes) := by
  have h0 := zero_notMem_flatten hrow
  by_cases hle : bytes.length ≤ us.flatten.length
  · have hbegins : bytes <+: us.flatten :=
      List.prefix_of_prefix_length_le ⟨following, heq⟩ (List.prefix_append _ _) hle
    have hself : cString bytes = bytes := cString_eq_self fun hmem => h0 (hbegins.subset hmem)
    rw [hself]
    exact ⟨hbegins, Or.inr rfl⟩
  · obtain rfl := h.resolve_right hle
    obtain ⟨s, hs⟩ := concat_prefix_of_lt heq (not_le.1 hle)
    have hself : cString bytes = us.flatten := by
      rw [← hs, List.append_assoc]
      exact cString_append_zero h0 s
    rw [hself]
    exact ⟨List.prefix_rfl, Or.inl rfl⟩

/-- A walk that is refused ends within the text, before its first NUL. -/
theorem length_lt_of_refused {bytes following r : Bytes} {us : List Bytes}
    (hrow : Row {u | Sequence u} us) (heq : bytes ++ following = us.flatten ++ r) (hr : Broken r)
    (hlt : us.flatten.length < bytes.length) : us.flatten.length < (cString bytes).length := by
  cases r with
  | nil => cases hr
  | cons c r =>
    have hc : c ≠ 0 := fun h => hr.head_ne_zero (h ▸ rfl)
    have hbegins := concat_prefix_of_lt heq hlt
    have h0 : (0 : UInt8) ∉ us.flatten ++ [c] := by
      rw [List.mem_append, List.mem_singleton, not_or]
      exact ⟨zero_notMem_flatten hrow, hc.symm⟩
    have hle := (prefix_cString hbegins h0).length_le
    rw [List.length_append, List.length_singleton] at hle
    exact hle

/-- In well-formed text nothing is overlooked: it is taken apart in one way. -/
theorem not_overlooked_of_wellFormed {bytes : Bytes} (h : WellFormed (cString bytes))
    (following : Bytes) : ¬ Overlooked bytes following := by
  rintro ⟨us, u, hrow, ⟨x, hx⟩, hlt, hle, hflaw⟩
  obtain ⟨vs, hvs, hf, hflatten⟩ := (wellFormed_iff (zero_notMem_cString bytes)).1 h
  obtain ⟨y, hy⟩ : vs.flatten <+: bytes ++ following := by
    rw [hflatten]
    exact (cString_isPrefix bytes).trans (List.prefix_append _ _)
  have hsame : us ++ [u] ≠ vs := by
    rintro rfl
    rw [← hflatten] at hflaw
    rcases hflaw with ⟨v, hv, hflaw⟩ | hflaw
    · exact hf v hv hflaw
    · exact lt_irrefl _ hflaw
  rw [← hflatten] at hlt hle
  rcases sequence_prefixFree.row_cases hvs hrow (hy.trans hx.symm) with
    ⟨ws, hws, heq, -⟩ | ⟨ws, hws, rfl, -⟩
  · rcases List.eq_nil_or_concat ws with rfl | ⟨ws, w, rfl⟩
    · exact hsame (heq.trans (List.append_nil _))
    · rw [List.concat_eq_append, ← List.append_assoc] at heq
      obtain ⟨rfl, -⟩ := List.append_inj' heq rfl
      rw [List.flatten_append, List.length_append] at hlt
      omega
  · by_cases hnil : ws = []
    · exact hsame (by rw [hnil, List.append_nil])
    · have hpos := sequence_prefixFree.length_flatten_pos hws hnil
      rw [List.flatten_append, List.length_append] at hle
      omega

/-- A text that is refused is neither well-formed nor overlooked: either would be a row that goes
on where the masks refuse. -/
theorem not_of_refused {bytes following r : Bytes} {us : List Bytes}
    (hrow : Row {u | Sequence u} us) (heq : bytes ++ following = us.flatten ++ r) (hr : Broken r)
    (hlt : us.flatten.length < bytes.length) :
    ¬ WellFormed (cString bytes) ∧ ¬ Overlooked bytes following := by
  have hn := length_lt_of_refused hrow heq hr hlt
  have hnone : ∀ vs y, Row {u | Sequence u} vs → bytes ++ following = vs.flatten ++ y →
      ¬ (cString bytes).length ≤ vs.flatten.length := by
    rintro vs y hvs hy hle
    obtain ⟨ws, -, rfl, -⟩ :=
      sequence_prefixFree.row_prefix hrow hvs (heq.symm.trans hy) hr.not_prefix
    rw [List.flatten_append, List.length_append] at hn
    omega
  constructor
  · intro h
    obtain ⟨vs, hvs, -, hflatten⟩ := (wellFormed_iff (zero_notMem_cString bytes)).1 h
    obtain ⟨y, hy⟩ := (cString_isPrefix bytes).trans (List.prefix_append bytes following)
    rw [← hflatten] at hy
    exact hnone vs y hvs hy.symm (by rw [hflatten])
  · rintro ⟨vs, v, hvs, ⟨y, hy⟩, -, hle, -⟩
    exact hnone _ y hvs hy.symm hle

/-- **The check is exact where it decides and overlooks nothing.**  With any bytes behind the text,
`lorieCheckUTF8` says whether the text is well-formed UTF-8 up to its first NUL if and only if its
walk comes to a decision and the text is not a row of sequences by the masks with one that is
flawed or sticks out of the text. -/
theorem exact_iff (bytes following : Bytes) :
    Exact bytes following ↔ Decided bytes following ∧ ¬ Overlooked bytes following := by
  rw [← lorieCheckUTF8_ne_none_iff]
  obtain ⟨us, r, hrow, heq, hlt, houtcome⟩ :=
    lorieCheckUTF8_walk (bytes ++ following) bytes.length
  have hmem : bytes ++ following = us.flatten ++ (r ++ (bytes ++ following).drop (2 ^ 31)) := by
    rw [← List.append_assoc, ← heq, List.take_append_drop]
  rw [Nat.zero_add] at houtcome
  unfold Exact
  cases hresult : lorieCheckUTF8 (bytes ++ following) bytes.length with
  | none => simp
  | some result =>
    rw [hresult] at houtcome
    have hexact : (∃ n, some result = some n ∧ (n = 1 ↔ WellFormed (cString bytes))) ↔
        (result = 1 ↔ WellFormed (cString bytes)) := by
      simp
    rw [hexact, and_iff_right (by simp)]
    cases houtcome with
    | refused h hr =>
      obtain ⟨hwf, hover⟩ := not_of_refused hrow hmem (hr.append _) h
      exact iff_of_true (iff_of_false (by decide) hwf) hover
    | accepted h =>
      rw [eq_self_iff_true, true_iff]
      refine ⟨fun hwf => not_overlooked_of_wellFormed hwf following, fun hover => ?_⟩
      obtain ⟨hbegins, hend⟩ := cString_prefix_of_accepted hrow hmem h
      by_contra hwf
      rcases List.eq_nil_or_concat us with rfl | ⟨vs, u, rfl⟩
      · exact hwf ⟨[], (List.prefix_nil.1 hbegins).symm⟩
      rw [List.concat_eq_append] at *
      refine hover ⟨vs, u, hrow, ⟨_, hmem.symm⟩, ?_, hbegins.length_le, ?_⟩
      · rcases hend with hend | hend
        · have hpos := sequence_prefixFree.length_flatten_pos (row_append.1 hrow).2 (by simp)
          rw [List.flatten_append, List.length_append] at hend
          omega
        · rw [hend, ← Nat.zero_add vs.flatten.length]
          exact hlt vs u List.prefix_rfl
      · by_contra hnone
        rw [not_or, not_exists, not_lt] at hnone
        refine hwf ((wellFormed_iff (zero_notMem_cString bytes)).2 ⟨_, hrow, ?_, ?_⟩)
        · exact fun v hv hf => hnone.1 v ⟨hv, hf⟩
        · exact (hbegins.eq_of_length_le hnone.2).symm

/-- An overlong NUL passes. -/
theorem overlong_overlooked : ¬ Exact [0xc0, 0x80, 0] [] := by
  rintro ⟨result, hresult, hexact⟩
  have hone : lorieCheckUTF8 ([0xc0, 0x80, 0] ++ []) 3 = some 1 := by
    simp [lorieCheckUTF8, checkFrom, load]
    decide
  obtain rfl := Option.some.inj (hone.symm.trans hresult)
  refine not_overlooked_of_wellFormed (hexact.1 rfl) [] ⟨[], [0xc0, 0x80], ?_⟩
  refine ⟨row_nil.cons (.two (by decide) (by decide)), ⟨[0], rfl⟩, by decide, by decide, Or.inl ?_⟩
  exact ⟨[0xc0, 0x80], List.mem_cons_self, .two (by decide)⟩

end TermuxX11.Server
