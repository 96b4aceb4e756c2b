import TermuxX11.Input.Composing
import TermuxX11.Lib.Memory
import TermuxX11.Wire.LorieEvent

/-!
# Text events

`sendTextEvent` of the activity takes the bytes of a Java string, an array that no NUL ends, and
writes a message for each character.  What is read outside of the array is undefined behaviour,
which is `none`.

`mbrtowc` belongs to the C library; of it is known what it does in a locale of UTF-8.
-/

namespace TermuxX11.Input.TextEvents

open ByteCoding CMemory Unicode Wire

/-! ### The C library -/

/-- What `mbrtowc` returns: `(size_t) -1`, `(size_t) -2`, or a length with the character that it
has stored. -/
inductive Converted
  | invalid
  | incomplete
  | wide (len : ℕ) (wc : UInt32)
  deriving DecidableEq

/-- The locale of the process. -/
structure Locale where
  /-- `mbstate_t`. -/
  MbState : Type
  /-- The state that is all zero. -/
  zeroState : MbState
  mbCurMax : ℕ
  /-- At an index of an object, with a limit of bytes. -/
  mbrtowc : Bytes → ℕ → ℕ → MbState → Option (Converted × MbState)

/-- In a locale of UTF-8 `mbrtowc` converts one character, whatever is before or behind its bytes,
and also where the object ends with them.  Its length is zero for the null character. -/
structure Locale.DecodesUtf8 (L : Locale) : Prop where
  le_mbCurMax : ∀ c : Char, c.utf8Size ≤ L.mbCurMax
  mbrtowc_encode : ∀ (p r : Bytes) (c : Char) (n : ℕ), c.utf8Size ≤ n →
    L.mbrtowc (p ++ (String.utf8EncodeChar c ++ r)) p.length n L.zeroState =
      some (.wide (if c = '\x00' then 0 else c.utf8Size) c.val, L.zeroState)

/-! ### The activity -/

/-- The loop of `sendTextEvent` with its pointer at an index: the messages that it still writes. -/
def textLoop (L : Locale) (str : Bytes) (i : ℕ) (mbstate : L.MbState) : Option (List LorieEvent) :=
  match load str i with
  | none => none
  | some b =>
    if b = 0 then some []
    else
      match L.mbrtowc str i L.mbCurMax mbstate with
      | none => none
      | some (.invalid, _) => some []
      | some (.incomplete, _) => some []
      | some (.wide len wc, mbstate) =>
        if len = 0 then some []
        else if str.length ≤ i + len then some [.unicode wc]
        else (textLoop L str (i + len) mbstate).map (.unicode wc :: ·)
termination_by str.length - i

/-- `sendTextEvent`. -/
def sendTextEvent (L : Locale) (connFd : ℤ) (text : Option Bytes) : Option (List LorieEvent) :=
  match text with
  | none => some []
  | some str =>
    if connFd = -1 then some []
    else if str.length = 0 then some []
    else textLoop L str 0 L.zeroState

/-! ### The characters -/

variable {L : Locale}

/-- At the first byte of a character. -/
theorem textLoop_encode (hL : L.DecodesUtf8) (p r : Bytes) (c : Char) :
    textLoop L (p ++ (String.utf8EncodeChar c ++ r)) p.length L.zeroState =
      if c = '\x00' then some []
      else if r = [] then some [.unicode c.val]
      else (textLoop L (p ++ (String.utf8EncodeChar c ++ r)) (p.length + c.utf8Size)
        L.zeroState).map (.unicode c.val :: ·) := by
  have hlength : (String.utf8EncodeChar c).length = c.utf8Size := String.length_utf8EncodeChar c
  have hwc := hL.mbrtowc_encode p r c _ (hL.le_mbCurMax c)
  have hzero := head_encode_eq_zero_iff c
  have hload : load (p ++ (String.utf8EncodeChar c ++ r)) p.length =
      (String.utf8EncodeChar c).head? := by
    cases hbs : String.utf8EncodeChar c with
    | nil =>
      rw [hbs] at hlength
      exact absurd hlength.symm c.utf8Size_pos.ne'
    | cons b bs => rw [List.cons_append, load_append, List.head?_cons]
  have hend : (p ++ (String.utf8EncodeChar c ++ r)).length ≤ p.length + c.utf8Size ↔ r = [] := by
    rw [List.length_append, List.length_append, hlength, ← List.length_eq_zero_iff]
    omega
  rw [textLoop, hload]
  cases hhead : (String.utf8EncodeChar c).head? with
  | none =>
    rw [List.head?_eq_none_iff.1 hhead] at hlength
    exact absurd hlength.symm c.utf8Size_pos.ne'
  | some b =>
    dsimp only
    rw [hhead, Option.some_inj] at hzero
    by_cases hc : c = '\x00'
    · rw [if_pos (hzero.2 hc), if_pos hc]
    · rw [if_neg hc] at hwc
      rw [if_neg (hzero.not.2 hc), if_neg hc, hwc]
      dsimp only
      rw [if_neg c.utf8Size_pos.ne']
      simp only [hend]

/-- A text behind what was sent already. -/
theorem textLoop_text (hL : L.DecodesUtf8) (p : Bytes) {text : List Char} (h : text ≠ []) :
    textLoop L (p ++ text.flatMap String.utf8EncodeChar) p.length L.zeroState =
      some ((text.takeWhile (· ≠ '\x00')).map fun c => .unicode c.val) := by
  induction text generalizing p with
  | nil => exact absurd rfl h
  | cons c text ih =>
    rw [List.flatMap_cons, textLoop_encode hL, List.takeWhile_cons]
    by_cases hc : c = '\x00'
    · simp [hc]
    · rw [if_neg hc, if_pos (decide_eq_true hc), List.map_cons]
      cases text with
      | nil => rfl
      | cons c' text =>
        have hne : (c' :: text).flatMap String.utf8EncodeChar ≠ [] := by
          rw [List.flatMap_cons, Ne, List.append_eq_nil_iff, ← List.length_eq_zero_iff,
            String.length_utf8EncodeChar]
          exact fun hnil => c'.utf8Size_pos.ne' hnil.1
        have ih' := ih (p ++ String.utf8EncodeChar c) (List.cons_ne_nil c' text)
        rw [List.length_append, String.length_utf8EncodeChar, List.append_assoc] at ih'
        rw [if_neg hne, ih', Option.map_some]

theorem sendTextEvent_getBytes (hL : L.DecodesUtf8) {connFd : ℤ} (hconn : connFd ≠ -1)
    (us : List UInt16) :
    sendTextEvent L connFd (some (getBytes us)) =
      some (((decode us).takeWhile (· ≠ '\x00')).map fun c => .unicode c.val) := by
  rw [sendTextEvent, if_neg hconn, getBytes]
  cases htext : decode us with
  | nil => rfl
  | cons c text =>
    have hpos := c.utf8Size_pos
    rw [if_neg]
    · exact textLoop_text hL [] (List.cons_ne_nil c text)
    · rw [List.flatMap_cons, List.length_append, String.length_utf8EncodeChar]
      omega

/-- The messages are the characters that the input connection counts on. -/
theorem sendTextEvent_composing (hL : L.DecodesUtf8) {connFd : ℤ} (hconn : connFd ≠ -1)
    (us : List UInt16) :
    ∃ text : List Char, Composing.sendTextEvent (getBytes us) = text.map .unicode ∧
      sendTextEvent L connFd (some (getBytes us)) = some (text.map fun c => .unicode c.val) :=
  ⟨_, Composing.sendTextEvent_getBytes us, sendTextEvent_getBytes hL hconn us⟩

/-! ### The code points -/

/-- **Text events cover the text**: the messages are the code points of the string up to its first
null character, in their order and each once, with a question mark for a surrogate that has no
partner.  Without a connection there are none.  Nothing behind the array is read. -/
theorem sendTextEvent_codePoints (hL : L.DecodesUtf8) (connFd : ℤ) (us : List UInt16) :
    sendTextEvent L connFd (some (getBytes us)) =
      some (if connFd = -1 then []
        else ((codePoints us).takeWhile (· ≠ 0)).map fun code => .unicode (encodable code)) := by
  by_cases hconn : connFd = -1
  · rw [sendTextEvent, if_pos hconn, if_pos hconn]
  · have hcodes := congrArg (List.map LorieEvent.unicode) (map_val_takeWhile_decode us)
    rw [List.map_map, List.map_map] at hcodes
    rw [sendTextEvent_getBytes hL hconn, if_neg hconn]
    exact congrArg some hcodes

/-- A locale of UTF-8.  It does not tell what is incomplete from what is invalid. -/
def utf8Locale : Locale where
  MbState := Unit
  zeroState := ()
  mbCurMax := 4
  mbrtowc str i n mbstate :=
    match Unicode.mbrtowc ((str.drop i).take n) with
    | some c => some (.wide (if c = '\x00' then 0 else c.utf8Size) c.val, mbstate)
    | none => some (.invalid, mbstate)

theorem utf8Locale_decodesUtf8 : utf8Locale.DecodesUtf8 where
  le_mbCurMax c := c.utf8Size_le_four
  mbrtowc_encode p r c n hn := by
    have htake : (String.utf8EncodeChar c ++ r).take n =
        String.utf8EncodeChar c ++ r.take (n - c.utf8Size) := by
      rw [List.take_append, String.length_utf8EncodeChar,
        List.take_of_length_le (by rw [String.length_utf8EncodeChar]; exact hn)]
    simp only [utf8Locale, List.drop_left, htake, mbrtowc_encode]

/-- A letter, a pair of surrogates and one without its partner, and what is behind a null
character. -/
theorem sendTextEvent_codePoints_smile : utf8Locale.DecodesUtf8 ∧
    sendTextEvent utf8Locale 5 (some (getBytes [0x48, 0xD83D, 0xDE00, 0xD800, 0, 0x62])) =
      some [.unicode 0x48, .unicode 0x1F600, .unicode 0x3F] :=
  ⟨utf8Locale_decodesUtf8,
    (sendTextEvent_codePoints utf8Locale_decodesUtf8 5 _).trans (by decide)⟩

/-- What is behind a null character is not sent. -/
theorem sendTextEvent_ne_codePoints : utf8Locale.DecodesUtf8 ∧
    sendTextEvent utf8Locale 5 (some (getBytes [0x61, 0, 0x62])) ≠
      some ((codePoints [0x61, 0, 0x62]).map .unicode) := by
  refine ⟨utf8Locale_decodesUtf8, ?_⟩
  rw [sendTextEvent_getBytes utf8Locale_decodesUtf8 (by decide)]
  decide

end TermuxX11.Input.TextEvents
