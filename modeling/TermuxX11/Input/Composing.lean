import TermuxX11.Lib.Run
import TermuxX11.Lib.Unicode

/-!
# Composed text

The input connection of `LorieView` has no text of its own.  What an input method composes is
typed into the X client at once, and is taken back with the backspace key when it changes.

`replaceText` counts the units of a Java string, and sends what it adds to a text one unit at a
time; the client has characters.
-/

namespace TermuxX11.Input.Composing

open Unicode

/-! ### The activity -/

/-- What the activity sends: a character, or a press and release of `KEYCODE_DEL`. -/
inductive Event
  | unicode (c : Char)
  | del
  deriving DecidableEq

/-- `sendTextEvent`: the characters of its bytes, up to a zero or to what is not UTF-8. -/
def sendTextEvent (bytes : List UInt8) : List Event :=
  match bytes with
  | [] => []
  | b :: rest =>
    if b = 0 then []
    else
      match mbrtowc (b :: rest) with
      | none => []
      | some wc => .unicode wc :: sendTextEvent ((b :: rest).drop wc.utf8Size)
termination_by bytes.length
decreasing_by
  have hpos := wc.utf8Size_pos
  simp only [List.length_drop, List.length_cons]
  omega

/-- What `replaceText` sends. -/
def replaceText (currentComposingText newText : Option (List UInt16)) : List Event :=
  let old := currentComposingText.getD []
  let new := newText.getD []
  if 0 < old.length ∧ 0 < new.length ∧ (new <+: old ∨ old <+: new) then
    List.replicate (old.length - new.length) .del ++
      (new.drop old.length).flatMap fun unit => sendTextEvent (getBytes [unit])
  else
    List.replicate old.length .del ++
      match newText with
      | some newText => sendTextEvent (getBytes newText)
      | none => []

/-! ### The client -/

/-- A text field that has the focus, with its caret at the end. -/
def receive (field : List Char) : Event → List Char
  | .unicode c => field ++ [c]
  | .del => field.dropLast

/-- The calls of an input method. -/
inductive Call
  | setComposingText (text : List Char)
  | commitText (text : List Char)
  | finishComposingText

/-- The input connection and the field of the client, with what was committed or finished so far
and the text that is being composed. -/
structure State where
  currentComposingText : Option (List UInt16) := none
  field : List Char := []
  committed : List Char := []
  composing : List Char := []

/-- One call. -/
def step (s : State) : Call → State
  | .setComposingText text =>
    { s with
      currentComposingText := some (utf16 text)
      field := (replaceText s.currentComposingText (some (utf16 text))).foldl receive s.field
      composing := text }
  | .commitText text =>
    { s with
      currentComposingText := none
      field := (replaceText s.currentComposingText (some (utf16 text))).foldl receive s.field
      committed := s.committed ++ text
      composing := [] }
  | .finishComposingText =>
    { s with
      currentComposingText := none
      committed := s.committed ++ s.composing
      composing := [] }

/-- The field shows what was committed and what is composed. -/
def State.Shown (s : State) : Prop := s.field = s.committed ++ s.composing

/-! ### What is sent -/

theorem sendTextEvent_encode (c : Char) (bytes : List UInt8) :
    sendTextEvent (String.utf8EncodeChar c ++ bytes) =
      if c = '\x00' then [] else .unicode c :: sendTextEvent bytes := by
  have hlength : (String.utf8EncodeChar c).length = c.utf8Size := String.length_utf8EncodeChar c
  have hwc := mbrtowc_encode c bytes
  have hzero := head_encode_eq_zero_iff c
  cases hbs : String.utf8EncodeChar c with
  | nil =>
    rw [hbs] at hlength
    exact absurd hlength.symm c.utf8Size_pos.ne'
  | cons b bs =>
    rw [hbs] at hlength hwc hzero
    rw [List.cons_append] at hwc ⊢
    rw [List.head?_cons, Option.some_inj] at hzero
    rw [sendTextEvent]
    by_cases hb : b = 0
    · rw [if_pos hb, if_pos (hzero.1 hb)]
    · rw [if_neg hb, if_neg (hzero.not.1 hb), hwc]
      dsimp only
      rw [← hlength, ← List.cons_append, List.drop_left]

/-- A string is sent up to its first null character. -/
theorem sendTextEvent_getBytes (us : List UInt16) :
    sendTextEvent (getBytes us) = ((decode us).takeWhile (· ≠ '\x00')).map .unicode := by
  rw [getBytes]
  induction decode us with
  | nil => rw [List.flatMap_nil, sendTextEvent]; rfl
  | cons c text ih =>
    rw [List.flatMap_cons, sendTextEvent_encode, ih, List.takeWhile_cons]
    by_cases hc : c = '\x00'
    · simp [hc]
    · simp [hc]

theorem receive_unicode (field text : List Char) :
    (text.map Event.unicode).foldl receive field = field ++ text := by
  induction text generalizing field with
  | nil => simp
  | cons c text ih =>
    rw [List.map_cons, List.foldl_cons, ih, receive, List.append_assoc, List.singleton_append]

theorem receive_del (field : List Char) (n : ℕ) :
    (List.replicate n Event.del).foldl receive field = field.take (field.length - n) := by
  induction n generalizing field with
  | zero => simp
  | succ n ih =>
    rw [List.replicate_succ, List.foldl_cons, ih, receive, List.length_dropLast,
      List.dropLast_eq_take, List.take_take]
    congr 1
    omega

/-- The characters that a unit of its own is sent as. -/
def sentAlone (c : Char) : List Char :=
  if isSingle c then if c = '\x00' then [] else [c] else ['?', '?']

theorem sendTextEvent_units (c : Char) :
    ((units c).flatMap fun unit => sendTextEvent (getBytes [unit])) =
      (sentAlone c).map .unicode := by
  simp only [sendTextEvent_getBytes]
  cases hc : isSingle c with
  | true =>
    have hdecode : decode [UInt16.ofNat c.toNat] = [c] := by
      rw [decode, (charOf_single hc).2]
    rw [units_single hc, List.flatMap_singleton, hdecode, sentAlone, if_pos hc]
    by_cases h0 : c = '\x00'
    · simp [h0]
    · simp [h0]
  | false =>
    obtain ⟨u, v, huv, hu, hv, -⟩ := units_pair hc
    simp [huv, decode, charOf, hu, hv, sentAlone, hc]

/-- What is added to a text comes out as it is exactly if each of its characters is a single unit
and none of them is null. -/
theorem flatMap_sentAlone_eq_iff {text : List Char} :
    text.flatMap sentAlone = text ↔ ∀ c ∈ text, isSingle c = true ∧ c ≠ '\x00' := by
  have hsent : ∀ c, ∀ c' ∈ sentAlone c, isSingle c' = true ∧ c' ≠ '\x00' := by
    intro c c' hc'
    rw [sentAlone] at hc'
    split_ifs at hc' with h h0
    · cases hc'
    · obtain rfl := List.mem_singleton.1 hc'
      exact ⟨h, h0⟩
    · have hmark : c' = '?' := by
        simpa using hc'
      rw [hmark]
      decide
  constructor
  · intro h c hc
    rw [← h] at hc
    obtain ⟨c', -, hc⟩ := List.mem_flatMap.1 hc
    exact hsent c' c hc
  · intro h
    have hself : ∀ c ∈ text, sentAlone c = [c] := by
      intro c hc
      rw [sentAlone, if_pos (h c hc).1, if_neg (h c hc).2]
    rw [List.flatMap_congr hself, List.flatMap_singleton']

/-- The texts that replace a composed text as they should.  If one is a beginning of the other,
what is taken back or added has only characters of a single unit; else the composed text has, or
there is nothing before it to be taken back. -/
def Replaceable (committed old new : List Char) : Prop :=
  if old ≠ [] ∧ new ≠ [] ∧ (new <+: old ∨ old <+: new) then
    (∀ c ∈ old.drop new.length, isSingle c = true) ∧
      ∀ c ∈ new.drop old.length, isSingle c = true ∧ c ≠ '\x00'
  else (committed = [] ∨ ∀ c ∈ old, isSingle c = true) ∧ '\x00' ∉ new

section

variable (committed : List Char) {old new : List Char}

/-- Taking back the end of a composed text. -/
theorem shortened_iff (hne : new ≠ []) (rest : List Char) :
    (List.replicate ((utf16 (new ++ rest)).length - (utf16 new).length) Event.del).foldl receive
        (committed ++ (new ++ rest)) = committed ++ new ↔
      ∀ c ∈ rest, isSingle c = true := by
  have hpos := List.length_pos_iff.2 hne
  have hcount : (utf16 (new ++ rest)).length - (utf16 new).length = rest.length + pairs rest := by
    rw [utf16_append, List.length_append, length_utf16 rest]
    omega
  rw [receive_del, hcount, ← pairs_eq_zero_iff]
  constructor
  · intro h
    have hlength := congrArg List.length h
    simp only [List.length_take, List.length_append] at hlength
    omega
  · intro h
    rw [h, ← List.append_assoc]
    have hlength : (committed ++ new ++ rest).length = (committed ++ new).length + rest.length :=
      List.length_append
    exact List.take_left' (by omega)

/-- Adding to a composed text. -/
theorem extended_iff (rest : List Char) :
    ((utf16 rest).flatMap fun unit => sendTextEvent (getBytes [unit])).foldl receive
        (committed ++ old) = committed ++ (old ++ rest) ↔
      ∀ c ∈ rest, isSingle c = true ∧ c ≠ '\x00' := by
  have hevents : ((utf16 rest).flatMap fun unit => sendTextEvent (getBytes [unit])) =
      (rest.flatMap sentAlone).map .unicode := by
    rw [utf16, List.flatMap_assoc, List.map_flatMap]
    simp only [sendTextEvent_units]
  rw [hevents, receive_unicode, ← List.append_assoc, List.append_cancel_left_eq,
    flatMap_sentAlone_eq_iff]

/-- Taking a composed text back and sending another one. -/
theorem rewritten_iff :
    (List.replicate (utf16 old).length Event.del ++ sendTextEvent (getBytes (utf16 new))).foldl
        receive (committed ++ old) = committed ++ new ↔
      (committed = [] ∨ ∀ c ∈ old, isSingle c = true) ∧ '\x00' ∉ new := by
  have hdecode : decode (utf16 new) = new := by
    rw [← List.append_nil (utf16 new), decode_utf16_append]
    exact List.append_nil new
  have hcount : (committed ++ old).length - (utf16 old).length = committed.length - pairs old := by
    rw [length_utf16, List.length_append]
    omega
  have hnull : new.takeWhile (· ≠ '\x00') = new ↔ '\x00' ∉ new := by
    rw [List.takeWhile_eq_self_iff]
    constructor
    · intro h hmem
      simpa using h _ hmem
    · intro h c hc
      exact decide_eq_true fun h0 => h (h0 ▸ hc)
  rw [List.foldl_append, receive_del, sendTextEvent_getBytes, hdecode, receive_unicode, hcount,
    List.take_append_of_le_length (Nat.sub_le _ _), ← pairs_eq_zero_iff, ← hnull]
  constructor
  · intro h
    have hlength := congrArg List.length h
    have hle := (List.takeWhile_prefix (l := new) (· ≠ '\x00')).length_le
    simp only [List.length_append, List.length_take] at hlength
    refine ⟨?_, (List.takeWhile_prefix _).eq_of_length (by omega)⟩
    rw [← List.length_eq_zero_iff]
    omega
  · rintro ⟨hback, hnull⟩
    rw [hnull]
    rcases hback with rfl | hpairs
    · rw [List.take_nil]
    · rw [hpairs, Nat.sub_zero, List.take_length]

/-- A call of `replaceText` on a field that shows the composed text. -/
theorem replaceText_iff {current : Option (List UInt16)} (hcurrent : current.getD [] = utf16 old) :
    (replaceText current (some (utf16 new))).foldl receive (committed ++ old) = committed ++ new ↔
      Replaceable committed old new := by
  have hold : 0 < (utf16 old).length ↔ old ≠ [] := by
    rw [List.length_pos_iff, ne_eq, utf16_eq_nil_iff]
  have hnew : 0 < (utf16 new).length ↔ new ≠ [] := by
    rw [List.length_pos_iff, ne_eq, utf16_eq_nil_iff]
  simp only [replaceText, Replaceable, hcurrent, Option.getD_some, hold, hnew, utf16_prefix_iff]
  by_cases hshare : old ≠ [] ∧ new ≠ [] ∧ (new <+: old ∨ old <+: new)
  · rw [if_pos hshare, if_pos hshare]
    rcases hshare.2.2 with ⟨rest, rfl⟩ | ⟨rest, rfl⟩
    · have hdrop : (utf16 new).drop (utf16 (new ++ rest)).length = [] := by
        refine List.drop_of_length_le ?_
        rw [utf16_append, List.length_append]
        omega
      have hnone : new.drop (new ++ rest).length = [] := by
        simp
      rw [hdrop, List.flatMap_nil, List.append_nil, shortened_iff committed hshare.2.1,
        List.drop_left, hnone]
      simp
    · have hcount : (utf16 old).length - (utf16 (old ++ rest)).length = 0 := by
        rw [utf16_append, List.length_append]
        omega
      have hdrop : (utf16 (old ++ rest)).drop (utf16 old).length = utf16 rest := by
        rw [utf16_append, List.drop_left]
      have hnone : old.drop (old ++ rest).length = [] := by
        simp
      rw [hcount, hdrop, List.replicate_zero, List.nil_append, extended_iff, List.drop_left, hnone]
      simp
  · rw [if_neg hshare, if_neg hshare]
    exact rewritten_iff committed

end

/-! ### Runs -/

/-- The call replaces the composed text as it should. -/
def Faithful (s : State) : Call → Prop
  | .setComposingText text | .commitText text => Replaceable s.committed s.composing text
  | .finishComposingText => True

/-- The connection knows the text that is being composed. -/
def State.Linked (s : State) : Prop := s.currentComposingText.getD [] = utf16 s.composing

theorem linked_step {s : State} (c : Call) : (step s c).Linked := by
  cases c <;> rfl

theorem shown_step_iff {s : State} (hlinked : s.Linked) (hshown : s.Shown) (c : Call) :
    (step s c).Shown ↔ Faithful s c := by
  have hfield : s.field = s.committed ++ s.composing := hshown
  cases c with
  | setComposingText text =>
    simp only [State.Shown, step, hfield]
    exact replaceText_iff s.committed hlinked
  | commitText text =>
    simp only [State.Shown, step, hfield, List.append_nil]
    exact replaceText_iff s.committed hlinked
  | finishComposingText =>
    refine iff_of_true ?_ trivial
    simp only [State.Shown, step, hfield, List.append_nil]

/-- **Composing is editing**: after each call the field shows what was committed and what is
composed, exactly if every call replaces the composed text as it should. -/
theorem composing_shown_iff (calls : List Call) :
    Run.Always step (fun s c => (step s c).Shown) {} calls ↔ Run.Always step Faithful {} calls := by
  refine Run.always_iff_of_invariant (I := fun s => s.Linked ∧ s.Shown) ?_ ?_ ⟨rfl, rfl⟩ calls
  · intro s c _ hshown
    exact ⟨linked_step c, hshown⟩
  · intro s c hs
    exact shown_step_iff hs.1 hs.2 c

/-- A character of two units is composed after another one, and given up. -/
def emojiReplaced : List Call :=
  [.commitText ['a'], .setComposingText [Char.ofNat 0x1F600], .commitText ['b']]

/-- The backspace keys for it take the text before it away. -/
theorem emojiReplaced_not_shown :
    (Run.exec step {} emojiReplaced).field = ['b'] ∧
      (Run.exec step {} emojiReplaced).committed = ['a', 'b'] ∧
      ¬ Run.Always step (fun s c => (step s c).Shown) {} emojiReplaced := by
  have hfield : (Run.exec step {} emojiReplaced).field = ['b'] := by
    simp only [emojiReplaced, Run.exec_cons, Run.exec_nil, step, replaceText,
      sendTextEvent_getBytes]
    decide +kernel
  refine ⟨hfield, rfl, fun h => ?_⟩
  have hshown : (Run.exec step {} emojiReplaced).field = ['a', 'b'] := h.2.2.1
  rw [hfield] at hshown
  cases hshown

end TermuxX11.Input.Composing
