import TermuxX11.Server.CheckUtf8
import TermuxX11.Server.Clipboard
import TermuxX11.Server.Latin1

/-!
# The clipboard that a client offers

`lorieHandleSelection` of `clipboard.c`: what the server does when the owner of the clipboard has
put its contents into a property of the root window.  `none` is undefined behaviour.

The size of a property is a `uint32_t` of the X server, and so are the sizes of the two buffers,
which are computed from it.  The buffers are automatic arrays, and are taken to fit the stack of the
thread, whatever their size.
-/

namespace TermuxX11.Server

open ByteCoding CMemory Utf8

/-- A value of the type `uint32_t`. -/
def uint32 (n : ℕ) : ℕ := n % 2 ^ 32

/-- The size of the array `filtered` for a property of `size` bytes. -/
def filteredSize (size : ℕ) : ℕ := uint32 (size + 1)

/-- The size of the array `utf8`. -/
def utf8Size (size : ℕ) : ℕ := uint32 (uint32 (size + 1) * 2)

/-- A property of the root window.  `data` is read as bytes, and as atoms where the format is 32;
`following` is what the memory holds behind the bytes. -/
structure Property where
  type : Atom
  format : ℕ
  data : Bytes := []
  following : Bytes := []
  atoms : List Atom := []
  size_lt : data.length < 2 ^ 32 := by decide

/-- The event `SelectionRequest` and the client it is written to. -/
structure SelectionRequest where
  client : ℕ
  owner : ℕ
  time : ℕ
  requestor : ℕ
  selection : Atom
  target : Atom
  property : Atom
  deriving DecidableEq, Repr

/-- What is looked up in the server.  `owner` gives the client and the window of a selection, where
`dixLookupSelection` finds it. -/
structure Lookup where
  clipboardEnabled : Bool
  owner : Atom → Option (ℕ × ℕ)
  currentTime : ℕ
  root : ℕ

/-- What the activity or the owner of the clipboard is sent. -/
inductive Outgoing
  | request (e : SelectionRequest)
  | clipboardData (text : Bytes)
  deriving DecidableEq, Repr

/-- `lorieSelectionRequest`. -/
def lorieSelectionRequest (s : Lookup) (selection target : Atom) : List Outgoing :=
  match s.owner selection with
  | none => []
  | some (client, window) =>
    if s.clipboardEnabled then
      [.request
        { client := client, owner := window, time := s.currentTime, requestor := s.root,
          selection := selection, target := target, property := target }]
    else []

/-- `lorieHasAtom`. -/
def lorieHasAtom (atom : Atom) (list : List Atom) : Bool := list.any (· = atom)

/-- `lorieHandleSelection`; `lookup` is what `dixLookupProperty` finds of a property of the root
window. -/
def lorieHandleSelection (s : Lookup) (lookup : Atom → Option Property) (target : Atom) :
    Option (List Outgoing) :=
  if target ≠ .TARGETS ∧ target ≠ .STRING ∧ target ≠ .UTF8_STRING then some []
  else
    match lookup target with
    | none => some []
    | some prop =>
      if target = .TARGETS ∧ prop.type = .ATOM ∧ prop.format = 32 then
        if lorieHasAtom .UTF8_STRING prop.atoms then
          some (lorieSelectionRequest s .CLIPBOARD .UTF8_STRING)
        else if lorieHasAtom .STRING prop.atoms then
          some (lorieSelectionRequest s .CLIPBOARD .STRING)
        else some []
      else if target = .STRING ∧ prop.type = .STRING ∧ prop.format = 8 then do
        let size := prop.data.length
        let filtered ← lorieConvertLF prop.data (cleared (filteredSize size)) size
        let utf8 ← lorieLatin1ToUTF8 (cleared (utf8Size size)) filtered
        let text ← readString utf8
        some [.clipboardData text]
      else if target = .UTF8_STRING ∧ prop.type = .UTF8_STRING ∧ prop.format = 8 then do
        let size := prop.data.length
        let valid ← lorieCheckUTF8 (prop.data ++ prop.following) size
        if valid = 0 then some []
        else
          let filtered ← lorieConvertLF prop.data (cleared (filteredSize size)) size
          let text ← readString filtered
          some [.clipboardData text]
      else some []

/-- The bytes but the carriage returns. -/
def withoutCR (bytes : Bytes) : Bytes := bytes.filter (· ≠ 13)

theorem length_withoutCR_le (bytes : Bytes) : (withoutCR bytes).length ≤ bytes.length :=
  List.length_filter_le _ _

theorem withoutCR_cons_of_ne {b : UInt8} (hb : b ≠ 13) (bytes : Bytes) :
    withoutCR (b :: bytes) = b :: withoutCR bytes :=
  List.filter_cons_of_pos (decide_eq_true hb)

theorem withoutCR_cons_CR (bytes : Bytes) : withoutCR (13 :: bytes) = withoutCR bytes :=
  List.filter_cons_of_neg (by simp)

/-- The loop of `lorieConvertLF`: what it has read is in front of what it has to read, and what it
has written in front of what is cleared. -/
theorem convertLF_append (p bytes w : Bytes) (k : ℕ) :
    convertLF (p ++ bytes) (p ++ bytes).length p.length
        (w ++ cleared ((withoutCR bytes).length + k)) w.length =
      some (w ++ withoutCR bytes ++ cleared k) := by
  induction bytes generalizing p w with
  | nil =>
    rw [convertLF, List.append_nil, if_neg (lt_irrefl _)]
    simp [withoutCR]
  | cons b bytes ih =>
    have hlt : p.length < (p ++ b :: bytes).length := by
      rw [List.length_append, List.length_cons]
      omega
    have hp : p ++ b :: bytes = p ++ [b] ++ bytes := by rw [List.append_assoc]; rfl
    have hlength : p.length + 1 = (p ++ [b]).length := by
      rw [List.length_append, List.length_singleton]
    rw [convertLF, if_pos hlt, load_append, Option.bind_eq_bind, Option.bind_some]
    by_cases hb : b = 13
    · rw [if_neg (not_not.2 hb), hb, withoutCR_cons_CR, ← hb, hp, hlength]
      exact ih (p ++ [b]) w
    · rw [if_pos hb, withoutCR_cons_of_ne hb, List.length_cons, Nat.add_right_comm, store_cleared,
        Option.bind_eq_bind, Option.bind_some, hp, hlength]
      have hw : w.length + 1 = (w ++ [b]).length := by
        rw [List.length_append, List.length_singleton]
      rw [hw, ih (p ++ [b]) (w ++ [b]), List.append_assoc w]
      rfl

theorem lorieConvertLF_eq (bytes : Bytes) :
    lorieConvertLF bytes (cleared (bytes.length + 1)) bytes.length =
      some (withoutCR bytes ++ cleared (bytes.length - (withoutCR bytes).length + 1)) := by
  have h := convertLF_append [] bytes [] (bytes.length - (withoutCR bytes).length + 1)
  have hle := length_withoutCR_le bytes
  rw [← Nat.add_assoc, Nat.add_sub_of_le hle] at h
  exact h

/-- A byte of Latin-1 takes two bytes at most. -/
theorem length_encode_latin1_le (bytes : Bytes) :
    (encode (bytes.map latin1Char)).length ≤ bytes.length * 2 := by
  induction bytes with
  | nil => exact le_rfl
  | cons b bytes ih =>
    have hcons : encode ((b :: bytes).map latin1Char) =
        String.utf8EncodeChar (latin1Char b) ++ encode (bytes.map latin1Char) := rfl
    have hb : (String.utf8EncodeChar (latin1Char b)).length ≤ 2 := by
      rw [utf8EncodeChar_latin1Char]
      by_cases hlow : b < 128
      · rw [if_pos hlow]
        exact Nat.le_succ 1
      · rw [if_neg hlow]
        exact le_rfl
    rw [hcons, List.length_append, List.length_cons]
    omega

/-- The text that the bytes of a property of the type `STRING` stand for. -/
def stringText (bytes : Bytes) : List Char := (cString (withoutCR bytes)).map latin1Char

theorem zero_notMem_encode {text : List Char} (h0 : '\x00' ∉ text) :
    (0 : UInt8) ∉ encode text := by
  have hrow : Words.Row {u | Sequence u} (text.map String.utf8EncodeChar) := by
    intro u hu
    obtain ⟨c, hc, rfl⟩ := List.mem_map.1 hu
    exact (sequence_encode fun h => h0 (h ▸ hc)).1
  exact zero_notMem_flatten hrow

/-! ### The two buffers -/

/-- The two conversions of the content of a property stay inside the two buffers, and leave a NUL in
both. -/
def BuffersHold (content : Bytes) : Prop :=
  ∃ filtered utf8,
    lorieConvertLF content (cleared (filteredSize content.length)) content.length =
        some filtered ∧
      filtered.length = filteredSize content.length ∧ (0 : UInt8) ∈ filtered ∧
      lorieLatin1ToUTF8 (cleared (utf8Size content.length)) filtered = some utf8 ∧
      utf8.length = utf8Size content.length ∧ (0 : UInt8) ∈ utf8

/-- The sizes of the two buffers, as they were computed, leave room. -/
def HasRoom (content : Bytes) : Prop :=
  content.length + 1 < 2 ^ 32 ∧
    (encode (stringText content)).length < uint32 ((content.length + 1) * 2)

theorem hasRoom_of_length {content : Bytes} (h : content.length + 1 < 2 ^ 31) :
    HasRoom content := by
  have hfilter := length_withoutCR_le content
  have hstring := length_cString_le (withoutCR content)
  have hencode := length_encode_latin1_le (cString (withoutCR content))
  refine ⟨by omega, ?_⟩
  rw [uint32, Nat.mod_eq_of_lt (by omega), stringText]
  omega

theorem filteredSize_eq {size : ℕ} (h : size + 1 < 2 ^ 32) : filteredSize size = size + 1 :=
  Nat.mod_eq_of_lt h

theorem utf8Size_eq (size : ℕ) : utf8Size size = uint32 ((size + 1) * 2) := by
  simp [utf8Size, uint32]

/-- What is left in the first buffer: the string that is converted, and what is behind its NUL. -/
theorem exists_filtered {content : Bytes} (h : content.length + 1 < 2 ^ 32) :
    ∃ k r, lorieConvertLF content (cleared (filteredSize content.length)) content.length =
        some (withoutCR content ++ cleared (k + 1)) ∧
      (withoutCR content).length + (k + 1) = filteredSize content.length ∧
      withoutCR content ++ cleared (k + 1) = cString (withoutCR content) ++ 0 :: r := by
  have hfilter := length_withoutCR_le content
  set k := content.length - (withoutCR content).length
  obtain ⟨r, hr⟩ := exists_eq_cString_append (zero_mem_append_cleared (withoutCR content) k)
  rw [cString_append_cleared] at hr
  rw [filteredSize_eq h]
  exact ⟨k, r, lorieConvertLF_eq content, by omega, hr⟩

/-- What the conversions leave in the buffers. -/
theorem exists_buffers {content : Bytes} (h : HasRoom content) :
    ∃ k l,
      lorieConvertLF content (cleared (filteredSize content.length)) content.length =
          some (withoutCR content ++ cleared (k + 1)) ∧
        (withoutCR content).length + (k + 1) = filteredSize content.length ∧
        lorieLatin1ToUTF8 (cleared (utf8Size content.length))
            (withoutCR content ++ cleared (k + 1)) =
          some (encode (stringText content) ++ cleared (l + 1)) ∧
        (encode (stringText content)).length + (l + 1) = utf8Size content.length := by
  obtain ⟨k, r, hfiltered, hk, hr⟩ := exists_filtered h.1
  have hroom := h.2
  rw [← utf8Size_eq, stringText] at hroom
  obtain ⟨l, hl⟩ := Nat.exists_eq_add_of_lt hroom
  have hutf8 := lorieLatin1ToUTF8_eq (zero_notMem_cString (withoutCR content)) r hroom.le
  have hrest : utf8Size content.length -
      (encode ((cString (withoutCR content)).map latin1Char)).length = l + 1 := by omega
  rw [← hr, hrest] at hutf8
  exact ⟨k, l, hfiltered, hk, hutf8, hl.symm⟩

theorem zero_notMem_encode_stringText (content : Bytes) :
    (0 : UInt8) ∉ encode (stringText content) :=
  zero_notMem_encode (zero_notMem_map_latin1Char (zero_notMem_cString _))

/-- The buffers hold what is written exactly if their sizes leave room. -/
theorem buffersHold_iff {content : Bytes} (hsize : content.length < 2 ^ 32) :
    BuffersHold content ↔ HasRoom content := by
  constructor
  · rintro ⟨filtered, utf8, hfiltered, hlength, h0, hutf8, -, h0'⟩
    have hlt : content.length + 1 < 2 ^ 32 := by
      by_contra hge
      have hzero : filteredSize content.length = 0 := by
        rw [filteredSize, uint32]
        omega
      rw [hzero, List.length_eq_zero_iff] at hlength
      rw [hlength] at h0
      cases h0
    obtain ⟨k, r, hfiltered', -, hr⟩ := exists_filtered hlt
    obtain rfl := Option.some.inj (hfiltered.symm.trans hfiltered')
    rw [hr] at hutf8
    have hle := length_encode_le_of_latin1ToUTF8 (zero_notMem_cString (withoutCR content))
      (Nat.zero_le _) [] r hutf8
    rw [Nat.zero_add, cleared, List.length_replicate] at hle
    refine ⟨hlt, ?_⟩
    rw [← utf8Size_eq, stringText]
    refine lt_of_le_of_ne hle fun heq => ?_
    rw [lorieLatin1ToUTF8_eq (zero_notMem_cString (withoutCR content)) r hle, heq, Nat.sub_self]
      at hutf8
    obtain rfl := Option.some.inj hutf8
    rw [cleared, List.replicate_zero, List.append_nil] at h0'
    exact zero_notMem_encode_stringText content h0'
  · intro h
    obtain ⟨k, l, hfiltered, hk, hutf8, hl⟩ := exists_buffers h
    refine ⟨_, _, hfiltered, ?_, zero_mem_append_cleared _ k, hutf8, ?_,
      zero_mem_append_cleared _ l⟩
    · rw [List.length_append, cleared, List.length_replicate, hk]
    · rw [List.length_append, cleared, List.length_replicate, hl]

/-! ### The path of the type `STRING` -/

/-- The two conversions stay inside the two buffers and leave a NUL in both, and the text that is
sent to the activity is the UTF-8 of the content without its carriage returns, up to its first
NUL. -/
def Delivered (s : Lookup) (lookup : Atom → Option Property) (prop : Property) : Prop :=
  BuffersHold prop.data ∧
    lorieHandleSelection s lookup .STRING = some [.clipboardData (encode (stringText prop.data))]

/-- **The text of a property of the type `STRING` is delivered exactly if the buffers have room for
it**, which they do for every content below two gigabytes. -/
theorem delivered_iff (s : Lookup) {lookup : Atom → Option Property} {prop : Property}
    (hprop : lookup .STRING = some prop) (htype : prop.type = .STRING) (hformat : prop.format = 8) :
    Delivered s lookup prop ↔ HasRoom prop.data := by
  rw [Delivered, buffersHold_iff prop.size_lt]
  refine and_iff_left_of_imp fun h => ?_
  obtain ⟨k, l, hfiltered, -, hutf8, -⟩ := exists_buffers h
  simp [lorieHandleSelection, hprop, htype, hformat, hfiltered, hutf8, readString_append_cleared,
    cString_eq_self (zero_notMem_encode_stringText prop.data)]

/-- A line with a carriage return and an accented letter, and what follows a NUL. -/
theorem delivered_line :
    lorieHandleSelection ⟨true, fun _ => none, 0, 0⟩
        (fun _ => some { type := .STRING, format := 8, data := [233, 13, 10, 0, 65] }) .STRING =
      some [.clipboardData [195, 169, 10]] := by
  have htext : encode (stringText [233, 13, 10, 0, 65]) = [195, 169, 10] := by decide +kernel
  have h := @delivered_iff ⟨true, fun _ => none, 0, 0⟩
    (fun _ => some { type := .STRING, format := 8, data := [233, 13, 10, 0, 65] }) _ rfl rfl rfl
  rw [← htext]
  exact (h.2 (hasRoom_of_length (by decide))).2

/-- A property of two gigabytes but one byte. -/
def longProperty : Property where
  type := .STRING
  format := 8
  data := List.replicate (2 ^ 31 - 1) 65
  size_lt := by
    rw [List.length_replicate]
    norm_num

/-- The size of the second buffer for it is zero in 32 bits. -/
theorem not_delivered_long :
    ¬ Delivered ⟨true, fun _ => none, 0, 0⟩ (fun _ => some longProperty) longProperty := by
  rintro ⟨hhold, -⟩
  have hroom := ((buffersHold_iff longProperty.size_lt).1 hhold).2
  have hlength : longProperty.data.length = 2 ^ 31 - 1 := List.length_replicate
  have hzero : uint32 ((2 ^ 31 - 1 + 1) * 2) = 0 := by
    rw [uint32]
    norm_num
  rw [hlength, hzero] at hroom
  exact Nat.not_lt_zero _ hroom

end TermuxX11.Server
