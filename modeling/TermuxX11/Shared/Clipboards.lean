import TermuxX11.Lib.Bytes
import TermuxX11.Server.Clipboard

/-!
# The two clipboards

Android has a clipboard, and X has the selection `CLIPBOARD`, which belongs to a client or to the
server.  The activity tells the server of a copy on Android by an announcement, and the server
becomes the owner; it gets the text when a client asks for it, and keeps it in `cachedData`.  When a
client becomes the owner, the server asks it for its targets and then for its text, and the activity
puts the text on Android's clipboard.

The model has both sides with the messages between them, which are handled in the order in which
they are sent, and the requests that clients have not answered.  The server's part is that of
`Server.Clipboard`.  Android lets the window that has the focus read its clipboard, and any window
write it; its time goes by in milliseconds.  A text has no NUL, and a client's text is what arrives
of it on Android.  A message is there as a whole when it is read, and its text fits the stack.  For
a text `xcallback` asks for one byte more than was announced: if another message is behind, it takes
the first byte of that, and all that it reads from then on is out of frame.  Left out are the
synchronisation being switched off, a lost connection, and allocations that fail.
-/

namespace TermuxX11.Shared

open Run ByteCoding
open Server (Clipboard Lookups ProcLookups ConvertSelectionReq LorieDataTarget)

/-- A text that is copied: no NUL among its bytes, and their number is announced as it is. -/
structure Text where
  bytes : Bytes
  zero_notMem : (0 : UInt8) ∉ bytes
  length_lt : bytes.length < 2 ^ 32 - 1

/-- The owner of the selection `CLIPBOARD`.  A client may have no text. -/
inductive SelectionOwner
  | nobody
  | server
  | client (text : Option Bytes)
  deriving DecidableEq, Repr

/-- What a client was asked for, with what it will answer. -/
inductive Asked
  | targets (text : Option Bytes)
  | text (text : Bytes)
  deriving DecidableEq, Repr

/-- `EVENT_CLIPBOARD_ANNOUNCE` and `EVENT_CLIPBOARD_SEND` of the activity. -/
inductive ToServer
  | announce
  | data (text : Bytes)
  deriving DecidableEq, Repr

/-- `EVENT_CLIPBOARD_REQUEST` and `EVENT_CLIPBOARD_SEND` of the server, and its other messages. -/
inductive ToActivity
  | request
  | data (text : Bytes)
  | other
  deriving DecidableEq, Repr

/-- `xcallback` takes a byte of the messages `ms` behind this one. -/
def ToActivity.overreads : ToActivity → List ToActivity → Bool
  | .data text, ms => decide (text ≠ []) && decide (ms ≠ [])
  | _, _ => false

/-- Android's clipboard is `clip`, set at `timestamp`; `isText` says that it has one type, which is
plain text or HTML.  `notified` says that `handleClipboardChange` is to be called, and `inFrame`
that the next bytes for the activity are those of a message. -/
structure Clipboards where
  clip : Option Bytes
  timestamp : ℕ
  isText : Bool
  now : ℕ
  lastClipboardTimestamp : ℕ
  hasFocus : Bool
  notified : Bool
  toServer : List ToServer
  toActivity : List ToActivity
  inFrame : Bool
  owner : SelectionOwner
  asked : List Asked
  server : Clipboard

/-- What happens on either side.  `setPrimaryClip` is a copy in another application of Android,
`setSelectionOwner` one in X, or that the selection has no owner any more. -/
inductive ClipboardsStep
  | setPrimaryClip (text : Option Text) (isText : Bool)
  | tick (ms : ℕ)
  | onWindowFocusChanged (hasFocus : Bool)
  | handleClipboardChange
  | xcallback
  | processWorkQueue (l : LorieDataTarget → Lookups)
  | sendOther
  | setSelectionOwner (text : Option (Option Text))
  | selectionNotify (answer : Asked)
  | convertSelection (l : ProcLookups) (client : ℕ) (stuff : ConvertSelectionReq)

namespace Clipboards

variable (s : Clipboards)

/-- The test of `checkForClipboardChange`: there is a text that the server was not told of. -/
def Unannounced : Prop := s.lastClipboardTimestamp < s.timestamp ∧ s.isText = true

instance : Decidable s.Unannounced := inferInstanceAs (Decidable (_ ∧ _))

/-- `checkForClipboardChange`, in a window with the focus. -/
def checkForClipboardChange : Clipboards :=
  if s.Unannounced then
    { s with lastClipboardTimestamp := s.timestamp, toServer := s.toServer ++ [.announce] }
  else s

/-- `setClipboardText`. -/
def setClipboardText (text : Bytes) : Clipboards :=
  { s with
    clip := some text, timestamp := s.now, isText := true,
    lastClipboardTimestamp := s.now + 150 }

/-- `getText`. -/
def getText : Option Bytes := if s.hasFocus then s.clip else none

/-- `requestClipboard`. -/
def requestClipboard : Clipboards :=
  match s.getText with
  | none => s
  | some text => { s with toServer := s.toServer ++ [.data text] }

/-- `lorieSelectionRequest` for `TARGETS`. -/
def requestTargets : Clipboards :=
  match s.owner with
  | .client text => { s with asked := s.asked ++ [.targets text] }
  | _ => s

/-- `lorieSelectionRequest` for `UTF8_STRING` or `STRING`. -/
def requestText : Clipboards :=
  match s.owner with
  | .client (some text) => { s with asked := s.asked ++ [.text text] }
  | _ => s

/-- `xcallback` has read the message `m`, and `ms` are behind it. -/
def read (m : ToActivity) (ms : List ToActivity) : Clipboards :=
  { s with toActivity := ms, inFrame := !m.overreads ms }

/-- The messages about the clipboard in `xcallback`; an empty text is ignored. -/
def receive : ToActivity → Clipboards
  | .request => s.requestClipboard
  | .data text => if text = [] then s else s.setClipboardText text
  | .other => s

/-- `lorieHandleClipboardAnnounce` and `lorieHandleClipboardData`.  The request for the targets of
the new owner goes to the server itself, which is sent no events. -/
def serve (l : LorieDataTarget → Lookups) : ToServer → Option Clipboards
  | .announce =>
    some { s with server := s.server.lorieHandleClipboardAnnounce, owner := .server }
  | .data text =>
    (s.server.lorieHandleClipboardData l text
      (s.server.lorieDataTargetHead.length + 1)).map fun c => { s with server := c }

/-- `lorieHandleSelection` for the answer of a client. -/
def lorieHandleSelection : Asked → Clipboards
  | .targets none => s
  | .targets (some _) => s.requestText
  | .text text => { s with toActivity := s.toActivity ++ [.data text] }

/-- `lorieProcConvertSelection`; `lorieRequestClipboard` is called as often as it counts. -/
def convert (l : ProcLookups) (client : ℕ) (stuff : ConvertSelectionReq) : Clipboards :=
  let server := (s.server.lorieProcConvertSelection l client stuff).2
  { s with
    server := server,
    toActivity := s.toActivity ++ List.replicate (server.asked - s.server.asked) .request }

/-- One step; `none` if it is not this step's turn. -/
def step : ClipboardsStep → Option Clipboards
  | .setPrimaryClip text isText =>
    some { s with
      clip := text.map Text.bytes, timestamp := s.now, isText := isText,
      notified := s.notified || s.hasFocus }
  | .tick ms => some { s with now := s.now + ms }
  | .onWindowFocusChanged true => some { s with hasFocus := true }.checkForClipboardChange
  | .onWindowFocusChanged false => some { s with hasFocus := false, notified := false }
  | .handleClipboardChange =>
    if s.notified then some { s with notified := false }.checkForClipboardChange else none
  | .xcallback =>
    match s.inFrame, s.toActivity with
    | true, m :: ms => some ((s.read m ms).receive m)
    | _, _ => none
  | .processWorkQueue l =>
    match s.toServer with
    | [] => none
    | m :: ms => { s with toServer := ms }.serve l m
  | .sendOther => some { s with toActivity := s.toActivity ++ [.other] }
  | .setSelectionOwner none => some { s with owner := .nobody }
  | .setSelectionOwner (some text) =>
    some { s with owner := .client (text.map Text.bytes) }.requestTargets
  | .selectionNotify answer =>
    if answer ∈ s.asked then
      some ({ s with asked := s.asked.erase answer }.lorieHandleSelection answer)
    else none
  | .convertSelection l client stuff =>
    if l.owned = (decide (s.owner = .server) && decide (stuff.selection = .CLIPBOARD)) then
      some (s.convert l client stuff)
    else none

/-- The activity is connected to a server; what Android's clipboard has is not looked at. -/
def start (clip : Option Text) (isText : Bool) (timestamp now : ℕ) : Clipboards :=
  { clip := clip.map Text.bytes, timestamp := timestamp, isText := isText, now := now,
    lastClipboardTimestamp := now, hasFocus := false, notified := false,
    toServer := [], toActivity := [], inFrame := true, owner := .nobody, asked := [],
    server := {} }

/-! ### What X has -/

/-- What a message makes of the owner and of `cachedData`. -/
def after : SelectionOwner × Option Bytes → ToServer → SelectionOwner × Option Bytes
  | _, .announce => (.server, none)
  | (owner, _), .data text => (owner, some text)

/-- The owner and `cachedData` when all messages to the server have been handled. -/
def ahead : SelectionOwner × Option Bytes :=
  s.toServer.foldl after (s.owner, s.server.cachedData)

/-- The text that a client gets for a given owner and `cachedData`, if nobody on Android is asked.
An empty text of a client counts as none. -/
def textOf : SelectionOwner × Option Bytes → Option Bytes
  | (.nobody, _) => none
  | (.server, cached) => cached
  | (.client text, _) => text.filter (· ≠ [])

/-- The text is on its way from a client to Android. -/
def Coming (text : Bytes) : Prop :=
  .targets (some text) ∈ s.asked ∨ .text text ∈ s.asked ∨ .data text ∈ s.toActivity

/-- X keeps the text, and Android will not be told of it. -/
def Keeps (text : Bytes) : Prop :=
  textOf s.ahead = some text ∧ (s.ahead.1 = .server ∨ ¬ s.Coming text)

/-- X has nothing else than Android, or what one of them has is on its way to the other. -/
def Coherent : Prop := s.Unannounced ∨ ∀ text, s.Keeps text → s.clip = some text

/-- What a step puts on Android's clipboard without the server being told. -/
def puts : ClipboardsStep → Option (Option Bytes)
  | .setPrimaryClip text isText =>
    if s.lastClipboardTimestamp < s.now ∧ isText = true then none
    else some (text.map Text.bytes)
  | .xcallback =>
    match s.toActivity with
    | .data text :: _ => if text = [] then none else some (some text)
    | _ => none
  | _ => none

/-- The step puts a text on Android's clipboard without the server being told, while X keeps
another one. -/
def Parts (a : ClipboardsStep) : Prop :=
  ∃ clip text, s.puts a = some clip ∧ s.Keeps text ∧ clip ≠ some text

/-- The step reads a text that another message is behind. -/
def overreads : ClipboardsStep → Bool
  | .xcallback =>
    match s.toActivity with
    | m :: ms => m.overreads ms
    | [] => false
  | _ => false

instance (text : Bytes) : Decidable (s.Coming text) := inferInstanceAs (Decidable (_ ∨ _))

instance (text : Bytes) : Decidable (s.Keeps text) := inferInstanceAs (Decidable (_ ∧ _))

instance (a : ClipboardsStep) : Decidable (s.Parts a) :=
  decidable_of_iff
    (∃ clip, clip ∈ s.puts a ∧ ∃ text, text ∈ textOf s.ahead ∧ s.Keeps text ∧ clip ≠ some text)
    ⟨fun ⟨clip, hclip, text, _, h⟩ => ⟨clip, text, hclip, h⟩,
      fun ⟨clip, text, hclip, h⟩ => ⟨clip, hclip, text, h.1.1, h⟩⟩

variable {s} {s' : Clipboards} {a : ClipboardsStep}

/-! ### What a step is -/

theorem xcallback_cases (hs : s.step .xcallback = some s') :
    s.inFrame = true ∧ ∃ m ms, s.toActivity = m :: ms ∧ s' = (s.read m ms).receive m := by
  rw [step] at hs
  split at hs
  case h_1 m ms hframe hm => exact ⟨hframe, m, ms, hm, (Option.some.inj hs).symm⟩
  case h_2 => cases hs

theorem xcallback_isSome (hframe : s.inFrame = true) (hm : s.toActivity ≠ []) :
    (s.step .xcallback).isSome = true := by
  obtain ⟨m, ms, hm⟩ := List.exists_cons_of_ne_nil hm
  simp only [step, hframe, hm, Option.isSome_some]

theorem processWorkQueue_cases {l : LorieDataTarget → Lookups}
    (hs : s.step (.processWorkQueue l) = some s') :
    ∃ m ms, s.toServer = m :: ms ∧ { s with toServer := ms }.serve l m = some s' := by
  cases hm : s.toServer with
  | nil =>
    simp only [step, hm] at hs
    cases hs
  | cons m ms =>
    simp only [step, hm] at hs
    exact ⟨m, ms, rfl, hs⟩

theorem handleClipboardChange_cases (hs : s.step .handleClipboardChange = some s') :
    s.notified = true ∧ s' = { s with notified := false }.checkForClipboardChange := by
  rw [step] at hs
  split_ifs at hs with hnotified
  exact ⟨hnotified, (Option.some.inj hs).symm⟩

theorem selectionNotify_cases {answer : Asked}
    (hs : s.step (.selectionNotify answer) = some s') :
    answer ∈ s.asked ∧
      s' = { s with asked := s.asked.erase answer }.lorieHandleSelection answer := by
  rw [step] at hs
  split_ifs at hs with hmem
  exact ⟨hmem, (Option.some.inj hs).symm⟩

theorem convertSelection_eq {l : ProcLookups} {client : ℕ} {stuff : ConvertSelectionReq}
    (hs : s.step (.convertSelection l client stuff) = some s') :
    s' = s.convert l client stuff := by
  rw [step] at hs
  split_ifs at hs
  exact (Option.some.inj hs).symm

/-! ### The messages to the server -/

theorem ahead_of_toServer {m : ToServer} {ms : List ToServer} (h : s.toServer = m :: ms) :
    s.ahead = ms.foldl after (after (s.owner, s.server.cachedData) m) := by
  rw [ahead, h, List.foldl_cons]

theorem ahead_append (ms : List ToServer) (h : s'.toServer = s.toServer ++ ms)
    (howner : s'.owner = s.owner) (hcached : s'.server.cachedData = s.server.cachedData) :
    s'.ahead = ms.foldl after s.ahead := by
  rw [ahead, h, howner, hcached, List.foldl_append]
  rfl

/-- An announcement makes the server the owner, whoever was before. -/
theorem foldl_after_cases (ms : List ToServer) (owner : SelectionOwner) (cached : Option Bytes) :
    (ms.foldl after (owner, cached)).1 = owner ∨
      (∀ owner', ms.foldl after (owner', cached) = ms.foldl after (owner, cached)) ∧
        (ms.foldl after (owner, cached)).1 = .server := by
  induction ms generalizing owner cached with
  | nil => exact .inl rfl
  | cons m ms ih =>
    cases m with
    | announce =>
      refine .inr ⟨fun _ => rfl, ?_⟩
      rw [List.foldl_cons, after]
      exact (ih .server none).elim id fun h => h.2
    | data text => exact ih owner (some text)

theorem handleClipboardData_spec {l : LorieDataTarget → Lookups} {text : Bytes} {c c' : Clipboard}
    {fuel : ℕ} (h : c.lorieHandleClipboardData l text fuel = some c') :
    c'.cachedData = some text ∧ c'.lorieDataTargetHead = [] :=
  ⟨(Clipboard.answerPending_spec rfl h).cachedData, (Clipboard.answerPending_spec rfl h).pending⟩

/-- A request of a client leaves `cachedData`, and waits if the activity is asked for the text. -/
theorem convertSelection_cases (l : ProcLookups) (client : ℕ) (stuff : ConvertSelectionReq)
    (c : Clipboard) :
    (c.lorieProcConvertSelection l client stuff).2.cachedData = c.cachedData ∧
      ((c.lorieProcConvertSelection l client stuff).2.asked = c.asked ∧
          (c.lorieProcConvertSelection l client stuff).2.lorieDataTargetHead =
            c.lorieDataTargetHead ∨
        (c.lorieProcConvertSelection l client stuff).2.asked = c.asked + 1) := by
  cases hl : l.accepts stuff with
  | false =>
    rw [Clipboard.lorieProcConvertSelection_refused hl]
    exact ⟨rfl, .inl ⟨rfl, rfl⟩⟩
  | true =>
    rw [Clipboard.lorieProcConvertSelection_accepted hl]
    rcases Clipboard.answer_cases l.convert (Clipboard.ofReq client stuff c) c.cachedData with
      ⟨-, -, h⟩ | ⟨ps, h⟩
    · rw [h]
      exact ⟨rfl, .inr rfl⟩
    · rw [h]
      exact ⟨rfl, .inl ⟨rfl, rfl⟩⟩

theorem convert_cachedData (l : ProcLookups) (client : ℕ) (stuff : ConvertSelectionReq) :
    (s.convert l client stuff).server.cachedData = s.server.cachedData :=
  (convertSelection_cases l client stuff s.server).1

/-! ### The steps of X -/

/-- The step is one of the server or of its clients. -/
def OfX : ClipboardsStep → Prop
  | .processWorkQueue _ | .sendOther | .setSelectionOwner _ => True
  | .selectionNotify _ | .convertSelection _ _ _ => True
  | _ => False

/-- Nothing has happened on Android. -/
structure SameAndroid (s s' : Clipboards) : Prop where
  clip : s'.clip = s.clip
  timestamp : s'.timestamp = s.timestamp
  isText : s'.isText = s.isText
  lastClipboardTimestamp : s'.lastClipboardTimestamp = s.lastClipboardTimestamp
  hasFocus : s'.hasFocus = s.hasFocus
  notified : s'.notified = s.notified

theorem SameAndroid.unannounced_iff (h : SameAndroid s s') : s'.Unannounced ↔ s.Unannounced := by
  rw [Unannounced, Unannounced, h.lastClipboardTimestamp, h.timestamp, h.isText]

theorem sameAndroid_lorieHandleSelection (answer : Asked) :
    SameAndroid s (s.lorieHandleSelection answer) := by
  rcases answer with (_ | offered) | given
  · exact ⟨rfl, rfl, rfl, rfl, rfl, rfl⟩
  · rw [lorieHandleSelection, requestText]
    split
    · exact ⟨rfl, rfl, rfl, rfl, rfl, rfl⟩
    · exact ⟨rfl, rfl, rfl, rfl, rfl, rfl⟩
  · exact ⟨rfl, rfl, rfl, rfl, rfl, rfl⟩

theorem sameAndroid_serve {l : LorieDataTarget → Lookups} {m : ToServer}
    (hs : s.serve l m = some s') : SameAndroid s s' := by
  cases m with
  | announce =>
    obtain rfl := Option.some.inj hs
    exact ⟨rfl, rfl, rfl, rfl, rfl, rfl⟩
  | data text =>
    obtain ⟨c, -, rfl⟩ := Option.map_eq_some_iff.1 hs
    exact ⟨rfl, rfl, rfl, rfl, rfl, rfl⟩

/-- What X does is seen on Android through the messages only. -/
theorem sameAndroid_step (hs : s.step a = some s') (ha : OfX a) : SameAndroid s s' := by
  cases a with
  | setPrimaryClip text isText => cases ha
  | tick ms => cases ha
  | onWindowFocusChanged hasFocus => cases ha
  | handleClipboardChange => cases ha
  | xcallback => cases ha
  | processWorkQueue l =>
    obtain ⟨m, ms, hm, hs⟩ := processWorkQueue_cases hs
    obtain ⟨h₁, h₂, h₃, h₄, h₅, h₆⟩ := sameAndroid_serve hs
    exact ⟨h₁, h₂, h₃, h₄, h₅, h₆⟩
  | sendOther =>
    obtain rfl := Option.some.inj hs
    exact ⟨rfl, rfl, rfl, rfl, rfl, rfl⟩
  | setSelectionOwner text =>
    cases text with
    | none =>
      obtain rfl := Option.some.inj hs
      exact ⟨rfl, rfl, rfl, rfl, rfl, rfl⟩
    | some text =>
      obtain rfl := Option.some.inj hs
      exact ⟨rfl, rfl, rfl, rfl, rfl, rfl⟩
  | selectionNotify answer =>
    obtain ⟨-, rfl⟩ := selectionNotify_cases hs
    obtain ⟨h₁, h₂, h₃, h₄, h₅, h₆⟩ :=
      sameAndroid_lorieHandleSelection (s := { s with asked := s.asked.erase answer }) answer
    exact ⟨h₁, h₂, h₃, h₄, h₅, h₆⟩
  | convertSelection l client stuff =>
    obtain rfl := convertSelection_eq hs
    exact ⟨rfl, rfl, rfl, rfl, rfl, rfl⟩

/-! ### What a step does to a text that is kept -/

/-- A text that is kept, and not by the server, is that of the client that will own the
selection. -/
theorem owner_of_textOf {p : SelectionOwner × Option Bytes} {text : Bytes}
    (h : textOf p = some text) (hserver : p.1 ≠ .server) : p.1 = .client (some text) := by
  obtain ⟨owner, cached⟩ := p
  cases owner with
  | nobody => cases h
  | server => exact absurd rfl hserver
  | client text' => exact congrArg _ (Option.filter_eq_some_iff.1 h).1

/-- A client keeps no empty text. -/
theorem ne_nil_of_textOf {p : SelectionOwner × Option Bytes} {text : Bytes}
    (h : textOf p = some text) (hserver : p.1 ≠ .server) : text ≠ [] := by
  obtain ⟨owner, cached⟩ := p
  cases owner with
  | nobody => cases h
  | server => exact absurd rfl hserver
  | client text' => exact of_decide_eq_true (Option.filter_eq_some_iff.1 h).2

/-- Nothing is kept that was not, where the messages to the server stay the same and what a client
has told Android of is still on its way. -/
theorem keeps_of_coming (hahead : s'.ahead = s.ahead)
    (hcoming : ∀ text ≠ [], s.ahead.1 = .client (some text) → s.Coming text → s'.Coming text)
    {text : Bytes} (h : s'.Keeps text) : s.Keeps text := by
  obtain ⟨htext, hkeeps⟩ := h
  rw [hahead] at htext hkeeps
  refine ⟨htext, ?_⟩
  by_cases hserver : s.ahead.1 = .server
  · exact .inl hserver
  · have howner := owner_of_textOf htext hserver
    have hnil := ne_nil_of_textOf htext hserver
    exact .inr fun hc => hkeeps.elim hserver fun hnot => hnot (hcoming text hnil howner hc)

theorem Coherent.of_keeps (h : s.Coherent) (hlast : s.Unannounced → s'.Unannounced)
    (hclip : s'.clip = s.clip) (hkeeps : ∀ text, s'.Keeps text → s.Keeps text) : s'.Coherent := by
  refine h.imp hlast fun hall text ht => ?_
  rw [hclip]
  exact hall text (hkeeps text ht)

/-- An announcement takes away all that X keeps. -/
theorem coherent_checkForClipboardChange (h : s.Coherent) :
    s.checkForClipboardChange.Coherent := by
  rw [checkForClipboardChange]
  split_ifs with hu
  · refine .inr fun text hkeeps => ?_
    obtain ⟨htext, -⟩ := hkeeps
    rw [ahead_append (s := s) [.announce] (by rfl) (by rfl) (by rfl)] at htext
    cases htext
  · exact h

/-- What is kept by a client does not depend on `cachedData`. -/
theorem textOf_of_ne_server {owner : SelectionOwner} (h : owner ≠ .server)
    (cached cached' : Option Bytes) : textOf (owner, cached) = textOf (owner, cached') := by
  cases owner with
  | nobody => rfl
  | server => exact absurd rfl h
  | client text => rfl

theorem clip_of_getText {text : Bytes} (h : s.getText = some text) : s.clip = some text := by
  rw [getText] at h
  split_ifs at h
  exact h

/-- The text that Android gives is the one that it has. -/
theorem coherent_requestClipboard (h : s.Coherent) : s.requestClipboard.Coherent := by
  rw [requestClipboard]
  cases hget : s.getText with
  | none => exact h
  | some given =>
    refine h.imp id fun hall text ht => ?_
    obtain ⟨htext, hkeeps⟩ := ht
    have hahead : ahead { s with toServer := s.toServer ++ [.data given] } =
        after s.ahead (.data given) := ahead_append [.data given] rfl rfl rfl
    rw [hahead] at htext hkeeps
    by_cases hserver : s.ahead.1 = .server
    · have hgiven : textOf (after s.ahead (.data given)) = some given := by
        rw [show after s.ahead (.data given) = (s.ahead.1, some given) from rfl, hserver]
        rfl
      exact (clip_of_getText hget).trans (hgiven.symm.trans htext)
    · refine hall text ⟨?_, hkeeps⟩
      exact (textOf_of_ne_server hserver s.ahead.2 (some given)).trans htext

/-- A new owner keeps nothing that it was not asked for. -/
theorem keeps_of_setSelectionOwner (htoServer : s'.toServer = s.toServer)
    (hcached : s'.server.cachedData = s.server.cachedData) (howner : s'.owner ≠ .server)
    (hasked : ∀ text, s'.owner = .client (some text) → s'.Coming text) {text : Bytes}
    (h : s'.Keeps text) : s.Keeps text := by
  obtain ⟨htext, hkeeps⟩ := h
  rw [ahead, htoServer, hcached] at htext hkeeps
  rcases foldl_after_cases s.toServer s'.owner s.server.cachedData with hown | ⟨hall, hserver⟩
  · rw [hown] at hkeeps
    have hclient := owner_of_textOf htext fun hserver => howner (hown.symm.trans hserver)
    rw [hown] at hclient
    exact absurd (hasked text hclient) (hkeeps.resolve_left howner)
  · rw [← hall s.owner] at htext hserver
    exact ⟨htext, .inl hserver⟩

/-- The client that will own the selection owns it already. -/
theorem owner_of_ahead {text : Option Bytes} (h : s.ahead.1 = .client text) :
    s.owner = .client text := by
  rcases foldl_after_cases s.toServer s.owner s.server.cachedData with hown | ⟨-, hserver⟩
  · exact hown.symm.trans h
  · rw [show s.ahead.1 = .server from hserver] at h
    cases h

theorem ahead_serve {l : LorieDataTarget → Lookups} {m : ToServer} {ms : List ToServer}
    (h : s.toServer = m :: ms) (hs : { s with toServer := ms }.serve l m = some s') :
    s'.ahead = s.ahead ∧ s'.asked = s.asked ∧ s'.toActivity = s.toActivity := by
  rw [ahead_of_toServer h]
  cases m with
  | announce =>
    obtain rfl := Option.some.inj hs
    exact ⟨rfl, rfl, rfl⟩
  | data text =>
    obtain ⟨c, hc, rfl⟩ := Option.map_eq_some_iff.1 hs
    refine ⟨?_, rfl, rfl⟩
    rw [ahead, (handleClipboardData_spec hc).1]
    rfl

/-- The answer of a client does not lose the text of the owner. -/
theorem coming_lorieHandleSelection {answer : Asked} {text : Bytes}
    (howner : s.owner = .client (some text)) (h : s.Coming text) :
    ({ s with asked := s.asked.erase answer }.lorieHandleSelection answer).Coming text := by
  have herase : ∀ b ∈ s.asked, b ≠ answer → b ∈ s.asked.erase answer := fun b hb hne =>
    (List.mem_erase_of_ne hne).2 hb
  cases answer with
  | targets offered =>
    cases offered with
    | none =>
      rcases h with h | h | h
      · exact .inl (herase _ h (by simp))
      · exact .inr (.inl (herase _ h (by simp)))
      · exact .inr (.inr h)
    | some offered =>
      rw [lorieHandleSelection, requestText]
      simp only [howner]
      exact .inr (.inl (List.mem_append_right _ List.mem_cons_self))
  | text given =>
    by_cases hgiven : text = given
    · rw [hgiven]
      exact .inr (.inr (List.mem_append_right _ List.mem_cons_self))
    · rcases h with h | h | h
      · exact .inl (herase _ h (by simp))
      · exact .inr (.inl (herase _ h (by simpa using hgiven)))
      · exact .inr (.inr (List.mem_append_left _ h))

theorem server_lorieHandleSelection (answer : Asked) :
    (s.lorieHandleSelection answer).toServer = s.toServer ∧
      (s.lorieHandleSelection answer).owner = s.owner ∧
      (s.lorieHandleSelection answer).server = s.server := by
  rcases answer with (_ | offered) | given
  · exact ⟨rfl, rfl, rfl⟩
  · rw [lorieHandleSelection, requestText]
    split
    · exact ⟨rfl, rfl, rfl⟩
    · exact ⟨rfl, rfl, rfl⟩
  · exact ⟨rfl, rfl, rfl⟩

theorem Coherent.of_sameAndroid (h : s.Coherent) (hsame : SameAndroid s s')
    (hkeeps : ∀ text, s'.Keeps text → s.Keeps text) : s'.Coherent :=
  h.of_keeps hsame.unannounced_iff.2 hsame.clip hkeeps

/-- A message that brings Android no text is taken off. -/
theorem coherent_read {m : ToActivity} {ms : List ToActivity} (h : s.Coherent)
    (hm : s.toActivity = m :: ms) (hno : ∀ text ≠ [], m ≠ .data text) :
    (s.read m ms).Coherent := by
  refine h.of_keeps id rfl fun text => keeps_of_coming (by rfl) fun text hnil _ hcoming => ?_
  rcases hcoming with hc | hc | hc
  · exact .inl hc
  · exact .inr (.inl hc)
  · rw [hm] at hc
    exact .inr (.inr ((List.mem_cons.1 hc).resolve_left fun heq => hno text hnil heq.symm))

/-! ### What a step does -/

theorem coherent_sendOther (h : s.Coherent) (hs : s.step .sendOther = some s') :
    s'.Coherent := by
  refine h.of_sameAndroid (sameAndroid_step hs trivial) fun _ => ?_
  obtain rfl := Option.some.inj hs
  refine keeps_of_coming (by rfl) fun text _ _ hcoming => ?_
  exact hcoming.imp_right fun hc => hc.imp_right fun hc => List.mem_append_left _ hc

theorem coherent_setSelectionOwner {text : Option (Option Text)} (h : s.Coherent)
    (hs : s.step (.setSelectionOwner text) = some s') : s'.Coherent := by
  refine h.of_sameAndroid (sameAndroid_step hs trivial) fun _ => ?_
  cases text with
  | none =>
    obtain rfl := Option.some.inj hs
    refine keeps_of_setSelectionOwner ?_ ?_ ?_ ?_
    · rfl
    · rfl
    · exact fun howner => by cases howner
    · intro text htext
      cases htext
  | some owned =>
    obtain rfl := Option.some.inj hs
    refine keeps_of_setSelectionOwner ?_ ?_ ?_ ?_
    · rfl
    · rfl
    · exact fun howner => by cases howner
    · intro text' htext
      have howned : owned.map Text.bytes = some text' := SelectionOwner.client.inj htext
      refine .inl (List.mem_append_right _ ?_)
      rw [howned]
      exact List.mem_cons_self

theorem coherent_selectionNotify {answer : Asked} (h : s.Coherent)
    (hs : s.step (.selectionNotify answer) = some s') : s'.Coherent := by
  refine h.of_sameAndroid (sameAndroid_step hs trivial) fun _ => ?_
  obtain ⟨-, rfl⟩ := selectionNotify_cases hs
  obtain ⟨htoServer, howner, hserver⟩ :=
    server_lorieHandleSelection (s := { s with asked := s.asked.erase answer }) answer
  refine keeps_of_coming ?_ fun text _ hown hcoming => ?_
  · rw [ahead, htoServer, howner, hserver]
    rfl
  · exact coming_lorieHandleSelection (owner_of_ahead hown) hcoming

theorem coherent_convertSelection {l : ProcLookups} {client : ℕ} {stuff : ConvertSelectionReq}
    (h : s.Coherent) (hs : s.step (.convertSelection l client stuff) = some s') :
    s'.Coherent := by
  refine h.of_sameAndroid (sameAndroid_step hs trivial) fun _ => ?_
  obtain rfl := convertSelection_eq hs
  refine keeps_of_coming ?_ fun text _ _ hcoming => ?_
  · exact ahead_append [] (List.append_nil _).symm rfl (convert_cachedData l client stuff)
  · exact hcoming.imp_right fun hc => hc.imp_right fun hc => List.mem_append_left _ hc

theorem coherent_processWorkQueue {l : LorieDataTarget → Lookups} (h : s.Coherent)
    (hs : s.step (.processWorkQueue l) = some s') : s'.Coherent := by
  refine h.of_sameAndroid (sameAndroid_step hs trivial) fun _ => ?_
  obtain ⟨m, ms, hm, hs⟩ := processWorkQueue_cases hs
  obtain ⟨hahead, hasked, htoActivity⟩ := ahead_serve hm hs
  refine keeps_of_coming hahead fun text _ _ hcoming => ?_
  rw [Coming, hasked, htoActivity]
  exact hcoming

theorem coherent_xcallback (h : s.Coherent) (hs : s.step .xcallback = some s')
    (hputs : s.puts .xcallback = none) : s'.Coherent := by
  obtain ⟨-, m, ms, hm, rfl⟩ := xcallback_cases hs
  cases m with
  | request =>
    exact coherent_requestClipboard (coherent_read h hm fun text _ heq => by cases heq)
  | data text =>
    simp only [puts, hm] at hputs
    split_ifs at hputs with hnil
    rw [receive, if_pos hnil]
    refine coherent_read h hm fun text' hne heq => hne ?_
    rw [← ToActivity.data.inj heq, hnil]
  | other => exact coherent_read h hm fun text _ heq => by cases heq

/-- A step that puts nothing on Android's clipboard, or that the server will be told of. -/
theorem coherent_of_puts (h : s.Coherent) (hs : s.step a = some s') (hputs : s.puts a = none) :
    s'.Coherent := by
  cases a with
  | setPrimaryClip text isText =>
    obtain rfl := Option.some.inj hs
    rw [puts] at hputs
    split_ifs at hputs with hlate
    exact .inl hlate
  | tick ms =>
    obtain rfl := Option.some.inj hs
    exact h
  | onWindowFocusChanged hasFocus =>
    cases hasFocus with
    | true =>
      obtain rfl := Option.some.inj hs
      exact coherent_checkForClipboardChange (s := { s with hasFocus := true }) h
    | false =>
      obtain rfl := Option.some.inj hs
      exact h
  | handleClipboardChange =>
    obtain ⟨-, rfl⟩ := handleClipboardChange_cases hs
    exact coherent_checkForClipboardChange (s := { s with notified := false }) h
  | xcallback => exact coherent_xcallback h hs hputs
  | processWorkQueue l => exact coherent_processWorkQueue h hs
  | sendOther => exact coherent_sendOther h hs
  | setSelectionOwner text => exact coherent_setSelectionOwner h hs
  | selectionNotify answer => exact coherent_selectionNotify h hs
  | convertSelection l client stuff => exact coherent_convertSelection h hs

/-- A text that the server is not told of leaves what X keeps, and there is no more to tell. -/
theorem puts_spec {clip : Option Bytes} (hs : s.step a = some s') (hputs : s.puts a = some clip) :
    ¬ s'.Unannounced ∧ s'.clip = clip ∧
      ∀ text, clip ≠ some text → (s'.Keeps text ↔ s.Keeps text) := by
  cases a with
  | setPrimaryClip text isText =>
    obtain rfl := Option.some.inj hs
    rw [puts] at hputs
    split_ifs at hputs with hlate
    exact ⟨hlate, Option.some.inj hputs, fun text _ => Iff.rfl⟩
  | xcallback =>
    obtain ⟨-, m, ms, hm, rfl⟩ := xcallback_cases hs
    simp only [puts, hm] at hputs
    cases m with
    | request => cases hputs
    | other => cases hputs
    | data given =>
      dsimp only at hputs
      split_ifs at hputs with hnil
      obtain rfl := Option.some.inj hputs
      rw [receive, if_neg hnil]
      refine ⟨?_, rfl, fun text hne => ?_⟩
      · rintro ⟨hlt, -⟩
        simp only [setClipboardText] at hlt
        omega
      · refine and_congr Iff.rfl (or_congr Iff.rfl (not_congr ?_))
        refine or_congr Iff.rfl (or_congr Iff.rfl ?_)
        rw [hm, List.mem_cons]
        refine ⟨.inr, fun h => h.resolve_left fun heq => hne ?_⟩
        rw [ToActivity.data.inj heq]
  | tick ms => cases hputs
  | onWindowFocusChanged hasFocus => cases hputs
  | handleClipboardChange => cases hputs
  | processWorkQueue l => cases hputs
  | sendOther => cases hputs
  | setSelectionOwner text => cases hputs
  | selectionNotify answer => cases hputs
  | convertSelection l client stuff => cases hputs

theorem coherent_step_iff (h : s.Coherent) (hs : s.step a = some s') :
    s'.Coherent ↔ ¬ s.Parts a := by
  cases hputs : s.puts a with
  | none =>
    refine iff_of_true (coherent_of_puts h hs hputs) ?_
    rintro ⟨clip, text, hclip, -⟩
    rw [hputs] at hclip
    cases hclip
  | some clip =>
    obtain ⟨hlast, hclip, hkeeps⟩ := puts_spec hs hputs
    constructor
    · rintro hc ⟨clip', text, hclip', hkept, hne⟩
      obtain rfl := Option.some.inj (hputs.symm.trans hclip')
      refine hne ?_
      rw [← hclip]
      exact hc.resolve_left hlast text ((hkeeps text hne).2 hkept)
    · refine fun hnot => .inr fun text hkept => ?_
      by_contra hne
      rw [hclip] at hne
      exact hnot ⟨clip, text, hputs, (hkeeps text hne).1 hkept, hne⟩

/-! ### The bytes of the connection -/

theorem inFrame_receive (m : ToActivity) : (s.receive m).inFrame = s.inFrame := by
  cases m with
  | request =>
    rw [receive, requestClipboard]
    cases s.getText with
    | none => rfl
    | some text => rfl
  | data text =>
    rw [receive]
    split_ifs
    · rfl
    · rfl
  | other => rfl

theorem inFrame_checkForClipboardChange : s.checkForClipboardChange.inFrame = s.inFrame := by
  rw [checkForClipboardChange]
  split_ifs
  · rfl
  · rfl

theorem inFrame_serve {l : LorieDataTarget → Lookups} {m : ToServer}
    (hs : s.serve l m = some s') : s'.inFrame = s.inFrame := by
  cases m with
  | announce =>
    obtain rfl := Option.some.inj hs
    rfl
  | data text =>
    obtain ⟨c, -, rfl⟩ := Option.map_eq_some_iff.1 hs
    rfl

theorem inFrame_lorieHandleSelection (answer : Asked) :
    (s.lorieHandleSelection answer).inFrame = s.inFrame := by
  rcases answer with (_ | offered) | given
  · rfl
  · rw [lorieHandleSelection, requestText]
    split
    · rfl
    · rfl
  · rfl

/-- Only `xcallback` reads from the connection. -/
theorem inFrame_step (hs : s.step a = some s') (ha : a ≠ .xcallback) :
    s'.inFrame = s.inFrame := by
  cases a with
  | xcallback => exact absurd rfl ha
  | setPrimaryClip text isText =>
    obtain rfl := Option.some.inj hs
    rfl
  | tick ms =>
    obtain rfl := Option.some.inj hs
    rfl
  | onWindowFocusChanged hasFocus =>
    cases hasFocus with
    | true =>
      obtain rfl := Option.some.inj hs
      exact inFrame_checkForClipboardChange
    | false =>
      obtain rfl := Option.some.inj hs
      rfl
  | handleClipboardChange =>
    obtain ⟨-, rfl⟩ := handleClipboardChange_cases hs
    exact inFrame_checkForClipboardChange
  | processWorkQueue l =>
    obtain ⟨m, ms, -, hs⟩ := processWorkQueue_cases hs
    exact inFrame_serve (s := { s with toServer := ms }) hs
  | sendOther =>
    obtain rfl := Option.some.inj hs
    rfl
  | setSelectionOwner text =>
    cases text with
    | none =>
      obtain rfl := Option.some.inj hs
      rfl
    | some text =>
      obtain rfl := Option.some.inj hs
      rfl
  | selectionNotify answer =>
    obtain ⟨-, rfl⟩ := selectionNotify_cases hs
    exact inFrame_lorieHandleSelection answer
  | convertSelection l client stuff =>
    obtain rfl := convertSelection_eq hs
    rfl

theorem inFrame_step_iff (h : s.inFrame = true) (hs : s.step a = some s') :
    s'.inFrame = true ↔ s.overreads a = false := by
  by_cases ha : a = .xcallback
  · rw [ha] at hs ⊢
    obtain ⟨-, m, ms, hm, rfl⟩ := xcallback_cases hs
    rw [inFrame_receive, read, Bool.not_eq_true']
    simp only [overreads, hm]
  · refine iff_of_true ((inFrame_step hs ha).trans h) ?_
    cases a with
    | xcallback => exact absurd rfl ha
    | _ => rfl

/-! ### The clipboards of a run -/

variable {clip : Option Text} {isText : Bool} {timestamp now : ℕ}

theorem coherent_start : (start clip isText timestamp now).Coherent := by
  refine .inr fun text hkeeps => ?_
  cases hkeeps.1

def textA : Text := ⟨[65], by decide, by decide⟩

def textB : Text := ⟨[66], by decide, by decide⟩

/-- A client copies, its text comes to Android, and within 150 ms another text is copied there. -/
def tooSoon : List ClipboardsStep :=
  [.onWindowFocusChanged true, .setSelectionOwner (some (some textA)),
    .selectionNotify (.targets (some [65])), .selectionNotify (.text [65]), .xcallback, .tick 100,
    .setPrimaryClip (some textB) true, .handleClipboardChange]

/-- Nothing is on its way, and Android's clipboard has been looked at. -/
structure AtRest (s : Clipboards) : Prop where
  toServer : s.toServer = []
  toActivity : s.toActivity = []
  asked : s.asked = []
  hasFocus : s.hasFocus = true
  notified : s.notified = false

instance (s : Clipboards) : Decidable s.AtRest :=
  decidable_of_iff (s.toServer = [] ∧ s.toActivity = [] ∧ s.asked = [] ∧ s.hasFocus = true ∧
      s.notified = false)
    ⟨fun ⟨h₁, h₂, h₃, h₄, h₅⟩ => ⟨h₁, h₂, h₃, h₄, h₅⟩,
      fun ⟨h₁, h₂, h₃, h₄, h₅⟩ => ⟨h₁, h₂, h₃, h₄, h₅⟩⟩

/-- The text that a client of X gets at rest: the server asks for what it does not have. -/
def pasted (s : Clipboards) : Option Bytes :=
  match s.owner with
  | .nobody => none
  | .server => s.server.cachedData.or s.getText
  | .client text => text

/-- A window with the focus is told of a copy that it has to announce. -/
def Noticed (s : Clipboards) : Prop := s.Unannounced → s.hasFocus = true → s.notified = true

theorem noticed_checkForClipboardChange (s : Clipboards) : s.checkForClipboardChange.Noticed := by
  rw [checkForClipboardChange]
  split_ifs with hu
  · exact fun hlast => absurd hlast.1 (lt_irrefl _)
  · exact fun hlast => absurd hlast hu

theorem noticed_receive {m : ToActivity} (h : s.Noticed) : (s.receive m).Noticed := by
  cases m with
  | request =>
    rw [receive, requestClipboard]
    cases s.getText with
    | none => exact h
    | some text => exact h
  | data text =>
    rw [receive]
    split_ifs
    · exact h
    · rintro ⟨hlt, -⟩
      simp only [setClipboardText] at hlt
      omega
  | other => exact h

theorem Noticed.of_sameAndroid (h : s.Noticed) (hsame : SameAndroid s s') : s'.Noticed := by
  rw [Noticed, hsame.unannounced_iff, hsame.hasFocus, hsame.notified]
  exact h

theorem noticed_step (h : s.Noticed) (hs : s.step a = some s') : s'.Noticed := by
  cases a with
  | setPrimaryClip text isText =>
    obtain rfl := Option.some.inj hs
    intro _ hfocus
    exact Bool.or_eq_true_iff.2 (.inr hfocus)
  | tick ms =>
    obtain rfl := Option.some.inj hs
    exact h
  | onWindowFocusChanged hasFocus =>
    cases hasFocus with
    | true =>
      obtain rfl := Option.some.inj hs
      exact noticed_checkForClipboardChange _
    | false =>
      obtain rfl := Option.some.inj hs
      exact fun _ hfocus => absurd hfocus (by simp)
  | handleClipboardChange =>
    obtain ⟨-, rfl⟩ := handleClipboardChange_cases hs
    exact noticed_checkForClipboardChange _
  | xcallback =>
    obtain ⟨-, m, ms, -, rfl⟩ := xcallback_cases hs
    exact noticed_receive (s := s.read m ms) h
  | processWorkQueue l => exact h.of_sameAndroid (sameAndroid_step hs trivial)
  | sendOther => exact h.of_sameAndroid (sameAndroid_step hs trivial)
  | setSelectionOwner text => exact h.of_sameAndroid (sameAndroid_step hs trivial)
  | selectionNotify answer => exact h.of_sameAndroid (sameAndroid_step hs trivial)
  | convertSelection l client stuff => exact h.of_sameAndroid (sameAndroid_step hs trivial)

/-- What X gives at rest is what Android has, if the two are together. -/
theorem pasted_of_atRest (h : s.Coherent) (hnoticed : s.Noticed) (hrest : s.AtRest) {text : Bytes}
    (htext : text ≠ []) (hpasted : s.pasted = some text) : s.clip = some text := by
  have hlast : ¬ s.Unannounced := fun hu => by
    have := hnoticed hu hrest.hasFocus
    rw [hrest.notified] at this
    cases this
  have hall := h.resolve_left hlast
  have hahead : s.ahead = (s.owner, s.server.cachedData) := by
    rw [ahead, hrest.toServer, List.foldl_nil]
  have hcoming : ¬ s.Coming text := by
    rw [Coming, hrest.asked, hrest.toActivity]
    simp
  rw [pasted] at hpasted
  cases howner : s.owner with
  | nobody =>
    rw [howner] at hpasted
    cases hpasted
  | server =>
    rw [howner] at hpasted hahead
    cases hcached : s.server.cachedData with
    | none =>
      rw [hcached, Option.none_or] at hpasted
      exact clip_of_getText hpasted
    | some cached =>
      rw [hcached] at hahead hpasted
      exact hall text ⟨by rw [hahead]; exact hpasted, .inl (by rw [hahead])⟩
  | client offered =>
    rw [howner] at hpasted hahead
    refine hall text ⟨?_, .inr hcoming⟩
    rw [hahead, textOf, Option.filter_eq_some_iff]
    exact ⟨hpasted, decide_eq_true htext⟩

/-- A text is copied on Android, and a client asks for it. -/
def copyAndPaste : List ClipboardsStep :=
  [.onWindowFocusChanged true, .tick 1, .setPrimaryClip (some textA) true, .handleClipboardChange,
    .processWorkQueue fun _ => {}, .convertSelection {} 1 ⟨.CLIPBOARD, .UTF8_STRING, none, 2, 3⟩,
    .xcallback, .processWorkQueue fun _ => {}]

/-- The step handles a message or an answer that is there, or the notice of a copy. -/
def Handles : ClipboardsStep → Prop
  | .handleClipboardChange | .xcallback | .processWorkQueue _ | .selectionNotify _ => True
  | _ => False

/-- How much follows from an answer of a client at most. -/
def weight : Asked → ℕ
  | .targets _ => 4
  | .text _ => 3

/-- How many steps can still be made to handle what is there. -/
def load (s : Clipboards) : ℕ :=
  (s.asked.map weight).sum + 2 * s.toActivity.length + s.toServer.length +
    if s.notified then 2 else 0

theorem load_checkForClipboardChange_le (s : Clipboards) :
    s.checkForClipboardChange.load ≤ s.load + 1 := by
  rw [checkForClipboardChange]
  split_ifs
  · simp only [load, List.length_append, List.length_singleton]
    omega
  · omega

theorem load_receive_le (m : ToActivity) : (s.receive m).load ≤ s.load + 1 := by
  cases m with
  | request =>
    rw [receive, requestClipboard]
    cases s.getText with
    | none => exact Nat.le_succ _
    | some text =>
      simp only [load, List.length_append, List.length_singleton]
      omega
  | data text =>
    rw [receive]
    split_ifs
    · exact Nat.le_succ _
    · exact Nat.le_succ _
  | other => exact Nat.le_succ _

theorem load_lorieHandleSelection_lt (answer : Asked) :
    (s.lorieHandleSelection answer).load < s.load + weight answer := by
  rcases answer with (_ | offered) | given
  · rw [lorieHandleSelection, weight]
    omega
  · rw [lorieHandleSelection, requestText, weight]
    split
    · simp only [load, List.map_append, List.sum_append, List.map_cons, List.map_nil,
        List.sum_singleton, weight]
      omega
    · omega
  · change (s.asked.map weight).sum + 2 * (s.toActivity ++ [ToActivity.data given]).length +
      s.toServer.length + (if s.notified then 2 else 0) < s.load + 3
    rw [load, List.length_append, List.length_singleton]
    omega

/-- Handling something leaves less to handle. -/
theorem load_step_lt (ha : Handles a) (hs : s.step a = some s') : s'.load < s.load := by
  cases a with
  | setPrimaryClip text isText => cases ha
  | tick ms => cases ha
  | onWindowFocusChanged hasFocus => cases ha
  | sendOther => cases ha
  | setSelectionOwner text => cases ha
  | convertSelection l client stuff => cases ha
  | handleClipboardChange =>
    obtain ⟨hnotified, rfl⟩ := handleClipboardChange_cases hs
    have hle := load_checkForClipboardChange_le { s with notified := false }
    have hload : load { s with notified := false } + 2 = s.load := by
      simp [load, hnotified]
    omega
  | xcallback =>
    obtain ⟨-, m, ms, hm, rfl⟩ := xcallback_cases hs
    have hle := load_receive_le (s := s.read m ms) m
    have hread : (s.read m ms).load = load { s with toActivity := ms } := rfl
    have hload : load { s with toActivity := ms } + 2 = s.load := by
      simp only [load, hm, List.length_cons]
      omega
    omega
  | processWorkQueue l =>
    obtain ⟨m, ms, hm, hs⟩ := processWorkQueue_cases hs
    have hload : load { s with toServer := ms } + 1 = s.load := by
      simp only [load, hm, List.length_cons]
      omega
    cases m with
    | announce =>
      obtain rfl := Option.some.inj hs
      exact Nat.lt_of_succ_le hload.le
    | data text =>
      obtain ⟨c, -, rfl⟩ := Option.map_eq_some_iff.1 hs
      exact Nat.lt_of_succ_le hload.le
  | selectionNotify answer =>
    obtain ⟨hmem, rfl⟩ := selectionNotify_cases hs
    have hlt := load_lorieHandleSelection_lt (s := { s with asked := s.asked.erase answer }) answer
    have hsum := List.sum_map_erase weight hmem
    have hload : load { s with asked := s.asked.erase answer } + weight answer = s.load := by
      simp only [load]
      omega
    omega

theorem length_add_load_le {as : List ClipboardsStep} (ha : ∀ a ∈ as, Handles a)
    (he : tryExec step s as = some s') : as.length + s'.load ≤ s.load := by
  induction as generalizing s with
  | nil =>
    obtain rfl := Option.some.inj he
    exact (Nat.zero_add _).le
  | cons a as ih =>
    obtain ⟨t, ht, he⟩ := tryExec_cons he
    rw [List.forall_mem_cons] at ha
    have hlt := load_step_lt ha.1 ht
    have hle := ih ha.2 he
    rw [List.length_cons]
    omega

theorem hasFocus_checkForClipboardChange : s.checkForClipboardChange.hasFocus = s.hasFocus := by
  rw [checkForClipboardChange]
  split_ifs
  · rfl
  · rfl

theorem hasFocus_step (ha : Handles a) (hs : s.step a = some s') : s'.hasFocus = s.hasFocus := by
  cases a with
  | setPrimaryClip text isText => cases ha
  | tick ms => cases ha
  | onWindowFocusChanged hasFocus => cases ha
  | sendOther => cases ha
  | setSelectionOwner text => cases ha
  | convertSelection l client stuff => cases ha
  | handleClipboardChange =>
    obtain ⟨-, rfl⟩ := handleClipboardChange_cases hs
    exact hasFocus_checkForClipboardChange
  | xcallback =>
    obtain ⟨-, m, ms, -, rfl⟩ := xcallback_cases hs
    cases m with
    | request =>
      rw [receive, requestClipboard]
      split
      · rfl
      · rfl
    | data text =>
      rw [receive]
      split_ifs
      · rfl
      · rfl
    | other => rfl
  | processWorkQueue l => exact (sameAndroid_step hs trivial).hasFocus
  | selectionNotify answer => exact (sameAndroid_step hs trivial).hasFocus

/-- The server's loop over its requests ends, whatever it looks up. -/
theorem processWorkQueue_isSome (hm : s.toServer ≠ []) (l : LorieDataTarget → Lookups) :
    (s.step (.processWorkQueue l)).isSome = true := by
  obtain ⟨m, ms, hm⟩ := List.exists_cons_of_ne_nil hm
  simp only [step, hm]
  cases m with
  | announce => rfl
  | data text =>
    obtain ⟨c, hc⟩ := Clipboard.answerPending_terminates (l := l)
      (s := { s.server with cachedData := some text }) rfl (Nat.lt_succ_self _)
    rw [serve, Option.isSome_map]
    exact Option.isSome_of_eq_some hc

/-- Whatever is there can be handled, as long as the connection is read in frame. -/
theorem atRest_iff (hframe : s.inFrame = true) (hfocus : s.hasFocus = true) :
    s.AtRest ↔ ∀ a, Handles a → s.step a = none := by
  constructor
  · rintro ⟨htoServer, htoActivity, hasked, -, hnotified⟩ a ha
    cases a with
    | setPrimaryClip text isText => cases ha
    | tick ms => cases ha
    | onWindowFocusChanged hasFocus => cases ha
    | sendOther => cases ha
    | setSelectionOwner text => cases ha
    | convertSelection l client stuff => cases ha
    | handleClipboardChange => simp [step, hnotified]
    | xcallback => cases hframe : s.inFrame <;> simp only [step, htoActivity, hframe]
    | processWorkQueue l => simp only [step, htoServer]
    | selectionNotify answer => simp [step, hasked]
  · intro h
    refine ⟨?_, ?_, ?_, hfocus, ?_⟩
    · by_contra hm
      have hsome := processWorkQueue_isSome hm fun _ => {}
      rw [h (.processWorkQueue fun _ => {}) trivial] at hsome
      cases hsome
    · by_contra hm
      have hsome := xcallback_isSome hframe hm
      rw [h .xcallback trivial] at hsome
      cases hsome
    · cases hm : s.asked with
      | nil => rfl
      | cons answer answers =>
        have hnone := h (.selectionNotify answer) trivial
        rw [step, if_pos (by rw [hm]; exact List.mem_cons_self)] at hnone
        cases hnone
    · by_contra hnotified
      have hnone := h .handleClipboardChange trivial
      rw [step, if_pos (Bool.eq_true_of_not_eq_false hnotified)] at hnone
      cases hnone

/-- **Left alone, both sides come to rest.**  If nobody copies or asks for a text, the window keeps
the focus and no text is read with another message behind it, what is on its way is handled in a
number of steps that is known beforehand, in whatever order.  Nothing more can be handled exactly if
both sides are at rest, and the server's loop over its requests ends whatever it looks up. -/
theorem comes_to_rest {as : List ClipboardsStep} (hframe : s.inFrame = true)
    (hfocus : s.hasFocus = true) (ha : ∀ a ∈ as, Handles a)
    (hall : TryAlways step (fun s a => s.overreads a = false) s as)
    (he : tryExec step s as = some s') :
    as.length + s'.load ≤ s.load ∧ (s'.AtRest ↔ ∀ a, Handles a → s'.step a = none) ∧
      (s'.toServer ≠ [] → ∀ l, (s'.step (.processWorkQueue l)).isSome = true) := by
  have hkeep : ∀ t a t', t.inFrame = true ∧ t.hasFocus = true → t.overreads a = false ∧ Handles a →
      step t a = some t' → t'.inFrame = true ∧ t'.hasFocus = true := fun t a t' ht ha hs =>
    ⟨(inFrame_step_iff ht.1 hs).2 ha.1, (hasFocus_step ha.2 hs).trans ht.2⟩
  obtain ⟨hframe', hfocus'⟩ :=
    tryExec_invariant (I := fun s => s.inFrame = true ∧ s.hasFocus = true) hkeep ⟨hframe, hfocus⟩
      (hall.and (tryAlways_of_forall (fun a hmem _ => ha a hmem) s)) he
  exact ⟨length_add_load_le ha he, atRest_iff hframe' hfocus', processWorkQueue_isSome⟩

/-- A client has copied a text, and nothing was handled yet. -/
def clientCopies : Clipboards :=
  { start none false 0 0 with
    hasFocus := true, owner := .client (some [65]), asked := [.targets (some [65])] }

def clientAnswers : List ClipboardsStep :=
  [.selectionNotify (.targets (some [65])), .selectionNotify (.text [65]), .xcallback]

theorem comes_to_rest_clientAnswers : ∃ s, tryExec step clientCopies clientAnswers = some s ∧
    3 + s.load ≤ clientCopies.load ∧ (s.AtRest ↔ ∀ a, Handles a → s.step a = none) ∧
      (s.toServer ≠ [] → ∀ l, (s.step (.processWorkQueue l)).isSome = true) := by
  obtain ⟨s, hs⟩ := Option.isSome_iff_exists.1
    (show (tryExec step clientCopies clientAnswers).isSome = true by decide +kernel)
  exact ⟨s, hs, comes_to_rest rfl rfl (by simp [clientAnswers, Handles]) (by decide +kernel) hs⟩

/-! ### Requests that wait -/

/-- The requests that wait will be answered: the text is on its way, or the activity is still to be
asked for it. -/
def Expected (s : Clipboards) : Prop :=
  s.server.lorieDataTargetHead = [] ∨ (∃ text, .data text ∈ s.toServer) ∨ .request ∈ s.toActivity

/-- The activity gets the last request for a text that clients wait for, and has none to give. -/
def Drops (s : Clipboards) (a : ClipboardsStep) : Prop :=
  a = .xcallback ∧ s.getText = none ∧ s.server.lorieDataTargetHead ≠ [] ∧
    (∀ text, .data text ∉ s.toServer) ∧ ∃ ms, s.toActivity = .request :: ms ∧ .request ∉ ms

theorem Expected.mono (h : s.Expected)
    (hserver : s'.server.lorieDataTargetHead = s.server.lorieDataTargetHead)
    (htoServer : ∀ m ∈ s.toServer, m ∈ s'.toServer)
    (htoActivity : ∀ m ∈ s.toActivity, m ∈ s'.toActivity) : s'.Expected := by
  rcases h with h | ⟨text, h⟩ | h
  · exact .inl (hserver.trans h)
  · exact .inr (.inl ⟨text, htoServer _ h⟩)
  · exact .inr (.inr (htoActivity _ h))

theorem expected_checkForClipboardChange (h : s.Expected) :
    s.checkForClipboardChange.Expected := by
  rw [checkForClipboardChange]
  split_ifs
  · exact h.mono rfl (fun _ hm => List.mem_append_left _ hm) fun _ hm => hm
  · exact h

/-- A request that is answered leaves the text on its way, and so does any other message. -/
theorem expected_xcallback_iff (h : s.Expected) (hs : s.step .xcallback = some s') :
    s'.Expected ↔ ¬ s.Drops .xcallback := by
  obtain ⟨-, m, ms, hm, rfl⟩ := xcallback_cases hs
  have hread : m ≠ .request → (s.read m ms).Expected := fun hne => by
    refine h.imp id fun h => h.imp id fun h => ?_
    rw [hm] at h
    exact (List.mem_cons.1 h).resolve_left hne.symm
  have hdrops : m ≠ .request → ¬ s.Drops .xcallback := by
    rintro hne ⟨-, -, -, -, ms', hms, -⟩
    exact hne (List.cons.inj (hm.symm.trans hms)).1
  cases m with
  | data text =>
    refine iff_of_true ?_ (hdrops (by simp))
    rw [receive]
    split_ifs
    · exact hread (by simp)
    · exact hread (by simp)
  | other => exact iff_of_true (hread (by simp)) (hdrops (by simp))
  | request =>
    rw [receive, requestClipboard]
    cases hget : s.getText with
    | none =>
      rw [show (s.read .request ms).getText = none from hget]
      constructor
      · rintro hexp ⟨-, -, hwait, hdata, ms', hms, hreq⟩
        obtain ⟨-, rfl⟩ := List.cons.inj (hm.symm.trans hms)
        rcases hexp with hexp | ⟨text, hexp⟩ | hexp
        · exact hwait hexp
        · exact hdata text hexp
        · exact hreq hexp
      · intro hnot
        by_contra hexp
        refine hnot ⟨rfl, hget, fun hwait => hexp (.inl hwait), fun text htext => ?_, ms, hm, ?_⟩
        · exact hexp (.inr (.inl ⟨text, htext⟩))
        · exact fun hreq => hexp (.inr (.inr hreq))
    | some text =>
      rw [show (s.read .request ms).getText = some text from hget]
      refine iff_of_true ?_ ?_
      · exact .inr (.inl ⟨text, List.mem_append_right _ List.mem_cons_self⟩)
      · rintro ⟨-, hnone, -⟩
        rw [hget] at hnone
        cases hnone

theorem expected_convertSelection {l : ProcLookups} {client : ℕ} {stuff : ConvertSelectionReq}
    (h : s.Expected) : (s.convert l client stuff).Expected := by
  rcases (convertSelection_cases l client stuff s.server).2 with ⟨-, hwait⟩ | hasked
  · exact h.mono hwait (fun _ hm => hm) fun _ hm => List.mem_append_left _ hm
  · refine .inr (.inr (List.mem_append_right _ ?_))
    rw [hasked, Nat.add_sub_cancel_left]
    exact List.mem_cons_self

theorem expected_processWorkQueue {l : LorieDataTarget → Lookups} (h : s.Expected)
    (hs : s.step (.processWorkQueue l) = some s') : s'.Expected := by
  obtain ⟨m, ms, hm, hs⟩ := processWorkQueue_cases hs
  cases m with
  | announce =>
    obtain rfl := Option.some.inj hs
    refine h.imp id fun h => h.imp (fun h => ?_) id
    obtain ⟨text, htext⟩ := h
    rw [hm] at htext
    exact ⟨text, (List.mem_cons.1 htext).resolve_left (by simp)⟩
  | data text =>
    obtain ⟨c, hc, rfl⟩ := Option.map_eq_some_iff.1 hs
    exact .inl (handleClipboardData_spec hc).2

theorem expected_step_iff (h : s.Expected) (hs : s.step a = some s') :
    s'.Expected ↔ ¬ s.Drops a := by
  by_cases ha : a = .xcallback
  · rw [ha] at hs ⊢
    exact expected_xcallback_iff h hs
  refine iff_of_true ?_ fun hdrops => ha hdrops.1
  cases a with
  | setPrimaryClip text isText =>
    obtain rfl := Option.some.inj hs
    exact h
  | tick ms =>
    obtain rfl := Option.some.inj hs
    exact h
  | onWindowFocusChanged hasFocus =>
    cases hasFocus with
    | true =>
      obtain rfl := Option.some.inj hs
      exact expected_checkForClipboardChange (s := { s with hasFocus := true }) h
    | false =>
      obtain rfl := Option.some.inj hs
      exact h
  | handleClipboardChange =>
    obtain ⟨-, rfl⟩ := handleClipboardChange_cases hs
    exact expected_checkForClipboardChange (s := { s with notified := false }) h
  | xcallback => exact absurd rfl ha
  | processWorkQueue l => exact expected_processWorkQueue h hs
  | sendOther =>
    obtain rfl := Option.some.inj hs
    exact h.mono rfl (fun _ hm => hm) fun _ hm => List.mem_append_left _ hm
  | setSelectionOwner text =>
    cases text with
    | none =>
      obtain rfl := Option.some.inj hs
      exact h
    | some text =>
      obtain rfl := Option.some.inj hs
      exact h
  | selectionNotify answer =>
    obtain ⟨-, rfl⟩ := selectionNotify_cases hs
    rcases answer with (_ | offered) | given
    · exact h
    · rw [lorieHandleSelection, requestText]
      split
      · exact h
      · exact h
    · exact h.mono rfl (fun _ hm => hm) fun _ hm => List.mem_append_left _ hm
  | convertSelection l client stuff =>
    obtain rfl := convertSelection_eq hs
    exact expected_convertSelection h

/-- **Requests are answered.**  The activity reads the server's messages and the requests that wait
will be answered, in every state of a run, exactly if no text is read with another message behind it
and the activity never has no text to give when it gets the last request for one. -/
theorem expected_iff {as : List ClipboardsStep}
    (he : tryExec step (start clip isText timestamp now) as = some s') :
    (∀ as₁ as₂ t, as = as₁ ++ as₂ →
      tryExec step (start clip isText timestamp now) as₁ = some t →
        t.inFrame = true ∧ t.Expected) ↔
      TryAlways step (fun s a => s.overreads a = false ∧ ¬ s.Drops a)
        (start clip isText timestamp now) as :=
  reached_iff_tryAlways
    (fun _ _ _ h hs => and_congr (inFrame_step_iff h.1 hs) (expected_step_iff h.2 hs))
    ⟨rfl, .inl rfl⟩ he

/-- A text is announced, the window loses the focus, and a client asks for the text. -/
def outOfFocus : List ClipboardsStep :=
  [.onWindowFocusChanged true, .tick 1, .setPrimaryClip (some textA) true, .handleClipboardChange,
    .processWorkQueue fun _ => {}, .onWindowFocusChanged false,
    .convertSelection {} 1 ⟨.CLIPBOARD, .UTF8_STRING, none, 2, 3⟩, .xcallback]

theorem expected_iff_outOfFocus : ∃ s, tryExec step (start none false 0 0) outOfFocus = some s ∧
    ((∀ as₁ as₂ t, outOfFocus = as₁ ++ as₂ →
      tryExec step (start none false 0 0) as₁ = some t → t.inFrame = true ∧ t.Expected) ↔
      TryAlways step (fun s a => s.overreads a = false ∧ ¬ s.Drops a)
        (start none false 0 0) outOfFocus) := by
  obtain ⟨s, hs⟩ := Option.isSome_iff_exists.1
    (show (tryExec step (start none false 0 0) outOfFocus).isSome = true by decide +kernel)
  exact ⟨s, hs, expected_iff hs⟩

end Clipboards

end TermuxX11.Shared
