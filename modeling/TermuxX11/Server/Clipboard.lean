import TermuxX11.Lib.Run

/-!
# Requests for the clipboard

The server owns the selection for the activity.  A client that asks for it is answered at once,
from `cachedData` or because the target needs no data, or its request waits in
`lorieDataTargetHead` until the activity sends the data.

What the X server answers to a lookup, to a change of a property or to `calloc` is not decided
here: every call has its own `Lookups`, so a statement over all of them covers every outcome.
A request is numbered when it is made; the number is carried along only to say which request a
reply is for.
-/

namespace TermuxX11.Server

open Run

/-- An atom; `other` are those that have no name here. -/
inductive Atom
  | TIMESTAMP | TEXT | CLIPBOARD | TARGETS | STRING | UTF8_STRING | ATOM | INTEGER
  | other (n : ℕ)
  deriving DecidableEq, Repr

/-- A return code. -/
inductive Rc
  | Success | BadMatch | BadAlloc | BadAtom
  | other (n : ℕ)
  deriving DecidableEq, Repr

/-- The request `ConvertSelection`; the property `None` is `none`. -/
structure ConvertSelectionReq where
  selection : Atom
  target : Atom
  property : Option Atom
  requestor : ℕ
  time : ℕ
  deriving DecidableEq, Repr

/-- A request that waits, or is being answered.  `serial` is its number. -/
structure LorieDataTarget extends ConvertSelectionReq where
  client : ℕ
  serial : ℕ
  deriving DecidableEq, Repr

/-- The event `SelectionNotify` and the client it is written to. -/
structure SelectionNotify where
  client : ℕ
  serial : ℕ
  time : ℕ
  requestor : ℕ
  selection : Atom
  target : Atom
  property : Option Atom
  deriving DecidableEq, Repr

def LorieDataTarget.notify (t : LorieDataTarget) (property : Option Atom) : SelectionNotify :=
  { client := t.client, serial := t.serial, time := t.time, requestor := t.requestor,
    selection := t.selection, target := t.target, property := property }

/-- What is stored in a property. -/
inductive PropertyValue
  | atoms (as : List Atom)
  | integer (n : ℕ)
  | text (bytes : List UInt8)
  deriving DecidableEq, Repr

/-- A property of a window, set by `dixChangeWindowProperty`. -/
structure StoredProperty where
  window : ℕ
  property : Atom
  type : Atom
  format : ℕ
  value : PropertyValue
  deriving DecidableEq, Repr

/-- What one call of `lorieConvertSelection` gets from the X server and from `calloc`;
`latin1` is what `lorieUtf8ToLatin1` returns. -/
structure Lookups where
  selection : Rc := .Success
  window : Rc := .Success
  property : Rc := .Success
  calloc : Bool := true
  latin1 : Option (List UInt8) := some []
  lastTimeChanged : ℕ := 0

/-- What one call of `lorieProcConvertSelection` gets.  `owned` says that the selection belongs
to the server and its root window. -/
structure ProcLookups where
  window : Rc := .Success
  validAtom : Atom → Bool := fun _ => true
  selection : Rc := .Success
  owned : Bool := true
  convert : Lookups := {}

/-- All atoms of the request are valid. -/
def ProcLookups.paramsOkay (l : ProcLookups) (stuff : ConvertSelectionReq) : Bool :=
  l.validAtom stuff.selection && l.validAtom stuff.target && stuff.property.all l.validAtom

/-- The request passes the checks and the selection is found to be the server's. -/
def ProcLookups.accepts (l : ProcLookups) (stuff : ConvertSelectionReq) : Bool :=
  l.window = .Success && l.paramsOkay stuff && l.selection = .Success && l.owned

/-- The state of the clipboard.  `asked` counts the calls of `lorieRequestClipboard`, `stored`
and `written` are what was stored in properties and written to clients so far; `served` are the
numbers of the requests that got past the checks. -/
structure Clipboard where
  cachedData : Option (List UInt8) := none
  lorieDataTargetHead : List LorieDataTarget := []
  asked : ℕ := 0
  stored : List StoredProperty := []
  written : List SelectionNotify := []
  nextSerial : ℕ := 0
  served : List ℕ := []

/-- What became of a request: a return code, or it was passed on to
`origProcConvertSelection`. -/
inductive Dispatch
  | returned (rc : Rc)
  | orig
  deriving DecidableEq, Repr

namespace Clipboard

def write (e : SelectionNotify) (s : Clipboard) : Clipboard :=
  { s with written := s.written ++ [e] }

/-- A successful `dixChangeWindowProperty` and the notification that follows it, or the return
code of one that failed. -/
def store (l : Lookups) (t : LorieDataTarget) (type : Atom) (format : ℕ) (value : PropertyValue)
    (s : Clipboard) : Rc × Clipboard :=
  if l.property ≠ .Success then (l.property, s)
  else
    let p : StoredProperty :=
      { window := t.requestor, property := t.property.getD t.target, type := type,
        format := format, value := value }
    (.Success, write (t.notify t.property) { s with stored := s.stored ++ [p] })

/-- `lorieConvertSelection`; the arguments but `data` are the fields of `t`. -/
def lorieConvertSelection (l : Lookups) (t : LorieDataTarget) (data : Option (List UInt8))
    (s : Clipboard) : Rc × Clipboard :=
  if l.selection ≠ .Success then (l.selection, s)
  else if l.window ≠ .Success then (l.window, s)
  else if t.target = .TARGETS then
    store l t .ATOM 32 (.atoms [.TARGETS, .TIMESTAMP, .STRING, .TEXT, .UTF8_STRING]) s
  else if t.target = .TIMESTAMP then store l t .INTEGER 32 (.integer l.lastTimeChanged) s
  else
    match data with
    | none =>
      if t.target ≠ .STRING ∧ t.target ≠ .TEXT ∧ t.target ≠ .UTF8_STRING then (.BadMatch, s)
      else if l.calloc = false then (.BadAlloc, s)
      else
        (.Success,
          { s with lorieDataTargetHead := t :: s.lorieDataTargetHead, asked := s.asked + 1 })
    | some data =>
      if t.target = .STRING ∨ t.target = .TEXT then
        match l.latin1 with
        | none => (.BadAlloc, s)
        | some latin1 => store l t .STRING 8 (.text latin1) s
      else if t.target = .UTF8_STRING then
        -- the length is taken by `strlen`
        store l t .UTF8_STRING 8 (.text (data.takeWhile (· ≠ 0))) s
      else (.BadMatch, s)

/-- A conversion, and the notification with property `None` when it failed. -/
def answer (l : Lookups) (t : LorieDataTarget) (data : Option (List UInt8)) (s : Clipboard) :
    Clipboard :=
  let r := lorieConvertSelection l t data s
  if r.1 ≠ .Success then r.2.write (t.notify none) else r.2

/-- `lorieProcConvertSelection`. -/
def lorieProcConvertSelection (l : ProcLookups) (client : ℕ) (stuff : ConvertSelectionReq)
    (s : Clipboard) : Dispatch × Clipboard :=
  let t : LorieDataTarget := { stuff with client := client, serial := s.nextSerial }
  let s := { s with nextSerial := s.nextSerial + 1 }
  if l.window ≠ .Success then (.returned l.window, s)
  else if l.paramsOkay stuff = false then (.returned .BadAtom, s)
  else if l.selection = .Success ∧ l.owned then
    (.returned .Success,
      answer l.convert t s.cachedData { s with served := s.served ++ [t.serial] })
  else (.orig, s)

/-- `lorieHandleClipboardAnnounce`; it also makes the server the owner of the selection. -/
def lorieHandleClipboardAnnounce (s : Clipboard) : Clipboard := { s with cachedData := none }

/-- The loop of `lorieHandleClipboardData`; `none` when it has not ended after `fuel` tests of
its condition. -/
def answerPending (l : LorieDataTarget → Lookups) : ℕ → Clipboard → Option Clipboard
  | 0, _ => none
  | fuel + 1, s =>
    match s.lorieDataTargetHead with
    | [] => some s
    | t :: _ =>
      let s := answer (l t) t s.cachedData s
      answerPending l fuel { s with lorieDataTargetHead := s.lorieDataTargetHead.tail }

/-- `lorieHandleClipboardData`. -/
def lorieHandleClipboardData (l : LorieDataTarget → Lookups) (data : List UInt8) (fuel : ℕ)
    (s : Clipboard) : Option Clipboard :=
  answerPending l fuel { s with cachedData := some data }

/-- What happens to the clipboard. -/
inductive Action
  | convertSelection (l : ProcLookups) (client : ℕ) (stuff : ConvertSelectionReq)
  | announce
  | data (l : LorieDataTarget → Lookups) (data : List UInt8) (fuel : ℕ)

/-- One step. -/
def step (s : Clipboard) : Action → Option Clipboard
  | .convertSelection l client stuff => some (lorieProcConvertSelection l client stuff s).2
  | .announce => some s.lorieHandleClipboardAnnounce
  | .data l data fuel => s.lorieHandleClipboardData l data fuel

/-- The replies to the request with the number `n`. -/
def replies (n : ℕ) (s : Clipboard) : List SelectionNotify :=
  s.written.filter fun e => e.serial = n

/-! ### One conversion -/

/-- The request waits, and the activity is asked for the data. -/
def queue (t : LorieDataTarget) (s : Clipboard) : Clipboard :=
  { s with lorieDataTargetHead := t :: s.lorieDataTargetHead, asked := s.asked + 1 }

/-- The reply to a converted request; `p` is what was stored. -/
def deliver (t : LorieDataTarget) (p : StoredProperty) (s : Clipboard) : Clipboard :=
  write (t.notify t.property) { s with stored := s.stored ++ [p] }

theorem store_cases (l : Lookups) (t : LorieDataTarget) (type : Atom) (format : ℕ)
    (value : PropertyValue) :
    (∃ rc, rc ≠ .Success ∧ ∀ s, store l t type format value s = (rc, s)) ∨
      ∃ p, ∀ s, store l t type format value s = (.Success, deliver t p s) := by
  by_cases h : l.property = .Success
  · right
    exact ⟨_, fun s => if_neg (not_not.2 h)⟩
  · left
    exact ⟨l.property, h, fun s => if_pos h⟩

/-- The two lookups come before anything else. -/
theorem lorieConvertSelection_of_lookup {l : Lookups}
    (h : ¬ (l.selection = .Success ∧ l.window = .Success)) (t : LorieDataTarget)
    (data : Option (List UInt8)) :
    ∃ rc, rc ≠ .Success ∧ ∀ s, lorieConvertSelection l t data s = (rc, s) := by
  unfold lorieConvertSelection
  by_cases hsel : l.selection = .Success
  · have hwin : l.window ≠ .Success := fun hwin => h ⟨hsel, hwin⟩
    exact ⟨_, hwin, fun _ => by rw [if_neg (not_not.2 hsel), if_pos hwin]⟩
  · exact ⟨_, hsel, fun _ => if_pos hsel⟩

/-- All that a conversion can do.  Which of it does not depend on the state. -/
theorem lorieConvertSelection_cases (l : Lookups) (t : LorieDataTarget)
    (data : Option (List UInt8)) :
    (∃ rc, rc ≠ .Success ∧ ∀ s, lorieConvertSelection l t data s = (rc, s)) ∨
      (data = none ∧ ∀ s, lorieConvertSelection l t data s = (.Success, queue t s)) ∨
      ∃ p, ∀ s, lorieConvertSelection l t data s = (.Success, deliver t p s) := by
  by_cases hlookup : l.selection = .Success ∧ l.window = .Success
  swap
  · exact .inl (lorieConvertSelection_of_lookup hlookup t data)
  obtain ⟨hsel, hwin⟩ := hlookup
  unfold lorieConvertSelection
  simp only [ne_eq, hsel, hwin, not_true_eq_false, if_false]
  cases data with
  | none =>
    dsimp only
    split_ifs
    · exact (store_cases l t _ _ _).imp_right .inr
    · exact (store_cases l t _ _ _).imp_right .inr
    · exact .inl ⟨.BadMatch, nofun, fun _ => rfl⟩
    · exact .inl ⟨.BadAlloc, nofun, fun _ => rfl⟩
    · exact .inr (.inl ⟨rfl, fun _ => rfl⟩)
  | some data =>
    cases l.latin1 with
    | none =>
      dsimp only
      split_ifs
      · exact (store_cases l t _ _ _).imp_right .inr
      · exact (store_cases l t _ _ _).imp_right .inr
      · exact .inl ⟨.BadAlloc, nofun, fun _ => rfl⟩
      · exact (store_cases l t _ _ _).imp_right .inr
      · exact .inl ⟨.BadMatch, nofun, fun _ => rfl⟩
    | some latin1 =>
      dsimp only
      split_ifs
      · exact (store_cases l t _ _ _).imp_right .inr
      · exact (store_cases l t _ _ _).imp_right .inr
      · exact (store_cases l t _ _ _).imp_right .inr
      · exact (store_cases l t _ _ _).imp_right .inr
      · exact .inl ⟨.BadMatch, nofun, fun _ => rfl⟩

/-- The return code of a conversion. -/
def conversion (l : Lookups) (t : LorieDataTarget) (data : Option (List UInt8)) : Rc :=
  (lorieConvertSelection l t data {}).1

/-- The reply to a request whose conversion is done. -/
def reply (l : Lookups) (data : Option (List UInt8)) (t : LorieDataTarget) : SelectionNotify :=
  t.notify (if conversion l t data = .Success then t.property else none)

/-- A request is queued, or gets one reply; `ps` is what is stored for it. -/
theorem answer_cases (l : Lookups) (t : LorieDataTarget) (data : Option (List UInt8)) :
    (data = none ∧ conversion l t data = .Success ∧ ∀ s, answer l t data s = queue t s) ∨
      ∃ ps, ∀ s, answer l t data s = write (reply l data t) { s with stored := s.stored ++ ps } := by
  rcases lorieConvertSelection_cases l t data with ⟨rc, hrc, h⟩ | ⟨hdata, h⟩ | ⟨p, h⟩
  · right
    refine ⟨[], fun s => ?_⟩
    simp only [answer, reply, conversion, h, ne_eq, hrc, not_false_eq_true, if_true, if_false,
      List.append_nil]
  · left
    refine ⟨hdata, congrArg Prod.fst (h {}), fun s => ?_⟩
    simp only [answer, h, ne_eq, not_true_eq_false, if_false]
  · right
    refine ⟨[p], fun s => ?_⟩
    simp only [answer, reply, conversion, h, ne_eq, not_true_eq_false, if_true, if_false, deliver]

/-! ### A request -/

/-- The request as `lorieProcConvertSelection` passes it on. -/
def ofReq (client : ℕ) (stuff : ConvertSelectionReq) (s : Clipboard) : LorieDataTarget :=
  { stuff with client := client, serial := s.nextSerial }

theorem lorieProcConvertSelection_accepted {l : ProcLookups} {stuff : ConvertSelectionReq}
    (h : l.accepts stuff = true) (client : ℕ) (s : Clipboard) :
    lorieProcConvertSelection l client stuff s =
      (.returned .Success, answer l.convert (ofReq client stuff s) s.cachedData
        { s with nextSerial := s.nextSerial + 1, served := s.served ++ [s.nextSerial] }) := by
  simp only [ProcLookups.accepts, Bool.and_eq_true, decide_eq_true_eq] at h
  obtain ⟨⟨⟨hwin, hparams⟩, hsel⟩, howned⟩ := h
  simp only [lorieProcConvertSelection, hwin, hparams, hsel, howned, ofReq]
  rfl

theorem lorieProcConvertSelection_refused {l : ProcLookups} {stuff : ConvertSelectionReq}
    (h : l.accepts stuff = false) (client : ℕ) (s : Clipboard) :
    lorieProcConvertSelection l client stuff s =
      (if l.window ≠ .Success then .returned l.window
        else if l.paramsOkay stuff = false then .returned .BadAtom else .orig,
        { s with nextSerial := s.nextSerial + 1 }) := by
  simp only [lorieProcConvertSelection]
  split_ifs with hwin hparams howned
  · rfl
  · rfl
  · have : l.accepts stuff = true := by
      simp only [ProcLookups.accepts, Bool.and_eq_true, decide_eq_true_eq]
      exact ⟨⟨⟨not_not.1 hwin, Bool.not_eq_false _ ▸ hparams⟩, howned.1⟩, howned.2⟩
    rw [this] at h
    cases h
  · rfl

/-! ### The pending requests -/

/-- What `lorieHandleClipboardData` has done when it returns. -/
structure Drained (l : LorieDataTarget → Lookups) (data : List UInt8) (s s' : Clipboard) :
    Prop where
  cachedData : s'.cachedData = some data
  pending : s'.lorieDataTargetHead = []
  written : s'.written =
    s.written ++ s.lorieDataTargetHead.map fun t => reply (l t) (some data) t
  served : s'.served = s.served
  nextSerial : s'.nextSerial = s.nextSerial

variable {l : LorieDataTarget → Lookups} {data : List UInt8}

/-- One round of the loop takes the first request off the list. -/
theorem answerPending_cons {s : Clipboard} {t : LorieDataTarget} {ts : List LorieDataTarget}
    (hdata : s.cachedData = some data) (hs : s.lorieDataTargetHead = t :: ts) (fuel : ℕ) :
    ∃ ps, answerPending l (fuel + 1) s = answerPending l fuel
      (write (reply (l t) (some data) t)
        { s with stored := s.stored ++ ps, lorieDataTargetHead := ts }) := by
  rcases answer_cases (l t) t (some data) with ⟨hnone, -⟩ | ⟨ps, h⟩
  · cases hnone
  · refine ⟨ps, ?_⟩
    simp only [answerPending, hs, hdata, h, write, List.tail_cons]

theorem answerPending_nil {s : Clipboard} (hs : s.lorieDataTargetHead = []) (fuel : ℕ) :
    answerPending l (fuel + 1) s = some s := by
  simp only [answerPending, hs]

theorem answerPending_spec {fuel : ℕ} {s s' : Clipboard} (hdata : s.cachedData = some data)
    (h : answerPending l fuel s = some s') : Drained l data s s' := by
  induction fuel generalizing s with
  | zero => cases h
  | succ fuel ih =>
    cases hs : s.lorieDataTargetHead with
    | nil =>
      rw [answerPending_nil hs] at h
      obtain rfl := Option.some.inj h
      exact ⟨hdata, hs, by rw [hs, List.map_nil, List.append_nil], rfl, rfl⟩
    | cons t ts =>
      obtain ⟨ps, heq⟩ := answerPending_cons hdata hs fuel
      rw [heq] at h
      obtain ⟨hcached, hpending, hwritten, hserved, hserial⟩ := ih (by exact hdata) h
      refine ⟨hcached, hpending, ?_, hserved, hserial⟩
      rw [hwritten, hs]
      simp only [write, List.append_assoc, List.singleton_append, List.map_cons]

/-- The loop ends: every round takes a request off the list and puts none on it. -/
theorem answerPending_terminates {fuel : ℕ} {s : Clipboard} (hdata : s.cachedData = some data)
    (h : s.lorieDataTargetHead.length < fuel) : ∃ s', answerPending l fuel s = some s' := by
  induction fuel generalizing s with
  | zero => omega
  | succ fuel ih =>
    cases hs : s.lorieDataTargetHead with
    | nil => exact ⟨s, answerPending_nil hs fuel⟩
    | cons t ts =>
      obtain ⟨ps, heq⟩ := answerPending_cons hdata hs fuel
      rw [heq]
      refine ih (by exact hdata) ?_
      rw [hs, List.length_cons] at h
      exact Nat.lt_of_succ_lt_succ h

/-! ### Every request is answered once -/

/-- Each request that was served has one reply or waits. -/
structure Inv (s : Clipboard) : Prop where
  served : (s.written.map SelectionNotify.serial ++
    s.lorieDataTargetHead.map LorieDataTarget.serial).Perm s.served
  nodup : s.served.Nodup
  lt : ∀ n ∈ s.served, n < s.nextSerial

theorem inv_start : Inv {} := ⟨List.Perm.refl _, List.nodup_nil, nofun⟩

theorem inv_answer {s : Clipboard} {t : LorieDataTarget} (h : s.Inv)
    (ht : t.serial = s.nextSerial) (l : Lookups) (data : Option (List UInt8)) :
    Inv (answer l t data
      { s with nextSerial := s.nextSerial + 1, served := s.served ++ [t.serial] }) := by
  have hnodup : (s.served ++ [t.serial]).Nodup := by
    refine List.nodup_append.2 ⟨h.nodup, List.nodup_singleton _, ?_⟩
    rintro n hn m hm rfl
    have hlt := h.lt n hn
    rw [List.mem_singleton, ht] at hm
    omega
  have hlt : ∀ n ∈ s.served ++ [t.serial], n < s.nextSerial + 1 := by
    intro n hn
    rcases List.mem_append.1 hn with hn | hn
    · exact Nat.lt_succ_of_lt (h.lt n hn)
    · rw [List.mem_singleton.1 hn, ht]
      exact Nat.lt_succ_self _
  -- every serial is counted once among the pending requests and the replies
  have hcount := List.perm_iff_count.1 h.served
  simp only [List.count_append] at hcount
  rcases answer_cases l t data with ⟨-, -, heq⟩ | ⟨ps, heq⟩
  · rw [heq]
    refine ⟨List.perm_iff_count.2 fun n => ?_, hnodup, hlt⟩
    have := hcount n
    simp only [queue, List.map_cons, List.count_append, List.count_cons, List.count_nil]
    omega
  · rw [heq]
    refine ⟨List.perm_iff_count.2 fun n => ?_, hnodup, hlt⟩
    have := hcount n
    simp only [write, List.map_append, List.map_cons, List.map_nil, List.count_append,
      List.count_cons, List.count_nil]
    have hserial : (reply l data t).serial = t.serial := rfl
    rw [hserial]
    omega

theorem inv_drained {s s' : Clipboard} (h : s.Inv) (hd : Drained l data s s') : s'.Inv := by
  refine ⟨?_, ?_, ?_⟩
  · rw [hd.written, hd.pending, hd.served, List.map_append, List.map_map, List.map_nil,
      List.append_nil]
    exact h.served
  · rw [hd.served]
    exact h.nodup
  · rw [hd.served, hd.nextSerial]
    exact h.lt

theorem inv_step {s s' : Clipboard} (h : s.Inv) {a : Action} (hs : s.step a = some s') :
    s'.Inv := by
  cases a with
  | convertSelection l client stuff =>
    obtain rfl := Option.some.inj hs
    have hskip : Inv { s with nextSerial := s.nextSerial + 1 } :=
      ⟨h.served, h.nodup, fun n hn => Nat.lt_succ_of_lt (h.lt n hn)⟩
    cases hacc : l.accepts stuff with
    | false =>
      rw [lorieProcConvertSelection_refused hacc]
      exact hskip
    | true =>
      rw [lorieProcConvertSelection_accepted hacc]
      exact inv_answer h rfl l.convert s.cachedData
  | announce =>
    obtain rfl := Option.some.inj hs
    exact ⟨h.served, h.nodup, h.lt⟩
  | data l data fuel =>
    have hcached : Inv { s with cachedData := some data } := ⟨h.served, h.nodup, h.lt⟩
    exact inv_drained hcached (answerPending_spec rfl hs)

theorem inv_run {steps : List Action} {s : Clipboard} (h : tryExec step {} steps = some s) :
    s.Inv :=
  tryExec_invariant (I := Inv) (fun _ _ _ hI _ hs => inv_step hI hs) inv_start
    (tryAlways_true _ _) h

theorem length_replies (n : ℕ) (s : Clipboard) :
    (replies n s).length = (s.written.map SelectionNotify.serial).count n := by
  rw [replies, List.count_eq_countP, List.countP_map, List.countP_eq_length_filter]
  rfl

theorem Inv.replies_le {s : Clipboard} (h : s.Inv) (n : ℕ) :
    (replies n s).length ≤ s.served.count n := by
  rw [length_replies, ← h.served.count_eq n, List.count_append]
  exact Nat.le_add_right _ _

theorem Inv.replies_eq {s : Clipboard} (h : s.Inv) (hpending : s.lorieDataTargetHead = []) (n : ℕ) :
    (replies n s).length = s.served.count n := by
  rw [length_replies, ← h.served.count_eq n, hpending, List.map_nil, List.append_nil]

/-- **Requests are answered once**: in every state of every run each request has at most one
reply, and none unless it was served, which it is exactly when it passes the checks; otherwise
it is refused with an error or passed on.  `lorieHandleClipboardData` ends, and when it has,
no request is pending and every request served before has one reply; the reply to a failed
conversion has the property `None`. -/
theorem answered_once {steps : List Action} {s : Clipboard}
    (h : tryExec step {} steps = some s) :
    (∀ n, (replies n s).length ≤ 1 ∧ (n ∉ s.served → replies n s = [])) ∧
      (∀ (l : ProcLookups) client stuff,
        if l.accepts stuff then
          s.nextSerial ∈ (lorieProcConvertSelection l client stuff s).2.served ∧
          (conversion l.convert (ofReq client stuff s) s.cachedData ≠ .Success →
            (lorieProcConvertSelection l client stuff s).2.written =
              s.written ++ [(ofReq client stuff s).notify none])
        else
          s.nextSerial ∉ (lorieProcConvertSelection l client stuff s).2.served ∧
          (lorieProcConvertSelection l client stuff s).2.written = s.written ∧
          (lorieProcConvertSelection l client stuff s).1 ≠ .returned .Success) ∧
      ∀ l data,
        (∀ fuel, s.lorieDataTargetHead.length < fuel →
          ∃ s', lorieHandleClipboardData l data fuel s = some s') ∧
        ∀ fuel s', lorieHandleClipboardData l data fuel s = some s' →
          s'.lorieDataTargetHead = [] ∧ (∀ n ∈ s.served, (replies n s').length = 1) ∧
          s'.written =
            s.written ++ s.lorieDataTargetHead.map fun t => reply (l t) (some data) t := by
  have hinv := inv_run h
  refine ⟨fun n => ⟨?_, fun hn => ?_⟩, fun l client stuff => ?_,
    fun l data => ⟨fun fuel hfuel => answerPending_terminates rfl hfuel, fun fuel s' hs' => ?_⟩⟩
  · exact (hinv.replies_le n).trans (List.nodup_iff_count_le_one.1 hinv.nodup n)
  · have hle := hinv.replies_le n
    rw [List.count_eq_zero_of_not_mem hn, Nat.le_zero] at hle
    exact List.eq_nil_of_length_eq_zero hle
  · have hserial : s.nextSerial ∉ s.served := fun hmem => lt_irrefl _ (hinv.lt _ hmem)
    split_ifs with hacc
    · rw [lorieProcConvertSelection_accepted hacc]
      rcases answer_cases l.convert (ofReq client stuff s) s.cachedData with
        ⟨-, hsuccess, heq⟩ | ⟨ps, heq⟩
      · rw [heq]
        exact ⟨List.mem_append_right _ List.mem_cons_self, fun hfail => absurd hsuccess hfail⟩
      · rw [heq]
        refine ⟨List.mem_append_right _ List.mem_cons_self, fun hfail => ?_⟩
        rw [write, reply, if_neg hfail]
    · rw [lorieProcConvertSelection_refused (Bool.eq_false_of_not_eq_true hacc)]
      refine ⟨hserial, rfl, ?_⟩
      dsimp only
      split_ifs with hwin hparams
      · exact fun heq => hwin (Dispatch.returned.inj heq)
      · nofun
      · nofun
  · have hd : Drained l data { s with cachedData := some data } s' := answerPending_spec rfl hs'
    have hinv' : s'.Inv := inv_step (a := .data l data fuel) hinv hs'
    refine ⟨hd.pending, fun n hn => ?_, hd.written⟩
    have hserved : s'.served = s.served := hd.served
    rw [hinv'.replies_eq hd.pending, hserved]
    exact List.count_eq_one_of_mem hinv.nodup hn

/-- A request that is queued, and answered when the data comes. -/
theorem answered_once_queued :
    ∃ s s', tryExec step {}
        [.convertSelection {} 1 ⟨.CLIPBOARD, .UTF8_STRING, some (.other 70), 9, 0⟩] = some s ∧
      s.lorieDataTargetHead.length = 1 ∧
      lorieHandleClipboardData (fun _ => {}) [104, 105] 2 s = some s' ∧
      s'.lorieDataTargetHead = [] ∧ (replies 0 s').length = 1 := by
  have hs : tryExec step {} [.convertSelection {} 1
      ⟨.CLIPBOARD, .UTF8_STRING, some (.other 70), 9, 0⟩] = some _ := rfl
  refine ⟨_, _, hs, rfl, rfl, ?_⟩
  obtain ⟨hpending, hserved, -⟩ := ((answered_once hs).2.2 (fun _ => {}) [104, 105]).2 2 _ rfl
  exact ⟨hpending, hserved 0 List.mem_cons_self⟩

/-- A request for a window that cannot be looked up has no reply when the data comes: it was
refused with the error of the lookup. -/
theorem refused_unanswered :
    ∃ s s', tryExec step {} [.convertSelection { window := .other 3, owned := true } 1
        ⟨.CLIPBOARD, .UTF8_STRING, some (.other 70), 9, 0⟩] = some s ∧ s.nextSerial = 1 ∧
      lorieHandleClipboardData (fun _ => {}) [104, 105] 1 s = some s' ∧
      (replies 0 s').length = 0 :=
  ⟨_, _, rfl, rfl, rfl, rfl⟩

end Clipboard

/-! ### Clients come and go -/

/-- The clipboard and the clients that are connected.  A client number is used once. -/
structure Session where
  clipboard : Clipboard := {}
  clients : List ℕ := []
  nextClient : ℕ := 0

/-- A client connects or disconnects, or something happens to the clipboard. -/
inductive SessionStep
  | connect
  | disconnect (client : ℕ)
  | clipboard (a : Clipboard.Action)

namespace Session

/-- Requests come from connected clients. -/
def possible (clients : List ℕ) : Clipboard.Action → Bool
  | .convertSelection _ client _ => client ∈ clients
  | .announce => true
  | .data _ _ _ => true

/-- One step.  Nothing in the clipboard is called when a client disconnects. -/
def step (s : Session) : SessionStep → Option Session
  | .connect =>
    some { s with clients := s.nextClient :: s.clients, nextClient := s.nextClient + 1 }
  | .disconnect client =>
    if client ∈ s.clients then some { s with clients := s.clients.filter (· ≠ client) } else none
  | .clipboard a =>
    if possible s.clients a then (s.clipboard.step a).map fun c => { s with clipboard := c }
    else none

/-- Every pending request is of a connected client. -/
def PendingConnected (s : Session) : Prop :=
  ∀ t ∈ s.clipboard.lorieDataTargetHead, t.client ∈ s.clients

/-- What data that arrives now makes the server write goes to connected clients. -/
def WritesToConnected (s : Session) : Prop :=
  ∀ l data fuel c es, s.clipboard.lorieHandleClipboardData l data fuel = some c →
    c.written = s.clipboard.written ++ es → ∀ e ∈ es, e.client ∈ s.clients

/-- The client that disconnects, if one does, has no request pending. -/
def NonePending (s : Session) : SessionStep → Prop
  | .disconnect client => ∀ t ∈ s.clipboard.lorieDataTargetHead, t.client ≠ client
  | _ => True

variable {s : Session}

theorem PendingConnected.writesToConnected (h : s.PendingConnected) : s.WritesToConnected := by
  intro l data fuel c es hs hwritten e he
  have hd : Clipboard.Drained l data { s.clipboard with cachedData := some data } c :=
    Clipboard.answerPending_spec rfl hs
  have hes := List.append_cancel_left (hwritten.symm.trans hd.written)
  rw [hes] at he
  obtain ⟨t, ht, rfl⟩ := List.mem_map.1 he
  exact h t ht

/-- The pending requests after a step are old ones and the one just made. -/
theorem pending_step {c c' : Clipboard} {clients : List ℕ} {a : Clipboard.Action}
    (ha : possible clients a = true) (h : ∀ t ∈ c.lorieDataTargetHead, t.client ∈ clients)
    (hs : c.step a = some c') : ∀ t ∈ c'.lorieDataTargetHead, t.client ∈ clients := by
  cases a with
  | convertSelection l client stuff =>
    obtain rfl := Option.some.inj hs
    cases hacc : l.accepts stuff with
    | false =>
      rw [Clipboard.lorieProcConvertSelection_refused hacc]
      exact h
    | true =>
      rw [Clipboard.lorieProcConvertSelection_accepted hacc]
      rcases Clipboard.answer_cases l.convert (Clipboard.ofReq client stuff c) c.cachedData with
        ⟨-, -, heq⟩ | ⟨ps, heq⟩
      · rw [heq]
        intro t ht
        rcases List.mem_cons.1 ht with rfl | ht
        · exact of_decide_eq_true ha
        · exact h t ht
      · rw [heq]
        exact h
  | announce =>
    obtain rfl := Option.some.inj hs
    exact h
  | data l data fuel =>
    have hd := Clipboard.answerPending_spec rfl hs
    rw [hd.pending]
    nofun

theorem pendingConnected_step {a : SessionStep} {s' : Session} (h : s.PendingConnected)
    (hs : s.step a = some s') : s'.PendingConnected ↔ s.NonePending a := by
  cases a with
  | connect =>
    obtain rfl := Option.some.inj hs
    exact iff_of_true (fun t ht => List.mem_cons_of_mem _ (h t ht)) trivial
  | disconnect client =>
    simp only [step] at hs
    split_ifs at hs
    obtain rfl := Option.some.inj hs
    refine forall₂_congr fun t ht => ?_
    rw [List.mem_filter, decide_eq_true_eq]
    exact and_iff_right (h t ht)
  | clipboard a =>
    simp only [step] at hs
    split_ifs at hs with ha
    obtain ⟨c, hc, rfl⟩ := Option.map_eq_some_iff.1 hs
    exact iff_of_true (pending_step ha h hc) trivial

/-- **Pending requests and clients**: in every run, every pending request is of a connected
client in all states reached, and data that arrives there is written to connected clients,
exactly when no client disconnects while it has a request pending. -/
theorem pending_connected_iff {steps : List SessionStep} {s : Session}
    (h : tryExec step {} steps = some s) :
    (∀ as₁ as₂ t, steps = as₁ ++ as₂ → tryExec step {} as₁ = some t →
        t.PendingConnected ∧ t.WritesToConnected) ↔
      TryAlways step NonePending {} steps := by
  have hstart : PendingConnected {} := fun _ ht => absurd ht List.not_mem_nil
  have hreached := reached_iff_tryAlways (I := PendingConnected)
    (fun _ _ _ hI hs => pendingConnected_step hI hs) hstart h
  rw [← hreached]
  constructor
  · intro hall as₁ as₂ t heq ht
    exact (hall as₁ as₂ t heq ht).1
  · intro hall as₁ as₂ t heq ht
    have hpending := hall as₁ as₂ t heq ht
    exact ⟨hpending, hpending.writesToConnected⟩

/-- A client asks, gets the data and disconnects. -/
def askAndLeave : List SessionStep :=
  [.connect, .clipboard (.convertSelection {} 0 ⟨.CLIPBOARD, .UTF8_STRING, some (.other 70), 9, 0⟩),
    .clipboard (.data (fun _ => {}) [104, 105] 2), .disconnect 0]

theorem pending_connected_iff_answered :
    ∃ s, tryExec step {} askAndLeave = some s ∧
      ∀ as₁ as₂ t, askAndLeave = as₁ ++ as₂ → tryExec step {} as₁ = some t →
        t.PendingConnected ∧ t.WritesToConnected := by
  have hs : tryExec step {} askAndLeave = some _ := rfl
  refine ⟨_, hs, (pending_connected_iff hs).2 ⟨trivial, ?_⟩⟩
  rintro s₁ ⟨⟩
  refine ⟨trivial, ?_⟩
  rintro s₂ ⟨⟩
  refine ⟨trivial, ?_⟩
  rintro s₃ ⟨⟩
  exact ⟨nofun, fun _ _ => trivial⟩

/-- A client that asks and disconnects leaves its request behind. -/
theorem pending_of_gone :
    ∃ s, tryExec step {} [.connect,
        .clipboard (.convertSelection {} 0 ⟨.CLIPBOARD, .UTF8_STRING, some (.other 70), 9, 0⟩),
        .disconnect 0] = some s ∧ ¬ s.PendingConnected := by
  refine ⟨_, rfl, fun h => ?_⟩
  exact absurd (h _ List.mem_cons_self) List.not_mem_nil

end Session

end TermuxX11.Server
