import TermuxX11.Lib.Run
import TermuxX11.Wire.ActivityToServer

/-!
# Several connections at a time

`addFd` makes a connection the current one and leaves the older ones registered, so that
`handleLorieEvents` may run on any of them.  Here it is cut at its calls of `read`: `header` is
one pass from `again` to the call for the payload, `payload` that call, for which the input
thread may have to wait.  Between the two, bytes may arrive and another connection may be added.

A payload is read from the descriptor that the event came on, except that of
`EVENT_CLIPBOARD_SEND`, which is read from `conn_fd`.  A descriptor number stands for one
connection and is not used again.
-/

namespace TermuxX11.Server

open Run Wire ByteCoding Framing

/-- A call of `read` for the payload of `event`. -/
structure Reading where
  fd : ℕ
  event : LorieEvent
  source : ℤ
  count : ℕ

/-- The connections: the bytes that have arrived on each, those of them that are unread, and the
events that were decoded from each. -/
structure Decoder where
  connFd : ℤ := -1
  registered : List ℕ := []
  arrived : ℕ → Bytes := fun _ => []
  unread : ℕ → Bytes := fun _ => []
  reading : Option Reading := none
  decoded : ℕ → List ServerEvent := fun _ => []

inductive DecoderStep
  | addFd (fd : ℕ)
  | arrive (fd : ℕ) (bytes : Bytes)
  | header (fd : ℕ)
  | payload (fd : ℕ)
  | error (fd : ℕ)

/-- The descriptor that a step is about. -/
def DecoderStep.fd : DecoderStep → ℕ
  | addFd fd => fd
  | arrive fd _ => fd
  | header fd => fd
  | payload fd => fd
  | error fd => fd

/-- The number of bytes of the payload, of an event that has one. -/
def payloadCount : LorieEvent → Option ℕ
  | .screenSize _ _ _ nameSize => some nameSize.toNat
  | .clipboardSend count => some count.toNat
  | _ => none

/-- What is decoded from an event and the bytes that were read for its payload. -/
def decodedFrom (e : LorieEvent) (data : Bytes) : List ServerEvent :=
  match e with
  | .screenSize w h f nameSize => [.configureNotify w h f (zeroPadded nameSize.toNat data)]
  | .clipboardSend _ => [.clipboardData (cString data)]
  | e => if e.isPlain then [.plain e] else []

/-- The event in a header that was read: none if it did not come whole or is of no known type. -/
def eventIn (header : Bytes) : Option LorieEvent :=
  if header.length = sizeofLorieEvent then LorieEvent.decode header else none

namespace Decoder

/-- Where the payload of an event is read from. -/
def payloadSource (s : Decoder) (fd : ℕ) : LorieEvent → ℤ
  | .clipboardSend _ => s.connFd
  | _ => fd

/-- The event is decoded. -/
def emit (fd : ℕ) (es : List ServerEvent) (s : Decoder) : Decoder :=
  { s with decoded := Function.update s.decoded fd (s.decoded fd ++ es) }

/-- `read(fd, .., k)`: the bytes read, and the rest stays unread. -/
def read (fd k : ℕ) (s : Decoder) : Bytes × Decoder :=
  ((s.unread fd).take k, { s with unread := Function.update s.unread fd ((s.unread fd).drop k) })

/-- `handleLorieEvents` from `again` to the call for the payload. -/
def readHeader (fd : ℕ) (s : Decoder) : Decoder :=
  let r := s.read fd sizeofLorieEvent
  match eventIn r.1 with
  | none => r.2
  | some e =>
    match payloadCount e with
    | some count => { r.2 with reading := some ⟨fd, e, s.payloadSource fd e, count⟩ }
    | none => r.2.emit fd (decodedFrom e [])

/-- The call for the payload.  Nothing is read from the descriptor -1. -/
def readPayload (p : Reading) (s : Decoder) : Decoder :=
  let r := if p.source < 0 then ([], s) else s.read p.source.toNat p.count
  { r.2.emit p.fd (decodedFrom p.event r.1) with reading := none }

/-- One step.  The input thread does one thing at a time. -/
def step (s : Decoder) : DecoderStep → Option Decoder
  | .addFd fd => some { s with connFd := fd, registered := fd :: s.registered }
  | .arrive fd bytes =>
    some { s with
      arrived := Function.update s.arrived fd (s.arrived fd ++ bytes)
      unread := Function.update s.unread fd (s.unread fd ++ bytes) }
  | .header fd =>
    if fd ∈ s.registered ∧ s.reading.isNone then some (s.readHeader fd) else none
  | .payload fd =>
    match s.reading with
    | some p => if p.fd = fd then some (s.readPayload p) else none
    | none => none
  | .error fd =>
    if s.reading.isNone then
      some { s with connFd := -1, registered := s.registered.filter (· ≠ fd) }
    else none

/-- The event that a step decodes the header of. -/
def headerOf (s : Decoder) : DecoderStep → Option LorieEvent
  | .header fd => eventIn (s.read fd sizeofLorieEvent).1
  | _ => none

/-- A read call on the descriptor `fd` gets all that it asks for. -/
def WholeRead (fd : ℕ) (s : Decoder) : DecoderStep → Prop
  | .header fd' => fd' = fd → sizeofLorieEvent ≤ (s.unread fd).length
  | .payload fd' => fd' = fd → ∀ p, s.reading = some p → p.count ≤ (s.unread fd).length
  | _ => True

/-- Clipboard data that is not empty comes in on the current connection. -/
def OwnPayload (s : Decoder) (a : DecoderStep) : Prop :=
  ∀ count, s.headerOf a = some (.clipboardSend count) → count.toNat ≠ 0 → s.connFd = a.fd

end Decoder

/-! ### One descriptor on its own -/

/-- What concerns one descriptor: its unread bytes, the event whose payload is being read with
the length of that, and what was decoded. -/
structure View where
  unread : Bytes := []
  reading : Option (LorieEvent × ℕ) := none
  decoded : List ServerEvent := []

namespace View

/-- `readHeader` on a descriptor of its own. -/
def readHeader (v : View) : View :=
  let v' := { v with unread := v.unread.drop sizeofLorieEvent }
  match eventIn (v.unread.take sizeofLorieEvent) with
  | none => v'
  | some e =>
    match payloadCount e with
    | some count => { v' with reading := some (e, count) }
    | none => { v' with decoded := v.decoded ++ decodedFrom e [] }

/-- `readPayload` on a descriptor of its own. -/
def readPayload (v : View) : View :=
  match v.reading with
  | none => v
  | some (e, count) =>
    { unread := v.unread.drop count, reading := none,
      decoded := v.decoded ++ decodedFrom e (v.unread.take count) }

/-- What a step about the descriptor does to its view. -/
def step (v : View) : DecoderStep → View
  | .addFd _ => v
  | .arrive _ bytes => { v with unread := v.unread ++ bytes }
  | .header _ => v.readHeader
  | .payload _ => v.readPayload
  | .error _ => v

end View

namespace Decoder

/-- What the server has of the descriptor `fd`. -/
def view (fd : ℕ) (s : Decoder) : View where
  unread := s.unread fd
  reading := s.reading.bind fun p => if p.fd = fd then some (p.event, p.count) else none
  decoded := s.decoded fd

/-- The payload that is being read is read from the descriptor of its event. -/
def ReadsOwn (s : Decoder) : Prop := ∀ p, s.reading = some p → p.count ≠ 0 → p.source = p.fd

variable {s : Decoder}

theorem readsOwn_of_reading_none (h : s.reading = none) : s.ReadsOwn := by
  intro p hp
  rw [h] at hp
  cases hp

theorem read_zero (fd : ℕ) (s : Decoder) : s.read fd 0 = ([], s) := by
  simp only [read, List.take_zero, List.drop_zero, Function.update_eq_self]

/-- A payload of its own is read from the descriptor of the event. -/
theorem readPayload_own {p : Reading} (h : p.count ≠ 0 → p.source = p.fd) :
    s.readPayload p =
      { (s.read p.fd p.count).2.emit p.fd (decodedFrom p.event (s.read p.fd p.count).1) with
        reading := none } := by
  by_cases hcount : p.count = 0
  · have hread : (if p.source < 0 then ([], s) else s.read p.source.toNat p.count) =
        s.read p.fd p.count := by
      rw [hcount, read_zero, read_zero, ite_self]
    simp only [readPayload, hread]
  · have hsource := h hcount
    have hread : (if p.source < 0 then ([], s) else s.read p.source.toNat p.count) =
        s.read p.fd p.count := by
      rw [if_neg (by omega), hsource, Int.toNat_natCast]
    simp only [readPayload, hread]

/-- What a pass to the payload does. -/
theorem view_readHeader (fd fd' : ℕ) (hr : s.reading = none) :
    (s.readHeader fd).view fd' =
      if fd = fd' then (s.view fd').readHeader else s.view fd' := by
  unfold readHeader
  split_ifs with heq
  · subst heq
    simp only [View.readHeader, read, view]
    cases eventIn ((s.unread fd).take sizeofLorieEvent) with
    | none => simp [hr]
    | some e =>
      cases hcount : payloadCount e with
      | none => simp [emit, hr, hcount]
      | some count => simp [hcount]
  · simp only [read, view]
    cases eventIn ((s.unread fd).take sizeofLorieEvent) with
    | none => simp [hr, Ne.symm heq]
    | some e =>
      cases hcount : payloadCount e with
      | none => simp [emit, hr, hcount, Ne.symm heq]
      | some count => simp [hr, hcount, heq, Ne.symm heq]

theorem view_readPayload {p : Reading} (fd' : ℕ) (hr : s.reading = some p)
    (h : p.count ≠ 0 → p.source = p.fd) :
    (s.readPayload p).view fd' =
      if p.fd = fd' then (s.view fd').readPayload else s.view fd' := by
  rw [readPayload_own h]
  split_ifs with heq
  · subst heq
    simp [View.readPayload, read, view, emit, hr]
  · simp [read, view, emit, hr, heq, Ne.symm heq]

theorem readsOwn_readHeader {fd : ℕ} (hr : s.reading = none) (h : s.OwnPayload (.header fd)) :
    (s.readHeader fd).ReadsOwn := by
  simp only [readHeader]
  cases he : eventIn (s.read fd sizeofLorieEvent).1 with
  | none => exact readsOwn_of_reading_none hr
  | some e =>
    dsimp only
    cases hcount : payloadCount e with
    | none => exact readsOwn_of_reading_none hr
    | some count =>
      rintro p ⟨⟩ hne
      cases e with
      | clipboardSend c =>
        obtain rfl := Option.some.inj hcount
        exact h c he hne
      | _ => rfl

/-- A step about a descriptor acts on the view of it alone, and no other step does. -/
theorem view_step {a : DecoderStep} {s' : Decoder} (fd : ℕ) (hown : s.ReadsOwn)
    (ha : s.OwnPayload a) (hs : s.step a = some s') :
    s'.ReadsOwn ∧ s'.view fd = if a.fd = fd then (s.view fd).step a else s.view fd := by
  cases a with
  | addFd fd' =>
    obtain rfl := Option.some.inj hs
    exact ⟨hown, (ite_self _).symm⟩
  | arrive fd' bytes =>
    obtain rfl := Option.some.inj hs
    refine ⟨hown, ?_⟩
    by_cases heq : fd' = fd
    · subst heq
      simp [DecoderStep.fd, View.step, view]
    · simp [DecoderStep.fd, view, heq, Ne.symm heq]
  | header fd' =>
    simp only [step] at hs
    split_ifs at hs with hc
    obtain rfl := Option.some.inj hs
    have hr : s.reading = none := Option.isNone_iff_eq_none.1 hc.2
    exact ⟨readsOwn_readHeader hr ha, view_readHeader fd' fd hr⟩
  | payload fd' =>
    simp only [step] at hs
    cases hr : s.reading with
    | none =>
      rw [hr] at hs
      cases hs
    | some p =>
      rw [hr] at hs
      dsimp only at hs
      split_ifs at hs with hfd
      obtain rfl := Option.some.inj hs
      subst hfd
      exact ⟨readsOwn_of_reading_none rfl, view_readPayload fd hr (hown p hr)⟩
  | error fd' =>
    simp only [step] at hs
    split_ifs at hs with hc
    obtain rfl := Option.some.inj hs
    exact ⟨hown, (ite_self _).symm⟩

/-- The view of a descriptor after a run is what the steps about it make of it. -/
theorem view_run {steps : List DecoderStep} (h : tryExec step {} steps = some s)
    (hown : TryAlways step OwnPayload {} steps) (fd : ℕ) :
    s.view fd = exec View.step {} (steps.filter fun a => a.fd = fd) := by
  refine view_tryExec (I := ReadsOwn) (fun _ a _ hI hP hs => ?_)
    (readsOwn_of_reading_none rfl) hown h
  simpa only [decide_eq_true_eq] using view_step fd hI hP hs

end Decoder

/-! ### The bytes of a descriptor -/

/-- What the reader makes of the bytes of one connection when they are all there. -/
def decodeAll (bs : Bytes) : List ServerEvent :=
  (handleLorieEvents.iterate bs.length (.available bs)).1

theorem switch_available (e : LorieEvent) (bs : Bytes) :
    handleLorieEventsSwitch e (.available bs) =
      (decodedFrom e (bs.take ((payloadCount e).getD 0)),
        .available (bs.drop ((payloadCount e).getD 0))) := by
  cases e with
  | screenSize w h f n =>
    simp [handleLorieEventsSwitch, decodedFrom, payloadCount, Socket.read_available]
  | clipboardSend count =>
    simp [handleLorieEventsSwitch, decodedFrom, payloadCount, Socket.read_available]
  | _ => rfl

theorem iteration_header {h : Bytes} (hlen : h.length = sizeofLorieEvent) (bs : Bytes) :
    handleLorieEvents.iteration (.available (h ++ bs)) =
      match eventIn h with
      | none => ([], .available bs)
      | some e => (decodedFrom e (bs.take ((payloadCount e).getD 0)),
          .available (bs.drop ((payloadCount e).getD 0))) := by
  have hread : (Socket.available (h ++ bs)).read sizeofLorieEvent = (h, .available bs) := by
    rw [Socket.read_available, ← hlen, List.take_left, List.drop_left]
  have hwhole : handleLorieEvents.whole (.available (h ++ bs)) = true := by
    rw [Reader.whole]
    show decide (((Socket.available (h ++ bs)).read sizeofLorieEvent).1.length = _) = true
    rw [hread]
    exact decide_eq_true hlen
  rw [Reader.iteration, if_pos hwhole]
  show handleLorieEventsDispatch ((Socket.available (h ++ bs)).read sizeofLorieEvent).1
    ((Socket.available (h ++ bs)).read sizeofLorieEvent).2 = _
  rw [hread, handleLorieEventsDispatch, eventIn, if_pos hlen]
  cases LorieEvent.decode h with
  | none => rfl
  | some e => exact switch_available e bs

/-- The reader takes one message after the other off the front. -/
theorem decodeAll_header {h : Bytes} (hlen : h.length = sizeofLorieEvent) (bs : Bytes) :
    decodeAll (h ++ bs) =
      match eventIn h with
      | none => decodeAll bs
      | some e => decodedFrom e (bs.take ((payloadCount e).getD 0)) ++
          decodeAll (bs.drop ((payloadCount e).getD 0)) := by
  have hlength : (h ++ bs).length = (bs.length + 23) + 1 := by
    rw [List.length_append, hlen, sizeofLorieEvent]
    omega
  have hne : (Socket.available (h ++ bs)).total ≠ [] := by
    rw [Socket.total_available]
    exact List.ne_nil_of_length_pos (by omega)
  -- the fuel that is left is more than the bytes that are left
  have hfuel : ∀ bs' : Bytes, bs'.length ≤ bs.length →
      (handleLorieEvents.iterate (bs.length + 23) (.available bs')).1 = decodeAll bs' := by
    intro bs' hle
    rw [decodeAll, Reader.iterate_fuel]
    · rw [Socket.total_available]
      omega
    · rw [Socket.total_available]
  rw [decodeAll, hlength, Reader.iterate_succ _ hne, iteration_header hlen]
  cases eventIn h with
  | none => exact hfuel bs le_rfl
  | some e =>
    refine congrArg (_ ++ ·) (hfuel _ ?_)
    rw [List.length_drop]
    omega

namespace View

/-- The bytes `bs`, of which the view has some unread, are decoded as they should, whatever may
still come. -/
def Follows (bs : Bytes) (v : View) : Prop :=
  match v.reading with
  | none => ∀ more, decodeAll (bs ++ more) = v.decoded ++ decodeAll (v.unread ++ more)
  | some (e, count) =>
    ∃ h : Bytes, h.length = sizeofLorieEvent ∧ eventIn h = some e ∧ payloadCount e = some count ∧
      ∀ more, decodeAll (bs ++ more) = v.decoded ++ decodeAll (h ++ (v.unread ++ more))

variable {bs : Bytes} {v : View}

theorem Follows.arrive (h : v.Follows bs) (bytes : Bytes) :
    Follows (bs ++ bytes) { v with unread := v.unread ++ bytes } := by
  unfold Follows at h ⊢
  cases hr : v.reading with
  | none =>
    rw [hr] at h
    intro more
    rw [List.append_assoc, List.append_assoc]
    exact h (bytes ++ more)
  | some r =>
    rw [hr] at h
    obtain ⟨header, hlen, he, hcount, heq⟩ := h
    refine ⟨header, hlen, he, hcount, fun more => ?_⟩
    rw [List.append_assoc, List.append_assoc]
    exact heq (bytes ++ more)

theorem Follows.header (h : v.Follows bs) (hr : v.reading = none)
    (hlen : sizeofLorieEvent ≤ v.unread.length) : v.readHeader.Follows bs := by
  have htake : (v.unread.take sizeofLorieEvent).length = sizeofLorieEvent :=
    List.length_take_of_le hlen
  have hfollows : ∀ more, decodeAll (bs ++ more) = v.decoded ++
      decodeAll (v.unread.take sizeofLorieEvent ++ (v.unread.drop sizeofLorieEvent ++ more)) := by
    intro more
    rw [← List.append_assoc, List.take_append_drop]
    simp only [Follows, hr] at h
    exact h more
  simp only [readHeader]
  cases he : eventIn (v.unread.take sizeofLorieEvent) with
  | none =>
    simp only [Follows, hr]
    intro more
    rw [hfollows, decodeAll_header htake, he]
  | some e =>
    dsimp only
    cases hcount : payloadCount e with
    | some count => exact ⟨_, htake, he, hcount, hfollows⟩
    | none =>
      simp only [Follows, hr]
      intro more
      rw [hfollows, decodeAll_header htake, he, List.append_assoc]
      simp only [hcount, Option.getD_none, List.take_zero, List.drop_zero]

theorem Follows.payload (h : v.Follows bs)
    (hlen : ∀ e count, v.reading = some (e, count) → count ≤ v.unread.length) :
    v.readPayload.Follows bs := by
  unfold readPayload
  cases hr : v.reading with
  | none => exact h
  | some r =>
    obtain ⟨e, count⟩ := r
    have hle := hlen e count hr
    simp only [Follows, hr] at h
    obtain ⟨header, hlength, he, hcount, heq⟩ := h
    simp only [Follows]
    intro more
    rw [heq, decodeAll_header hlength, he]
    simp only [hcount, Option.getD_some]
    rw [List.take_append_of_le_length hle, List.drop_append_of_le_length hle, List.append_assoc]

/-- What has been decoded is the beginning of what the bytes say. -/
theorem Follows.prefix (h : v.Follows bs) : v.decoded <+: decodeAll bs := by
  unfold Follows at h
  cases hr : v.reading with
  | none =>
    rw [hr] at h
    have := h []
    rw [List.append_nil] at this
    exact ⟨_, this.symm⟩
  | some r =>
    rw [hr] at h
    obtain ⟨header, -, -, -, heq⟩ := h
    have := heq []
    rw [List.append_nil] at this
    exact ⟨_, this.symm⟩

theorem Follows.done (h : v.Follows bs) (hr : v.reading = none) (hu : v.unread = []) :
    v.decoded = decodeAll bs := by
  simp only [Follows, hr, hu] at h
  have := h []
  rw [List.append_nil, List.append_nil] at this
  rw [this]
  exact (List.append_nil _).symm

end View

namespace Decoder

variable {s : Decoder} {fd : ℕ}

theorem arrived_readHeader (s : Decoder) (fd : ℕ) : (s.readHeader fd).arrived = s.arrived := by
  simp only [readHeader]
  cases eventIn (s.read fd sizeofLorieEvent).1 with
  | none => rfl
  | some e =>
    dsimp only
    cases payloadCount e with
    | none => rfl
    | some count => rfl

theorem arrived_readPayload (s : Decoder) (p : Reading) :
    (s.readPayload p).arrived = s.arrived := by
  unfold readPayload
  split_ifs
  · rfl
  · rfl

/-- Whole reads keep the decoded events in step with the bytes. -/
theorem follows_step {a : DecoderStep} {s' : Decoder} (hown : s.ReadsOwn)
    (h : (s.view fd).Follows (s.arrived fd)) (ha : s.OwnPayload a) (hwhole : s.WholeRead fd a)
    (hs : s.step a = some s') : (s'.view fd).Follows (s'.arrived fd) := by
  have hview := (view_step fd hown ha hs).2
  rw [hview]
  cases a with
  | addFd fd' =>
    obtain rfl := Option.some.inj hs
    rwa [View.step, ite_self]
  | error fd' =>
    simp only [step] at hs
    split_ifs at hs
    obtain rfl := Option.some.inj hs
    rwa [View.step, ite_self]
  | arrive fd' bytes =>
    obtain rfl := Option.some.inj hs
    split_ifs with heq
    · have heq' : fd' = fd := heq
      subst heq'
      simp only [Function.update_self]
      exact h.arrive bytes
    · have hne : fd ≠ fd' := Ne.symm heq
      simp only [Function.update_of_ne hne]
      exact h
  | header fd' =>
    simp only [step] at hs
    split_ifs at hs with hc
    obtain rfl := Option.some.inj hs
    rw [arrived_readHeader]
    split_ifs with heq
    · have hr : (s.view fd).reading = none := by
        rw [view, Option.isNone_iff_eq_none.1 hc.2]
        rfl
      exact h.header hr (hwhole heq)
    · exact h
  | payload fd' =>
    simp only [step] at hs
    cases hr : s.reading with
    | none =>
      rw [hr] at hs
      cases hs
    | some p =>
      rw [hr] at hs
      dsimp only at hs
      split_ifs at hs with hfd
      obtain rfl := Option.some.inj hs
      rw [arrived_readPayload]
      split_ifs with heq
      · -- what the view is reading is the payload that the decoder reads
        refine h.payload fun e count hread => ?_
        rw [view, hr, Option.bind_some] at hread
        dsimp only at hread
        split_ifs at hread
        obtain ⟨-, rfl⟩ := Prod.mk.inj (Option.some.inj hread)
        exact hwhole heq p hr
      · exact h

theorem follows_run {steps : List DecoderStep} (h : tryExec step {} steps = some s)
    (hown : TryAlways step OwnPayload {} steps)
    (hwhole : TryAlways step (WholeRead fd) {} steps) :
    (s.view fd).Follows (s.arrived fd) := by
  have hstart : ReadsOwn {} ∧ (view fd {}).Follows (Decoder.arrived {} fd) :=
    ⟨readsOwn_of_reading_none rfl, fun more => rfl⟩
  have hrun := tryExec_invariant
    (I := fun s : Decoder => s.ReadsOwn ∧ (s.view fd).Follows (s.arrived fd))
    (fun s a s' hI hP hs => ⟨(view_step fd hI.1 hP.1 hs).1, follows_step hI.1 hI.2 hP.1 hP.2 hs⟩)
    hstart (hown.and hwhole) h
  exact hrun.2

/-- All bytes of the descriptor have been read. -/
def Done (fd : ℕ) (s : Decoder) : Prop := (s.view fd).reading = none ∧ s.unread fd = []

/-- **Isolation of connections**: in runs in which clipboard data comes in on the current
connection, what is decoded from a descriptor and what is left unread on it depend only on the
steps about it.  If moreover its messages are there when they are read, it depends only on the
bytes that arrived on it. -/
theorem decoded_isolated (fd : ℕ) {steps₁ steps₂ : List DecoderStep} {s₁ s₂ : Decoder}
    (h₁ : tryExec step {} steps₁ = some s₁) (h₂ : tryExec step {} steps₂ = some s₂)
    (hown₁ : TryAlways step OwnPayload {} steps₁) (hown₂ : TryAlways step OwnPayload {} steps₂) :
    (steps₁.filter (fun a => a.fd = fd) = steps₂.filter (fun a => a.fd = fd) →
        s₁.decoded fd = s₂.decoded fd ∧ s₁.unread fd = s₂.unread fd) ∧
      (s₁.arrived fd = s₂.arrived fd → TryAlways step (WholeRead fd) {} steps₁ →
        TryAlways step (WholeRead fd) {} steps₂ →
        (s₁.decoded fd <+: s₂.decoded fd ∨ s₂.decoded fd <+: s₁.decoded fd) ∧
          (s₁.Done fd → s₂.Done fd → s₁.decoded fd = s₂.decoded fd)) := by
  constructor
  · intro hsteps
    have hview : s₁.view fd = s₂.view fd := by
      rw [view_run h₁ hown₁, view_run h₂ hown₂, hsteps]
    exact ⟨congrArg View.decoded hview, congrArg View.unread hview⟩
  · intro harrived hwhole₁ hwhole₂
    have hf₁ := follows_run h₁ hown₁ hwhole₁
    have hf₂ := follows_run h₂ hown₂ hwhole₂
    rw [harrived] at hf₁
    refine ⟨List.prefix_or_prefix_of_prefix hf₁.prefix hf₂.prefix, fun hd₁ hd₂ => ?_⟩
    exact (hf₁.done hd₁.1 hd₁.2).trans (hf₂.done hd₂.1 hd₂.2).symm

/-- A connection on which clipboard data comes in, and a newer one. -/
def sendAndReplace : List DecoderStep :=
  [.addFd 3, .arrive 3 ((LorieEvent.clipboardSend 2).encode ++ [104, 105]), .header 3, .payload 3,
    .addFd 4]

theorem ownPayload_sendAndReplace : TryAlways step OwnPayload {} sendAndReplace := by
  refine ⟨nofun, ?_⟩
  rintro _ ⟨⟩
  refine ⟨nofun, ?_⟩
  rintro _ ⟨⟩
  refine ⟨fun _ _ _ => rfl, ?_⟩
  rintro _ ⟨⟩
  refine ⟨nofun, ?_⟩
  rintro _ ⟨⟩
  exact ⟨nofun, fun _ _ => trivial⟩

/-- The newer connection brings different bytes. -/
theorem decoded_isolated_replaced :
    ∃ s₁ s₂, tryExec step {} (sendAndReplace ++ [.arrive 4 [1]]) = some s₁ ∧
      tryExec step {} (sendAndReplace ++ [.arrive 4 [2], .header 4]) = some s₂ ∧
      s₁.decoded 3 = s₂.decoded 3 ∧ s₁.unread 3 = s₂.unread 3 := by
  have hown₁ : TryAlways step OwnPayload {} (sendAndReplace ++ [.arrive 4 [1]]) := by
    refine ownPayload_sendAndReplace.append ?_
    rintro _ ⟨⟩
    exact ⟨nofun, fun _ _ => trivial⟩
  have hown₂ : TryAlways step OwnPayload {} (sendAndReplace ++ [.arrive 4 [2], .header 4]) := by
    refine ownPayload_sendAndReplace.append ?_
    rintro _ ⟨⟩
    refine ⟨nofun, ?_⟩
    rintro _ ⟨⟩
    exact ⟨fun _ _ _ => rfl, fun _ _ => trivial⟩
  obtain ⟨s₁, h₁⟩ : ∃ s₁, tryExec step {} (sendAndReplace ++ [.arrive 4 [1]]) = some s₁ :=
    ⟨_, rfl⟩
  obtain ⟨s₂, h₂⟩ : ∃ s₂, tryExec step {} (sendAndReplace ++ [.arrive 4 [2], .header 4]) =
      some s₂ := ⟨_, rfl⟩
  exact ⟨s₁, s₂, h₁, h₂, (decoded_isolated 3 h₁ h₂ hown₁ hown₂).1 rfl⟩

/-- Clipboard data that arrives on an older connection is taken from the newer one. -/
theorem decoded_from_current :
    (tryExec step {} [.addFd 3, .addFd 4,
        .arrive 3 ((LorieEvent.clipboardSend 2).encode ++ [104, 105]), .arrive 4 [97, 97],
        .header 3, .payload 3]).map (fun s => s.decoded 3) = some [.clipboardData [97, 97]] ∧
      (tryExec step {} [.addFd 3, .addFd 4,
        .arrive 3 ((LorieEvent.clipboardSend 2).encode ++ [104, 105]), .arrive 4 [98, 98],
        .header 3, .payload 3]).map (fun s => s.decoded 3) = some [.clipboardData [98, 98]] := by
  decide +kernel

end Decoder

end TermuxX11.Server
