import TermuxX11.Wire.ServerToActivity

/-!
# Messages from the activity to the X server

The activity writes a header and, for `EVENT_SCREEN_SIZE` and `EVENT_CLIPBOARD_SEND`, a
payload with a second `write`; the server takes the stream apart in `handleLorieEvents`
(`cmdentrypoint.c`) with one unchecked `read` for the header and one for the payload.
A header that came in part is thrown away, and a payload that came in part is taken for
the whole, the missing bytes being the zeros of `calloc`.

`handleLorieEvents_delivers_iff` says exactly for which segmentations of the stream the
server handles what was sent.  Clipboard data reaches `lorieHandleClipboardData` as a C
string, so a NUL inside the text ends it.
-/

namespace TermuxX11.Wire

open ByteCoding Framing

/-- A Java byte array: its length is a `jsize`. -/
structure JByteArray where
  bytes : Bytes
  length_lt : bytes.length < 2 ^ 31

/-! ### The writer -/

/-- The events the activity sends that are a header and nothing else. -/
def LorieEvent.isPlain : LorieEvent → Bool
  | touch .. | mouse .. | key .. | stylus .. | stylusEnable _ | unicode _
  | clipboardEnable _ | clipboardAnnounce => true
  | _ => false

/-- A message the activity writes to the X server. -/
inductive ActivityMessage
  | plain (e : LorieEvent) (h : e.isPlain = true)
  | screenSize (width height framerate : UInt16) (name : CString)
  | clipboardSend (text : JByteArray)

namespace ActivityMessage

def header : ActivityMessage → LorieEvent
  | plain e _ => e
  | screenSize w h f name => .screenSize w h f (.ofNat name.bytes.length)
  | clipboardSend text => .clipboardSend (.ofNat text.bytes.length)

/-- What the second `write` sends: the name of the screen or the text of the clipboard. -/
def payload : ActivityMessage → Bytes
  | plain _ _ => []
  | screenSize _ _ _ name => name.bytes
  | clipboardSend text => text.bytes

/-- The bytes a message puts on the connection. -/
def write (m : ActivityMessage) : Bytes := m.header.encode ++ m.payload

end ActivityMessage

/-! ### The reader -/

/-- What the server handles: an event that is all in its header, a new screen size with
the `name_size` bytes of its name, or clipboard data as a C string. -/
inductive ServerEvent
  | plain (e : LorieEvent)
  | configureNotify (width height framerate : UInt16) (name : Bytes)
  | clipboardData (data : Bytes)
  deriving DecidableEq

/-- A buffer of `k` bytes from `calloc` into which `bs` has been read. -/
def zeroPadded (k : ℕ) (bs : Bytes) : Bytes := bs ++ List.replicate (k - bs.length) 0

/-- The `switch` of `handleLorieEvents`, on the only connection (`conn_fd` is `fd`). -/
def handleLorieEventsSwitch (e : LorieEvent) (s : Socket) : List ServerEvent × Socket :=
  match e with
  | .screenSize w h f nameSize =>
    let r := s.read nameSize.toNat
    ([.configureNotify w h f (zeroPadded nameSize.toNat r.1)], r.2)
  | .clipboardSend count =>
    let r := s.read count.toNat
    ([.clipboardData (cString r.1)], r.2)
  | e => if e.isPlain then ([.plain e], s) else ([], s)

/-- What `handleLorieEvents` does with a whole header. -/
def handleLorieEventsDispatch (header : Bytes) (s : Socket) : List ServerEvent × Socket :=
  match LorieEvent.decode header with
  | some e => handleLorieEventsSwitch e s
  | none => ([], s)

theorem switch_eq_ite {e : LorieEvent} (hs : ∀ w h f n, e ≠ .screenSize w h f n)
    (hc : ∀ count, e ≠ .clipboardSend count) (s : Socket) :
    handleLorieEventsSwitch e s = if e.isPlain then ([.plain e], s) else ([], s) := by
  cases e with
  | screenSize w h f n => exact absurd rfl (hs w h f n)
  | clipboardSend count => exact absurd rfl (hc count)
  | _ => rfl

theorem switch_of_isPlain {e : LorieEvent} (h : e.isPlain = true) (s : Socket) :
    handleLorieEventsSwitch e s = ([.plain e], s) := by
  have hs : ∀ w h f n, e ≠ .screenSize w h f n := by
    rintro w h' f n rfl
    exact absurd h Bool.false_ne_true
  have hc : ∀ count, e ≠ .clipboardSend count := by
    rintro count rfl
    exact absurd h Bool.false_ne_true
  rw [switch_eq_ite hs hc, if_pos h]

/-- A message that neither announces a payload nor is the activity's is passed over. -/
theorem switch_of_not_isPlain {e : LorieEvent} (h : ¬ e.isPlain = true)
    (hs : ∀ w h f n, e ≠ .screenSize w h f n) (hc : ∀ count, e ≠ .clipboardSend count)
    (s : Socket) : handleLorieEventsSwitch e s = ([], s) := by
  rw [switch_eq_ite hs hc, if_neg h]

/-- The three things the `switch` can do. -/
theorem switch_cases (e : LorieEvent) (s : Socket) :
    (∃ w h f n, e = .screenSize w h f n) ∨ (∃ count, e = .clipboardSend count) ∨
      handleLorieEventsSwitch e s = ([.plain e], s) ∨ handleLorieEventsSwitch e s = ([], s) := by
  by_cases hp : e.isPlain = true
  · exact Or.inr (Or.inr (Or.inl (switch_of_isPlain hp s)))
  · cases e with
    | screenSize w h f n => exact Or.inl ⟨w, h, f, n, rfl⟩
    | clipboardSend count => exact Or.inr (Or.inl ⟨count, rfl⟩)
    | _ =>
      refine Or.inr (Or.inr (Or.inr (switch_of_not_isPlain hp ?_ ?_ s)))
      · intros; simp
      · intros; simp

theorem total_handleLorieEventsDispatch_le (header : Bytes) (s : Socket) :
    (handleLorieEventsDispatch header s).2.total.length ≤ s.total.length := by
  unfold handleLorieEventsDispatch
  cases LorieEvent.decode header with
  | none => exact le_rfl
  | some e =>
    rcases switch_cases e s with ⟨w, h, f, n, rfl⟩ | ⟨count, rfl⟩ | he | he
    · exact total_read_le _ _
    · exact total_read_le _ _
    · simp only [he, le_refl]
    · simp only [he, le_refl]

/-- `handleLorieEvents` without `X_NOTIFY_ERROR`: `again` after a whole header if
`FIONREAD` reports more than a header. -/
def handleLorieEvents : Reader ServerEvent where
  headerSize := sizeofLorieEvent
  headerSize_pos := sizeofLorieEvent_pos
  dispatch := handleLorieEventsDispatch
  dispatch_total := total_handleLorieEventsDispatch_le
  again whole s := whole && decide (sizeofLorieEvent < s.pending.length)
  again_total b s h := by
    intro hs
    have hp : s.pending = [] := (List.append_eq_nil_iff.1 hs).1
    simp [hp] at h

/-! ### One message -/

namespace ActivityMessage

/-- The event the server handles if the read for the payload returned `d`. -/
def eventOf (m : ActivityMessage) (d : Bytes) : ServerEvent :=
  match m with
  | plain e _ => .plain e
  | screenSize w h f name => .configureNotify w h f (zeroPadded name.bytes.length d)
  | clipboardSend _ => .clipboardData (cString d)

/-- The event that was sent. -/
def event : ActivityMessage → ServerEvent
  | plain e _ => .plain e
  | screenSize w h f name => .configureNotify w h f name.bytes
  | clipboardSend text => .clipboardData text.bytes

theorem length_write (m : ActivityMessage) :
    m.write.length = sizeofLorieEvent + m.payload.length := by
  simp [write]

theorem write_ne_nil (m : ActivityMessage) : m.write ≠ [] := by
  apply List.ne_nil_of_length_pos
  rw [length_write]
  simp [sizeofLorieEvent]

end ActivityMessage

theorem zeroPadded_eq_iff {k : ℕ} {d name : Bytes} (hk : name.length = k) (hd : d <+: name)
    (hz : (0 : UInt8) ∉ name) : zeroPadded k d = name ↔ d = name := by
  constructor
  · intro h
    have hzero : k - d.length = 0 := by
      by_contra hne
      apply hz
      rw [← h, zeroPadded]
      simp [hne]
    exact hd.eq_of_length_le (by omega)
  · rintro rfl
    simp [zeroPadded, hk]

/-- The server handles what was sent if and only if the payload was read whole and, for a
clipboard text, there is no NUL in it. -/
theorem eventOf_eq_iff (m : ActivityMessage) {d : Bytes} (hd : d <+: m.payload) :
    m.eventOf d = m.event ↔ d = m.payload ∧ (0 : UInt8) ∉ m.payload := by
  cases m with
  | plain e h =>
    have : d = [] := List.prefix_nil.1 hd
    simp [ActivityMessage.eventOf, ActivityMessage.event, ActivityMessage.payload, this]
  | screenSize w h f name =>
    have hz := name.zero_notMem
    have hiff := zeroPadded_eq_iff rfl hd hz
    simpa [ActivityMessage.eventOf, ActivityMessage.event, ActivityMessage.payload, hz]
      using hiff
  | clipboardSend text =>
    simp only [ActivityMessage.eventOf, ActivityMessage.event, ActivityMessage.payload,
      ServerEvent.clipboardData.injEq] at hd ⊢
    constructor
    · intro h
      have hlen := length_cString_le d
      have hz := zero_notMem_cString d
      rw [h] at hlen hz
      exact ⟨hd.eq_of_length_le hlen, hz⟩
    · rintro ⟨rfl, hz⟩
      exact cString_eq_self hz

/-- On a whole header the server reads the payload with one call. -/
theorem dispatch_header (m : ActivityMessage) (s : Socket) :
    handleLorieEventsDispatch m.header.encode s =
      ([m.eventOf (s.read m.payload.length).1], (s.read m.payload.length).2) := by
  unfold handleLorieEventsDispatch
  rw [LorieEvent.decode_encode]
  cases m with
  | plain e h => exact switch_of_isPlain h s
  | screenSize w h f name =>
    have hn : (UInt64.ofNat name.bytes.length).toNat = name.bytes.length := by
      rw [UInt64.toNat_ofNat', Nat.mod_eq_of_lt name.length_lt]
    simp only [ActivityMessage.header, ActivityMessage.eventOf, ActivityMessage.payload,
      handleLorieEventsSwitch, hn]
  | clipboardSend text =>
    have hn : (UInt32.ofNat text.bytes.length).toNat = text.bytes.length := by
      rw [UInt32.toNat_ofNat', Nat.mod_eq_of_lt (text.length_lt.trans (by decide))]
    simp only [ActivityMessage.header, ActivityMessage.eventOf, ActivityMessage.payload,
      handleLorieEventsSwitch, hn]

/-! ### Counting bytes -/

namespace ServerEvent

/-- The bytes an event has cost at least. -/
def size : ServerEvent → ℕ
  | plain _ => sizeofLorieEvent
  | configureNotify _ _ _ name => sizeofLorieEvent + (cString name).length
  | clipboardData data => sizeofLorieEvent + data.length

end ServerEvent

theorem length_cString_zeroPadded_le (k : ℕ) (bs : Bytes) :
    (cString (zeroPadded k bs)).length ≤ bs.length := by
  rw [zeroPadded, cString, List.takeWhile_append]
  split_ifs with h
  · simp
  · exact length_cString_le bs

theorem sized_handleLorieEvents : handleLorieEvents.Sized ServerEvent.size := by
  intro header s _
  show ((handleLorieEventsDispatch header s).1.map ServerEvent.size).sum +
      (handleLorieEventsDispatch header s).2.total.length ≤ sizeofLorieEvent + s.total.length
  unfold handleLorieEventsDispatch
  cases LorieEvent.decode header with
  | none => simp
  | some e =>
    rcases switch_cases e s with ⟨w, h, f, nameSize, rfl⟩ | ⟨count, rfl⟩ | he | he
    · have hread := Socket.length_total_read nameSize.toNat s
      have hpad := length_cString_zeroPadded_le nameSize.toNat (s.read nameSize.toNat).1
      simp only [handleLorieEventsSwitch, List.map_cons, List.map_nil, List.sum_cons,
        List.sum_nil, ServerEvent.size]
      omega
    · have hread := Socket.length_total_read count.toNat s
      have hstr := length_cString_le (s.read count.toNat).1
      simp only [handleLorieEventsSwitch, List.map_cons, List.map_nil, List.sum_cons,
        List.sum_nil, ServerEvent.size]
      omega
    · simp [he, ServerEvent.size]
    · simp [he]

/-- What was sent costs exactly its bytes, unless a text contains a NUL. -/
theorem size_event (m : ActivityMessage) : m.event.size = m.write.length := by
  rw [ActivityMessage.length_write]
  cases m with
  | plain e h => rfl
  | screenSize w h f name =>
    simp only [ActivityMessage.event, ServerEvent.size, ActivityMessage.payload,
      cString_eq_self name.zero_notMem]
  | clipboardSend text => rfl

theorem sum_size_event (ms : List ActivityMessage) :
    ((ms.map ActivityMessage.event).map ServerEvent.size).sum =
      (ms.flatMap ActivityMessage.write).length := by
  induction ms with
  | nil => rfl
  | cons m ms ih =>
    simp only [List.map_cons, List.sum_cons, List.flatMap_cons, List.length_append, ih,
      size_event]

/-! ### Segmentations -/

/-- `k` bytes have arrived when the next read call is made. -/
def Arrived (k : ℕ) (s : Socket) : Prop := (s.read k).1.length = k

instance (k : ℕ) (s : Socket) : Decidable (Arrived k s) :=
  inferInstanceAs (Decidable ((s.read k).1.length = k))

theorem whole_eq_decide (s : Socket) :
    handleLorieEvents.whole s = decide (Arrived sizeofLorieEvent s) := rfl

/-- Every header and every payload of the list has arrived in full by the time of the
read call for it. -/
def Delivered : List ActivityMessage → Socket → Prop
  | [], _ => True
  | m :: ms, s =>
    Arrived sizeofLorieEvent s ∧
      Arrived m.payload.length (s.read sizeofLorieEvent).2 ∧
        Delivered ms ((s.read sizeofLorieEvent).2.read m.payload.length).2

/-- A read that got all it asked for took the front of the stream. -/
theorem read_of_arrived {k : ℕ} {s : Socket} {front rest : Bytes} (h : Arrived k s)
    (ht : s.total = front ++ rest) (hk : front.length = k) :
    (s.read k).1 = front ∧ (s.read k).2.total = rest := by
  have happ := (Socket.read_append k s).trans ht
  exact List.append_inj happ (h.trans hk.symm)

/-- A whole header: one message comes out, made of what the read for the payload got. -/
theorem iteration_of_arrived {m : ActivityMessage} {s : Socket} {rest : Bytes}
    (h : Arrived sizeofLorieEvent s) (ht : s.total = m.write ++ rest) :
    handleLorieEvents.iteration s =
      ([m.eventOf ((s.read sizeofLorieEvent).2.read m.payload.length).1],
        ((s.read sizeofLorieEvent).2.read m.payload.length).2) := by
  have hw : handleLorieEvents.whole s = true := by rw [whole_eq_decide, decide_eq_true h]
  rw [ActivityMessage.write, List.append_assoc] at ht
  have hfront := (read_of_arrived h ht (by simp)).1
  rw [Reader.iteration, if_pos hw]
  simp only [handleLorieEvents]
  rw [hfront, dispatch_header]

theorem iteration_of_not_arrived {s : Socket} (h : ¬ Arrived sizeofLorieEvent s) :
    handleLorieEvents.iteration s = ([], (s.read sizeofLorieEvent).2) := by
  have hw : ¬ handleLorieEvents.whole s = true := by
    rw [whole_eq_decide, decide_eq_false h]
    exact Bool.false_ne_true
  rw [Reader.iteration, if_neg hw]
  rfl

/-- The payload read gets a front part of the payload. -/
theorem read_prefix_of_payload {m : ActivityMessage} {s : Socket} {rest : Bytes}
    (h : s.total = m.payload ++ rest) : (s.read m.payload.length).1 <+: m.payload := by
  have happ := Socket.read_append m.payload.length s
  rw [h] at happ
  exact List.prefix_of_prefix_length_le ⟨_, happ⟩ (List.prefix_append _ _)
    (Socket.length_read_le _ _)

theorem iterate_of_delivered {ms : List ActivityMessage} {s : Socket} {fuel : ℕ}
    (ht : s.total = ms.flatMap ActivityMessage.write) (hf : s.total.length ≤ fuel)
    (hz : ∀ m ∈ ms, (0 : UInt8) ∉ m.payload) (hd : Delivered ms s) :
    (handleLorieEvents.iterate fuel s).1 = ms.map ActivityMessage.event := by
  induction ms generalizing s fuel with
  | nil => rw [Reader.iterate_nil _ (by simpa using ht)]; rfl
  | cons m ms ih =>
    obtain ⟨hh, hp, hms⟩ := hd
    rw [List.flatMap_cons] at ht
    have hs : s.total ≠ [] := by rw [ht]; simp [m.write_ne_nil]
    obtain ⟨fuel, rfl⟩ : ∃ k, fuel = k + 1 :=
      ⟨fuel - 1, by have := List.length_pos_of_ne_nil hs; omega⟩
    have hsplit := ht
    rw [ActivityMessage.write, List.append_assoc] at hsplit
    -- the header and then the payload come off the front in full
    obtain ⟨-, hrest⟩ := read_of_arrived hh hsplit (by simp)
    obtain ⟨hpay, hrest'⟩ := read_of_arrived hp hrest rfl
    have hlt := handleLorieEvents.iteration_lt hs
    have hev : m.eventOf m.payload = m.event :=
      (eventOf_eq_iff m (List.prefix_refl _)).2 ⟨rfl, hz m (by simp)⟩
    rw [Reader.iterate_succ _ hs]
    rw [iteration_of_arrived hh ht] at hlt ⊢
    simp only at hlt ⊢
    rw [hpay, hev, ih hrest' (by omega) (fun m' hm' => hz m' (by simp [hm'])) hms]
    rfl

theorem delivered_of_iterate {ms : List ActivityMessage} {s : Socket} {fuel : ℕ}
    (ht : s.total = ms.flatMap ActivityMessage.write) (hf : s.total.length ≤ fuel)
    (h : (handleLorieEvents.iterate fuel s).1 = ms.map ActivityMessage.event) :
    (∀ m ∈ ms, (0 : UInt8) ∉ m.payload) ∧ Delivered ms s := by
  induction ms generalizing s fuel with
  | nil => simp [Delivered]
  | cons m ms ih =>
    have htotal := ht
    rw [List.flatMap_cons] at ht
    have hs : s.total ≠ [] := by rw [ht]; simp [m.write_ne_nil]
    obtain ⟨fuel, rfl⟩ : ∃ k, fuel = k + 1 :=
      ⟨fuel - 1, by have := List.length_pos_of_ne_nil hs; omega⟩
    have hlt := handleLorieEvents.iteration_lt hs
    rw [Reader.iterate_succ _ hs] at h
    by_cases hh : Arrived sizeofLorieEvent s
    · rw [iteration_of_arrived hh ht] at h hlt
      simp only [List.singleton_append, List.map_cons, List.cons.injEq] at h hlt
      obtain ⟨hev, htail⟩ := h
      have hsplit := ht
      rw [ActivityMessage.write, List.append_assoc] at hsplit
      obtain ⟨-, hrest⟩ := read_of_arrived hh hsplit (by simp)
      obtain ⟨hpay, hz⟩ := (eventOf_eq_iff m (read_prefix_of_payload hrest)).1 hev
      have hp : Arrived m.payload.length (s.read sizeofLorieEvent).2 := by rw [Arrived, hpay]
      obtain ⟨-, hrest'⟩ := read_of_arrived hp hrest rfl
      obtain ⟨hzs, hds⟩ := ih hrest' (by omega) htail
      refine ⟨fun m' hm' => ?_, hh, hp, hds⟩
      rcases List.mem_cons.1 hm' with rfl | hm'
      · exact hz
      · exact hzs m' hm'
    · -- the bytes of the lost header cannot be made up for
      exfalso
      rw [iteration_of_not_arrived hh] at h hlt
      have hle := Reader.iterate_size_le sized_handleLorieEvents fuel
        (s.read sizeofLorieEvent).2
      simp only [List.nil_append] at h hlt
      rw [h, sum_size_event, ← htotal] at hle
      omega

/-- The server handles what the activity sent. -/
def Delivers (ms : List ActivityMessage) (s : Socket) : Prop :=
  (handleLorieEvents.serve s.total.length s).1 = ms.map ActivityMessage.event

theorem delivered_of_delivers {ms : List ActivityMessage} {s : Socket}
    (hs : s.total = ms.flatMap ActivityMessage.write) (h : Delivers ms s) :
    (∀ m ∈ ms, (0 : UInt8) ∉ m.payload) ∧ Delivered ms s := by
  rw [Delivers, handleLorieEvents.serve_eq_iterate le_rfl] at h
  exact delivered_of_iterate hs le_rfl h

/-- **The round trip from the activity to the server** holds, on a given segmentation,
exactly if every header and payload is there in full when its read call is made and no
clipboard text contains a NUL. -/
theorem handleLorieEvents_delivers_iff (ms : List ActivityMessage) (s : Socket)
    (hs : s.total = ms.flatMap ActivityMessage.write) :
    Delivers ms s ↔ (∀ m ∈ ms, (0 : UInt8) ∉ m.payload) ∧ Delivered ms s := by
  constructor
  · exact delivered_of_delivers hs
  · rintro ⟨hz, hd⟩
    rw [Delivers, handleLorieEvents.serve_eq_iterate le_rfl]
    exact iterate_of_delivered hs le_rfl hz hd

/-- One clipboard message. -/
def clipboardMessage : List ActivityMessage := [.clipboardSend ⟨[97, 98], by decide⟩]

/-- Header and text arrive with one portion each. -/
def twoPortions : Socket :=
  ⟨[], [(LorieEvent.clipboardSend 2).encode, [97, 98]]⟩

theorem handleLorieEvents_delivers_twoPortions :
    twoPortions.total = clipboardMessage.flatMap ActivityMessage.write ∧
      Delivers clipboardMessage twoPortions :=
  ⟨by decide, (handleLorieEvents_delivers_iff clipboardMessage twoPortions (by decide)).2
    ⟨by decide, by decide, by decide, trivial⟩⟩

/-- The text arrives in two parts. -/
def splitText : Socket :=
  ⟨[], [(LorieEvent.clipboardSend 2).encode, [97], [98]]⟩

/-- The server hands on the first part of the text as if it were all of it. -/
theorem handleLorieEvents_splitText_fails :
    splitText.total = clipboardMessage.flatMap ActivityMessage.write ∧
      ¬ Delivers clipboardMessage splitText := by
  refine ⟨by decide, fun h => ?_⟩
  have hd := delivered_of_delivers (by decide) h
  exact absurd hd.2.2.1 (by decide)

end TermuxX11.Wire
