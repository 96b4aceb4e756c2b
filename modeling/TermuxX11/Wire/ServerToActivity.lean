import TermuxX11.Lib.Framing
import TermuxX11.Wire.LorieEvent

/-!
# Messages from the X server to the activity

The X server writes a header and, for `EVENT_CLIPBOARD_SEND`, the text after it
(`cmdentrypoint.c`); the activity decodes the stream in `xcallback` (`activity.c`).
The writer sends `strlen(data)` bytes of text and announces that number modulo `2 ^ 32`;
the reader asks for `sizeof(clipboard)`, one byte more than was announced.  With the
text alone in the socket the extra byte is not there to be read; with another message
behind the text the reader takes its first byte away.  The array `clipboard` is an
automatic one, and is taken to fit the stack of the thread.

`xcallback_roundTrip_iff` says exactly which lists of messages survive.
-/

namespace TermuxX11.Wire

open ByteCoding Framing

/-- A C string argument: no NUL among its bytes, and `strlen` is a `size_t`. -/
structure CString where
  bytes : Bytes
  zero_notMem : (0 : UInt8) ∉ bytes
  length_lt : bytes.length < 2 ^ 64

/-! ### The writer -/

/-- A message without ancillary data that the X server writes to the activity. -/
inductive ServerMessage
  | clipboardSend (data : CString)
  | clipboardRequest
  | removeBuffer (id : UInt64)
  | windowFocusChanged

/-- `lorieSendClipboardData`. -/
def lorieSendClipboardData (data : CString) : Bytes :=
  (LorieEvent.clipboardSend (.ofNat data.bytes.length)).encode ++ data.bytes

/-- `lorieRequestClipboard`. -/
def lorieRequestClipboard : Bytes := LorieEvent.clipboardRequest.encode

/-- The message of `lorieUnregisterBuffer`. -/
def lorieUnregisterBuffer (id : UInt64) : Bytes := (LorieEvent.removeBuffer id).encode

/-- `DDXNotifyFocusChanged`. -/
def ddxNotifyFocusChanged : Bytes := LorieEvent.windowFocusChanged.encode

namespace ServerMessage

/-- The bytes a message puts on the connection. -/
def write : ServerMessage → Bytes
  | clipboardSend data => lorieSendClipboardData data
  | clipboardRequest => lorieRequestClipboard
  | removeBuffer id => lorieUnregisterBuffer id
  | windowFocusChanged => ddxNotifyFocusChanged

/-- The text a message carries behind its header. -/
def text : ServerMessage → Bytes
  | clipboardSend data => data.bytes
  | _ => []

end ServerMessage

/-! ### The reader -/

/-- What `xcallback` does on a message. -/
inductive ActivityCall
  | setClipboardText (text : Bytes)
  | requestClipboard
  | rendererAddBuffer
  | rendererRemoveBuffer (id : UInt64)
  | resetIme
  deriving DecidableEq

/-- `sizeof(LorieBuffer)`. -/
def sizeofLorieBuffer : ℕ := 120

/-- `LorieBuffer_recvHandleFromUnixSocket` as far as the byte stream goes; no descriptor
comes along.  `ahb` is the number of bytes that `AHardwareBuffer_recvHandleFromUnixSocket`
asks for. -/
def recvLorieBuffer (ahb : ℕ) (s : Socket) : Socket :=
  let r := s.read sizeofLorieBuffer
  match field 21 1 r.1 with
  | 2 => (r.2.read 1).2 -- LORIEBUFFER_FD: the byte that carries the descriptor
  | 3 => (r.2.read ahb).2 -- LORIEBUFFER_AHARDWAREBUFFER
  | _ => r.2

/-- The `switch` of `xcallback`. -/
def xcallbackSwitch (ahb : ℕ) (e : LorieEvent) (s : Socket) : List ActivityCall × Socket :=
  match e with
  | .clipboardSend count =>
    if count = 0 then ([], s)
    else
      -- `read(conn_fd, clipboard, sizeof(clipboard))` with `char clipboard[count + 1]`
      let r := s.read (count + 1).toNat
      ([.setClipboardText (cString (r.1.take count.toNat))], r.2)
  | .clipboardRequest => ([.requestClipboard], s)
  | .sharedServerState => ([], (s.read 1).2) -- `ancil_recv_fd` returns -1
  | .addBuffer => ([.rendererAddBuffer], recvLorieBuffer ahb s)
  | .removeBuffer id => ([.rendererRemoveBuffer id], s)
  | .windowFocusChanged => ([.resetIme], s)
  | _ => ([], s)

theorem xcallbackSwitch_clipboardSend (ahb : ℕ) (count : UInt32) (s : Socket) :
    xcallbackSwitch ahb (.clipboardSend count) s =
      if count = 0 then ([], s)
      else
        ([.setClipboardText (cString ((s.read (count + 1).toNat).1.take count.toNat))],
          (s.read (count + 1).toNat).2) :=
  rfl

/-- What `xcallback` does with a whole header; an unknown type falls through the `switch`. -/
def xcallbackDispatch (ahb : ℕ) (header : Bytes) (s : Socket) : List ActivityCall × Socket :=
  match LorieEvent.decode header with
  | some e => xcallbackSwitch ahb e s
  | none => ([], s)

theorem total_read_le (k : ℕ) (s : Socket) : (s.read k).2.total.length ≤ s.total.length := by
  have := Socket.length_total_read k s
  omega

theorem total_recvLorieBuffer_le (ahb : ℕ) (s : Socket) :
    (recvLorieBuffer ahb s).total.length ≤ s.total.length := by
  have h := total_read_le sizeofLorieBuffer s
  unfold recvLorieBuffer
  dsimp only
  split
  · exact (total_read_le _ _).trans h
  · exact (total_read_le _ _).trans h
  · exact h

theorem total_xcallbackSwitch_le (ahb : ℕ) (e : LorieEvent) (s : Socket) :
    (xcallbackSwitch ahb e s).2.total.length ≤ s.total.length := by
  cases e with
  | clipboardSend count =>
    rw [xcallbackSwitch_clipboardSend]
    split_ifs with h
    · exact le_rfl
    · exact total_read_le _ _
  | sharedServerState => exact total_read_le _ _
  | addBuffer => exact total_recvLorieBuffer_le _ _
  | _ => exact le_rfl

theorem total_xcallbackDispatch_le (ahb : ℕ) (header : Bytes) (s : Socket) :
    (xcallbackDispatch ahb header s).2.total.length ≤ s.total.length := by
  unfold xcallbackDispatch
  cases LorieEvent.decode header with
  | none => exact le_rfl
  | some e => exact total_xcallbackSwitch_le ahb e s

/-- `xcallback` on a connected socket: `again` if `FIONREAD` reports more than a header. -/
def xcallback (ahb : ℕ) : Reader ActivityCall where
  headerSize := sizeofLorieEvent
  headerSize_pos := sizeofLorieEvent_pos
  dispatch := xcallbackDispatch ahb
  dispatch_total := total_xcallbackDispatch_le ahb
  again _ s := sizeofLorieEvent < s.pending.length
  again_total b s h := by
    intro hs
    have hp : s.pending = [] := (List.append_eq_nil_iff.1 hs).1
    simp [hp] at h

/-! ### One message -/

/-- What the activity is to do on a message; an empty text is ignored. -/
def ServerMessage.calls : ServerMessage → List ActivityCall
  | clipboardSend data =>
      if data.bytes.isEmpty then [] else [.setClipboardText data.bytes]
  | clipboardRequest => [.requestClipboard]
  | removeBuffer id => [.rendererRemoveBuffer id]
  | windowFocusChanged => [.resetIme]

theorem iteration_xcallback (ahb : ℕ) (e : LorieEvent) (rest : Bytes) :
    (xcallback ahb).iteration (.available (e.encode ++ rest)) =
      xcallbackSwitch ahb e (.available rest) := by
  have hlen : (e.encode ++ rest).take sizeofLorieEvent = e.encode := by
    rw [← e.length_encode, List.take_left]
  have hrest : (e.encode ++ rest).drop sizeofLorieEvent = rest := by
    rw [← e.length_encode, List.drop_left]
  have hw : (xcallback ahb).whole (.available (e.encode ++ rest)) = true := by
    simp [Reader.whole, xcallback, Socket.read_available, hlen]
  rw [Reader.iteration, if_pos hw]
  simp only [xcallback, Socket.read_available, hlen, hrest, xcallbackDispatch,
    LorieEvent.decode_encode]

/-- A message without text is consumed exactly. -/
theorem iteration_xcallback_of_text_nil (ahb : ℕ) {m : ServerMessage} (h : m.text = [])
    (rest : Bytes) :
    (xcallback ahb).iteration (.available (m.write ++ rest)) = (m.calls, .available rest) := by
  cases m with
  | clipboardSend data =>
    have hd : data.bytes = [] := h
    simp only [ServerMessage.write, lorieSendClipboardData, hd, List.append_nil]
    rw [iteration_xcallback, xcallbackSwitch_clipboardSend]
    simp [ServerMessage.calls, hd]
  | clipboardRequest =>
    simp only [ServerMessage.write, lorieRequestClipboard]
    rw [iteration_xcallback]
    rfl
  | removeBuffer id =>
    simp only [ServerMessage.write, lorieUnregisterBuffer]
    rw [iteration_xcallback]
    rfl
  | windowFocusChanged =>
    simp only [ServerMessage.write, ddxNotifyFocusChanged]
    rw [iteration_xcallback]
    rfl

/-- A text is announced modulo `2 ^ 32` and read with one byte more. -/
theorem iteration_xcallback_clipboardSend (ahb : ℕ) (data : CString) (rest : Bytes) :
    (xcallback ahb).iteration
        (.available ((ServerMessage.clipboardSend data).write ++ rest)) =
      (let count := UInt32.ofNat data.bytes.length
       if count = 0 then ([], .available (data.bytes ++ rest))
       else
        ([.setClipboardText
            (cString (((data.bytes ++ rest).take (count + 1).toNat).take count.toNat))],
          .available ((data.bytes ++ rest).drop (count + 1).toNat))) := by
  simp only [ServerMessage.write, lorieSendClipboardData, List.append_assoc]
  rw [iteration_xcallback, xcallbackSwitch_clipboardSend]
  simp only [Socket.read_available]

/-! ### The whole stream -/

/-- Every nonempty text is the last message, and `count + 1` does not wrap for it. -/
def ClipboardLast : List ServerMessage → Prop
  | [] => True
  | m :: ms => (m.text ≠ [] → ms = [] ∧ m.text.length + 1 < 2 ^ 32) ∧ ClipboardLast ms

/-- The activity decodes the stream of `ms` to `ms`: it makes the calls of the messages
in order, it reads the stream to its end, and each iteration of the decoder consumes the
bytes of one message and nothing else. -/
def RoundTrips (ahb : ℕ) (ms : List ServerMessage) : Prop :=
  let stream := ms.flatMap ServerMessage.write
  let r := (xcallback ahb).serve stream.length (.available stream)
  r.1 = ms.flatMap ServerMessage.calls ∧ r.2.total = [] ∧
    (xcallback ahb).segments stream.length (.available stream) =
      ms.map fun m => (m.write, m.calls)

theorem length_write (m : ServerMessage) :
    m.write.length = sizeofLorieEvent + m.text.length := by
  cases m <;>
    simp [ServerMessage.write, ServerMessage.text, lorieSendClipboardData,
      lorieRequestClipboard, lorieUnregisterBuffer, ddxNotifyFocusChanged]

theorem write_ne_nil (m : ServerMessage) : m.write ≠ [] := by
  apply List.ne_nil_of_length_pos
  rw [length_write]
  simp [sizeofLorieEvent]

/-- The last text is consumed exactly if its announced length is right. -/
theorem iteration_xcallback_last (ahb : ℕ) {m : ServerMessage} (ht : m.text ≠ [])
    (hlen : m.text.length + 1 < 2 ^ 32) :
    (xcallback ahb).iteration (.available m.write) = (m.calls, .available []) := by
  cases m with
  | clipboardSend data =>
    have hd : data.bytes ≠ [] := ht
    have hl : data.bytes.length + 1 < 2 ^ 32 := hlen
    -- the count is a `uint32_t`, and so is the count plus one that is read
    have hc : (UInt32.ofNat data.bytes.length).toNat = data.bytes.length := by
      rw [UInt32.toNat_ofNat', Nat.mod_eq_of_lt (by omega)]
    have hc0 : UInt32.ofNat data.bytes.length ≠ 0 := by
      intro h
      rw [h] at hc
      exact hd (List.length_eq_zero_iff.1 hc.symm)
    have hc1 : (UInt32.ofNat data.bytes.length + 1).toNat = data.bytes.length + 1 := by
      rw [UInt32.toNat_add, hc]
      exact Nat.mod_eq_of_lt hl
    have h := iteration_xcallback_clipboardSend ahb data []
    rw [List.append_nil] at h
    simp only [List.append_nil, if_neg hc0, hc, hc1] at h
    have htake : data.bytes.take (data.bytes.length + 1) = data.bytes :=
      List.take_of_length_le (by omega)
    have hdrop : data.bytes.drop (data.bytes.length + 1) = [] :=
      List.drop_of_length_le (by omega)
    rw [h, htake, hdrop, List.take_length, cString_eq_self data.zero_notMem]
    simp [ServerMessage.calls, hd]
  | clipboardRequest => exact absurd rfl ht
  | removeBuffer id => exact absurd rfl ht
  | windowFocusChanged => exact absurd rfl ht

/-- One exact iteration splits off one segment. -/
theorem segments_cons (ahb : ℕ) {m : ServerMessage} {rest : Bytes} {fuel : ℕ}
    (h : (xcallback ahb).iteration (.available (m.write ++ rest)) = (m.calls, .available rest)) :
    (xcallback ahb).segments (fuel + 1) (.available (m.write ++ rest)) =
      (m.write, m.calls) :: (xcallback ahb).segments fuel (.available rest) := by
  have hs : (Socket.available (m.write ++ rest)).total ≠ [] := by
    simp [write_ne_nil m]
  rw [Reader.segments_succ _ hs, h]
  simp

theorem segments_of_clipboardLast (ahb : ℕ) {ms : List ServerMessage} (h : ClipboardLast ms)
    {fuel : ℕ} (hf : (ms.flatMap ServerMessage.write).length ≤ fuel) :
    (xcallback ahb).segments fuel (.available (ms.flatMap ServerMessage.write)) =
      ms.map fun m => (m.write, m.calls) := by
  induction ms generalizing fuel with
  | nil => cases fuel <;> simp [Reader.segments]
  | cons m ms ih =>
    obtain ⟨hm, hms⟩ := h
    have hpos : 0 < m.write.length := List.length_pos_of_ne_nil (write_ne_nil m)
    simp only [List.flatMap_cons, List.length_append] at hf
    obtain ⟨fuel, rfl⟩ : ∃ k, fuel = k + 1 := ⟨fuel - 1, by omega⟩
    have hiter : (xcallback ahb).iteration
        (.available (m.write ++ ms.flatMap ServerMessage.write)) =
        (m.calls, .available (ms.flatMap ServerMessage.write)) := by
      by_cases ht : m.text = []
      · exact iteration_xcallback_of_text_nil ahb ht _
      · obtain ⟨rfl, hlen⟩ := hm ht
        simpa using iteration_xcallback_last ahb ht hlen
    rw [List.flatMap_cons, segments_cons ahb hiter, ih hms (by omega), List.map_cons]

/-- A text that is consumed exactly is the last thing in the stream. -/
theorem rest_nil_of_segment (ahb : ℕ) {m : ServerMessage} {rest : Bytes} (ht : m.text ≠ [])
    (hcalls : ((xcallback ahb).iteration (.available (m.write ++ rest))).1 = m.calls)
    (hrest : ((xcallback ahb).iteration (.available (m.write ++ rest))).2.total.length =
      rest.length) :
    rest = [] ∧ m.text.length + 1 < 2 ^ 32 := by
  cases m with
  | clipboardSend data =>
    have hd : data.bytes ≠ [] := ht
    have hdpos := List.length_pos_of_ne_nil hd
    rw [iteration_xcallback_clipboardSend] at hcalls hrest
    simp only [ServerMessage.calls] at hcalls hrest
    set count := UInt32.ofNat data.bytes.length with hcount
    by_cases hc0 : count = 0
    · simp [hc0, hd] at hcalls
    · simp only [if_neg hc0, List.isEmpty_iff, if_neg hd, List.cons.injEq, and_true,
        ActivityCall.setClipboardText.injEq] at hcalls
      simp only [if_neg hc0, Socket.total_available, List.length_drop, List.length_append]
        at hrest
      -- the text came back whole, so its length was announced without loss
      have hle : data.bytes.length ≤ count.toNat := by
        have := length_cString_le
          (((data.bytes ++ rest).take (count + 1).toNat).take count.toNat)
        rw [hcalls, List.length_take] at this
        omega
      have hmod : count.toNat = data.bytes.length % 2 ^ 32 := by
        rw [hcount, UInt32.toNat_ofNat']
      have hlt : data.bytes.length < 2 ^ 32 := by
        have := Nat.mod_lt data.bytes.length (show 0 < 2 ^ 32 by decide)
        omega
      rw [Nat.mod_eq_of_lt hlt] at hmod
      have hc1 : (count + 1).toNat = (data.bytes.length + 1) % 2 ^ 32 := by
        rw [UInt32.toNat_add, hmod]
        rfl
      have hsum : data.bytes.length + 1 < 2 ^ 32 := by
        by_contra hge
        have hwrap : data.bytes.length + 1 = 2 ^ 32 := by omega
        rw [hc1, hwrap, Nat.mod_self] at hrest
        omega
      rw [hc1, Nat.mod_eq_of_lt hsum] at hrest
      exact ⟨List.length_eq_zero_iff.1 (by omega), hsum⟩
  | clipboardRequest => exact absurd rfl ht
  | removeBuffer id => exact absurd rfl ht
  | windowFocusChanged => exact absurd rfl ht

theorem flatMap_write_eq_nil {ms : List ServerMessage}
    (h : ms.flatMap ServerMessage.write = []) : ms = [] := by
  cases ms with
  | nil => rfl
  | cons m ms =>
    rw [List.flatMap_cons, List.append_eq_nil_iff] at h
    exact absurd h.1 (write_ne_nil m)

theorem clipboardLast_of_segments (ahb : ℕ) {ms : List ServerMessage} {fuel : ℕ}
    (hf : (ms.flatMap ServerMessage.write).length ≤ fuel)
    (h : (xcallback ahb).segments fuel (.available (ms.flatMap ServerMessage.write)) =
      ms.map fun m => (m.write, m.calls)) : ClipboardLast ms := by
  induction ms generalizing fuel with
  | nil => trivial
  | cons m ms ih =>
    have hpos : 0 < m.write.length := List.length_pos_of_ne_nil (write_ne_nil m)
    simp only [List.flatMap_cons, List.length_append] at hf
    obtain ⟨fuel, rfl⟩ : ∃ k, fuel = k + 1 := ⟨fuel - 1, by omega⟩
    have hs : (Socket.available (m.write ++ ms.flatMap ServerMessage.write)).total ≠ [] := by
      simp [write_ne_nil m]
    rw [List.flatMap_cons, Reader.segments_succ _ hs, List.map_cons] at h
    obtain ⟨hhead, htail⟩ := List.cons.inj h
    obtain ⟨hbytes, hcalls⟩ := Prod.mk.inj hhead
    -- the segment has the length of the message, so what is left has that of the rest
    have hlt := (xcallback ahb).iteration_lt hs
    have hrest : ((xcallback ahb).iteration
        (.available (m.write ++ ms.flatMap ServerMessage.write))).2.total.length =
          (ms.flatMap ServerMessage.write).length := by
      have := congrArg List.length hbytes
      simp only [Socket.total_available, List.length_take, List.length_append] at this hlt
      omega
    have hm : m.text ≠ [] → ms = [] ∧ m.text.length + 1 < 2 ^ 32 := by
      intro ht
      obtain ⟨hnil, hlen⟩ := rest_nil_of_segment ahb ht hcalls hrest
      exact ⟨flatMap_write_eq_nil hnil, hlen⟩
    refine ⟨hm, ?_⟩
    by_cases ht : m.text = []
    · rw [iteration_xcallback_of_text_nil ahb ht] at htail
      exact ih (by omega) htail
    · rw [(hm ht).1]
      trivial

/-- **The round trip from the server to the activity** holds exactly for the lists in
which a nonempty text is the last message and is shorter than `2 ^ 32 - 1` bytes. -/
theorem xcallback_roundTrip_iff (ahb : ℕ) (ms : List ServerMessage) :
    RoundTrips ahb ms ↔ ClipboardLast ms := by
  constructor
  · rintro ⟨-, -, h⟩
    exact clipboardLast_of_segments ahb le_rfl h
  · intro h
    have hseg := segments_of_clipboardLast ahb h le_rfl
    have hlen : (Socket.available (ms.flatMap ServerMessage.write)).total.length ≤
        (ms.flatMap ServerMessage.write).length := by
      rw [Socket.total_available]
    have hserve := (xcallback ahb).serve_eq_iterate hlen
    refine ⟨?_, ?_, hseg⟩
    · rw [hserve, Reader.iterate_eq_flatMap, hseg, List.flatMap_map]
    · rw [hserve]
      exact Reader.iterate_total _ hlen

/-- The text `a`, with a focus notification queued behind it. -/
def clipboardThenFocus : List ServerMessage :=
  [.clipboardSend ⟨[97], by decide, by decide⟩, .windowFocusChanged]

/-- Two messages back to back do not survive: the reader takes the type byte of the second. -/
theorem xcallback_roundTrip_fails : ¬ RoundTrips 0 clipboardThenFocus := by
  intro h
  have hlast := (clipboardLast_of_segments 0 le_rfl h.2.2).1 (by decide)
  exact absurd hlast.1 (by decide)

end TermuxX11.Wire
