import TermuxX11.Lib.Bytes

/-!
# `lorieEvent`: the message header of the activity–server connection

Both ends of the connection exchange the union `lorieEvent` of `lorie.h` as raw memory.
The layout is that of a 64-bit little-endian device: `type` is the first byte, every
member starts with it, and the union takes 24 bytes.  A `float` member is carried as its
bit pattern.  The pointer `screenSize.name` is meaningless to the receiver, which
overwrites it, and is sent as zero like all padding.
-/

namespace TermuxX11.Wire

open ByteCoding

/-- The members of the union, by `eventType`. -/
inductive LorieEvent
  | sharedServerState
  | addBuffer
  | removeBuffer (id : UInt64)
  | screenSize (width height framerate : UInt16) (nameSize : UInt64)
  | touch (type id x y : UInt16)
  | mouse (x y : UInt32) (detail down relative : UInt8)
  | key (key : UInt16) (state : UInt8)
  | stylus (x y : UInt32) (pressure : UInt16) (tiltX tiltY : UInt8) (orientation : UInt16)
      (buttons eraser mouse : UInt8)
  | stylusEnable (enable : UInt8)
  | unicode (code : UInt32)
  | clipboardEnable (enable : UInt8)
  | clipboardAnnounce
  | clipboardRequest
  | clipboardSend (count : UInt32)
  | windowFocusChanged
  deriving DecidableEq, Repr

/-- `sizeof(lorieEvent)`. -/
def sizeofLorieEvent : ℕ := 24

theorem sizeofLorieEvent_pos : 0 < sizeofLorieEvent := by decide

namespace LorieEvent

/-- The value of `eventType` in the first byte. -/
def type : LorieEvent → ℕ
  | sharedServerState => 1
  | addBuffer => 2
  | removeBuffer _ => 3
  | screenSize .. => 4
  | touch .. => 5
  | mouse .. => 6
  | key .. => 7
  | stylus .. => 8
  | stylusEnable _ => 9
  | unicode _ => 10
  | clipboardEnable _ => 11
  | clipboardAnnounce => 12
  | clipboardRequest => 13
  | clipboardSend _ => 14
  | windowFocusChanged => 15

/-- What follows the type byte, padding included. -/
def body : LorieEvent → Bytes
  | removeBuffer id => leBytes 7 0 ++ leBytes 8 id.toNat ++ leBytes 8 0
  | screenSize w h f n =>
      leBytes 1 0 ++ leBytes 2 w.toNat ++ leBytes 2 h.toNat ++ leBytes 2 f.toNat ++
        leBytes 8 n.toNat ++ leBytes 8 0
  | touch t i x y =>
      leBytes 1 0 ++ leBytes 2 t.toNat ++ leBytes 2 i.toNat ++ leBytes 2 x.toNat ++
        leBytes 2 y.toNat ++ leBytes 14 0
  | mouse x y detail down relative =>
      leBytes 3 0 ++ leBytes 4 x.toNat ++ leBytes 4 y.toNat ++ leBytes 1 detail.toNat ++
        leBytes 1 down.toNat ++ leBytes 1 relative.toNat ++ leBytes 9 0
  | key k state => leBytes 1 0 ++ leBytes 2 k.toNat ++ leBytes 1 state.toNat ++ leBytes 19 0
  | stylus x y pressure tiltX tiltY orientation buttons eraser isMouse =>
      leBytes 3 0 ++ leBytes 4 x.toNat ++ leBytes 4 y.toNat ++ leBytes 2 pressure.toNat ++
        leBytes 1 tiltX.toNat ++ leBytes 1 tiltY.toNat ++ leBytes 2 orientation.toNat ++
        leBytes 1 buttons.toNat ++ leBytes 1 eraser.toNat ++ leBytes 1 isMouse.toNat ++ leBytes 3 0
  | stylusEnable enable => leBytes 1 enable.toNat ++ leBytes 22 0
  | unicode code => leBytes 3 0 ++ leBytes 4 code.toNat ++ leBytes 16 0
  | clipboardEnable enable => leBytes 1 enable.toNat ++ leBytes 22 0
  | clipboardSend count => leBytes 3 0 ++ leBytes 4 count.toNat ++ leBytes 16 0
  | _ => leBytes 23 0

/-- The memory image `write(conn_fd, &e, sizeof(e))` puts on the wire. -/
def encode (e : LorieEvent) : Bytes := leBytes 1 e.type ++ e.body

/-- The reader's view of a memory image; `none` is a type no branch of a reader handles. -/
def decode (bs : Bytes) : Option LorieEvent :=
  match field 0 1 bs with
  | 1 => some sharedServerState
  | 2 => some addBuffer
  | 3 => some (removeBuffer (.ofNat (field 8 8 bs)))
  | 4 => some (screenSize (.ofNat (field 2 2 bs)) (.ofNat (field 4 2 bs)) (.ofNat (field 6 2 bs))
      (.ofNat (field 8 8 bs)))
  | 5 => some (touch (.ofNat (field 2 2 bs)) (.ofNat (field 4 2 bs)) (.ofNat (field 6 2 bs))
      (.ofNat (field 8 2 bs)))
  | 6 => some (mouse (.ofNat (field 4 4 bs)) (.ofNat (field 8 4 bs)) (.ofNat (field 12 1 bs))
      (.ofNat (field 13 1 bs)) (.ofNat (field 14 1 bs)))
  | 7 => some (key (.ofNat (field 2 2 bs)) (.ofNat (field 4 1 bs)))
  | 8 => some (stylus (.ofNat (field 4 4 bs)) (.ofNat (field 8 4 bs)) (.ofNat (field 12 2 bs))
      (.ofNat (field 14 1 bs)) (.ofNat (field 15 1 bs)) (.ofNat (field 16 2 bs))
      (.ofNat (field 18 1 bs)) (.ofNat (field 19 1 bs)) (.ofNat (field 20 1 bs)))
  | 9 => some (stylusEnable (.ofNat (field 1 1 bs)))
  | 10 => some (unicode (.ofNat (field 4 4 bs)))
  | 11 => some (clipboardEnable (.ofNat (field 1 1 bs)))
  | 12 => some clipboardAnnounce
  | 13 => some clipboardRequest
  | 14 => some (clipboardSend (.ofNat (field 4 4 bs)))
  | 15 => some windowFocusChanged
  | _ => none

@[simp] theorem length_encode (e : LorieEvent) : e.encode.length = sizeofLorieEvent := by
  cases e <;> rfl

theorem ofNat_leVal8 (v : UInt8) : UInt8.ofNat (leVal (leBytes 1 v.toNat)) = v := by
  rw [leVal_leBytes_of_lt (by simpa using v.toNat_lt), UInt8.ofNat_toNat]

theorem ofNat_leVal16 (v : UInt16) : UInt16.ofNat (leVal (leBytes 2 v.toNat)) = v := by
  rw [leVal_leBytes_of_lt (by simpa using v.toNat_lt), UInt16.ofNat_toNat]

theorem ofNat_leVal32 (v : UInt32) : UInt32.ofNat (leVal (leBytes 4 v.toNat)) = v := by
  rw [leVal_leBytes_of_lt (by simpa using v.toNat_lt), UInt32.ofNat_toNat]

theorem ofNat_leVal64 (v : UInt64) : UInt64.ofNat (leVal (leBytes 8 v.toNat)) = v := by
  rw [leVal_leBytes_of_lt (by simpa using v.toNat_lt), UInt64.ofNat_toNat]

/-- **Every header is read back as it was written**: the offsets of the two sides agree. -/
theorem decode_encode (e : LorieEvent) : decode e.encode = some e := by
  -- in every case `decode` is, by computation, the constructor applied to `leVal (leBytes ..)`
  cases e with
  | sharedServerState => rfl
  | addBuffer => rfl
  | removeBuffer id =>
    exact congrArg (fun i => some (removeBuffer i)) (ofNat_leVal64 id)
  | screenSize w h f n =>
    change some (screenSize (.ofNat (leVal (leBytes 2 w.toNat)))
      (.ofNat (leVal (leBytes 2 h.toNat))) (.ofNat (leVal (leBytes 2 f.toNat)))
      (.ofNat (leVal (leBytes 8 n.toNat)))) = _
    simp only [ofNat_leVal16, ofNat_leVal64]
  | touch t i x y =>
    change some (touch (.ofNat (leVal (leBytes 2 t.toNat))) (.ofNat (leVal (leBytes 2 i.toNat)))
      (.ofNat (leVal (leBytes 2 x.toNat))) (.ofNat (leVal (leBytes 2 y.toNat)))) = _
    simp only [ofNat_leVal16]
  | mouse x y detail down relative =>
    change some (mouse (.ofNat (leVal (leBytes 4 x.toNat))) (.ofNat (leVal (leBytes 4 y.toNat)))
      (.ofNat (leVal (leBytes 1 detail.toNat))) (.ofNat (leVal (leBytes 1 down.toNat)))
      (.ofNat (leVal (leBytes 1 relative.toNat)))) = _
    simp only [ofNat_leVal8, ofNat_leVal32]
  | key k state =>
    change some (key (.ofNat (leVal (leBytes 2 k.toNat)))
      (.ofNat (leVal (leBytes 1 state.toNat)))) = _
    simp only [ofNat_leVal8, ofNat_leVal16]
  | stylus x y pressure tiltX tiltY orientation buttons eraser mouse =>
    change some (stylus (.ofNat (leVal (leBytes 4 x.toNat)))
      (.ofNat (leVal (leBytes 4 y.toNat))) (.ofNat (leVal (leBytes 2 pressure.toNat)))
      (.ofNat (leVal (leBytes 1 tiltX.toNat))) (.ofNat (leVal (leBytes 1 tiltY.toNat)))
      (.ofNat (leVal (leBytes 2 orientation.toNat))) (.ofNat (leVal (leBytes 1 buttons.toNat)))
      (.ofNat (leVal (leBytes 1 eraser.toNat))) (.ofNat (leVal (leBytes 1 mouse.toNat)))) = _
    simp only [ofNat_leVal8, ofNat_leVal16, ofNat_leVal32]
  | stylusEnable enable =>
    exact congrArg (fun v => some (stylusEnable v)) (ofNat_leVal8 enable)
  | unicode code =>
    exact congrArg (fun v => some (unicode v)) (ofNat_leVal32 code)
  | clipboardEnable enable =>
    exact congrArg (fun v => some (clipboardEnable v)) (ofNat_leVal8 enable)
  | clipboardAnnounce => rfl
  | clipboardRequest => rfl
  | clipboardSend count =>
    exact congrArg (fun v => some (clipboardSend v)) (ofNat_leVal32 count)
  | windowFocusChanged => rfl

end LorieEvent

end TermuxX11.Wire
