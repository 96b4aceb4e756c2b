import TermuxX11.Buffer.Convert

/-!
# Sending a buffer to the activity

`LorieBuffer_sendHandleToUnixSocket` writes the structure as it is, and the file descriptor or the
hardware buffer behind it; `LorieBuffer_recvHandleFromUnixSocket` makes a buffer of what it reads.

A pointer is the memory it points to.  What `mmap` maps is a range of pages of a file.
-/

namespace TermuxX11.Buffer

/-- Memory that a pointer points to: a block of the heap, or what was mapped of a file. -/
inductive Memory
  | heap (block : ℕ)
  | mapped (file : ℕ) (offset : ℤ) (length : ℕ)
  deriving DecidableEq

variable {H : Type}

/-- `mmap` maps whole pages from the offset on, if it does not fail. -/
def MapsPages (p : Page) (c : Calls H Memory) : Prop :=
  ∀ {size file offset data}, c.mmap size file offset = some data →
    data = .mapped file offset (alignToPage p size)

/-- `pixman_blt` leaves the pointers as they are. -/
structure KeepsPointers (px : Pixman H Memory) : Prop where
  blt : ∀ src dst srcStride dstStride width height,
    (px.blt src dst srcStride dstStride width height).getD dst = dst

/-- What is written to the socket: the structure, and the file or the hardware buffer. -/
structure Message (H : Type) where
  struct : LorieBuffer H Memory
  file : Option ℕ
  buffer : Option H

/-- What the calls of the receiver give: whether the descriptor arrives, and what it gets for the
hardware buffer, which may be nothing. -/
structure Receiver (H : Type) where
  calls : Calls H Memory
  fd : Bool
  buffer : Option H

namespace LorieBuffer

/-- `LorieBuffer_sendHandleToUnixSocket`, for a socket that is open. -/
def sendHandleToUnixSocket (b : LorieBuffer H Memory) : Message H :=
  { struct := b
    file := if b.desc.type = .FD then b.fd else none
    buffer := if b.desc.type = .AHARDWAREBUFFER then b.desc.buffer else none }

/-- The structure that the receiver has on its stack before it reads. -/
def reset : LorieBuffer H Memory :=
  { refcount := 1, desc := ⟨0, 0, 0, .other 0, .UNKNOWN, 0, none, none⟩, locked := false,
    lockedData := none, fd := none, size := 0, offset := 0, texture := 0, image := none,
    link := none }

/-- `read` of the whole structure into another one. -/
def read (m : Message H) (_ : LorieBuffer H Memory) : LorieBuffer H Memory := m.struct

/-- `LorieBuffer_recvHandleFromUnixSocket`, for a socket that is open and a place to put the buffer;
`none` is what is put there on a failure. -/
def recvHandleFromUnixSocket (r : Receiver H) (m : Message H) : Option (LorieBuffer H Memory) :=
  let b := read m reset
  let b := { b with image := none }
  let filled :=
    if b.desc.type = .FD then
      let size := imageSize b.desc.stride b.desc.height
      match if r.fd then m.file else none with
      | none => none
      | some file =>
        match r.calls.mmap size file 0 with
        | none => none
        | some data =>
          some { b with fd := some file, desc := { b.desc with data := some data } }
    else if b.desc.type = .AHARDWAREBUFFER then
      some { b with desc := { b.desc with buffer := r.buffer } }
    else some b
  match filled with
  | none => none
  | some b => if r.calls.alloc then some { b with link := none } else none

/-! ### Buffers of shared memory -/

/-- A buffer of shared memory maps its file, from its offset on, for the whole image. -/
def Backed (p : Page) (b : LorieBuffer H Memory) : Prop :=
  b.desc.type = .FD → ∃ file, b.fd = some file ∧
    b.desc.data =
      some (.mapped file b.offset (alignToPage p (imageSize b.desc.stride b.desc.height)))

end LorieBuffer

open LorieBuffer

variable {p : Page} {c : Calls H Memory}

theorem backed_allocated (hc : MapsPages p c) {b b' : LorieBuffer H Memory}
    (hsize : b.desc.type = .FD →
      alignToPage p b.size = alignToPage p (imageSize b.desc.stride b.desc.height))
    (h : allocated c b = some b') : Backed p b' := by
  intro hfd
  rcases allocated_cases h with ⟨data, htype, rfl⟩ | ⟨file, data, htype, hfile, hdata, rfl⟩ |
    ⟨width, height, stride, format, htype, rfl⟩
  · cases htype.symm.trans hfd
  · exact ⟨file, hfile, by rw [hc hdata, hsize htype]⟩
  · cases htype.symm.trans hfd

/-- Every buffer that is made is backed, and stays so when it is locked, unlocked or converted. -/
theorem backed_wrapFileDescriptor (hc : MapsPages p c) {id : ℕ} {width stride height : ℤ}
    {format : Format} {fd : Option ℕ} {offset : ℤ} {b : LorieBuffer H Memory}
    (h : wrapFileDescriptor c id width stride height format fd offset = some b) : Backed p b := by
  obtain ⟨b₀, hb, -, -, hsize, hstride, hheight⟩ := allocate_eq h
  refine backed_allocated hc (fun _ => ?_) hb
  rw [hsize, hstride, hheight]

theorem backed_LorieBuffer_allocate (hc : MapsPages p c) {id : ℕ} {width height : ℤ}
    {format : Format} {type : BufferType} {b : LorieBuffer H Memory}
    (h : LorieBuffer.allocate c p id width height format type = some b) : Backed p b := by
  obtain ⟨buf, fd, size, haligned, h⟩ := LorieBuffer.allocate_eq h
  obtain ⟨b₀, hb, -, htype, hsize, hstride, hheight⟩ := allocate_eq h
  refine backed_allocated hc (fun hfd => ?_) hb
  rw [hsize, haligned (htype.symm.trans hfd), hstride, hheight, alignToPage_alignToPage]

theorem backed_wrapAHardwareBuffer (hc : MapsPages p c) {id : ℕ} {buffer : Option H}
    {b : LorieBuffer H Memory} (h : wrapAHardwareBuffer c id buffer = some b) : Backed p b := by
  obtain ⟨b₀, hb, -, htype, -⟩ := allocate_eq h
  refine backed_allocated hc (fun hfd => ?_) hb
  cases htype.symm.trans hfd

theorem backed_lock {b : LorieBuffer H Memory} (h : Backed p b) (c : Calls H Memory) :
    Backed p (b.lock c).2 := by
  unfold lock
  split_ifs
  · exact h
  · exact h
  · exact h
  · exact h

theorem backed_unlock {b : LorieBuffer H Memory} (h : Backed p b) (c : Calls H Memory) :
    Backed p (b.unlock c).2 := by
  unfold unlock
  by_cases hlocked : b.locked = false
  · rw [if_pos hlocked]
    exact h
  · rw [if_neg hlocked]
    exact h

theorem backed_convert (hc : MapsPages p c) {px : Pixman H Memory} (hpx : KeepsPointers px)
    {b : LorieBuffer H Memory} (h : Backed p b) (type : BufferType) (format : Format) :
    Backed p (b.convert px c p type format) := by
  unfold convert
  split_ifs with hrefused hfd
  · exact h
  · unfold convertToFD
    dsimp only
    cases hregion : c.createRegion (alignToPage p (imageSize b.desc.stride b.desc.height)) with
    | none => exact h
    | some fd =>
      dsimp only
      cases hdata : c.mmap (alignToPage p (imageSize b.desc.stride b.desc.height)) fd 0 with
      | none => exact h
      | some data =>
        refine fun _ => ⟨fd, rfl, ?_⟩
        dsimp only
        rw [hpx.blt, hc hdata, alignToPage_alignToPage]
  · unfold convertToAHardwareBuffer
    cases c.allocate b.desc.width b.desc.height format with
    | none => exact h
    | some buffer => nofun

/-! ### What arrives -/

namespace LorieBuffer

/-- What is shared is what was sent. -/
structure SameShared (b b' : LorieBuffer H Memory) : Prop where
  id : b'.desc.id = b.desc.id
  width : b'.desc.width = b.desc.width
  height : b'.desc.height = b.desc.height
  stride : b'.desc.stride = b.desc.stride
  format : b'.desc.format = b.desc.format
  type : b'.desc.type = b.desc.type
  data : b.desc.type = .FD → b'.desc.data = b.desc.data

/-- The state that is local to a process is that of a new buffer. -/
structure Fresh (b : LorieBuffer H Memory) : Prop where
  refcount : b.refcount = 1
  locked : b.locked = false
  lockedData : b.lockedData = none
  image : b.image = none
  link : b.link = none

/-- The buffer has what the receiver does not set: one reference, no lock and no offset. -/
structure Plain (b : LorieBuffer H Memory) : Prop where
  refcount : b.refcount = 1
  locked : b.locked = false
  lockedData : b.lockedData = none
  offset : b.desc.type = .FD → b.offset = 0

end LorieBuffer

theorem recvHandleFromUnixSocket_eq {r : Receiver H} (hr : MapsPages p r.calls)
    {b b' : LorieBuffer H Memory}
    (h : recvHandleFromUnixSocket r b.sendHandleToUnixSocket = some b') :
    ∃ fd data buffer,
      b' =
        { b with
          desc := { b.desc with data := data, buffer := buffer }, fd := fd, image := none,
          link := none } ∧
        (b.desc.type = .FD → ∀ file, b.fd = some file →
          data =
            some (.mapped file 0 (alignToPage p (imageSize b.desc.stride b.desc.height)))) := by
  unfold recvHandleFromUnixSocket LorieBuffer.read sendHandleToUnixSocket at h
  dsimp only at h
  by_cases hfd : b.desc.type = .FD
  · rw [if_pos hfd, if_pos hfd] at h
    cases hfile : (if r.fd then b.fd else none) with
    | none =>
      rw [hfile] at h
      cases h
    | some file =>
      have hsent : b.fd = some file := by
        split_ifs at hfile
        exact hfile
      rw [hfile] at h
      dsimp only at h
      cases hdata : r.calls.mmap (imageSize b.desc.stride b.desc.height) file 0 with
      | none =>
        rw [hdata] at h
        cases h
      | some data =>
        rw [hdata] at h
        dsimp only at h
        split_ifs at h
        obtain rfl := Option.some.inj h
        refine ⟨_, _, _, rfl, fun _ file' hfile' => ?_⟩
        obtain rfl := Option.some.inj (hsent.symm.trans hfile')
        rw [hr hdata]
  · rw [if_neg hfd] at h
    by_cases hahb : b.desc.type = .AHARDWAREBUFFER
    · rw [if_pos hahb] at h
      dsimp only at h
      split_ifs at h
      obtain rfl := Option.some.inj h
      exact ⟨_, _, _, rfl, fun h => absurd h hfd⟩
    · rw [if_neg hahb] at h
      dsimp only at h
      split_ifs at h
      obtain rfl := Option.some.inj h
      exact ⟨_, _, _, rfl, fun h => absurd h hfd⟩

/-- **What is sent arrives as a new buffer only if it was like one.**  The buffer that the receiver
makes shares what was sent and has a fresh state if and only if what was sent had one reference, was
not locked, and had no locked data and, for shared memory, no offset. -/
theorem transferred_iff {r : Receiver H} (hr : MapsPages p r.calls) {b b' : LorieBuffer H Memory}
    (hb : Backed p b) (h : recvHandleFromUnixSocket r b.sendHandleToUnixSocket = some b') :
    SameShared b b' ∧ Fresh b' ↔ Plain b := by
  obtain ⟨fd, data, buffer, rfl, hmapped⟩ := recvHandleFromUnixSocket_eq hr h
  constructor
  · rintro ⟨hshared, hfresh⟩
    refine ⟨hfresh.refcount, hfresh.locked, hfresh.lockedData, fun hfd => ?_⟩
    obtain ⟨file, hfile, hdata⟩ := hb hfd
    have hsame := hshared.data hfd
    rw [hmapped hfd file hfile, hdata] at hsame
    exact (Memory.mapped.inj (Option.some.inj hsame)).2.1.symm
  · rintro ⟨hrefcount, hlocked, hlockedData, hoffset⟩
    refine ⟨⟨rfl, rfl, rfl, rfl, rfl, rfl, fun hfd => ?_⟩,
      ⟨hrefcount, hlocked, hlockedData, rfl, rfl⟩⟩
    obtain ⟨file, hfile, hdata⟩ := hb hfd
    rw [hdata, hmapped hfd file hfile, hoffset hfd]

/-- A buffer of one page of shared memory, from `offset` on. -/
def sharedPage (offset : ℤ) : LorieBuffer ℕ Memory :=
  { refcount := 1
    desc := ⟨32, 32, 32, .B8G8R8A8_UNORM, .FD, 3, none, some (.mapped 7 offset 4096)⟩
    locked := false
    lockedData := none
    fd := some 7
    size := 4096
    offset := offset
    texture := 0
    image := some 1
    link := some 2 }

/-- A receiver that maps what it gets. -/
def receiver : Receiver ℕ :=
  { calls :=
      { calloc := fun _ => none
        createRegion := fun _ => none
        mmap := fun size file offset =>
          some (.mapped file offset (alignToPage ⟨12, by decide⟩ size))
        allocate := fun _ _ _ => none
        describe := fun _ => (0, 0, 0, .R8G8B8X8_UNORM)
        lock := fun _ => .error 1 (by decide) none
        unlock := fun _ => 0
        dup := true
        alloc := true }
    fd := true
    buffer := none }

/-- A buffer without offset arrives as a new one. -/
theorem transferred_sharedPage :
    ∃ b', recvHandleFromUnixSocket receiver (sharedPage 0).sendHandleToUnixSocket = some b' ∧
      SameShared (sharedPage 0) b' ∧ Fresh b' := by
  have hpage : alignToPage ⟨12, by decide⟩ (imageSize 32 32) = 4096 := by decide
  have hb : Backed ⟨12, by decide⟩ (sharedPage 0) := by
    refine fun _ => ⟨7, rfl, ?_⟩
    show some (Memory.mapped 7 0 4096) = _
    rw [← hpage]
    rfl
  have hr : MapsPages ⟨12, by decide⟩ receiver.calls := by
    rintro size file offset data h
    exact (Option.some.inj h).symm
  exact ⟨_, rfl, (transferred_iff hr hb rfl).2 ⟨rfl, rfl, rfl, fun _ => rfl⟩⟩

/-- The second page of a file arrives as the first one. -/
theorem offset_lost :
    ∃ b', recvHandleFromUnixSocket receiver (sharedPage 4096).sendHandleToUnixSocket = some b' ∧
      b'.desc.data = some (.mapped 7 0 4096) ∧ ¬ SameShared (sharedPage 4096) b' := by
  refine ⟨_, rfl, rfl, fun h => ?_⟩
  have hdata := h.data rfl
  cases hdata

end TermuxX11.Buffer
