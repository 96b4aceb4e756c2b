import TermuxX11.Buffer.Convert
import TermuxX11.Lib.Run

/-!
# The locks of the pixmaps

A pixmap has a buffer, and its private part in `InitOutput.c` has a pointer `locked` to the pixels
while the buffer is locked.  The buffer is locked when the pixmap is created, shown in the root
window or drawn on, and unlocked when it is no longer; drawing on the pixmap of the screen also
takes the mutex that is shared with the renderer.

A pixmap that is drawn on is finished as EXA does, once for each successful `PrepareAccess`.
`held` goes along with a buffer to say that its last lock succeeded and was not undone.
-/

namespace TermuxX11.Server

open Buffer Run

variable {H M : Type}

/-- `LoriePixmapPriv`, with `held`. -/
structure LoriePixmapPriv (H M : Type) where
  buffer : Option (LorieBuffer H M) := none
  wasLocked : Bool := false
  imported : Bool := false
  locked : Option M := none
  mem : Option M := none
  held : Bool := false

/-- The mutex of the root window, as the server holds it, and the process that is noted. -/
structure RootMutex where
  depth : ℕ := 0
  lockingPid : ℕ := 0
  deriving DecidableEq

/-- The index of an access. -/
inductive PrepareIndex
  | DEST | SRC | MASK | AUX_DEST | AUX_SRC | AUX_MASK
  deriving DecidableEq, Repr

/-- The pixmaps, those of the root window and the screen, the mutex, and the accesses that are to be
finished. -/
structure PixmapServer (H M : Type) where
  pixmaps : ℕ → Option (LoriePixmapPriv H M) := fun _ => none
  window : Option ℕ := none
  screen : Option ℕ := none
  mutex : RootMutex := {}
  pid : ℕ := 1
  accesses : List (ℕ × PrepareIndex) := []

/-- `lorie_mutex_lock`, when it returns. -/
def RootMutex.lock (pid : ℕ) (m : RootMutex) : RootMutex :=
  { depth := m.depth + 1, lockingPid := pid }

/-- `lorie_mutex_unlock`. -/
def RootMutex.unlock (m : RootMutex) : RootMutex :=
  { depth := m.depth - 1, lockingPid := 0 }

namespace LoriePixmapPriv

/-- `LorieBuffer_lock(priv->buffer, &priv->locked)`. -/
def lockBuffer (c : Calls H M) (x : LoriePixmapPriv H M) : ℤ × LoriePixmapPriv H M :=
  match x.buffer with
  | none => (ENODEV, x)
  | some b =>
    let r := b.lock c
    (r.1, { x with buffer := some r.2, locked := r.2.lockedData, held := r.1 = 0 })

/-- `LorieBuffer_unlock(priv->buffer)`. -/
def unlockBuffer (c : Calls H M) (x : LoriePixmapPriv H M) : LoriePixmapPriv H M :=
  match x.buffer with
  | none => x
  | some b => { x with buffer := some (b.unlock c).2, held := !b.locked && x.held }

/-- The end of an access that locked the buffer, and of the show of a pixmap that is locked. -/
def release (c : Calls H M) (x : LoriePixmapPriv H M) : LoriePixmapPriv H M :=
  { unlockBuffer c x with locked := none, wasLocked := false }

/-- `LorieBuffer_convert(priv->buffer, ..)`; a lock is undone where the pixels are replaced. -/
def convertBuffer (px : Pixman H M) (c : Calls H M) (p : Page) (type : BufferType)
    (format : Format) (x : LoriePixmapPriv H M) : LoriePixmapPriv H M :=
  match x.buffer with
  | none => x
  | some b =>
    let b' := b.convert px c p type format
    { x with buffer := some b', held := b'.desc.type = b.desc.type && x.held }

end LoriePixmapPriv

open LoriePixmapPriv

/-- What `lorieCreatePixmap` is called with, beside the calls of the system.  `backed` is the usage
hint, `alloc` whether the `calloc` of the private part succeeds. -/
structure CreateCall where
  page : Page
  id : ℕ
  width : ℤ
  height : ℤ
  backed : Bool
  legacyDrawing : Bool
  alloc : Bool

/-- The type of the buffer of a new pixmap. -/
def CreateCall.type (k : CreateCall) : BufferType :=
  if k.backed = false then .REGULAR else if k.legacyDrawing then .FD else .AHARDWAREBUFFER

/-- `lorieCreatePixmap`. -/
def lorieCreatePixmap (c : Calls H M) (k : CreateCall) : Option (LoriePixmapPriv H M) :=
  if k.alloc = false then none
  else if k.width = 0 ∨ k.height = 0 then some {}
  else
    let buffer :=
      LorieBuffer.allocate c k.page k.id k.width k.height .R8G8B8X8_UNORM k.type
    let x := (lockBuffer c { buffer := buffer }).2
    if x.buffer.isNone then none else some x

/-- What `loriePixmapFromFds` makes a buffer of. -/
inductive Import (H : Type)
  | file (width stride height : ℤ) (fd : Option ℕ) (offset : ℤ)
  | hardware (buffer : Option H)

/-- `loriePixmapFromFds`, when its checks are passed. -/
def loriePixmapFromFds (c : Calls H M) (id : ℕ) (i : Import H) : Option (LoriePixmapPriv H M) :=
  let buffer : Option (LorieBuffer H M) :=
    match i with
    | .file width stride height fd offset =>
      LorieBuffer.wrapFileDescriptor c id width stride height .B8G8R8A8_UNORM fd offset
    | .hardware buffer => LorieBuffer.wrapAHardwareBuffer c id buffer
  if buffer.isNone then none else some { buffer := buffer, imported := true }

/-- What `loriePresentFlip` looks at beside the pixmap; `force` says that `TERMUX_X11_FORCE_FLIP`
is `1`. -/
structure FlipCall where
  page : Page
  rootWidth : ℤ
  width : ℤ
  height : ℤ
  force : Bool
  legacyDrawing : Bool

/-- `loriePresentFlip`: what it returns, and the pixmap.  The calls of the conversion and of the
lock after it are `c` and `c'`. -/
def loriePresentFlip (px : Pixman H M) (c c' : Calls H M) (k : FlipCall)
    (x : LoriePixmapPriv H M) : Bool × LoriePixmapPriv H M :=
  match x.buffer with
  | none => (false, x)
  | some b =>
    if x.mem.isSome ∨ k.rootWidth ≠ k.width ∨ k.rootWidth ≠ k.height then (false, x)
    else if b.desc.type = .FD ∧ x.imported ∧ k.force = false then (false, x)
    else if b.desc.type = .REGULAR then
      let type := if k.legacyDrawing then .FD else .AHARDWAREBUFFER
      let x := convertBuffer px c k.page type .R8G8B8X8_UNORM x
      match x.buffer with
      | none => (false, x)
      | some b =>
        if b.desc.type ≠ .REGULAR then (true, (lockBuffer c' x).2)
        else (false, x)
    else (b.desc.type = .FD ∨ b.desc.type = .AHARDWAREBUFFER, x)

namespace PixmapServer

/-- The server after a pixmap was changed. -/
def set (id : ℕ) (x : LoriePixmapPriv H M) (s : PixmapServer H M) : PixmapServer H M :=
  { s with pixmaps := Function.update s.pixmaps id (some x) }

/-- The accesses under which the mutex is held. -/
def Shared (s : PixmapServer H M) (id : ℕ) (index : PrepareIndex) : Prop :=
  index = .DEST ∧ s.screen = some id

instance (s : PixmapServer H M) (id : ℕ) (index : PrepareIndex) : Decidable (s.Shared id index) :=
  inferInstanceAs (Decidable (_ ∧ _))

/-- The mutex is taken, where the pixmap of the screen is to be drawn on. -/
def lockShared (id : ℕ) (index : PrepareIndex) (s : PixmapServer H M) : PixmapServer H M :=
  if s.Shared id index then { s with mutex := s.mutex.lock s.pid } else s

/-- The mutex is given back. -/
def unlockShared (id : ℕ) (index : PrepareIndex) (s : PixmapServer H M) : PixmapServer H M :=
  if s.Shared id index then { s with mutex := s.mutex.unlock } else s

/-- `loriePrepareAccess` of the pixmap `id`, whose private part is `x`. -/
def loriePrepareAccess (c : Calls H M) (id : ℕ) (index : PrepareIndex) (x : LoriePixmapPriv H M)
    (s : PixmapServer H M) : Bool × PixmapServer H M :=
  let s := s.lockShared id index
  if x.locked.isNone ∧ x.mem.isNone then
    let r := x.lockBuffer c
    if r.1 ≠ 0 then (false, s.set id r.2)
    else (true, s.set id { r.2 with wasLocked := false })
  else (true, s.set id { x with wasLocked := true })

/-- `lorieFinishAccess`. -/
def lorieFinishAccess (c : Calls H M) (id : ℕ) (index : PrepareIndex) (x : LoriePixmapPriv H M)
    (s : PixmapServer H M) : PixmapServer H M :=
  let s := s.unlockShared id index
  if x.wasLocked = false then s.set id (x.release c) else s.set id x

/-- `lorieSetWindowPixmap` of the root window, the part about the pixmap that was there. -/
def leaveWindow (c : Calls H M) (s : PixmapServer H M) : PixmapServer H M :=
  match s.window with
  | none => s
  | some id =>
    match s.pixmaps id with
    | none => s
    | some old => if old.buffer.isSome ∧ old.locked.isSome then s.set id (old.release c) else s

/-- The part about the new pixmap. -/
def enterWindow (c : Calls H M) (newPixmap : Option ℕ) (s : PixmapServer H M) : PixmapServer H M :=
  match newPixmap with
  | none => s
  | some id =>
    match s.pixmaps id with
    | none => s
    | some new =>
      if new.buffer.isSome ∧ new.locked.isNone then
        s.set id { (new.lockBuffer c).2 with wasLocked := false }
      else s

/-- `lorieSetWindowPixmap` of the root window. -/
def lorieSetWindowPixmap (c c' : Calls H M) (newPixmap : Option ℕ) (s : PixmapServer H M) :
    PixmapServer H M :=
  { enterWindow c' newPixmap (leaveWindow c s) with window := newPixmap }

/-- `lorieRedraw`; `drawn` says that the activity is there and something was drawn.  `none` is the
`FatalError` that ends the server. -/
def lorieRedraw (c : Calls H M) (drawn : Bool) (s : PixmapServer H M) :
    Option (PixmapServer H M) :=
  match s.window with
  | none => some s
  | some id =>
    match s.pixmaps id with
    | none => some s
    | some x =>
      if drawn ∧ x.buffer.isSome ∧ x.locked.isSome then
        let r := (x.unlockBuffer c).lockBuffer c
        if r.1 ≠ 0 then none else some (s.set id r.2)
      else some s

/-- What happens to the pixmaps.  The calls are those of the two parts of a step, where it has two
in which the same call is made. -/
inductive Action (H M : Type)
  | create (c : Calls H M) (k : CreateCall) (id : ℕ)
  | fromFds (c : Calls H M) (buffer : ℕ) (i : Import H) (id : ℕ)
  | modifyPixmapHeader (id : ℕ) (data : Option M)
  | setScreenPixmap (newPixmap : Option ℕ)
  | prepareAccess (c : Calls H M) (id : ℕ) (index : PrepareIndex)
  | finishAccess (c : Calls H M) (id : ℕ) (index : PrepareIndex)
  | setWindowPixmap (c c' : Calls H M) (newPixmap : Option ℕ)
  | presentFlip (px : Pixman H M) (c c' : Calls H M) (k : FlipCall) (id : ℕ)
  | redraw (c : Calls H M) (drawn : Bool)

/-- The server after a new pixmap was made, or none was. -/
def add (id : ℕ) (made : Option (LoriePixmapPriv H M)) (s : PixmapServer H M) :
    Option (PixmapServer H M) :=
  if (s.pixmaps id).isSome then none
  else
    match made with
    | none => some s
    | some x => some (s.set id x)

/-- One step.  A pixmap that there is none of, or is to be made twice, and an access that was not
prepared, are no steps of the server. -/
def step (s : PixmapServer H M) : Action H M → Option (PixmapServer H M)
  | .create c k id => s.add id (lorieCreatePixmap c k)
  | .fromFds c buffer i id => s.add id (loriePixmapFromFds c buffer i)
  | .modifyPixmapHeader id data =>
    (s.pixmaps id).map fun x => s.set id { x with mem := data.or x.mem }
  | .setScreenPixmap newPixmap => some { s with screen := newPixmap }
  | .prepareAccess c id index =>
    (s.pixmaps id).map fun x =>
      let r := s.loriePrepareAccess c id index x
      if r.1 then { r.2 with accesses := (id, index) :: r.2.accesses } else r.2
  | .finishAccess c id index =>
    if (id, index) ∈ s.accesses then
      (s.pixmaps id).map fun x =>
        { s.lorieFinishAccess c id index x with accesses := s.accesses.erase (id, index) }
    else none
  | .setWindowPixmap c c' newPixmap => some (s.lorieSetWindowPixmap c c' newPixmap)
  | .presentFlip px c c' k id =>
    (s.pixmaps id).map fun x => s.set id (loriePresentFlip px c c' k x).2
  | .redraw c drawn => s.lorieRedraw c drawn

end PixmapServer

/-! ### Buffers that can be locked -/

/-- The buffer is a hardware buffer, or has its pixels in memory. -/
def HasPixels (b : LorieBuffer H M) : Prop :=
  b.desc.type = .AHARDWAREBUFFER ∨
    (b.desc.type = .REGULAR ∨ b.desc.type = .FD) ∧ b.desc.data ≠ none

theorem hasPixels_allocated {c : Calls H M} {b b' : LorieBuffer H M}
    (h : allocated c b = some b') : HasPixels b' ∧ b'.locked = b.locked := by
  rcases allocated_cases h with ⟨data, htype, rfl⟩ | ⟨file, data, htype, -, -, rfl⟩ |
    ⟨width, height, stride, format, htype, rfl⟩
  · exact ⟨Or.inr ⟨Or.inl htype, nofun⟩, rfl⟩
  · exact ⟨Or.inr ⟨Or.inr htype, nofun⟩, rfl⟩
  · exact ⟨Or.inl htype, rfl⟩

theorem HasPixels.of_desc {b b' : LorieBuffer H M} (h : HasPixels b) (hdesc : b'.desc = b.desc) :
    HasPixels b' := by
  unfold HasPixels
  rw [hdesc]
  exact h

theorem hasPixels_convert {b : LorieBuffer H M} (h : HasPixels b) (px : Pixman H M)
    (c : Calls H M) (p : Page) (type : BufferType) (format : Format) :
    HasPixels (b.convert px c p type format) := by
  rcases LorieBuffer.convert_cases px c p b type format with heq | ⟨-, htype, hdata, -⟩
  · rw [heq]
    exact h
  · rcases hdata with ⟨hfd, hdata⟩ | hahb
    · exact Or.inr ⟨Or.inr (htype.trans hfd), hdata⟩
    · exact Or.inl (htype.trans hahb)

/-- The call that locks a hardware buffer fails. -/
def LockError (c : Calls H M) (b : LorieBuffer H M) : Prop :=
  b.desc.type = .AHARDWAREBUFFER ∧ (c.lock b.desc.buffer).status ≠ 0

/-- A buffer that is not locked is marked as locked by `LorieBuffer_lock`, whether or not it is. -/
theorem lock_of_unlocked {b : LorieBuffer H M} (hb : HasPixels b) (hlocked : b.locked = false)
    (c : Calls H M) :
    (b.lock c).2.locked = true ∧ ((b.lock c).1 = 0 ↔ ¬ LockError c b) ∧
      ((b.lock c).1 = 0 → (b.lock c).2.lockedData ≠ none) := by
  unfold LorieBuffer.lock LockError
  rcases hb with htype | ⟨htype, hdata⟩
  · rw [if_neg (by simp [hlocked]), if_neg (by simp [htype]), if_pos htype]
    exact ⟨rfl, by simp [htype], Locking.data_ne_none⟩
  · rw [if_neg (by simp [hlocked]), if_pos htype]
    refine ⟨rfl, iff_of_true rfl ?_, fun _ => hdata⟩
    rintro ⟨hahb, -⟩
    rcases htype with h | h
    · cases h.symm.trans hahb
    · cases h.symm.trans hahb

/-! ### What a pixmap says of its lock -/

namespace LoriePixmapPriv

/-- The flag of the buffer. -/
def flag (x : LoriePixmapPriv H M) : Bool := x.buffer.any LorieBuffer.locked

/-- The flag is set exactly while the last lock holds, and the pointer exactly while the flag is. -/
structure Truthful (x : LoriePixmapPriv H M) : Prop where
  flag : x.flag = x.held
  pointer : x.locked.isSome = x.flag

/-- The buffer, if there is one, has pixels. -/
def Sound (x : LoriePixmapPriv H M) : Prop := ∀ b, x.buffer = some b → HasPixels b

/-- The buffer is one whose lock fails. -/
def LockFails (c : Calls H M) (x : LoriePixmapPriv H M) : Prop :=
  ∃ b, x.buffer = some b ∧ LockError c b

variable {x : LoriePixmapPriv H M}

theorem truthful_empty : Truthful ({} : LoriePixmapPriv H M) := ⟨rfl, rfl⟩

theorem sound_empty : Sound ({} : LoriePixmapPriv H M) := by
  intro b hb
  cases hb

theorem Truthful.unlocked (h : x.Truthful) (hlocked : x.locked.isNone) {b : LorieBuffer H M}
    (hb : x.buffer = some b) : b.locked = false := by
  have hpointer := h.pointer
  rw [Option.isNone_iff_eq_none.1 hlocked, LoriePixmapPriv.flag, hb] at hpointer
  exact hpointer.symm

/-- A lock of a buffer that is not locked leaves the truth exactly if it does not fail, and the flag
in any case. -/
theorem lockBuffer_spec (hx : x.Sound) {b : LorieBuffer H M} (hb : x.buffer = some b)
    (hlocked : b.locked = false) (c : Calls H M) :
    ((x.lockBuffer c).1 = 0 ↔ ¬ LockFails c x) ∧
      ((x.lockBuffer c).2.Truthful ↔ ¬ LockFails c x) ∧ (x.lockBuffer c).2.flag = true := by
  obtain ⟨hflag, hstatus, hdata⟩ := lock_of_unlocked (hx b hb) hlocked c
  have hfails : LockFails c x ↔ LockError c b := by simp [LockFails, hb]
  unfold lockBuffer
  rw [hb, hfails]
  refine ⟨hstatus, ?_, hflag⟩
  rw [← hstatus]
  constructor
  · intro h
    have hheld := h.flag
    rw [flag, Option.any_some, hflag] at hheld
    exact of_decide_eq_true hheld.symm
  · intro h
    refine ⟨?_, ?_⟩
    · rw [flag, Option.any_some, hflag]
      exact (decide_eq_true h).symm
    · rw [flag, Option.any_some, hflag]
      exact Option.isSome_iff_ne_none.2 (hdata h)

theorem sound_lockBuffer (hx : x.Sound) (c : Calls H M) : (x.lockBuffer c).2.Sound := by
  unfold lockBuffer
  cases hb : x.buffer with
  | none => exact hx
  | some b =>
    intro b' hb'
    obtain rfl := Option.some.inj hb'
    exact (hx b hb).of_desc (b.lock_desc c)

theorem sound_unlockBuffer (hx : x.Sound) (c : Calls H M) : (x.unlockBuffer c).Sound := by
  unfold unlockBuffer
  cases hb : x.buffer with
  | none => exact hx
  | some b =>
    intro b' hb'
    obtain rfl := Option.some.inj hb'
    exact (hx b hb).of_desc (b.unlock_desc c)

theorem flag_unlockBuffer (x : LoriePixmapPriv H M) (c : Calls H M) :
    (x.unlockBuffer c).flag = false := by
  unfold unlockBuffer flag
  cases hb : x.buffer with
  | none => rw [hb]; rfl
  | some b => exact b.unlock_locked c

theorem truthful_release (hx : x.Truthful) (c : Calls H M) : (x.release c).Truthful := by
  refine ⟨?_, (flag_unlockBuffer x c).symm⟩
  have hflag := hx.flag
  refine (flag_unlockBuffer x c).trans ?_
  show false = (x.unlockBuffer c).held
  unfold unlockBuffer
  cases hb : x.buffer with
  | none =>
    rw [flag, hb] at hflag
    exact hflag
  | some b =>
    rw [flag, hb, Option.any_some] at hflag
    show false = (!b.locked && x.held)
    rw [← hflag, Bool.not_and_self]

theorem sound_release (hx : x.Sound) (c : Calls H M) : (x.release c).Sound :=
  sound_unlockBuffer hx c

theorem sound_convertBuffer (hx : x.Sound) (px : Pixman H M) (c : Calls H M) (p : Page)
    (type : BufferType) (format : Format) : (x.convertBuffer px c p type format).Sound := by
  unfold convertBuffer
  cases hb : x.buffer with
  | none => exact hx
  | some b =>
    intro b' hb'
    obtain rfl := Option.some.inj hb'
    exact hasPixels_convert (hx b hb) px c p type format

end LoriePixmapPriv

/-! ### The entry points -/

/-- The buffer that a new pixmap gets cannot be locked. -/
def CreateFails (c : Calls H M) (k : CreateCall) : Prop :=
  k.alloc = true ∧ k.width ≠ 0 ∧ k.height ≠ 0 ∧
    ∃ b, LorieBuffer.allocate c k.page k.id k.width k.height .R8G8B8X8_UNORM k.type = some b ∧
      LockError c b

theorem lorieCreatePixmap_spec {c : Calls H M} {k : CreateCall} {x : LoriePixmapPriv H M}
    (h : lorieCreatePixmap c k = some x) : x.Sound ∧ (x.Truthful ↔ ¬ CreateFails c k) := by
  unfold lorieCreatePixmap at h
  by_cases halloc : k.alloc = false
  · rw [if_pos halloc] at h
    cases h
  rw [if_neg halloc] at h
  by_cases hempty : k.width = 0 ∨ k.height = 0
  · rw [if_pos hempty] at h
    obtain rfl := Option.some.inj h
    refine ⟨sound_empty, iff_of_true truthful_empty ?_⟩
    rintro ⟨-, hwidth, hheight, -⟩
    rcases hempty with h | h
    · exact hwidth h
    · exact hheight h
  rw [if_neg hempty] at h
  rw [not_or] at hempty
  dsimp only at h
  cases hb : LorieBuffer.allocate c k.page k.id k.width k.height .R8G8B8X8_UNORM k.type with
  | none =>
    rw [hb] at h
    cases h
  | some b =>
    obtain ⟨buf, fd, size, -, hallocate⟩ := LorieBuffer.allocate_eq hb
    obtain ⟨b₀, hallocated, hunlocked, -⟩ := allocate_eq hallocate
    obtain ⟨hpixels, hlocked⟩ := hasPixels_allocated hallocated
    have hsound : Sound ({ buffer := some b } : LoriePixmapPriv H M) := by
      intro b' hb'
      obtain rfl := Option.some.inj hb'
      exact hpixels
    obtain ⟨-, htruthful, -⟩ := lockBuffer_spec hsound rfl (hlocked.trans hunlocked) c
    rw [hb] at h
    split_ifs at h
    obtain rfl := Option.some.inj h
    refine ⟨sound_lockBuffer hsound c, htruthful.trans (not_congr ?_)⟩
    simp [LockFails, CreateFails, hb, halloc, hempty]

theorem CreateFails.ne_none {c : Calls H M} {k : CreateCall} (h : CreateFails c k) :
    lorieCreatePixmap c k ≠ none := by
  obtain ⟨halloc, hwidth, hheight, b, hb, -⟩ := h
  simp [lorieCreatePixmap, halloc, hwidth, hheight, hb, lockBuffer]

theorem loriePixmapFromFds_spec {c : Calls H M} {id : ℕ} {i : Import H} {x : LoriePixmapPriv H M}
    (h : loriePixmapFromFds c id i = some x) : x.Sound ∧ x.Truthful := by
  have hspec : ∀ b : LorieBuffer H M, HasPixels b → b.locked = false →
      Sound ({ buffer := some b, imported := true } : LoriePixmapPriv H M) ∧
        Truthful ({ buffer := some b, imported := true } : LoriePixmapPriv H M) := by
    intro b hpixels hlocked
    refine ⟨fun b' hb' => ?_, hlocked, hlocked.symm⟩
    obtain rfl := Option.some.inj hb'
    exact hpixels
  have hbuffer : ∃ b b₀ : LorieBuffer H M, x = { buffer := some b, imported := true } ∧
      allocated c b₀ = some b ∧ b₀.locked = false := by
    unfold loriePixmapFromFds at h
    cases i with
    | file width stride height fd offset =>
      dsimp only at h
      cases hb : LorieBuffer.wrapFileDescriptor c id width stride height .B8G8R8A8_UNORM fd
          offset with
      | none =>
        rw [hb] at h
        cases h
      | some b =>
        rw [hb] at h
        obtain ⟨b₀, hallocated, hunlocked, -⟩ := allocate_eq hb
        exact ⟨b, b₀, (Option.some.inj h).symm, hallocated, hunlocked⟩
    | hardware buffer =>
      dsimp only at h
      cases hb : LorieBuffer.wrapAHardwareBuffer c id buffer with
      | none =>
        rw [hb] at h
        cases h
      | some b =>
        rw [hb] at h
        obtain ⟨b₀, hallocated, hunlocked, -⟩ := allocate_eq hb
        exact ⟨b, b₀, (Option.some.inj h).symm, hallocated, hunlocked⟩
  obtain ⟨b, b₀, rfl, hallocated, hunlocked⟩ := hbuffer
  obtain ⟨hpixels, hlocked⟩ := hasPixels_allocated hallocated
  exact hspec b hpixels (hlocked.trans hunlocked)

/-- A conversion that does nothing leaves the pixmap. -/
theorem convertBuffer_eq_self {x : LoriePixmapPriv H M} {b : LorieBuffer H M}
    (hx : x.buffer = some b) {px : Pixman H M} {c : Calls H M} {p : Page} {type : BufferType}
    {format : Format} (hsame : b.convert px c p type format = b) :
    convertBuffer px c p type format x = x := by
  unfold convertBuffer
  rw [hx]
  dsimp only
  rw [hsame, decide_eq_true rfl, Bool.true_and, ← hx]

/-- A buffer in the memory of the server is converted for a flip of a pixmap that has the size of
the root window. -/
def Converts (k : FlipCall) (x : LoriePixmapPriv H M) (b : LorieBuffer H M) : Prop :=
  x.buffer = some b ∧ b.desc.type = .REGULAR ∧
    x.mem = none ∧ k.rootWidth = k.width ∧ k.rootWidth = k.height

theorem loriePresentFlip_idle {k : FlipCall} {x : LoriePixmapPriv H M} (h : ∀ b, ¬ Converts k x b)
    (px : Pixman H M) (c c' : Calls H M) : (loriePresentFlip px c c' k x).2 = x := by
  unfold loriePresentFlip
  cases hb : x.buffer with
  | none => rfl
  | some b =>
    dsimp only
    by_cases hrefused : x.mem.isSome ∨ k.rootWidth ≠ k.width ∨ k.rootWidth ≠ k.height
    · rw [if_pos hrefused]
    have htype : b.desc.type ≠ .REGULAR := by
      rw [not_or, not_or, not_not, not_not, Bool.not_eq_true, Option.isSome_eq_false_iff,
        Option.isNone_iff_eq_none] at hrefused
      exact fun htype => h b ⟨hb, htype, hrefused⟩
    rw [if_neg hrefused, if_neg htype]
    split_ifs
    · rfl
    · rfl

theorem loriePresentFlip_converts {k : FlipCall} {x : LoriePixmapPriv H M} {b : LorieBuffer H M}
    (h : Converts k x b) (px : Pixman H M) (c c' : Calls H M) :
    ∃ type, type = (if k.legacyDrawing then BufferType.FD else .AHARDWAREBUFFER) ∧
      (loriePresentFlip px c c' k x).2 =
        if (b.convert px c k.page type .R8G8B8X8_UNORM).desc.type ≠ .REGULAR then
          (lockBuffer c' (convertBuffer px c k.page type .R8G8B8X8_UNORM x)).2
        else convertBuffer px c k.page type .R8G8B8X8_UNORM x := by
  obtain ⟨hb, htype, hmem, hwidth, hheight⟩ := h
  have hrefused : ¬ (x.mem.isSome ∨ k.rootWidth ≠ k.width ∨ k.rootWidth ≠ k.height) := by
    simp [hmem, hwidth, ← hheight]
  have hfd : ¬ (b.desc.type = .FD ∧ x.imported ∧ k.force = false) := by
    rw [htype]
    exact fun h => nomatch h.1
  refine ⟨_, rfl, ?_⟩
  unfold loriePresentFlip convertBuffer
  rw [hb]
  dsimp only
  rw [if_neg hrefused, if_neg hfd, if_pos htype, apply_ite Prod.snd]

/-- The buffer that a pixmap is converted to for a flip cannot be locked. -/
def FlipFails (px : Pixman H M) (c c' : Calls H M) (k : FlipCall) (x : LoriePixmapPriv H M) :
    Prop :=
  x.mem = none ∧ k.rootWidth = k.width ∧ k.rootWidth = k.height ∧
    ∃ b, x.buffer = some b ∧ b.desc.type = .REGULAR ∧
      LockError c' (b.convert px c k.page (if k.legacyDrawing then .FD else .AHARDWAREBUFFER)
        .R8G8B8X8_UNORM)

theorem sound_loriePresentFlip {x : LoriePixmapPriv H M} (hx : x.Sound) (px : Pixman H M)
    (c c' : Calls H M) (k : FlipCall) : (loriePresentFlip px c c' k x).2.Sound := by
  by_cases h : ∃ b, Converts k x b
  · obtain ⟨b, hb⟩ := h
    obtain ⟨type, -, heq⟩ := loriePresentFlip_converts hb px c c'
    have hconvert := sound_convertBuffer hx px c k.page type .R8G8B8X8_UNORM
    rw [heq]
    split_ifs
    · exact sound_lockBuffer hconvert c'
    · exact hconvert
  · rw [loriePresentFlip_idle (not_exists.1 h)]
    exact hx

theorem truthful_loriePresentFlip {x : LoriePixmapPriv H M} (hx : x.Sound) (ht : x.Truthful)
    (px : Pixman H M) (c c' : Calls H M) (k : FlipCall) :
    (loriePresentFlip px c c' k x).2.Truthful ↔ ¬ FlipFails px c c' k x := by
  by_cases h : ∃ b, Converts k x b
  swap
  · rw [loriePresentFlip_idle (not_exists.1 h)]
    refine iff_of_true ht ?_
    rintro ⟨hmem, hwidth, hheight, b, hb, htype, -⟩
    exact h ⟨b, hb, htype, hmem, hwidth, hheight⟩
  obtain ⟨b, hconverts⟩ := h
  obtain ⟨type, rfl, heq⟩ := loriePresentFlip_converts hconverts px c c'
  obtain ⟨hb, htype, hsize⟩ := hconverts
  rw [heq]
  set type : BufferType := if k.legacyDrawing then .FD else .AHARDWAREBUFFER
  have hbuffer : (convertBuffer px c k.page type .R8G8B8X8_UNORM x).buffer =
      some (b.convert px c k.page type .R8G8B8X8_UNORM) := by
    rw [convertBuffer, hb]
  have hfails : FlipFails px c c' k x ↔
      LockFails c' (convertBuffer px c k.page type .R8G8B8X8_UNORM x) := by
    constructor
    · rintro ⟨-, -, -, b', hb', -, herror⟩
      obtain rfl := Option.some.inj (hb.symm.trans hb')
      exact ⟨_, hbuffer, herror⟩
    · rintro ⟨b', hb', herror⟩
      obtain rfl := Option.some.inj (hbuffer.symm.trans hb')
      exact ⟨hsize.1, hsize.2.1, hsize.2.2, b, hb, htype, herror⟩
  rcases b.convert_cases px c k.page type .R8G8B8X8_UNORM with hsame | ⟨-, htype', hdata, hlocked⟩
  · -- the conversion has done nothing
    rw [if_neg (by rw [hsame]; exact not_not.2 htype), hfails, convertBuffer_eq_self hb hsame]
    refine iff_of_true ht ?_
    rintro ⟨b', hb', hahb, -⟩
    obtain rfl := Option.some.inj (hb.symm.trans hb')
    cases htype.symm.trans hahb
  · have hne : (b.convert px c k.page type .R8G8B8X8_UNORM).desc.type ≠ .REGULAR := by
      rw [htype']
      rcases hdata with ⟨h, -⟩ | h
      · rw [h]
        decide
      · rw [h]
        decide
    have hsound := sound_convertBuffer hx px c k.page type .R8G8B8X8_UNORM
    rw [if_pos hne, hfails]
    exact (lockBuffer_spec hsound hbuffer hlocked c').2.1

namespace PixmapServer

/-- Every pixmap has the property. -/
def Each (P : LoriePixmapPriv H M → Prop) (s : PixmapServer H M) : Prop :=
  ∀ id x, s.pixmaps id = some x → P x

variable {P : LoriePixmapPriv H M → Prop} {s : PixmapServer H M}

theorem Each.congr {s' : PixmapServer H M} (h : s'.pixmaps = s.pixmaps) :
    Each P s' ↔ Each P s := by
  unfold Each
  rw [h]

theorem set_pixmaps_self (id : ℕ) (x : LoriePixmapPriv H M) (s : PixmapServer H M) :
    (s.set id x).pixmaps id = some x := by
  unfold PixmapServer.set
  exact Function.update_self id (some x) s.pixmaps

theorem each_set_iff (hs : Each P s) (id : ℕ) (x : LoriePixmapPriv H M) :
    Each P (s.set id x) ↔ P x := by
  unfold Each
  constructor
  · exact fun h => h id x (set_pixmaps_self id x s)
  · intro hx id' x' hx'
    unfold PixmapServer.set at hx'
    dsimp only at hx'
    by_cases hid : id' = id
    · rw [hid, Function.update_self] at hx'
      exact Option.some.inj hx' ▸ hx
    · rw [Function.update_of_ne hid] at hx'
      exact hs id' x' hx'

@[simp] theorem lockShared_pixmaps (id : ℕ) (index : PrepareIndex) (s : PixmapServer H M) :
    (s.lockShared id index).pixmaps = s.pixmaps := by
  unfold lockShared
  split_ifs
  · rfl
  · rfl

@[simp] theorem unlockShared_pixmaps (id : ℕ) (index : PrepareIndex) (s : PixmapServer H M) :
    (s.unlockShared id index).pixmaps = s.pixmaps := by
  unfold unlockShared
  split_ifs
  · rfl
  · rfl

/-- The mutex is as it was found exactly where it was not taken. -/
theorem lockShared_mutex_iff (id : ℕ) (index : PrepareIndex) (s : PixmapServer H M) :
    (s.lockShared id index).mutex = s.mutex ↔ ¬ s.Shared id index := by
  unfold lockShared
  split_ifs with hshared
  · refine iff_of_false (fun h => ?_) (not_not.2 hshared)
    have hdepth : s.mutex.depth + 1 = s.mutex.depth := congrArg RootMutex.depth h
    omega
  · exact iff_of_true rfl hshared

theorem add_cases {id : ℕ} {made : Option (LoriePixmapPriv H M)} {s' : PixmapServer H M}
    (h : s.add id made = some s') :
    (made = none ∧ s' = s) ∨ ∃ x, made = some x ∧ s' = s.set id x := by
  unfold add at h
  split_ifs at h
  cases made with
  | none => exact Or.inl ⟨rfl, (Option.some.inj h).symm⟩
  | some x => exact Or.inr ⟨x, rfl, (Option.some.inj h).symm⟩

/-! #### The pixmap of the root window -/

theorem sound_leaveWindow (hs : Each Sound s) (c : Calls H M) : Each Sound (s.leaveWindow c) := by
  unfold leaveWindow
  cases s.window with
  | none => exact hs
  | some id =>
    dsimp only
    cases hold : s.pixmaps id with
    | none => exact hs
    | some old =>
      dsimp only
      split_ifs
      · exact (each_set_iff hs id _).2 (sound_release (hs id old hold) c)
      · exact hs

theorem truthful_leaveWindow (hs : Each Truthful s) (c : Calls H M) :
    Each Truthful (s.leaveWindow c) := by
  unfold leaveWindow
  cases s.window with
  | none => exact hs
  | some id =>
    dsimp only
    cases hold : s.pixmaps id with
    | none => exact hs
    | some old =>
      dsimp only
      split_ifs
      · exact (each_set_iff hs id _).2 (truthful_release (hs id old hold) c)
      · exact hs

theorem sound_enterWindow (hs : Each Sound s) (c : Calls H M) (newPixmap : Option ℕ) :
    Each Sound (s.enterWindow c newPixmap) := by
  unfold enterWindow
  cases newPixmap with
  | none => exact hs
  | some id =>
    dsimp only
    cases hnew : s.pixmaps id with
    | none => exact hs
    | some new =>
      dsimp only
      split_ifs
      · exact (each_set_iff hs id _).2 (sound_lockBuffer (hs id new hnew) c)
      · exact hs

/-- The new pixmap of the root window is not locked, and cannot be. -/
def EnterFails (c : Calls H M) (newPixmap : Option ℕ) (s : PixmapServer H M) : Prop :=
  ∃ id x, newPixmap = some id ∧ s.pixmaps id = some x ∧ x.locked.isNone ∧ LockFails c x

theorem truthful_enterWindow (hs : Each Sound s) (ht : Each Truthful s) (c : Calls H M)
    (newPixmap : Option ℕ) :
    Each Truthful (s.enterWindow c newPixmap) ↔ ¬ EnterFails c newPixmap s := by
  unfold enterWindow
  cases newPixmap with
  | none =>
    refine iff_of_true ht ?_
    rintro ⟨id, x, h, -⟩
    cases h
  | some id =>
    dsimp only
    cases hnew : s.pixmaps id with
    | none =>
      refine iff_of_true ht ?_
      rintro ⟨id', x, h, hx, -⟩
      obtain rfl := Option.some.inj h
      cases hnew.symm.trans hx
    | some new =>
      have hfails : EnterFails c (some id) s ↔ new.locked.isNone ∧ LockFails c new := by
        constructor
        · rintro ⟨id', x, h, hx, hfails⟩
          obtain rfl := Option.some.inj h
          obtain rfl := Option.some.inj (hnew.symm.trans hx)
          exact hfails
        · exact fun h => ⟨id, new, rfl, hnew, h⟩
      dsimp only
      rw [hfails]
      cases hb : new.buffer with
      | none =>
        rw [if_neg (by simp)]
        refine iff_of_true ht ?_
        rintro ⟨-, b, hb', -⟩
        cases hb.symm.trans hb'
      | some b =>
        by_cases hlocked : new.locked.isNone = true
        · rw [if_pos ⟨rfl, hlocked⟩, each_set_iff ht, and_iff_right hlocked]
          have hspec := lockBuffer_spec (hs id new hnew) hb ((ht id new hnew).unlocked hlocked hb) c
          rw [← hspec.2.1]
          exact ⟨fun h => ⟨h.flag, h.pointer⟩, fun h => ⟨h.flag, h.pointer⟩⟩
        · rw [if_neg fun h => hlocked h.2]
          exact iff_of_true ht fun h => hlocked h.1

/-! #### Access -/

theorem sound_loriePrepareAccess (hs : Each Sound s) {id : ℕ} {x : LoriePixmapPriv H M}
    (hid : s.pixmaps id = some x) (c : Calls H M) (index : PrepareIndex) :
    Each Sound (s.loriePrepareAccess c id index x).2 := by
  have hs' : Each Sound (s.lockShared id index) :=
    (Each.congr (lockShared_pixmaps id index s)).2 hs
  have hlock := sound_lockBuffer (hs id x hid) c
  unfold loriePrepareAccess
  dsimp only
  split_ifs
  · exact (each_set_iff hs' id _).2 hlock
  · exact (each_set_iff hs' id _).2 hlock
  · exact (each_set_iff hs' id _).2 (hs id x hid)

theorem sound_lorieFinishAccess (hs : Each Sound s) {id : ℕ} {x : LoriePixmapPriv H M}
    (hid : s.pixmaps id = some x) (c : Calls H M) (index : PrepareIndex) :
    Each Sound (s.lorieFinishAccess c id index x) := by
  have hs' : Each Sound (s.unlockShared id index) :=
    (Each.congr (unlockShared_pixmaps id index s)).2 hs
  unfold lorieFinishAccess
  dsimp only
  split_ifs
  · exact (each_set_iff hs' id _).2 (sound_release (hs id x hid) c)
  · exact (each_set_iff hs' id _).2 (hs id x hid)

theorem truthful_lorieFinishAccess (ht : Each Truthful s) {id : ℕ} {x : LoriePixmapPriv H M}
    (hid : s.pixmaps id = some x) (c : Calls H M) (index : PrepareIndex) :
    Each Truthful (s.lorieFinishAccess c id index x) := by
  have ht' : Each Truthful (s.unlockShared id index) :=
    (Each.congr (unlockShared_pixmaps id index s)).2 ht
  unfold lorieFinishAccess
  dsimp only
  split_ifs
  · exact (each_set_iff ht' id _).2 (truthful_release (ht id x hid) c)
  · exact (each_set_iff ht' id _).2 (ht id x hid)

/-- If the access is refused, the buffer is not locked after it and the mutex is as it was found. -/
def Clean (c : Calls H M) (id : ℕ) (index : PrepareIndex) (x : LoriePixmapPriv H M)
    (s : PixmapServer H M) : Prop :=
  (s.loriePrepareAccess c id index x).1 = false →
    (∀ x', (s.loriePrepareAccess c id index x).2.pixmaps id = some x' → x'.flag = false) ∧
      (s.loriePrepareAccess c id index x).2.mutex = s.mutex

/-- There are no pixels to draw on, and the buffer cannot be locked, or there is none and the mutex
is taken. -/
def PrepareFails (c : Calls H M) (id : ℕ) (index : PrepareIndex) (x : LoriePixmapPriv H M)
    (s : PixmapServer H M) : Prop :=
  x.locked.isNone ∧ x.mem.isNone ∧ (LockFails c x ∨ x.buffer = none ∧ s.Shared id index)

theorem loriePrepareAccess_spec (hs : Each Sound s) (ht : Each Truthful s) {id : ℕ}
    {x : LoriePixmapPriv H M} (hid : s.pixmaps id = some x) (c : Calls H M)
    (index : PrepareIndex) :
    Each Truthful (s.loriePrepareAccess c id index x).2 ∧ Clean c id index x s ↔
      ¬ PrepareFails c id index x s := by
  have ht' : Each Truthful (s.lockShared id index) :=
    (Each.congr (lockShared_pixmaps id index s)).2 ht
  have hself : ∀ y, ((s.lockShared id index).set id y).pixmaps id = some y :=
    fun y => set_pixmaps_self id y _
  have hmutex : ∀ y, ((s.lockShared id index).set id y).mutex = s.mutex ↔ ¬ s.Shared id index :=
    fun y => lockShared_mutex_iff id index s
  unfold Clean PrepareFails loriePrepareAccess
  dsimp only
  by_cases hpixels : x.locked.isNone = true ∧ x.mem.isNone = true
  swap
  · rw [if_neg hpixels]
    refine iff_of_true ⟨(each_set_iff ht' id _).2 ?_, nofun⟩ fun h => hpixels ⟨h.1, h.2.1⟩
    exact ⟨(ht id x hid).flag, (ht id x hid).pointer⟩
  rw [if_pos hpixels, and_iff_right hpixels.1, and_iff_right hpixels.2]
  cases hb : x.buffer with
  | none =>
    have hlock : x.lockBuffer c = (ENODEV, x) := by rw [lockBuffer, hb]
    have hnone : ¬ LockFails c x := by
      rintro ⟨b, hb', -⟩
      cases hb.symm.trans hb'
    have hflag : x.flag = false := by rw [flag, hb]; rfl
    rw [hlock, if_pos (show ENODEV ≠ 0 by decide), each_set_iff ht', and_iff_right (ht id x hid),
      or_iff_right hnone, and_iff_right rfl, ← hmutex x]
    constructor
    · exact fun h => (h rfl).2
    · refine fun h _ => ⟨fun x' hx' => ?_, h⟩
      rw [hself x] at hx'
      exact Option.some.inj hx' ▸ hflag
  | some b =>
    obtain ⟨hstatus, htruthful, hflag⟩ :=
      lockBuffer_spec (hs id x hid) hb ((ht id x hid).unlocked hpixels.1 hb) c
    have hfails : LockFails c x ∨ some b = none ∧ s.Shared id index ↔ LockFails c x := by simp
    rw [hfails]
    by_cases hok : (x.lockBuffer c).1 = 0
    · rw [if_neg (not_not.2 hok)]
      refine iff_of_true ⟨(each_set_iff ht' id _).2 ?_, nofun⟩ (hstatus.1 hok)
      have h := htruthful.2 (hstatus.1 hok)
      exact ⟨h.flag, h.pointer⟩
    · rw [if_pos hok]
      refine iff_of_false ?_ fun h => hok (hstatus.2 h)
      rintro ⟨-, h⟩
      have hunlocked := (h rfl).1 _ (hself _)
      rw [hflag] at hunlocked
      cases hunlocked

/-! #### Steps -/

/-- What goes wrong in a step: a call that locks a hardware buffer fails, outside of `lorieRedraw`,
or access is refused to a pixmap of the screen that has no buffer. -/
def Faulty (s : PixmapServer H M) : Action H M → Prop
  | .create c k _ => CreateFails c k
  | .prepareAccess c id index => ∃ x, s.pixmaps id = some x ∧ PrepareFails c id index x s
  | .setWindowPixmap c c' newPixmap => EnterFails c' newPixmap (s.leaveWindow c)
  | .presentFlip px c c' k id => ∃ x, s.pixmaps id = some x ∧ FlipFails px c c' k x
  | _ => False

/-- A `loriePrepareAccess` that fails leaves the buffer unlocked and the mutex as it found it. -/
def CleanFailure (s : PixmapServer H M) : Action H M → Prop
  | .prepareAccess c id index => ∀ x, s.pixmaps id = some x → Clean c id index x s
  | _ => True

theorem sound_step {s' : PixmapServer H M} {a : Action H M} (hs : Each Sound s)
    (h : s.step a = some s') : Each Sound s' := by
  cases a with
  | create c k id =>
    rcases add_cases h with ⟨-, rfl⟩ | ⟨x, hx, rfl⟩
    · exact hs
    · exact (each_set_iff hs id x).2 (lorieCreatePixmap_spec hx).1
  | fromFds c buffer i id =>
    rcases add_cases h with ⟨-, rfl⟩ | ⟨x, hx, rfl⟩
    · exact hs
    · exact (each_set_iff hs id x).2 (loriePixmapFromFds_spec hx).1
  | modifyPixmapHeader id data =>
    obtain ⟨x, hx, rfl⟩ := Option.map_eq_some_iff.1 h
    exact (each_set_iff hs id _).2 (hs id x hx)
  | setScreenPixmap newPixmap =>
    obtain rfl := Option.some.inj h
    exact hs
  | prepareAccess c id index =>
    obtain ⟨x, hx, rfl⟩ := Option.map_eq_some_iff.1 h
    have hprepare := sound_loriePrepareAccess hs hx c index
    dsimp only
    split_ifs
    · exact hprepare
    · exact hprepare
  | finishAccess c id index =>
    simp only [step] at h
    split_ifs at h
    obtain ⟨x, hx, rfl⟩ := Option.map_eq_some_iff.1 h
    exact sound_lorieFinishAccess hs hx c index
  | setWindowPixmap c c' newPixmap =>
    obtain rfl := Option.some.inj h
    exact sound_enterWindow (sound_leaveWindow hs c) c' newPixmap
  | presentFlip px c c' k id =>
    obtain ⟨x, hx, rfl⟩ := Option.map_eq_some_iff.1 h
    exact (each_set_iff hs id _).2 (sound_loriePresentFlip (hs id x hx) px c c' k)
  | redraw c drawn =>
    simp only [step, lorieRedraw] at h
    split at h
    · obtain rfl := Option.some.inj h
      exact hs
    next id hwindow =>
      split at h
      · obtain rfl := Option.some.inj h
        exact hs
      next x hx =>
        split_ifs at h
        · obtain rfl := Option.some.inj h
          exact (each_set_iff hs id _).2 (sound_lockBuffer (sound_unlockBuffer (hs id x hx) c) c)
        · obtain rfl := Option.some.inj h
          exact hs

/-- A relock in `lorieRedraw` that does not end the server holds. -/
theorem truthful_lorieRedraw {s' : PixmapServer H M} (hs : Each Sound s) (ht : Each Truthful s)
    {c : Calls H M} {drawn : Bool} (h : s.lorieRedraw c drawn = some s') : Each Truthful s' := by
  unfold lorieRedraw at h
  split at h
  · obtain rfl := Option.some.inj h
    exact ht
  next id hwindow =>
    split at h
    · obtain rfl := Option.some.inj h
      exact ht
    next x hx =>
      dsimp only at h
      split_ifs at h with hdrawn hstatus
      · obtain rfl := Option.some.inj h
        refine (each_set_iff ht id _).2 ?_
        obtain ⟨b, hb⟩ := Option.isSome_iff_exists.1 hdrawn.2.1
        have hunlock : (x.unlockBuffer c).buffer = some (b.unlock c).2 := by rw [unlockBuffer, hb]
        obtain ⟨hlock, htruthful, -⟩ :=
          lockBuffer_spec (sound_unlockBuffer (hs id x hx) c) hunlock (b.unlock_locked c) c
        exact htruthful.2 (hlock.1 (not_not.1 hstatus))
      · obtain rfl := Option.some.inj h
        exact ht

theorem truthful_step {s' : PixmapServer H M} {a : Action H M} (hs : Each Sound s)
    (ht : Each Truthful s) (h : s.step a = some s') :
    Each Truthful s' ∧ CleanFailure s a ↔ ¬ Faulty s a := by
  cases a with
  | create c k id =>
    refine (and_iff_left trivial).trans ?_
    rcases add_cases h with ⟨hnone, rfl⟩ | ⟨x, hx, rfl⟩
    · exact iff_of_true ht fun hfails => hfails.ne_none hnone
    · exact (each_set_iff ht id x).trans (lorieCreatePixmap_spec hx).2
  | fromFds c buffer i id =>
    refine iff_of_true ⟨?_, trivial⟩ not_false
    rcases add_cases h with ⟨-, rfl⟩ | ⟨x, hx, rfl⟩
    · exact ht
    · exact (each_set_iff ht id x).2 (loriePixmapFromFds_spec hx).2
  | modifyPixmapHeader id data =>
    refine iff_of_true ⟨?_, trivial⟩ not_false
    obtain ⟨x, hx, rfl⟩ := Option.map_eq_some_iff.1 h
    exact (each_set_iff ht id _).2 ⟨(ht id x hx).flag, (ht id x hx).pointer⟩
  | setScreenPixmap newPixmap =>
    refine iff_of_true ⟨?_, trivial⟩ not_false
    obtain rfl := Option.some.inj h
    exact ht
  | prepareAccess c id index =>
    obtain ⟨x, hx, rfl⟩ := Option.map_eq_some_iff.1 h
    have hspec := loriePrepareAccess_spec hs ht hx c index
    have hclean : CleanFailure s (.prepareAccess c id index) ↔ Clean c id index x s := by
      simp [CleanFailure, hx]
    have hfaulty : Faulty s (.prepareAccess c id index) ↔ PrepareFails c id index x s := by
      simp [Faulty, hx]
    rw [hclean, hfaulty, ← hspec]
    dsimp only
    split_ifs
    · rfl
    · rfl
  | finishAccess c id index =>
    refine iff_of_true ⟨?_, trivial⟩ not_false
    simp only [step] at h
    split_ifs at h
    obtain ⟨x, hx, rfl⟩ := Option.map_eq_some_iff.1 h
    exact truthful_lorieFinishAccess ht hx c index
  | setWindowPixmap c c' newPixmap =>
    obtain rfl := Option.some.inj h
    refine (and_iff_left trivial).trans ?_
    exact truthful_enterWindow (sound_leaveWindow hs c) (truthful_leaveWindow ht c) c' newPixmap
  | presentFlip px c c' k id =>
    obtain ⟨x, hx, rfl⟩ := Option.map_eq_some_iff.1 h
    have hfaulty : Faulty s (.presentFlip px c c' k id) ↔ FlipFails px c c' k x := by
      simp [Faulty, hx]
    rw [hfaulty]
    refine (and_iff_left trivial).trans ((each_set_iff ht id _).trans ?_)
    exact truthful_loriePresentFlip (hs id x hx) (ht id x hx) px c c' k
  | redraw c drawn =>
    exact iff_of_true ⟨truthful_lorieRedraw hs ht h, trivial⟩ not_false

theorem cleanFailure_of_not_faulty {a : Action H M} (hs : Each Sound s) (ht : Each Truthful s)
    (h : ¬ Faulty s a) : CleanFailure s a := by
  cases a with
  | prepareAccess c id index =>
    intro x hx
    exact ((loriePrepareAccess_spec hs ht hx c index).2 fun hfails => h ⟨x, hx, hfails⟩).2
  | create | fromFds | modifyPixmapHeader | setScreenPixmap | finishAccess | setWindowPixmap
  | presentFlip | redraw => trivial

/-- **The locks are truthful as long as none fails.**  In every state that a run reaches the flag of
every buffer is set exactly while its last lock holds and the pointer of its pixmap is set exactly
while the flag is, and every access that is refused leaves the buffer unlocked and the mutex as it
was found, if and only if in no step of the run a hardware buffer cannot be locked or access is
refused to a pixmap of the screen without a buffer. -/
theorem truthful_iff {steps : List (Action H M)} {s : PixmapServer H M}
    (h : tryExec step {} steps = some s) :
    (∀ as₁ as₂ t, steps = as₁ ++ as₂ → tryExec step ({} : PixmapServer H M) as₁ = some t →
        Each Truthful t) ∧
      TryAlways step CleanFailure {} steps ↔
      TryAlways step (fun s a => ¬ Faulty s a) {} steps := by
  have hsound : ∀ (s : PixmapServer H M) a s', Each Sound s → CleanFailure s a →
      step s a = some s' → Each Sound s' := fun s a s' hs _ h => sound_step hs h
  have hstep : ∀ (s : PixmapServer H M) a s', Each Sound s → Each Truthful s → CleanFailure s a →
      step s a = some s' → (Each Truthful s' ↔ ¬ Faulty s a) := by
    intro s a s' hs ht hc h
    rw [← truthful_step hs ht h, and_iff_left hc]
  have hsound₀ : Each Sound ({} : PixmapServer H M) := by
    intro id x hx
    cases hx
  have htruthful₀ : Each Truthful ({} : PixmapServer H M) := by
    intro id x hx
    cases hx
  constructor
  · rintro ⟨hreached, hclean⟩
    exact (reached_iff_of_invariant hsound hstep hsound₀ htruthful₀ hclean h).1 hreached
  · intro hfine
    have hclean : TryAlways step CleanFailure ({} : PixmapServer H M) steps := by
      refine (tryAlways_iff_of_invariant (I := fun s => Each Sound s ∧ Each Truthful s)
        (Q := fun _ _ => True) (fun s a s' hI hP h => ⟨sound_step hI.1 h, ?_⟩)
        (fun s a hI hP => iff_of_true trivial (cleanFailure_of_not_faulty hI.1 hI.2 hP))
        ⟨hsound₀, htruthful₀⟩ hfine).1 (tryAlways_true _ _)
      exact ((truthful_step hI.1 hI.2 h).2 hP).1
    exact ⟨(reached_iff_of_invariant hsound hstep hsound₀ htruthful₀ hclean h).2 hfine, hclean⟩

/-- Calls that succeed but for the lock of a hardware buffer, which gives `lock`. -/
def callsWith (lock : Locking ℕ) : Calls ℕ ℕ where
  calloc _ := some 100
  createRegion _ := some 3
  mmap _ _ _ := some 200
  allocate _ _ _ := some 7
  describe _ := (64, 64, 64, .R8G8B8X8_UNORM)
  lock _ := lock
  unlock _ := 0
  dup := true
  alloc := true

/-- A pixmap that is received is drawn on. -/
theorem truthful_drawn :
    ∃ s, tryExec step ({} : PixmapServer ℕ ℕ)
        [.fromFds (callsWith (.address 300)) 0 (.hardware (some 7)) 0,
          .prepareAccess (callsWith (.address 300)) 0 .SRC,
          .finishAccess (callsWith (.address 300)) 0 .SRC] = some s ∧
      Each Truthful s := by
  obtain ⟨s, hs⟩ : ∃ s, tryExec step ({} : PixmapServer ℕ ℕ)
      [.fromFds (callsWith (.address 300)) 0 (.hardware (some 7)) 0,
        .prepareAccess (callsWith (.address 300)) 0 .SRC,
        .finishAccess (callsWith (.address 300)) 0 .SRC] = some s := ⟨_, rfl⟩
  refine ⟨s, hs, ((truthful_iff hs).2 (tryAlways_of_forall ?_ _)).1 _ [] s
    (List.append_nil _).symm hs⟩
  intro a ha s
  simp only [List.mem_cons, List.not_mem_nil, or_false] at ha
  rcases ha with rfl | rfl | rfl
  · exact not_false
  · rintro ⟨x, -, -, -, ⟨b, -, -, hlock⟩ | ⟨-, hindex, -⟩⟩
    · exact hlock rfl
    · cases hindex
  · exact not_false

/-- The pixmap of the screen cannot be locked: its buffer is marked as locked all the same, and the
mutex stays with the server. -/
theorem untruthful_refused :
    ∃ s x, tryExec step ({} : PixmapServer ℕ ℕ)
        [.fromFds (callsWith (.address 300)) 0 (.hardware (some 7)) 0,
          .setScreenPixmap (some 0),
          .prepareAccess (callsWith (.error (-1) (by decide) none)) 0 .DEST] = some s ∧
      s.pixmaps 0 = some x ∧ x.flag = true ∧ x.locked = none ∧ ¬ x.Truthful ∧
      s.mutex.depth = 1 := by
  refine ⟨_, _, rfl, rfl, rfl, rfl, fun h => ?_, rfl⟩
  have hpointer := h.pointer
  cases hpointer

end PixmapServer

end TermuxX11.Server
