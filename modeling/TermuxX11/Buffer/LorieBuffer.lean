import Mathlib.Tactic

/-!
# Buffers of pixels

`struct LorieBuffer` of `buffer.c`, and how a buffer is made, locked and unlocked.  `H` are the
hardware buffers, `M` what a pointer to pixels points to; they are left open, as a development may
look at the addresses or at the pixels.  A file descriptor is the file it stands for, or `none`.

What the system answers is in `Calls`, so a statement over all of them covers every pattern of
failures.
-/

namespace TermuxX11.Buffer

/-- The type of a buffer. -/
inductive BufferType
  | UNKNOWN | REGULAR | FD | AHARDWAREBUFFER
  | other (n : ℕ)
  deriving DecidableEq, Repr

/-- The format of a pixel. -/
inductive Format
  | R8G8B8X8_UNORM | B8G8R8A8_UNORM
  | other (n : ℕ)
  deriving DecidableEq, Repr

/-- `LorieBuffer_Desc`. -/
structure Desc (H M : Type) where
  width : ℤ
  height : ℤ
  stride : ℤ
  format : Format
  type : BufferType
  id : ℕ
  buffer : Option H
  data : Option M
  deriving DecidableEq

/-- `struct LorieBuffer`.  `texture` is its field `id`; `link` is the list that the buffer is linked
in. -/
structure LorieBuffer (H M : Type) where
  refcount : ℤ
  desc : Desc H M
  locked : Bool
  lockedData : Option M
  fd : Option ℕ
  size : ℕ
  offset : ℤ
  texture : ℕ
  image : Option ℕ
  link : Option ℕ
  deriving DecidableEq

/-- What `AHardwareBuffer_lock` gives: the address of the pixels, or an error, with what is left in
the pointer then. -/
inductive Locking (M : Type)
  | address (data : M)
  | error (code : ℤ) (h : code ≠ 0) (data : Option M)

namespace Locking

variable {M : Type}

/-- The return code. -/
def status : Locking M → ℤ
  | address _ => 0
  | error code _ _ => code

/-- The pointer after the call. -/
def data : Locking M → Option M
  | address data => some data
  | error _ _ data => data

theorem data_ne_none {l : Locking M} (h : l.status = 0) : l.data ≠ none := by
  cases l with
  | address data => nofun
  | error code hcode data => exact absurd h hcode

end Locking

/-- What the calls of one function give; `dup` and `alloc` say whether `dup` and the `calloc` of the
structure succeed. -/
structure Calls (H M : Type) where
  calloc : ℕ → Option M
  createRegion : ℕ → Option ℕ
  mmap : ℕ → ℕ → ℤ → Option M
  allocate : ℤ → ℤ → Format → Option H
  describe : H → ℤ × ℤ × ℤ × Format
  lock : Option H → Locking M
  unlock : Option H → ℤ
  dup : Bool
  alloc : Bool

def ENOENT : ℤ := 2
def EEXIST : ℤ := 17
def ENODEV : ℤ := 19

/-- The size of a page. -/
structure Page where
  log : ℕ
  log_lt : log < 64

def Page.size (p : Page) : ℕ := 2 ^ p.log

/-- The size of an image in bytes, as a `size_t`; `stride * height` is an `int32_t`. -/
def imageSize (stride height : ℤ) : ℕ := ((stride * height).bmod (2 ^ 32) * 4 % 2 ^ 64).toNat

/-- `alignToPage`: the mask leaves a multiple of the size of a page. -/
def alignToPage (p : Page) (size : ℕ) : ℕ := (size + p.size - 1) % 2 ^ 64 / p.size * p.size

/-- What is aligned stays as it is. -/
theorem alignToPage_alignToPage (p : Page) (size : ℕ) :
    alignToPage p (alignToPage p size) = alignToPage p size := by
  have hpos : 1 ≤ p.size := Nat.two_pow_pos _
  obtain ⟨k, hk⟩ : p.size ∣ 2 ^ 64 := Nat.pow_dvd_pow 2 p.log_lt.le
  set q := (size + p.size - 1) % 2 ^ 64 / p.size
  have hq : q + 1 ≤ k := by
    refine Nat.div_lt_of_lt_mul ?_
    rw [← hk]
    exact Nat.mod_lt _ (by norm_num)
  have hlt : q * p.size + p.size - 1 < 2 ^ 64 := by
    have hle : (q + 1) * p.size ≤ k * p.size := Nat.mul_le_mul_right _ hq
    rw [hk, Nat.mul_comm p.size k]
    rw [Nat.add_mul, Nat.one_mul] at hle
    omega
  show (q * p.size + p.size - 1) % 2 ^ 64 / p.size * p.size = q * p.size
  rw [Nat.mod_eq_of_lt hlt, Nat.add_sub_assoc hpos, Nat.mul_comm q, Nat.mul_add_div hpos,
    Nat.div_eq_of_lt (Nat.sub_lt hpos one_pos), Nat.add_zero, Nat.mul_comm]

variable {H M : Type}

namespace LorieBuffer

/-- `LorieBuffer_lock`: what it returns and the buffer after it; the caller is given its
`lockedData`. -/
def lock (c : Calls H M) (b : LorieBuffer H M) : ℤ × LorieBuffer H M :=
  if b.locked then (EEXIST, b)
  else if b.desc.type = .REGULAR ∨ b.desc.type = .FD then
    (0, { b with lockedData := b.desc.data, locked := true })
  else if b.desc.type = .AHARDWAREBUFFER then
    let r := c.lock b.desc.buffer
    (r.status, { b with lockedData := r.data, locked := true })
  else (0, { b with locked := true })

/-- `LorieBuffer_unlock`. -/
def unlock (c : Calls H M) (b : LorieBuffer H M) : ℤ × LorieBuffer H M :=
  if b.locked = false then (ENOENT, b)
  else
    (if b.desc.type = .AHARDWAREBUFFER then c.unlock b.desc.buffer else 0,
      { b with lockedData := none, locked := false })

end LorieBuffer

/-- The buffer that is set up on the stack of `allocate`, with its data. -/
def allocated (c : Calls H M) (b : LorieBuffer H M) : Option (LorieBuffer H M) :=
  match b.desc.type with
  | .REGULAR =>
    match c.calloc (imageSize b.desc.stride b.desc.height) with
    | none => none
    | some data => some { b with desc := { b.desc with data := some data } }
  | .FD =>
    match b.fd with
    | none => none
    | some file =>
      match c.mmap b.size file b.offset with
      | none => none
      | some data => some { b with desc := { b.desc with data := some data } }
  | .AHARDWAREBUFFER =>
    match b.desc.buffer with
    | none => none
    | some buffer =>
      let (width, height, stride, format) := c.describe buffer
      some
        { b with
          desc :=
            { b.desc with width := width, height := height, stride := stride, format := format } }
  | _ => none

/-- `allocate`; `id` is its static counter. -/
def allocate (c : Calls H M) (id : ℕ) (width stride height : ℤ) (format : Format)
    (type : BufferType) (buf : Option H) (fd : Option ℕ) (size : ℕ) (offset : ℤ) (takeFd : Bool) :
    Option (LorieBuffer H M) :=
  let acceptable :=
    (format = .B8G8R8A8_UNORM ∨ format = .R8G8B8X8_UNORM) ∧ 0 < width ∧ 0 < height
  let b : LorieBuffer H M :=
    { refcount := 0
      desc :=
        { width := width, height := height, stride := stride, format := format, type := type,
          id := id, buffer := buf, data := none }
      locked := false
      lockedData := none
      fd := if takeFd ∨ c.dup then fd else none
      size := size
      offset := offset
      texture := 0
      image := none
      link := none }
  if type ≠ .AHARDWAREBUFFER ∧ ¬ acceptable then none
  else
    let b := { b with refcount := b.refcount + 1 }
    match allocated c b with
    | none => none
    | some b => if c.alloc then some b else none

/-- `LorieBuffer_allocate`. -/
def LorieBuffer.allocate (c : Calls H M) (p : Page) (id : ℕ) (width height : ℤ) (format : Format)
    (type : BufferType) : Option (LorieBuffer H M) :=
  match type with
  | .FD =>
    let size := alignToPage p (imageSize width height)
    match c.createRegion size with
    | none => none
    | some fd =>
      Buffer.allocate c id width width height format type none (some fd) size 0 true
  | .AHARDWAREBUFFER =>
    Buffer.allocate c id width width height format type (c.allocate width height format) none 0 0
      true
  | _ => Buffer.allocate c id width width height format type none none 0 0 true

/-- `LorieBuffer_wrapFileDescriptor`. -/
def LorieBuffer.wrapFileDescriptor (c : Calls H M) (id : ℕ) (width stride height : ℤ)
    (format : Format) (fd : Option ℕ) (offset : ℤ) : Option (LorieBuffer H M) :=
  Buffer.allocate c id width stride height format .FD none fd (imageSize stride height) offset false

/-- `LorieBuffer_wrapAHardwareBuffer`. -/
def LorieBuffer.wrapAHardwareBuffer (c : Calls H M) (id : ℕ) (buffer : Option H) :
    Option (LorieBuffer H M) :=
  Buffer.allocate c id 0 0 0 (.other 0) .AHARDWAREBUFFER buffer none 0 0 false

/-! ### What is allocated -/

variable {c : Calls H M}

/-- All that `allocated` can do when it succeeds. -/
theorem allocated_cases {b b' : LorieBuffer H M} (h : allocated c b = some b') :
    (∃ data, b.desc.type = .REGULAR ∧
        b' = { b with desc := { b.desc with data := some data } }) ∨
      (∃ file data, b.desc.type = .FD ∧ b.fd = some file ∧
        c.mmap b.size file b.offset = some data ∧
        b' = { b with desc := { b.desc with data := some data } }) ∨
      ∃ width height stride format, b.desc.type = .AHARDWAREBUFFER ∧
        b' =
          { b with
            desc :=
              { b.desc with
                width := width, height := height, stride := stride, format := format } } := by
  unfold allocated at h
  split at h
  next htype =>
    split at h
    · cases h
    · exact Or.inl ⟨_, htype, (Option.some.inj h).symm⟩
  next htype =>
    split at h
    · cases h
    next file hfile =>
      split at h
      · cases h
      next data hdata =>
        exact Or.inr (Or.inl ⟨file, data, htype, hfile, hdata, (Option.some.inj h).symm⟩)
  next htype =>
    split at h
    · cases h
    · exact Or.inr (Or.inr ⟨_, _, _, _, htype, (Option.some.inj h).symm⟩)
  · cases h

/-- What `allocate` sets up before it obtains the data. -/
theorem allocate_eq {id : ℕ} {width stride height : ℤ} {format : Format} {type : BufferType}
    {buf : Option H} {fd : Option ℕ} {size : ℕ} {offset : ℤ} {takeFd : Bool}
    {b : LorieBuffer H M}
    (h : allocate c id width stride height format type buf fd size offset takeFd = some b) :
    ∃ b₀, allocated c b₀ = some b ∧ b₀.locked = false ∧ b₀.desc.type = type ∧ b₀.size = size ∧
      b₀.desc.stride = stride ∧ b₀.desc.height = height := by
  unfold allocate at h
  dsimp only at h
  by_cases hacceptable : type ≠ .AHARDWAREBUFFER ∧
      ¬ ((format = .B8G8R8A8_UNORM ∨ format = .R8G8B8X8_UNORM) ∧ 0 < width ∧ 0 < height)
  · rw [if_pos hacceptable] at h
    cases h
  · rw [if_neg hacceptable] at h
    set b₀ : LorieBuffer H M := LorieBuffer.mk _ _ _ _ _ _ _ _ _ _
    cases hb : allocated c b₀ with
    | none =>
      rw [hb] at h
      cases h
    | some b' =>
      rw [hb] at h
      dsimp only at h
      split_ifs at h
      obtain rfl := Option.some.inj h
      exact ⟨b₀, hb, rfl, rfl, rfl, rfl, rfl⟩

/-- A buffer that is no hardware buffer is not empty. -/
theorem allocate_pos {id : ℕ} {width stride height : ℤ} {format : Format} {type : BufferType}
    {buf : Option H} {fd : Option ℕ} {size : ℕ} {offset : ℤ} {takeFd : Bool}
    {b : LorieBuffer H M} (htype : type ≠ .AHARDWAREBUFFER)
    (h : allocate c id width stride height format type buf fd size offset takeFd = some b) :
    0 < width ∧ 0 < height := by
  by_contra hempty
  unfold allocate at h
  dsimp only at h
  rw [if_pos ⟨htype, fun hacceptable => hempty hacceptable.2⟩] at h
  cases h

/-- The buffer has the size that `allocate` is given. -/
theorem size_of_allocate {id : ℕ} {width stride height : ℤ} {format : Format} {type : BufferType}
    {buf : Option H} {fd : Option ℕ} {size : ℕ} {offset : ℤ} {takeFd : Bool}
    {b : LorieBuffer H M}
    (h : allocate c id width stride height format type buf fd size offset takeFd = some b) :
    b.size = size := by
  obtain ⟨b₀, hallocated, -, -, hsize, -⟩ := allocate_eq h
  rw [← hsize]
  rcases allocated_cases hallocated with ⟨data, -, rfl⟩ | ⟨file, data, -, -, -, rfl⟩ |
    ⟨width, height, stride, format, -, rfl⟩
  · rfl
  · rfl
  · rfl

/-- `LorieBuffer_allocate` is `allocate`, with memory of its own if the buffer is shared. -/
theorem LorieBuffer.allocate_eq {p : Page} {id : ℕ} {width height : ℤ} {format : Format}
    {type : BufferType} {b : LorieBuffer H M}
    (h : LorieBuffer.allocate c p id width height format type = some b) :
    ∃ buf fd size, (type = .FD → size = alignToPage p (imageSize width height)) ∧
      Buffer.allocate c id width width height format type buf fd size 0 true = some b := by
  cases type with
  | FD =>
    unfold LorieBuffer.allocate at h
    dsimp only at h
    cases hregion : c.createRegion (alignToPage p (imageSize width height)) with
    | none =>
      rw [hregion] at h
      cases h
    | some fd =>
      rw [hregion] at h
      exact ⟨_, _, _, fun _ => rfl, h⟩
  | REGULAR => exact ⟨none, none, 0, nofun, h⟩
  | AHARDWAREBUFFER => exact ⟨c.allocate width height format, none, 0, nofun, h⟩
  | UNKNOWN => exact ⟨none, none, 0, nofun, h⟩
  | other n => exact ⟨none, none, 0, nofun, h⟩

@[simp] theorem LorieBuffer.lock_desc (c : Calls H M) (b : LorieBuffer H M) :
    (b.lock c).2.desc = b.desc := by
  unfold lock
  split_ifs
  · rfl
  · rfl
  · rfl
  · rfl

@[simp] theorem LorieBuffer.unlock_desc (c : Calls H M) (b : LorieBuffer H M) :
    (b.unlock c).2.desc = b.desc := by
  unfold unlock
  by_cases hlocked : b.locked = false
  · rw [if_pos hlocked]
  · rw [if_neg hlocked]

/-- After it is called the buffer is not locked. -/
@[simp] theorem LorieBuffer.unlock_locked (c : Calls H M) (b : LorieBuffer H M) :
    (b.unlock c).2.locked = false := by
  unfold unlock
  by_cases hlocked : b.locked = false
  · rw [if_pos hlocked]
    exact hlocked
  · rw [if_neg hlocked]

end TermuxX11.Buffer
