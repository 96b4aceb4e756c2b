import TermuxX11.Buffer.LorieBuffer
import TermuxX11.Lib.Memory

/-!
# Converting a buffer

`LorieBuffer_convert` puts the picture of a buffer into memory that can be shared: the new memory is
obtained, the picture is copied by `pixman_blt`, and the old memory is freed.

What `pixman_blt` does is a parameter, as are the calls of the system.  It returns `FALSE` and
copies nothing where the library was built without a copy for the processor; the conversion does
not look at what it returns.
-/

namespace TermuxX11.Buffer

variable {H M : Type}

/-- `pixman_blt` from the memory of a buffer, with the strides, the width and the height: what it
leaves in the memory that it writes to, which may be that of a locked hardware buffer, or `none` if
it returns `FALSE`. -/
structure Pixman (H M : Type) where
  blt : Option M → M → ℤ → ℤ → ℤ → ℤ → Option M
  bltLocked : Option M → H → ℤ → ℤ → ℤ → ℤ → Option H

/-- The formats that a buffer is converted to. -/
def Format.Shareable (format : Format) : Prop :=
  format = .R8G8B8X8_UNORM ∨ format = .B8G8R8A8_UNORM

instance (format : Format) : Decidable format.Shareable :=
  inferInstanceAs (Decidable (_ ∨ _))

namespace LorieBuffer

/-- `LorieBuffer_convert` to shared memory. -/
def convertToFD (px : Pixman H M) (c : Calls H M) (p : Page) (b : LorieBuffer H M)
    (format : Format) : LorieBuffer H M :=
  let size := alignToPage p (imageSize b.desc.stride b.desc.height)
  match c.createRegion size with
  | none => b
  | some fd =>
    match c.mmap size fd 0 with
    | none => b
    | some data =>
      let data :=
        (px.blt b.desc.data data b.desc.stride b.desc.stride b.desc.width b.desc.height).getD data
      { b with
        desc := { b.desc with type := .FD, format := format, data := some data }
        fd := some fd
        size := size
        offset := 0
        lockedData := none
        locked := false }

/-- `LorieBuffer_convert` to a hardware buffer. -/
def convertToAHardwareBuffer (px : Pixman H M) (c : Calls H M) (b : LorieBuffer H M)
    (format : Format) : LorieBuffer H M :=
  match c.allocate b.desc.width b.desc.height format with
  | none => b
  | some buffer =>
    let stride := (c.describe buffer).2.2.1
    let buffer :=
      if (c.lock (some buffer)).status = 0 then
        (px.bltLocked b.desc.data buffer b.desc.stride stride b.desc.width
          b.desc.height).getD buffer
      else buffer
    { b with
      desc :=
        { b.desc with
          type := .AHARDWAREBUFFER, format := format, stride := stride, buffer := some buffer,
          data := none }
      lockedData := none
      locked := false }

/-- `LorieBuffer_convert`. -/
def convert (px : Pixman H M) (c : Calls H M) (p : Page) (b : LorieBuffer H M) (type : BufferType)
    (format : Format) : LorieBuffer H M :=
  if b.desc.type ≠ .REGULAR ∨ (type ≠ .FD ∧ type ≠ .AHARDWAREBUFFER) ∨ ¬ format.Shareable then b
  else if type = .FD then convertToFD px c p b format
  else convertToAHardwareBuffer px c b format

/-- All that a conversion can do to the state of a buffer. -/
theorem convert_cases (px : Pixman H M) (c : Calls H M) (p : Page) (b : LorieBuffer H M)
    (type : BufferType) (format : Format) :
    convert px c p b type format = b ∨
      b.desc.type = .REGULAR ∧ (convert px c p b type format).desc.type = type ∧
        (type = .FD ∧ (convert px c p b type format).desc.data ≠ none ∨ type = .AHARDWAREBUFFER) ∧
        (convert px c p b type format).locked = false := by
  unfold convert
  split_ifs with hrefused hfd
  · exact Or.inl rfl
  · rw [not_or, not_not] at hrefused
    rw [hfd]
    unfold convertToFD
    dsimp only
    cases c.createRegion (alignToPage p (imageSize b.desc.stride b.desc.height)) with
    | none => exact Or.inl rfl
    | some fd =>
      dsimp only
      cases c.mmap (alignToPage p (imageSize b.desc.stride b.desc.height)) fd 0 with
      | none => exact Or.inl rfl
      | some data => exact Or.inr ⟨hrefused.1, rfl, Or.inl ⟨rfl, nofun⟩, rfl⟩
  · rw [not_or, not_not, not_or] at hrefused
    have hahb : type = .AHARDWAREBUFFER := by
      by_contra hne
      exact hrefused.2.1 ⟨hfd, hne⟩
    rw [hahb]
    unfold convertToAHardwareBuffer
    cases c.allocate b.desc.width b.desc.height format with
    | none => exact Or.inl rfl
    | some buffer => exact Or.inr ⟨hrefused.1, rfl, Or.inr rfl, rfl⟩

end LorieBuffer

/-! ### Pixels -/

/-- The pixels in memory, by their index. -/
abbrev Pixels := ℤ → UInt32

/-- A hardware buffer. -/
structure HardwareBuffer where
  width : ℤ
  height : ℤ
  stride : ℤ
  format : Format
  pixels : Pixels

/-- A pixel inside of an image. -/
def Inside (width height x y : ℤ) : Prop := 0 ≤ x ∧ x < width ∧ 0 ≤ y ∧ y < height

/-- `pixman_blt` as it is documented: unless it declines, the pixels of the rectangle are copied,
where the rows that are written do not overlap or are those that are read. -/
def IsBlt (blt : Pixels → Pixels → ℤ → ℤ → ℤ → ℤ → Option Pixels) : Prop :=
  ∀ src dst srcStride dstStride width height pixels,
    blt src dst srcStride dstStride width height = some pixels →
    width ≤ dstStride ∨ srcStride = dstStride → ∀ x y, Inside width height x y →
      pixels (y * dstStride + x) = src (y * srcStride + x)

/-- Copying a rectangle pixel by pixel. -/
def copyRect (src dst : Pixels) (srcStride dstStride width height : ℤ) : Option Pixels :=
  some <| ((List.range height.toNat).flatMap fun (y : ℕ) =>
    (List.range width.toNat).map fun (x : ℕ) =>
      (y * dstStride + x, src (y * srcStride + x))).foldl
        (fun dst w => Function.update dst w.1 w.2) dst

theorem isBlt_copyRect : IsBlt copyRect := by
  rintro src dst srcStride dstStride width height pixels hblt hstride x y ⟨hx, hxlt, hy, hylt⟩
  obtain rfl := Option.some.inj hblt
  refine CMemory.foldl_update_apply ?_ (Or.inl ?_)
  · intro w hw hi
    obtain ⟨y', hy', hw⟩ := List.mem_flatMap.1 hw
    obtain ⟨x', hx', rfl⟩ := List.mem_map.1 hw
    rw [List.mem_range] at hx' hy'
    dsimp only at hi ⊢
    rcases hstride with hwidth | rfl
    · -- no two rows overlap
      have hindex : ∀ a b : ℤ, 0 ≤ b → b < width → (a * dstStride + b) / dstStride = a := by
        intro a b hb hlt
        rw [Int.add_comm, Int.add_mul_ediv_right _ _ (by omega),
          Int.ediv_eq_zero_of_lt hb (by omega), zero_add]
      have hrow : (y' : ℤ) = y := by
        rw [← hindex y' x' (by omega) (by omega), hi, hindex y x hx hxlt]
      rw [hrow] at hi ⊢
      rw [show (x' : ℤ) = x by omega]
    · rw [hi]
  · refine ⟨(y * dstStride + x, src (y * srcStride + x)), List.mem_flatMap.2 ⟨y.toNat, ?_, ?_⟩, rfl⟩
    · rw [List.mem_range]
      omega
    · rw [Int.toNat_of_nonneg hy]
      refine List.mem_map.2 ⟨x.toNat, ?_, ?_⟩
      · rw [List.mem_range]
        omega
      · rw [Int.toNat_of_nonneg hx]

/-- The copies between buffers that a `pixman_blt` makes. -/
def Pixman.ofBlt (blt : Pixels → Pixels → ℤ → ℤ → ℤ → ℤ → Option Pixels) :
    Pixman HardwareBuffer Pixels where
  blt src dst srcStride dstStride width height :=
    src.bind fun src => blt src dst srcStride dstStride width height
  bltLocked src buffer srcStride dstStride width height :=
    src.bind fun src =>
      (blt src buffer.pixels srcStride dstStride width height).map fun pixels =>
        { buffer with pixels := pixels }

/-- What is documented of hardware buffers: a buffer is described as it is, and its rows have room
for the width that was asked for. -/
structure Documented (c : Calls HardwareBuffer Pixels) : Prop where
  describe : ∀ b, c.describe b = (b.width, b.height, b.stride, b.format)
  width_le : ∀ {width height format b}, c.allocate width height format = some b → width ≤ b.stride

namespace LorieBuffer

/-- The pixel in the column `x` and the row `y`. -/
def pixel (b : LorieBuffer HardwareBuffer Pixels) (x y : ℤ) : Option UInt32 :=
  match b.desc.type with
  | .REGULAR | .FD => b.desc.data.map fun data => data (y * b.desc.stride + x)
  | .AHARDWAREBUFFER =>
    b.desc.buffer.map fun buffer => buffer.pixels (y * b.desc.stride + x)
  | _ => none

/-- The buffer is as it was, or has the type and the format that were asked for and the same
picture. -/
def Kept (b b' : LorieBuffer HardwareBuffer Pixels) (type : BufferType) (format : Format) : Prop :=
  b' = b ∨ b'.desc.type = type ∧ b'.desc.format = format ∧ b'.desc.width = b.desc.width ∧
    b'.desc.height = b.desc.height ∧
    ∀ x y, Inside b.desc.width b.desc.height x y → b'.pixel x y = b.pixel x y

/-- The new memory `pixels`, with its stride, does not have the picture of the buffer by chance. -/
def Differs (b : LorieBuffer HardwareBuffer Pixels) (pixels : Pixels) (stride : ℤ) : Prop :=
  ∃ x y, Inside b.desc.width b.desc.height x y ∧ some (pixels (y * stride + x)) ≠ b.pixel x y

/-- Shared memory is mapped and `pixman_blt` declines. -/
def LostFD (px : Pixman HardwareBuffer Pixels) (c : Calls HardwareBuffer Pixels) (p : Page)
    (b : LorieBuffer HardwareBuffer Pixels) : Prop :=
  ∃ fd data, c.createRegion (alignToPage p (imageSize b.desc.stride b.desc.height)) = some fd ∧
    c.mmap (alignToPage p (imageSize b.desc.stride b.desc.height)) fd 0 = some data ∧
    px.blt b.desc.data data b.desc.stride b.desc.stride b.desc.width b.desc.height = none ∧
    b.Differs data b.desc.stride

/-- A hardware buffer is allocated that cannot be locked, or `pixman_blt` declines. -/
def LostAHardwareBuffer (px : Pixman HardwareBuffer Pixels) (c : Calls HardwareBuffer Pixels)
    (b : LorieBuffer HardwareBuffer Pixels) (format : Format) : Prop :=
  ∃ buffer, c.allocate b.desc.width b.desc.height format = some buffer ∧
    ((c.lock (some buffer)).status ≠ 0 ∨
      px.bltLocked b.desc.data buffer b.desc.stride buffer.stride b.desc.width
        b.desc.height = none) ∧
    b.Differs buffer.pixels buffer.stride

/-- The new memory is obtained and the picture is not copied to it. -/
def Lost (px : Pixman HardwareBuffer Pixels) (c : Calls HardwareBuffer Pixels) (p : Page)
    (b : LorieBuffer HardwareBuffer Pixels) (type : BufferType) (format : Format) : Prop :=
  format.Shareable ∧
    (type = .FD ∧ b.LostFD px c p ∨ type = .AHARDWAREBUFFER ∧ b.LostAHardwareBuffer px c format)

variable {blt : Pixels → Pixels → ℤ → ℤ → ℤ → ℤ → Option Pixels}
  {c : Calls HardwareBuffer Pixels} {b : LorieBuffer HardwareBuffer Pixels} {data : Pixels}

theorem pixel_regular (hb : b.desc.type = .REGULAR) (hdata : b.desc.data = some data) (x y : ℤ) :
    b.pixel x y = some (data (y * b.desc.stride + x)) := by
  rw [pixel, hb, hdata]
  rfl

/-- A picture that is published as it was allocated is kept exactly if it is there by chance. -/
theorem kept_iff_not_differs {b' : LorieBuffer HardwareBuffer Pixels} {type : BufferType}
    {format : Format} (pixels : Pixels) (stride : ℤ) (hb : b.desc.type = .REGULAR)
    (htype : b'.desc.type = type) (hne : type ≠ .REGULAR) (hformat : b'.desc.format = format)
    (hwidth : b'.desc.width = b.desc.width) (hheight : b'.desc.height = b.desc.height)
    (hpixel : ∀ x y, b'.pixel x y = some (pixels (y * stride + x))) :
    Kept b b' type format ↔ ¬ b.Differs pixels stride := by
  constructor
  · rintro (heq | ⟨-, -, -, -, hsame⟩) ⟨x, y, hxy, hdiffers⟩
    · rw [heq, hb] at htype
      exact hne htype.symm
    · exact hdiffers ((hpixel x y).symm.trans (hsame x y hxy))
  · intro hsame
    refine Or.inr ⟨htype, hformat, hwidth, hheight, fun x y hxy => ?_⟩
    by_contra hdiffers
    exact hsame ⟨x, y, hxy, fun heq => hdiffers ((hpixel x y).trans heq)⟩

/-- Shared memory has the picture exactly where it could be copied or was there before. -/
theorem kept_convertToFD_iff (hblt : IsBlt blt) (hb : b.desc.type = .REGULAR)
    (hdata : b.desc.data = some data) (p : Page) (format : Format) :
    Kept b (convertToFD (.ofBlt blt) c p b format) .FD format ↔ ¬ b.LostFD (.ofBlt blt) c p := by
  rw [convertToFD]
  dsimp only
  cases hregion : c.createRegion (alignToPage p (imageSize b.desc.stride b.desc.height)) with
  | none =>
    refine iff_of_true (Or.inl rfl) ?_
    rintro ⟨fd, new, hfd, -⟩
    rw [hregion] at hfd
    cases hfd
  | some fd =>
    dsimp only
    cases hmmap : c.mmap (alignToPage p (imageSize b.desc.stride b.desc.height)) fd 0 with
    | none =>
      refine iff_of_true (Or.inl rfl) ?_
      rintro ⟨fd', new, hfd, hnew, -⟩
      obtain rfl := Option.some.inj (hregion.symm.trans hfd)
      rw [hmmap] at hnew
      cases hnew
    | some new =>
      dsimp only
      cases hcopy : (Pixman.ofBlt blt).blt b.desc.data new b.desc.stride b.desc.stride
          b.desc.width b.desc.height with
      | some pixels =>
        rw [Option.getD_some]
        refine iff_of_true (Or.inr ⟨rfl, rfl, rfl, rfl, fun x y hxy => ?_⟩) ?_
        · rw [pixel_regular hb hdata]
          simp only [Pixman.ofBlt, hdata, Option.bind_some] at hcopy
          exact congrArg some (hblt _ _ _ _ _ _ _ hcopy (Or.inr rfl) x y hxy)
        · rintro ⟨fd', new', hfd, hnew, hdeclined, -⟩
          obtain rfl := Option.some.inj (hregion.symm.trans hfd)
          obtain rfl := Option.some.inj (hmmap.symm.trans hnew)
          rw [hcopy] at hdeclined
          cases hdeclined
      | none =>
        refine Iff.trans (kept_iff_not_differs new b.desc.stride hb rfl (by decide) rfl rfl rfl
          fun _ _ => rfl) ?_
        refine not_congr ⟨fun h => ⟨fd, new, hregion, hmmap, hcopy, h⟩, ?_⟩
        rintro ⟨fd', new', hfd, hnew, -, hdiffers⟩
        obtain rfl := Option.some.inj (hregion.symm.trans hfd)
        obtain rfl := Option.some.inj (hmmap.symm.trans hnew)
        exact hdiffers

/-- The hardware buffer has the picture exactly where it could be copied or was there before. -/
theorem kept_convertToAHardwareBuffer_iff (hblt : IsBlt blt) (hc : Documented c)
    (hb : b.desc.type = .REGULAR) (hdata : b.desc.data = some data) (format : Format) :
    Kept b (convertToAHardwareBuffer (.ofBlt blt) c b format) .AHARDWAREBUFFER format ↔
      ¬ b.LostAHardwareBuffer (.ofBlt blt) c format := by
  unfold convertToAHardwareBuffer
  cases hallocate : c.allocate b.desc.width b.desc.height format with
  | none =>
    refine iff_of_true (Or.inl rfl) ?_
    rintro ⟨buffer, hbuffer, -⟩
    rw [hallocate] at hbuffer
    cases hbuffer
  | some buffer =>
    dsimp only
    rw [hc.describe]
    dsimp only
    by_cases hcopied : (c.lock (some buffer)).status = 0 ∧ ∃ buffer',
        (Pixman.ofBlt blt).bltLocked b.desc.data buffer b.desc.stride buffer.stride b.desc.width
          b.desc.height = some buffer'
    · obtain ⟨hlock, buffer', hcopy⟩ := hcopied
      rw [if_pos hlock, hcopy]
      refine iff_of_true (Or.inr ⟨rfl, rfl, rfl, rfl, fun x y hxy => ?_⟩) ?_
      · rw [pixel_regular hb hdata]
        simp only [Pixman.ofBlt, hdata, Option.bind_some] at hcopy
        obtain ⟨pixels, hpixels, rfl⟩ := Option.map_eq_some_iff.1 hcopy
        exact congrArg some
          (hblt _ _ _ _ _ _ _ hpixels (Or.inl (hc.width_le hallocate)) x y hxy)
      · rintro ⟨new, hnew, hfail, -⟩
        obtain rfl := Option.some.inj (hallocate.symm.trans hnew)
        rcases hfail with hfail | hfail
        · exact hfail hlock
        · rw [hcopy] at hfail
          cases hfail
    · have hfail : (c.lock (some buffer)).status ≠ 0 ∨ (Pixman.ofBlt blt).bltLocked b.desc.data
          buffer b.desc.stride buffer.stride b.desc.width b.desc.height = none := by
        by_contra hnot
        rw [not_or, not_not] at hnot
        exact hcopied ⟨hnot.1, Option.ne_none_iff_exists'.1 hnot.2⟩
      -- what is published is the buffer as it was allocated
      have hsame : (if (c.lock (some buffer)).status = 0 then
          ((Pixman.ofBlt blt).bltLocked b.desc.data buffer b.desc.stride buffer.stride
            b.desc.width b.desc.height).getD buffer else buffer) = buffer := by
        split_ifs with hlock
        · rw [hfail.resolve_left (not_not.2 hlock)]
          rfl
        · rfl
      rw [hsame]
      refine Iff.trans (kept_iff_not_differs buffer.pixels buffer.stride hb rfl (by decide) rfl rfl
        rfl fun _ _ => rfl) ?_
      refine not_congr ⟨fun h => ⟨buffer, hallocate, hfail, h⟩, ?_⟩
      rintro ⟨new, hnew, -, hdiffers⟩
      obtain rfl := Option.some.inj (hallocate.symm.trans hnew)
      exact hdiffers

/-- **A conversion keeps the picture or does nothing, unless the picture cannot be copied.**  For
every regular buffer and every pattern of failures, the buffer is as it was or has the type and the
format that were asked for and the same picture, if and only if no new memory was obtained to which
the picture was not copied and that does not have it by chance. -/
theorem kept_convert_iff (hblt : IsBlt blt) (hc : Documented c) (hb : b.desc.type = .REGULAR)
    (hdata : b.desc.data = some data) (p : Page) (type : BufferType) (format : Format) :
    Kept b (convert (.ofBlt blt) c p b type format) type format ↔
      ¬ Lost (.ofBlt blt) c p b type format := by
  unfold convert
  by_cases hformat : format.Shareable
  swap
  · rw [if_pos (Or.inr (Or.inr hformat))]
    exact iff_of_true (Or.inl rfl) fun h => hformat h.1
  by_cases hfd : type = .FD
  · rw [hfd, if_neg (by simp [hb, hformat]), if_pos rfl, kept_convertToFD_iff hblt hb hdata]
    refine not_congr ⟨fun h => ⟨hformat, Or.inl ⟨rfl, h⟩⟩, ?_⟩
    rintro ⟨-, ⟨-, h⟩ | ⟨h, -⟩⟩
    · exact h
    · cases h
  by_cases hahb : type = .AHARDWAREBUFFER
  · rw [hahb, if_neg (by simp [hb, hformat]), if_neg (by decide),
      kept_convertToAHardwareBuffer_iff hblt hc hb hdata]
    refine not_congr ⟨fun h => ⟨hformat, Or.inr ⟨rfl, h⟩⟩, ?_⟩
    rintro ⟨-, ⟨h, -⟩ | ⟨-, h⟩⟩
    · cases h
    · exact h
  · rw [if_pos (Or.inr (Or.inl ⟨hfd, hahb⟩))]
    refine iff_of_true (Or.inl rfl) ?_
    rintro ⟨-, ⟨h, -⟩ | ⟨h, -⟩⟩
    · exact hfd h
    · exact hahb h

/-- A regular buffer of one pixel. -/
def onePixel : LorieBuffer HardwareBuffer Pixels :=
  { refcount := 1
    desc := ⟨1, 1, 1, .R8G8B8X8_UNORM, .REGULAR, 0, none, some fun _ => 5⟩
    locked := true
    lockedData := some fun _ => 5
    fd := none
    size := 0
    offset := 0
    texture := 0
    image := none
    link := none }

/-- Calls that succeed but for the lock of a hardware buffer, which gives `lock`.  What they
allocate is black. -/
def blackCalls (lock : Locking Pixels) : Calls HardwareBuffer Pixels where
  calloc _ := some fun _ => 0
  createRegion _ := some 7
  mmap _ _ _ := some fun _ => 0
  allocate width height format := some ⟨width, height, width, format, fun _ => 0⟩
  describe b := (b.width, b.height, b.stride, b.format)
  lock _ := lock
  unlock _ := 0
  dup := true
  alloc := true

theorem documented_blackCalls (lock : Locking Pixels) : Documented (blackCalls lock) := by
  refine ⟨fun _ => rfl, ?_⟩
  rintro width height format b h
  obtain rfl := Option.some.inj h
  exact le_rfl

/-- The pixel is kept where the lock succeeds. -/
theorem kept_onePixel :
    Kept onePixel (convert (.ofBlt copyRect) (blackCalls (.address fun _ => 0)) ⟨12, by decide⟩
      onePixel .AHARDWAREBUFFER .R8G8B8X8_UNORM) .AHARDWAREBUFFER .R8G8B8X8_UNORM := by
  refine (kept_convert_iff isBlt_copyRect (documented_blackCalls _) rfl rfl _ _ _).2 ?_
  rintro ⟨-, ⟨h, -⟩ | ⟨-, buffer, -, hlock | hcopy, -⟩⟩
  · cases h
  · exact hlock rfl
  · cases hcopy

/-- The buffer is published although it could not be locked, and it is black. -/
theorem lost_onePixel :
    ¬ Kept onePixel (convert (.ofBlt copyRect) (blackCalls (.error (-1) (by decide) none))
      ⟨12, by decide⟩ onePixel .AHARDWAREBUFFER .R8G8B8X8_UNORM) .AHARDWAREBUFFER
      .R8G8B8X8_UNORM := by
  rintro (heq | ⟨-, -, -, -, hpixel⟩)
  · have htype := congrArg (fun b => b.desc.type) heq
    cases htype
  · have hblack := hpixel 0 0 ⟨le_rfl, by decide, le_rfl, by decide⟩
    cases hblack

end LorieBuffer

end TermuxX11.Buffer
