import TermuxX11.Server.Locks

/-!
# Pixmaps that are imported

`loriePixmapFromFds` with the request of the client: the checks, the stride that the mapping is
computed with, which is counted in pixels, and the stride that goes into the header of the pixmap,
which is counted in bytes.

`ModifyPixmapHeader` is the X server's; what it leaves in the header is a parameter.
-/

namespace TermuxX11.Server

open Buffer

variable {H M : Type}

def DRM_FORMAT_MOD_LINEAR : ℕ := 0
def DRM_FORMAT_MOD_INVALID : ℕ := 2 ^ 56 - 1
def AHARDWAREBUFFER_SOCKET_FD : ℕ := 1255
def AHARDWAREBUFFER_FLIPPED_SOCKET_FD : ℕ := 1256
def RAW_MMAPPABLE_FD : ℕ := 1274

/-- What a client asks for.  `fd` is the file of the first descriptor, `created` says that
`CreatePixmap` gives a pixmap with a private part, and `received` is the hardware buffer that
arrives if no check about it fails. -/
structure FdsRequest (H : Type) where
  numFds : ℕ
  fd : Option ℕ
  width : ℕ
  height : ℕ
  stride : ℕ
  offset : ℕ
  modifier : ℕ
  created : Bool
  received : Option H
  width_lt : width < 2 ^ 16
  height_lt : height < 2 ^ 16
  stride_lt : stride < 2 ^ 32
  offset_lt : offset < 2 ^ 32

namespace FdsRequest

/-- The descriptor is that of a file to be mapped. -/
def Mappable (r : FdsRequest H) : Prop :=
  r.modifier = DRM_FORMAT_MOD_INVALID ∨ r.modifier = DRM_FORMAT_MOD_LINEAR ∨
    r.modifier = RAW_MMAPPABLE_FD

instance (r : FdsRequest H) : Decidable r.Mappable := inferInstanceAs (Decidable (_ ∨ _ ∨ _))

/-- The descriptor is a socket that a hardware buffer comes from. -/
def Socket (r : FdsRequest H) : Prop :=
  r.modifier = AHARDWAREBUFFER_SOCKET_FD ∨ r.modifier = AHARDWAREBUFFER_FLIPPED_SOCKET_FD

instance (r : FdsRequest H) : Decidable r.Socket := inferInstanceAs (Decidable (_ ∨ _))

/-- `loriePixmapFromFds`: the private part and the stride in the header. -/
def loriePixmapFromFds (c : Calls H M) (modifyPixmapHeader : ℤ → ℤ → ℤ) (id : ℕ)
    (r : FdsRequest H) : Option (LoriePixmapPriv H M × ℤ) :=
  if 1 < r.numFds then none
  else if ¬ r.Mappable ∧ ¬ r.Socket then none
  else if r.created = false then none
  else if r.Mappable then
    (Server.loriePixmapFromFds c id
      (.file r.width (r.stride / 4 : ℕ) r.height r.fd r.offset)).map fun x =>
        (x, modifyPixmapHeader r.width ((r.stride : ℤ).bmod (2 ^ 32)))
  else
    r.received.bind fun buffer =>
      (Server.loriePixmapFromFds c id (.hardware (some buffer))).map fun x =>
        (x, modifyPixmapHeader (c.describe buffer).1 ((c.describe buffer).2.2.1 * 4))

/-- What is documented of `ModifyPixmapHeader` when there is no data: a stride that is positive goes
into the header, and in place of a negative one that of a pixmap of the width. -/
structure IsModifyPixmapHeader (modifyPixmapHeader : ℤ → ℤ → ℤ) (pixmapBytePad : ℤ → ℕ) :
    Prop where
  positive : ∀ width devKind, 0 < devKind → modifyPixmapHeader width devKind = devKind
  negative : ∀ width devKind, devKind < 0 → modifyPixmapHeader width devKind = pixmapBytePad width

/-- The stride of the rows: that of the request, if it is positive as an `int`. -/
def rowStride (pixmapBytePad : ℤ → ℕ) (r : FdsRequest H) : ℕ :=
  if 0 < r.stride ∧ r.stride < 2 ^ 31 then r.stride else pixmapBytePad r.width

/-- The mapping has the size of the rows, and the four bytes of every pixel are in it. -/
structure InsideMapping (r : FdsRequest H) (size : ℕ) (devKind : ℤ) : Prop where
  exact : size = r.stride / 4 * r.height * 4
  inside : ∀ x y : ℕ, x < r.width → y < r.height →
    0 ≤ (y : ℤ) * devKind + 4 * x ∧ (y : ℤ) * devKind + 4 * x + 4 ≤ size

variable {r : FdsRequest H} {modifyPixmapHeader : ℤ → ℤ → ℤ} {pixmapBytePad : ℤ → ℕ}

/-- The stride in the header of a pixmap of a file. -/
theorem header_eq (hm : IsModifyPixmapHeader modifyPixmapHeader pixmapBytePad)
    {r : FdsRequest H} (hpos : 0 < r.stride) :
    modifyPixmapHeader r.width ((r.stride : ℤ).bmod (2 ^ 32)) = r.rowStride pixmapBytePad := by
  have hlt := r.stride_lt
  unfold rowStride
  by_cases hstride : r.stride < 2 ^ 31
  · have hint : (r.stride : ℤ).bmod (2 ^ 32) = r.stride :=
      Int.bmod_eq_of_le (by omega) (by omega)
    rw [hint, if_pos ⟨hpos, hstride⟩]
    exact hm.positive _ _ (by omega)
  · have hint : (r.stride : ℤ).bmod (2 ^ 32) < 0 := by
      rw [Int.bmod_def]
      norm_num
      omega
    rw [if_neg fun h => hstride h.2]
    exact hm.negative _ _ hint

/-- The size that is computed is the product exactly if the number of pixels fits in an `int`. -/
theorem imageSize_eq_iff (r : FdsRequest H) :
    imageSize (r.stride / 4 : ℕ) r.height = r.stride / 4 * r.height * 4 ↔
      r.stride / 4 * r.height < 2 ^ 31 := by
  have hbound : r.stride / 4 * r.height < 2 ^ 46 := by
    have hquarter : r.stride / 4 < 2 ^ 30 := by
      have hlt := r.stride_lt
      omega
    calc r.stride / 4 * r.height < 2 ^ 30 * 2 ^ 16 :=
          Nat.mul_lt_mul'' hquarter r.height_lt
      _ = 2 ^ 46 := by norm_num
  unfold imageSize
  rw [← Nat.cast_mul]
  generalize r.stride / 4 * r.height = n at hbound ⊢
  rw [Int.bmod_def]
  norm_num
  split_ifs
  · omega
  · omega

/-- The last pixel of the last row is inside exactly if all are. -/
theorem inside_iff {width height stride size : ℕ} (hwidth : 0 < width) (hheight : 0 < height) :
    (∀ x y : ℕ, x < width → y < height →
        0 ≤ (y : ℤ) * (stride : ℤ) + 4 * x ∧ (y : ℤ) * (stride : ℤ) + 4 * x + 4 ≤ size) ↔
      (height - 1) * stride + 4 * width ≤ size := by
  constructor
  · intro h
    have hlast := (h (width - 1) (height - 1) (by omega) (by omega)).2
    have hnat : (height - 1) * stride + 4 * (width - 1) + 4 ≤ size := by exact_mod_cast hlast
    omega
  · intro h x y hx hy
    refine ⟨by positivity, ?_⟩
    have hrow : y * stride ≤ (height - 1) * stride := Nat.mul_le_mul_right _ (by omega)
    have hnat : y * stride + 4 * x + 4 ≤ size := by omega
    exact_mod_cast hnat

/-- A request about a file that is accepted. -/
theorem loriePixmapFromFds_mappable {c : Calls H M} {id : ℕ} (hr : r.Mappable)
    {x : LoriePixmapPriv H M} {devKind : ℤ}
    (h : r.loriePixmapFromFds c modifyPixmapHeader id = some (x, devKind)) :
    0 < r.width ∧ 0 < r.height ∧
      devKind = modifyPixmapHeader r.width ((r.stride : ℤ).bmod (2 ^ 32)) ∧
      ∃ b, x.buffer = some b ∧ b.size = imageSize (r.stride / 4 : ℕ) r.height := by
  unfold loriePixmapFromFds at h
  split_ifs at h
  obtain ⟨y, hy, heq⟩ := Option.map_eq_some_iff.1 h
  obtain ⟨rfl, rfl⟩ := Prod.mk.inj heq
  unfold Server.loriePixmapFromFds at hy
  dsimp only at hy
  cases hb : LorieBuffer.wrapFileDescriptor c id r.width (r.stride / 4 : ℕ) r.height
      .B8G8R8A8_UNORM r.fd r.offset with
  | none =>
    rw [hb] at hy
    cases hy
  | some b =>
    rw [hb] at hy
    have htype : BufferType.FD ≠ .AHARDWAREBUFFER := by decide
    obtain ⟨hwidth, hheight⟩ := allocate_pos htype hb
    refine ⟨by exact_mod_cast hwidth, by exact_mod_cast hheight, rfl, b, ?_, size_of_allocate hb⟩
    exact congrArg LoriePixmapPriv.buffer (Option.some.inj hy).symm

/-- **An imported pixmap stays inside its mapping if its rows do.**  Of every request about a file
that is accepted, the mapping has the size of the rows without overflow and every pixel is in it, if
and only if the number of pixels fits in an `int` and the last row ends in the mapping. -/
theorem insideMapping_iff (hm : IsModifyPixmapHeader modifyPixmapHeader pixmapBytePad)
    {c : Calls H M} {id : ℕ} (hr : r.Mappable) {x : LoriePixmapPriv H M} {devKind : ℤ}
    (h : r.loriePixmapFromFds c modifyPixmapHeader id = some (x, devKind)) :
    (∃ b, x.buffer = some b ∧ InsideMapping r b.size devKind) ↔
      r.stride / 4 * r.height < 2 ^ 31 ∧
        (r.height - 1) * r.rowStride pixmapBytePad + 4 * r.width ≤
          r.stride / 4 * r.height * 4 := by
  obtain ⟨hwidth, hheight, rfl, b, hb, hsize⟩ := loriePixmapFromFds_mappable hr h
  rcases r.stride.eq_zero_or_pos with hzero | hpos
  · -- the mapping has no byte, whatever is in the header
    have hempty : r.stride / 4 * r.height * 4 = 0 := by
      rw [hzero, Nat.zero_div, Nat.zero_mul, Nat.zero_mul]
    refine iff_of_false ?_ (by omega)
    rintro ⟨b', -, hinside⟩
    have hfirst := (hinside.inside 0 0 hwidth hheight).2
    rw [hinside.exact, hempty] at hfirst
    omega
  rw [header_eq hm hpos, ← imageSize_eq_iff, ← inside_iff hwidth hheight, ← hsize]
  constructor
  · rintro ⟨b', hb', hinside⟩
    obtain rfl := Option.some.inj (hb.symm.trans hb')
    refine ⟨hinside.exact, ?_⟩
    rw [← hinside.exact]
    exact hinside.inside
  · rintro ⟨hproduct, hinside⟩
    refine ⟨b, hb, hproduct, ?_⟩
    rw [hproduct]
    exact hinside

/-- A request for a pixmap of 10 x 10 with the given stride. -/
def tenRows (stride : Fin 1000) : FdsRequest Unit where
  numFds := 1
  fd := some 7
  width := 10
  height := 10
  stride := stride
  offset := 0
  modifier := RAW_MMAPPABLE_FD
  created := true
  received := none
  width_lt := by decide
  height_lt := by decide
  stride_lt := by omega
  offset_lt := by decide

/-- Calls that succeed, but for those about hardware buffers. -/
def mappingCalls : Calls Unit Unit where
  calloc _ := some ()
  createRegion _ := some 7
  mmap _ _ _ := some ()
  allocate _ _ _ := none
  describe _ := (0, 0, 0, .R8G8B8X8_UNORM)
  lock _ := .error 1 Int.one_ne_zero none
  unlock _ := 0
  dup := true
  alloc := true

/-- `ModifyPixmapHeader` for 32 bits per pixel, on a header whose stride is zero. -/
def wordHeader (width devKind : ℤ) : ℤ :=
  if devKind < 0 then ((width * 4).toNat : ℕ) else devKind

theorem isModifyPixmapHeader_wordHeader :
    IsModifyPixmapHeader wordHeader fun width => (width * 4).toNat where
  positive _ _ h := if_neg (not_lt.2 h.le)
  negative _ _ h := if_pos h

/-- Rows of 40 bytes are inside. -/
theorem insideMapping_forty : ∃ x devKind,
    (tenRows 40).loriePixmapFromFds mappingCalls wordHeader 0 = some (x, devKind) ∧
      ∃ b, x.buffer = some b ∧ InsideMapping (tenRows 40) b.size devKind := by
  obtain ⟨x, devKind, h⟩ : ∃ x devKind,
      (tenRows 40).loriePixmapFromFds mappingCalls wordHeader 0 = some (x, devKind) := ⟨_, _, rfl⟩
  have hfile : (tenRows 40).Mappable := Or.inr (Or.inr rfl)
  exact ⟨x, devKind, h, (insideMapping_iff isModifyPixmapHeader_wordHeader hfile h).2 (by decide)⟩

/-- A stride of 20 bytes is accepted, with which the last pixel is outside. -/
theorem not_insideMapping_twenty : ∃ x devKind b,
    (tenRows 20).loriePixmapFromFds mappingCalls wordHeader 0 = some (x, devKind) ∧
      x.buffer = some b ∧ ¬ InsideMapping (tenRows 20) b.size devKind := by
  refine ⟨_, _, _, rfl, rfl, fun h => ?_⟩
  have hlast := (h.inside 9 9 (by decide) (by decide)).2
  revert hlast
  decide

end FdsRequest

end TermuxX11.Server
