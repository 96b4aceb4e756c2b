import TermuxX11.Lib.Memory
import TermuxX11.Lib.Run

/-!
# The image of the cursor

`lorieSetCursor` puts the picture of a cursor and its geometry where the renderer finds them, in an
array of 512 x 512 pixels.  `lorieConvertCursor` makes the pixels: of a picture of colours it swaps
the channels, and of two bitmaps it makes the colours.

`drawn` goes along to say which cursor was converted last.  `BitmapBytePad` is the X server's, and a
parameter.
-/

namespace TermuxX11.Server

open CMemory Run

/-- `CursorBits`.  The picture is `argb`, or is made of `source` and `mask`. -/
structure CursorBits where
  source : List (BitVec 8)
  mask : List (BitVec 8)
  argb : Option (List (BitVec 32))
  width : ℕ
  height : ℕ
  xhot : ℕ
  yhot : ℕ

/-- `CursorRec`. -/
structure Cursor where
  bits : CursorBits
  foreRed : BitVec 16 := 0
  foreGreen : BitVec 16 := 0
  foreBlue : BitVec 16 := 0
  backRed : BitVec 16 := 0
  backGreen : BitVec 16 := 0
  backBlue : BitVec 16 := 0

namespace Cursor

/-- The pixels of the array in the shared state. -/
def shared : ℕ := 512 * 512

/-- A pixel of `argb` with the channels swapped. -/
def toRgba (p : BitVec 32) : BitVec 32 :=
  (p &&& 0xFF000000#32) ||| ((p &&& 0x00FF0000#32) >>> 16) ||| (p &&& 0x0000FF00#32) |||
    ((p &&& 0x000000FF#32) <<< 16)

/-- `fg` and `bg`. -/
def colour (red green blue : BitVec 16) : BitVec 32 :=
  ((blue.setWidth 32 &&& 0xff00#32) <<< 8) ||| (green.setWidth 32 &&& 0xff00#32) |||
    (red.setWidth 32 >>> 8)

/-- The bound of the loop over `argb`, an `int`. -/
def argbCount (b : CursorBits) : ℕ := ((b.width * b.height : ℤ).bmod (2 ^ 32)).toNat

/-- The pixel that is made of the bitmaps. -/
def bitmapPixel (stride : ℕ) (c : Cursor) (x y : ℕ) : BitVec 32 :=
  let i := y * stride + x / 8
  let bit := 1#8 <<< (x &&& 7)
  let d :=
    if c.bits.source.getD i 0 &&& bit ≠ 0 then colour c.foreRed c.foreGreen c.foreBlue
    else colour c.backRed c.backGreen c.backBlue
  if c.bits.mask.getD i 0 &&& bit ≠ 0 then d ||| 0xff000000#32 else 0

/-- Pixels are written from the beginning of the array on. -/
def fromStart (pixels : List (BitVec 32)) : List (ℕ × BitVec 32) :=
  pixels.zipIdx.map Prod.swap

/-- What `lorieConvertCursor` writes, in order. -/
def writes (bitmapBytePad : ℕ → ℕ) (c : Cursor) : List (ℕ × BitVec 32) :=
  match c.bits.argb with
  | some argb => (List.range (argbCount c.bits)).map fun i => (i, toRgba (argb.getD i 0))
  | none =>
    fromStart <| (List.range c.bits.height).flatMap fun y =>
      (List.range c.bits.width).map fun x => c.bitmapPixel (bitmapBytePad c.bits.width) x y

/-- `lorieConvertCursor`, to the array in the shared state. -/
def lorieConvertCursor (bitmapBytePad : ℕ → ℕ) (c : Cursor) (data : ℕ → BitVec 32) :
    Option (ℕ → BitVec 32) :=
  storeAll shared (c.writes bitmapBytePad) data

/-! ### Bitmaps -/

/-- A bitmap, as its rows of bytes. -/
structure Bitmap (stride height : ℕ) where
  rows : List (List (BitVec 8))
  length_rows : rows.length = height
  length_row : ∀ row ∈ rows, row.length = stride

namespace Bitmap

variable {stride height : ℕ}

/-- The bytes, as they are in memory. -/
def bytes (m : Bitmap stride height) : List (BitVec 8) := m.rows.flatten

/-- The bit in a column and a row. -/
def bit (m : Bitmap stride height) (x y : ℕ) : Bool :=
  ((m.rows.getD y []).getD (x / 8) 0).getLsbD (x % 8)

theorem getD_flatten {rows : List (List (BitVec 8))} (hrows : ∀ row ∈ rows, row.length = stride)
    {y j : ℕ} (hy : y < rows.length) (hj : j < stride) :
    rows.flatten.getD (y * stride + j) 0 = (rows.getD y []).getD j 0 := by
  induction rows generalizing y with
  | nil => cases hy
  | cons row rows ih =>
    rw [List.forall_mem_cons] at hrows
    rw [List.flatten_cons]
    cases y with
    | zero =>
      rw [Nat.zero_mul, Nat.zero_add, List.getD_append _ _ _ _ (by rw [hrows.1]; exact hj)]
      rfl
    | succ y =>
      have hindex : (y + 1) * stride + j = row.length + (y * stride + j) := by
        rw [hrows.1, Nat.add_mul, Nat.one_mul]
        omega
      rw [hindex, List.getD_append_right _ _ _ _ (Nat.le_add_right _ _), Nat.add_sub_cancel_left]
      exact ih hrows.2 (Nat.lt_of_succ_lt_succ hy)

/-- A byte of a row, by its index in memory. -/
theorem getD_bytes (m : Bitmap stride height) {x y : ℕ} (hx : x / 8 < stride) (hy : y < height) :
    m.bytes.getD (y * stride + x / 8) 0 = (m.rows.getD y []).getD (x / 8) 0 :=
  getD_flatten m.length_row (by rwa [m.length_rows]) hx

/-- The mask of the code picks the bit. -/
theorem and_bit_ne_zero_iff (b : BitVec 8) (x : ℕ) :
    b &&& (1#8 <<< (x &&& 7)) ≠ 0 ↔ b.getLsbD (x % 8) = true := by
  have hmod : x &&& 7 = x % 8 := Nat.and_two_pow_sub_one_eq_mod x 3
  have hlt : x % 8 < 8 := Nat.mod_lt _ (by decide)
  rw [hmod]
  generalize x % 8 = k at hlt
  revert b
  interval_cases k
  all_goals decide +kernel

end Bitmap

/-! ### Pictures that are made of bitmaps -/

/-- An opaque pixel of `argb`, with the high bytes of a colour. -/
def solid (red green blue : BitVec 16) : BitVec 32 :=
  0xff000000#32 ||| ((red.setWidth 32 >>> 8) <<< 16) ||| ((green.setWidth 32 >>> 8) <<< 8) |||
    (blue.setWidth 32 >>> 8)

theorem toRgba_solid (red green blue : BitVec 16) :
    toRgba (solid red green blue) = colour red green blue ||| 0xff000000#32 := by
  apply BitVec.eq_of_getLsbD_eq
  intro i hi
  unfold toRgba solid colour
  interval_cases i
  all_goals simp

section

variable {stride height : ℕ} (source mask : Bitmap stride height)

/-- The pixel that the bits of a two-colour cursor stand for. -/
def argbPixel (c : Cursor) (x y : ℕ) : BitVec 32 :=
  if mask.bit x y then
    if source.bit x y then solid c.foreRed c.foreGreen c.foreBlue
    else solid c.backRed c.backGreen c.backBlue
  else 0

/-- The picture, by rows. -/
def argbPixels (c : Cursor) : List (BitVec 32) :=
  (List.range c.bits.height).flatMap fun y =>
    (List.range c.bits.width).map fun x => c.argbPixel source mask x y

/-- The cursor with the same picture in `argb`. -/
def toArgb (c : Cursor) : Cursor :=
  { c with bits := { c.bits with argb := some (c.argbPixels source mask) } }

/-- The cursor has its picture in two bitmaps. -/
structure TwoColour (c : Cursor) : Prop where
  argb : c.bits.argb = none
  source : c.bits.source = source.bytes
  mask : c.bits.mask = mask.bytes

variable {source mask} {c : Cursor}

theorem bitmapPixel_eq (hc : TwoColour source mask c) {x y : ℕ} (hx : x / 8 < stride)
    (hy : y < height) : c.bitmapPixel stride x y = toRgba (c.argbPixel source mask x y) := by
  have hbit : ∀ m : Bitmap stride height,
      m.bytes.getD (y * stride + x / 8) 0 &&& (1#8 <<< (x &&& 7)) ≠ 0 ↔ m.bit x y = true := by
    intro m
    rw [m.getD_bytes hx hy]
    exact Bitmap.and_bit_ne_zero_iff _ x
  unfold bitmapPixel argbPixel
  dsimp only
  rw [hc.source, hc.mask, if_congr (hbit source) rfl rfl, if_congr (hbit mask) rfl rfl]
  cases mask.bit x y with
  | false =>
    rw [if_neg Bool.false_ne_true, if_neg Bool.false_ne_true]
    decide
  | true =>
    rw [if_pos rfl, if_pos rfl]
    cases source.bit x y with
    | true => exact (toRgba_solid _ _ _).symm
    | false => exact (toRgba_solid _ _ _).symm

end

/-- The loop over `argb` writes the pixels from the start. -/
theorem map_range_eq_fromStart (f : BitVec 32 → BitVec 32) (pixels : List (BitVec 32)) :
    ((List.range pixels.length).map fun i => (i, f (pixels.getD i 0))) =
      fromStart (pixels.map f) := by
  unfold fromStart
  refine List.ext_getElem (by simp) fun i hi hi' => ?_
  simp only [List.length_map, List.length_range] at hi
  simp [List.getElem?_eq_getElem hi]

theorem length_argbPixels {stride height : ℕ} (source mask : Bitmap stride height) (c : Cursor) :
    (c.argbPixels source mask).length = c.bits.width * c.bits.height := by
  simp [argbPixels, List.length_flatMap, Nat.mul_comm]

theorem argbCount_eq {b : CursorBits} (h : b.width * b.height < 2 ^ 31) :
    argbCount b = b.width * b.height := by
  unfold argbCount
  rw [← Nat.cast_mul, Int.bmod_eq_of_le (by omega) (by omega), Int.toNat_natCast]

/-- A picture of bitmaps has all its pixels written. -/
theorem length_writes {c : Cursor} (hargb : c.bits.argb = none) (bitmapBytePad : ℕ → ℕ) :
    (c.writes bitmapBytePad).length = c.bits.height * c.bits.width := by
  unfold writes
  rw [hargb]
  simp [fromStart, List.length_flatMap]

/-- **A two-colour cursor looks like the cursor of colours that it stands for.**  For every cursor
whose size an `int` holds, every pair of bitmaps whose rows have a bit for each pixel and all
colours, the pixels that are written are those that are written for the cursor with the same picture
in `argb`. -/
theorem writes_toArgb {bitmapBytePad : ℕ → ℕ} (hpad : ∀ width, width ≤ 8 * bitmapBytePad width)
    {c : Cursor} {source mask : Bitmap (bitmapBytePad c.bits.width) c.bits.height}
    (hc : TwoColour source mask c) (hsize : c.bits.width * c.bits.height < 2 ^ 31) :
    c.writes bitmapBytePad = (c.toArgb source mask).writes bitmapBytePad := by
  have hpixels : ((List.range c.bits.height).flatMap fun y =>
      (List.range c.bits.width).map fun x => c.bitmapPixel (bitmapBytePad c.bits.width) x y) =
        (c.argbPixels source mask).map toRgba := by
    unfold argbPixels
    rw [List.map_flatMap]
    refine List.flatMap_congr fun y hy => ?_
    rw [List.map_map]
    refine List.map_congr_left fun x hx => ?_
    rw [List.mem_range] at hx hy
    have hwidth := hpad c.bits.width
    exact bitmapPixel_eq hc (by omega) hy
  have hargb : (c.toArgb source mask).bits.argb = some (c.argbPixels source mask) := rfl
  have hcount : argbCount (c.toArgb source mask).bits = (c.argbPixels source mask).length := by
    rw [length_argbPixels]
    exact argbCount_eq hsize
  unfold writes
  rw [hc.argb, hargb]
  dsimp only
  rw [hpixels, hcount, map_range_eq_fromStart]

/-- A bitmap whose bytes are all the same. -/
def stripes (b : BitVec 8) (stride height : ℕ) : Bitmap stride height where
  rows := List.replicate height (List.replicate stride b)
  length_rows := List.length_replicate
  length_row _ h := by rw [List.eq_of_mem_replicate h, List.length_replicate]

/-- `BitmapBytePad` where rows are padded to words. -/
def wordPad (width : ℕ) : ℕ := (width + 31) / 32 * 4

theorem le_wordPad (width : ℕ) : width ≤ 8 * wordPad width := by
  unfold wordPad
  omega

/-- A cursor of the size in stripes: of eight columns four are red, three are blue and the last is
clear. -/
def stripedCursor (width height : ℕ) : Cursor where
  bits :=
    { source := (stripes 0x0f (wordPad width) height).bytes
      mask := (stripes 0x7f (wordPad width) height).bytes
      argb := none
      width := width
      height := height
      xhot := 0
      yhot := 0 }
  foreRed := 0xffff
  backBlue := 0xffff

theorem twoColour_stripedCursor (width height : ℕ) :
    TwoColour (stripes 0x0f (wordPad width) height) (stripes 0x7f (wordPad width) height)
      (stripedCursor width height) := ⟨rfl, rfl, rfl⟩

/-- A cursor of 13 x 5. -/
theorem writes_toArgb_thirteen :
    (stripedCursor 13 5).writes wordPad =
      ((stripedCursor 13 5).toArgb (stripes 0x0f (wordPad 13) 5)
        (stripes 0x7f (wordPad 13) 5)).writes wordPad :=
  writes_toArgb le_wordPad (twoColour_stripedCursor 13 5) (by decide)

/-- Of a picture of 65535 x 65535 in `argb` nothing is written, as the number of pixels is not an
`int`. -/
theorem writes_ne_toArgb_largest :
    TwoColour (stripes 0x0f (wordPad 65535) 65535) (stripes 0x7f (wordPad 65535) 65535)
        (stripedCursor 65535 65535) ∧
      (stripedCursor 65535 65535).writes wordPad ≠
        ((stripedCursor 65535 65535).toArgb (stripes 0x0f (wordPad 65535) 65535)
          (stripes 0x7f (wordPad 65535) 65535)).writes wordPad := by
  refine ⟨twoColour_stripedCursor 65535 65535, fun h => ?_⟩
  have hlength := congrArg List.length h
  have hcount : argbCount (stripedCursor 65535 65535).bits = 0 := by
    unfold argbCount stripedCursor
    rw [Int.bmod_def]
    norm_num
  have hargb : (((stripedCursor 65535 65535).toArgb (stripes 0x0f (wordPad 65535) 65535)
      (stripes 0x7f (wordPad 65535) 65535)).writes wordPad).length = 0 := by
    refine (List.length_map _).trans ?_
    rw [List.length_range]
    exact hcount
  rw [hargb, length_writes rfl] at hlength
  exact absurd hlength (by decide)

/-! ### The shared state -/

theorem mem_fromStart {pixels : List (BitVec 32)} {w : ℕ × BitVec 32} :
    w ∈ fromStart pixels ↔ pixels[w.1]? = some w.2 := by
  unfold fromStart
  rw [List.mem_map]
  constructor
  · rintro ⟨p, hp, rfl⟩
    exact List.mem_zipIdx_iff_getElem?.1 hp
  · intro h
    exact ⟨w.swap, List.mem_zipIdx_iff_getElem?.2 h, Prod.swap_swap w⟩

/-- A pixel that is written is one of the size. -/
theorem lt_of_mem_writes {bitmapBytePad : ℕ → ℕ} {c : Cursor}
    (hsize : c.bits.width * c.bits.height < 2 ^ 31) {w : ℕ × BitVec 32}
    (hw : w ∈ c.writes bitmapBytePad) : w.1 < c.bits.width * c.bits.height := by
  cases hargb : c.bits.argb with
  | some argb =>
    unfold writes at hw
    rw [hargb] at hw
    obtain ⟨i, hi, rfl⟩ := List.mem_map.1 hw
    rw [← argbCount_eq hsize]
    exact List.mem_range.1 hi
  | none =>
    have hlength := length_writes hargb bitmapBytePad
    unfold writes at hw hlength
    rw [hargb] at hw hlength
    rw [mul_comm, ← hlength]
    obtain ⟨hlt, -⟩ := List.getElem?_eq_some_iff.1 (mem_fromStart.1 hw)
    unfold fromStart
    rwa [List.length_map, List.length_zipIdx]

/-- One pixel is written at an index. -/
theorem writes_inj {bitmapBytePad : ℕ → ℕ} {c : Cursor} {w w' : ℕ × BitVec 32}
    (hw : w ∈ c.writes bitmapBytePad) (hw' : w' ∈ c.writes bitmapBytePad) (h : w'.1 = w.1) :
    w'.2 = w.2 := by
  unfold writes at hw hw'
  cases hargb : c.bits.argb with
  | some argb =>
    rw [hargb] at hw hw'
    obtain ⟨i, -, rfl⟩ := List.mem_map.1 hw
    obtain ⟨i', -, rfl⟩ := List.mem_map.1 hw'
    exact congrArg (fun i => toRgba (argb.getD i 0)) h
  | none =>
    rw [hargb] at hw hw'
    have hpixel := mem_fromStart.1 hw'
    rw [h] at hpixel
    exact Option.some.inj (hpixel.symm.trans (mem_fromStart.1 hw))

/-- A cursor that the array has room for is converted, and its pixels are in the array. -/
theorem lorieConvertCursor_spec (bitmapBytePad : ℕ → ℕ) {c : Cursor}
    (hsize : c.bits.width * c.bits.height ≤ shared) (data : ℕ → BitVec 32) :
    ∃ data', c.lorieConvertCursor bitmapBytePad data = some data' ∧
      ∀ w ∈ c.writes bitmapBytePad, data' w.1 = w.2 := by
  have hint : c.bits.width * c.bits.height < 2 ^ 31 := hsize.trans_lt (by decide)
  refine ⟨_, storeAll_eq_some_iff.2 ⟨fun w hw => ?_, rfl⟩, fun w hw => ?_⟩
  · exact (lt_of_mem_writes hint hw).trans_le hsize
  · exact foldl_update_apply (fun w' hw' h => writes_inj hw hw' h) (Or.inl ⟨w, hw, rfl⟩)

end Cursor

/-- The cursor of `lorie_shared_server_state`, with the cursor that was converted last. -/
structure SharedCursor where
  x : BitVec 32 := 0
  y : BitVec 32 := 0
  xhot : ℕ := 0
  yhot : ℕ := 0
  width : ℕ := 0
  height : ℕ := 0
  bits : ℕ → BitVec 32 := fun _ => 0
  updated : Bool := false
  moved : Bool := false
  drawn : Option Cursor := none

/-- The arguments of `lorieSetCursor`. -/
structure SetCursor where
  cursor : Option Cursor
  x : ℤ
  y : ℤ

namespace SharedCursor

open Cursor

/-- `lorieMoveCursor`: an `int` is stored as a `uint32_t`. -/
def lorieMoveCursor (x y : ℤ) (s : SharedCursor) : SharedCursor :=
  { s with x := .ofInt 32 x, y := .ofInt 32 y, moved := true }

/-- The cursor that is shown in place of one that is too large. -/
def replaced (rootCursor : Cursor) (c : Cursor) : Cursor :=
  if 512 ≤ c.bits.width ∨ 512 ≤ c.bits.height then rootCursor else c

/-- `lorieSetCursor`. -/
def lorieSetCursor (bitmapBytePad : ℕ → ℕ) (rootCursor : Cursor) (s : SharedCursor)
    (k : SetCursor) : Option SharedCursor :=
  -- the geometry is that of the cursor that was asked for
  let bits := k.cursor.map Cursor.bits
  let pCurs := k.cursor.map (replaced rootCursor)
  let set :=
    match pCurs, bits with
    | some pCurs, some bits =>
      (lorieConvertCursor bitmapBytePad pCurs s.bits).map fun data =>
        { s with
          xhot := bits.xhot
          yhot := bits.yhot
          width := bits.width
          height := bits.height
          bits := data
          drawn := some pCurs }
    | _, _ => some { s with xhot := 0, yhot := 0, width := 0, height := 0 }
  set.map fun s => { s with updated := true }.lorieMoveCursor k.x k.y

/-- The cursor is smaller than the array in both directions. -/
def Small (c : Cursor) : Prop := c.bits.width < 512 ∧ c.bits.height < 512

/-- The geometry is that of the cursor, and its pixels are in the array. -/
structure Shows (bitmapBytePad : ℕ → ℕ) (s : SharedCursor) (c : Cursor) : Prop where
  xhot : s.xhot = c.bits.xhot
  yhot : s.yhot = c.bits.yhot
  width : s.width = c.bits.width
  height : s.height = c.bits.height
  pixels : ∀ w ∈ c.writes bitmapBytePad, s.bits w.1 = w.2

/-- There is no cursor, or the one that was converted last is shown; the array has room for what the
renderer reads. -/
structure Consistent (bitmapBytePad : ℕ → ℕ) (s : SharedCursor) : Prop where
  room : s.width * s.height ≤ shared
  geometry : (s.xhot = 0 ∧ s.yhot = 0 ∧ s.width = 0 ∧ s.height = 0) ∨
    ∃ c, s.drawn = some c ∧ Shows bitmapBytePad s c

variable {bitmapBytePad : ℕ → ℕ} {rootCursor c : Cursor} {s : SharedCursor} {k : SetCursor}

theorem Small.le_shared (h : Small c) : c.bits.width * c.bits.height ≤ shared :=
  Nat.mul_le_mul h.1.le h.2.le

theorem small_replaced (hroot : Small rootCursor) (c : Cursor) : Small (replaced rootCursor c) := by
  unfold replaced
  split_ifs with hlarge
  · exact hroot
  · rw [not_or, not_le, not_le] at hlarge
    exact hlarge

/-- Without a cursor nothing is shown. -/
theorem lorieSetCursor_none (hk : k.cursor = none) :
    ∃ t, lorieSetCursor bitmapBytePad rootCursor s k = some t ∧ Consistent bitmapBytePad t := by
  unfold lorieSetCursor
  rw [hk]
  exact ⟨_, rfl, Nat.zero_le _, Or.inl ⟨rfl, rfl, rfl, rfl⟩⟩

/-- The pixels are those of the cursor that is shown, the geometry is that of the one that was asked
for. -/
theorem lorieSetCursor_some (bitmapBytePad : ℕ → ℕ) (s : SharedCursor) (hroot : Small rootCursor)
    (hk : k.cursor = some c) :
    ∃ t, lorieSetCursor bitmapBytePad rootCursor s k = some t ∧
      t.drawn = some (replaced rootCursor c) ∧
      (∀ w ∈ (replaced rootCursor c).writes bitmapBytePad, t.bits w.1 = w.2) ∧
      t.xhot = c.bits.xhot ∧ t.yhot = c.bits.yhot ∧ t.width = c.bits.width ∧
      t.height = c.bits.height := by
  obtain ⟨data, hdata, hpixels⟩ := lorieConvertCursor_spec bitmapBytePad
    (small_replaced hroot c).le_shared s.bits
  unfold lorieSetCursor
  rw [hk]
  simp only [Option.map_some, hdata]
  exact ⟨_, rfl, rfl, hpixels, rfl, rfl, rfl, rfl⟩

theorem lorieSetCursor_total (hroot : Small rootCursor) (s : SharedCursor) (k : SetCursor) :
    ∃ t, lorieSetCursor bitmapBytePad rootCursor s k = some t := by
  cases hk : k.cursor with
  | none =>
    obtain ⟨t, ht, -⟩ := lorieSetCursor_none hk
    exact ⟨t, ht⟩
  | some c =>
    obtain ⟨t, ht, -⟩ := lorieSetCursor_some bitmapBytePad s hroot hk
    exact ⟨t, ht⟩

/-- What is published after a call is consistent exactly if the cursor was small. -/
theorem consistent_step_iff (hroot : Small rootCursor) {t : SharedCursor}
    (ht : lorieSetCursor bitmapBytePad rootCursor s k = some t) :
    Consistent bitmapBytePad t ↔ ∀ c, k.cursor = some c → Small c := by
  cases hk : k.cursor with
  | none =>
    obtain ⟨t', ht', hconsistent⟩ := lorieSetCursor_none (s := s) hk
    obtain rfl := Option.some.inj (ht.symm.trans ht')
    exact iff_of_true hconsistent nofun
  | some c =>
    obtain ⟨t', ht', hdrawn, hpixels, hxhot, hyhot, hwidth, hheight⟩ :=
      lorieSetCursor_some bitmapBytePad s hroot hk
    obtain rfl := Option.some.inj (ht.symm.trans ht')
    constructor
    · rintro ⟨-, hgeometry⟩ c' hc'
      obtain rfl := Option.some.inj hc'
      rcases hgeometry with ⟨-, -, hnowidth, hnoheight⟩ | ⟨c', hc', hshows⟩
      · refine ⟨?_, ?_⟩
        · rw [← hwidth, hnowidth]
          decide
        · rw [← hheight, hnoheight]
          decide
      · obtain rfl := Option.some.inj (hdrawn.symm.trans hc')
        have hsmall := small_replaced hroot c
        unfold Small at hsmall ⊢
        rwa [← hshows.width, ← hshows.height, hwidth, hheight] at hsmall
    · intro h
      have hsmall := h c rfl
      have hsame : replaced rootCursor c = c := by
        unfold replaced
        rw [if_neg]
        rw [not_or, not_le, not_le]
        exact hsmall
      rw [hsame] at hdrawn hpixels
      refine ⟨?_, Or.inr ⟨c, hdrawn, hxhot, hyhot, hwidth, hheight, hpixels⟩⟩
      rw [hwidth, hheight]
      exact hsmall.le_shared

/-- **The image of the cursor is consistent unless a large one is set.**  In every run of calls no
pixel is written outside of the array; and after each call the geometry is that of the cursor whose
pixels are in the array, and within it, if and only if no call is about a cursor of 512 or more in
one direction. -/
theorem consistent_iff (hroot : Small rootCursor) (hs : Consistent bitmapBytePad s)
    (ks : List SetCursor) :
    (∃ t, tryExec (lorieSetCursor bitmapBytePad rootCursor) s ks = some t) ∧
      ((∀ ks₁ ks₂ t, ks = ks₁ ++ ks₂ →
          tryExec (lorieSetCursor bitmapBytePad rootCursor) s ks₁ = some t →
          Consistent bitmapBytePad t) ↔
        ∀ k ∈ ks, ∀ c, k.cursor = some c → Small c) := by
  obtain ⟨t, ht⟩ := tryExec_total (I := fun _ => True) (P := fun _ _ => True)
    (fun s k _ _ => (lorieSetCursor_total hroot s k).imp fun t ht => ⟨ht, trivial⟩) trivial
    (tryAlways_true s ks)
  refine ⟨⟨t, ht⟩, ?_⟩
  rw [← tryAlways_iff_forall ht]
  exact reached_iff_tryAlways (fun s k t _ ht => consistent_step_iff hroot ht) hs ht

/-- The start. -/
theorem consistent_start (bitmapBytePad : ℕ → ℕ) : Consistent bitmapBytePad {} :=
  ⟨Nat.zero_le _, Or.inl ⟨rfl, rfl, rfl, rfl⟩⟩

/-- A cursor of 24 x 24 is shown, with a root cursor of 16 x 16. -/
theorem consistent_small :
    ∃ t, tryExec (lorieSetCursor wordPad (stripedCursor 16 16)) {}
        [⟨some (stripedCursor 24 24), 5, 6⟩] = some t ∧ Consistent wordPad t := by
  have hroot : Small (stripedCursor 16 16) := ⟨by decide, by decide⟩
  have h := consistent_iff hroot (consistent_start wordPad) [⟨some (stripedCursor 24 24), 5, 6⟩]
  obtain ⟨t, ht⟩ := h.1
  refine ⟨t, ht, h.2.2 ?_ _ [] t (List.append_nil _).symm ht⟩
  intro k hk c hc
  obtain rfl := List.mem_singleton.1 hk
  obtain rfl := Option.some.inj hc
  exact ⟨by decide, by decide⟩

/-- After a cursor of 600 x 600 the renderer is to read 360000 pixels, of an array with the pixels
of the root cursor. -/
theorem not_consistent_large :
    ∃ t, tryExec (lorieSetCursor wordPad (stripedCursor 16 16)) {}
        [⟨some (stripedCursor 600 600), 5, 6⟩] = some t ∧
      t.width * t.height = 360000 ∧ ¬ Consistent wordPad t := by
  have hroot : Small (stripedCursor 16 16) := ⟨by decide, by decide⟩
  obtain ⟨t, ht, -, -, -, -, hwidth, hheight⟩ :=
    lorieSetCursor_some (k := ⟨some (stripedCursor 600 600), 5, 6⟩) wordPad {} hroot rfl
  have hsize : t.width * t.height = 360000 := by
    rw [hwidth, hheight]
    rfl
  refine ⟨t, ?_, hsize, fun h => ?_⟩
  · rw [tryExec, ht]
    rfl
  · have hroom := h.room
    rw [hsize] at hroom
    exact absurd hroom (by decide)

end SharedCursor

end TermuxX11.Server
