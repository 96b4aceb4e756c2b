import Mathlib

/-!
# The viewport and the input transform

`rendererRedrawLocked` draws a part of the root buffer into a rectangle of the surface and reports
both to `LorieView`, which takes touches in the rectangle to coordinates of the X screen.

The code does the same for both axes, so an axis is a structure here.  Floats are exact rational
numbers.
-/

namespace TermuxX11.Activity.Viewport

/-! ### The renderer -/

/-- `viewportX`, `viewportW`, `expectedW` and `zoomSourceLeft`, or those of the other axis. -/
structure Axis where
  start : ℤ
  size : ℤ
  expected : ℤ
  zoomSource : ℚ := 0
  deriving DecidableEq

structure Renderer where
  x : Axis
  y : Axis
  zoomPercent : ℤ := 100
  deriving DecidableEq

/-- What the renderer knows of a root buffer.  The texture of shared memory has a column for each
pixel of the stride, the other textures have the width of the buffer. -/
structure Desc where
  width : ℤ
  height : ℤ
  stride : ℤ
  isFd : Bool
  width_pos : 0 < width
  height_pos : 0 < height
  le_stride : width ≤ stride

/-- One axis of a frame: where it is on the surface, the part of the buffer that is drawn there,
and the size of that part as it is reported. -/
structure Span where
  start : ℤ
  size : ℤ
  source : ℚ
  sourceSize : ℚ
  logicalSourceSize : ℚ
  deriving DecidableEq

def CVT_H_GRANULARITY : ℤ := 8

def alignedExpectedW (expectedW : ℤ) : ℤ := expectedW - expectedW.tmod CVT_H_GRANULARITY

/-- The buffer is of the expected size. -/
def accepts (expectedW expectedH : ℤ) (desc : Desc) : Prop :=
  expectedW ≠ 0 ∧ expectedH ≠ 0 ∧ desc.height = expectedH ∧
    (desc.width = alignedExpectedW expectedW ∨ desc.width = expectedW)

instance (expectedW expectedH : ℤ) (desc : Desc) : Decidable (accepts expectedW expectedH desc) :=
  inferInstanceAs (Decidable (_ ∧ _))

/-- The conversion of a float to an `int`. -/
def truncate (q : ℚ) : ℤ := if 0 ≤ q then ⌊q⌋ else ⌈q⌉

/-- `destinationScaleX`: the picture grows around its center up to the edge of the surface. -/
def destinationScale (requestedScale center : ℚ) (size surface : ℤ) : ℚ :=
  let scale := min requestedScale (2 * min center (surface - center) / size)
  if scale < 1 then 1 else scale

/-- The part of the screen that is shown follows the cursor when that comes near its edge. -/
def pan (zoomSource sourceSize cursor expected : ℚ) : ℚ :=
  let edge := sourceSize * (5 / 100)
  let source :=
    if cursor < zoomSource + edge then cursor - edge
    else if cursor > zoomSource + sourceSize - edge then cursor - sourceSize + edge
    else zoomSource
  if source < 0 then 0
  else if source + sourceSize > expected then expected - sourceSize
  else source

/-- One axis of `rendererRedrawLocked`; `hasViewport` says that the viewport is not empty. -/
def Axis.span (a : Axis) (zoomPercent : ℤ) (hasViewport : Bool) (surface cursor buffer : ℤ) :
    Span :=
  let requestedScale : ℚ := zoomPercent / 100
  let center : ℚ := a.start + a.size / 2
  let zoomed : Bool := zoomPercent > 100 && hasViewport
  let scale := if zoomed then destinationScale requestedScale center a.size surface else 1
  let size := if zoomed then truncate (a.size * scale + 1 / 2) else a.size
  let start := if zoomed then truncate (center - size / 2 + 1 / 2) else a.start
  if zoomPercent > 100 then
    let sourceSize := a.expected * scale / requestedScale
    { start, size, source := pan a.zoomSource sourceSize cursor a.expected, sourceSize,
      logicalSourceSize := sourceSize }
  else
    { start, size, source := 0, sourceSize := buffer, logicalSourceSize := a.expected }

/-- `destinationScaleX`, or that of the other axis. -/
def Axis.scale (a : Axis) (zoomPercent : ℤ) (hasViewport : Bool) (surface : ℤ) : ℚ :=
  if zoomPercent > 100 && hasViewport then
    destinationScale (zoomPercent / 100) (a.start + a.size / 2) a.size surface
  else 1

/-- How much of the screen is shown with zoom. -/
def Axis.zoomedSize (a : Axis) (zoomPercent : ℤ) (hasViewport : Bool) (surface : ℤ) : ℚ :=
  a.expected * a.scale zoomPercent hasViewport surface / (zoomPercent / 100)

/-- What is drawn, and the renderer after it; nothing if the buffer is not accepted. -/
def Renderer.redraw (r : Renderer) (surfaceW surfaceH cursorX cursorY : ℤ) (desc : Desc) :
    Option (Renderer × Span × Span) :=
  if accepts r.x.expected r.y.expected desc then
    let hasViewport : Bool := r.x.size > 0 && r.y.size > 0
    let spanX := r.x.span r.zoomPercent hasViewport surfaceW cursorX desc.width
    let spanY := r.y.span r.zoomPercent hasViewport surfaceH cursorY desc.height
    some
      ({ r with x := { r.x with zoomSource := spanX.source },
                y := { r.y with zoomSource := spanY.source } },
        spanX, spanY)
  else none

/-- `rendererSetViewport`. -/
def Renderer.setViewport (r : Renderer) (x y w h ew eh : ℤ) : Renderer :=
  { r with
    x := { r.x with start := x, size := w, expected := ew }
    y := { r.y with start := y, size := h, expected := eh } }

/-- The place in a texture that is drawn at a point of a span, for texture coordinates from `u₀` to
`u₁`.  Outside the texture its edge is drawn. -/
def Span.sample (f : Span) (u₀ u₁ texture p : ℚ) : ℚ :=
  min 1 (max 0 (u₀ + (p - f.start) / f.size * (u₁ - u₀))) * texture

/-- The width of the texture that is made of a buffer. -/
def Desc.textureWidth (desc : Desc) : ℤ := if desc.isFd then desc.stride else desc.width

/-- The column of the buffer that is drawn at a point. -/
def drawnX (desc : Desc) (f : Span) (p : ℚ) : ℚ :=
  let xfactor : ℚ := if desc.isFd then desc.width / desc.stride else 1
  f.sample (f.source / desc.width * xfactor) ((f.source + f.sourceSize) / desc.width * xfactor)
    (if desc.isFd then desc.stride else desc.width) p

/-- The row of the buffer that is drawn at a point. -/
def drawnY (desc : Desc) (f : Span) (p : ℚ) : ℚ :=
  f.sample (f.source / desc.height) ((f.source + f.sourceSize) / desc.height) desc.height p

/-! ### The view -/

/-- `inputViewport` and the part of the screen that it shows, along one axis. -/
structure Input where
  start : ℤ := 0
  size : ℤ := 0
  source : ℚ := 0
  sourceSize : ℚ := 0

/-- `setRendererViewport`. -/
def Input.setRendererViewport (f : Span) : Input where
  start := f.start
  size := f.size
  source := f.source
  sourceSize := f.logicalSourceSize

/-- `getInputTransform`, applied to a point. -/
def Input.transform (i : Input) (p : ℚ) : ℚ := (p - i.start) * (i.sourceSize / i.size) + i.source

/-- The input state of `LorieView`. -/
structure View where
  x : Input := {}
  y : Input := {}

/-- The size of the picture in the space that is there for it, for a screen of `px` by `py`. -/
def drawSize (displayStretch : Bool) (availableW availableH px py : Int32) : Int32 × Int32 :=
  if displayStretch then (availableW, availableH)
  else if availableW > availableH * px / py then (availableH * px / py, availableH)
  else (availableW, availableW * py / px)

/-- `contentInsets`. -/
structure Insets where
  left : Int32
  top : Int32
  right : Int32
  bottom : Int32

/-- `updateViewport`, with what it passes to `setViewport`; `px` and `py` are what
`getDimensionsFromSettings` gives. -/
def View.updateViewport (v : View) (rendererZoom : ℤ) (displayStretch : Bool)
    (surfaceW surfaceH : Int32) (insets : Insets) (px py : Int32) :
    Option (View × Int32 × Int32 × Int32 × Int32) :=
  let availableW := max 0 (surfaceW - insets.left - insets.right)
  let availableH := max 0 (surfaceH - insets.top - insets.bottom)
  if availableW = 0 ∨ availableH = 0 then none
  else
    let (drawW, drawH) := drawSize displayStretch availableW availableH px py
    let left := insets.left + (availableW - drawW) / 2
    let top := insets.top + (availableH - drawH) / 2
    let v' : View :=
      if rendererZoom = 100 ∨ v.x.sourceSize = 0 ∨ v.y.sourceSize = 0 then
        { x := ⟨left.toInt, drawW.toInt, 0, px.toInt⟩, y := ⟨top.toInt, drawH.toInt, 0, py.toInt⟩ }
      else v
    some (v', left, top, drawW, drawH)

/-! ### Where a touch goes -/

/-- The point is in the part of the surface that is drawn. -/
def Span.Contains (f : Span) (p : ℚ) : Prop := f.start ≤ p ∧ p ≤ f.start + f.size ∧ 0 < f.size

namespace Span

variable {f : Span} {p : ℚ}

/-- How far into the span a point is. -/
def ratio (f : Span) (p : ℚ) : ℚ := (p - f.start) / f.size

theorem Contains.ratio_mem (h : f.Contains p) : 0 ≤ f.ratio p ∧ f.ratio p ≤ 1 := by
  obtain ⟨hleft, hright, hsize⟩ := h
  have hpos : (0 : ℚ) < f.size := by exact_mod_cast hsize
  constructor
  · exact div_nonneg (by linarith) hpos.le
  · rw [ratio, div_le_one hpos]
    linarith

/-- The part of a buffer that is drawn is found in its texture, as long as it is in the texture. -/
theorem sample_eq {buffer texture : ℚ} (hbuffer : 0 < buffer) (htexture : 0 < texture)
    (hsource : 0 ≤ f.source) (hsize : 0 ≤ f.sourceSize) (hend : f.source + f.sourceSize ≤ texture)
    (hp : f.Contains p) :
    f.sample (f.source / buffer * (buffer / texture))
        ((f.source + f.sourceSize) / buffer * (buffer / texture)) texture p =
      f.source + f.ratio p * f.sourceSize := by
  obtain ⟨hratio, hratio'⟩ := hp.ratio_mem
  have hu : f.source / buffer * (buffer / texture) + f.ratio p *
      ((f.source + f.sourceSize) / buffer * (buffer / texture) -
        f.source / buffer * (buffer / texture)) =
      (f.source + f.ratio p * f.sourceSize) / texture := by
    field_simp
    ring
  have hlow : 0 ≤ f.source + f.ratio p * f.sourceSize := by positivity
  have hhigh : f.source + f.ratio p * f.sourceSize ≤ texture := by nlinarith
  rw [sample]
  show min 1 (max 0 (f.source / buffer * (buffer / texture) + f.ratio p *
    ((f.source + f.sourceSize) / buffer * (buffer / texture) -
      f.source / buffer * (buffer / texture)))) * texture = _
  rw [hu, max_eq_right (div_nonneg hlow htexture.le),
    min_eq_right ((div_le_one htexture).2 hhigh), div_mul_cancel₀ _ htexture.ne']

/-- Nothing behind the texture is drawn. -/
theorem sample_le {u₀ u₁ texture : ℚ} (htexture : 0 < texture) :
    f.sample u₀ u₁ texture p ≤ texture := by
  rw [sample]
  exact mul_le_of_le_one_left htexture.le (min_le_left _ _)

end Span

section

variable {desc : Desc} {f : Span} {p : ℚ}

theorem Desc.textureWidth_pos (desc : Desc) : 0 < desc.textureWidth := by
  have hwidth := desc.width_pos
  have hstride := desc.le_stride
  rw [textureWidth]
  split_ifs
  · omega
  · exact hwidth

theorem Desc.width_le_textureWidth (desc : Desc) : desc.width ≤ desc.textureWidth := by
  rw [textureWidth]
  split_ifs
  · exact desc.le_stride
  · exact le_rfl

/-- The columns are those of the texture, whatever kind of buffer it is. -/
theorem drawnX_eq_sample :
    drawnX desc f p = f.sample (f.source / desc.width * (desc.width / desc.textureWidth))
      ((f.source + f.sourceSize) / desc.width * (desc.width / desc.textureWidth))
      desc.textureWidth p := by
  have hwidth : (desc.width : ℚ) ≠ 0 := by exact_mod_cast desc.width_pos.ne'
  rw [drawnX, Desc.textureWidth]
  cases desc.isFd with
  | true => simp
  | false => simp [div_self hwidth]

theorem drawnX_eq (hsource : 0 ≤ f.source) (hsize : 0 ≤ f.sourceSize)
    (hend : f.source + f.sourceSize ≤ desc.textureWidth) (hp : f.Contains p) :
    drawnX desc f p = f.source + f.ratio p * f.sourceSize := by
  rw [drawnX_eq_sample]
  exact Span.sample_eq (by exact_mod_cast desc.width_pos)
    (by exact_mod_cast desc.textureWidth_pos) hsource hsize hend hp

theorem drawnX_le : drawnX desc f p ≤ desc.textureWidth := by
  rw [drawnX_eq_sample]
  exact Span.sample_le (by exact_mod_cast desc.textureWidth_pos)

theorem drawnY_eq (hsource : 0 ≤ f.source) (hsize : 0 ≤ f.sourceSize)
    (hend : f.source + f.sourceSize ≤ desc.height) (hp : f.Contains p) :
    drawnY desc f p = f.source + f.ratio p * f.sourceSize := by
  have hheight : (0 : ℚ) < desc.height := by exact_mod_cast desc.height_pos
  have h := Span.sample_eq hheight hheight hsource hsize hend hp
  rw [div_self hheight.ne', mul_one, mul_one] at h
  exact h

theorem transform_eq :
    (Input.setRendererViewport f).transform p = f.source + f.ratio p * f.logicalSourceSize := by
  rw [Input.transform, Input.setRendererViewport, Span.ratio]
  ring

/-- The part that is drawn is the one that is reported, and ends before a bound. -/
structure Span.Within (f : Span) (bound : ℚ) : Prop where
  logical_eq : f.logicalSourceSize = f.sourceSize
  source_nonneg : 0 ≤ f.source
  size_nonneg : 0 ≤ f.sourceSize
  end_le : f.source + f.sourceSize ≤ bound

theorem transform_eq_drawnX (h : f.Within desc.textureWidth) (hp : f.Contains p) :
    (Input.setRendererViewport f).transform p = drawnX desc f p := by
  rw [transform_eq, h.logical_eq, drawnX_eq h.source_nonneg h.size_nonneg h.end_le hp]

/-- The last column that is drawn is right only if the part that is drawn ends in the texture. -/
theorem transform_end_eq_drawnX_iff {bound : ℚ} (h : f.Within bound) (hsize : 0 < f.size) :
    (Input.setRendererViewport f).transform (f.start + f.size) =
        drawnX desc f (f.start + f.size) ↔ f.source + f.sourceSize ≤ desc.textureWidth := by
  have hpos : (0 : ℚ) < f.size := by exact_mod_cast hsize
  have hratio : f.ratio (f.start + f.size) = 1 := by
    rw [Span.ratio, add_sub_cancel_left, div_self hpos.ne']
  constructor
  · intro heq
    rw [transform_eq, h.logical_eq, hratio, one_mul] at heq
    rw [heq]
    exact drawnX_le
  · intro hend
    have hp : f.Contains (f.start + f.size) := ⟨by linarith, le_rfl, hsize⟩
    exact transform_eq_drawnX ⟨h.logical_eq, h.source_nonneg, h.size_nonneg, hend⟩ hp

theorem transform_eq_drawnY (h : f.Within desc.height) (hp : f.Contains p) :
    (Input.setRendererViewport f).transform p = drawnY desc f p := by
  rw [transform_eq, h.logical_eq, drawnY_eq h.source_nonneg h.size_nonneg h.end_le hp]

end

section

variable (a : Axis) {zoomPercent : ℤ} {hasViewport : Bool} {surface cursor buffer : ℤ}

theorem destinationScale_mem {requestedScale : ℚ} (h : 1 ≤ requestedScale) (center : ℚ)
    (size surface : ℤ) :
    1 ≤ destinationScale requestedScale center size surface ∧
      destinationScale requestedScale center size surface ≤ requestedScale := by
  rw [destinationScale]
  split_ifs with hscale
  · exact ⟨le_rfl, h⟩
  · exact ⟨not_lt.1 hscale, min_le_left _ _⟩

theorem pan_mem (zoomSource cursor : ℚ) {sourceSize expected : ℚ} (h : sourceSize ≤ expected) :
    0 ≤ pan zoomSource sourceSize cursor expected ∧
      pan zoomSource sourceSize cursor expected + sourceSize ≤ expected := by
  rw [pan]
  generalize (if cursor < zoomSource + sourceSize * (5 / 100) then _ else _) = source
  split_ifs with hneg hend
  · exact ⟨le_rfl, by linarith⟩
  · exact ⟨by linarith, by linarith⟩
  · exact ⟨not_lt.1 hneg, not_lt.1 hend⟩

/-- Where the part that is shown ends: before a bound on the screen exactly if the cursor and the
part that was shown before do not lead beyond it. -/
theorem pan_end_le_iff (zoomSource cursor : ℚ) {sourceSize expected bound : ℚ}
    (hsize : 0 ≤ sourceSize) (h : sourceSize ≤ expected) :
    pan zoomSource sourceSize cursor expected + sourceSize ≤ bound ↔
      expected ≤ bound ∨ sourceSize ≤ bound ∧ cursor + sourceSize * (5 / 100) ≤ bound ∧
        (zoomSource + sourceSize ≤ bound ∨ cursor + sourceSize * (95 / 100) ≤ bound) := by
  have hend := (pan_mem zoomSource cursor h).2
  by_cases hbound : expected ≤ bound
  · exact iff_of_true (hend.trans hbound) (Or.inl hbound)
  rw [not_le] at hbound
  rw [or_iff_right hbound.not_ge, pan]
  split_ifs with hlow hneg hover hhigh hneg hover hneg hover
  all_goals constructor
  all_goals intro hle
  -- to the cursor's left, to its right, and where it was
  all_goals first
    | exact ⟨by linarith, by linarith, Or.inr (by linarith)⟩
    | exact ⟨by linarith, by linarith, Or.inl (by linarith)⟩
    | (obtain ⟨h₁, h₂, h₃ | h₃⟩ := hle <;> linarith)

theorem one_lt_requestedScale (h : zoomPercent > 100) : (1 : ℚ) < zoomPercent / 100 := by
  have hzoom : (100 : ℚ) < zoomPercent := by exact_mod_cast h
  linarith

theorem scale_mem (hasViewport : Bool) (surface : ℤ) (h : zoomPercent > 100) :
    1 ≤ a.scale zoomPercent hasViewport surface ∧
      a.scale zoomPercent hasViewport surface ≤ zoomPercent / 100 := by
  rw [Axis.scale]
  split_ifs with hzoomed
  · exact destinationScale_mem (one_lt_requestedScale h).le _ _ _
  · exact ⟨le_rfl, (one_lt_requestedScale h).le⟩

theorem zoomedSize_mem (hasViewport : Bool) (surface : ℤ) (h : zoomPercent > 100)
    (hexpected : 0 < a.expected) :
    0 ≤ a.zoomedSize zoomPercent hasViewport surface ∧
      a.zoomedSize zoomPercent hasViewport surface ≤ a.expected := by
  have hrequested := one_lt_requestedScale h
  have hpos : (0 : ℚ) < a.expected := by exact_mod_cast hexpected
  obtain ⟨hlow, hhigh⟩ := scale_mem a hasViewport surface h
  rw [Axis.zoomedSize, div_le_iff₀ (by linarith)]
  exact ⟨by positivity, mul_le_mul_of_nonneg_left hhigh hpos.le⟩

/-- Without zoom the whole buffer is drawn. -/
theorem span_unzoomed (h : ¬ zoomPercent > 100) :
    a.span zoomPercent hasViewport surface cursor buffer =
      { start := a.start, size := a.size, source := 0, sourceSize := buffer,
        logicalSourceSize := a.expected } := by
  simp [Axis.span, h]

/-- The span of a zoomed frame. -/
theorem span_zoomed (h : zoomPercent > 100) :
    a.span zoomPercent hasViewport surface cursor buffer =
      { start := if hasViewport then truncate (a.start + a.size / 2 -
          truncate (a.size * a.scale zoomPercent hasViewport surface + 1 / 2) / 2 + 1 / 2)
          else a.start
        size := if hasViewport then
          truncate (a.size * a.scale zoomPercent hasViewport surface + 1 / 2) else a.size
        source := pan a.zoomSource (a.zoomedSize zoomPercent hasViewport surface) cursor a.expected
        sourceSize := a.zoomedSize zoomPercent hasViewport surface
        logicalSourceSize := a.zoomedSize zoomPercent hasViewport surface } := by
  cases hasViewport with
  | true => simp [Axis.span, Axis.zoomedSize, Axis.scale, h]
  | false => simp [Axis.span, Axis.zoomedSize, Axis.scale, h]

/-- With zoom the part that is drawn is the part that is reported. -/
theorem within_span_zoomed (h : zoomPercent > 100) (hexpected : 0 < a.expected) :
    (a.span zoomPercent hasViewport surface cursor buffer).Within a.expected := by
  obtain ⟨hsize, hle⟩ := zoomedSize_mem a hasViewport surface h hexpected
  obtain ⟨hsource, hend⟩ := pan_mem a.zoomSource cursor hle
  rw [span_zoomed a h]
  exact ⟨rfl, hsource, hsize, hend⟩

theorem truncate_of_nonneg {q : ℚ} (h : 0 ≤ q) : truncate q = ⌊q⌋ := if_pos h

/-- A viewport that is not empty is not rounded away. -/
theorem span_size_pos (hsize : 0 < a.size) :
    0 < (a.span zoomPercent hasViewport surface cursor buffer).size := by
  by_cases h : zoomPercent > 100
  · have hsize' : (1 : ℚ) ≤ a.size := by exact_mod_cast hsize
    have hscale := (scale_mem a hasViewport surface h).1
    rw [span_zoomed a h]
    cases hasViewport with
    | false => exact hsize
    | true =>
      have hscaled : 1 ≤ a.size * a.scale zoomPercent true surface :=
        one_le_mul_of_one_le_of_one_le hsize' hscale
      simp only [if_true]
      rw [truncate_of_nonneg (by linarith), Int.floor_pos]
      linarith
  · rw [span_unzoomed a h]
    exact hsize

/-- So it is without zoom if the buffer has the expected size. -/
theorem within_span (hexpected : 0 < a.expected) :
    (a.span zoomPercent hasViewport surface cursor a.expected).Within a.expected := by
  by_cases hzoom : zoomPercent > 100
  · exact within_span_zoomed a hzoom hexpected
  · rw [span_unzoomed a hzoom]
    have hsize : (0 : ℚ) ≤ a.expected := by exact_mod_cast hexpected.le
    exact ⟨rfl, le_rfl, hsize, by simp⟩

/-- Without zoom a point is off by its part of what the buffer is narrower than expected. -/
theorem unzoomed_gap (h : ¬ zoomPercent > 100) {desc : Desc} {p : ℚ}
    (hp : (a.span zoomPercent hasViewport surface cursor desc.width).Contains p) :
    (Input.setRendererViewport
        (a.span zoomPercent hasViewport surface cursor desc.width)).transform p -
        drawnX desc (a.span zoomPercent hasViewport surface cursor desc.width) p =
      (p - a.start) / a.size * (a.expected - desc.width) := by
  have hwidth : (0 : ℚ) ≤ desc.width := by exact_mod_cast desc.width_pos.le
  have htexture : (desc.width : ℚ) ≤ desc.textureWidth := by
    exact_mod_cast desc.width_le_textureWidth
  rw [span_unzoomed a h] at hp ⊢
  rw [transform_eq, drawnX_eq le_rfl hwidth (by simpa using htexture) hp]
  simp only [Span.ratio]
  ring

end

/-- The expected size of a buffer that is drawn is positive. -/
theorem expected_pos {expectedW expectedH : ℤ} {desc : Desc}
    (h : accepts expectedW expectedH desc) : 0 < expectedW ∧ 0 < expectedH := by
  obtain ⟨-, -, hheight, hwidth⟩ := h
  have hw := desc.width_pos
  have hh := desc.height_pos
  refine ⟨?_, by omega⟩
  rcases hwidth with hwidth | hwidth
  · by_contra hneg
    -- the remainder of a negative number is negative
    have hmod : expectedW.tmod 8 = -(-expectedW % 8) := by
      rw [← Int.tmod_eq_emod_of_nonneg (by omega), Int.neg_tmod, neg_neg]
    rw [alignedExpectedW, CVT_H_GRANULARITY, hmod] at hwidth
    omega
  · omega

/-- What is drawn of a buffer that is accepted. -/
theorem redraw_eq_some {r r' : Renderer} {surfaceW surfaceH cursorX cursorY : ℤ} {desc : Desc}
    {spanX spanY : Span}
    (h : r.redraw surfaceW surfaceH cursorX cursorY desc = some (r', spanX, spanY)) :
    accepts r.x.expected r.y.expected desc ∧
      spanX = r.x.span r.zoomPercent (r.x.size > 0 && r.y.size > 0) surfaceW cursorX desc.width ∧
      spanY = r.y.span r.zoomPercent (r.x.size > 0 && r.y.size > 0) surfaceH cursorY
        desc.height := by
  rw [Renderer.redraw] at h
  split_ifs at h with haccepts
  obtain ⟨-, h⟩ := Prod.mk.inj (Option.some.inj h)
  obtain ⟨rfl, rfl⟩ := Prod.mk.inj h
  exact ⟨haccepts, rfl, rfl⟩

/-- Without zoom the view already has what the renderer will report of its next frame. -/
theorem updateViewport_reported {v v' : View} {displayStretch : Bool} {surfaceW surfaceH : Int32}
    {insets : Insets} {px py left top w h : Int32}
    (hview : v.updateViewport 100 displayStretch surfaceW surfaceH insets px py =
      some (v', left, top, w, h))
    {r r' : Renderer} (hzoom : ¬ r.zoomPercent > 100) {sw sh cursorX cursorY : ℤ} {desc : Desc}
    {spanX spanY : Span}
    (hframe : (r.setViewport left.toInt top.toInt w.toInt h.toInt px.toInt py.toInt).redraw sw sh
      cursorX cursorY desc = some (r', spanX, spanY)) :
    v'.x = Input.setRendererViewport spanX ∧ v'.y = Input.setRendererViewport spanY := by
  obtain ⟨-, rfl, rfl⟩ := redraw_eq_some hframe
  have hzoom' : ¬ (r.setViewport left.toInt top.toInt w.toInt h.toInt px.toInt
      py.toInt).zoomPercent > 100 := hzoom
  rw [span_unzoomed _ hzoom', span_unzoomed _ hzoom']
  simp only [View.updateViewport, true_or, if_true] at hview
  split_ifs at hview with hempty
  simp only [Option.some_inj, Prod.mk.injEq] at hview
  obtain ⟨rfl, rfl, rfl, rfl, rfl⟩ := hview
  exact ⟨rfl, rfl⟩

/-- Every touch on a frame goes to the pixel that is drawn under it. -/
def TouchesPixels (desc : Desc) (spanX spanY : Span) : Prop :=
  ∀ x y, spanX.Contains x → spanY.Contains y →
    (Input.setRendererViewport spanX).transform x = drawnX desc spanX x ∧
      (Input.setRendererViewport spanY).transform y = drawnY desc spanY y

/-- The part of the screen that is shown with zoom ends in the texture: the screen does, or neither
the cursor nor the part that was shown before leads beyond it. -/
def Axis.EndsIn (a : Axis) (sourceSize cursor texture : ℚ) : Prop :=
  a.expected ≤ texture ∨ sourceSize ≤ texture ∧ cursor + sourceSize * (5 / 100) ≤ texture ∧
    (a.zoomSource + sourceSize ≤ texture ∨ cursor + sourceSize * (95 / 100) ≤ texture)

/-- A zoomed frame that ends in the texture of its buffer. -/
def Renderer.ShowsTexture (r : Renderer) (surfaceW cursorX : ℤ) (desc : Desc) : Prop :=
  r.zoomPercent > 100 ∧
    r.x.EndsIn (r.x.zoomedSize r.zoomPercent true surfaceW) cursorX desc.textureWidth

section

variable {r r' : Renderer} {surfaceW surfaceH cursorX cursorY : ℤ} {desc : Desc}
  {spanX spanY : Span}

/-- A frame with a point in it has a viewport that is not empty. -/
theorem hasViewport_of_redraw
    (h : r.redraw surfaceW surfaceH cursorX cursorY desc = some (r', spanX, spanY))
    (hx : 0 < spanX.size) (hy : 0 < spanY.size) : 0 < r.x.size ∧ 0 < r.y.size := by
  obtain ⟨-, rfl, rfl⟩ := redraw_eq_some h
  by_contra hempty
  have hno : (decide (r.x.size > 0) && decide (r.y.size > 0)) = false := by simpa using hempty
  rw [hno] at hx hy
  by_cases hzoom : r.zoomPercent > 100
  · rw [span_zoomed _ hzoom] at hx hy
    exact hempty ⟨hx, hy⟩
  · rw [span_unzoomed _ hzoom] at hx hy
    exact hempty ⟨hx, hy⟩

/-- A zoomed frame ends in the texture as its state before says. -/
theorem span_end_le_iff {a : Axis} {zoomPercent surface cursor buffer : ℤ} {texture : ℚ}
    (h : zoomPercent > 100) (hexpected : 0 < a.expected) :
    (a.span zoomPercent true surface cursor buffer).source +
        (a.span zoomPercent true surface cursor buffer).sourceSize ≤ texture ↔
      a.EndsIn (a.zoomedSize zoomPercent true surface) cursor texture := by
  obtain ⟨hsize, hle⟩ := zoomedSize_mem a true surface h hexpected
  rw [span_zoomed a h]
  exact pan_end_le_iff a.zoomSource cursor hsize hle

/-- **A touch addresses the pixel under it** in a frame exactly if the frame has no points, or the
buffer is as wide as expected, or the frame is zoomed and ends in the texture. -/
theorem touchesPixels_iff
    (h : r.redraw surfaceW surfaceH cursorX cursorY desc = some (r', spanX, spanY)) :
    TouchesPixels desc spanX spanY ↔ (0 < r.x.size → 0 < r.y.size →
      desc.width = r.x.expected ∨ r.ShowsTexture surfaceW cursorX desc) := by
  obtain ⟨haccepts, hspanX, hspanY⟩ := redraw_eq_some h
  obtain ⟨hexpectedX, hexpectedY⟩ := expected_pos haccepts
  have hheight : desc.height = r.y.expected := haccepts.2.2.1
  constructor
  · intro htouch hx hy
    have hsome : (decide (r.x.size > 0) && decide (r.y.size > 0)) = true := by simp [hx, hy]
    rw [hsome] at hspanX hspanY
    -- the right edge of the frame
    have hsizeX : 0 < spanX.size := hspanX ▸ span_size_pos r.x hx
    have hsizeY : 0 < spanY.size := hspanY ▸ span_size_pos r.y hy
    have hposX : (0 : ℚ) < spanX.size := by exact_mod_cast hsizeX
    have hposY : (0 : ℚ) < spanY.size := by exact_mod_cast hsizeY
    have hedge : spanX.Contains (spanX.start + spanX.size) := ⟨by linarith, le_rfl, hsizeX⟩
    have hcorner : spanY.Contains spanY.start := ⟨le_rfl, by linarith, hsizeY⟩
    have hsame := (htouch _ _ hedge hcorner).1
    by_cases hzoom : r.zoomPercent > 100
    · refine Or.inr ⟨hzoom, ?_⟩
      have hwithin : spanX.Within r.x.expected := hspanX ▸ within_span_zoomed r.x hzoom hexpectedX
      have hend := (transform_end_eq_drawnX_iff hwithin hsizeX).1 hsame
      rw [hspanX] at hend
      exact (span_end_le_iff hzoom hexpectedX).1 hend
    · refine Or.inl ?_
      have hgap := unzoomed_gap r.x hzoom (hspanX ▸ hedge)
      rw [← hspanX, hsame, sub_self] at hgap
      rw [hspanX, span_unzoomed r.x hzoom] at hgap
      have hx' : (r.x.size : ℚ) ≠ 0 := by exact_mod_cast hx.ne'
      rw [add_sub_cancel_left, div_self hx', one_mul] at hgap
      exact_mod_cast (sub_eq_zero.1 hgap.symm).symm
  · intro hframe x y hx hy
    obtain ⟨hsizeX, hsizeY⟩ := hasViewport_of_redraw h hx.2.2 hy.2.2
    have hsome : (decide (r.x.size > 0) && decide (r.y.size > 0)) = true := by
      simp [hsizeX, hsizeY]
    rw [hsome] at hspanX hspanY
    have hrows : (Input.setRendererViewport spanY).transform y = drawnY desc spanY y := by
      refine transform_eq_drawnY ?_ hy
      rw [hspanY, hheight]
      exact within_span r.y hexpectedY
    refine ⟨?_, hrows⟩
    rcases hframe hsizeX hsizeY with hwidth | ⟨hzoom, hends⟩
    · have hwithin : spanX.Within r.x.expected := by
        rw [hspanX, hwidth]
        exact within_span r.x hexpectedX
      have htexture : (r.x.expected : ℚ) ≤ desc.textureWidth := by
        rw [← hwidth]
        exact_mod_cast desc.width_le_textureWidth
      exact transform_eq_drawnX ⟨hwithin.logical_eq, hwithin.source_nonneg, hwithin.size_nonneg,
        hwithin.end_le.trans htexture⟩ hx
    · have hwithin : spanX.Within r.x.expected := hspanX ▸ within_span_zoomed r.x hzoom hexpectedX
      refine transform_eq_drawnX ⟨hwithin.logical_eq, hwithin.source_nonneg, hwithin.size_nonneg,
        ?_⟩ hx
      rw [hspanX]
      exact (span_end_le_iff hzoom hexpectedX).2 hends

end

/-- A buffer for a screen whose width is no multiple of eight. -/
def narrower : Desc where
  width := 1360
  height := 768
  stride := 1360
  isFd := false
  width_pos := by decide
  height_pos := by decide
  le_stride := by decide

/-- The left half of the picture, at 200 percent and with the cursor there, is touched where it is
drawn. -/
theorem narrower_touchesPixels :
    TouchesPixels narrower ⟨0, 1366, 0, 683, 683⟩ ⟨0, 768, 0, 384, 384⟩ := by
  have hredraw : (⟨⟨0, 1366, 1366, 0⟩, ⟨0, 768, 768, 0⟩, 200⟩ : Renderer).redraw 1366 768 100 100
      narrower = some (⟨⟨0, 1366, 1366, 0⟩, ⟨0, 768, 768, 0⟩, 200⟩,
        ⟨0, 1366, 0, 683, 683⟩, ⟨0, 768, 0, 384, 384⟩) := by
    decide +kernel
  refine (touchesPixels_iff hredraw).2 fun _ _ => Or.inr ⟨by decide, Or.inr ⟨?_, ?_, Or.inl ?_⟩⟩
  · decide +kernel
  · decide +kernel
  · decide +kernel

/-- The middle of the picture is the column 680, but a touch on it goes to the column 683. -/
theorem narrower_misses :
    (∃ r', (⟨⟨0, 1366, 1366, 0⟩, ⟨0, 768, 768, 0⟩, 100⟩ : Renderer).redraw 1366 768 0 0 narrower =
        some (r', ⟨0, 1366, 0, 1360, 1366⟩, ⟨0, 768, 0, 768, 768⟩)) ∧
      (Input.setRendererViewport ⟨0, 1366, 0, 1360, 1366⟩).transform 683 = 683 ∧
      drawnX narrower ⟨0, 1366, 0, 1360, 1366⟩ 683 = 680 ∧
      ¬ TouchesPixels narrower ⟨0, 1366, 0, 1360, 1366⟩ ⟨0, 768, 0, 768, 768⟩ := by
  have hredraw : (⟨⟨0, 1366, 1366, 0⟩, ⟨0, 768, 768, 0⟩, 100⟩ : Renderer).redraw 1366 768 0 0
      narrower = some (⟨⟨0, 1366, 1366, 0⟩, ⟨0, 768, 768, 0⟩, 100⟩,
        ⟨0, 1366, 0, 1360, 1366⟩, ⟨0, 768, 0, 768, 768⟩) := by
    rw [Renderer.redraw, if_pos (by decide)]
    simp [span_unzoomed, narrower]
  have htouch : (Input.setRendererViewport ⟨0, 1366, 0, 1360, 1366⟩).transform 683 = 683 := by
    norm_num [Input.setRendererViewport, Input.transform]
  have hdrawn : drawnX narrower ⟨0, 1366, 0, 1360, 1366⟩ 683 = 680 := by
    norm_num [drawnX, Span.sample, narrower]
  refine ⟨⟨_, hredraw⟩, htouch, hdrawn, fun h => ?_⟩
  have hx : (⟨0, 1366, 0, 1360, 1366⟩ : Span).Contains 683 := by
    norm_num [Span.Contains]
  have hy : (⟨0, 768, 0, 768, 768⟩ : Span).Contains 0 := by
    norm_num [Span.Contains]
  have hsame := (h 683 0 hx hy).1
  rw [htouch, hdrawn] at hsame
  norm_num at hsame

end TermuxX11.Activity.Viewport
