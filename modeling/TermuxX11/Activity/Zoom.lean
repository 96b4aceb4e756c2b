import TermuxX11.Activity.Viewport
import TermuxX11.Lib.Run

/-!
# The zoom window over whole runs

The window of a zoomed picture is a persistent place, `zoomSourceLeft` and `zoomSourceTop`, that
follows the cursor and is clamped to the screen; the zoom, the viewport, the surface and the cursor
change in any order.  `Zoomed` is what a frame keeps of this along one axis, whatever came before.

A new surface comes through `rendererSetWindow`, which forgets the expected size: nothing is drawn
before the view has set a viewport for it.  When the size of a surface changes in place, a viewport
that was set inside it may be outside; it is still on the positive side of both axes
(`Scene.Placed`), and is then drawn as it is.
-/

namespace TermuxX11.Activity.Viewport

open Run

/-! ### The zoom -/

/-- `rendererSetZoom`. -/
def Renderer.setZoom (r : Renderer) (percent : ℤ) : Renderer :=
  let zoomPercent := if percent < 100 then 100 else if percent > 400 then 400 else percent
  if zoomPercent = 100 then
    { x := { r.x with zoomSource := 0 }, y := { r.y with zoomSource := 0 },
      zoomPercent := zoomPercent }
  else { r with zoomPercent := zoomPercent }

/-- The expected size is forgotten, in `rendererSetWindow`. -/
def Renderer.setWindow (r : Renderer) : Renderer :=
  { r with x := { r.x with expected := 0 }, y := { r.y with expected := 0 } }

/-- The renderer with the surface and the cursor. -/
structure Scene where
  renderer : Renderer := { x := ⟨0, 0, 0, 0⟩, y := ⟨0, 0, 0, 0⟩ }
  surfaceW : ℤ := 0
  surfaceH : ℤ := 0
  cursorX : ℤ := 0
  cursorY : ℤ := 0

/-- What happens to a scene.  A surface changes with a new window, or its size changes in place. -/
inductive Change
  | setZoom (percent : ℤ)
  | setViewport (x y w h ew eh : ℤ)
  | setWindow (surfaceW surfaceH : ℤ)
  | resize (surfaceW surfaceH : ℤ)
  | moveCursor (x y : ℤ)
  | redraw (desc : Desc)

namespace Scene

/-- The frame that is drawn of a root buffer. -/
def frame (s : Scene) (desc : Desc) : Option (Renderer × Span × Span) :=
  s.renderer.redraw s.surfaceW s.surfaceH s.cursorX s.cursorY desc

/-- One change. -/
def step (s : Scene) : Change → Scene
  | .setZoom percent => { s with renderer := s.renderer.setZoom percent }
  | .setViewport x y w h ew eh => { s with renderer := s.renderer.setViewport x y w h ew eh }
  | .setWindow surfaceW surfaceH =>
    { s with renderer := s.renderer.setWindow, surfaceW := surfaceW, surfaceH := surfaceH }
  | .resize surfaceW surfaceH => { s with surfaceW := surfaceW, surfaceH := surfaceH }
  | .moveCursor x y => { s with cursorX := x, cursorY := y }
  | .redraw desc =>
    match s.frame desc with
    | some (renderer, _, _) => { s with renderer := renderer }
    | none => s

end Scene

/-! ### A frame along one axis -/

/-- The viewport is inside the surface along an axis. -/
def Axis.Inside (a : Axis) (surface : ℤ) : Prop :=
  0 ≤ a.start ∧ 0 ≤ a.size ∧ a.start + a.size ≤ surface

/-- One axis of a zoomed frame `f`, for the axis `a` before it.  The magnification is from the
source to the part of the surface before that is rounded; `f₁` is the frame at 100 percent. -/
structure Zoomed (a : Axis) (zoomPercent : ℤ) (scale : ℚ) (surface cursor : ℤ) (f f₁ : Span) :
    Prop where
  source_mem : 0 ≤ f.source ∧ f.source + f.sourceSize ≤ a.expected
  cursor_mem : f.source ≤ cursor ∧ cursor ≤ f.source + f.sourceSize
  scale_mem : 1 ≤ scale ∧ scale ≤ zoomPercent / 100
  viewport_mem : 0 ≤ f.start ∧ f.start + f.size ≤ surface
  still : a.zoomSource + f.sourceSize * (5 / 100) ≤ cursor →
    cursor ≤ a.zoomSource + f.sourceSize - f.sourceSize * (5 / 100) →
    0 ≤ a.zoomSource → a.zoomSource + f.sourceSize ≤ a.expected → f.source = a.zoomSource
  magnification : a.size * scale / f.sourceSize = zoomPercent / 100 * (f₁.size / f₁.sourceSize)

/-- Rounding does not pass an integer. -/
theorem floor_add_half_le {q : ℚ} {n : ℤ} (h : q ≤ n) : ⌊q + 1 / 2⌋ ≤ n := by
  refine Int.lt_add_one_iff.1 (Int.floor_lt.2 ?_)
  push_cast
  linarith

/-- The part that is shown holds the cursor. -/
theorem pan_contains (zoomSource : ℚ) {sourceSize cursor expected : ℚ} (h : 0 ≤ sourceSize)
    (hcursor : 0 ≤ cursor) (hcursor' : cursor ≤ expected) :
    pan zoomSource sourceSize cursor expected ≤ cursor ∧
      cursor ≤ pan zoomSource sourceSize cursor expected + sourceSize := by
  have hfollow : ∀ source, (if cursor < zoomSource + sourceSize * (5 / 100) then
        cursor - sourceSize * (5 / 100)
      else if cursor > zoomSource + sourceSize - sourceSize * (5 / 100) then
        cursor - sourceSize + sourceSize * (5 / 100)
      else zoomSource) = source → source ≤ cursor ∧ cursor ≤ source + sourceSize := by
    rintro source rfl
    split_ifs with hlow hhigh
    · constructor <;> linarith
    · constructor <;> linarith
    · constructor <;> linarith
  rw [pan]
  generalize hsource : (if cursor < zoomSource + sourceSize * (5 / 100) then _ else _) = source
  obtain ⟨hlow, hhigh⟩ := hfollow source hsource
  split_ifs with hneg hend
  · exact ⟨hcursor, by linarith⟩
  · exact ⟨by linarith, by linarith⟩
  · exact ⟨hlow, hhigh⟩

/-- The part that is shown stays while the cursor is in its middle. -/
theorem pan_still {zoomSource sourceSize cursor expected : ℚ}
    (hlow : zoomSource + sourceSize * (5 / 100) ≤ cursor)
    (hhigh : cursor ≤ zoomSource + sourceSize - sourceSize * (5 / 100)) (hneg : 0 ≤ zoomSource)
    (hend : zoomSource + sourceSize ≤ expected) :
    pan zoomSource sourceSize cursor expected = zoomSource := by
  simp only [pan, not_lt.2 hlow, not_lt.2 hhigh, not_lt.2 hneg, not_lt.2 hend, if_false]

section

variable (a : Axis) {zoomPercent : ℤ} {hasViewport : Bool} {surface cursor buffer : ℤ}

/-- The picture does not grow over the edge of the surface. -/
theorem scaled_le {a : Axis} (hin : a.Inside surface) :
    a.size * a.scale zoomPercent hasViewport surface ≤
      2 * min (a.start + a.size / 2 : ℚ) (surface - (a.start + a.size / 2)) := by
  obtain ⟨hstart, hsize, hend⟩ := hin
  have hstart' : (0 : ℚ) ≤ a.start := by exact_mod_cast hstart
  have hend' : (a.start + a.size : ℚ) ≤ surface := by exact_mod_cast hend
  have hone : (a.size * 1 : ℚ) ≤
      2 * min (a.start + a.size / 2 : ℚ) (surface - (a.start + a.size / 2)) := by
    rcases min_choice (a.start + a.size / 2 : ℚ) (surface - (a.start + a.size / 2)) with h | h
    · rw [h]
      linarith
    · rw [h]
      linarith
  rw [Axis.scale]
  split_ifs with hzoomed
  · rw [destinationScale]
    split_ifs with hscale
    · exact hone
    · rcases hsize.eq_or_lt with hzero | hpos
      · rw [← hzero, Int.cast_zero, zero_mul]
        rw [← hzero, Int.cast_zero, zero_mul] at hone
        exact hone
      · have hpos' : (0 : ℚ) < a.size := by exact_mod_cast hpos
        calc (a.size : ℚ) * min (zoomPercent / 100 : ℚ) (2 * min (a.start + a.size / 2 : ℚ)
              (surface - (a.start + a.size / 2)) / a.size)
            ≤ a.size * (2 * min (a.start + a.size / 2 : ℚ)
              (surface - (a.start + a.size / 2)) / a.size) :=
              mul_le_mul_of_nonneg_left (min_le_right _ _) hpos'.le
          _ = _ := mul_div_cancel₀ _ hpos'.ne'
  · exact hone

/-- The rounded viewport is inside the surface. -/
theorem viewport_mem {a : Axis} (h : zoomPercent > 100) (hin : a.Inside surface) :
    0 ≤ (a.span zoomPercent hasViewport surface cursor buffer).start ∧
      (a.span zoomPercent hasViewport surface cursor buffer).start +
        (a.span zoomPercent hasViewport surface cursor buffer).size ≤ surface := by
  have hsize : (0 : ℚ) ≤ a.size := by exact_mod_cast hin.2.1
  have hscale := scale_mem a hasViewport surface h
  have hscaled : a.size * a.scale zoomPercent hasViewport surface ≤ _ := scaled_le hin
  rw [span_zoomed a h]
  cases hasViewport with
  | false => exact ⟨hin.1, hin.2.2⟩
  | true =>
    simp only [if_true]
    generalize a.scale zoomPercent true surface = scale at hscale hscaled ⊢
    have hpos : 0 ≤ a.size * scale := mul_nonneg hsize (by linarith)
    -- twice the center is an integer, so that the rounded size does not pass it
    have hleft : ⌊a.size * scale + 1 / 2⌋ ≤ 2 * a.start + a.size := by
      refine floor_add_half_le (hscaled.trans ?_)
      push_cast
      linarith [min_le_left (a.start + a.size / 2 : ℚ) (surface - (a.start + a.size / 2))]
    have hright : ⌊a.size * scale + 1 / 2⌋ ≤ 2 * surface - (2 * a.start + a.size) := by
      refine floor_add_half_le (hscaled.trans ?_)
      push_cast
      linarith [min_le_right (a.start + a.size / 2 : ℚ) (surface - (a.start + a.size / 2))]
    rw [truncate_of_nonneg (by positivity : 0 ≤ a.size * scale + 1 / 2)]
    generalize ⌊a.size * scale + 1 / 2⌋ = w at hleft hright ⊢
    have hleft' : (w : ℚ) ≤ 2 * a.start + a.size := by exact_mod_cast hleft
    have hright' : (w : ℚ) ≤ 2 * surface - (2 * a.start + a.size) := by exact_mod_cast hright
    have hstart : 0 ≤ (a.start + a.size / 2 - w / 2 + 1 / 2 : ℚ) := by linarith
    rw [truncate_of_nonneg hstart]
    refine ⟨Int.floor_nonneg.2 hstart, ?_⟩
    have hend : ⌊(a.start + a.size / 2 - w / 2 + 1 / 2 : ℚ)⌋ ≤ surface - w := by
      refine floor_add_half_le ?_
      push_cast
      linarith
    linarith

/-- A picture that is over the edge of the surface does not grow. -/
theorem scale_of_not_inside {a : Axis} (hstart : 0 ≤ a.start) (hsize : 0 ≤ a.size)
    (hout : ¬ a.Inside surface) : a.scale zoomPercent hasViewport surface = 1 := by
  have hend : surface < a.start + a.size := by
    by_contra hle
    exact hout ⟨hstart, hsize, not_lt.1 hle⟩
  have hend' : (surface : ℚ) < a.start + a.size := by exact_mod_cast hend
  have hsmall : 2 * min (a.start + a.size / 2 : ℚ) (surface - (a.start + a.size / 2)) / a.size
      < 1 := by
    rcases hsize.eq_or_lt with hzero | hpos
    · rw [← hzero, Int.cast_zero, div_zero]
      exact one_pos
    · have hpos' : (0 : ℚ) < a.size := by exact_mod_cast hpos
      rw [div_lt_one hpos']
      linarith [min_le_right (a.start + a.size / 2 : ℚ) (surface - (a.start + a.size / 2))]
  rw [Axis.scale]
  split_ifs with hzoomed
  · exact if_pos ((min_le_right _ _).trans_lt hsmall)
  · rfl

/-- The rounded viewport is inside the surface exactly if the viewport is. -/
theorem viewport_mem_iff {a : Axis} (h : zoomPercent > 100) (hstart : 0 ≤ a.start)
    (hsize : 0 ≤ a.size) :
    0 ≤ (a.span zoomPercent hasViewport surface cursor buffer).start ∧
        (a.span zoomPercent hasViewport surface cursor buffer).start +
          (a.span zoomPercent hasViewport surface cursor buffer).size ≤ surface ↔
      a.Inside surface := by
  refine ⟨fun hmem => ?_, viewport_mem h⟩
  by_contra hout
  have hhalf : ∀ n : ℤ, 0 ≤ n → truncate (n + 1 / 2) = n := by
    intro n hn
    have hn' : (0 : ℚ) ≤ n := by exact_mod_cast hn
    rw [truncate_of_nonneg (by linarith), Int.floor_intCast_add]
    norm_num
  -- the picture is drawn where the viewport is
  have hspan : (a.span zoomPercent hasViewport surface cursor buffer).start = a.start ∧
      (a.span zoomPercent hasViewport surface cursor buffer).size = a.size := by
    rw [span_zoomed a h, scale_of_not_inside hstart hsize hout]
    cases hasViewport with
    | false => exact ⟨rfl, rfl⟩
    | true =>
      simp only [if_true, mul_one, hhalf a.size hsize, add_sub_cancel_right]
      exact ⟨hhalf a.start hstart, trivial⟩
  rw [hspan.1, hspan.2] at hmem
  exact hout ⟨hstart, hsize, hmem.2⟩

/-- The magnification is relative to the expected size. -/
theorem zoomed_magnification {a : Axis} (h : zoomPercent > 100) :
    a.size * a.scale zoomPercent hasViewport surface /
        (a.span zoomPercent hasViewport surface cursor buffer).sourceSize =
      zoomPercent / 100 * (a.size / a.expected) := by
  have hscale := scale_mem a hasViewport surface h
  have hrequested := one_lt_requestedScale h
  rw [span_zoomed a h, Axis.zoomedSize]
  generalize a.scale zoomPercent hasViewport surface = scale at hscale ⊢
  have hscale' : scale ≠ 0 := by linarith
  calc (a.size * scale / (a.expected * scale / (zoomPercent / 100)) : ℚ)
      = a.size * (zoomPercent / 100) * scale / (a.expected * scale) := by
        rw [div_div_eq_mul_div, mul_right_comm]
    _ = a.size * (zoomPercent / 100) / a.expected := mul_div_mul_right _ _ hscale'
    _ = zoomPercent / 100 * (a.size / a.expected) := by rw [mul_comm (a.size : ℚ), mul_div_assoc]

/-- A zoomed frame along one axis is right exactly if the viewport is inside the surface, and the
buffer has the expected size there or nothing is seen of it. -/
theorem zoomed_iff {a : Axis} (h : zoomPercent > 100) (hstart : 0 ≤ a.start) (hsize : 0 ≤ a.size)
    (hexpected : 0 < a.expected) (hcursor : 0 ≤ cursor ∧ cursor ≤ a.expected)
    (hbuffer : 0 < buffer) :
    Zoomed a zoomPercent (a.scale zoomPercent hasViewport surface) surface cursor
        (a.span zoomPercent hasViewport surface cursor buffer)
        (a.span 100 hasViewport surface cursor buffer) ↔
      a.Inside surface ∧ (buffer = a.expected ∨ a.size = 0) := by
  have hrequested := one_lt_requestedScale h
  have hexpected' : (0 : ℚ) < a.expected := by exact_mod_cast hexpected
  have hbuffer' : (0 : ℚ) < buffer := by exact_mod_cast hbuffer
  have hunzoomed : a.span 100 hasViewport surface cursor buffer = _ :=
    span_unzoomed a (by decide)
  constructor
  · intro hzoomed
    refine ⟨(viewport_mem_iff h hstart hsize).1 hzoomed.viewport_mem, ?_⟩
    have hmagnification := hzoomed.magnification
    rw [zoomed_magnification h, hunzoomed] at hmagnification
    have hsame : (a.size / a.expected : ℚ) = a.size / buffer :=
      mul_left_cancel₀ (by linarith) hmagnification
    by_cases hzero : a.size = 0
    · exact Or.inr hzero
    · have hsize' : (a.size : ℚ) ≠ 0 := by exact_mod_cast hzero
      rw [div_eq_div_iff hexpected'.ne' hbuffer'.ne'] at hsame
      exact Or.inl (by exact_mod_cast mul_left_cancel₀ hsize' hsame)
  · rintro ⟨hin, hwide⟩
    have hwithin : (a.span zoomPercent hasViewport surface cursor buffer).Within a.expected :=
      within_span_zoomed a h hexpected
    obtain ⟨-, hsource, hshown, hend⟩ := hwithin
    refine ⟨⟨hsource, hend⟩, ?_, scale_mem a hasViewport surface h, viewport_mem h hin, ?_, ?_⟩
    · rw [span_zoomed a h] at hshown ⊢
      exact pan_contains _ hshown (by exact_mod_cast hcursor.1) (by exact_mod_cast hcursor.2)
    · rw [span_zoomed a h]
      exact fun hlow hhigh hneg hend => pan_still hlow hhigh hneg hend
    · rw [zoomed_magnification h, hunzoomed]
      rcases hwide with rfl | hzero
      · rfl
      · simp [hzero]

end

/-! ### Runs -/

namespace Scene

/-- The viewport is inside the surface. -/
def Fitted (s : Scene) : Prop :=
  s.renderer.x.Inside s.surfaceW ∧ s.renderer.y.Inside s.surfaceH

/-- What is drawn is drawn on the positive side of both axes. -/
def Placed (s : Scene) : Prop :=
  s.renderer.x.expected ≠ 0 →
    (0 ≤ s.renderer.x.start ∧ 0 ≤ s.renderer.x.size) ∧
      (0 ≤ s.renderer.y.start ∧ 0 ≤ s.renderer.y.size)

/-- Viewports are set inside the surface. -/
def ViewportInside (s : Scene) : Change → Prop
  | .setViewport x y w h ew eh => (s.step (.setViewport x y w h ew eh)).Fitted
  | _ => True

/-- The cursor of a frame is on the expected screen. -/
def CursorInside (s : Scene) : Change → Prop
  | .redraw desc =>
    accepts s.renderer.x.expected s.renderer.y.expected desc →
      (0 ≤ s.cursorX ∧ s.cursorX ≤ s.renderer.x.expected) ∧
        (0 ≤ s.cursorY ∧ s.cursorY ≤ s.renderer.y.expected)
  | _ => True

/-- The viewport is not empty. -/
def hasViewport (s : Scene) : Bool := s.renderer.x.size > 0 && s.renderer.y.size > 0

/-- The scene at 100 percent. -/
def unzoomed (s : Scene) : Scene := { s with renderer := { s.renderer with zoomPercent := 100 } }

/-- Both axes of what a redraw draws are right if it is zoomed. -/
def ZoomWindow (s : Scene) : Change → Prop
  | .redraw desc =>
    ∀ renderer spanX spanY renderer₁ spanX₁ spanY₁, s.renderer.zoomPercent > 100 →
      s.frame desc = some (renderer, spanX, spanY) →
      s.unzoomed.frame desc = some (renderer₁, spanX₁, spanY₁) →
      Zoomed s.renderer.x s.renderer.zoomPercent
          (s.renderer.x.scale s.renderer.zoomPercent s.hasViewport s.surfaceW)
          s.surfaceW s.cursorX spanX spanX₁ ∧
        Zoomed s.renderer.y s.renderer.zoomPercent
          (s.renderer.y.scale s.renderer.zoomPercent s.hasViewport s.surfaceH)
          s.surfaceH s.cursorY spanY spanY₁
  | _ => True

/-- A zoomed frame is drawn while the viewport is inside the surface, of a buffer that is as wide as
expected, unless nothing is seen of it. -/
def Wide (s : Scene) : Change → Prop
  | .redraw desc =>
    s.renderer.zoomPercent > 100 → accepts s.renderer.x.expected s.renderer.y.expected desc →
      s.Fitted ∧ (desc.width = s.renderer.x.expected ∨ s.renderer.x.size = 0)
  | _ => True

theorem placed_step {s : Scene} {c : Change} (hs : s.Placed) (h : s.ViewportInside c) :
    (s.step c).Placed := by
  cases c with
  | setZoom percent =>
    simp only [step, Renderer.setZoom]
    split_ifs
    · exact hs
    · exact hs
    · exact hs
    · exact hs
    · exact hs
    · exact hs
  | setViewport x y w h' ew eh =>
    obtain ⟨⟨hx, hw, -⟩, hy, hh, -⟩ := h
    exact fun _ => ⟨⟨hx, hw⟩, hy, hh⟩
  | setWindow surfaceW surfaceH => exact fun hexpected => absurd rfl hexpected
  | resize surfaceW surfaceH => exact hs
  | moveCursor x y => exact hs
  | redraw desc =>
    simp only [step, frame, Renderer.redraw]
    split_ifs
    · exact hs
    · exact hs

theorem zoomWindow_iff_wide {s : Scene} {c : Change} (hs : s.Placed) (h : s.CursorInside c) :
    s.ZoomWindow c ↔ s.Wide c := by
  cases c with
  | redraw desc =>
    by_cases haccepts : accepts s.renderer.x.expected s.renderer.y.expected desc
    · obtain ⟨hx, hy⟩ := expected_pos haccepts
      obtain ⟨hcursorX, hcursorY⟩ := h haccepts
      obtain ⟨⟨hstartX, hsizeX⟩, hstartY, hsizeY⟩ := hs hx.ne'
      have hheight : desc.height = s.renderer.y.expected := haccepts.2.2.1
      constructor
      · intro hwindow hzoom _
        have hframe : s.frame desc = some (_, _, _) := if_pos haccepts
        have hframe₁ : s.unzoomed.frame desc = some (_, _, _) := if_pos haccepts
        obtain ⟨hzoomedX, hzoomedY⟩ := hwindow _ _ _ _ _ _ hzoom hframe hframe₁
        obtain ⟨hinX, hwide⟩ := (zoomed_iff hzoom hstartX hsizeX hx hcursorX desc.width_pos).1
          hzoomedX
        obtain ⟨hinY, -⟩ := (zoomed_iff hzoom hstartY hsizeY hy hcursorY desc.height_pos).1
          hzoomedY
        exact ⟨⟨hinX, hinY⟩, hwide⟩
      · intro hwide renderer spanX spanY renderer₁ spanX₁ spanY₁ hzoom hframe hframe₁
        obtain ⟨-, rfl, rfl⟩ := redraw_eq_some hframe
        obtain ⟨-, rfl, rfl⟩ := redraw_eq_some hframe₁
        obtain ⟨⟨hinX, hinY⟩, hwidth⟩ := hwide hzoom haccepts
        exact ⟨(zoomed_iff hzoom hstartX hsizeX hx hcursorX desc.width_pos).2 ⟨hinX, hwidth⟩,
          (zoomed_iff hzoom hstartY hsizeY hy hcursorY desc.height_pos).2
            ⟨hinY, Or.inl hheight⟩⟩
    · refine iff_of_true ?_ fun _ hdrawn => absurd hdrawn haccepts
      intro renderer spanX spanY renderer₁ spanX₁ spanY₁ _ hframe
      exact absurd (redraw_eq_some hframe).1 haccepts
  | _ => exact Iff.rfl

/-- **The zoom window**: in every run that sets viewports inside the surface and draws with the
cursor on the screen, every zoomed frame is right exactly if the viewport is then inside the
surface and the buffer as wide as expected. -/
theorem always_zoomWindow_iff {cs : List Change} (hviewport : Always step ViewportInside {} cs)
    (hcursor : Always step CursorInside {} cs) :
    Always step ZoomWindow {} cs ↔ Always step Wide {} cs :=
  (hviewport.and hcursor).iff_of_invariant (fun _ _ hs h => placed_step hs h.1)
    (fun _ _ hs h => zoomWindow_iff_wide hs h.2) fun h => absurd rfl h

/-- A buffer for a screen on its side. -/
def rotated : Desc where
  width := 1080
  height := 1920
  stride := 1088
  isFd := true
  width_pos := by decide
  height_pos := by decide
  le_stride := by decide

/-- The corner of a screen at 200 percent, after the screen was rotated. -/
theorem rotated_zoomWindow :
    Always step ZoomWindow {} [.setWindow 1920 1080, .setViewport 0 0 1920 1080 1920 1080,
      .setZoom 200, .setWindow 1080 1920, .setViewport 0 0 1080 1920 1080 1920,
      .moveCursor 1080 1920, .redraw rotated] := by
  refine (always_zoomWindow_iff ?_ ?_).2 ?_
  · simp [Always, ViewportInside, Fitted, step, Renderer.setViewport, Axis.Inside]
  · simp [Always, CursorInside, step, Renderer.setViewport, Renderer.setWindow, Renderer.setZoom]
  · simp [Always, Wide, Fitted, Axis.Inside, step, Renderer.setViewport, Renderer.setWindow,
      Renderer.setZoom, rotated]

/-- The picture of a screen whose width is no multiple of eight is not twice as wide at 200 percent
as it is without zoom. -/
theorem narrower_zoomWindow :
    Always step ViewportInside {} [.setWindow 1366 768, .setViewport 0 0 1366 768 1366 768,
        .setZoom 200, .moveCursor 683 384, .redraw narrower] ∧
      Always step CursorInside {} [.setWindow 1366 768, .setViewport 0 0 1366 768 1366 768,
        .setZoom 200, .moveCursor 683 384, .redraw narrower] ∧
      ¬ Always step ZoomWindow {} [.setWindow 1366 768, .setViewport 0 0 1366 768 1366 768,
        .setZoom 200, .moveCursor 683 384, .redraw narrower] := by
  have hviewport : Always step ViewportInside {} [.setWindow 1366 768,
      .setViewport 0 0 1366 768 1366 768, .setZoom 200, .moveCursor 683 384, .redraw narrower] := by
    simp [Always, ViewportInside, Fitted, step, Renderer.setViewport, Axis.Inside]
  have hcursor : Always step CursorInside {} [.setWindow 1366 768,
      .setViewport 0 0 1366 768 1366 768, .setZoom 200, .moveCursor 683 384, .redraw narrower] := by
    simp [Always, CursorInside, step, Renderer.setViewport, Renderer.setWindow, Renderer.setZoom]
  refine ⟨hviewport, hcursor, fun h => ?_⟩
  obtain ⟨-, -, -, -, hwindow, -⟩ := h
  obtain ⟨-, -, -, -, hcursor, -⟩ := hcursor
  have hwide := (zoomWindow_iff_wide (fun _ => by
    simp [step, Renderer.setViewport, Renderer.setWindow, Renderer.setZoom])
    hcursor).1 hwindow
  have hnarrow := (hwide (by decide) (by decide)).2
  exact absurd hnarrow (by decide)

end Scene

end TermuxX11.Activity.Viewport
