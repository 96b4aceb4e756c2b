import TermuxX11.Activity.Viewport
import TermuxX11.Activity.Dimensions

/-!
# Fitting the picture into its place

`updateViewport` takes the insets off the surface and puts the largest picture of the shape of the
screen into the middle of what is left.  Sizes are multiplied before they are divided, as `int`s.
The picture is where it should be exactly if these products are `int`s and the screen is not so
long or so wide that less than a pixel of it is seen (`Fittable`).

The arithmetic is a parameter, as for `getDimensionsFromSettings`.
-/

namespace TermuxX11.Activity

open Java
open Viewport (Insets)

/-- What is passed to `setViewport`. -/
structure Placement where
  left : ℤ
  top : ℤ
  width : ℤ
  height : ℤ
  expectedW : ℤ
  expectedH : ℤ
  deriving DecidableEq

section

variable (A : Arithmetic)

/-- `availableW`, or `availableH`. -/
def available (surface before after : ℤ) : Except Exception ℤ := do
  return max 0 (← A ((← A (surface - before)) - after))

/-- `drawW` and `drawH`. -/
def drawDimensions (displayStretch : Bool) (availableW availableH px py : ℤ) :
    Except Exception (ℤ × ℤ) :=
  if displayStretch then .ok (availableW, availableH)
  else do
    let drawW ← A.divide (← A (availableH * px)) py
    if availableW > drawW then return (drawW, availableH)
    else return (availableW, ← A.divide (← A (availableW * py)) px)

/-- `left` and `viewport.width()`, or `top` and `viewport.height()`. -/
def place (before available draw : ℤ) : Except Exception (ℤ × ℤ) := do
  let start ← A (before + (← A.divide (← A (available - draw)) 2))
  let stop ← A (start + draw)
  return (start, ← A (stop - start))

/-- `updateViewport`, up to what it passes to `setViewport`. -/
def updateViewport (prefs : DisplayPrefs) (surfaceW surfaceH : Int32) (insets : Insets) :
    Except Exception (Option Placement) := do
  let availableW ← available A surfaceW.toInt insets.left.toInt insets.right.toInt
  let availableH ← available A surfaceH.toInt insets.top.toInt insets.bottom.toInt
  if availableW = 0 ∨ availableH = 0 then return none
  else
    let (px, py) ← getDimensionsFromSettings A prefs availableW availableH
    let (drawW, drawH) ← drawDimensions A prefs.displayStretch availableW availableH px py
    let (left, width) ← place A insets.left.toInt availableW drawW
    let (top, height) ← place A insets.top.toInt availableH drawH
    return some ⟨left, top, width, height, px, py⟩

end

/-! ### Without overflow -/

theorem refines_available (surface before after : ℤ) :
    Refines (available .checked surface before after) (available .wrapping surface before after) :=
  (refines_checked _).bind fun _ => (refines_checked _).bind fun _ => Refines.refl _

theorem refines_drawDimensions (displayStretch : Bool) (availableW availableH px py : ℤ) :
    Refines (drawDimensions .checked displayStretch availableW availableH px py)
      (drawDimensions .wrapping displayStretch availableW availableH px py) := by
  refine Refines.ite (Refines.refl _) ?_
  refine (refines_checked _).bind fun _ => (refines_divide _ _).bind fun _ => ?_
  refine Refines.ite (Refines.refl _) ?_
  exact (refines_checked _).bind fun _ => (refines_divide _ _).bind fun _ => Refines.refl _

theorem refines_place (before available draw : ℤ) :
    Refines (place .checked before available draw) (place .wrapping before available draw) :=
  (refines_checked _).bind fun _ => (refines_divide _ _).bind fun _ =>
    (refines_checked _).bind fun _ => (refines_checked _).bind fun _ =>
      (refines_checked _).bind fun _ => Refines.refl _

/-- Where nothing overflows, the exact result is the one of the code. -/
theorem refines_updateViewport (prefs : DisplayPrefs) (surfaceW surfaceH : Int32)
    (insets : Insets) :
    Refines (updateViewport .checked prefs surfaceW surfaceH insets)
      (updateViewport .wrapping prefs surfaceW surfaceH insets) := by
  refine (refines_available _ _ _).bind fun _ => (refines_available _ _ _).bind fun _ => ?_
  refine Refines.ite (Refines.refl _) (refines_getDimensionsFromSettings.bind fun _ => ?_)
  refine (refines_drawDimensions _ _ _ _ _).bind fun _ => ?_
  exact (refines_place _ _ _).bind fun _ => (refines_place _ _ _).bind fun _ => Refines.refl _

/-! ### Which places fit -/

section

variable {availableW availableH px py : ℤ}

/-- The picture has pixels both ways, and the product that it is measured with is an `int`. -/
structure Displayable (availableW availableH px py : ℤ) : Prop where
  product_lt : availableH * px < 2 ^ 31
  py_le : py ≤ availableH * px
  px_le : px ≤ availableW * py

/-- A screen that is narrower than its place is as high as it. -/
theorem largest_of_narrow (hx : 0 < px) (hy : 0 < py)
    (h : availableH * px / py < availableW) :
    min availableW (availableH * px / py) = availableH * px / py ∧
      min availableH (availableW * py / px) = availableH :=
  ⟨min_eq_right h.le,
    min_eq_left (Int.le_ediv_of_mul_le hx ((Int.ediv_lt_iff_lt_mul hy).1 h).le)⟩

/-- Another one is as wide as its place. -/
theorem largest_of_not_narrow (hx : 0 < px) (hy : 0 < py)
    (h : ¬ availableH * px / py < availableW) :
    min availableW (availableH * px / py) = availableW ∧
      min availableH (availableW * py / px) = availableW * py / px ∧
      availableW * py ≤ availableH * px := by
  have hle : availableW * py ≤ availableH * px := not_lt.1 (mt (Int.ediv_lt_iff_lt_mul hy).2 h)
  exact ⟨min_eq_left (not_lt.1 h), min_eq_right (Int.ediv_le_of_le_mul hx hle), hle⟩

theorem ediv_pos_iff {n d : ℤ} (hd : 0 < d) : 0 < n / d ↔ d ≤ n := by
  rw [← Int.add_one_le_iff, zero_add, Int.le_ediv_iff_mul_le hd, one_mul]

/-- The largest picture has pixels both ways. -/
theorem displayable_iff (hw : 0 < availableW) (hh : 0 < availableH) (hx : 0 < px) (hy : 0 < py) :
    Displayable availableW availableH px py ↔ availableH * px < 2 ^ 31 ∧
      0 < min availableW (availableH * px / py) ∧ 0 < min availableH (availableW * py / px) := by
  rw [lt_min_iff, lt_min_iff, ediv_pos_iff hx, ediv_pos_iff hy]
  constructor
  · rintro ⟨hlt, hpy, hpx⟩
    exact ⟨hlt, ⟨hw, hpy⟩, ⟨hh, hpx⟩⟩
  · rintro ⟨hlt, ⟨-, hpy⟩, ⟨-, hpx⟩⟩
    exact ⟨hlt, hpy, hpx⟩

/-- The exact size of the picture. -/
theorem drawDimensions_of_lt (hw : 0 < availableW) (hh : 0 < availableH) (hx : 0 < px)
    (hy : 0 < py) (hlt : availableH * px < 2 ^ 31) :
    drawDimensions .checked false availableW availableH px py =
      .ok (min availableW (availableH * px / py), min availableH (availableW * py / px)) := by
  have hproduct : 0 < availableH * px := mul_pos hh hx
  have hproduct' : 0 < availableW * py := mul_pos hw hy
  refine bind_eq_ok.2 ⟨_, Arithmetic.checked_of_mem (by omega) hlt, ?_⟩
  refine bind_eq_ok.2 ⟨_, Arithmetic.divide_checked_of_pos hproduct.le hlt hy, ?_⟩
  split_ifs with hnarrow
  · obtain ⟨hdrawW, hdrawH⟩ := largest_of_narrow hx hy hnarrow
    rw [hdrawW, hdrawH]
    rfl
  · obtain ⟨hdrawW, hdrawH, hle⟩ := largest_of_not_narrow hx hy hnarrow
    -- the other product is no larger
    refine bind_eq_ok.2 ⟨_, Arithmetic.checked_of_mem (by omega) (hle.trans_lt hlt), ?_⟩
    refine bind_eq_ok.2 ⟨_, Arithmetic.divide_checked_of_pos hproduct'.le (hle.trans_lt hlt) hx, ?_⟩
    rw [hdrawW, hdrawH]
    rfl

theorem product_lt_of_drawDimensions {drawSize : ℤ × ℤ}
    (h : drawDimensions .checked false availableW availableH px py = .ok drawSize) :
    availableH * px < 2 ^ 31 := by
  obtain ⟨m, hm, -⟩ := bind_eq_ok.1 h
  exact (Arithmetic.checked_eq_ok.1 hm).2.2

/-- There is a picture exactly if it can be displayed. -/
theorem drawDimensions_checked (hw : 0 < availableW) (hh : 0 < availableH) (hx : 0 < px)
    (hy : 0 < py) {drawW drawH : ℤ} :
    (drawDimensions .checked false availableW availableH px py = .ok (drawW, drawH) ∧
        0 < drawW ∧ 0 < drawH) ↔
      Displayable availableW availableH px py ∧ drawW = min availableW (availableH * px / py) ∧
        drawH = min availableH (availableW * py / px) := by
  rw [displayable_iff hw hh hx hy]
  constructor
  · rintro ⟨hok, hdrawW, hdrawH⟩
    have hlt := product_lt_of_drawDimensions hok
    rw [drawDimensions_of_lt hw hh hx hy hlt] at hok
    obtain ⟨rfl, rfl⟩ := Prod.mk.inj (Except.ok.inj hok)
    exact ⟨⟨hlt, hdrawW, hdrawH⟩, rfl, rfl⟩
  · rintro ⟨⟨hlt, hdrawW, hdrawH⟩, rfl, rfl⟩
    exact ⟨drawDimensions_of_lt hw hh hx hy hlt, hdrawW, hdrawH⟩

/-- The exact place of a picture along one axis. -/
theorem place_checked {before draw : ℤ} (hbefore : -2 ^ 31 ≤ before) (hw : availableW < 2 ^ 31)
    (hdraw : 0 < draw) (hle : draw ≤ availableW) {start size : ℤ} :
    place .checked before availableW draw = .ok (start, size) ↔
      2 * before + availableW + draw < 2 ^ 32 ∧ start = before + (availableW - draw) / 2 ∧
        size = draw := by
  have hhalf : Arithmetic.checked.divide (availableW - draw) 2 = .ok ((availableW - draw) / 2) :=
    Arithmetic.divide_checked_of_pos (by omega) (by omega) (by norm_num)
  constructor
  · intro hok
    obtain ⟨m, hm, hok⟩ := bind_eq_ok.1 hok
    obtain ⟨rfl, -⟩ := Arithmetic.checked_eq_ok.1 hm
    obtain ⟨q, hq, hok⟩ := bind_eq_ok.1 hok
    obtain rfl := Except.ok.inj (hhalf.symm.trans hq)
    obtain ⟨start', hstart, hok⟩ := bind_eq_ok.1 hok
    obtain ⟨rfl, -⟩ := Arithmetic.checked_eq_ok.1 hstart
    obtain ⟨stop, hstop, hok⟩ := bind_eq_ok.1 hok
    obtain ⟨rfl, -, hstop⟩ := Arithmetic.checked_eq_ok.1 hstop
    obtain ⟨size', hsize, hok⟩ := bind_eq_ok.1 hok
    obtain ⟨rfl, -⟩ := Arithmetic.checked_eq_ok.1 hsize
    obtain ⟨rfl, rfl⟩ := Prod.mk.inj (Except.ok.inj hok)
    exact ⟨by omega, rfl, by omega⟩
  · rintro ⟨hend, rfl, rfl⟩
    refine bind_eq_ok.2 ⟨_, Arithmetic.checked_of_mem (by omega) (by omega), ?_⟩
    refine bind_eq_ok.2 ⟨_, hhalf, ?_⟩
    refine bind_eq_ok.2 ⟨_, Arithmetic.checked_of_mem (by omega) (by omega), ?_⟩
    refine bind_eq_ok.2 ⟨_, Arithmetic.checked_of_mem (by omega) (by omega), ?_⟩
    refine bind_eq_ok.2 ⟨_, Arithmetic.checked_of_mem (by omega) (by omega), ?_⟩
    exact congrArg Except.ok (Prod.ext rfl (by simp))

theorem size_of_place_checked {before draw start size : ℤ}
    (h : place .checked before availableW draw = .ok (start, size)) : size = draw := by
  obtain ⟨_, -, h⟩ := bind_eq_ok.1 h
  obtain ⟨_, -, h⟩ := bind_eq_ok.1 h
  obtain ⟨start', -, h⟩ := bind_eq_ok.1 h
  obtain ⟨stop, hstop, h⟩ := bind_eq_ok.1 h
  obtain ⟨rfl, -⟩ := Arithmetic.checked_eq_ok.1 hstop
  obtain ⟨size', hsize, h⟩ := bind_eq_ok.1 h
  obtain ⟨rfl, -⟩ := Arithmetic.checked_eq_ok.1 hsize
  obtain ⟨-, rfl⟩ := Prod.mk.inj (Except.ok.inj h)
  exact add_sub_cancel_left _ _

/-- The exact size of the place along one axis. -/
theorem available_checked {surface before after : ℤ} (hpos : 0 < surface - before - after)
    (hafter : -2 ^ 31 ≤ after) {n : ℤ} :
    available .checked surface before after = .ok n ↔
      surface - before < 2 ^ 31 ∧ surface - before - after < 2 ^ 31 ∧
        n = surface - before - after := by
  constructor
  · intro hok
    obtain ⟨m, hm, hok⟩ := bind_eq_ok.1 hok
    obtain ⟨rfl, -, hm⟩ := Arithmetic.checked_eq_ok.1 hm
    obtain ⟨k, hk, hok⟩ := bind_eq_ok.1 hok
    obtain ⟨rfl, -, hk⟩ := Arithmetic.checked_eq_ok.1 hk
    obtain rfl := Except.ok.inj hok
    exact ⟨hm, hk, max_eq_right hpos.le⟩
  · rintro ⟨hm, hk, rfl⟩
    refine bind_eq_ok.2 ⟨_, Arithmetic.checked_of_mem (by omega) hm, ?_⟩
    refine bind_eq_ok.2 ⟨_, Arithmetic.checked_of_mem (by omega) hk, ?_⟩
    exact congrArg Except.ok (max_eq_right hpos.le)

end

/-! ### The picture -/

/-- A picture of a size is in the middle of the place from `first` to `last`. -/
structure Middle (first last start size : ℤ) : Prop where
  nonempty : 0 < size
  inside : first ≤ start ∧ start + size ≤ last
  centred : |(start - first) - (last - (start + size))| ≤ 1

/-- The picture of a screen is in the middle of its place, touches it, and has the shape of the
screen up to a pixel. -/
structure Placement.Fits (v : Placement) (surfaceW surfaceH : Int32) (insets : Insets) :
    Prop where
  screen_pos : 0 < v.expectedW ∧ 0 < v.expectedH
  horizontal : Middle insets.left.toInt (surfaceW.toInt - insets.right.toInt) v.left v.width
  vertical : Middle insets.top.toInt (surfaceH.toInt - insets.bottom.toInt) v.top v.height
  touches :
    v.left = insets.left.toInt ∧ v.left + v.width = surfaceW.toInt - insets.right.toInt ∨
      v.top = insets.top.toInt ∧ v.top + v.height = surfaceH.toInt - insets.bottom.toInt
  aspect : |(v.width - v.height * v.expectedW / v.expectedH : ℚ)| < 1 ∨
    |(v.height - v.width * v.expectedH / v.expectedW : ℚ)| < 1

/-- Nothing is divided by zero or overflows, and the picture is where it should be. -/
def Fitted (prefs : DisplayPrefs) (surfaceW surfaceH : Int32) (insets : Insets) : Prop :=
  ∃ v, updateViewport .checked prefs surfaceW surfaceH insets = .ok (some v) ∧
    updateViewport .wrapping prefs surfaceW surfaceH insets = .ok (some v) ∧
    v.Fits surfaceW surfaceH insets

/-- The sizes that are computed along one axis are `int`s, for a picture of a size. -/
structure Computable (surface before after draw : ℤ) : Prop where
  before_lt : surface - before < 2 ^ 31
  available_lt : surface - before - after < 2 ^ 31
  end_lt : 2 * before + (surface - before - after) + draw < 2 ^ 32

/-- There is a resolution, it can be shown, and everything that is computed is an `int`. -/
def Fittable (prefs : DisplayPrefs) (surfaceW surfaceH : Int32) (insets : Insets) : Prop :=
  let availableW := surfaceW.toInt - insets.left.toInt - insets.right.toInt
  let availableH := surfaceH.toInt - insets.top.toInt - insets.bottom.toInt
  ∃ px py, prefs.resolution availableW availableH = some (px, py) ∧ 0 < px ∧ 0 < py ∧
    Displayable availableW availableH px py ∧
    Computable surfaceW.toInt insets.left.toInt insets.right.toInt
      (min availableW (availableH * px / py)) ∧
    Computable surfaceH.toInt insets.top.toInt insets.bottom.toInt
      (min availableH (availableW * py / px))

/-- The largest picture of a screen in the middle of its place. -/
def Placement.largest (surfaceW surfaceH : Int32) (insets : Insets) (px py : ℤ) : Placement :=
  let availableW := surfaceW.toInt - insets.left.toInt - insets.right.toInt
  let availableH := surfaceH.toInt - insets.top.toInt - insets.bottom.toInt
  let drawW := min availableW (availableH * px / py)
  let drawH := min availableH (availableW * py / px)
  { left := insets.left.toInt + (availableW - drawW) / 2
    top := insets.top.toInt + (availableH - drawH) / 2
    width := drawW
    height := drawH
    expectedW := px
    expectedH := py }

theorem abs_ediv_sub_lt {n d : ℤ} (hd : 0 < d) : |((n / d : ℤ) - n / d : ℚ)| < 1 := by
  have hd' : (0 : ℚ) < d := by exact_mod_cast hd
  have hlow : ((n / d : ℤ) : ℚ) * d ≤ n := by exact_mod_cast Int.ediv_mul_le n hd.ne'
  have hhigh : (n : ℚ) < ((n / d : ℤ) + 1) * d := by
    exact_mod_cast Int.lt_ediv_add_one_mul_self n hd
  rw [← le_div_iff₀ hd'] at hlow
  rw [← div_lt_iff₀ hd'] at hhigh
  rw [abs_lt]
  constructor <;> linarith

/-- The largest picture takes the whole place one way. -/
theorem largest_cases {px py : ℤ} (hx : 0 < px) (hy : 0 < py) (availableW availableH : ℤ) :
    min availableW (availableH * px / py) = availableW ∧
        min availableH (availableW * py / px) = availableW * py / px ∨
      min availableW (availableH * px / py) = availableH * px / py ∧
        min availableH (availableW * py / px) = availableH := by
  by_cases hnarrow : availableH * px / py < availableW
  · exact Or.inr (largest_of_narrow hx hy hnarrow)
  · obtain ⟨hdrawW, hdrawH, -⟩ := largest_of_not_narrow hx hy hnarrow
    exact Or.inl ⟨hdrawW, hdrawH⟩

/-- The largest picture has the shape of the screen up to a pixel. -/
theorem aspect_largest {px py : ℤ} (hx : 0 < px) (hy : 0 < py) (availableW availableH : ℤ) :
    |((min availableW (availableH * px / py) : ℤ) -
        (min availableH (availableW * py / px) : ℤ) * px / py : ℚ)| < 1 ∨
      |((min availableH (availableW * py / px) : ℤ) -
        (min availableW (availableH * px / py) : ℤ) * py / px : ℚ)| < 1 := by
  rcases largest_cases hx hy availableW availableH with ⟨hdrawW, hdrawH⟩ | ⟨hdrawW, hdrawH⟩
  · refine Or.inr ?_
    rw [hdrawW, hdrawH, ← Int.cast_mul]
    exact abs_ediv_sub_lt hx
  · refine Or.inl ?_
    rw [hdrawW, hdrawH, ← Int.cast_mul]
    exact abs_ediv_sub_lt hy

/-- A picture of the size of its place touches both edges of it. -/
theorem touches_of_eq {surface before after draw : ℤ} (h : draw = surface - before - after) :
    before + (surface - before - after - draw) / 2 = before ∧
      before + (surface - before - after - draw) / 2 + draw = surface - after := by
  subst h
  constructor <;> omega

/-- Half of what is left is on either side. -/
theorem middle_of_place {surface before after draw : ℤ} (hdraw : 0 < draw)
    (hle : draw ≤ surface - before - after) :
    Middle before (surface - after) (before + (surface - before - after - draw) / 2) draw := by
  refine ⟨hdraw, ⟨by omega, by omega⟩, ?_⟩
  rw [abs_le]
  constructor <;> omega

section

variable {prefs : DisplayPrefs} {surfaceW surfaceH : Int32} {insets : Insets}

theorem fittable_of_fitted (hstretch : prefs.displayStretch = false)
    (hw : 0 < surfaceW.toInt - insets.left.toInt - insets.right.toInt)
    (hh : 0 < surfaceH.toInt - insets.top.toInt - insets.bottom.toInt)
    (h : Fitted prefs surfaceW surfaceH insets) : Fittable prefs surfaceW surfaceH insets := by
  obtain ⟨v, hok, -, hfits⟩ := h
  obtain ⟨availableW, havailable, hok⟩ := bind_eq_ok.1 hok
  obtain ⟨hleft, haw, rfl⟩ := (available_checked hw (Int32.le_toInt _)).1 havailable
  obtain ⟨availableH, havailable', hok⟩ := bind_eq_ok.1 hok
  obtain ⟨htop, hah, rfl⟩ := (available_checked hh (Int32.le_toInt _)).1 havailable'
  rw [if_neg (by omega)] at hok
  obtain ⟨⟨px, py⟩, hp, hok⟩ := bind_eq_ok.1 hok
  obtain ⟨⟨drawW, drawH⟩, hdraw, hok⟩ := bind_eq_ok.1 hok
  obtain ⟨⟨left, width⟩, hplace, hok⟩ := bind_eq_ok.1 hok
  obtain ⟨⟨top, height⟩, hplace', hok⟩ := bind_eq_ok.1 hok
  obtain rfl := Option.some.inj (Except.ok.inj hok)
  have hx : 0 < px := hfits.screen_pos.1
  have hy : 0 < py := hfits.screen_pos.2
  obtain rfl := size_of_place_checked hplace
  obtain rfl := size_of_place_checked hplace'
  have hwidth : 0 < width := hfits.horizontal.nonempty
  have hheight : 0 < height := hfits.vertical.nonempty
  rw [hstretch] at hdraw
  obtain ⟨hdisplayable, hdrawW, hdrawH⟩ :=
    (drawDimensions_checked hw hh hx hy).1 ⟨hdraw, hwidth, hheight⟩
  have hend := ((place_checked (Int32.le_toInt _) haw hwidth
    (hdrawW.le.trans (min_le_left _ _))).1 hplace).1
  have hend' := ((place_checked (Int32.le_toInt _) hah hheight
    (hdrawH.le.trans (min_le_left _ _))).1 hplace').1
  exact ⟨px, py, (getDimensionsFromSettings_checked hw hh hx hy).1 hp, hx, hy, hdisplayable,
    ⟨hleft, haw, hdrawW ▸ hend⟩, ⟨htop, hah, hdrawH ▸ hend'⟩⟩

theorem fits_largest {px py : ℤ} (hx : 0 < px) (hy : 0 < py)
    (hw : 0 < surfaceW.toInt - insets.left.toInt - insets.right.toInt)
    (hh : 0 < surfaceH.toInt - insets.top.toInt - insets.bottom.toInt)
    (h : Displayable (surfaceW.toInt - insets.left.toInt - insets.right.toInt)
      (surfaceH.toInt - insets.top.toInt - insets.bottom.toInt) px py) :
    (Placement.largest surfaceW surfaceH insets px py).Fits surfaceW surfaceH insets := by
  obtain ⟨-, hwidth, hheight⟩ := (drawDimensions_checked hw hh hx hy).2 ⟨h, rfl, rfl⟩
  refine ⟨⟨hx, hy⟩, middle_of_place hwidth (min_le_left _ _),
    middle_of_place hheight (min_le_left _ _), ?_, ?_⟩
  · rcases largest_cases hx hy (surfaceW.toInt - insets.left.toInt - insets.right.toInt)
      (surfaceH.toInt - insets.top.toInt - insets.bottom.toInt) with ⟨hfull, -⟩ | ⟨-, hfull⟩
    · exact Or.inl (touches_of_eq hfull)
    · exact Or.inr (touches_of_eq hfull)
  · exact aspect_largest hx hy _ _

theorem fitted_of_fittable (hstretch : prefs.displayStretch = false)
    (hw : 0 < surfaceW.toInt - insets.left.toInt - insets.right.toInt)
    (hh : 0 < surfaceH.toInt - insets.top.toInt - insets.bottom.toInt)
    (h : Fittable prefs surfaceW surfaceH insets) : Fitted prefs surfaceW surfaceH insets := by
  obtain ⟨px, py, hp, hx, hy, hdisplayable, ⟨hleft, haw, hend⟩, ⟨htop, hah, hend'⟩⟩ := h
  obtain ⟨hdraw, hwidth, hheight⟩ := (drawDimensions_checked hw hh hx hy).2 ⟨hdisplayable, rfl, rfl⟩
  have hplace := (place_checked (Int32.le_toInt insets.left) haw hwidth (min_le_left _ _)).2
    ⟨hend, rfl, rfl⟩
  have hplace' := (place_checked (Int32.le_toInt insets.top) hah hheight (min_le_left _ _)).2
    ⟨hend', rfl, rfl⟩
  have hok : updateViewport .checked prefs surfaceW surfaceH insets =
      .ok (some (.largest surfaceW surfaceH insets px py)) := by
    refine bind_eq_ok.2 ⟨_, (available_checked hw (Int32.le_toInt _)).2 ⟨hleft, haw, rfl⟩, ?_⟩
    refine bind_eq_ok.2 ⟨_, (available_checked hh (Int32.le_toInt _)).2 ⟨htop, hah, rfl⟩, ?_⟩
    rw [if_neg (by omega)]
    refine bind_eq_ok.2 ⟨_, (getDimensionsFromSettings_checked hw hh hx hy).2 hp, ?_⟩
    refine bind_eq_ok.2 ⟨_, hstretch ▸ hdraw, ?_⟩
    refine bind_eq_ok.2 ⟨_, hplace, ?_⟩
    refine bind_eq_ok.2 ⟨_, hplace', ?_⟩
    rfl
  exact ⟨_, hok, refines_updateViewport _ _ _ _ _ hok, fits_largest hx hy hw hh hdisplayable⟩

/-- **The picture is fitted into its place** exactly if the product that it is measured with is an
`int` and it has pixels both ways. -/
theorem fitted_iff_fittable (hstretch : prefs.displayStretch = false)
    (hw : 0 < surfaceW.toInt - insets.left.toInt - insets.right.toInt)
    (hh : 0 < surfaceH.toInt - insets.top.toInt - insets.bottom.toInt) :
    Fitted prefs surfaceW surfaceH insets ↔ Fittable prefs surfaceW surfaceH insets :=
  ⟨fittable_of_fitted hstretch hw hh, fitted_of_fittable hstretch hw hh⟩

end

/-- The default resolution above a keyboard. -/
theorem fitted_keyboard : Fitted {} 1080 2340 ⟨0, 0, 0, 800⟩ := by
  refine (fitted_iff_fittable rfl (by decide) (by decide)).2 ⟨1280, 1024, by decide, ?_⟩
  exact ⟨by decide, by decide, ⟨by decide, by decide, by decide⟩, ⟨by decide, by decide, by decide⟩,
    ⟨by decide, by decide, by decide⟩⟩

/-- A resolution that the settings take, whose product with the height of a phone overflows: the
picture has a negative width. -/
theorem widest_overflows :
    onPreferenceChange "2147483647x1".toList = .ok true ∧
      updateViewport .wrapping { displayResolutionCustom := "2147483647x1".toList } 1080 2340
        ⟨0, 0, 0, 0⟩ = .ok (some ⟨1710, 0, -2340, 2340, 2147483647, 1⟩) ∧
      ¬ Fitted { displayResolutionCustom := "2147483647x1".toList } 1080 2340 ⟨0, 0, 0, 0⟩ := by
  have hwrapping : updateViewport .wrapping { displayResolutionCustom := "2147483647x1".toList }
      1080 2340 ⟨0, 0, 0, 0⟩ = .ok (some ⟨1710, 0, -2340, 2340, 2147483647, 1⟩) := by decide
  refine ⟨by decide, hwrapping, ?_⟩
  rintro ⟨v, -, hv, hfits⟩
  obtain rfl := Option.some.inj (Except.ok.inj (hwrapping.symm.trans hv))
  exact absurd hfits.horizontal.nonempty (by decide)

/-! ### The view -/

theorem toInt_max_zero (n : Int32) : (max 0 n).toInt = max 0 n.toInt := by
  show (if 0 ≤ n then n else 0).toInt = _
  rw [max_def]
  simp only [Int32.le_iff_toInt_le, Int32.toInt_zero]
  split_ifs
  · rfl
  · rfl

theorem available_wrapping (surface before after : Int32) :
    available .wrapping surface.toInt before.toInt after.toInt =
      .ok (max 0 (surface - before - after)).toInt := by
  refine bind_eq_ok.2 ⟨_, Arithmetic.wrapping_sub _ _, ?_⟩
  refine bind_eq_ok.2 ⟨_, Arithmetic.wrapping_sub _ _, ?_⟩
  exact congrArg Except.ok (toInt_max_zero _).symm

theorem drawDimensions_wrapping {displayStretch : Bool} {availableW availableH px py : Int32}
    {drawW drawH : ℤ}
    (h : drawDimensions .wrapping displayStretch availableW.toInt availableH.toInt px.toInt
      py.toInt = .ok (drawW, drawH)) :
    drawW = (Viewport.drawSize displayStretch availableW availableH px py).1.toInt ∧
      drawH = (Viewport.drawSize displayStretch availableW availableH px py).2.toInt := by
  rw [drawDimensions] at h
  rw [Viewport.drawSize]
  cases displayStretch with
  | true =>
    obtain ⟨rfl, rfl⟩ := Prod.mk.inj (Except.ok.inj h)
    exact ⟨rfl, rfl⟩
  | false =>
    obtain ⟨m, hm, h⟩ := bind_eq_ok.1 h
    obtain rfl := Except.ok.inj ((Arithmetic.wrapping_mul _ _).symm.trans hm)
    obtain ⟨q, hq, h⟩ := bind_eq_ok.1 h
    obtain rfl := Arithmetic.divide_wrapping hq
    simp only [gt_iff_lt, Bool.false_eq_true, if_false, Int32.lt_iff_toInt_lt]
    split_ifs at h ⊢ with hwide
    · obtain ⟨rfl, rfl⟩ := Prod.mk.inj (Except.ok.inj h)
      exact ⟨rfl, rfl⟩
    · obtain ⟨m, hm, h⟩ := bind_eq_ok.1 h
      obtain rfl := Except.ok.inj ((Arithmetic.wrapping_mul _ _).symm.trans hm)
      obtain ⟨q, hq, h⟩ := bind_eq_ok.1 h
      obtain rfl := Arithmetic.divide_wrapping hq
      obtain ⟨rfl, rfl⟩ := Prod.mk.inj (Except.ok.inj h)
      exact ⟨rfl, rfl⟩

theorem place_wrapping {before available draw : Int32} {start size : ℤ}
    (h : place .wrapping before.toInt available.toInt draw.toInt = .ok (start, size)) :
    start = (before + (available - draw) / 2).toInt ∧ size = draw.toInt := by
  obtain ⟨m, hm, h⟩ := bind_eq_ok.1 h
  obtain rfl := Except.ok.inj ((Arithmetic.wrapping_sub _ _).symm.trans hm)
  obtain ⟨q, hq, h⟩ := bind_eq_ok.1 h
  obtain rfl := Arithmetic.divide_wrapping (b := 2) hq
  obtain ⟨start', hstart, h⟩ := bind_eq_ok.1 h
  obtain rfl := Except.ok.inj ((Arithmetic.wrapping_add _ _).symm.trans hstart)
  obtain ⟨stop, hstop, h⟩ := bind_eq_ok.1 h
  obtain rfl := Except.ok.inj ((Arithmetic.wrapping_add _ _).symm.trans hstop)
  obtain ⟨size', hsize, h⟩ := bind_eq_ok.1 h
  obtain rfl := Except.ok.inj ((Arithmetic.wrapping_sub _ _).symm.trans hsize)
  obtain ⟨rfl, rfl⟩ := Prod.mk.inj (Except.ok.inj h)
  refine ⟨rfl, ?_⟩
  rw [Int32.add_comm, Int32.add_sub_cancel]

/-- What `LorieView` passes to `setViewport`. -/
theorem view_updateViewport {prefs : DisplayPrefs} {surfaceW surfaceH : Int32} {insets : Insets}
    {left top width height : ℤ} {px py : Int32}
    (h : updateViewport .wrapping prefs surfaceW surfaceH insets =
      .ok (some ⟨left, top, width, height, px.toInt, py.toInt⟩))
    (v : Viewport.View) (rendererZoom : ℤ) :
    ∃ v' left' top' width' height',
      v.updateViewport rendererZoom prefs.displayStretch surfaceW surfaceH insets px py =
        some (v', left', top', width', height') ∧
      left = left'.toInt ∧ top = top'.toInt ∧ width = width'.toInt ∧ height = height'.toInt := by
  obtain ⟨_, havailable, h⟩ := bind_eq_ok.1 h
  obtain rfl := Except.ok.inj ((available_wrapping _ _ _).symm.trans havailable)
  obtain ⟨_, havailable, h⟩ := bind_eq_ok.1 h
  obtain rfl := Except.ok.inj ((available_wrapping _ _ _).symm.trans havailable)
  rw [Viewport.View.updateViewport]
  generalize max 0 (surfaceW - insets.left - insets.right) = availableW at h ⊢
  generalize max 0 (surfaceH - insets.top - insets.bottom) = availableH at h ⊢
  have hempty : ¬ (availableW.toInt = 0 ∨ availableH.toInt = 0) := by
    intro hempty
    rw [if_pos hempty] at h
    cases h
  have hempty' : ¬ (availableW = 0 ∨ availableH = 0) := by
    rwa [← Int32.toInt_inj, ← Int32.toInt_inj, Int32.toInt_zero]
  rw [if_neg hempty] at h
  obtain ⟨⟨px', py'⟩, -, h⟩ := bind_eq_ok.1 h
  obtain ⟨⟨drawW, drawH⟩, hdraw, h⟩ := bind_eq_ok.1 h
  obtain ⟨⟨left', width'⟩, hplace, h⟩ := bind_eq_ok.1 h
  obtain ⟨⟨top', height'⟩, hplace', h⟩ := bind_eq_ok.1 h
  obtain ⟨rfl, rfl, rfl, rfl, rfl, rfl⟩ := Placement.mk.inj (Option.some.inj (Except.ok.inj h))
  obtain ⟨rfl, rfl⟩ := drawDimensions_wrapping hdraw
  obtain ⟨rfl, rfl⟩ := place_wrapping hplace
  obtain ⟨rfl, rfl⟩ := place_wrapping hplace'
  dsimp only
  rw [if_neg hempty']
  exact ⟨_, _, _, _, _, rfl, rfl, rfl, rfl, rfl⟩

end TermuxX11.Activity
