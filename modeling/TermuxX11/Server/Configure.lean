import TermuxX11.Wire.ScreenSize

/-!
# Configuring the screen

`lorieConfigureNotify` of `InitOutput.c` compares the size that is asked for with that of the
screen.  What it puts on the screen is the size of the mode that `libxcvt` makes, which comes back
through `RRScreenSizeSet` as 16 bits and is kept by the X server as `short`.

`libxcvt` is a parameter: `hdisplay` and `vdisplay` of the mode for a width, a height and a rate.
-/

namespace TermuxX11.Server

open ByteCoding Wire

/-- The size of a mode, as `libxcvt_gen_mode_info` has it. -/
abbrev Libxcvt := ℤ → ℤ → ℤ → ℤ × ℤ

/-- What is known of `libxcvt`: the mode has the height that was asked for, and the width is
rounded down to a multiple of 8. -/
def Libxcvt.RoundsDown (cvt : Libxcvt) : Prop :=
  ∀ width height framerate, cvt width height framerate = (width / 8 * 8, height)

/-- The screen, `pvfb->root` and the first output.  `rootPixmaps` has the sizes of the pixmaps that
were made for the root window and registered with the activity, newest first. -/
structure Screen where
  width : ℤ := 1280
  height : ℤ := 1024
  rootWidth : ℤ := 1280
  rootHeight : ℤ := 1024
  framerate : ℤ := 30
  vblankInterval : ℤ := 1000000 / 30
  rootName : Bytes := []
  outputName : Bytes := []
  hasOutput : Bool := true
  rootPixmaps : List (ℤ × ℤ) := []

namespace Screen

/-- A `CARD16`. -/
def card16 (n : ℤ) : ℤ := n % 2 ^ 16

/-- The `short` that a number becomes. -/
def short (n : ℤ) : ℤ := n.bmod (2 ^ 16)

/-- The `uint32_t` that an `int` becomes. -/
def uint32 (n : ℤ) : ℤ := n % 2 ^ 32

/-- `lorieRRScreenSetSize`. -/
def lorieRRScreenSetSize (width height : ℤ) (s : Screen) : Screen :=
  { s with
    width := short width
    height := short height
    rootWidth := uint32 (short width)
    rootHeight := uint32 (short height)
    rootPixmaps := (width, height) :: s.rootPixmaps }

/-- `RRScreenSizeSet`, which takes the sizes as `CARD16`. -/
def RRScreenSizeSet (width height : ℤ) (s : Screen) : Screen :=
  s.lorieRRScreenSetSize (card16 width) (card16 height)

/-- The name of the output is saved. -/
def rename (k : Configuration) (s : Screen) : Screen :=
  let name := if s.hasOutput then k.name.map (List.take (min k.nameSize 1024)) else none
  { s with
    rootName := name.getD s.rootName
    outputName := (name.map (List.take 1023)).getD s.outputName }

/-- `framerate ? framerate : 30`. -/
def rate (k : Configuration) : ℤ := if k.framerate = 0 then 30 else k.framerate

/-- What is asked for differs from what the screen has. -/
def Differs (k : Configuration) (s : Screen) : Prop :=
  s.hasOutput = true ∧ k.width ≠ 0 ∧ k.height ≠ 0 ∧
    (s.width ≠ k.width ∨ s.height ≠ k.height ∨ s.framerate ≠ uint32 (rate k))

instance (k : Configuration) (s : Screen) : Decidable (s.Differs k) :=
  inferInstanceAs (Decidable (_ ∧ _ ∧ _ ∧ _))

/-- `lorieConfigureNotify`. -/
def lorieConfigureNotify (cvt : Libxcvt) (k : Configuration) (s : Screen) : Screen :=
  let s := s.rename k
  if s.Differs k then
    let mode := cvt k.width k.height (rate k)
    { s.RRScreenSizeSet (card16 mode.1) (card16 mode.2) with
      framerate := uint32 (rate k)
      vblankInterval := 1000000 / uint32 (rate k) }
  else s

/-- The size can be that of a mode, and of a screen. -/
def Installable (k : Configuration) : Prop :=
  8 ∣ k.width ∧ -2 ^ 15 ≤ k.width ∧ k.width < 2 ^ 15 ∧ -2 ^ 15 ≤ k.height ∧ k.height < 2 ^ 15

variable {cvt : Libxcvt} {k : Configuration} {s : Screen}

/-- A `short` is in its range, and the number it came from up to multiples of `2 ^ 16`. -/
theorem short_spec (n : ℤ) :
    -2 ^ 15 ≤ short n ∧ short n < 2 ^ 15 ∧ (short n - n) % 2 ^ 16 = 0 := by
  unfold short
  rw [Int.bmod_def]
  norm_num
  split_ifs
  · omega
  · omega

@[simp] theorem short_card16 (n : ℤ) : short (card16 n) = short n := by
  have hn := short_spec n
  have hcard := short_spec (card16 n)
  unfold card16 at hcard ⊢
  omega

@[simp] theorem card16_card16 (n : ℤ) : card16 (card16 n) = card16 n :=
  Int.emod_emod_of_dvd n dvd_rfl

/-- The width of the screen is the one that was asked for exactly if it is that of a mode, and a
`short`. -/
theorem short_width_iff (n : ℤ) :
    short (n / 8 * 8) = n ↔ 8 ∣ n ∧ -2 ^ 15 ≤ n ∧ n < 2 ^ 15 := by
  have hn := short_spec (n / 8 * 8)
  omega

theorem short_eq_iff (n : ℤ) : short n = n ↔ -2 ^ 15 ≤ n ∧ n < 2 ^ 15 := by
  have hn := short_spec n
  omega

/-- A configuration that differs is installed. -/
theorem lorieConfigureNotify_of_differs (hcvt : cvt.RoundsDown) (h : s.Differs k) :
    (s.lorieConfigureNotify cvt k).rootPixmaps.length = s.rootPixmaps.length + 1 ∧
      (s.lorieConfigureNotify cvt k).hasOutput = s.hasOutput ∧
      (s.lorieConfigureNotify cvt k).width = short (k.width / 8 * 8) ∧
      (s.lorieConfigureNotify cvt k).height = short k.height ∧
      (s.lorieConfigureNotify cvt k).framerate = uint32 (rate k) := by
  have hrename : (s.rename k).Differs k := h
  unfold lorieConfigureNotify
  dsimp only
  rw [if_pos hrename, hcvt]
  refine ⟨rfl, rfl, ?_, ?_, rfl⟩
  · show short (card16 (card16 (k.width / 8 * 8))) = _
    rw [card16_card16, short_card16]
  · show short (card16 (card16 k.height)) = _
    rw [card16_card16, short_card16]

/-- One that does not differ leaves the screen. -/
theorem rootPixmaps_of_not_differs (cvt : Libxcvt) (h : ¬ s.Differs k) :
    (s.lorieConfigureNotify cvt k).rootPixmaps = s.rootPixmaps ∧
      ((s.lorieConfigureNotify cvt k).Differs k ↔ s.Differs k) := by
  have hrename : ¬ (s.rename k).Differs k := h
  unfold lorieConfigureNotify
  dsimp only
  rw [if_neg hrename]
  exact ⟨rfl, Iff.rfl⟩

/-- What was installed differs exactly if it could not be installed as it was. -/
theorem differs_lorieConfigureNotify_iff (hcvt : cvt.RoundsDown) (h : s.Differs k) :
    (s.lorieConfigureNotify cvt k).Differs k ↔ ¬ Installable k := by
  obtain ⟨-, houtput, hwidth, hheight, hrate⟩ := lorieConfigureNotify_of_differs hcvt h
  have hasked : s.hasOutput = true ∧ k.width ≠ 0 ∧ k.height ≠ 0 := ⟨h.1, h.2.1, h.2.2.1⟩
  have hinstallable : Installable k ↔
      short (k.width / 8 * 8) = k.width ∧ short k.height = k.height := by
    rw [short_width_iff, short_eq_iff, and_assoc, and_assoc]
    rfl
  rw [hinstallable]
  unfold Differs
  rw [houtput, hwidth, hheight, hrate, not_and_or]
  constructor
  · rintro ⟨-, -, -, hne | hne | hne⟩
    · exact Or.inl hne
    · exact Or.inr hne
    · exact absurd rfl hne
  · rintro (hne | hne)
    · exact ⟨hasked.1, hasked.2.1, hasked.2.2, Or.inl hne⟩
    · exact ⟨hasked.1, hasked.2.1, hasked.2.2, Or.inr (Or.inl hne)⟩

/-- **A configuration that is repeated is installed once if it can be.**  Of two calls of
`lorieConfigureNotify` with the same arguments at most one makes a new root pixmap, if and only if
the first one makes none or the size can be that of a mode and of a screen. -/
theorem resizedOnce_iff (hcvt : cvt.RoundsDown) (k : Configuration) (s : Screen) :
    ((s.lorieConfigureNotify cvt k).lorieConfigureNotify cvt k).rootPixmaps.length ≤
        s.rootPixmaps.length + 1 ↔
      ¬ s.Differs k ∨ Installable k := by
  by_cases hfirst : s.Differs k
  · obtain ⟨hlength, -⟩ := lorieConfigureNotify_of_differs hcvt hfirst
    have hsecond := differs_lorieConfigureNotify_iff hcvt hfirst
    by_cases hinstallable : Installable k
    · refine iff_of_true ?_ (Or.inr hinstallable)
      rw [(rootPixmaps_of_not_differs cvt fun h => hsecond.1 h hinstallable).1]
      exact hlength.le
    · refine iff_of_false ?_ fun h => h.elim (· hfirst) hinstallable
      rw [(lorieConfigureNotify_of_differs hcvt (hsecond.2 hinstallable)).1, hlength]
      omega
  · obtain ⟨hpixmaps, hdiffers⟩ := rootPixmaps_of_not_differs cvt hfirst
    refine iff_of_true ?_ (Or.inl hfirst)
    rw [(rootPixmaps_of_not_differs cvt fun h => hfirst (hdiffers.1 h)).1, hpixmaps]
    exact Nat.le_succ _

/-- A mode with the width rounded down. -/
def roundedMode : Libxcvt := fun width height _ => (width / 8 * 8, height)

/-- A screen of 1280 x 720. -/
theorem resizedOnce_1280 :
    ((({} : Screen).lorieConfigureNotify roundedMode ⟨1280, 720, 60, 0, none⟩).lorieConfigureNotify
      roundedMode ⟨1280, 720, 60, 0, none⟩).rootPixmaps.length ≤ 1 := by
  refine (resizedOnce_iff (fun _ _ _ => rfl) ⟨1280, 720, 60, 0, none⟩ {}).2 (Or.inr ?_)
  exact ⟨⟨160, rfl⟩, by decide, by decide, by decide, by decide⟩

/-- A width of 1082 is rounded down to 1080, and the screen is made anew each time. -/
theorem resizedTwice_1082 :
    ((({} : Screen).lorieConfigureNotify roundedMode ⟨1082, 2400, 60, 0, none⟩).lorieConfigureNotify
      roundedMode ⟨1082, 2400, 60, 0, none⟩).rootPixmaps = [(1080, 2400), (1080, 2400)] := by
  decide

end Screen

end TermuxX11.Server
