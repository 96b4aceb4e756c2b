import TermuxX11.Lib.Exceptions
import TermuxX11.Preferences.Receiver

/-!
# The resolution of the screen

`getDimensionsFromSettings` makes the resolution of the X screen from the place that is there for
its picture and from the settings.  A custom resolution is text, and is parsed here, on the
settings screen and for the command line, by the same code.  It catches a
`NumberFormatException`, but a text that has no second piece takes it out of the bounds of an
array.

The arithmetic of `int`s is a parameter.
-/

namespace TermuxX11.Activity

open Java Preferences

/-! ### A custom resolution -/

/-- The first two pieces of a text, as numbers. -/
def parseResolution (value : Text) : Except Exception (ℤ × ℤ) := do
  let resolution := split 'x' value
  let w ← parse (← index resolution 0)
  let h ← parse (← index resolution 1)
  return (w, h)

/-- A width and a height that are not positive are no numbers either. -/
def parsePositive (value : Text) : Except Exception (ℤ × ℤ) := do
  let (w, h) ← parseResolution value
  if w ≤ 0 ∨ h ≤ 0 then throw .numberFormat else return (w, h)

/-- The case "custom" of `getDimensionsFromSettings`. -/
def customResolution (value : Text) : Except Exception (ℤ × ℤ) :=
  catchNumberFormat (1280, 1024) (parsePositive value)

/-- `onPreferenceChange` of the custom resolution; it refuses a value with the message "Wrong
resolution format". -/
def onPreferenceChange (value : Text) : Except Exception Bool :=
  catchNumberFormat false (parsePositive value >>= fun _ => return true)

/-- A text stands for a resolution. -/
def HasResolution (value : Text) (width height : ℤ) : Prop :=
  ∃ w h rest, split 'x' value = w :: h :: rest ∧ parseInt w = some width ∧
    parseInt h = some height ∧ 0 < width ∧ 0 < height

theorem isResolution_iff {value : Text} :
    IsResolution value ↔ ∃ width height, HasResolution value width height := by
  constructor
  · rintro ⟨w, h, rest, width, height, hvalue⟩
    exact ⟨width, height, w, h, rest, hvalue⟩
  · rintro ⟨width, height, w, h, rest, hvalue⟩
    exact ⟨w, h, rest, width, height, hvalue⟩

/-- Right handling of a text: the parsers take it with the resolution that it stands for, and
refuse it in their ways if it stands for none. -/
structure Handled (value : Text) : Prop where
  accepted : ∀ width height, HasResolution value width height →
    onPreferenceChange value = .ok true ∧
      checkResolution value = .ok { puts := [(displayResolutionCustom, .string value)] } ∧
      customResolution value = .ok (width, height)
  refused : ¬ IsResolution value →
    onPreferenceChange value = .ok false ∧ checkResolution value = .error .wrongResolution ∧
      customResolution value = .ok (1280, 1024)

/-- A text has two pieces, or its only piece is no number. -/
def Separated (value : Text) : Prop :=
  match split 'x' value with
  | [] => False
  | [w] => parseInt w = none
  | _ :: _ :: _ => True

instance (value : Text) : Decidable (Separated value) := by
  unfold Separated
  split <;> infer_instance

section

variable {value w h : Text} {rest : List Text}

theorem parsePositive_of_nil (hs : split 'x' value = []) :
    parsePositive value = .error .arrayIndexOutOfBounds := by
  rw [parsePositive, parseResolution, hs]
  rfl

theorem parsePositive_of_none (hs : split 'x' value = w :: rest) (hw : parseInt w = none) :
    parsePositive value = .error .numberFormat := by
  rw [parsePositive, parseResolution, hs]
  simp [index, parse, hw, bind, Except.bind]

theorem parsePositive_of_singleton {width : ℤ} (hs : split 'x' value = [w])
    (hw : parseInt w = some width) : parsePositive value = .error .arrayIndexOutOfBounds := by
  rw [parsePositive, parseResolution, hs]
  simp [index, parse, hw, bind, Except.bind]

theorem parsePositive_of_cons_cons {width : ℤ} (hs : split 'x' value = w :: h :: rest)
    (hw : parseInt w = some width) :
    parsePositive value =
      match parseInt h with
      | none => .error .numberFormat
      | some height =>
        if width ≤ 0 ∨ height ≤ 0 then .error .numberFormat else .ok (width, height) := by
  rw [parsePositive, parseResolution, hs]
  cases hh : parseInt h with
  | none => simp [index, parse, hw, hh, bind, Except.bind]
  | some height => simp [index, parse, hw, hh, bind, Except.bind, pure, Except.pure, throw,
      throwThe, MonadExceptOf.throw]

end

/-- The answer of the receiver is that of its `catch`, or that to an exception. -/
theorem checkResolution_eq (value : Text) :
    checkResolution value =
      match parsePositive value with
      | .ok _ => .ok { puts := [(displayResolutionCustom, .string value)] }
      | .error .numberFormat => .error .wrongResolution
      | .error _ => .error .exception := by
  rw [checkResolution]
  split
  · rename_i hs
    rw [parsePositive_of_nil hs]
  · rename_i w rest hs
    split
    · rename_i hw
      rw [parsePositive_of_none hs hw]
    · rename_i width hw
      split
      · rw [parsePositive_of_singleton hs hw]
      · rename_i h rest
        rw [parsePositive_of_cons_cons hs hw]
        cases parseInt h with
        | none => rfl
        | some height =>
          by_cases hpos : width ≤ 0 ∨ height ≤ 0
          · simp only [if_pos hpos]
          · simp only [if_neg hpos]

section

variable {value : Text}

theorem HasResolution.parsePositive_eq {width height : ℤ} (h : HasResolution value width height) :
    parsePositive value = .ok (width, height) := by
  obtain ⟨a, b, rest, hs, ha, hb, hw, hh⟩ := h
  rw [parsePositive_of_cons_cons hs ha, hb]
  exact if_neg (by omega)

theorem HasResolution.separated {width height : ℤ} (h : HasResolution value width height) :
    Separated value := by
  obtain ⟨a, b, rest, hs, -⟩ := h
  rw [Separated, hs]
  trivial

/-- A text stands for a resolution, or is refused, or takes the parser out of the bounds of its
pieces. -/
theorem parsePositive_cases (value : Text) :
    IsResolution value ∨ Separated value ∧ parsePositive value = .error .numberFormat ∨
      ¬ Separated value ∧ parsePositive value = .error .arrayIndexOutOfBounds := by
  rcases hs : split 'x' value with _ | ⟨w, _ | ⟨h, rest⟩⟩
  · exact Or.inr (Or.inr ⟨by rw [Separated, hs]; exact not_false, parsePositive_of_nil hs⟩)
  · cases hw : parseInt w with
    | none =>
      exact Or.inr (Or.inl ⟨by rw [Separated, hs]; exact hw, parsePositive_of_none hs hw⟩)
    | some width =>
      refine Or.inr (Or.inr ⟨?_, parsePositive_of_singleton hs hw⟩)
      rw [Separated, hs]
      exact fun hnone => nomatch hw.symm.trans hnone
  · have hseparated : Separated value := by
      rw [Separated, hs]
      trivial
    cases hw : parseInt w with
    | none => exact Or.inr (Or.inl ⟨hseparated, parsePositive_of_none hs hw⟩)
    | some width =>
      have hparse := parsePositive_of_cons_cons hs hw
      cases hh : parseInt h with
      | none => exact Or.inr (Or.inl ⟨hseparated, by rw [hparse, hh]⟩)
      | some height =>
        by_cases hpos : width ≤ 0 ∨ height ≤ 0
        · refine Or.inr (Or.inl ⟨hseparated, ?_⟩)
          rw [hparse, hh]
          exact if_pos hpos
        · exact Or.inl ⟨w, h, rest, width, height, hs, hw, hh, by omega, by omega⟩

theorem not_isResolution_of_error {e : Exception} (h : parsePositive value = .error e) :
    ¬ IsResolution value := by
  intro hvalue
  obtain ⟨width, height, hvalue⟩ := isResolution_iff.1 hvalue
  exact nomatch h.symm.trans hvalue.parsePositive_eq

end

/-- **Custom resolutions are handled right** by all three parsers exactly if a text has two pieces
or its only piece is no number. -/
theorem handled_iff_separated (value : Text) : Handled value ↔ Separated value := by
  constructor
  · intro h
    by_contra hseparated
    rcases parsePositive_cases value with hvalue | ⟨hseparated', -⟩ | ⟨-, hparse⟩
    · obtain ⟨width, height, hvalue⟩ := isResolution_iff.1 hvalue
      exact hseparated hvalue.separated
    · exact hseparated hseparated'
    · -- the exception is not the one that is caught
      have hrefused := (h.refused (not_isResolution_of_error hparse)).1
      rw [onPreferenceChange, hparse] at hrefused
      cases hrefused
  · intro hseparated
    constructor
    · intro width height hvalue
      have hparse := hvalue.parsePositive_eq
      refine ⟨?_, ?_, ?_⟩
      · rw [onPreferenceChange, hparse]
        rfl
      · rw [checkResolution_eq, hparse]
      · rw [customResolution, hparse]
        rfl
    · intro hvalue
      rcases parsePositive_cases value with hvalue' | ⟨-, hparse⟩ | ⟨hnot, -⟩
      · exact absurd hvalue' hvalue
      · refine ⟨?_, ?_, ?_⟩
        · rw [onPreferenceChange, hparse]
          rfl
        · rw [checkResolution_eq, hparse]
        · rw [customResolution, hparse]
          rfl
      · exact absurd hseparated hnot

/-- A width without a height takes all three out of bounds. -/
theorem width_only :
    onPreferenceChange "1280x".toList = .error .arrayIndexOutOfBounds ∧
      checkResolution "1280x".toList = .error .exception ∧
      customResolution "1280x".toList = .error .arrayIndexOutOfBounds ∧
      ¬ Handled "1280x".toList := by
  have hparse : parsePositive "1280x".toList = .error .arrayIndexOutOfBounds :=
    parsePositive_of_singleton (show split 'x' _ = ["1280".toList] by decide)
      (show parseInt _ = some 1280 by decide)
  have hsettings : onPreferenceChange "1280x".toList = .error .arrayIndexOutOfBounds := by
    rw [onPreferenceChange, hparse]
    rfl
  refine ⟨hsettings, ?_, ?_, fun h => ?_⟩
  · rw [checkResolution_eq, hparse]
  · rw [customResolution, hparse]
    rfl
  · have hrefused := (h.refused (not_isResolution_of_error hparse)).1
    rw [hsettings] at hrefused
    cases hrefused

/-! ### The settings -/

inductive ResolutionMode
  | native
  | scaled
  | exact
  | custom
  deriving DecidableEq

/-- The preferences of the resolution. -/
structure DisplayPrefs where
  displayResolutionMode : ResolutionMode := .custom
  displayScale : Int32 := 100
  displayResolutionExact : Text := "1920x1080".toList
  displayResolutionCustom : Text := "1280x1024".toList
  adjustResolution : Bool := false
  displayStretch : Bool := false

/-- A screen is turned if it lies the other way than its place. -/
def turns (adjustResolution : Bool) (width height w h : ℤ) : Prop :=
  adjustResolution ∧ (width < height ∧ w > h ∨ width > height ∧ w < h)

instance (adjustResolution : Bool) (width height w h : ℤ) :
    Decidable (turns adjustResolution width height w h) :=
  inferInstanceAs (Decidable (_ ∧ _))

/-- The `switch` of `getDimensionsFromSettings`. -/
def modeDimensions (A : Arithmetic) (prefs : DisplayPrefs) (width height : ℤ) :
    Except Exception (ℤ × ℤ) :=
  match prefs.displayResolutionMode with
  | .native => .ok (width, height)
  | .scaled => do
    let w ← A.divide (← A (width * 100)) prefs.displayScale.toInt
    let h ← A.divide (← A (height * 100)) prefs.displayScale.toInt
    return (w, h)
  | .exact => parseResolution prefs.displayResolutionExact
  | .custom => customResolution prefs.displayResolutionCustom

/-- `getDimensionsFromSettings`; the result is `p`. -/
def getDimensionsFromSettings (A : Arithmetic) (prefs : DisplayPrefs) (width height : ℤ) :
    Except Exception (ℤ × ℤ) := do
  let (w, h) ← modeDimensions A prefs width height
  return if turns prefs.adjustResolution width height w h then (h, w) else (w, h)

/-- The resolution that is asked for on a place, before it is turned. -/
def DisplayPrefs.unturned (prefs : DisplayPrefs) (width height : ℤ) : Option (ℤ × ℤ) :=
  match prefs.displayResolutionMode with
  | .native => some (width, height)
  | .scaled =>
    if 0 < prefs.displayScale.toInt ∧ width * 100 < 2 ^ 31 ∧ height * 100 < 2 ^ 31 then
      some (width * 100 / prefs.displayScale.toInt, height * 100 / prefs.displayScale.toInt)
    else none
  | .exact => (parseResolution prefs.displayResolutionExact).toOption
  | .custom => (customResolution prefs.displayResolutionCustom).toOption

/-- The resolution that is asked for on a place. -/
def DisplayPrefs.resolution (prefs : DisplayPrefs) (width height : ℤ) : Option (ℤ × ℤ) :=
  (prefs.unturned width height).map fun (w, h) =>
    if turns prefs.adjustResolution width height w h then (h, w) else (w, h)

section

variable {prefs : DisplayPrefs} {width height : ℤ}

theorem refines_modeDimensions :
    Refines (modeDimensions .checked prefs width height)
      (modeDimensions .wrapping prefs width height) := by
  rw [modeDimensions, modeDimensions]
  cases prefs.displayResolutionMode with
  | scaled =>
    refine (refines_checked _).bind fun _ => (refines_divide _ _).bind fun _ => ?_
    exact (refines_checked _).bind fun _ => (refines_divide _ _).bind fun _ => Refines.refl _
  | _ => exact Refines.refl _

theorem refines_getDimensionsFromSettings :
    Refines (getDimensionsFromSettings .checked prefs width height)
      (getDimensionsFromSettings .wrapping prefs width height) :=
  refines_modeDimensions.bind fun _ => Refines.refl _

theorem ok_iff_toOption {α : Type} {x : Except Exception α} {a : α} :
    x = .ok a ↔ x.toOption = some a := by
  cases x with
  | error e => exact iff_of_false nofun nofun
  | ok b => simp [Except.toOption]

theorem modeDimensions_checked {w h : ℤ} (hwidth : 0 < width) (hheight : 0 < height) (hw : 0 < w)
    (hh : 0 < h) :
    modeDimensions .checked prefs width height = .ok (w, h) ↔
      prefs.unturned width height = some (w, h) := by
  rw [modeDimensions, DisplayPrefs.unturned]
  cases prefs.displayResolutionMode with
  | native => simp
  | exact => exact ok_iff_toOption
  | custom => exact ok_iff_toOption
  | scaled =>
    constructor
    · intro hok
      obtain ⟨m, hm, hok⟩ := bind_eq_ok.1 hok
      obtain ⟨rfl, -, hm⟩ := Arithmetic.checked_eq_ok.1 hm
      obtain ⟨w', hw', hok⟩ := bind_eq_ok.1 hok
      obtain ⟨n, hn, hok⟩ := bind_eq_ok.1 hok
      obtain ⟨rfl, -, hn⟩ := Arithmetic.checked_eq_ok.1 hn
      obtain ⟨h', hh', hok⟩ := bind_eq_ok.1 hok
      obtain ⟨rfl, rfl⟩ := Prod.mk.inj (Except.ok.inj hok)
      obtain ⟨hscale, rfl⟩ := Arithmetic.pos_of_divide_checked (by omega) hw hw'
      obtain ⟨-, rfl⟩ := Arithmetic.pos_of_divide_checked (by omega) hh hh'
      exact if_pos ⟨hscale, hm, hn⟩
    · intro hsome
      dsimp only at hsome ⊢
      split_ifs at hsome with hmem
      obtain ⟨hscale, hm, hn⟩ := hmem
      obtain ⟨rfl, rfl⟩ := Prod.mk.inj (Option.some.inj hsome)
      rw [Arithmetic.checked_of_mem (by omega) hm, Arithmetic.checked_of_mem (by omega) hn]
      simp only [bind, Except.bind]
      rw [Arithmetic.divide_checked_of_pos (by omega) hm hscale,
        Arithmetic.divide_checked_of_pos (by omega) hn hscale]
      rfl

/-- The exact resolution of a place is the one that is asked for. -/
theorem getDimensionsFromSettings_checked {w h : ℤ} (hwidth : 0 < width) (hheight : 0 < height)
    (hw : 0 < w) (hh : 0 < h) :
    getDimensionsFromSettings .checked prefs width height = .ok (w, h) ↔
      prefs.resolution width height = some (w, h) := by
  rw [getDimensionsFromSettings, DisplayPrefs.resolution, Option.map_eq_some_iff, bind_eq_ok]
  refine exists_congr fun ⟨a, b⟩ => ?_
  show _ ∧ Except.ok _ = Except.ok (w, h) ↔ _
  rw [Except.ok.injEq]
  refine and_congr_left fun hturn => ?_
  have hpos : 0 < a ∧ 0 < b := by
    split_ifs at hturn
    · obtain ⟨rfl, rfl⟩ := Prod.mk.inj hturn
      exact ⟨hh, hw⟩
    · obtain ⟨rfl, rfl⟩ := Prod.mk.inj hturn
      exact ⟨hw, hh⟩
  exact modeDimensions_checked hwidth hheight hpos.1 hpos.2

end

end TermuxX11.Activity
