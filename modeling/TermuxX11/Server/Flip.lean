import TermuxX11.Server.Connection
import TermuxX11.Server.Locks

/-!
# Which flips are accepted

`loriePresentFlip` with the buffer that it registers with the activity.  The function compares both
sizes of the pixmap with the width of the root window; its height is not looked at, and comes in
where the property is stated only.
-/

namespace TermuxX11.Server

open Buffer LoriePixmapPriv

variable {H M : Type}

/-- `loriePresentFlip` with the connection: where it returns `TRUE`, the buffer is registered. -/
def flipAndRegister (px : Pixman H M) (c c' : Calls H M) (k : FlipCall) (x : LoriePixmapPriv H M)
    (s : Connection) : Bool × LoriePixmapPriv H M × Connection :=
  let r := loriePresentFlip px c c' k x
  (r.1, r.2, if r.1 then lorieRegisterBuffer (r.2.buffer.map fun b => b.desc.id) s else s)

/-- The calls of a conversion of the buffer succeed. -/
def Convertible (c : Calls H M) (k : FlipCall) (b : LorieBuffer H M) : Prop :=
  if k.legacyDrawing then
    ∃ fd data,
      c.createRegion (alignToPage k.page (imageSize b.desc.stride b.desc.height)) = some fd ∧
        c.mmap (alignToPage k.page (imageSize b.desc.stride b.desc.height)) fd 0 = some data
  else ∃ buffer, c.allocate b.desc.width b.desc.height .R8G8B8X8_UNORM = some buffer

/-- The buffer can be shared, or be converted to one that can. -/
def Shareable (c : Calls H M) (k : FlipCall) (b : LorieBuffer H M) : Prop :=
  b.desc.type = .FD ∨ b.desc.type = .AHARDWAREBUFFER ∨ b.desc.type = .REGULAR ∧ Convertible c k b

/-- All that a flip asks for apart from the size. -/
def Flippable (c : Calls H M) (k : FlipCall) (x : LoriePixmapPriv H M) : Prop :=
  ∃ b, x.buffer = some b ∧ x.mem = none ∧ Shareable c k b ∧
    ¬ (b.desc.type = .FD ∧ x.imported ∧ k.force = false)

/-- The pixmap has the size of a root window of the height. -/
def SameSize (k : FlipCall) (rootHeight : ℤ) : Prop :=
  k.width = k.rootWidth ∧ k.height = rootHeight

/-- The size that `loriePresentFlip` asks for. -/
def SquareSize (k : FlipCall) : Prop := k.width = k.rootWidth ∧ k.height = k.rootWidth

/-! ### Conversions -/

/-- The type of the buffer after a conversion says whether its calls succeeded. -/
theorem convert_type_iff (px : Pixman H M) (c : Calls H M) (k : FlipCall) {b : LorieBuffer H M}
    (hb : b.desc.type = .REGULAR) :
    (b.convert px c k.page (if k.legacyDrawing then .FD else .AHARDWAREBUFFER)
      .R8G8B8X8_UNORM).desc.type ≠ .REGULAR ↔ Convertible c k b := by
  unfold Convertible LorieBuffer.convert
  cases k.legacyDrawing with
  | true =>
    rw [if_pos rfl, if_neg (by simp [hb, Format.Shareable]), if_pos rfl, if_pos rfl]
    unfold LorieBuffer.convertToFD
    dsimp only
    cases c.createRegion (alignToPage k.page (imageSize b.desc.stride b.desc.height)) with
    | none => simp [hb]
    | some fd =>
      dsimp only
      cases hmmap : c.mmap (alignToPage k.page (imageSize b.desc.stride b.desc.height)) fd 0 with
      | none => simp [hb, hmmap]
      | some data => simp [hmmap]
  | false =>
    rw [if_neg Bool.false_ne_true, if_neg (by simp [hb, Format.Shareable]), if_neg (by decide),
      if_neg Bool.false_ne_true]
    unfold LorieBuffer.convertToAHardwareBuffer
    cases c.allocate b.desc.width b.desc.height .R8G8B8X8_UNORM with
    | none => simp [hb]
    | some buffer => simp

/-! ### What is returned -/

/-- Where the pixmap passes the tests, it is the buffer that decides. -/
theorem loriePresentFlip_shareable (px : Pixman H M) (c c' : Calls H M) {k : FlipCall}
    {x : LoriePixmapPriv H M} {b : LorieBuffer H M} (hx : x.buffer = some b)
    (hsize : ¬ (x.mem.isSome ∨ k.rootWidth ≠ k.width ∨ k.rootWidth ≠ k.height))
    (himported : ¬ (b.desc.type = .FD ∧ x.imported ∧ k.force = false)) :
    (loriePresentFlip px c c' k x).1 = true ↔ Shareable c k b := by
  unfold loriePresentFlip Shareable
  simp only [hx]
  rw [if_neg hsize, if_neg himported]
  by_cases htype : b.desc.type = .REGULAR
  · rw [if_pos htype]
    simp only [convertBuffer, hx]
    rw [apply_ite Prod.fst, htype]
    have hconvert := convert_type_iff px c k htype
    by_cases hne : (b.convert px c k.page (if k.legacyDrawing then .FD else .AHARDWAREBUFFER)
        .R8G8B8X8_UNORM).desc.type ≠ .REGULAR
    · rw [if_pos hne]
      exact iff_of_true rfl (Or.inr (Or.inr ⟨rfl, hconvert.1 hne⟩))
    · rw [if_neg hne]
      refine iff_of_false Bool.false_ne_true ?_
      simpa using fun h => hne (hconvert.2 h)
  · rw [if_neg htype]
    simp [htype]

/-- A flip is accepted if the pixmap has both sizes equal to the width of the root window, and all
else is as it should. -/
theorem loriePresentFlip_accepts_iff (px : Pixman H M) (c c' : Calls H M) (k : FlipCall)
    (x : LoriePixmapPriv H M) :
    (loriePresentFlip px c c' k x).1 = true ↔ Flippable c k x ∧ SquareSize k := by
  cases hx : x.buffer with
  | none => simp [loriePresentFlip, Flippable, hx]
  | some b =>
    by_cases hrefused : x.mem.isSome ∨ k.rootWidth ≠ k.width ∨ k.rootWidth ≠ k.height
    · refine iff_of_false ?_ ?_
      · simp [loriePresentFlip, hx, hrefused]
      · rintro ⟨⟨b', -, hmem, -⟩, hwidth, hheight⟩
        simp [hmem, hwidth, hheight] at hrefused
    by_cases himported : b.desc.type = .FD ∧ x.imported ∧ k.force = false
    · refine iff_of_false ?_ ?_
      · simp [loriePresentFlip, hx, hrefused, himported]
      · rintro ⟨⟨b', hb', -, -, hforced⟩, -⟩
        obtain rfl := Option.some.inj (hx.symm.trans hb')
        exact hforced himported
    rw [loriePresentFlip_shareable px c c' hx hrefused himported]
    rw [not_or, not_or, not_not, not_not, Bool.not_eq_true, Option.isSome_eq_false_iff,
      Option.isNone_iff_eq_none] at hrefused
    obtain ⟨hmem, hwidth, hheight⟩ := hrefused
    constructor
    · exact fun hshare => ⟨⟨b, hx, hmem, hshare, himported⟩, hwidth.symm, hheight.symm⟩
    · rintro ⟨⟨b', hb', -, hshare, -⟩, -⟩
      obtain rfl := Option.some.inj (hx.symm.trans hb')
      exact hshare

/-- A flip that is refused leaves the pixmap as it was. -/
theorem loriePresentFlip_refused {px : Pixman H M} {c c' : Calls H M} {k : FlipCall}
    {x : LoriePixmapPriv H M} (h : (loriePresentFlip px c c' k x).1 = false) :
    (loriePresentFlip px c c' k x).2 = x := by
  by_cases hconverts : ∃ b, Converts k x b
  · obtain ⟨b, hb⟩ := hconverts
    obtain ⟨type, htype, heq⟩ := loriePresentFlip_converts hb px c c'
    obtain ⟨hx, hregular, hmem, hwidth, hheight⟩ := hb
    have hsize : SquareSize k := ⟨hwidth.symm, hheight.symm⟩
    have hkept : (b.convert px c k.page type .R8G8B8X8_UNORM).desc.type = .REGULAR := by
      by_contra hne
      rw [htype] at hne
      have hconvert := (convert_type_iff px c k hregular).1 hne
      have haccepts := (loriePresentFlip_accepts_iff px c c' k x).2
        ⟨⟨b, hx, hmem, Or.inr (Or.inr ⟨hregular, hconvert⟩), by simp [hregular]⟩, hsize⟩
      rw [h] at haccepts
      cases haccepts
    rw [heq, if_neg (not_not.2 hkept)]
    rcases b.convert_cases px c k.page type .R8G8B8X8_UNORM with hsame | ⟨-, hconverted, -⟩
    · exact convertBuffer_eq_self hx hsame
    · rw [hkept, htype] at hconverted
      split_ifs at hconverted
  · exact loriePresentFlip_idle (not_exists.1 hconverts) px c c'

/-- A flip is accepted if it should be, and where it is refused, because of the size or for another
reason, the buffer is neither converted nor registered. -/
structure FlipsRight (px : Pixman H M) (c c' : Calls H M) (k : FlipCall) (rootHeight : ℤ)
    (x : LoriePixmapPriv H M) (s : Connection) : Prop where
  accepted : (flipAndRegister px c c' k x s).1 = true ↔ Flippable c k x ∧ SameSize k rootHeight
  refused : (flipAndRegister px c c' k x s).1 = false → (flipAndRegister px c c' k x s).2 = (x, s)

/-- **A flip is accepted as it should be, unless the height is one of two.**  For every pixmap and
every root window the flip is accepted exactly if the pixmap can be flipped and has the size of the
root window, and otherwise the buffer is left alone, if and only if it is not the case that a pixmap
that can be flipped has the width of the root window and a height that is equal to either the width
or the height of the root window but not to both. -/
theorem flipsRight_iff (px : Pixman H M) (c c' : Calls H M) (k : FlipCall) (rootHeight : ℤ)
    (x : LoriePixmapPriv H M) (s : Connection) :
    FlipsRight px c c' k rootHeight x s ↔
      ¬ (Flippable c k x ∧ k.width = k.rootWidth ∧
        ¬ (k.height = k.rootWidth ↔ k.height = rootHeight)) := by
  have haccepts := loriePresentFlip_accepts_iff px c c' k x
  constructor
  · rintro ⟨haccepted, -⟩ ⟨hflippable, hwidth, hdiffer⟩
    refine hdiffer ?_
    have hsame : Flippable c k x ∧ SquareSize k ↔ Flippable c k x ∧ SameSize k rootHeight :=
      haccepts.symm.trans haccepted
    simpa [hflippable, SquareSize, SameSize, hwidth] using hsame
  · intro h
    refine ⟨haccepts.trans (and_congr_right fun hflippable => ?_), fun hrefused => ?_⟩
    · refine and_congr_right fun hwidth => ?_
      by_contra hdiffer
      exact h ⟨hflippable, hwidth, hdiffer⟩
    · have hfalse : (loriePresentFlip px c c' k x).1 = false := hrefused
      unfold flipAndRegister
      dsimp only
      rw [hfalse, loriePresentFlip_refused hfalse]
      rfl

/-- A hardware buffer with an id of its own. -/
def hardwareBuffer (id : ℕ) : LorieBuffer ℕ ℕ :=
  { refcount := 1
    desc := ⟨1280, 1024, 1280, .R8G8B8X8_UNORM, .AHARDWAREBUFFER, id, some 7, none⟩
    locked := false
    lockedData := none
    fd := none
    size := 0
    offset := 0
    texture := 0
    image := none
    link := none }

/-- A page of 4 KiB is one of those that there can be. -/
theorem twelve_lt : 12 < 64 := by decide

/-- A flip of a pixmap of 1280 x 1024 where the root window is 1280 wide. -/
def flip1280 : FlipCall where
  page := ⟨12, twelve_lt⟩
  rootWidth := 1280
  width := 1280
  height := 1024
  force := false
  legacyDrawing := false

/-- A copy that copies nothing. -/
def noPixman : Pixman ℕ ℕ where
  blt _ data _ _ _ _ := data
  bltLocked _ buffer _ _ _ _ := buffer

/-- A pixmap that has the size of a root window of 1280 x 1024 and could be flipped is refused. -/
theorem refused_1280 :
    (flipAndRegister noPixman (PixmapServer.callsWith (.address 300))
        (PixmapServer.callsWith (.address 300)) flip1280 { buffer := some (hardwareBuffer 5) }
        (.start none)).1 = false ∧
      ¬ FlipsRight noPixman (PixmapServer.callsWith (.address 300))
        (PixmapServer.callsWith (.address 300)) flip1280 1024 { buffer := some (hardwareBuffer 5) }
        (.start none) := by
  refine ⟨rfl, fun h => Bool.false_ne_true (h.accepted.2 ⟨?_, rfl, rfl⟩)⟩
  exact ⟨hardwareBuffer 5, rfl, rfl, Or.inr (Or.inl rfl), fun hfd => nomatch hfd.1⟩

end TermuxX11.Server
