import TermuxX11.VirtualKeys.Holds

/-!
# The labels of a range button

`drawRangeButton` draws a row of cells with one label each, `updateActivatedIndex` presses the
key of the cell under the finger, and both compute an index of their own: the one from the
offset at the edge of the box and the number of the item, the other from the offset at the
finger.  `pressesLabel_of_indicesFit` says that they agree while the indices are `int`s, and
`pressesLabel_far` that they do not beyond: the cast saturates at the edge and at the finger
alike.

The model of the drawing has what is drawn along the axis of the button: the separators and
the labels, without the clip path and the size of the text.
-/

namespace TermuxX11.VirtualKeys

open Java RangeScroller

/-- `getRangeTextForIndex`. -/
def getRangeTextForIndex (r : Range) (index : ℤ) : String :=
  match r with
  | .fromAToZ => String.singleton (Char.ofNat ((65 + index) % 2 ^ 16).toNat)
  | .digits => toString index
  | .functionKeys => "F" ++ toString (index + 1)
  | .numpadDigits => "NP" ++ toString index

/-- What the loop of `drawRangeButton` draws: a line across the button, or a text around a
point. -/
inductive Mark
  | line (at_ : ℚ)
  | text (text : String) (centre : ℚ)
  deriving DecidableEq

/-- What the loop of `drawRangeButton` draws for the item that starts at `item`. -/
def drawItem (elementSize : ℚ) (lo hi : ℤ) (item : ℚ) (label : String) : List Mark :=
  (if lo < item ∧ item < hi then [.line item] else []) ++
    if lo < item + elementSize ∧ item < hi then [.text label (item + elementSize * (1 / 2))]
    else []

/-- The loop of `drawRangeButton` on a box that extends from `lo` to `hi`. -/
def drawItems (r : Range) (elementSize : ℚ) (lo hi : ℤ) (scrollOffset : ℚ) : List Mark :=
  let position := scrollOffset / elementSize
  let virtualIndex := saturate ⌊position⌋
  let fractionalOffset := position - virtualIndex
  let baseIndex := wrap virtualIndex r.max
  let itemsToDraw := int (saturate ⌈((hi - lo : ℤ) : ℚ) / elementSize⌉ + 2)
  let start := lo - fractionalOffset * elementSize
  (List.range itemsToDraw.toNat).flatMap fun i : ℕ =>
    let index := (int (baseIndex + i)).tmod r.max
    drawItem elementSize lo hi (start + i * elementSize) (getRangeTextForIndex r index)

/-- The extent of a box along the axis of the button. -/
def Element.extent (e : Element) (box : Rect) : ℤ × ℤ :=
  if e.orientation = 0 then (box.left, box.right) else (box.top, box.bottom)

/-- `drawRangeButton`. -/
def Element.drawRangeButton (H : Host) (e : Element) (box : Rect) : List Mark :=
  let scrollOffset := (e.scroller.map RangeScroller.scrollOffset).getD 0
  drawItems (rangeOf e) (getElementSize H e) (e.extent box).1 (e.extent box).2 scrollOffset

/-- The text of a label whose cell, as wide as an element, contains the point `p`. -/
def Mark.labelAt (elementSize p : ℚ) : Mark → Option String
  | line _ => none
  | text t centre =>
    if centre - elementSize / 2 ≤ p ∧ p < centre + elementSize / 2 then some t else none

/-- The key is the one that a label names: `A` to `Z`, `0` to `9`, `F1` to `F12`, or `NP0` to
`NP9` for the digits of the keypad. -/
def Binding.Labelled (b : Binding) (label : String) : Prop :=
  b.name = "KEY_" ++ label ∨ ∃ d, label = "NP" ++ d ∧ b.name = "NUMPAD_" ++ d

theorem labelled_getRangeTextForIndex (r : Range) {index : ℤ} (h0 : 0 ≤ index)
    (hmax : index < r.max) :
    (getBindingForRangeIndex r index).Labelled (getRangeTextForIndex r index) := by
  cases r with
  | fromAToZ | digits | functionKeys =>
    left
    simp only [Range.max] at hmax
    interval_cases index <;> rfl
  | numpadDigits =>
    right
    simp only [Range.max] at hmax
    refine ⟨toString index, rfl, ?_⟩
    interval_cases index <;> rfl

namespace Element

/-- The labels drawn in the cells that contain `p`. -/
def labelsAt (H : Host) (e : Element) (p : ℚ) : List String :=
  (e.drawRangeButton H (e.getBoundingBox H.snappingSize)).filterMap
    (Mark.labelAt (getElementSize H e) p)

/-- The coordinate of a point along the axis of the button. -/
def along (e : Element) (x y : ℚ) : ℚ := if e.orientation = 0 then x else y

/-- The last touch is in one drawn cell, and the key that `updateActivatedIndex` activates is
the one that its label names. -/
def PressesLabel (H : Host) (e : Element) (s : RangeScroller) : Prop :=
  ∃ label, e.labelsAt H (e.along s.lastTouchX s.lastTouchY) = [label] ∧
    (getBindingForRangeIndex (rangeOf e)
      (s.updateActivatedIndex H e).1.lastActivatedIndex).Labelled label

/-- The point is inside the box. -/
def Inside (box : Rect) (x y : ℚ) : Prop :=
  box.left ≤ x ∧ x < box.right ∧ box.top ≤ y ∧ y < box.bottom

end Element

/-- The indices of the cells at the edge `lo` and at the point `p`, and those of the cells that
fit the box, are `int`s. -/
def IndicesFit (r : Range) (size : ℚ) (lo hi : ℤ) (scrollOffset p : ℚ) : Prop :=
  -2 ^ 31 ≤ ⌊scrollOffset / size⌋ ∧ ⌊(p - lo + scrollOffset) / size⌋ < 2 ^ 31 ∧
    ⌈((hi - lo : ℤ) : ℚ) / size⌉ + r.max + 1 < 2 ^ 31

/-! ### The cell of a point -/

theorem wrap_eq_emod (v : ℤ) {m : ℤ} (hm : 0 < m) : wrap v m = v % m := by
  have hlt := Int.lt_tmod_of_pos v hm
  rw [wrap, Int.tmod_eq_emod_of_nonneg (by omega), Int.add_emod_right, Int.tmod_def,
    Int.sub_mul_emod_self_left]

theorem Range.max_pos (r : Range) : 0 < r.max := by
  cases r <;> decide

theorem Range.max_le (r : Range) : r.max ≤ 26 := by
  cases r <;> decide

/-- A row of cells as wide as `size` has the point `p` in the cell of that number. -/
theorem mem_cell_iff {size : ℚ} (hsize : 0 < size) (start p : ℚ) (i : ℤ) :
    start + i * size ≤ p ∧ p < start + (i + 1) * size ↔ ⌊(p - start) / size⌋ = i := by
  rw [Int.floor_eq_iff, le_div_iff₀ hsize, div_lt_iff₀ hsize]
  constructor
  · rintro ⟨h1, h2⟩
    exact ⟨by linarith, by linarith⟩
  · rintro ⟨h1, h2⟩
    exact ⟨by linarith, by linarith⟩

/-- A point of the box meets the label of the item that it is on, and no other. -/
theorem filterMap_drawItem {size : ℚ} (hsize : 0 < size) {start p : ℚ} {lo hi : ℤ}
    (hp : lo ≤ p ∧ p < hi) (i : ℕ) (label : String) :
    (drawItem size lo hi (start + i * size) label).filterMap (Mark.labelAt size p) =
      if ⌊(p - start) / size⌋ = i then [label] else [] := by
  have hcell := mem_cell_iff hsize start p i
  have hlabel : Mark.labelAt size p (.text label (start + i * size + size * (1 / 2))) =
      if ⌊(p - start) / size⌋ = i then some label else none := by
    rw [Mark.labelAt]
    refine if_congr ?_ rfl rfl
    rw [← hcell]
    push_cast
    constructor <;> rintro ⟨h1, h2⟩ <;> exact ⟨by linarith, by linarith⟩
  have hline : (if (lo : ℚ) < start + i * size ∧ start + i * size < hi then
      [Mark.line (start + i * size)] else []).filterMap (Mark.labelAt size p) = [] := by
    split_ifs <;> rfl
  rw [drawItem, List.filterMap_append, hline, List.nil_append]
  by_cases hi : ⌊(p - start) / size⌋ = i
  · obtain ⟨h1, h2⟩ := hcell.2 hi
    push_cast at h1 h2
    rw [if_pos ⟨by linarith [hp.1], lt_of_le_of_lt h1 hp.2⟩, if_pos hi,
      List.filterMap_cons_some (hlabel.trans (if_pos hi))]
    rfl
  · rw [if_neg hi]
    split_ifs
    · rw [List.filterMap_cons_none (hlabel.trans (if_neg hi))]
      rfl
    · rfl

theorem flatMap_range_single {α : Type} (x : ℕ → α) {j n : ℕ} (hn : j < n) :
    ((List.range n).flatMap fun i => if j = i then [x i] else []) = [x j] := by
  have hnone : ∀ m ≤ j, ((List.range m).flatMap fun i => if j = i then [x i] else []) = [] := by
    intro m hm
    refine List.flatMap_eq_nil_iff.2 fun i hi => if_neg ?_
    have := List.mem_range.1 hi
    omega
  induction n with
  | zero => omega
  | succ n ih =>
    rw [List.range_succ, List.flatMap_append, List.flatMap_singleton]
    rcases Nat.lt_succ_iff_lt_or_eq.1 hn with h | rfl
    · rw [ih h, if_neg (by omega), List.append_nil]
    · rw [hnone j le_rfl, if_pos rfl, List.nil_append]

/-- Of a row of items as long as the box the point meets the label of one. -/
theorem filterMap_items {size : ℚ} (hsize : 0 < size) {start p : ℚ} {lo hi : ℤ}
    (hp : lo ≤ p ∧ p < hi) {j n : ℕ} (hj : ⌊(p - start) / size⌋ = j) (hn : j < n)
    (label : ℕ → String) :
    ((List.range n).flatMap fun i : ℕ =>
      drawItem size lo hi (start + i * size) (label i)).filterMap (Mark.labelAt size p) =
      [label j] := by
  have hitem : ∀ i : ℕ,
      (drawItem size lo hi (start + i * size) (label i)).filterMap (Mark.labelAt size p) =
        if j = i then [label i] else [] := by
    intro i
    rw [filterMap_drawItem hsize hp, hj]
    exact if_congr Nat.cast_inj rfl rfl
  rw [List.filterMap_flatMap]
  simp only [hitem]
  exact flatMap_range_single label hn

/-- A point within the extent lies at most as many cells past that of the edge as the extent
spans. -/
theorem floor_add_mem {size : ℚ} (hsize : 0 < size) {d extent scrollOffset : ℚ} (hd : 0 ≤ d)
    (hextent : d < extent) :
    ⌊scrollOffset / size⌋ ≤ ⌊(d + scrollOffset) / size⌋ ∧
      ⌊(d + scrollOffset) / size⌋ ≤ ⌊scrollOffset / size⌋ + ⌈extent / size⌉ := by
  have hsplit : (d + scrollOffset) / size = d / size + scrollOffset / size := add_div _ _ _
  have hd1 : 0 ≤ d / size := div_nonneg hd hsize.le
  have hd2 : d / size < extent / size := (div_lt_div_iff_of_pos_right hsize).2 hextent
  constructor
  · exact Int.floor_le_floor (by linarith)
  · have hv : scrollOffset / size < ⌊scrollOffset / size⌋ + 1 := Int.lt_floor_add_one _
    have hc : extent / size ≤ ⌈extent / size⌉ := Int.le_ceil _
    refine Int.lt_add_one_iff.1 (Int.floor_lt.2 ?_)
    push_cast
    linarith

/-- From the left edge of the cell of the screen's edge the cells of a point are counted. -/
theorem floor_div_edge {size : ℚ} (hsize : 0 < size) (lo p scrollOffset : ℚ) :
    ⌊(p - (lo - (scrollOffset / size - ⌊scrollOffset / size⌋) * size)) / size⌋ =
      ⌊(p - lo + scrollOffset) / size⌋ - ⌊scrollOffset / size⌋ := by
  have heq : (p - (lo - (scrollOffset / size - ⌊scrollOffset / size⌋) * size)) / size =
      (p - lo + scrollOffset) / size - ⌊scrollOffset / size⌋ := by
    field_simp
    ring
  rw [heq, Int.floor_sub_intCast]

/-- **The labels of a point are one label**, that of the index which the offset at the point
gives. -/
theorem filterMap_drawItems {r : Range} {size : ℚ} (hsize : 0 < size) {lo hi : ℤ}
    {scrollOffset p : ℚ} (hp : lo ≤ p ∧ p < hi) (hfit : IndicesFit r size lo hi scrollOffset p) :
    (drawItems r size lo hi scrollOffset).filterMap (Mark.labelAt size p) =
      [getRangeTextForIndex r
        (wrap (saturate ⌊(p - lo + scrollOffset) / size⌋) r.max)] := by
  obtain ⟨hlow, hhigh, hcells⟩ := hfit
  set v := ⌊scrollOffset / size⌋ with hv
  set w := ⌊(p - lo + scrollOffset) / size⌋ with hw
  set c := ⌈((hi - lo : ℤ) : ℚ) / size⌉ with hc
  -- the item of the point is counted from the edge
  obtain ⟨hvw, hwc⟩ : v ≤ w ∧ w ≤ v + c :=
    floor_add_mem hsize (by linarith [hp.1]) (by push_cast; linarith [hp.2])
  have hc0 : 0 ≤ c := by omega
  have hmax := r.max_pos
  have hj : ⌊(p - (lo - (scrollOffset / size - v) * size)) / size⌋ = ((w - v).toNat : ℕ) := by
    rw [hv, floor_div_edge hsize, ← hw, ← hv]
    omega
  have hmod := Int.emod_nonneg v hmax.ne'
  have hmod' := Int.emod_lt_of_pos v hmax
  have hmax' := r.max_le
  simp only [drawItems, ← hv, ← hc, saturate_of_mem hlow (by omega : v < 2 ^ 31),
    saturate_of_mem (by omega : -2 ^ 31 ≤ w) hhigh,
    saturate_of_mem (by omega : -2 ^ 31 ≤ c) (by omega),
    int_of_mem (by omega : -2 ^ 31 ≤ c + 2) (by omega), wrap_eq_emod _ hmax]
  rw [filterMap_items hsize hp hj (by omega), int_of_mem (by omega) (by omega),
    Int.tmod_eq_emod_of_nonneg (by omega), Int.emod_add_emod]
  congr 3
  omega

/-! ### What is pressed -/

theorem wrappedIndex_lt (H : Host) (e : Element) (s : RangeScroller) :
    s.wrappedIndex H e < (rangeOf e).max := by
  have hmax := (rangeOf e).max_pos
  rw [wrappedIndex, wrap_eq_emod _ hmax]
  exact Int.emod_lt_of_pos _ hmax

theorem lastActivatedIndex_updateActivatedIndex (H : Host) (e : Element) (s : RangeScroller) :
    (s.updateActivatedIndex H e).1.lastActivatedIndex = s.wrappedIndex H e := by
  unfold updateActivatedIndex
  by_cases h : s.wrappedIndex H e = s.lastActivatedIndex
  · simp only [if_pos h]
    exact h.symm
  · simp only [if_neg h]

theorem wrappedIndex_eq (H : Host) (e : Element) (s : RangeScroller) :
    s.wrappedIndex H e =
      wrap (saturate ⌊(e.along s.lastTouchX s.lastTouchY -
        (e.extent (e.getBoundingBox H.snappingSize)).1 + s.scrollOffset) / getElementSize H e⌋)
        (rangeOf e).max := by
  unfold wrappedIndex Element.along Element.extent
  split_ifs <;> rfl

namespace Element

/-- **The key that is pressed is the one whose label is under the finger**: every point of the
box is in the cell of one label, and the label names the key. -/
theorem pressesLabel_of_indicesFit (H : Host) (e : Element) (s : RangeScroller)
    (hsize : 0 < getElementSize H e) (hs : e.scroller = some s)
    (hin : Inside (e.getBoundingBox H.snappingSize) s.lastTouchX s.lastTouchY)
    (hfit : IndicesFit (rangeOf e) (getElementSize H e)
      (e.extent (e.getBoundingBox H.snappingSize)).1 (e.extent (e.getBoundingBox H.snappingSize)).2
      s.scrollOffset (e.along s.lastTouchX s.lastTouchY)) :
    e.PressesLabel H s := by
  have hp : (e.extent (e.getBoundingBox H.snappingSize)).1 ≤ e.along s.lastTouchX s.lastTouchY ∧
      e.along s.lastTouchX s.lastTouchY < (e.extent (e.getBoundingBox H.snappingSize)).2 := by
    obtain ⟨h1, h2, h3, h4⟩ := hin
    unfold along extent
    split_ifs
    · exact ⟨h1, h2⟩
    · exact ⟨h3, h4⟩
  refine ⟨getRangeTextForIndex (rangeOf e) (s.wrappedIndex H e), ?_, ?_⟩
  · rw [labelsAt, drawRangeButton, hs, wrappedIndex_eq]
    exact filterMap_drawItems hsize hp hfit
  · rw [lastActivatedIndex_updateActivatedIndex]
    exact labelled_getRangeTextForIndex _ (wrappedIndex_nonneg H e s) (wrappedIndex_lt H e s)

end Element

/-- A grid of ten pixels. -/
def rangeHost : Host where
  snappingSize := 10
  mouseScrollSpeed := 5
  currentTimeMillis := 0
  math := ⟨fun _ => 0, fun _ _ => 0, fun _ => 1, fun _ => 0⟩

/-- A row of five letters, forty pixels each, touched in the first cell. -/
def letterRow (s : RangeScroller) : Element :=
  { view := true, type := .rangeButton, x := 100, y := 20, scroller := some s }

/-- The state of its scroller. -/
def touchedAt (scrollOffset : ℚ) : RangeScroller :=
  { scrollOffset := scrollOffset, lastTouchX := 5, lastTouchY := 5 }

namespace Element

/-- The row is scrolled to the left of `A`, and the finger is on `Y`. -/
theorem letterRow_pressesLabel :
    (letterRow (touchedAt (-50))).PressesLabel rangeHost (touchedAt (-50)) :=
  pressesLabel_of_indicesFit rangeHost (letterRow (touchedAt (-50))) (touchedAt (-50))
    (by decide +kernel) rfl
    ⟨by decide +kernel, by decide +kernel, by decide +kernel, by decide +kernel⟩
    ⟨by decide +kernel, by decide +kernel, by decide +kernel⟩

/-- A row scrolled by `2 ^ 31` letters shows `Y` where it presses `X`. -/
theorem pressesLabel_far :
    ¬ ∀ (H : Host) (e : Element) (s : RangeScroller), 0 < getElementSize H e →
      e.scroller = some s → Inside (e.getBoundingBox H.snappingSize) s.lastTouchX s.lastTouchY →
      e.PressesLabel H s := by
  intro h
  have hlabels : (letterRow (touchedAt (2 ^ 31 * 40))).labelsAt rangeHost 5 = ["Y"] := by
    decide +kernel
  have hkey : (wrappedIndex rangeHost (letterRow (touchedAt (2 ^ 31 * 40)))
      (touchedAt (2 ^ 31 * 40))) = 23 := by
    decide +kernel
  obtain ⟨label, hl, hb⟩ := h rangeHost (letterRow (touchedAt (2 ^ 31 * 40)))
    (touchedAt (2 ^ 31 * 40)) (by decide +kernel) rfl
    ⟨by decide +kernel, by decide +kernel, by decide +kernel, by decide +kernel⟩
  obtain rfl : "Y" = label := by
    have := hlabels.symm.trans hl
    simpa using this
  rw [lastActivatedIndex_updateActivatedIndex, hkey] at hb
  rcases hb with hb | ⟨d, hd, -⟩
  · exact absurd hb (by decide)
  · have := congrArg String.toList hd
    simp at this

end Element

end TermuxX11.VirtualKeys
