import TermuxX11.Lib.Paired
import TermuxX11.VirtualKeys.Storage

/-!
# Positions in documents that are written back

A profile that was read keeps the ratios of each element.  Without a view they are written
back where both are nonnegative; otherwise the pixels of the element are written, which are
`0` as long as there was no view.  With a view the ratio of the pixels is written, which is
the ratio that was read where that falls on a pixel.  Nothing is written of the position after
a number that is not finite: `put` throws.
-/

namespace TermuxX11.VirtualKeys

open Java

/-- The `x` and `y` of an element of a document. -/
def position (C : Coercions) (j : Json) : Option (ℚ × ℚ) := do
  let el ← j.toObject
  let x ← JSONObject.getDouble C el "x"
  let y ← JSONObject.getDouble C el "y"
  some (x, y)

/-- The positions of the elements of a document, in order. -/
def positions (C : Coercions) (j : Json) : Option (List (ℚ × ℚ)) := do
  let json ← j.toObject
  let elements ← JSONObject.getJSONArray json "elements"
  elements.mapM (position C)

section

variable {C : Coercions} {j : Json} {json : JSONObject} {js : List Json} {cs : List Content}

theorem position_of_readElement {c : Content} (h : readElement C j = some c) :
    position C j = some (c.x, c.y) := by
  obtain ⟨el, hel, hx, hy⟩ := readElement_position h
  simp [position, hel, hx, hy]

theorem positions_of_contents (hj : j.toObject = some json)
    (hjs : JSONObject.getJSONArray json "elements" = some js) (hcs : Contents C js cs) :
    positions C j = some (cs.map fun c => (c.x, c.y)) := by
  have hall : js.mapM (position C) = some (cs.map fun c => (c.x, c.y)) := by
    rw [Paired.mapM_eq_some_iff, List.forall₂_map_right_iff]
    exact hcs.imp fun _ _ => position_of_readElement
  simp [positions, hj, hjs, hall]

/-- The position is written if `put` does not throw before. -/
theorem position_toJSONObject (s : Option Size) (e : Element) :
    position C (e.toJSONObject s) =
      if e.failsAt s = none then some (e.writtenPosition s) else none := by
  unfold Element.toJSONObject
  cases h : e.failsAt s with
  | none => rfl
  | some n => rcases failsAt_cases h with rfl | rfl | rfl <;> rfl

theorem positions_document (s : Option Size) (p : Profile) :
    positions C (p.document s) = p.elements.mapM fun e =>
      if e.failsAt (if e.view then s else none) = none then
        some (e.writtenPosition (if e.view then s else none))
      else none := by
  have hget : JSONObject.getJSONArray [("name", .str p.encoded.name), ("elements", .arr
      (p.encoded.elements.map fun e => e.toJSONObject (if e.view then s else none)))] "elements" =
      some (p.encoded.elements.map fun e => e.toJSONObject (if e.view then s else none)) := rfl
  rw [document_eq, positions, Profile.toJSONObject]
  simp only [Json.toObject, Option.bind_eq_bind, Option.bind_some, hget]
  rw [Profile.encoded, List.mapM_map, List.mapM_map]
  refine congrArg (fun f => List.mapM f p.elements) (funext fun e => ?_)
  exact position_toJSONObject _ e.encoded

end

/-! ### One element -/

/-- The ratio is a whole number of pixels of a view with `m` of them. -/
def OnPixel (m : ℤ) (q : ℚ) : Prop := if m = 0 then q = 0 else ∃ n : ℤ, IsInt n ∧ q * m = n

/-- The position survives: if the scale is finite and, without a view, both ratios are nonnegative
and finite, or, with a view of size `s`, both fall on pixels of it. -/
def Survives (s : Option Size) (c : Content) : Prop :=
  overflowsFloat c.attributes.scale = false ∧
  match s with
  | none => (0 ≤ c.x ∧ 0 ≤ c.y) ∧ overflowsDouble c.x = false ∧ overflowsDouble c.y = false
  | some s => OnPixel s.maxWidth c.x ∧ OnPixel s.maxHeight c.y

theorem toInt_div_eq_iff {m : ℤ} (hm : 0 ≤ m) (q : ℚ) :
    (toInt (q * m) : ℚ) / ((max m 1 : ℤ) : ℚ) = q ↔ OnPixel m q := by
  rcases hm.eq_or_lt with rfl | hm
  · have hzero : toInt 0 = 0 := toInt_intCast isInt_zero
    simp [OnPixel, hzero, eq_comm]
  · have hne : (m : ℚ) ≠ 0 := by exact_mod_cast hm.ne'
    have hmax : max m 1 = m := max_eq_left hm
    rw [OnPixel, if_neg hm.ne', hmax, div_eq_iff hne]
    constructor
    · exact fun h => ⟨toInt (q * m), isInt_toInt _, h.symm⟩
    · rintro ⟨n, hint, hn⟩
      rw [hn, toInt_intCast hint]

/-- An element without a view, written from its content. -/
theorem survives_none_iff {c : Content} {e : Element} (h : e.Shows none c) :
    e.failsAt none = none ∧ e.writtenPosition none = (c.x, c.y) ↔ Survives none c := by
  have hscale : e.scale = c.attributes.scale := congrArg Attributes.scale h.attributes
  have hx : e.x = 0 := h.x
  have hy : e.y = 0 := h.y
  rw [Element.failsAt, Element.writtenPosition, Survives, hscale, h.ratioX, h.ratioY, hx, hy]
  cases overflowsFloat c.attributes.scale with
  | true => simp
  | false =>
    by_cases hsign : 0 ≤ c.x ∧ 0 ≤ c.y
    · cases overflowsDouble c.x <;> cases overflowsDouble c.y <;> simp [hsign]
    · -- the pixels are written, and one of the ratios is not zero
      have hne : ¬ ((0 : ℚ), (0 : ℚ)) = (c.x, c.y) := by
        rw [Prod.mk.injEq]
        rintro ⟨hx, hy⟩
        exact hsign ⟨hx.le, hy.le⟩
      simp [hsign, hne]

/-- An element of a view, written from its content. -/
theorem survives_some_iff {s : Size} (hs : 0 ≤ s.maxWidth ∧ 0 ≤ s.maxHeight) {c : Content}
    {e : Element} (h : e.Shows (some s) c) :
    e.failsAt (some s) = none ∧ e.writtenPosition (some s) = (c.x, c.y) ↔
      Survives (some s) c := by
  have hscale : e.scale = c.attributes.scale := congrArg Attributes.scale h.attributes
  have hx : e.x = toInt (c.x * s.maxWidth) := h.x
  have hy : e.y = toInt (c.y * s.maxHeight) := h.y
  rw [Element.failsAt_some, Element.writtenPosition, Survives, hscale, hx, hy, Prod.mk.injEq,
    toInt_div_eq_iff hs.1, toInt_div_eq_iff hs.2]
  cases overflowsFloat c.attributes.scale <;> simp

theorem survives_iff {s : Option Size}
    (hs : ∀ t ∈ s, 0 ≤ Size.maxWidth t ∧ 0 ≤ Size.maxHeight t) {c : Content} {e : Element}
    (h : e.Shows s c) :
    e.failsAt (if e.view then s else none) = none ∧
      e.writtenPosition (if e.view then s else none) = (c.x, c.y) ↔ Survives s c := by
  cases s with
  | none =>
    rw [ite_self]
    exact survives_none_iff h
  | some s =>
    have hview : e.view = true := h.view
    rw [if_pos hview]
    exact survives_some_iff (hs s rfl) h

/-- A profile with the contents of a document, written again. -/
theorem positions_eq_iff {C : Coercions} {j : Json} {json : JSONObject} {js : List Json}
    {cs : List Content} (hj : j.toObject = some json)
    (hjs : JSONObject.getJSONArray json "elements" = some js) (hcs : Contents C js cs)
    {s : Option Size} (hs : ∀ t ∈ s, 0 ≤ Size.maxWidth t ∧ 0 ≤ Size.maxHeight t) {p : Profile}
    (hp : List.Forall₂ (Element.Shows s) cs p.elements) :
    positions C (p.document s) = positions C j ↔ ∀ c ∈ cs, Survives s c := by
  rw [positions_document, positions_of_contents hj hjs hcs, Paired.mapM_eq_some_iff,
    List.forall₂_map_right_iff]
  clear hcs
  generalize p.elements = es at hp
  induction hp with
  | nil => simp
  | cons hc _ ih =>
    rw [List.forall₂_cons, List.forall_mem_cons, ih, ← survives_iff hs hc,
      Option.ite_none_right_eq_some, Option.some.injEq]

/-! ### The paths of the manager -/

/-- **Which positions survive**: the documents that `exportProfile`, `renameProfile` and
`importProfile` write have the positions of the original if and only if all elements have a finite
scale and nonnegative, finite ratios; and if the elements have been attached to a view, if and only
if all have a finite scale and ratios that fall on its pixels. -/
theorem positions_kept_iff {C : Coercions} {name : JString} {j : Json} {p : Profile}
    (hp : Profile.fromJSON C name j = some p) :
    (∀ d, exportProfile p = some d →
      (positions C d = positions C j ↔ ∀ c ∈ p.contents, Survives none c)) ∧
    (∀ (M : Mkdirs) (F : Folders) (m : Storage) i l newName loc, m.profiles[i]? = some l →
      l.profile = p → (M.make F m.disk newName).openFile newName = some loc →
      ∃ d, (m.renameProfile M F i newName).disk.lookup loc = some (.json d) ∧
        (positions C d = positions C j ↔ ∀ c ∈ p.contents, Survives none c)) ∧
    (∀ (F : Folders) (m : Storage) q, (m.importProfile C F (some j)).1 = some q →
      ∃ loc d, q.getFile F = some loc ∧
        (m.importProfile C F (some j)).2.disk.lookup loc = some (.json d) ∧
        (positions C d = positions C j ↔ ∀ c ∈ p.contents, Survives none c)) ∧
    ∀ (s : Size) ref newName, 0 ≤ s.maxWidth → 0 ≤ s.maxHeight →
      (positions C (((p.loadElements C s ref).setName newName).document (some s)) =
          positions C j ↔ ∀ c ∈ p.contents, Survives (some s) c) := by
  obtain ⟨json, js, cs, hj, hjs, hcs, hshows, -, -, hpjson⟩ := fromJSON_spec hp
  rw [contents_of_shows hshows]
  -- without a view the ratios are written, whatever else has changed in the profile
  have hnone (p' : Profile) (hp' : List.Forall₂ (Element.Shows none) cs p'.elements) :=
    positions_eq_iff hj hjs hcs (s := none) (by simp) hp'
  refine ⟨?_, ?_, ?_, ?_⟩
  · intro d hd
    unfold exportProfile at hd
    split_ifs at hd with hempty
    obtain rfl := Option.some.inj hd
    exact hnone p hshows
  · intro M F m i l newName loc hi hl hopen
    refine ⟨(p.setName newName).document none, ?_, hnone (p.setName newName) hshows⟩
    have hfile : (p.setName newName).getFile (M.make F m.disk newName) = some loc := hopen
    simp only [Storage.renameProfile, hi, hl, Folders.save, hfile]
    exact AList.lookup_insert _
  · intro F m q hq
    unfold Storage.importProfile at hq ⊢
    cases himported : m.imported C F (some j) with
    | none =>
      rw [himported] at hq
      cases hq
    | some q' =>
      simp only [himported] at hq ⊢
      cases hfile : q'.getFile F with
      | none =>
        rw [hfile] at hq
        cases hq
      | some loc =>
        simp only [hfile, Option.some.injEq] at hq ⊢
        subst hq
        obtain ⟨j', p', hj', hp', hq', -⟩ := Storage.imported_spec himported
        obtain rfl := Option.some.inj hj'
        obtain ⟨json', js', cs', hjson', hjs', hcs', hshows', -⟩ := fromJSON_spec hp'
        obtain rfl := Option.some.inj (hj.symm.trans hjson')
        obtain rfl := Option.some.inj (hjs.symm.trans hjs')
        obtain rfl := hcs.unique hcs'
        have helements : List.Forall₂ (Element.Shows none) cs q'.elements := by
          rw [hq']
          exact hshows'
        exact ⟨loc, _, hfile, AList.lookup_insert _, hnone q' helements⟩
  · intro s ref newName hw hh
    obtain ⟨es, hes, hshows', -⟩ := loadElements_shows hpjson hcs s ref
    refine positions_eq_iff hj hjs hcs ?_ ?_
    · rintro t ⟨rfl⟩
      exact ⟨hw, hh⟩
    · rw [hes]
      exact hshows'

/-- A document with one button at the given ratios. -/
def buttonDocument (x y : ℚ) : Json :=
  .obj [("name", .str "p"), ("elements", .arr [.obj
    [("type", .str "BUTTON"), ("shape", .str "CIRCLE"), ("scale", .num 1), ("x", .num x),
      ("y", .num y), ("toggleSwitch", .bool false), ("text", .str ""), ("iconId", .int 0),
      ("bindings", .arr [.str "KEY_A", .str "NONE", .str "NONE", .str "NONE"])]])]

/-- A button on the screen is exported where it was. -/
theorem positions_kept_iff_onScreen :
    ∃ p d, Profile.fromJSON .strict "p" (buttonDocument (1 / 3) 2) = some p ∧
      exportProfile p = some d ∧
      positions .strict d = positions .strict (buttonDocument (1 / 3) 2) := by
  have hread : (Profile.fromJSON .strict "p" (buttonDocument (1 / 3) 2)).map (fun p =>
      (p.elements.isEmpty, p.contents.map fun c => (c.attributes.scale, c.x, c.y))) =
      some (false, [(1, 1 / 3, 2)]) := by
    decide +kernel
  obtain ⟨p, hp, hval⟩ := Option.map_eq_some_iff.1 hread
  obtain ⟨hempty, hcontents⟩ := Prod.mk.inj hval
  have hexport : exportProfile p = some (p.document none) := by
    rw [exportProfile, hempty]
    rfl
  refine ⟨p, _, hp, hexport, ((positions_kept_iff hp).1 _ hexport).2 fun c hc => ?_⟩
  have hmem := List.mem_map_of_mem (f := fun c => (c.attributes.scale, c.x, c.y)) hc
  rw [hcontents, List.mem_singleton, Prod.mk.injEq, Prod.mk.injEq] at hmem
  obtain ⟨hscale, hx, hy⟩ := hmem
  rw [Survives, hscale, hx, hy]
  decide +kernel

/-- A button with a negative ratio is exported at the corner. -/
theorem export_loses_negative_ratio :
    positions .strict (buttonDocument (-1 / 10) (1 / 2)) = some [(-1 / 10, 1 / 2)] ∧
      ∃ p d, Profile.fromJSON .strict "p" (buttonDocument (-1 / 10) (1 / 2)) = some p ∧
        exportProfile p = some d ∧ positions .strict d = some [(0, 0)] := by
  refine ⟨by decide +kernel, ?_⟩
  have hread : ((Profile.fromJSON .strict "p" (buttonDocument (-1 / 10) (1 / 2))).bind
      exportProfile).bind (positions .strict) = some [(0, 0)] := by
    decide +kernel
  obtain ⟨d, hd, hpos⟩ := Option.bind_eq_some_iff.1 hread
  obtain ⟨p, hp, hexport⟩ := Option.bind_eq_some_iff.1 hd
  exact ⟨p, d, hp, hexport, hpos⟩

end TermuxX11.VirtualKeys
