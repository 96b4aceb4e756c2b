import TermuxX11.VirtualKeys.Document
import TermuxX11.VirtualKeys.ReleaseAll

/-!
# Replacing the elements

`setProfile`, a change of the size or of the configuration, and `onDraw` put newly parsed
elements in the place of the old ones.  The old ones are dropped as they are, without
`forceRelease`, so a key that one of them holds stays down and nobody answers for it any
more.  As long as the elements hold nothing when they are dropped, and `releaseAllKeys`
finds no active range key, everything that is down is answered for in every run.
-/

namespace TermuxX11.VirtualKeys

open Java Ledger Run

/-! ### Parsed elements -/

/-- No pointer, toggle, direction or scroller. -/
structure Element.Unused (e : Element) : Prop where
  currentPointerId : e.currentPointerId = -1
  toggleActive : e.toggleActive = false
  states : e.states = fun _ => false
  scroller : e.scroller = none

namespace Element.Unused

variable {e : Element}

theorem not_holds (h : e.Unused) (k : Signal) : ¬ e.Holds k := by
  intro hk
  cases ht : e.type with
  | button =>
    by_cases htog : e.isToggleSwitch = true
    · have hact := ((holds_toggle ht htog k).1 hk).1
      rw [h.toggleActive] at hact
      cases hact
    · exact ((holds_plain ht htog k).1 hk).1 h.currentPointerId
  | rangeButton =>
    obtain ⟨s, hs, -⟩ := (holds_range ht k).1 hk
    rw [h.scroller] at hs
    cases hs
  | dPad | stick | trackpad =>
    rw [holds_pad (by simp [ht]) (by simp [ht]), h.states] at hk
    obtain ⟨i, hi, -⟩ := hk
    cases hi

theorem fresh (h : e.Unused) : e.Fresh := by
  refine ⟨h.currentPointerId, fun i => by rw [h.states], ?_⟩
  rintro ⟨-, s, hs, -⟩
  rw [h.scroller] at hs
  cases hs

theorem place (h : e.Unused) (s : Option Size) : (e.place s).Unused := by
  cases s with
  | none => exact h
  | some s =>
    unfold Element.place Element.setX Element.setY
    dsimp only
    split_ifs <;> exact ⟨h.1, h.2, h.3, h.4⟩

/-- No setter presses anything. -/
theorem apply (h : e.Unused) (d : Edit) : (d.apply e).Unused := by
  cases d with
  | setType t =>
    simp only [Edit.apply, Element.setType]
    split_ifs
    · exact h
    · exact ⟨h.1, rfl, h.3, rfl⟩
  | setBindingAt i b =>
    simp only [Edit.apply, Element.setBindingAt]
    split_ifs
    · exact ⟨h.1, h.2, rfl, h.4⟩
    · exact ⟨h.1, h.2, h.3, h.4⟩
  | setShape s =>
    simp only [Edit.apply, Element.setShape]
    split_ifs <;> exact ⟨h.1, h.2, h.3, h.4⟩
  | setScale q =>
    simp only [Edit.apply, Element.setScale]
    split_ifs <;> exact ⟨h.1, h.2, h.3, h.4⟩
  | setColumns n =>
    simp only [Edit.apply, Element.setColumns]
    split_ifs <;> exact ⟨h.1, h.2, h.3, h.4⟩
  | setOrientation o =>
    simp only [Edit.apply, Element.setOrientation]
    split_ifs <;> exact ⟨h.1, h.2, h.3, h.4⟩
  | setToggleSwitch b => exact ⟨h.1, h.2, h.3, h.4⟩
  | setText t => exact ⟨h.1, h.2, h.3, h.4⟩
  | setIconId i => exact ⟨h.1, h.2, h.3, h.4⟩
  | setRange r => exact ⟨h.1, h.2, h.3, h.4⟩

theorem applyAll (h : e.Unused) (ds : List Edit) : (Edit.applyAll ds e).Unused := by
  induction ds generalizing e with
  | nil => exact h
  | cons d ds ih => exact ih (h.apply d)

end Element.Unused

/-- A parsed element has not been used. -/
theorem unused_parseElement {C : Coercions} {s : Option Size} {ref : ℕ} {j : Json}
    {e : Element} (h : parseElement C s ref j = some e) : e.Unused := by
  obtain ⟨set, hset, rfl⟩ := Option.map_eq_some_iff.1 h
  obtain ⟨el, ratioX, ratioY, ds, ds', -, -, -, heq⟩ := parseSetters_edits hset
  rw [heq]
  have hnew : ({ ref := ref, view := s.isSome } : Element).Unused := ⟨rfl, rfl, rfl, rfl⟩
  have hds := hnew.applyAll ds
  have hratio : ((Edit.applyAll ds { ref := ref, view := s.isSome }).setRatio ratioX
      ratioY).Unused := ⟨hds.1, hds.2, hds.3, hds.4⟩
  exact (hratio.place s).applyAll ds'

theorem Profile.unused_loadElements (C : Coercions) (s : Size) (ref : ℕ) (p : Profile) :
    ∀ e ∈ (p.loadElements C s ref).elements, e.Unused := by
  unfold Profile.loadElements
  cases p.elementsJson with
  | none => exact fun e he => by cases he
  | some js =>
    intro e he
    obtain ⟨j, -, r, hj⟩ := mem_parseElements he
    exact unused_parseElement hj

/-! ### Operations -/

/-- What happens to the overlay, in any order: callbacks, and what the activity does in
`onPause` and when a preference changes.  A profile that is set has been read from a file, so
its elements hold nothing. -/
inductive Op
  | callback (c : Callback)
  | releaseAllKeys (P : Platform)
  | setProfile (C : Coercions) (p : Profile) (hp : ∀ e ∈ p.elements, e.Unused)
  | resetProfile (C : Coercions)
  | onSizeChanged (C : Coercions) (s : Size)
  | onConfigurationChanged (C : Coercions)
  | onDraw (C : Coercions)
  | setInputSender
  | setEditMode (mode : Bool)

namespace Op

/-- One operation.  `resetProfile` is `setProfile` on the profile that is there already. -/
def step (v : View) : Op → Option View
  | callback c => v.step c
  | releaseAllKeys P => v.stepReleaseAllKeys P
  | setProfile C p _ => some (v.setProfile C p)
  | resetProfile C => some ((v.profile.map fun p => v.setProfile C p).getD v)
  | onSizeChanged C s => some (v.onSizeChanged C s)
  | onConfigurationChanged C => some (v.onConfigurationChanged C)
  | onDraw C => some (v.onDraw C)
  | setInputSender => some { v with inputSender := true }
  | setEditMode mode => some { v with editMode := mode }

/-- The operation drops the elements of the view. -/
def Discards (v : View) : Op → Prop
  | setProfile _ _ _ => True
  | resetProfile _ | onConfigurationChanged _ => 0 < v.size.width ∧ 0 < v.size.height
  | onSizeChanged _ s => 0 < s.width ∧ 0 < s.height
  | onDraw _ => v.size.width ≠ 0 ∧ v.size.height ≠ 0 ∧
      (v.profile.any fun p => !p.elementsLoaded) = true
  | _ => False

/-- Elements are dropped only while they hold nothing, and `releaseAllKeys` finds no active
range key. -/
def Careful (v : View) (op : Op) : Prop :=
  v.inputSender = true →
    (op.Discards v → ∀ e ∈ v.elements, ∀ k, ¬ e.Holds k) ∧
      ((∃ P, op = releaseAllKeys P) → ∀ e ∈ v.elements, ¬ e.RangeActive)

end Op

/-! ### Each operation keeps the ledger -/

namespace View

theorem Kept.quiet {v v' : View} (h : Kept v) (hq : Quiet v v') : Kept v' := by
  refine ⟨hq.atRest h.atRest, fun hi => ?_, fun k hk => ?_⟩
  · rw [hq.frame.sent]
    exact h.silent (hq.frame.inputSender ▸ hi)
  · rw [hq.frame.sent] at hk
    rw [hq.holds]
    exact h.covered k hk

/-- The elements are dropped and others that hold nothing take their place. -/
theorem Kept.replace {v v' : View} (h : Kept v)
    (hold : v.inputSender = true → ∀ e ∈ v.elements, ∀ k, ¬ e.Holds k)
    (hnew : ∀ e ∈ v'.elements, ∀ k, ¬ e.Holds k) (hin : v'.inputSender = v.inputSender)
    (hsent : v'.sent = v.sent) (hleft : v'.leftButtonHeld = v.leftButtonHeld)
    (hright : v'.rightButtonHeld = v.rightButtonHeld) : Kept v' := by
  refine ⟨fun e he _ _ => hnew e he, fun hi => ?_, fun k hk => ?_⟩
  · rw [hsent]
    exact h.silent (hin ▸ hi)
  · rw [hsent] at hk
    cases hi : v.inputSender with
    | false =>
      rw [h.silent hi] at hk
      cases hk
    | true =>
      rcases h.covered k hk with ⟨e, he, -, hk'⟩ | hb
      · exact absurd hk' (hold hi e he k.2)
      · refine Or.inr ?_
        rw [hleft, hright]
        exact hb

theorem kept_reloadElements {v : View} (C : Coercions) (h : Kept v)
    (hold : v.inputSender = true → ∀ e ∈ v.elements, ∀ k, ¬ e.Holds k) :
    Kept (v.reloadElements C) := by
  unfold reloadElements
  cases v.profile with
  | none => exact h
  | some p =>
    have hload : Kept (v.loadProfile C p) :=
      h.replace hold (fun e he => (p.unused_loadElements C v.size v.nextRef e he).not_holds)
        rfl rfl rfl rfl
    cases v.selectedElement with
    | none => exact hload
    | some ref => exact hload.quiet (quiet_selectElement _ _)

theorem elements_deselectAllElements (v : View) :
    v.deselectAllElements.elements = v.elements.map (Element.setSelected false) :=
  elements_withElements_map _ v

theorem kept_setProfile {v : View} (C : Coercions) {p : Profile} (h : Kept v)
    (hold : v.inputSender = true → ∀ e ∈ v.elements, ∀ k, ¬ e.Holds k)
    (hp : ∀ e ∈ p.elements, ∀ k, ¬ e.Holds k) : Kept (v.setProfile C p) := by
  have hprofile : Kept (v.withProfile p) := h.replace hold hp rfl rfl rfl rfl
  have hset := hprofile.quiet (quiet_deselectAllElements _)
  unfold setProfile
  dsimp only
  split_ifs
  · refine kept_reloadElements C hset fun _ => ?_
    rw [elements_deselectAllElements]
    intro e' he' k
    obtain ⟨e, he, rfl⟩ := List.mem_map.1 he'
    exact hp e he k
  · exact hset

theorem kept_resize {v : View} (h : Kept v) (s : Size) : Kept { v with size := s } :=
  ⟨h.atRest, h.silent, h.covered⟩

theorem mem_withElements {v : View} {es : List Element} {e : Element}
    (he : e ∈ (v.withElements es).elements) : e ∈ es := by
  cases hp : v.profile with
  | none => simp [View.elements, withElements, hp] at he
  | some p => rwa [elements_withElements (by simp [hp]) es] at he

theorem kept_releaseAllKeys {P : Platform} {v v' : View} (h : Kept v)
    (hs : v.stepReleaseAllKeys P = some v')
    (hact : v.inputSender = true → ∀ e ∈ v.elements, ¬ e.RangeActive) : Kept v' := by
  obtain ⟨r, hr, rfl⟩ := Option.map_eq_some_iff.1 hs
  obtain ⟨s, hs', rfl⟩ := Option.map_eq_some_iff.1 hr
  obtain ⟨-, hnot, -⟩ := forceReleaseElements_spec _ hs'
  refine ⟨fun e he _ _ => hnot e (mem_withElements he), fun hi => ?_, fun k hk => Or.inr ?_⟩
  · have hi' : v.inputSender = false := hi
    simp [deliver, hi', h.silent hi']
  · cases hi : v.inputSender with
    | false => simp [deliver, hi, h.silent hi, Down] at hk
    | true =>
      simp only [deliver, hi, if_true, Calls.events_append] at hk
      exact (explains_releaseAllKeys hr (hact hi)).covers h.covered k hk

end View

/-- **An operation that is careful keeps the ledger.** -/
theorem Op.kept_step {v v' : View} {op : Op} (h : v.Kept) (hc : op.Careful v)
    (hs : op.step v = some v') : v'.Kept := by
  have hold (hd : op.Discards v) : v.inputSender = true → ∀ e ∈ v.elements, ∀ k, ¬ e.Holds k :=
    fun hi => (hc hi).1 hd
  cases op with
  | callback c => exact h.step hs
  | releaseAllKeys P => exact View.kept_releaseAllKeys h hs fun hi => (hc hi).2 ⟨P, rfl⟩
  | setProfile C p hp =>
    obtain rfl := Option.some.inj hs
    exact View.kept_setProfile C h (hold trivial) fun e he => (hp e he).not_holds
  | resetProfile C =>
    obtain rfl := Option.some.inj hs
    cases hp : v.profile with
    | none => exact h
    | some p =>
      -- the profile that is there already is set again, which reloads its elements
      have hsame : v.withProfile p = v := by simp [View.withProfile, ← hp]
      show View.Kept (View.setProfile C p v)
      unfold View.setProfile
      rw [hsame]
      dsimp only
      split_ifs with hsize
      · refine View.kept_reloadElements C (h.quiet (View.quiet_deselectAllElements v)) ?_
        rw [View.elements_deselectAllElements]
        intro hi e' he' k
        obtain ⟨e, he, rfl⟩ := List.mem_map.1 he'
        exact hold hsize hi e he k
      · exact h.quiet (View.quiet_deselectAllElements v)
  | onSizeChanged C s =>
    obtain rfl := Option.some.inj hs
    unfold View.onSizeChanged
    dsimp only
    split_ifs with hsize
    · exact View.kept_reloadElements C (View.kept_resize h s) (hold hsize)
    · exact View.kept_resize h s
  | onConfigurationChanged C =>
    obtain rfl := Option.some.inj hs
    unfold View.onConfigurationChanged
    split_ifs with hsize
    · exact View.kept_reloadElements C h (hold hsize)
    · exact h
  | onDraw C =>
    obtain rfl := Option.some.inj hs
    unfold View.onDraw
    split_ifs with hzero
    · exact ⟨h.atRest, h.silent, h.covered⟩
    · dsimp only
      have hready : View.Kept { v with readyToDraw := true } := ⟨h.atRest, h.silent, h.covered⟩
      rw [not_or] at hzero
      -- drawing reloads the elements only if they are not loaded
      split_ifs with hload
      · exact View.kept_reloadElements C hready (hold ⟨hzero.1, hzero.2, hload⟩)
      · exact hready
  | setInputSender =>
    obtain rfl := Option.some.inj hs
    exact ⟨h.atRest, fun hi => (Bool.false_ne_true hi.symm).elim, h.covered⟩
  | setEditMode mode =>
    obtain rfl := Option.some.inj hs
    exact ⟨h.atRest, h.silent, h.covered⟩

/-- **Careful runs strand no key**: whatever is down at the input sender is held by an
element of the current profile, or is a button the view holds.  So nothing that a dropped
element has pressed is down. -/
theorem Op.covered_of_careful {v₀ v : View} (hstart : v₀.Start) {ops : List Op}
    (hcare : TryAlways Op.step Op.Careful v₀ ops) (hrun : tryExec Op.step v₀ ops = some v) :
    (∀ k, Down (Calls.events v.sent) k → v.Holds k) ∧
      ∀ ref, (∀ e ∈ v.elements, e.ref ≠ ref) →
        ∀ k, ¬ Down (Calls.events v.sent) (.element ref, k) := by
  have hkept : v.Kept :=
    tryExec_invariant (fun _ _ _ h hc hs => Op.kept_step h hc hs) hstart.kept hcare hrun
  refine ⟨hkept.covered, fun ref href k hk => ?_⟩
  rcases hkept.covered _ hk with ⟨e, he, heq, -⟩ | ⟨-, hv⟩ | ⟨-, hv⟩
  · exact href e he (Source.element.inj heq)
  · cases hv
  · cases hv

/-! ### A toggle that is on when the size changes -/

/-- A document with one toggle button for the key `A`. -/
def toggleDocument : Json :=
  .obj [("name", .str "p"), ("elements", .arr [.obj
    [("type", .str "BUTTON"), ("shape", .str "CIRCLE"), ("scale", .num 1), ("x", .num (1 / 10)),
      ("y", .num (1 / 10)), ("toggleSwitch", .bool true), ("text", .str ""), ("iconId", .int 0),
      ("bindings", .arr [.str "KEY_A", .str "NONE", .str "NONE", .str "NONE"])]])]

/-- The view after the document has been loaded. -/
def toggleView : View :=
  { size := ⟨1000, 1000⟩
    inputSender := true
    profile := (Profile.fromJSON .strict "p" toggleDocument).map fun p =>
      p.loadElements .strict ⟨1000, 1000⟩ 0
    nextRef := 1 }

theorem unused_toggleView : ∀ e ∈ toggleView.elements, e.Unused := by
  intro e he
  cases hp : Profile.fromJSON .strict "p" toggleDocument with
  | none => simp [toggleView, View.elements, hp] at he
  | some p =>
    simp only [toggleView, View.elements, hp, Option.map_some, Option.getD_some] at he
    exact p.unused_loadElements _ _ _ e he

theorem start_toggleView : toggleView.Start :=
  ⟨fun e he => (unused_toggleView e he).fresh, by decide +kernel, by decide +kernel, rfl⟩

/-- The size changes before the toggle is touched. -/
theorem covered_of_careful_toggle :
    ∃ v, tryExec Op.step toggleView [.onSizeChanged .strict ⟨500, 1000⟩,
        .callback (.touch Gesture.idlePlatform ⟨.down, [⟨0, 50, 100⟩], 0, by decide⟩)] = some v ∧
      Down (Calls.events v.sent) (.element 1, .key .keyA) ∧ v.Holds (.element 1, .key .keyA) := by
  have hsent : (tryExec Op.step toggleView [.onSizeChanged .strict ⟨500, 1000⟩,
      .callback (.touch Gesture.idlePlatform ⟨.down, [⟨0, 50, 100⟩], 0, by decide⟩)]).map
        (fun v => Calls.events v.sent) = some [((.element 1, .key .keyA), true)] := by
    decide +kernel
  obtain ⟨v, hv, hdown⟩ := Option.map_eq_some_iff.1 hsent
  have hk : Down (Calls.events v.sent) (.element 1, .key .keyA) := by
    rw [hdown]
    decide
  refine ⟨v, hv, hk, (Op.covered_of_careful start_toggleView ?_ hv).1 _ hk⟩
  constructor
  · refine fun _ => ⟨fun _ e he => (unused_toggleView e he).not_holds, ?_⟩
    rintro ⟨P, h⟩
    cases h
  · refine fun _ _ => ⟨fun _ => ⟨False.elim, ?_⟩, fun _ _ => trivial⟩
    rintro ⟨P, h⟩
    cases h

/-- The toggle is touched once, and the finger is lifted. -/
def toggleOn : List Op :=
  [.callback (.touch Gesture.idlePlatform ⟨.down, [Gesture.fingerA], 0, Nat.zero_lt_one⟩),
    .callback (.touch Gesture.idlePlatform ⟨.up, [Gesture.fingerA], 0, Nat.zero_lt_one⟩)]

/-- The key stays down when the size changes, and no element answers for it. -/
theorem resize_strands_key :
    toggleView.Start ∧
      ∃ v, tryExec Op.step toggleView (toggleOn ++ [.onSizeChanged .strict ⟨500, 1000⟩]) =
          some v ∧
        Down (Calls.events v.sent) (.element 0, .key .keyA) ∧
        ¬ v.Holds (.element 0, .key .keyA) ∧ ∀ e ∈ v.elements, ∀ k, ¬ e.Holds k := by
  have hsent : (tryExec Op.step toggleView
      (toggleOn ++ [.onSizeChanged .strict ⟨500, 1000⟩])).map
        (fun v => Calls.events v.sent) = some [((.element 0, .key .keyA), true)] := by
    decide +kernel
  have helements : (tryExec Op.step toggleView
      (toggleOn ++ [.onSizeChanged .strict ⟨500, 1000⟩])).map (fun v =>
        v.elements.map fun e => (e.ref, e.type, e.isToggleSwitch, e.toggleActive)) =
      some [(1, .button, true, false)] := by
    decide +kernel
  obtain ⟨v, hv, hdown⟩ := Option.map_eq_some_iff.1 hsent
  rw [hv, Option.map_some, Option.some.injEq] at helements
  have hnone : ∀ e ∈ v.elements, e.ref = 1 ∧ ∀ k, ¬ e.Holds k := by
    intro e he
    have hmem := List.mem_map_of_mem (f := fun e : Element =>
      (e.ref, e.type, e.isToggleSwitch, e.toggleActive)) he
    rw [helements, List.mem_singleton] at hmem
    simp only [Prod.mk.injEq] at hmem
    obtain ⟨href, ht, htog, hact⟩ := hmem
    refine ⟨href, fun k hk => ?_⟩
    have := ((Element.holds_toggle ht htog k).1 hk).1
    rw [hact] at this
    cases this
  refine ⟨start_toggleView, v, hv, by rw [hdown]; decide, ?_, fun e he => (hnone e he).2⟩
  rintro (⟨e, he, href, -⟩ | ⟨-, h⟩ | ⟨-, h⟩)
  · have := (hnone e he).1.symm.trans (Source.element.inj href)
    cases this
  · cases h
  · cases h

end TermuxX11.VirtualKeys
