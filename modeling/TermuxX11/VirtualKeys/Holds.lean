import TermuxX11.VirtualKeys.Touch

/-!
# What an element answers for

`Holds e k`: the state of the element says that it keeps `k` down.  Each handler explains
the events it sends by the element it leaves behind (`explains_handleTouchDown` and so
on).  Two of them need more than that.  A `RANGE_BUTTON` forgets its active index when it
is touched, so it must hold nothing while no pointer is on it (`AtRest`); and
`forceRelease` drops the scroller, so no index may be active then (`RangeActive`).
-/

namespace TermuxX11.VirtualKeys

open Ledger

/-- The keys and buttons of a row of bindings, `NONE` apart. -/
def signals (bs : List Binding) : List Signal :=
  (bs.filter (· ≠ .none)).filterMap Binding.signal

/-- The index answers for its key. -/
def IndexHolds (r : Range) (index : ℤ) (k : Signal) : Prop :=
  0 ≤ index ∧ getBindingForRangeIndex r index ≠ .none ∧
    (getBindingForRangeIndex r index).signal = some k

/-- A direction is active. -/
def PadHolds (bs : List Binding) (states : Fin 4 → Bool) (k : Signal) : Prop :=
  ∃ i : Fin 4, states i = true ∧ (bindingAt bs i).signal = some k

namespace Element

/-- A button that keeps its keys down between two touches. -/
def IsToggle (e : Element) : Prop := e.type = .button ∧ e.isToggleSwitch = true

instance (e : Element) : Decidable e.IsToggle := inferInstanceAs (Decidable (_ ∧ _))

/-- What the element keeps down. -/
def Holds (e : Element) (k : Signal) : Prop :=
  match e.type with
  | .button =>
    (if e.isToggleSwitch then e.toggleActive = true else e.currentPointerId ≠ -1) ∧
      k ∈ signals e.bindings
  | .rangeButton => ∃ s, e.scroller = some s ∧
      IndexHolds (RangeScroller.rangeOf e) s.lastActivatedIndex k
  | .dPad | .stick | .trackpad => PadHolds e.bindings e.states k

/-- Without a pointer only a toggle holds anything. -/
def AtRest (e : Element) : Prop :=
  e.currentPointerId = -1 → ¬ e.IsToggle → ∀ k, ¬ e.Holds k

/-- The scroller of a range button has an active index. -/
def RangeActive (e : Element) : Prop :=
  e.type = .rangeButton ∧ ∃ s, e.scroller = some s ∧ 0 ≤ s.lastActivatedIndex

end Element

/-! ### Rows of events -/

theorem events_sendAllBindings (H : Host) (e : Element) (d : Bool) :
    events (e.sendAllBindings H d) = (signals e.bindings).map fun k => (k, d) := by
  rw [Element.sendAllBindings]
  induction e.bindings with
  | nil => rfl
  | cons b bs ih =>
    rw [List.flatMap_cons, events_append, ih]
    by_cases hb : b = .none
    · simp [signals, hb]
    · rw [if_neg hb, events_handleInputEvent]
      cases hs : b.signal <;> simp [signals, hb, hs]

theorem events_sendIndex (H : Host) (r : Range) (index : ℤ) (d : Bool) :
    events (RangeScroller.sendIndex H r index d) =
      (signals [getBindingForRangeIndex r index]).map fun k => (k, d) := by
  rw [RangeScroller.sendIndex]
  by_cases hb : getBindingForRangeIndex r index = .none
  · simp [signals, hb]
  · simp only [if_neg hb, events_handleInputEvent]
    cases hs : (getBindingForRangeIndex r index).signal <;> simp [signals, hb, hs]

theorem mem_signals_singleton {b : Binding} {k : Signal} :
    k ∈ signals [b] ↔ b ≠ .none ∧ b.signal = some k := by
  by_cases hb : b = .none <;> simp [signals, hb]

/-! ### The range scroller -/

theorem wrap_nonneg (v : ℤ) {m : ℤ} (hm : 0 < m) : 0 ≤ RangeScroller.wrap v m := by
  have hlt := Int.lt_tmod_of_pos v hm
  exact Int.tmod_nonneg _ (by omega)

theorem wrappedIndex_nonneg (H : Host) (e : Element) (s : RangeScroller) :
    0 ≤ s.wrappedIndex H e := by
  refine wrap_nonneg _ ?_
  cases RangeScroller.rangeOf e <;> decide

/-- The index moves on, and the old key is released before the new one is pressed. -/
theorem explains_updateActivatedIndex (H : Host) (e : Element) (s : RangeScroller) :
    Explains (IndexHolds (RangeScroller.rangeOf e) s.lastActivatedIndex)
      (IndexHolds (RangeScroller.rangeOf e) (s.updateActivatedIndex H e).1.lastActivatedIndex)
      (events (s.updateActivatedIndex H e).2) := by
  unfold RangeScroller.updateActivatedIndex
  by_cases hi : s.wrappedIndex H e = s.lastActivatedIndex
  · simp only [if_pos hi]
    exact Explains.refl _
  · simp only [if_neg hi, events_append]
    have hpress : Explains (fun _ => False)
        (IndexHolds (RangeScroller.rangeOf e) (s.wrappedIndex H e))
        (events (RangeScroller.sendIndex H (RangeScroller.rangeOf e) (s.wrappedIndex H e)
          true)) := by
      rw [events_sendIndex]
      refine Explains.press (fun k hk => ?_) (fun k => False.elim)
      exact ⟨wrappedIndex_nonneg H e s, mem_signals_singleton.1 hk⟩
    refine Explains.trans ?_ hpress
    by_cases hl : 0 ≤ s.lastActivatedIndex
    · rw [if_pos hl, events_sendIndex]
      refine Explains.release fun k hk => Or.inl ?_
      exact mem_signals_singleton.2 hk.2
    · rw [if_neg hl]
      exact Explains.of_imp fun k hk => hl hk.1

theorem explains_scrollerDown (H : Host) (e : Element) (s : RangeScroller) (x y : ℚ) :
    Explains (fun _ => False)
      (IndexHolds (RangeScroller.rangeOf e) (s.handleTouchDown H e x y).1.lastActivatedIndex)
      (events (s.handleTouchDown H e x y).2) :=
  Explains.trans (Explains.of_imp fun _ => False.elim)
    (explains_updateActivatedIndex H e (s.grab x y))

theorem explains_scrollerMove (H : Host) (e : Element) (s : RangeScroller) (x y : ℚ) :
    Explains (IndexHolds (RangeScroller.rangeOf e) s.lastActivatedIndex)
      (IndexHolds (RangeScroller.rangeOf e) (s.handleTouchMove H e x y).1.lastActivatedIndex)
      (events (s.handleTouchMove H e x y).2) := by
  unfold RangeScroller.handleTouchMove
  by_cases hd : s.isDragging
  · rw [if_pos hd]
    exact explains_updateActivatedIndex H e (s.drag H e x y)
  · rw [if_neg hd]
    exact Explains.refl _

theorem explains_scrollerUp (H : Host) (e : Element) (s : RangeScroller) :
    Explains (IndexHolds (RangeScroller.rangeOf e) s.lastActivatedIndex) (fun _ => False)
      (events (s.handleTouchUp H e).2) := by
  unfold RangeScroller.handleTouchUp
  dsimp only
  by_cases hl : 0 ≤ s.lastActivatedIndex
  · rw [if_pos hl, events_sendIndex]
    exact Explains.release fun k hk => Or.inl (mem_signals_singleton.2 hk.2)
  · rw [if_neg hl]
    exact Explains.of_imp fun k hk => hl hk.1

theorem lastActivatedIndex_scrollerUp (H : Host) (e : Element) (s : RangeScroller) :
    (s.handleTouchUp H e).1.lastActivatedIndex < 0 := by
  simp only [RangeScroller.handleTouchUp]
  split_ifs with hl <;> omega

/-! ### The loops over the directions -/

/-- Sending the state of one direction and recording it. -/
theorem explains_setState (bs : List Binding) (states : Fin 4 → Bool) (i : Fin 4) (d : Bool) :
    Explains (PadHolds bs states) (PadHolds bs (Function.update states i d))
      ((bindingAt bs i).signal.toList.map fun k => (k, d)) where
  pressed k hd := by
    rw [last_map] at hd
    split_ifs at hd with hmem
    obtain rfl := Option.some.inj hd
    exact ⟨i, Function.update_self .., Option.mem_toList.1 hmem⟩
  kept k hn hk := by
    obtain ⟨j, hj, hs⟩ := hk
    rw [last_map] at hn
    split_ifs at hn with hmem
    have hji : j ≠ i := by
      rintro rfl
      exact hmem (Option.mem_toList.2 hs)
    exact ⟨j, by rw [Function.update_of_ne hji, hj], hs⟩

theorem explains_sendPad (H : Host) (bs : List Binding) (newStates : Fin 4 → Bool)
    (is : List (Fin 4)) (states : Fin 4 → Bool) :
    Explains (PadHolds bs states) (PadHolds bs (Element.sendPad H bs newStates is states).1)
      (events (Element.sendPad H bs newStates is states).2) := by
  induction is generalizing states with
  | nil => exact Explains.refl _
  | cons i is ih =>
    simp only [Element.sendPad, events_append, events_handleInputEvent]
    exact (explains_setState bs states i _).trans (ih _)

theorem explains_sendTrackpad (H : Host) (bs : List Binding) (newStates : Fin 4 → Bool)
    (dx dy : ℚ) (is : List (Fin 4)) (c : ℤ × ℤ) (states : Fin 4 → Bool) :
    Explains (PadHolds bs states)
      (PadHolds bs (Element.sendTrackpad H bs newStates dx dy is c states).1)
      (events (Element.sendTrackpad H bs newStates dx dy is c states).2.2) := by
  induction is generalizing c states with
  | nil => exact Explains.refl _
  | cons i is ih =>
    simp only [Element.sendTrackpad]
    split_ifs
    · exact ih _ _
    · exact ih _ _
    · simp only [events_append, events_handleInputEvent]
      exact (explains_setState bs states i _).trans (ih _ _)
    · exact ih _ _

theorem events_releaseStates (H : Host) (bs : List Binding) (states : Fin 4 → Bool) :
    events (Element.releaseStates H bs states) =
      ((List.finRange 4).flatMap fun i =>
        if states i then (bindingAt bs i).signal.toList else []).map fun k => (k, false) := by
  rw [Element.releaseStates]
  induction List.finRange 4 with
  | nil => rfl
  | cons i is ih =>
    rw [List.flatMap_cons, events_append, ih, List.flatMap_cons, List.map_append]
    by_cases hi : states i = true
    · rw [if_pos hi, if_pos hi, events_handleInputEvent]
    · rw [if_neg hi, if_neg hi, events_nil, List.map_nil]

/-- All active directions are released. -/
theorem explains_releaseStates (H : Host) (bs : List Binding) (states : Fin 4 → Bool) :
    Explains (PadHolds bs states) (fun _ => False)
      (events (Element.releaseStates H bs states)) := by
  rw [events_releaseStates]
  refine Explains.release fun k hk => Or.inl ?_
  obtain ⟨i, hi, hs⟩ := hk
  refine List.mem_flatMap.2 ⟨i, List.mem_finRange i, ?_⟩
  rw [if_pos hi]
  exact Option.mem_toList.2 hs

/-- The releases of the loop, whatever else is answered for. -/
theorem explains_releaseStates_refl (H : Host) (bs : List Binding) (states : Fin 4 → Bool)
    (h : Signal → Prop) : Explains h h (events (Element.releaseStates H bs states)) := by
  rw [events_releaseStates]
  exact Explains.release fun k => Or.inr

theorem not_padHolds_false (bs : List Binding) (k : Signal) :
    ¬ PadHolds bs (fun _ => false) k := by
  rintro ⟨i, hi, -⟩
  cases hi

/-! ### The handlers -/

namespace Element

/-- The same object with the same configuration, as far as `Holds` depends on it. -/
structure SameControl (e e' : Element) : Prop where
  ref : e'.ref = e.ref
  view : e'.view = e.view
  type : e'.type = e.type
  isToggleSwitch : e'.isToggleSwitch = e.isToggleSwitch
  bindings : e'.bindings = e.bindings
  range : e'.range = e.range

theorem SameControl.isToggle {e e' : Element} (h : SameControl e e') :
    e'.IsToggle ↔ e.IsToggle := by
  rw [IsToggle, IsToggle, h.type, h.isToggleSwitch]

/-- A handler turned `e` into `r.1` and sent `r.2`: it is the same control, and it answers
for what was sent. -/
structure Handles (e : Element) (r : Element × List Output) : Prop where
  same : SameControl e r.1
  explains : Explains e.Holds r.1.Holds (events r.2)

theorem SameControl.refl (e : Element) : SameControl e e := ⟨rfl, rfl, rfl, rfl, rfl, rfl⟩

theorem SameControl.trans {e e' e'' : Element} (h : SameControl e e') (h' : SameControl e' e'') :
    SameControl e e'' :=
  ⟨h'.ref.trans h.ref, h'.view.trans h.view, h'.type.trans h.type,
    h'.isToggleSwitch.trans h.isToggleSwitch, h'.bindings.trans h.bindings,
    h'.range.trans h.range⟩

theorem Handles.refl (e : Element) : Handles e (e, []) :=
  ⟨SameControl.refl e, Explains.refl _⟩

theorem mem_of_holds_button {e : Element} (ht : e.type = .button) {k : Signal}
    (hk : e.Holds k) : k ∈ signals e.bindings := by
  rw [Holds, ht] at hk
  exact hk.2

theorem holds_toggle {e : Element} (ht : e.type = .button) (htog : e.isToggleSwitch = true)
    (k : Signal) : e.Holds k ↔ e.toggleActive = true ∧ k ∈ signals e.bindings := by
  rw [Holds, ht]
  simp only [if_pos htog]

theorem holds_plain {e : Element} (ht : e.type = .button) (htog : ¬ e.isToggleSwitch = true)
    (k : Signal) : e.Holds k ↔ e.currentPointerId ≠ -1 ∧ k ∈ signals e.bindings := by
  rw [Holds, ht]
  simp only [if_neg htog]

theorem holds_range {e : Element} (ht : e.type = .rangeButton) (k : Signal) :
    e.Holds k ↔ ∃ s, e.scroller = some s ∧
      IndexHolds (RangeScroller.rangeOf e) s.lastActivatedIndex k := by
  rw [Holds, ht]

theorem holds_scroller {e : Element} (ht : e.type = .rangeButton) {s : RangeScroller}
    (hs : e.scroller = some s) :
    e.Holds = IndexHolds (RangeScroller.rangeOf e) s.lastActivatedIndex := by
  funext k
  rw [eq_iff_iff, holds_range ht, hs]
  constructor
  · rintro ⟨s', hs', hk⟩
    obtain rfl := Option.some.inj hs'
    exact hk
  · exact fun hk => ⟨s, rfl, hk⟩

theorem holds_pad {e : Element} (hb : e.type ≠ .button) (hr : e.type ≠ .rangeButton) :
    e.Holds = PadHolds e.bindings e.states := by
  funext k
  cases ht : e.type with
  | button => exact absurd ht hb
  | rangeButton => exact absurd ht hr
  | dPad | stick | trackpad => rw [Holds, ht]

section

variable {e e' : Element} {os : List Output}

theorem handles_pad (same : SameControl e e') (hb : e.type ≠ .button)
    (hr : e.type ≠ .rangeButton)
    (hx : Explains (PadHolds e.bindings e.states) (PadHolds e.bindings e'.states)
      (events os)) : Handles e (e', os) := by
  refine ⟨same, ?_⟩
  rw [holds_pad hb hr, holds_pad (by rwa [same.type]) (by rwa [same.type]), same.bindings]
  exact hx

theorem handles_scroller (same : SameControl e e') (ht : e.type = .rangeButton)
    {s s' : RangeScroller} (hs : e.scroller = some s) (hs' : e'.scroller = some s')
    (hx : Explains (IndexHolds (RangeScroller.rangeOf e) s.lastActivatedIndex)
      (IndexHolds (RangeScroller.rangeOf e) s'.lastActivatedIndex) (events os)) :
    Handles e (e', os) := by
  refine ⟨same, ?_⟩
  rw [holds_scroller ht hs, holds_scroller (by rw [same.type, ht]) hs', RangeScroller.rangeOf,
    RangeScroller.rangeOf, same.range]
  exact hx

/-- A scroller that was idle, or new. -/
theorem handles_grab (same : SameControl e e') (ht : e.type = .rangeButton)
    (hnot : ∀ k, ¬ e.Holds k) {s' : RangeScroller} (hs' : e'.scroller = some s')
    (hx : Explains (fun _ => False)
      (IndexHolds (RangeScroller.rangeOf e) s'.lastActivatedIndex) (events os)) :
    Handles e (e', os) := by
  refine ⟨same, ?_⟩
  rw [holds_scroller (by rw [same.type, ht]) hs', RangeScroller.rangeOf, same.range]
  exact Explains.trans (Explains.of_imp fun k hk => hnot k hk) hx

end

theorem explains_moveTrackpad (H : Host) (e : Element) (px py : ℚ) :
    Explains (PadHolds e.bindings e.states)
      (PadHolds e.bindings (e.moveTrackpad H px py).1.states)
      (events (e.moveTrackpad H px py).2) := by
  have hc (c : ℤ × ℤ) : events (if c.1 ≠ 0 ∨ c.2 ≠ 0 then [.onPointerMove c.1 c.2] else []) =
      [] := by
    split_ifs <;> rfl
  simp only [moveTrackpad, events_append, hc, List.append_nil]
  exact explains_sendTrackpad H _ _ _ _ _ _ _

/-- `handleTouchMove` answers for what it sends. -/
theorem handles_handleTouchMove (H : Host) (e : Element) (pid : ℕ) (px py : ℚ) :
    Handles e (e.handleTouchMove H pid px py) := by
  unfold handleTouchMove
  by_cases hp : (pid : ℤ) = e.currentPointerId
  · rw [if_pos hp]
    cases ht : e.type with
    | button => exact Handles.refl e
    | trackpad =>
      refine handles_pad ⟨rfl, rfl, rfl, rfl, rfl, rfl⟩ (by simp [ht]) (by simp [ht]) ?_
      exact explains_moveTrackpad H (e.cacheBoundingBox H.snappingSize) px py
    | stick =>
      refine handles_pad ⟨rfl, rfl, rfl, rfl, rfl, rfl⟩ (by simp [ht]) (by simp [ht]) ?_
      exact explains_sendPad H e.bindings _ _ e.states
    | dPad =>
      refine handles_pad ⟨rfl, rfl, rfl, rfl, rfl, rfl⟩ (by simp [ht]) (by simp [ht]) ?_
      exact explains_sendPad H e.bindings _ _ e.states
    | rangeButton =>
      cases hs : e.scroller with
      | none => exact Handles.refl e
      | some s =>
        refine handles_scroller ?_ ht hs rfl (explains_scrollerMove H e s px py)
        cases s.isDragging <;> exact ⟨rfl, rfl, rfl, rfl, rfl, rfl⟩
  · rw [if_neg hp]
    exact Handles.refl e

theorem currentPointerId_handleTouchMove (H : Host) (e : Element) (pid : ℕ) (px py : ℚ) :
    (e.handleTouchMove H pid px py).1.currentPointerId = e.currentPointerId := by
  unfold handleTouchMove
  split_ifs with hp
  · cases e.type with
    | button => rfl
    | trackpad => rfl
    | stick => rfl
    | dPad => rfl
    | rangeButton =>
      cases hs : e.scroller with
      | none => rfl
      | some s => cases hd : s.isDragging <;> simp [hd, cacheBoundingBox]
  · rfl

theorem Handles.trans_frame {e e₁ : Element} {r : Element × List Output} (h : Handles e₁ r)
    (same : SameControl e e₁) (hk : ∀ k, e.Holds k → e₁.Holds k) : Handles e r where
  same := same.trans h.same
  explains := Explains.trans (Explains.of_imp hk) h.explains

/-- Where a pad is touched, it handles the touch as a move. -/
theorem handles_touchPad (H : Host) {e e₁ : Element} (same : SameControl e e₁)
    (hst : e₁.states = e.states) (hb : e.type ≠ .button) (hr : e.type ≠ .rangeButton)
    (pid : ℕ) (px py : ℚ) : Handles e (e₁.handleTouchMove H pid px py) := by
  refine (handles_handleTouchMove H e₁ pid px py).trans_frame same fun k hk => ?_
  rw [holds_pad hb hr] at hk
  rw [holds_pad (by rwa [same.type]) (by rwa [same.type]), same.bindings, hst]
  exact hk

/-- A free element that is touched answers for what it sends. -/
theorem handles_capture (H : Host) {e : Element} (hrest : e.AtRest)
    (hfree : e.currentPointerId = -1) (pid : ℕ) (px py : ℚ) :
    Handles e (e.capture H pid px py) := by
  unfold capture
  cases ht : e.type with
  | button =>
    dsimp only
    by_cases htog : e.isToggleSwitch = true
    · rw [if_pos htog]
      by_cases hact : e.toggleActive = true
      · -- the second tap of a toggle releases what the first one pressed
        rw [if_pos hact]
        refine ⟨⟨rfl, rfl, rfl, rfl, rfl, rfl⟩, ?_⟩
        rw [events_sendAllBindings]
        exact Explains.release fun k hk => Or.inl (mem_of_holds_button ht hk)
      · rw [if_neg hact]
        refine ⟨⟨rfl, rfl, rfl, rfl, rfl, rfl⟩, ?_⟩
        rw [events_sendAllBindings]
        refine Explains.press (fun k hk => ?_) (fun k hk => ?_)
        · exact (holds_toggle (by exact ht) (by exact htog) k).2 ⟨rfl, hk⟩
        · exact absurd ((holds_toggle ht htog k).1 hk).1 hact
    · rw [if_neg htog]
      refine ⟨⟨rfl, rfl, rfl, rfl, rfl, rfl⟩, ?_⟩
      rw [events_sendAllBindings]
      have hpid : (pid : ℤ) ≠ -1 := by omega
      refine Explains.press (fun k hk => ?_) (fun k hk => ?_)
      · exact (holds_plain (by exact ht) (by exact htog) k).2 ⟨hpid, hk⟩
      · exact absurd hfree ((holds_plain ht htog k).1 hk).1
  | rangeButton =>
    have hnot : ∀ k, ¬ e.Holds k := hrest hfree (by simp [IsToggle, ht])
    exact handles_grab ⟨rfl, rfl, rfl, rfl, rfl, rfl⟩ ht hnot rfl
      (explains_scrollerDown H e (e.scroller.getD {}) px py)
  | trackpad | stick | dPad =>
    refine handles_touchPad H ?_ ?_ ?_ ?_ pid px py
    · exact ⟨rfl, rfl, rfl, rfl, rfl, rfl⟩
    · rfl
    · rw [ht]; decide
    · rw [ht]; decide

theorem currentPointerId_capture (H : Host) (e : Element) (pid : ℕ) (px py : ℚ) :
    (e.capture H pid px py).1.currentPointerId = pid := by
  unfold capture
  cases e.type with
  | button =>
    dsimp only
    split_ifs <;> rfl
  | rangeButton => rfl
  | trackpad | stick | dPad => exact currentPointerId_handleTouchMove H _ pid px py

/-- The cases of `handleTouchDown`: the element is not touched, or it captures the pointer. -/
theorem handleTouchDown_cases (H : Host) (e : Element) (pid : ℕ) (px py : ℚ) :
    (∃ e', e.handleTouchDown H pid px py = (false, e', []) ∧
      (e' = e ∨ e' = e.cacheBoundingBox H.snappingSize)) ∨
    (e.currentPointerId = -1 ∧
      e.handleTouchDown H pid px py =
        (true, (e.cacheBoundingBox H.snappingSize).capture H pid px py)) := by
  unfold handleTouchDown
  by_cases hf : e.currentPointerId = -1
  · by_cases hc : e.containsPoint H.snappingSize px py = true
    · exact Or.inr ⟨hf, by rw [if_pos hf, if_pos hc]⟩
    · exact Or.inl ⟨_, by rw [if_pos hf, if_neg hc], Or.inr rfl⟩
  · exact Or.inl ⟨e, by rw [if_neg hf], Or.inl rfl⟩

theorem handles_handleTouchDown (H : Host) {e : Element} (hrest : e.AtRest) (pid : ℕ)
    (px py : ℚ) : Handles e (e.handleTouchDown H pid px py).2 := by
  rcases handleTouchDown_cases H e pid px py with ⟨e', he, rfl | rfl⟩ | ⟨hf, he⟩
  · rw [he]
    exact Handles.refl _
  · rw [he]
    exact ⟨⟨rfl, rfl, rfl, rfl, rfl, rfl⟩, Explains.of_imp fun _ hk => hk⟩
  · rw [he]
    have h : Handles (e.cacheBoundingBox H.snappingSize)
        ((e.cacheBoundingBox H.snappingSize).capture H pid px py) :=
      handles_capture H (e := e.cacheBoundingBox H.snappingSize) hrest hf pid px py
    exact h.trans_frame ⟨rfl, rfl, rfl, rfl, rfl, rfl⟩ fun _ hk => hk

/-- A handler that lets everything go. -/
structure Releases (e : Element) (r : Element × List Output) : Prop extends Handles e r where
  released : ∀ k, ¬ r.1.Holds k

section

variable (H : Host) {e e' : Element}

theorem releases_button (same : SameControl e e') (ht : e.type = .button)
    (hout : ∀ k, ¬ e'.Holds k) : Releases e (e', e.sendAllBindings H false) := by
  refine ⟨⟨same, ?_⟩, hout⟩
  rw [events_sendAllBindings]
  exact Explains.release fun k hk => Or.inl (mem_of_holds_button ht hk)

theorem releases_pad (same : SameControl e e') (hb : e.type ≠ .button)
    (hr : e.type ≠ .rangeButton) (hst : e'.states = fun _ => false) :
    Releases e (e', releaseStates H e.bindings e.states) := by
  refine ⟨handles_pad same hb hr ?_, fun k hk => ?_⟩
  · exact (explains_releaseStates H e.bindings e.states).mono fun k => False.elim
  · rw [holds_pad (by rwa [same.type]) (by rwa [same.type]), hst] at hk
    exact not_padHolds_false _ k hk

theorem not_holds_of_scroller_none (ht : e.type = .rangeButton) (hs : e.scroller = none)
    (k : Signal) : ¬ e.Holds k := by
  rw [holds_range ht]
  rintro ⟨s, hs', -⟩
  exact Option.some_ne_none s (hs'.symm.trans hs)

theorem not_holds_of_index_neg (ht : e.type = .rangeButton) {s : RangeScroller}
    (hs : e.scroller = some s) (hi : s.lastActivatedIndex < 0) (k : Signal) : ¬ e.Holds k := by
  rw [holds_scroller ht hs]
  rintro ⟨h0, -⟩
  omega

end

/-- The pointer leaves an element that is no toggle: everything is let go. -/
theorem releases_handleTouchUp (H : Host) {e : Element} {pid : ℕ}
    (hp : (pid : ℤ) = e.currentPointerId) (hn : ¬ e.IsToggle) :
    Releases e (e.handleTouchUp H pid) := by
  unfold handleTouchUp
  rw [if_pos hp]
  cases ht : e.type with
  | button =>
    have htog : ¬ e.isToggleSwitch = true := fun h => hn ⟨ht, h⟩
    dsimp only
    rw [if_neg htog]
    refine releases_button H ⟨rfl, rfl, rfl, rfl, rfl, rfl⟩ ht fun k hk => ?_
    rw [holds_plain (by exact ht) (by exact htog)] at hk
    exact hk.1 rfl
  | rangeButton =>
    -- a range button holds the key of its scroller, and none without one
    cases hs : e.scroller with
    | none =>
      refine ⟨⟨⟨rfl, rfl, rfl, rfl, rfl, rfl⟩, ?_⟩, not_holds_of_scroller_none ht hs⟩
      refine (explains_releaseStates_refl H e.bindings e.states e.Holds).mono fun k hk => ?_
      exact absurd hk (not_holds_of_scroller_none ht hs k)
    | some s =>
      refine ⟨⟨⟨rfl, rfl, rfl, rfl, rfl, rfl⟩, ?_⟩,
        not_holds_of_index_neg ht rfl (lastActivatedIndex_scrollerUp H e s)⟩
      rw [events_append]
      refine (explains_releaseStates_refl H e.bindings e.states e.Holds).trans ?_
      rw [holds_scroller ht hs]
      exact (explains_scrollerUp H e s).mono fun k => False.elim
  | dPad | stick | trackpad =>
    exact releases_pad H ⟨rfl, rfl, rfl, rfl, rfl, rfl⟩ (by simp [ht]) (by simp [ht]) rfl

/-- `handleTouchUp` answers for what it sends. -/
theorem handles_handleTouchUp (H : Host) (e : Element) (pid : ℕ) :
    Handles e (e.handleTouchUp H pid) := by
  by_cases hp : (pid : ℤ) = e.currentPointerId
  · by_cases hn : e.IsToggle
    · obtain ⟨ht, htog⟩ := hn
      have hup : e.handleTouchUp H pid = (e.withPointer (-1), []) := by
        simp only [handleTouchUp, if_pos hp, ht, if_pos htog]
      rw [hup]
      refine ⟨⟨rfl, rfl, rfl, rfl, rfl, rfl⟩, Explains.of_imp fun k hk => ?_⟩
      exact (holds_toggle (by exact ht) (by exact htog) k).2 ((holds_toggle ht htog k).1 hk)
    · exact (releases_handleTouchUp H hp hn).toHandles
  · rw [handleTouchUp, if_neg hp]
    exact Handles.refl e

theorem currentPointerId_handleTouchUp (H : Host) (e : Element) (pid : ℕ) :
    (e.handleTouchUp H pid).1.currentPointerId =
      if (pid : ℤ) = e.currentPointerId then -1 else e.currentPointerId := by
  unfold handleTouchUp
  by_cases hp : (pid : ℤ) = e.currentPointerId
  · rw [if_pos hp, if_pos hp]
    cases e.type with
    | button =>
      dsimp only
      split_ifs <;> rfl
    | rangeButton => cases e.scroller <;> rfl
    | dPad | stick | trackpad => rfl
  · rw [if_neg hp, if_neg hp]

/-- After `forceRelease` the element holds nothing, and no pointer. -/
theorem released_forceRelease (H : Host) (e : Element) :
    SameControl e (e.forceRelease H).1 ∧ (e.forceRelease H).1.currentPointerId = -1 ∧
      ∀ k, ¬ (e.forceRelease H).1.Holds k := by
  unfold forceRelease
  cases ht : e.type with
  | button =>
    dsimp only
    split_ifs with htog hact
    · refine ⟨⟨rfl, rfl, rfl, rfl, rfl, rfl⟩, rfl, fun k hk => ?_⟩
      rw [holds_toggle (by exact ht) (by exact htog)] at hk
      exact Bool.false_ne_true hk.1
    · refine ⟨⟨rfl, rfl, rfl, rfl, rfl, rfl⟩, rfl, fun k hk => ?_⟩
      rw [holds_toggle (by exact ht) (by exact htog)] at hk
      exact hact hk.1
    · refine ⟨⟨rfl, rfl, rfl, rfl, rfl, rfl⟩, rfl, fun k hk => ?_⟩
      rw [holds_plain (by exact ht) (by exact htog)] at hk
      exact hk.1 rfl
  | rangeButton =>
    exact ⟨⟨rfl, rfl, rfl, rfl, rfl, rfl⟩, rfl, not_holds_of_scroller_none ht rfl⟩
  | dPad | stick | trackpad =>
    have h : Releases e ({ e.cleared with states := fun _ => false },
        releaseStates H e.bindings e.states) :=
      releases_pad H ⟨rfl, rfl, rfl, rfl, rfl, rfl⟩ (by simp [ht]) (by simp [ht]) rfl
    exact ⟨h.same, rfl, h.released⟩

/-- `forceRelease` releases what the element holds, the active key of a range button apart. -/
theorem handles_forceRelease (H : Host) {e : Element} (hr : ¬ e.RangeActive) :
    Handles e (e.forceRelease H) := by
  suffices h : Explains e.Holds (fun _ => False) (events (e.forceRelease H).2) from
    ⟨(released_forceRelease H e).1, h.mono fun k => False.elim⟩
  unfold forceRelease
  cases ht : e.type with
  | button =>
    dsimp only
    split_ifs with htog hact
    · rw [events_sendAllBindings]
      exact Explains.release fun k hk => Or.inl (mem_of_holds_button ht hk)
    · exact Explains.of_imp fun k hk => hact ((holds_toggle ht htog k).1 hk).1
    · rw [events_sendAllBindings]
      exact Explains.release fun k hk => Or.inl (mem_of_holds_button ht hk)
  | rangeButton =>
    refine (explains_releaseStates_refl H e.bindings e.states e.Holds).mono fun k hk => ?_
    obtain ⟨s, hs, hk⟩ := (holds_range ht k).1 hk
    exact hr ⟨ht, s, hs, hk.1⟩
  | dPad | stick | trackpad =>
    rw [holds_pad (by simp [ht]) (by simp [ht])]
    exact explains_releaseStates H e.bindings e.states

/-! ### Elements at rest -/

theorem atRest_of_pointer {e : Element} {pid : ℕ} (h : e.currentPointerId = pid) :
    e.AtRest := by
  intro h'
  omega

theorem atRest_handleTouchMove (H : Host) {e : Element} (h : e.AtRest) (pid : ℕ) (px py : ℚ) :
    (e.handleTouchMove H pid px py).1.AtRest := by
  by_cases hp : (pid : ℤ) = e.currentPointerId
  · exact atRest_of_pointer ((currentPointerId_handleTouchMove H e pid px py).trans hp.symm)
  · rw [handleTouchMove, if_neg hp]
    exact h

theorem atRest_handleTouchDown (H : Host) {e : Element} (h : e.AtRest) (pid : ℕ) (px py : ℚ) :
    (e.handleTouchDown H pid px py).2.1.AtRest := by
  rcases handleTouchDown_cases H e pid px py with ⟨e', he, rfl | rfl⟩ | ⟨-, he⟩
  · rw [he]
    exact h
  · rw [he]
    exact h
  · rw [he]
    exact atRest_of_pointer (currentPointerId_capture H _ pid px py)

theorem atRest_handleTouchUp (H : Host) {e : Element} (h : e.AtRest) (pid : ℕ) :
    (e.handleTouchUp H pid).1.AtRest := by
  by_cases hp : (pid : ℤ) = e.currentPointerId
  · intro _ hn
    rw [(handles_handleTouchUp H e pid).same.isToggle] at hn
    exact (releases_handleTouchUp H hp hn).released
  · rw [handleTouchUp, if_neg hp]
    exact h

/-! ### Flings -/

theorem lastActivatedIndex_flingRunnable (s : RangeScroller) :
    s.flingRunnable.lastActivatedIndex = s.lastActivatedIndex := by
  unfold RangeScroller.flingRunnable
  dsimp only
  split_ifs <;> rfl

theorem holds_runFling (e : Element) : e.runFling.Holds = e.Holds := by
  by_cases ht : e.type = .rangeButton
  · cases hs : e.scroller with
    | none =>
      have hs' : e.runFling.scroller = none := by simp [runFling, hs]
      funext k
      rw [eq_iff_iff]
      exact iff_of_false (not_holds_of_scroller_none (by exact ht) hs' k)
        (not_holds_of_scroller_none ht hs k)
    | some s =>
      have hs' : e.runFling.scroller = some (if 0 < s.pending then s.flingRunnable else s) := by
        simp [runFling, hs]
      rw [holds_scroller ht hs, holds_scroller (by exact ht) hs']
      split_ifs
      · rw [lastActivatedIndex_flingRunnable]
        rfl
      · rfl
  · by_cases hb : e.type = .button
    · funext k
      simp only [Holds, runFling, hb]
    · rw [holds_pad hb ht, holds_pad (by exact hb) (by exact ht)]
      rfl

theorem atRest_runFling {e : Element} (h : e.AtRest) : e.runFling.AtRest := by
  intro hp hn k
  rw [holds_runFling]
  exact h hp hn k

end Element

end TermuxX11.VirtualKeys
