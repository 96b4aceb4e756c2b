import TermuxX11.VirtualKeys.Gesture

/-!
# `releaseAllKeys`

`forceRelease` reaches the pointer, the toggle and the directions of an element.  It drops
the scroller of a `RANGE_BUTTON` without asking it to release its key, and `releaseAllKeys`
touches neither the buttons the view holds nor the posted hold detector.  Where none of the
three is there, everything is released and nothing that is still in the queue presses
anything.
-/

namespace TermuxX11.VirtualKeys

open Ledger Run

namespace View

/-- `releaseAllKeys`, with its calls delivered. -/
def stepReleaseAllKeys (P : Platform) (v : View) : Option View :=
  (v.releaseAllKeys P).map v.deliver

/-- What the input sender has seen of presses and releases, whoever made the call. -/
def received (v : View) : List (Signal × Bool) := events (v.sent.map Prod.snd)

/-- The posted hold detector would press a button. -/
def HoldArmed (v : View) : Prop :=
  v.holdDetectorPosted = true ∧ v.inputSender = true ∧
    (v.freePointerCount = 1 ∨ (2 ≤ v.freePointerCount ∧ v.twoFingerScrollActive = false))

/-- The view holds no button, and will not press one before the next touch. -/
structure Calm (v : View) : Prop where
  leftButtonHeld : v.leftButtonHeld = false
  rightButtonHeld : v.rightButtonHeld = false
  holdDetector : ¬ v.HoldArmed

/-- Nothing is held that `releaseAllKeys` does not reach. -/
structure NothingElseHeld (v : View) : Prop extends Calm v where
  scroller : v.inputSender = true → ∀ e ∈ v.elements, ¬ e.RangeActive

end View

/-- A callback that may still be in the queue when no finger is down. -/
def Callback.IsPending : Callback → Prop
  | .touch _ _ => False
  | _ => True

theorem received_eq (cs : Calls) :
    events (cs.map Prod.snd) = (Calls.events cs).map fun ev => (ev.1.2, ev.2) := by
  induction cs with
  | nil => rfl
  | cons c cs ih =>
    have hcons : Calls.events (c :: cs) = Calls.events [c] ++ Calls.events cs :=
      Calls.events_append [c] cs
    rw [hcons, List.map_append, ← ih, List.map_cons]
    obtain ⟨s, o⟩ := c
    cases o <;> rfl

namespace View

theorem forceReleaseElements_total (H : Host) {es : List Element}
    (h : ∀ e ∈ es, e.view = true) : ∃ r, forceReleaseElements H es = some r := by
  induction es with
  | nil => exact ⟨_, rfl⟩
  | cons e es ih =>
    rw [List.forall_mem_cons] at h
    obtain ⟨s, hs⟩ := ih h.2
    have hview : ¬ (e.view = false ∧ e.forceReleaseCallsView = true) := by simp [h.1]
    simp only [forceReleaseElements, if_neg hview, hs]
    exact ⟨_, rfl⟩

/-- The elements' part of `releaseAllKeys`: afterwards the view answers for its buttons only. -/
theorem explains_releaseAllKeys {P : Platform} {v : View} {r : View × Calls}
    (hr : v.releaseAllKeys P = some r) (hact : ∀ e ∈ v.elements, ¬ e.RangeActive) :
    Explains v.Holds (ButtonsHold v.leftButtonHeld v.rightButtonHeld) (Calls.events r.2) := by
  obtain ⟨s, hs, rfl⟩ := Option.map_eq_some_iff.1 hr
  obtain ⟨-, hnot, hx⟩ := forceReleaseElements_spec _ hs
  refine ((hx hact).frame _).mono fun k hk => ?_
  rcases hk with ⟨e, he, -, hk⟩ | hk
  · exact absurd hk (hnot e he k.2)
  · exact hk

/-! ### Callbacks without a touch -/

theorem Calm.withElements {v : View} (h : Calm v) (es : List Element) :
    Calm (v.withElements es) := ⟨h.leftButtonHeld, h.rightButtonHeld, h.holdDetector⟩

theorem Calm.deliver {v : View} {r : View × Calls} (h : Calm r.1) : Calm (v.deliver r) :=
  ⟨h.leftButtonHeld, h.rightButtonHeld, h.holdDetector⟩

theorem runHoldDetector_calm {v : View} (h : Calm v) (P : Platform) :
    (v.runHoldDetector P).2 = [] ∧ Calm (v.runHoldDetector P).1 := by
  unfold runHoldDetector
  dsimp only
  split_ifs with hposted hon hright hleft
  · simp only [Bool.and_eq_true] at hon
    exact absurd ⟨hposted, hon.2, Or.inr ⟨hright.1, hright.2.1⟩⟩ h.holdDetector
  · simp only [Bool.and_eq_true] at hon
    exact absurd ⟨hposted, hon.2, Or.inl hleft.1⟩ h.holdDetector
  · exact ⟨rfl, h.leftButtonHeld, h.rightButtonHeld, fun ha => Bool.false_ne_true ha.1⟩
  · exact ⟨rfl, h.leftButtonHeld, h.rightButtonHeld, fun ha => Bool.false_ne_true ha.1⟩
  · exact ⟨rfl, h⟩

/-- A callback that needs no touch sends nothing. -/
theorem step_calm {v : View} {c : Callback} (h : Calm v) (hc : c.IsPending) :
    ∃ v', v.step c = some v' ∧ Calm v' ∧ v'.sent = v.sent := by
  cases c with
  | touch P ev => exact hc.elim
  | holdDetector P =>
    obtain ⟨hout, hcalm⟩ := runHoldDetector_calm h P
    refine ⟨v.deliver (v.runHoldDetector P), rfl, hcalm.deliver, ?_⟩
    simp [deliver, hout]
  | fling ref =>
    exact ⟨v.deliver (v.runFling ref, []), rfl, (h.withElements _).deliver, by simp [deliver]⟩

theorem tryExec_calm {v : View} (h : Calm v) {cs : List Callback}
    (hcs : ∀ c ∈ cs, c.IsPending) :
    ∃ v', tryExec step v cs = some v' ∧ v'.sent = v.sent := by
  induction cs generalizing v with
  | nil => exact ⟨v, rfl, rfl⟩
  | cons c cs ih =>
    rw [List.forall_mem_cons] at hcs
    obtain ⟨u, hu, hcalm, hsent⟩ := step_calm h hcs.1
    obtain ⟨v', hv', hsent'⟩ := ih hcalm hcs.2
    exact ⟨v', by rw [tryExec, hu]; exact hv', hsent'.trans hsent⟩

/-! ### Runs -/

/-- What callbacks preserve. -/
structure Accountable (v : View) : Prop where
  kept : v.Kept
  attached : ∀ e ∈ v.elements, e.view = true

theorem Start.accountable {v : View} (h : v.Start) : Accountable v := ⟨h.kept, h.attached⟩

theorem Accountable.step {v v' : View} {c : Callback} (h : Accountable v)
    (hs : v.step c = some v') : Accountable v' :=
  ⟨h.kept.step hs, (sameControls_step h.kept hs).view h.attached⟩

/-- **`releaseAllKeys` releases everything that it reaches**: after any run of callbacks that
leaves nothing else held, it returns, no key or button is down at the input sender
afterwards, and no callback sends anything before the next touch. -/
theorem releaseAllKeys_releases {v₀ v : View} (hstart : v₀.Start) {cs : List Callback}
    (hrun : tryExec step v₀ cs = some v) (hv : v.NothingElseHeld) (P : Platform) :
    ∃ v', v.stepReleaseAllKeys P = some v' ∧ (∀ k, ¬ Down v'.received k) ∧
      ∀ cs' : List Callback, (∀ c ∈ cs', c.IsPending) →
        ∃ v'', tryExec step v' cs' = some v'' ∧ v''.sent = v'.sent := by
  have hacc : Accountable v := tryExec_invariant (fun _ _ _ h _ hs => h.step hs)
    hstart.accountable (tryAlways_true v₀ cs) hrun
  obtain ⟨s, hs⟩ := forceReleaseElements_total (v.host P) hacc.attached
  have hr : v.releaseAllKeys P = some (v.withElements s.1, s.2) := by
    rw [releaseAllKeys, hs]
    rfl
  refine ⟨v.deliver (v.withElements s.1, s.2), by rw [stepReleaseAllKeys, hr]; rfl, ?_, ?_⟩
  · intro k hk
    rw [received, received_eq] at hk
    obtain ⟨i, hi⟩ := down_of_down_map hk
    have hcovered : ButtonsHold v.leftButtonHeld v.rightButtonHeld (i, k) := by
      cases hin : v.inputSender with
      | false =>
        simp [deliver, hin, hacc.kept.silent hin, Down] at hi
      | true =>
        have hx := explains_releaseAllKeys hr (hv.scroller hin)
        simp only [deliver, hin, if_true, Calls.events_append] at hi
        exact hx.covers hacc.kept.covered _ hi
    rw [hv.leftButtonHeld, hv.rightButtonHeld] at hcovered
    rcases hcovered with ⟨h, -⟩ | ⟨h, -⟩ <;> cases h
  · intro cs' hcs'
    exact tryExec_calm (hv.toCalm.withElements s.1).deliver hcs'

/-- A button is down when `releaseAllKeys` is called. -/
theorem releaseAllKeys_releases_pressA :
    ∃ v v', tryExec step Gesture.twoButtons
        [.touch Gesture.idlePlatform ⟨.down, [Gesture.fingerA], 0, by decide⟩] = some v ∧
      v.stepReleaseAllKeys Gesture.idlePlatform = some v' ∧ ∀ k, ¬ Down v'.received k := by
  have hrun : (tryExec step Gesture.twoButtons
      [.touch Gesture.idlePlatform ⟨.down, [Gesture.fingerA], 0, by decide⟩]).map (fun v =>
        (v.leftButtonHeld, v.rightButtonHeld, v.holdDetectorPosted,
          v.elements.map Element.type)) =
      some (false, false, false, [.button, .button]) := by
    decide +kernel
  obtain ⟨v, hv, hfields⟩ := Option.map_eq_some_iff.1 hrun
  simp only [Prod.mk.injEq] at hfields
  obtain ⟨hleft, hright, hposted, htypes⟩ := hfields
  have hheld : v.NothingElseHeld := by
    refine ⟨⟨hleft, hright, fun h => ?_⟩, ?_⟩
    · rw [HoldArmed, hposted] at h
      cases h.1
    · rintro - e he ⟨ht, -⟩
      have hmem := List.mem_map_of_mem (f := Element.type) he
      rw [htypes, ht] at hmem
      revert hmem
      decide
  obtain ⟨v', hv', hup, -⟩ :=
    releaseAllKeys_releases Gesture.start_twoButtons hv hheld Gesture.idlePlatform
  exact ⟨v, v', hv, hv', hup⟩

/-! ### A range button that is being touched -/

/-- A view with one range button for the letters. -/
def rangeView : View :=
  { size := ⟨1000, 1000⟩
    inputSender := true
    profile := some
      { name := "p", elementsLoaded := true,
        elements := [{ view := true, type := .rangeButton, range := some .fromAToZ,
                       x := 200, y := 100 }] } }

theorem start_rangeView : rangeView.Start := by
  refine ⟨?_, by decide, by decide, rfl⟩
  simp only [rangeView, View.elements, Option.map_some, Option.getD_some, List.forall_mem_cons]
  refine ⟨⟨rfl, fun _ => rfl, ?_⟩, by simp⟩
  rintro ⟨-, s, hs, -⟩
  cases hs

/-- A finger goes down on the range button. -/
def touchRange : Callback :=
  .touch Gesture.idlePlatform ⟨.down, [⟨0, 200, 100⟩], 0, by decide⟩

/-- The key of the range button stays down. -/
theorem releaseAllKeys_leaves_key_down :
    rangeView.Start ∧ ∃ v v', tryExec step rangeView [touchRange] = some v ∧
      v.stepReleaseAllKeys Gesture.idlePlatform = some v' ∧ Down v'.received (.key .keyC) := by
  have hrun : ((tryExec step rangeView [touchRange]).bind
      (stepReleaseAllKeys Gesture.idlePlatform)).map received = some [(.key .keyC, true)] := by
    decide +kernel
  obtain ⟨v', hv', hreceived⟩ := Option.map_eq_some_iff.1 hrun
  obtain ⟨v, hv, hv'⟩ := Option.bind_eq_some_iff.1 hv'
  refine ⟨start_rangeView, v, v', hv, hv', ?_⟩
  rw [hreceived]
  decide

end View

end TermuxX11.VirtualKeys
