import TermuxX11.VirtualKeys.Clicks

/-!
# Two fingers

Two free pointers are meant to scroll: `ACTION_MOVE` adds the displacement of their centre to the
accumulators and sends what has come together.  But as long as `twoFingerScrollActive` is `false`
the same event first moves the old centre on and empties the accumulators, and only a scroll sets
the flag.  So nothing is ever scrolled (`scrolled_exec`), and the motion is conserved exactly when
there is none (`scroll_conserved_iff`).
-/

namespace TermuxX11.VirtualKeys

open Ledger Run

/-- The scrolls of the view, summed up on both axes. -/
def Calls.scrolled (cs : Calls) : ℚ × ℚ :=
  ((Calls.own cs).map fun c =>
    match c.2 with
    | .onScroll dx dy => (dx, dy)
    | _ => 0).sum

theorem Calls.scrolled_append (cs cs' : Calls) :
    Calls.scrolled (cs ++ cs') = Calls.scrolled cs + Calls.scrolled cs' := by
  rw [Calls.scrolled, Calls.own_append, List.map_append, List.sum_append]
  rfl

/-- The view scrolls along an axis. -/
def Calls.ScrollsAlong (axis : ℚ × ℚ → ℚ) (cs : Calls) : Prop :=
  ∃ dx dy, (Source.view, Output.onScroll dx dy) ∈ cs ∧ axis (dx, dy) ≠ 0

theorem scrolled_eq_zero {cs : Calls} (h : ∀ c ∈ Calls.own cs, ∀ dx dy, c.2 ≠ .onScroll dx dy) :
    Calls.scrolled cs = 0 := by
  refine List.sum_eq_zero fun d hd => ?_
  obtain ⟨c, hc, rfl⟩ := List.mem_map.1 hd
  have hno := h c hc
  obtain ⟨s, o⟩ := c
  cases o with
  | onScroll dx dy => exact absurd rfl (hno dx dy)
  | onKeyEvent b d => rfl
  | onPointerButton n d => rfl
  | onPointerMove dx dy => rfl

namespace View

/-- The end of a gesture sends buttons. -/
theorem button_of_allPointersReleased (P : Platform) (v : View) :
    ∀ c ∈ (v.allPointersReleased P).2, ∃ n d, c.2 = .onPointerButton n d := by
  intro c hc
  simp only [allPointersReleased, List.mem_append] at hc
  rcases hc with (hc | hc) | hc
  · split_ifs at hc
    · exact ⟨1, false, by rw [List.mem_singleton.1 hc]⟩
    · cases hc
  · split_ifs at hc
    · exact ⟨3, false, by rw [List.mem_singleton.1 hc]⟩
    · cases hc
  · split_ifs at hc
    · rcases List.mem_pair.1 hc with rfl | rfl
      · exact ⟨1, true, rfl⟩
      · exact ⟨1, false, rfl⟩
    · rcases List.mem_pair.1 hc with rfl | rfl
      · exact ⟨3, true, rfl⟩
      · exact ⟨3, false, rfl⟩
    · cases hc
    · cases hc

/-- **No callback scrolls** while `twoFingerScrollActive` is `false` and the accumulators are
empty. -/
theorem scrolled_run {v : View} {c : Callback} {r : View × Calls}
    (h : v.twoFingerScrollActive = false ∧ v.scrollAccumulatorX = 0 ∧ v.scrollAccumulatorY = 0)
    (hr : c.run v = some r) : r.2.scrolled = 0 := by
  cases c with
  | fling ref =>
    obtain rfl := Option.some.inj hr
    rfl
  | holdDetector P =>
    obtain rfl := Option.some.inj hr
    refine scrolled_eq_zero fun c hc dx dy => ?_
    obtain ⟨n, rfl⟩ := runHoldDetector_snd P v c (List.mem_of_mem_filter hc)
    simp
  | touch P ev =>
    have hr : v.onTouchEvent P ev = some r := hr
    by_cases hplay : v.Playing
    · rcases onTouchEvent_cases hplay hr with ⟨-, hr⟩ | ⟨-, rfl⟩ | ⟨-, rfl⟩
      · obtain ⟨-, -, hown, -⟩ := Gesture.touchDown_eq hr
        rw [Calls.scrolled, hown]
        rfl
      · obtain ⟨-, -, -, hcalls⟩ := moveFreePointers_still P ev (v := v.withElements
          (touchMoveElements (v.host P) ev.pointers v.elements).1) h
        refine scrolled_eq_zero fun c hc dx dy => ?_
        rw [own_touchMove] at hc
        obtain ⟨dx', dy', rfl⟩ := hcalls c hc
        simp
      · refine scrolled_eq_zero fun c hc dx dy => ?_
        rw [own_touchUp] at hc
        split_ifs at hc
        · obtain ⟨n, d, hn⟩ := button_of_allPointersReleased P _ c hc
          rw [hn]
          simp
        · cases hc
    · rw [(sameFingers_onTouchEvent hplay hr).2]
      rfl

end View

namespace Gesture

variable {v : View} {g : Gesture} {cs : List Callback}

/-- `scrollAccumulatorX` and `scrollAccumulatorY`. -/
def accumulated (g : Gesture) : ℚ × ℚ := (g.view.scrollAccumulatorX, g.view.scrollAccumulatorY)

theorem Tracked.accumulated (h : g.Tracked) : g.accumulated = 0 :=
  Prod.ext h.tracks.still.2.1 h.tracks.still.2.2

theorem scrolled_step {g' : Gesture} {c : Callback} (h : g.Tracked) (hs : g.step c = some g') :
    g'.view.sent.scrolled = g.view.sent.scrolled := by
  obtain ⟨r, hr, rfl⟩ := step_eq hs
  show Calls.scrolled (g.view.sent ++ if g.view.inputSender then r.2 else []) = _
  rw [Calls.scrolled_append]
  split_ifs
  · rw [View.scrolled_run h.tracks.still hr, add_zero]
  · exact add_zero _

/-- **Nothing is ever scrolled.** -/
theorem scrolled_exec {g' : Gesture} (h : g.Tracked) (hwf : TryAlways step WellFormed g cs)
    (hrun : tryExec step g cs = some g') : g'.view.sent.scrolled = g.view.sent.scrolled :=
  (tryExec_invariant
    (I := fun t => t.Tracked ∧ t.view.sent.scrolled = g.view.sent.scrolled)
    (fun _ _ _ ht hc hs => ⟨ht.1.step hc hs, (scrolled_step ht.1 hs).trans ht.2⟩)
    ⟨h, rfl⟩ hwf hrun).2

/-- The event has brought a second free pointer down. -/
structure SecondDown (ev : MotionEvent) (g : Gesture) : Prop where
  down : ev.action = .down ∨ ev.action = .pointerDown
  free : ev.actionPointer.id ∈ g.view.freeIds g.down
  two : (g.view.freeIds g.down).length = 2

/-- The pointers move, with `touchGestures` off and no button held. -/
def Drags (g : Gesture) : Callback → Prop
  | .touch P ev =>
    ev.action = .move ∧ P.touchGestures = false ∧ g.view.leftButtonHeld = false ∧
      g.view.rightButtonHeld = false
  | _ => True

/-- Where the free pointers have their centre in an event. -/
def centre (v : View) : Callback → Option (ℚ × ℚ)
  | .touch _ ev => some (v.computeFreeCenter ev)
  | _ => none

/-- The way of the centre. -/
def centres (v : View) (cs : List Callback) : List (ℚ × ℚ) := cs.filterMap (centre v)

/-- With `q` the displacement from `c` first reaches `SCROLL_THRESHOLD` on an axis. -/
def Reaches (axis : ℚ × ℚ → ℚ) (c : ℚ × ℚ) (qs : List (ℚ × ℚ)) (q : ℚ × ℚ) : Prop :=
  (∀ q' ∈ qs, |axis (q' - c)| < 20) ∧ 20 ≤ |axis (q - c)|

/-- After `cs` the scrolls and the accumulators make up the displacement of the centre from
`c`. -/
def Conserves (g : Gesture) (c : ℚ × ℚ) (cs : List Callback) (t : Gesture) : Prop :=
  t.view.sent.scrolled - g.view.sent.scrolled + t.accumulated =
    (centres g.view cs).getLastD c - c

/-- After `cs` the callback `m` scrolls along the axes on which it first reaches the threshold. -/
def ScrollsAt (g : Gesture) (c : ℚ × ℚ) (cs : List Callback) (m : Callback) (t t' : Gesture) :
    Prop :=
  ∀ q, centre g.view m = some q → ∀ axis ∈ [Prod.fst, Prod.snd],
    Reaches axis c (centres g.view cs) q →
      Calls.ScrollsAlong axis (t'.view.sent.drop t.view.sent.length)

/-- The motion is conserved exactly where the centre is back. -/
theorem conserves_iff {c : ℚ × ℚ} {t : Gesture} (h : g.Tracked)
    (hwf : TryAlways step WellFormed g cs) (hrun : tryExec step g cs = some t) :
    Conserves g c cs t ↔ (centres g.view cs).getLastD c = c := by
  have ht : t.Tracked := tryExec_invariant (fun _ _ _ hg hc hs => hg.step hc hs) h hwf hrun
  rw [Conserves, scrolled_exec h hwf hrun, ht.accumulated, sub_self, add_zero, eq_comm, sub_eq_zero]

/-- **Exactly when two fingers conserve the motion**: if their centre stays where it was when the
second one went down. -/
theorem scroll_conserved_iff (hrest : v.Untouched) {P : Platform} {ev : MotionEvent}
    {ms : List Callback} {g' : Gesture}
    (h : TryAlways step WellFormed { view := v } (cs ++ .touch P ev :: ms))
    (hrun : tryExec step { view := v } (cs ++ [.touch P ev]) = some g) (_hsecond : SecondDown ev g)
    (_hdrags : TryAlways step Drags g ms) (hrun' : tryExec step g ms = some g') :
    ((∀ ms₁ ms₂ t, ms = ms₁ ++ ms₂ → tryExec step g ms₁ = some t →
        Conserves g (g.view.computeFreeCenter ev) ms₁ t) ∧
      ∀ ms₁ m ms₂ t t', ms = ms₁ ++ m :: ms₂ → tryExec step g ms₁ = some t → t.step m = some t' →
        ScrollsAt g (g.view.computeFreeCenter ev) ms₁ m t t') ↔
      ∀ q ∈ centres g.view ms, q = g.view.computeFreeCenter ev := by
  rw [← List.singleton_append, ← List.append_assoc] at h
  obtain ⟨hbefore, hafter⟩ := h.of_append
  have htracked := tracked_exec hrest hbefore hrun
  have hwf := hafter g hrun
  constructor
  · rintro ⟨hconserved, -⟩ q hq
    -- the centre `q` is the last one of some part of the run
    obtain ⟨m, hm, hcentre⟩ := List.mem_filterMap.1 hq
    obtain ⟨ms₁, ms₂, rfl⟩ := List.append_of_mem hm
    rw [← List.singleton_append, ← List.append_assoc] at hwf hrun' hconserved
    obtain ⟨t, ht, -⟩ := Option.bind_eq_some_iff.1 ((tryExec_append _ _ _).symm.trans hrun')
    have hback := (conserves_iff htracked hwf.of_append.1 ht).1 (hconserved _ _ t rfl ht)
    rwa [centres, List.filterMap_append, List.filterMap_cons_some hcentre, List.filterMap_nil,
      List.getLastD_concat] at hback
  · intro hstill
    refine ⟨fun ms₁ ms₂ t heq ht => ?_, fun ms₁ m ms₂ t t' heq ht hs q hq axis haxis hreaches => ?_⟩
    · subst heq
      refine (conserves_iff htracked hwf.of_append.1 ht).2 ?_
      rcases List.eq_nil_or_concat (centres g.view ms₁) with hnil | ⟨qs, q, hqs⟩
      · rw [hnil]
        rfl
      · rw [hqs, List.concat_eq_append, List.getLastD_concat]
        refine hstill q (List.mem_filterMap.2 ?_)
        have hmem : q ∈ centres g.view ms₁ := by
          rw [hqs]
          simp
        obtain ⟨m, hm, hq⟩ := List.mem_filterMap.1 hmem
        exact ⟨m, List.mem_append_left _ hm, hq⟩
    · -- the threshold is not reached
      have hcentre : q = g.view.computeFreeCenter ev := by
        refine hstill q (List.mem_filterMap.2 ⟨m, ?_, hq⟩)
        rw [heq]
        exact List.mem_append_right _ List.mem_cons_self
      have hfar := hreaches.2
      rw [hcentre, sub_self] at hfar
      have hzero : axis 0 = 0 := by
        rcases List.mem_pair.1 haxis with rfl | rfl
        · rfl
        · rfl
      rw [hzero, abs_zero] at hfar
      exact absurd hfar (by norm_num)

/-- A finger goes down. -/
def restC : Callback := .touch idlePlatform ⟨.down, [fingerC], 0, Nat.zero_lt_one⟩

/-- A second one goes down. -/
def downD : MotionEvent := ⟨.pointerDown, [fingerC, fingerD], 1, Nat.one_lt_two⟩

/-- Both move, the one by `c` and the other by `d`. -/
def moveBoth (c d : ℚ × ℚ) : Callback :=
  .touch idlePlatform
    ⟨.move, [⟨0, fingerC.x + c.1, fingerC.y + c.2⟩, ⟨1, fingerD.x + d.1, fingerD.y + d.2⟩], 0,
      Nat.zero_lt_two⟩

theorem secondDown_downD (h : g.view.freeIds g.down = [1, 0]) : SecondDown downD g := by
  refine ⟨Or.inr rfl, ?_, by rw [h]; rfl⟩
  rw [h]
  exact List.mem_cons_self

theorem drags_moveBoth (c d : ℚ × ℚ)
    (h : g.view.leftButtonHeld = false ∧ g.view.rightButtonHeld = false) :
    TryAlways step Drags g [moveBoth c d] :=
  ⟨⟨rfl, rfl, h⟩, fun _ _ => trivial⟩

/-- Two fingers that move down by 30 pixels scroll nothing. -/
theorem no_scroll_moveBoth :
    twoButtons.Untouched ∧
      TryAlways step WellFormed { view := twoButtons }
        ([restC] ++ .touch idlePlatform downD :: [moveBoth (0, 30) (0, 30)]) ∧
      ∃ g g', tryExec step { view := twoButtons } ([restC] ++ [.touch idlePlatform downD]) = some g ∧
        SecondDown downD g ∧ TryAlways step Drags g [moveBoth (0, 30) (0, 30)] ∧
        g.step (moveBoth (0, 30) (0, 30)) = some g' ∧
        ¬ Conserves g (g.view.computeFreeCenter downD) [moveBoth (0, 30) (0, 30)] g' ∧
        ¬ ScrollsAt g (g.view.computeFreeCenter downD) [] (moveBoth (0, 30) (0, 30)) g g' := by
  refine ⟨untouched_twoButtons, by decide +kernel, ?_⟩
  have hstart : (tryExec step { view := twoButtons } ([restC] ++ [.touch idlePlatform downD])).map
      (fun g => ((g.view.freeIds g.down, g.view.leftButtonHeld, g.view.rightButtonHeld),
        (g.view.computeFreeCenter downD, centre g.view (moveBoth (0, 30) (0, 30))))) =
      some (([1, 0], false, false), ((700, 800), some (700, 830))) := by
    decide +kernel
  have hsent : ((tryExec step { view := twoButtons }
      ([restC] ++ [.touch idlePlatform downD])).bind fun g =>
        (g.step (moveBoth (0, 30) (0, 30))).map fun g' =>
          (g.view.sent, g'.view.sent, g'.accumulated)) = some ([], [], 0) := by
    decide +kernel
  obtain ⟨g, hg, hstart⟩ := Option.map_eq_some_iff.1 hstart
  rw [hg, Option.bind_some] at hsent
  obtain ⟨g', hg', hsent⟩ := Option.map_eq_some_iff.1 hsent
  simp only [Prod.mk.injEq] at hstart hsent
  obtain ⟨⟨hfree, hleft, hright⟩, hstart, hcentre⟩ := hstart
  obtain ⟨hsent, hsent', haccumulated⟩ := hsent
  refine ⟨g, g', hg, secondDown_downD hfree, drags_moveBoth _ _ ⟨hleft, hright⟩, hg', ?_, ?_⟩
  · have hcentres : centres g.view [moveBoth (0, 30) (0, 30)] = [(700, 830)] :=
      List.filterMap_cons_some hcentre
    rw [Conserves, hsent, hsent', haccumulated, hstart, hcentres]
    decide +kernel
  · intro hscrolls
    obtain ⟨dx, dy, hmem, -⟩ := hscrolls (700, 830) hcentre Prod.snd (by simp) (by
      rw [hstart]
      exact ⟨by simp [centres], by norm_num⟩)
    rw [hsent', hsent] at hmem
    cases hmem

/-- Two fingers that move apart keep their centre. -/
theorem scroll_conserved_moveBoth :
    ∃ g g', tryExec step { view := twoButtons } ([restC] ++ [.touch idlePlatform downD]) = some g ∧
      g.step (moveBoth (10, 0) (-10, 0)) = some g' ∧
      Conserves g (g.view.computeFreeCenter downD) [moveBoth (10, 0) (-10, 0)] g' := by
  have hrun : ((tryExec step { view := twoButtons }
      ([restC] ++ [.touch idlePlatform downD])).bind fun g =>
        (tryExec step g [moveBoth (10, 0) (-10, 0)]).map fun _ =>
          ((g.view.freeIds g.down, g.view.leftButtonHeld, g.view.rightButtonHeld),
            (g.view.computeFreeCenter downD, centre g.view (moveBoth (10, 0) (-10, 0))))) =
      some (([1, 0], false, false), ((700, 800), some (700, 800))) := by
    decide +kernel
  obtain ⟨g, hg, hrun⟩ := Option.bind_eq_some_iff.1 hrun
  obtain ⟨g', hg', hrun⟩ := Option.map_eq_some_iff.1 hrun
  simp only [Prod.mk.injEq] at hrun
  obtain ⟨⟨hfree, hleft, hright⟩, hstart, hcentre⟩ := hrun
  have hstill : ∀ q ∈ centres g.view [moveBoth (10, 0) (-10, 0)],
      q = g.view.computeFreeCenter downD := by
    intro q hq
    have hcentres : centres g.view [moveBoth (10, 0) (-10, 0)] = [(700, 800)] :=
      List.filterMap_cons_some hcentre
    rw [hcentres] at hq
    rw [List.mem_singleton.1 hq, hstart]
  obtain ⟨t, ht, hnil⟩ := tryExec_cons hg'
  obtain rfl := Option.some.inj hnil
  refine ⟨g, t, hg, ht, ?_⟩
  exact ((scroll_conserved_iff untouched_twoButtons (by decide +kernel) hg
    (secondDown_downD hfree) (drags_moveBoth _ _ ⟨hleft, hright⟩) hg').2 hstill).1 _ [] t
      (List.append_nil _).symm hg'

end Gesture

end TermuxX11.VirtualKeys
