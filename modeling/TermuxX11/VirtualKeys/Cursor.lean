import TermuxX11.VirtualKeys.Clicks

/-!
# The cursor

What a free pointer does by moving.  One of them, that of `mousePointerId`, is on the cursor.  It
is chosen when a pointer goes down and none is on the cursor, and given up when it goes up; no
other pointer that is down takes its place (`on_cursor_iff`).  The motions that it sends are
truncated, and what is dropped is not kept for the next one (`cursor_near_iff`).
-/

namespace TermuxX11.VirtualKeys

open Java Ledger Run

namespace View

variable {v : View} {down : List ℕ} {ev : MotionEvent} {p : Pointer}

/-- The calls for a displacement of the pointer on the cursor. -/
def cursorCalls (P : Platform) (d : ℚ × ℚ) : Calls :=
  if cursorMotion P d.1 d.2 = 0 then []
  else [(.view, .onPointerMove (cursorMotion P d.1 d.2).1 (cursorMotion P d.1 d.2).2)]

theorem cursorMotion_zero (P : Platform) : cursorMotion P 0 0 = 0 := by
  simp [cursorMotion]

/-- The event of one free pointer. -/
theorem freePointers_one {id : ℕ} (hids : ev.ids.Perm down) (hone : v.freeIds down = [id]) :
    ∃ p, v.freePointers ev = [p] ∧ p.id = id := by
  have hperm : (ev.ids.filter fun id => v.pointerOnElement.lookup id = some false).Perm [id] :=
    hone ▸ hids.filter _
  rw [← freePointers_ids, List.perm_singleton] at hperm
  exact List.map_eq_singleton_iff.1 hperm

/-- One free pointer, if it is on the cursor, moves it. -/
theorem moveFreePointers_one (P : Platform) (hone : v.freePointers ev = [p])
    (hmouse : v.mousePointerId = p.id) :
    (v.moveFreePointers P ev).2 = cursorCalls P (p.x - v.mouseLastX, p.y - v.mouseLastY) ∧
      (v.moveFreePointers P ev).1.mouseLastX = p.x ∧
      (v.moveFreePointers P ev).1.mouseLastY = p.y := by
  have hcount : v.countFreePointers ev = { v with freePointerCount := 1 } := by
    simp [countFreePointers, hone]
  have hfind : (({ v with freePointerCount := 1 } : View).freePointers ev).find?
      (fun q => (q.id : ℤ) = v.mousePointerId) = some p := by
    show (v.freePointers ev).find? _ = some p
    rw [hone, List.find?_cons_of_pos (by simp [hmouse])]
  have hmove : v.moveFreePointers P ev =
      ({ v with freePointerCount := 1 } : View).moveOneFinger P ev := by
    simp [moveFreePointers, hcount]
  rw [hmove, moveOneFinger, hfind]
  dsimp only
  refine ⟨?_, rfl, rfl⟩
  rw [cursorCalls]
  by_cases hzero : cursorMotion P (p.x - v.mouseLastX) (p.y - v.mouseLastY) = 0
  · rw [if_pos hzero, hzero, if_neg (by simp)]
  · have hd : p.x - v.mouseLastX ≠ 0 ∨ p.y - v.mouseLastY ≠ 0 := by
      by_contra hnone
      rw [not_or, not_not, not_not] at hnone
      rw [hnone.1, hnone.2] at hzero
      exact hzero (cursorMotion_zero P)
    have hm : (cursorMotion P (p.x - v.mouseLastX) (p.y - v.mouseLastY)).1 ≠ 0 ∨
        (cursorMotion P (p.x - v.mouseLastX) (p.y - v.mouseLastY)).2 ≠ 0 := by
      by_contra hnone
      rw [not_or, not_not, not_not] at hnone
      exact hzero (Prod.ext hnone.1 hnone.2)
    rw [if_neg hzero, if_pos ⟨hd, hm⟩]

end View

/-- The sum of the motions that the view sends. -/
def Calls.moved (cs : Calls) : ℚ × ℚ :=
  ((Calls.own cs).map fun c =>
    match c.2 with
    | .onPointerMove dx dy => ((dx : ℚ), (dy : ℚ))
    | _ => 0).sum

theorem Calls.moved_append (cs cs' : Calls) :
    Calls.moved (cs ++ cs') = Calls.moved cs + Calls.moved cs' := by
  rw [Calls.moved, Calls.own_append, List.map_append, List.sum_append]
  rfl

theorem Calls.moved_own (cs : Calls) : Calls.moved (Calls.own cs) = Calls.moved cs := by
  simp [Calls.moved, Calls.own]

/-- The hold detector moves nothing. -/
theorem moved_runHoldDetector (P : Platform) (v : View) : (v.runHoldDetector P).2.moved = 0 := by
  refine List.sum_eq_zero fun d hd => ?_
  obtain ⟨c, hc, rfl⟩ := List.mem_map.1 hd
  obtain ⟨n, rfl⟩ := View.runHoldDetector_snd P v c (List.mem_of_mem_filter hc)
  rfl

/-- What `(int)` drops of a step. -/
def fraction (d : ℚ × ℚ) : ℚ × ℚ := (d.1 - truncate d.1, d.2 - truncate d.2)

theorem moved_cursorCalls {P : Platform} (h : P.relativeMouse = false) (d : ℚ × ℚ) :
    (View.cursorCalls P d).moved = d - fraction d := by
  have hmotion : View.cursorMotion P d.1 d.2 = (truncate d.1, truncate d.2) := by
    simp [View.cursorMotion, h]
  have hdrop : d - fraction d = ((truncate d.1 : ℚ), (truncate d.2 : ℚ)) := by
    simp [fraction, Prod.ext_iff]
  rw [hdrop, View.cursorCalls, hmotion]
  split_ifs with hzero
  · rw [Prod.ext_iff] at hzero
    simp only [Prod.fst_zero, Prod.snd_zero] at hzero
    rw [hzero.1, hzero.2]
    rfl
  · simp [Calls.moved, Calls.own]

namespace Gesture

variable {v : View} {g : Gesture} {cs : List Callback}

/-! ### The pointer on the cursor -/

/-- The only free pointer is on the cursor, so that its motions move it. -/
structure OnCursor (g : Gesture) (id : ℕ) : Prop where
  pointer : g.view.mousePointerId = id
  moves : ∀ P ev, ev.action = .move → ev.WellFormed g.down → ∀ p ∈ ev.pointers, p.id = id →
    ∃ r, g.view.onTouchEvent P ev = some r ∧
      Calls.own r.2 = View.cursorCalls P (p.x - g.view.mouseLastX, p.y - g.view.mouseLastY) ∧
      r.1.mouseLastX = p.x ∧ r.1.mouseLastY = p.y

/-- A pointer that goes up leaves a single free one only if this one is on the cursor. -/
def KeepsCursor (g : Gesture) : Callback → Prop
  | .touch _ ev =>
    ev.action = .pointerUp → ∀ id : ℕ, (g.view.freeIds g.down).erase ev.actionPointer.id = [id] →
      g.view.mousePointerId = id
  | _ => True

/-- The motions follow from `mousePointerId`. -/
theorem onCursor_of_pointer (h : g.Tracked) {id : ℕ} (hone : g.view.freeIds g.down = [id])
    (hmouse : g.view.mousePointerId = id) : g.OnCursor id := by
  refine ⟨hmouse, fun P ev ha hwf p hp hid => ?_⟩
  simp only [MotionEvent.WellFormed, ha] at hwf
  obtain ⟨q, hq, hqid⟩ := View.freePointers_one hwf hone
  have hmem : id ∈ g.view.freeIds g.down := by
    rw [hone]
    exact List.mem_singleton_self id
  obtain ⟨hdown, hlookup⟩ := View.mem_freeIds.1 hmem
  have hplay : g.view.Playing := ((h.tracks.entries id).1 (by rw [hlookup]; rfl)).1
  -- the pointer of the event is the free one
  have hpq : p = q := by
    have hfree : p ∈ g.view.freePointers ev :=
      List.mem_filter.2 ⟨hp, decide_eq_true (by rw [hid, hlookup])⟩
    rw [hq] at hfree
    exact List.mem_singleton.1 hfree
  subst hpq
  have hw : (g.view.withElements (touchMoveElements (g.view.host P) ev.pointers
      g.view.elements).1).freePointers ev = [p] := hq
  obtain ⟨hcalls, hX, hY⟩ := View.moveFreePointers_one P hw (hmouse.trans (by rw [hid]))
  refine ⟨g.view.touchMove P ev, ?_, ?_, hX, hY⟩
  · simp only [View.onTouchEvent_playing hplay, ha]
  · rw [View.own_touchMove, hcalls]
    rfl

/-- A single free pointer is the one on the cursor. -/
def Follows (down : List ℕ) (v : View) : Prop :=
  ∀ id : ℕ, v.freeIds down = [id] → v.mousePointerId = id

/-- A free pointer that goes down and is then the only one finds none on the cursor. -/
theorem alone_of_down {down : List ℕ} {ev : MotionEvent} {id : ℕ} (h : v.Tracks down)
    (es : List Element) (hnew : ev.actionPointer.id ∉ down) (P : Platform)
    (hone : (((v.withElements es).enter ev.actionPointer.id false).freePointerDown P ev).freeIds
      (ev.actionPointer.id :: down) = [id]) :
    ev.actionPointer.id = id ∧ v.mousePointerId = -1 := by
  have hcons : ev.actionPointer.id :: v.freeIds down = [id] :=
    (View.freeIds_freePointerDown hnew P (v.withElements es)).symm.trans hone
  obtain ⟨hid, hnil⟩ := List.cons.inj hcons
  exact ⟨hid, h.mouse_of_nil hnil⟩

/-- A touch keeps the single free pointer on the cursor exactly if it meets the condition. -/
theorem follows_touch {P : Platform} {ev : MotionEvent} {r : View × Calls} (h : g.Tracked)
    (hfollows : Follows g.down g.view) (hwf : ev.WellFormed g.down)
    (hr : g.view.onTouchEvent P ev = some r) :
    Follows (ev.pointersAfter g.down) r.1 ↔ g.KeepsCursor (.touch P ev) := by
  by_cases hplay : g.view.Playing
  · have hother (ha : ev.action ≠ .pointerUp) : g.KeepsCursor (.touch P ev) :=
      fun hup => absurd hup ha
    have hend (ha : ev.action = .up ∨ ev.action = .cancel) :
        Follows (ev.pointersAfter g.down) (g.view.touchUp P ev).1 := by
      intro id hone
      rw [pointersAfter_end hwf ha] at hone
      cases hone
    rcases View.onTouchEvent_cases hplay hr with ⟨ha, hr⟩ | ⟨ha, rfl⟩ | ⟨ha, rfl⟩
    · refine iff_of_true (fun id hone => ?_) (hother (by rcases ha with ha | ha <;> simp [ha]))
      have hnew := not_mem_down hwf ha
      obtain ⟨taken, es, -, heq⟩ := touchDown_eq hr
      rw [pointersAfter_down ha, heq] at hone
      rw [heq]
      cases taken with
      | true => exact hfollows id (by rwa [if_pos rfl, View.freeIds_enter hnew] at hone)
      | false =>
        rw [if_neg Bool.false_ne_true] at hone
        obtain ⟨rfl, hfree⟩ := alone_of_down h.tracks es hnew P hone
        rw [if_neg Bool.false_ne_true, (View.freePointerDown_spec P ev _).2.2.2.2.1]
        exact if_pos hfree
    · simp only [MotionEvent.pointersAfter, ha]
      refine iff_of_true (fun id hone => ?_) (hother (by simp [ha]))
      rw [View.freeIds_touchMove P ev h.tracks.still] at hone
      exact (View.kept_touchMove P ev h.tracks.still).2.1.trans (hfollows id hone)
    · rcases ha with ha | ha | ha
      · exact iff_of_true (hend (Or.inl ha)) (hother (by simp [ha]))
      · obtain ⟨-, heq, -⟩ := touchUp_pointerUp h.tracks h.nodup hplay hwf ha P
        have hmouse : (g.view.afterUp P ev).mousePointerId =
            if (ev.actionPointer.id : ℤ) = g.view.mousePointerId then -1
              else g.view.mousePointerId :=
          (View.removePointer_spec P ev _).2.2.2.2.1
        simp only [MotionEvent.pointersAfter, ha]
        rw [heq, Follows]
        constructor
        · intro hafter _ id hone
          have hm := hafter id ((View.freeIds_afterUp h.nodup P ev g.view).trans hone)
          rw [hmouse] at hm
          split_ifs at hm
          exact hm
        · intro hkeeps id hone
          rw [View.freeIds_afterUp h.nodup] at hone
          have hm : g.view.mousePointerId = id := hkeeps ha id hone
          have hne : id ≠ ev.actionPointer.id := by
            rintro rfl
            have hmem : ev.actionPointer.id ∈ (g.view.freeIds g.down).erase ev.actionPointer.id := by
              rw [hone]
              exact List.mem_singleton_self _
            exact (h.nodup.filter _).not_mem_erase hmem
          rw [hmouse, hm, if_neg (by omega)]
      · exact iff_of_true (hend (Or.inr ha)) (hother (by simp [ha]))
  · obtain ⟨hsame, -⟩ := View.sameFingers_onTouchEvent hplay hr
    refine iff_of_true (fun id hone => ?_) fun _ id hone => ?_
    · rw [hsame.freeIds, h.tracks.freeIds_not_playing hplay] at hone
      cases hone
    · rw [h.tracks.freeIds_not_playing hplay] at hone
      cases hone

/-- **Exactly when the only free pointer drives the cursor**: in every state that a gesture
reaches, if no pointer that goes up leaves a single free one that is not on the cursor. -/
theorem on_cursor_iff (hrest : v.Untouched) (h : TryAlways step WellFormed { view := v } cs)
    (hrun : tryExec step { view := v } cs = some g) :
    (∀ cs₁ cs₂ t, cs = cs₁ ++ cs₂ → tryExec step { view := v } cs₁ = some t →
        ∀ id, t.view.freeIds t.down = [id] → t.OnCursor id) ↔
      TryAlways step KeepsCursor { view := v } cs := by
  have hreached : (∀ cs₁ cs₂ t, cs = cs₁ ++ cs₂ → tryExec step { view := v } cs₁ = some t →
      Follows t.down t.view) ↔ TryAlways step KeepsCursor { view := v } cs := by
    refine reached_iff_of_invariant (I := Tracked) (R := fun g => Follows g.down g.view)
      (fun _ _ _ hs hwf hstep => hs.step hwf hstep) (fun g c g' hg hfollows hwf hstep => ?_)
      (tracked_start hrest) ?_ h hrun
    · obtain ⟨r, hr, rfl⟩ := step_eq hstep
      cases c with
      | touch P ev => exact follows_touch hg hfollows hwf hr
      | fling ref =>
        obtain rfl := Option.some.inj hr
        exact iff_of_true hfollows trivial
      | holdDetector P =>
        obtain rfl := Option.some.inj hr
        refine iff_of_true ?_ trivial
        show Follows g.down (g.view.runHoldDetector P).1
        obtain ⟨l, r, heq⟩ := View.runHoldDetector_fst P g.view
        rw [heq]
        exact hfollows
    · intro id hid
      cases hid
  rw [← hreached]
  constructor
  · intro hall cs₁ cs₂ t heq ht id hone
    exact (hall cs₁ cs₂ t heq ht id hone).pointer
  · intro hall cs₁ cs₂ t heq ht id hone
    have hcs₁ : TryAlways step WellFormed { view := v } cs₁ := by
      rw [heq] at h
      exact h.of_append.1
    exact onCursor_of_pointer (tracked_exec hrest hcs₁ ht) hone (hall cs₁ cs₂ t heq ht id hone)

/-- Two free fingers, of which the first is lifted. -/
def liftFirst : List Callback :=
  [.touch idlePlatform ⟨.down, [fingerC], 0, Nat.zero_lt_one⟩,
    .touch idlePlatform ⟨.pointerDown, [fingerC, fingerD], 1, Nat.one_lt_two⟩,
    .touch idlePlatform ⟨.pointerUp, [fingerC, fingerD], 0, Nat.zero_lt_two⟩]

/-- The second finger stays down, and no pointer is on the cursor. -/
theorem no_cursor_after_liftFirst :
    twoButtons.Untouched ∧ TryAlways step WellFormed { view := twoButtons } liftFirst ∧
      ∃ g, tryExec step { view := twoButtons } liftFirst = some g ∧
        g.view.freeIds g.down = [1] ∧ g.view.mousePointerId = -1 ∧ ¬ g.OnCursor 1 := by
  refine ⟨untouched_twoButtons, by decide +kernel, ?_⟩
  have hlast : (tryExec step { view := twoButtons } liftFirst).map
      (fun g => (g.view.freeIds g.down, g.view.mousePointerId)) = some ([1], -1) := by
    decide +kernel
  obtain ⟨g, hg, hlast⟩ := Option.map_eq_some_iff.1 hlast
  obtain ⟨hone, hmouse⟩ := Prod.mk.inj hlast
  refine ⟨g, hg, hone, hmouse, fun hon => ?_⟩
  have hpointer := hon.pointer
  rw [hmouse] at hpointer
  cases hpointer

/-- One finger alone is on the cursor. -/
theorem on_cursor_fingerC :
    ∃ g, tryExec step { view := twoButtons }
        [.touch idlePlatform ⟨.down, [fingerC], 0, by decide⟩] = some g ∧ g.OnCursor 0 := by
  have hfree : (tryExec step { view := twoButtons }
      [.touch idlePlatform ⟨.down, [fingerC], 0, by decide⟩]).map
      (fun g => g.view.freeIds g.down) = some [0] := by
    decide +kernel
  obtain ⟨g, hg, hone⟩ := Option.map_eq_some_iff.1 hfree
  refine ⟨g, hg, (on_cursor_iff untouched_twoButtons (by decide +kernel) hg).2 ?_ _ [] g
    (List.append_nil _).symm hg 0 hone⟩
  exact ⟨fun h => absurd h (by decide), fun _ _ => trivial⟩

/-! ### Truncated motions -/

/-- The steps of a path that starts in `p`. -/
def steps : ℚ × ℚ → List (ℚ × ℚ) → List (ℚ × ℚ)
  | _, [] => []
  | p, q :: qs => (q - p) :: steps q qs

/-- All that is dropped on a path. -/
def dropped (p : ℚ × ℚ) (qs : List (ℚ × ℚ)) : ℚ × ℚ := ((steps p qs).map fraction).sum

/-- Where the pointer `id` is in an event. -/
def position (id : ℕ) : Callback → Option (ℚ × ℚ)
  | .touch _ ev => (ev.pointers.find? fun p => p.id = id).map fun p => (p.x, p.y)
  | _ => none

/-- The pointers move, with `relativeMouse` off; the hold detector and the flings run on. -/
def Moves : Callback → Prop
  | .touch P ev => ev.action = .move ∧ P.relativeMouse = false
  | _ => True

/-- The point the next motion is measured from. -/
def lastPoint (g : Gesture) : ℚ × ℚ := (g.view.mouseLastX, g.view.mouseLastY)

/-- A single free pointer is down and on the cursor. -/
structure Single (id : ℕ) (g : Gesture) : Prop where
  tracked : g.Tracked
  inputSender : g.view.inputSender = true
  one : g.view.freeIds g.down = [id]
  pointer : g.view.mousePointerId = id

/-- A motion of the pointer sends its step without the fraction; other callbacks move nothing. -/
theorem Single.step {id : ℕ} {g g' : Gesture} {c : Callback} (h : g.Single id)
    (hwf : g.WellFormed c) (hc : Moves c) (hs : g.step c = some g') :
    g'.Single id ∧
      match position id c with
      | some q => g'.lastPoint = q ∧ g'.view.sent.moved =
          g.view.sent.moved + (q - g.lastPoint) - fraction (q - g.lastPoint)
      | none => g'.lastPoint = g.lastPoint ∧ g'.view.sent.moved = g.view.sent.moved := by
  have htracked := h.tracked.step hwf hs
  obtain ⟨r, hr, rfl⟩ := step_eq hs
  have hsender := (View.frame_run hr).inputSender.trans h.inputSender
  have hsent : (g.view.deliver r).sent.moved = g.view.sent.moved + r.2.moved := by
    show Calls.moved (g.view.sent ++ if g.view.inputSender then r.2 else []) = _
    rw [h.inputSender, if_pos rfl, Calls.moved_append]
  cases c with
  | fling ref =>
    obtain rfl := Option.some.inj hr
    exact ⟨⟨htracked, hsender, h.one, h.pointer⟩, rfl, hsent.trans (add_zero _)⟩
  | holdDetector P =>
    obtain rfl := Option.some.inj hr
    rw [moved_runHoldDetector, add_zero] at hsent
    have hkept : (g.view.runHoldDetector P).1.freeIds g.down = [id] ∧
        (g.view.runHoldDetector P).1.mousePointerId = id ∧
        (g.view.runHoldDetector P).1.mouseLastX = g.view.mouseLastX ∧
        (g.view.runHoldDetector P).1.mouseLastY = g.view.mouseLastY := by
      obtain ⟨l, r, heq⟩ := View.runHoldDetector_fst P g.view
      rw [heq]
      exact ⟨h.one, h.pointer, rfl, rfl⟩
    exact ⟨⟨htracked, hsender, hkept.1, hkept.2.1⟩, Prod.ext hkept.2.2.1 hkept.2.2.2, hsent⟩
  | touch P ev =>
    obtain ⟨ha, hrelative⟩ := hc
    have hr : g.view.onTouchEvent P ev = some r := hr
    obtain ⟨hdown, hlookup⟩ := View.mem_freeIds.1
      (show id ∈ g.view.freeIds g.down by rw [h.one]; exact List.mem_singleton_self id)
    have hplay : g.view.Playing := ((h.tracked.tracks.entries id).1 (by rw [hlookup]; rfl)).1
    have hwf' : ev.ids.Perm g.down := by
      have hwf : ev.WellFormed g.down := hwf
      simpa only [MotionEvent.WellFormed, ha] using hwf
    obtain ⟨p, hp⟩ : ∃ p, (ev.pointers.find? fun p => p.id = id) = some p := by
      obtain ⟨q, hq, hqid⟩ := List.mem_map.1 (hwf'.mem_iff.2 hdown)
      exact Option.isSome_iff_exists.1 (List.find?_isSome.2 ⟨q, hq, decide_eq_true hqid⟩)
    have hpid : p.id = id := by simpa using List.find?_some hp
    obtain ⟨r', hr', hcalls, hX, hY⟩ := (onCursor_of_pointer h.tracked h.one h.pointer).moves P ev
      ha hwf p (List.mem_of_find?_eq_some hp) hpid
    obtain rfl := Option.some.inj (hr.symm.trans hr')
    have hposition : position id (.touch P ev) = some (p.x, p.y) := by
      rw [position, hp]
      rfl
    have hkept : r.1.freeIds g.down = [id] ∧ r.1.mousePointerId = id := by
      rw [View.onTouchEvent_playing hplay] at hr
      simp only [ha, Option.some.injEq] at hr
      rw [← hr, View.freeIds_touchMove P ev h.tracked.tracks.still]
      exact ⟨h.one, (View.kept_touchMove P ev h.tracked.tracks.still).2.1.trans h.pointer⟩
    rw [hposition]
    refine ⟨⟨htracked, hsender, ?_, hkept.2⟩, Prod.ext hX hY, ?_⟩
    · show r.1.freeIds (ev.pointersAfter g.down) = [id]
      rw [MotionEvent.pointersAfter, ha]
      exact hkept.1
    · rw [hsent, ← Calls.moved_own r.2, hcalls, moved_cursorCalls hrelative, add_sub_assoc]
      rfl

/-- The path of the pointer `id`. -/
def path (id : ℕ) (cs : List Callback) : List (ℚ × ℚ) := cs.filterMap (position id)

/-- **The motions that are sent and the fractions that are dropped make up the displacement.** -/
theorem moved_run {id : ℕ} {g g' : Gesture} {ms : List Callback} (h : g.Single id)
    (hwf : TryAlways step WellFormed g ms) (hms : ∀ c ∈ ms, Moves c)
    (hrun : tryExec step g ms = some g') :
    g'.view.sent.moved - g.view.sent.moved =
      (path id ms).getLastD g.lastPoint - g.lastPoint - dropped g.lastPoint (path id ms) := by
  induction ms generalizing g with
  | nil =>
    obtain rfl := Option.some.inj hrun
    simp [path, dropped, steps]
  | cons c ms ih =>
    rw [List.forall_mem_cons] at hms
    obtain ⟨t, ht, hrun⟩ := tryExec_cons hrun
    obtain ⟨hsingle, hmoved⟩ := h.step hwf.1 hms.1 ht
    have ih := ih hsingle (hwf.2 t ht) hms.2 hrun
    cases hq : position id c with
    | none =>
      rw [hq] at hmoved
      have hpath : path id (c :: ms) = path id ms := List.filterMap_cons_none hq
      rw [hpath, ← hmoved.1, ← hmoved.2]
      exact ih
    | some q =>
      rw [hq] at hmoved
      have hpath : path id (c :: ms) = q :: path id ms := List.filterMap_cons_some hq
      rw [hmoved.1, hmoved.2] at ih
      rw [hpath, List.getLastD_cons, dropped, steps, List.map_cons, List.sum_cons, ← dropped]
      linear_combination ih

/-- A pointer that goes down as the single free one is on the cursor. -/
theorem single_of_down {P : Platform} {ev : MotionEvent} {g' : Gesture} (h : g.Tracked)
    (hsender : g.view.inputSender = true) (hwf : ev.WellFormed g.down)
    (hdown : ev.action = .down ∨ ev.action = .pointerDown)
    (hs : g.step (.touch P ev) = some g') (hone : g'.view.freeIds g'.down = [ev.actionPointer.id]) :
    g'.Single ev.actionPointer.id ∧ g'.lastPoint = (ev.actionPointer.x, ev.actionPointer.y) := by
  have htracked := h.step (c := .touch P ev) hwf hs
  obtain ⟨r, hr, rfl⟩ := step_eq hs
  have hframe := View.frame_run hr
  have hr : g.view.onTouchEvent P ev = some r := hr
  have hone : r.1.freeIds (ev.pointersAfter g.down) = [ev.actionPointer.id] := hone
  have hpointers : ev.pointersAfter g.down = ev.actionPointer.id :: g.down := pointersAfter_down hdown
  have hplay : g.view.Playing := by
    by_contra hplay
    obtain ⟨hsame, -⟩ := View.sameFingers_onTouchEvent hplay hr
    rw [hsame.freeIds, h.tracks.freeIds_not_playing hplay] at hone
    cases hone
  rw [View.onTouchEvent_down hplay hdown] at hr
  have hnew := not_mem_down hwf hdown
  obtain ⟨taken, es, -, heq⟩ := touchDown_eq hr
  rw [hpointers, heq] at hone
  cases taken with
  | true =>
    -- a pointer that an element has taken is not free
    rw [if_pos rfl, View.freeIds_enter hnew, if_pos rfl] at hone
    have hmem : ev.actionPointer.id ∈ (g.view.withElements es).freeIds g.down := by
      rw [hone]
      exact List.mem_singleton_self _
    exact absurd (View.mem_freeIds.1 hmem).1 hnew
  | false =>
    rw [if_neg Bool.false_ne_true] at hone heq
    obtain ⟨-, hfree⟩ := alone_of_down h.tracks es hnew P hone
    obtain ⟨hX, hY⟩ := View.mouseLast_freePointerDown P ev
      (v := (g.view.withElements es).enter ev.actionPointer.id false) hfree
    refine ⟨⟨htracked, hframe.inputSender.trans hsender, ?_, ?_⟩, Prod.ext ?_ ?_⟩
    · show r.1.freeIds (ev.pointersAfter g.down) = [ev.actionPointer.id]
      rw [hpointers, heq]
      exact hone
    · show r.1.mousePointerId = _
      rw [heq, (View.freePointerDown_spec P ev _).2.2.2.2.1]
      exact if_pos hfree
    · show r.1.mouseLastX = _
      rw [heq, hX]
    · show r.1.mouseLastY = _
      rw [heq, hY]

theorem inputSender_exec (hsender : v.inputSender = true)
    (hrun : tryExec step { view := v } cs = some g) : g.view.inputSender = true := by
  refine tryExec_invariant (I := fun g => g.view.inputSender = true) (fun s c s' hs _ hstep => ?_)
    hsender (tryAlways_true _ cs) hrun
  obtain ⟨r, hr, rfl⟩ := step_eq hstep
  exact (View.frame_run hr).inputSender.trans hs

/-- Less than one pixel apart on both axes. -/
def Near (d d' : ℚ × ℚ) : Prop := |d.1 - d'.1| < 1 ∧ |d.2 - d'.2| < 1

theorem near_sub_self (d e : ℚ × ℚ) : Near (d - e) d ↔ Near e 0 := by
  simp [Near, abs_neg]

/-- **Exactly when the cursor keeps up with the finger**: if at every moment the fractions that
were dropped add up to less than a pixel. -/
theorem cursor_near_iff (hrest : v.Untouched) (hsender : v.inputSender = true) {P : Platform}
    {ev : MotionEvent} {ms : List Callback} {g' : Gesture}
    (h : TryAlways step WellFormed { view := v } (cs ++ .touch P ev :: ms))
    (hrun : tryExec step { view := v } (cs ++ [.touch P ev]) = some g)
    (hdown : ev.action = .down ∨ ev.action = .pointerDown)
    (hone : g.view.freeIds g.down = [ev.actionPointer.id])
    (hms : ∀ c ∈ ms, Moves c) (hrun' : tryExec step g ms = some g') :
    (∀ ms₁ ms₂ t, ms = ms₁ ++ ms₂ → tryExec step g ms₁ = some t →
        Near (t.view.sent.moved - g.view.sent.moved)
          ((path ev.actionPointer.id ms₁).getLastD (ev.actionPointer.x, ev.actionPointer.y) -
            (ev.actionPointer.x, ev.actionPointer.y))) ↔
      ∀ ms₁ ms₂, ms = ms₁ ++ ms₂ →
        Near (dropped (ev.actionPointer.x, ev.actionPointer.y)
          (path ev.actionPointer.id ms₁)) 0 := by
  obtain ⟨hcs, hwf⟩ := h.of_append
  rw [tryExec_append] at hrun
  obtain ⟨g₀, hg₀, hdownrun⟩ := Option.bind_eq_some_iff.1 hrun
  obtain ⟨g₁, hg₁, heq⟩ := tryExec_cons hdownrun
  obtain rfl := Option.some.inj heq
  obtain ⟨hsingle, hlast⟩ := single_of_down (tracked_exec hrest hcs hg₀)
    (inputSender_exec hsender hg₀) (hwf g₀ hg₀).1 hdown hg₁ hone
  have hwfms := (hwf g₀ hg₀).2 _ hg₁
  -- at each moment
  have hmoment : ∀ ms₁ ms₂ t, ms = ms₁ ++ ms₂ → tryExec step g₁ ms₁ = some t →
      (Near (t.view.sent.moved - g₁.view.sent.moved)
          ((path ev.actionPointer.id ms₁).getLastD (ev.actionPointer.x, ev.actionPointer.y) -
            (ev.actionPointer.x, ev.actionPointer.y)) ↔
        Near (dropped (ev.actionPointer.x, ev.actionPointer.y) (path ev.actionPointer.id ms₁))
          0) := by
    rintro ms₁ ms₂ t rfl ht
    have hmoved := moved_run hsingle hwfms.of_append.1
      (fun c hc => hms c (List.mem_append_left _ hc)) ht
    rw [hlast] at hmoved
    rw [hmoved, near_sub_self]
  constructor
  · intro hnear ms₁ ms₂ heq
    have hbegins := hrun'
    rw [heq, tryExec_append] at hbegins
    obtain ⟨t, ht, -⟩ := Option.bind_eq_some_iff.1 hbegins
    exact (hmoment ms₁ ms₂ t heq ht).1 (hnear ms₁ ms₂ t heq ht)
  · intro hdropped ms₁ ms₂ t heq ht
    exact (hmoment ms₁ ms₂ t heq ht).2 (hdropped ms₁ ms₂ heq)

def downC : MotionEvent := ⟨.down, [fingerC], 0, Nat.zero_lt_one⟩

/-- The finger moves to the right by `dx`. -/
def moveC (dx : ℚ) : Callback :=
  .touch idlePlatform ⟨.move, [{ fingerC with x := fingerC.x + dx }], 0, Nat.zero_lt_one⟩

/-- Two steps of half a pixel send nothing. -/
theorem cursor_stays :
    twoButtons.Untouched ∧
      TryAlways step WellFormed { view := twoButtons }
        [.touch idlePlatform downC, moveC (1 / 2), moveC 1] ∧
      (∀ c ∈ [moveC (1 / 2), moveC 1], Moves c) ∧
      ∃ g g', tryExec step { view := twoButtons } [.touch idlePlatform downC] = some g ∧
        g.view.freeIds g.down = [0] ∧ tryExec step g [moveC (1 / 2), moveC 1] = some g' ∧
        g'.view.sent.moved - g.view.sent.moved = 0 ∧
        (path 0 [moveC (1 / 2), moveC 1]).getLastD (800, 800) - (800, 800) = (1, 0) := by
  refine ⟨untouched_twoButtons, by decide +kernel, by simp [moveC, Moves, idlePlatform], ?_⟩
  have hsent : ((tryExec step { view := twoButtons } [.touch idlePlatform downC]).bind fun g =>
      (tryExec step g [moveC (1 / 2), moveC 1]).map fun g' =>
        (g.view.freeIds g.down, g.view.sent.moved, g'.view.sent.moved)) =
      some ([0], 0, 0) := by
    decide +kernel
  obtain ⟨g, hg, hsent⟩ := Option.bind_eq_some_iff.1 hsent
  obtain ⟨g', hg', hsent⟩ := Option.map_eq_some_iff.1 hsent
  obtain ⟨hone, hsent⟩ := Prod.mk.inj hsent
  obtain ⟨hbefore, hafter⟩ := Prod.mk.inj hsent
  exact ⟨g, g', hg, hone, hg', by rw [hbefore, hafter, sub_zero], by decide +kernel⟩

/-- A step of half a pixel loses only this. -/
theorem cursor_near_moveC :
    ∃ g g', tryExec step { view := twoButtons } [.touch idlePlatform downC] = some g ∧
      tryExec step g [moveC (1 / 2)] = some g' ∧
      Near (g'.view.sent.moved - g.view.sent.moved) ((1 / 2, 0) : ℚ × ℚ) := by
  have hrun : ((tryExec step { view := twoButtons } [.touch idlePlatform downC]).bind fun g =>
      (tryExec step g [moveC (1 / 2)]).map fun _ => g.view.freeIds g.down) = some [0] := by
    decide +kernel
  obtain ⟨g, hg, hrun⟩ := Option.bind_eq_some_iff.1 hrun
  obtain ⟨g', hg', hone⟩ := Option.map_eq_some_iff.1 hrun
  have hdropped : ∀ ms₁ ms₂, [moveC (1 / 2)] = ms₁ ++ ms₂ →
      Near (dropped (800, 800) (path 0 ms₁)) 0 := by
    intro ms₁ ms₂ heq
    rcases List.singleton_eq_append_iff.1 heq with ⟨rfl, -⟩ | ⟨rfl, -⟩
    · simp [path, dropped, steps, Near]
    · have hhalf : dropped (800, 800) (path 0 [moveC (1 / 2)]) = (1 / 2, 0) := by decide +kernel
      rw [hhalf]
      norm_num [Near]
  have hwf : TryAlways step WellFormed { view := twoButtons }
      ([] ++ .touch idlePlatform downC :: [moveC (1 / 2)]) := by
    decide +kernel
  have hnear := (cursor_near_iff untouched_twoButtons rfl hwf hg (Or.inl rfl) hone
    (by simp [moveC, Moves, idlePlatform]) hg').2 hdropped [moveC (1 / 2)] [] g' rfl hg'
  have hpath : (path 0 [moveC (1 / 2)]).getLastD (800, 800) - (800, 800) = ((1 / 2, 0) : ℚ × ℚ) := by
    decide +kernel
  refine ⟨g, g', hg, hg', ?_⟩
  rw [← hpath]
  exact hnear

end Gesture

end TermuxX11.VirtualKeys
