import TermuxX11.VirtualKeys.Fingers

/-!
# Buttons of the free pointers

The hold detector presses a button, the end of the gesture releases it, and taps become a click
there.  `leftButtonHeld` and `rightButtonHeld` say throughout what is down (`bookkeeping`).  They
are also meant to keep the click back, but they are cleared before they are asked: a click follows
a hold exactly if a tap had been counted when the hold began (`click_after_hold_iff`).
-/

namespace TermuxX11.VirtualKeys

open Ledger Run

/-- The presses and releases of the left and the right button, whoever makes them. -/
def Calls.buttons (cs : Calls) : List (Signal × Bool) :=
  (VirtualKeys.events (cs.map Prod.snd)).filter fun e => e.1 = .button 1 ∨ e.1 = .button 3

@[simp] theorem Calls.buttons_nil : Calls.buttons [] = [] := rfl

@[simp] theorem Calls.buttons_append (cs cs' : Calls) :
    Calls.buttons (cs ++ cs') = Calls.buttons cs ++ Calls.buttons cs' := by
  rw [Calls.buttons, List.map_append, VirtualKeys.events_append, List.filter_append]
  rfl

theorem buttons_of_events {cs : Calls} (h : Calls.events cs = []) : Calls.buttons cs = [] := by
  rw [Calls.buttons, List.filter_eq_nil_iff]
  intro e he
  obtain ⟨o, ho, heq⟩ := List.mem_filterMap.1 he
  obtain ⟨c, hc, rfl⟩ := List.mem_map.1 ho
  have hevent : ((c.1, e.1), e.2) ∈ Calls.events cs := by
    refine List.mem_filterMap.2 ⟨c, hc, ?_⟩
    rw [heq]
    rfl
  rw [h] at hevent
  cases hevent

/-- The view presses a button. -/
def Calls.Presses (cs : Calls) : Prop := ∃ n, (Source.view, Output.onPointerButton n true) ∈ cs

theorem Calls.presses_append {cs cs' : Calls} :
    Calls.Presses (cs ++ cs') ↔ Calls.Presses cs ∨ Calls.Presses cs' := by
  simp only [Calls.Presses, List.mem_append, exists_or]

theorem Calls.presses_own {cs : Calls} : Calls.Presses (Calls.own cs) ↔ Calls.Presses cs := by
  simp [Calls.Presses, Calls.own]

/-- No element has a mouse button. -/
def NoButtons (es : List Element) : Prop :=
  ∀ e ∈ es, ∀ b ∈ e.bindings, ∀ n, b.signal ≠ some (.button n)

theorem NoButtons.allSend {es : List Element} (h : NoButtons es) :
    AllSend (fun o => ∀ n d, o ≠ .onPointerButton n d) es := by
  rintro e he o ho n d rfl
  obtain ⟨b, hb, hs⟩ := ho
  exact h e he b hb n hs

/-- No element is bound to the mouse. -/
def NoMouse (es : List Element) : Prop := ∀ e ∈ es, ∀ b ∈ e.bindings, b.isMouse = false

theorem signal_of_not_isMouse {b : Binding} (h : b.isMouse = false) :
    b.signal = some (.key b) := by
  simp [Binding.signal, Binding.isKeyboard, h]

theorem NoMouse.noButtons {es : List Element} (h : NoMouse es) : NoButtons es := by
  intro e he b hb n hn
  rw [signal_of_not_isMouse (h e he b hb)] at hn
  cases hn

/-- If the elements send no button, those of the view are all. -/
theorem buttons_own {cs : Calls} (h : OwnOr (fun o => ∀ n d, o ≠ .onPointerButton n d) cs) :
    Calls.buttons cs = Calls.buttons (Calls.own cs) := by
  refine h.eq_own Calls.buttons_append fun s o ho => ?_
  cases o with
  | onPointerButton n d => exact absurd rfl (ho n d)
  | onKeyEvent b d => rfl
  | onPointerMove dx dy => rfl
  | onScroll dx dy => rfl

/-- Which buttons are held. -/
def heldButtons (left right : Bool) (k : Signal) : Bool :=
  if k = .button 1 then left else if k = .button 3 then right else false

theorem update_left (left right b : Bool) :
    Function.update (heldButtons left right) (.button 1) b = heldButtons b right := by
  funext k
  by_cases h : k = .button 1
  · simp [h, heldButtons]
  · simp [h, heldButtons]

theorem update_right (left right b : Bool) :
    Function.update (heldButtons left right) (.button 3) b = heldButtons left b := by
  funext k
  by_cases h : k = .button 3
  · simp [h, heldButtons]
  · simp [h, heldButtons]

namespace View

/-- The flags say which buttons are down after `evs`. -/
def Follows (v : View) (evs : List (Signal × Bool)) : Prop :=
  Ledger.Follows (heldButtons v.leftButtonHeld v.rightButtonHeld) evs

variable {v : View} {evs : List (Signal × Bool)}

theorem Follows.of_same {v' : View} (h : v.Follows evs)
    (hheld : v'.leftButtonHeld = v.leftButtonHeld ∧ v'.rightButtonHeld = v.rightButtonHeld)
    {cs : Calls} (hcs : Calls.buttons cs = []) : v'.Follows (evs ++ Calls.buttons cs) := by
  rw [Follows, hheld.1, hheld.2, hcs, List.append_nil]
  exact h

theorem follows_releaseLeft {left right : Bool} (h : Ledger.Follows (heldButtons left right) evs) :
    Ledger.Follows (heldButtons false right) (evs ++
      Calls.buttons (if left then [(.view, .onPointerButton 1 false)] else [])) := by
  cases left with
  | false => simpa using h
  | true =>
    rw [← update_left true right false]
    exact h.release rfl

theorem follows_releaseRight {left right : Bool} (h : Ledger.Follows (heldButtons left right) evs) :
    Ledger.Follows (heldButtons left false) (evs ++
      Calls.buttons (if right then [(.view, .onPointerButton 3 false)] else [])) := by
  cases right with
  | false => simpa using h
  | true =>
    rw [← update_right left true false]
    exact h.release rfl

/-- The end of the gesture lets go of what is held, and clicks. -/
theorem follows_allPointersReleased (h : v.Follows evs) (P : Platform) :
    (v.allPointersReleased P).1.Follows (evs ++ Calls.buttons (v.allPointersReleased P).2) := by
  have hreleased := follows_releaseRight (follows_releaseLeft h)
  simp only [allPointersReleased, Calls.buttons_append]
  rw [← List.append_assoc, ← List.append_assoc]
  show Ledger.Follows (heldButtons false false) _
  generalize evs ++ Calls.buttons _ ++ Calls.buttons _ = released at hreleased ⊢
  split_ifs
  · exact hreleased.click (k := .button 1) rfl
  · exact hreleased.click (k := .button 3) rfl
  · simpa using hreleased
  · simpa using hreleased

theorem follows_runHoldDetector (h : v.Follows evs) (P : Platform) :
    (v.runHoldDetector P).1.Follows (evs ++ Calls.buttons (v.runHoldDetector P).2) := by
  rcases runHoldDetector_cases P v with heq | ⟨-, -, -, ⟨-, hr, -, heq⟩ | ⟨-, hl, heq⟩⟩
  · rw [heq]
    exact h.of_same ⟨rfl, rfl⟩ rfl
  · have hup : heldButtons v.leftButtonHeld v.rightButtonHeld (.button 3) = false := hr
    rw [heq]
    show Ledger.Follows (heldButtons v.leftButtonHeld true) _
    rw [← update_right v.leftButtonHeld v.rightButtonHeld true]
    exact Ledger.Follows.press h hup
  · have hup : heldButtons v.leftButtonHeld v.rightButtonHeld (.button 1) = false := hl
    rw [heq]
    show Ledger.Follows (heldButtons true v.rightButtonHeld) _
    rw [← update_left v.leftButtonHeld v.rightButtonHeld true]
    exact Ledger.Follows.press h hup

/-- **The flags follow the buttons** in every callback. -/
theorem follows_run {c : Callback} {r : View × Calls} (hr : c.run v = some r)
    (h : v.Follows evs) : r.1.Follows (evs ++ Calls.buttons (Calls.own r.2)) := by
  cases c with
  | holdDetector P =>
    obtain rfl := Option.some.inj hr
    have hown : Calls.own (v.runHoldDetector P).2 = (v.runHoldDetector P).2 :=
      own_eq_self (ownOr_runHoldDetector P v)
    show (v.runHoldDetector P).1.Follows (evs ++ Calls.buttons (Calls.own (v.runHoldDetector P).2))
    rw [hown]
    exact follows_runHoldDetector h P
  | fling ref =>
    obtain rfl := Option.some.inj hr
    exact h.of_same ⟨rfl, rfl⟩ rfl
  | touch P ev =>
    have hr : v.onTouchEvent P ev = some r := hr
    by_cases hplay : v.Playing
    · rcases onTouchEvent_cases hplay hr with ⟨-, hr⟩ | ⟨-, rfl⟩ | ⟨-, rfl⟩
      · obtain ⟨s, hs, ht, hcalls⟩ := touched_touchDown hplay.2.1 hr
        refine h.of_same ⟨ht.leftButtonHeld, ht.rightButtonHeld⟩ ?_
        rw [hcalls, own_touchDownElements hs]
        rfl
      · have ht := touched_touchMove P ev hplay.2.1
        refine h.of_same ⟨ht.leftButtonHeld, ht.rightButtonHeld⟩ ?_
        rw [own_touchMove]
        exact buttons_of_events (sameHeld_moveFreePointers P ev _).2
      · have ht := touched_afterUp P ev hplay.2.1
        rw [own_touchUp, touchUp_eq]
        have hafter : (v.afterUp P ev).Follows evs := by
          rw [Follows, ht.leftButtonHeld, ht.rightButtonHeld]
          exact h
        split_ifs
        · exact follows_allPointersReleased hafter P
        · simpa using hafter
    · obtain ⟨hsame, hcalls⟩ := sameFingers_onTouchEvent hplay hr
      refine h.of_same hsame.held ?_
      rw [hcalls]
      rfl

/-- A touch presses no button that stays down. -/
theorem held_onTouchEvent {P : Platform} {ev : MotionEvent} {r : View × Calls}
    (hr : v.onTouchEvent P ev = some r) :
    (r.1.leftButtonHeld = v.leftButtonHeld ∧ r.1.rightButtonHeld = v.rightButtonHeld) ∨
      (r.1.leftButtonHeld = false ∧ r.1.rightButtonHeld = false) := by
  by_cases hplay : v.Playing
  · rcases onTouchEvent_cases hplay hr with ⟨-, hr⟩ | ⟨-, rfl⟩ | ⟨-, rfl⟩
    · obtain ⟨s, -, ht, -⟩ := touched_touchDown hplay.2.1 hr
      exact Or.inl ⟨ht.leftButtonHeld, ht.rightButtonHeld⟩
    · have ht := touched_touchMove P ev hplay.2.1
      exact Or.inl ⟨ht.leftButtonHeld, ht.rightButtonHeld⟩
    · have ht := touched_afterUp P ev hplay.2.1
      rw [touchUp_eq]
      split_ifs
      · exact Or.inr ⟨rfl, rfl⟩
      · exact Or.inl ⟨ht.leftButtonHeld, ht.rightButtonHeld⟩
  · exact Or.inl (sameFingers_onTouchEvent hplay hr).1.held

/-- Without an input sender the hold detector presses nothing. -/
theorem held_runHoldDetector (P : Platform) (h : v.inputSender = false) :
    (v.runHoldDetector P).1.leftButtonHeld = v.leftButtonHeld ∧
      (v.runHoldDetector P).1.rightButtonHeld = v.rightButtonHeld := by
  rcases runHoldDetector_cases P v with heq | ⟨-, -, hsender, -⟩
  · rw [heq]
    exact ⟨rfl, rfl⟩
  · exact absurd (h.symm.trans hsender) Bool.false_ne_true

/-- What the input sender has received agrees with the flags; without one there is nothing. -/
structure Booked (v : View) : Prop where
  kept : v.Kept
  noButtons : NoButtons v.elements
  follows : v.Follows (Calls.buttons v.sent)
  silent : v.inputSender = false → v.leftButtonHeld = false ∧ v.rightButtonHeld = false

theorem Booked.step {v' : View} {c : Callback} (h : v.Booked) (hs : v.step c = some v') :
    v'.Booked := by
  have hkept := h.kept.step hs
  have hsame := sameControls_step h.kept hs
  obtain ⟨r, hr, rfl⟩ := Option.map_eq_some_iff.1 hs
  have hsender := (frame_run hr).inputSender
  have hheld : v.inputSender = false →
      r.1.leftButtonHeld = false ∧ r.1.rightButtonHeld = false := by
    intro hnone
    obtain ⟨hl, hr'⟩ := h.silent hnone
    cases c with
    | touch P ev =>
      rcases held_onTouchEvent (v := v) hr with ⟨hl', hr''⟩ | hup
      · exact ⟨hl'.trans hl, hr''.trans hr'⟩
      · exact hup
    | holdDetector P =>
      obtain rfl := Option.some.inj hr
      obtain ⟨hl', hr''⟩ := held_runHoldDetector P hnone
      exact ⟨hl'.trans hl, hr''.trans hr'⟩
    | fling ref =>
      obtain rfl := Option.some.inj hr
      exact ⟨hl, hr'⟩
  refine ⟨hkept, ?_, ?_, fun hnone => hheld (hsender ▸ hnone)⟩
  · exact hsame.bindings (Q := fun bs => ∀ b ∈ bs, ∀ n, b.signal ≠ some (.button n)) h.noButtons
  · show r.1.Follows (Calls.buttons (v.sent ++ if v.inputSender then r.2 else []))
    cases hs' : v.inputSender with
    | true =>
      rw [if_pos rfl, Calls.buttons_append, buttons_own (ownOr_run hr h.noButtons.allSend)]
      exact follows_run hr h.follows
    | false =>
      obtain ⟨hl, hr'⟩ := hheld hs'
      obtain ⟨hl', hr''⟩ := h.silent hs'
      have hfollows := h.follows
      rw [Follows, hl', hr''] at hfollows
      rw [if_neg Bool.false_ne_true, List.append_nil, Follows, hl, hr']
      exact hfollows

theorem Start.booked (h : v.Start) (hrest : v.Untouched) (hno : NoButtons v.elements) :
    v.Booked := by
  refine ⟨h.kept, hno, ?_, fun _ => hrest.held⟩
  rw [Follows, h.sent, hrest.held.1, hrest.held.2]
  refine ⟨alternates_nil, fun k => iff_of_false (by simp [Down]) ?_⟩
  simp [heldButtons]

end View

namespace Gesture

variable {v : View} {g : Gesture} {cs : List Callback}

/-- **The books of the free pointers are right**: the count is that of the pointers that are down
and free, the left and the right button are pressed and released in turn and are down exactly
while the flags say so, and without a pointer both are up. -/
theorem bookkeeping (hstart : v.Start) (hrest : v.Untouched) (hno : NoButtons v.elements)
    (h : TryAlways step WellFormed { view := v } cs)
    (hrun : tryExec step { view := v } cs = some g) :
    g.view.freePointerCount =
        (g.down.filter fun id => g.view.pointerOnElement.lookup id = some false).length ∧
      Alternates (Calls.buttons g.view.sent) ∧
      (g.view.leftButtonHeld = true ↔ Down (Calls.buttons g.view.sent) (.button 1)) ∧
      (g.view.rightButtonHeld = true ↔ Down (Calls.buttons g.view.sent) (.button 3)) ∧
      (g.down = [] → ¬ Down (Calls.buttons g.view.sent) (.button 1) ∧
        ¬ Down (Calls.buttons g.view.sent) (.button 3)) := by
  have htracked := tracked_exec hrest h hrun
  have hbooked : g.view.Booked := by
    refine tryExec_invariant (I := fun g => g.view.Booked) (fun s c s' hs _ hstep => ?_)
      (hstart.booked hrest hno) h hrun
    obtain ⟨v', hv', rfl⟩ := Option.map_eq_some_iff.1 hstep
    exact hs.step hv'
  have hleft : Down (Calls.buttons g.view.sent) (.button 1) ↔ g.view.leftButtonHeld = true :=
    hbooked.follows.down (.button 1)
  have hright : Down (Calls.buttons g.view.sent) (.button 3) ↔ g.view.rightButtonHeld = true :=
    hbooked.follows.down (.button 3)
  refine ⟨htracked.tracks.count, hbooked.follows.alternates, hleft.symm, hright.symm,
    fun hdown => ?_⟩
  obtain ⟨hl, hr, -⟩ := htracked.rest (Or.inr hdown)
  rw [hleft, hright, hl, hr]
  exact ⟨Bool.false_ne_true, Bool.false_ne_true⟩

/-- A finger beside the buttons. -/
def fingerC : Pointer := ⟨0, 800, 800⟩

/-- A free finger goes down and rests until the hold detector runs. -/
def holdC : List Callback :=
  [.touch idlePlatform ⟨.down, [fingerC], 0, by decide⟩, .holdDetector idlePlatform]

theorem untouched_twoButtons : twoButtons.Untouched :=
  ⟨rfl, rfl, rfl, rfl, rfl, rfl, rfl, ⟨rfl, rfl⟩, ⟨rfl, rfl⟩, rfl⟩

theorem noMouse_twoButtons : NoMouse twoButtons.elements := by
  have hmouse : ∀ e ∈ twoButtons.elements, ∀ b ∈ e.bindings, b.isMouse = false := by
    decide +kernel
  exact hmouse

/-- The left button is down, and the books say so. -/
theorem bookkeeping_holdC :
    ∃ g, tryExec step { view := twoButtons } holdC = some g ∧
      g.view.leftButtonHeld = true ∧ Down (Calls.buttons g.view.sent) (.button 1) := by
  have hheld : (tryExec step { view := twoButtons } holdC).map
      (fun g => g.view.leftButtonHeld) = some true := by decide +kernel
  obtain ⟨g, hg, hleft⟩ := Option.map_eq_some_iff.1 hheld
  exact ⟨g, hg, hleft, (bookkeeping start_twoButtons untouched_twoButtons noMouse_twoButtons.noButtons
    (by decide +kernel) hg).2.2.1.1 hleft⟩

/-! ### A hold and a click -/

/-- A button was pressed in the gesture and is held, and `n` taps have been counted. -/
structure Holding (n : ℤ) (g : Gesture) : Prop where
  tracked : g.Tracked
  playing : g.view.Playing
  held : g.view.leftButtonHeld = true ∨ g.view.rightButtonHeld = true
  taps : g.view.tapCount = n

/-- While a button is held no tap is counted. -/
theorem tapCount_afterUp {v : View} (h : v.leftButtonHeld = true ∨ v.rightButtonHeld = true)
    (P : Platform) (ev : MotionEvent) : (v.afterUp P ev).tapCount = v.tapCount := by
  rw [View.afterUp, View.tapCount_removePointer]
  have hnot : ¬ (v.rightButtonHeld = false ∧ v.leftButtonHeld = false) := by
    rintro ⟨hr, hl⟩
    rcases h with h | h
    · exact Bool.false_ne_true (hl.symm.trans h)
    · exact Bool.false_ne_true (hr.symm.trans h)
  split_ifs with htaken htap
  · rfl
  · exact absurd ⟨htap.2.2.1, htap.2.2.2.1⟩ hnot
  · rfl

/-- Until the gesture ends the button stays held. -/
theorem Holding.step {n : ℤ} {g g' : Gesture} {c : Callback} (h : g.Holding n)
    (hwf : g.WellFormed c) (hc : ¬ c.EndsGesture) (hs : g.step c = some g') : g'.Holding n := by
  have htracked := h.tracked.step hwf hs
  obtain ⟨r, hr, rfl⟩ := step_eq hs
  suffices hr' : (r.1.leftButtonHeld = true ∨ r.1.rightButtonHeld = true) ∧ r.1.tapCount = n from
    ⟨htracked, (View.frame_run hr).playing.2 h.playing, hr'.1, hr'.2⟩
  cases c with
  | holdDetector P =>
    obtain rfl := Option.some.inj hr
    rcases View.runHoldDetector_cases P g.view with
      heq | ⟨-, -, -, ⟨-, -, -, heq⟩ | ⟨-, -, heq⟩⟩
    · rw [heq]
      exact ⟨h.held, h.taps⟩
    · rw [heq]
      exact ⟨Or.inr rfl, h.taps⟩
    · rw [heq]
      exact ⟨Or.inl rfl, h.taps⟩
  | fling ref =>
    obtain rfl := Option.some.inj hr
    exact ⟨h.held, h.taps⟩
  | touch P ev =>
    have hr : g.view.onTouchEvent P ev = some r := hr
    rcases View.onTouchEvent_cases h.playing hr with ⟨-, hr⟩ | ⟨-, rfl⟩ | ⟨ha, rfl⟩
    · obtain ⟨s, -, ht, -⟩ := View.touched_touchDown h.playing.2.1 hr
      obtain ⟨taken, es, -, heq⟩ := touchDown_eq hr
      rw [ht.leftButtonHeld, ht.rightButtonHeld, ← h.taps, heq]
      refine ⟨h.held, ?_⟩
      cases taken with
      | true => rfl
      | false => exact (View.freePointerDown_spec P ev _).2.2.2.2.2.2.2
    · have ht := View.touched_touchMove P ev h.playing.2.1
      obtain ⟨-, -, htaps⟩ := View.kept_touchMove P ev h.tracked.tracks.still
      rw [ht.leftButtonHeld, ht.rightButtonHeld]
      exact ⟨h.held, htaps.trans h.taps⟩
    · have ha : ev.action = .pointerUp := by
        rcases ha with ha | ha | ha
        · exact absurd (Or.inl ha) hc
        · exact ha
        · exact absurd (Or.inr ha) hc
      obtain ⟨-, heq, -⟩ := touchUp_pointerUp h.tracked.tracks h.tracked.nodup h.playing hwf ha P
      have ht := View.touched_afterUp P ev h.playing.2.1
      rw [heq, ht.leftButtonHeld, ht.rightButtonHeld, tapCount_afterUp h.held]
      exact ⟨h.held, h.taps⟩

/-- The end of the gesture clicks if a tap has been counted. -/
theorem presses_allPointersReleased {v : View} (hstill : v.twoFingerScrollActive = false)
    (htaps : 0 ≤ v.tapCount) (P : Platform) :
    (v.allPointersReleased P).2.Presses ↔ P.touchGestures = false ∧ v.tapCount ≠ 0 := by
  have hl : ¬ Calls.Presses
      (if v.leftButtonHeld then [(.view, .onPointerButton 1 false)] else []) := by
    rintro ⟨n, hn⟩
    split_ifs at hn <;> simp at hn
  have hr : ¬ Calls.Presses
      (if v.rightButtonHeld then [(.view, .onPointerButton 3 false)] else []) := by
    rintro ⟨n, hn⟩
    split_ifs at hn <;> simp at hn
  simp only [View.allPointersReleased]
  rw [Calls.presses_append, Calls.presses_append, or_iff_right hl, or_iff_right hr]
  split_ifs with hgo hone htwo
  · refine iff_of_true ⟨1, List.mem_cons_self⟩ ⟨hgo.1, by omega⟩
  · refine iff_of_true ⟨3, List.mem_cons_self⟩ ⟨hgo.1, by omega⟩
  · refine iff_of_false ?_ (by omega)
    rintro ⟨n, hn⟩
    cases hn
  · refine iff_of_false ?_ fun h => hgo ⟨h.1, hstill⟩
    rintro ⟨n, hn⟩
    cases hn

/-- **Exactly when a hold excludes the click**: a gesture in which the hold detector has pressed a
button ends without a click if no tap had been counted by then, or if `touchGestures` is on at its
end. -/
theorem click_after_hold_iff (hrest : v.Untouched) {mid : List Callback} {P P' : Platform}
    {ev : MotionEvent} {g' : Gesture} {r : View × Calls}
    (h : TryAlways step WellFormed { view := v }
      (cs ++ .holdDetector P :: (mid ++ [.touch P' ev])))
    (hrun : tryExec step { view := v } cs = some g)
    (hhold : (g.view.runHoldDetector P).2.Presses) (hmid : ∀ c ∈ mid, ¬ c.EndsGesture)
    (hrun' : tryExec step g (.holdDetector P :: mid) = some g')
    (hend : Callback.EndsGesture (.touch P' ev)) (hr : g'.view.onTouchEvent P' ev = some r) :
    ¬ r.2.Presses ↔ g.view.tapCount = 0 ∨ P'.touchGestures = true := by
  obtain ⟨hcs, hrest'⟩ := h.of_append
  have hg := tracked_exec hrest hcs hrun
  obtain ⟨t, ht, hmidrun⟩ := tryExec_cons hrun'
  have hwf := (hrest' g hrun).2 t ht
  obtain ⟨hwfmid, hwfend⟩ := hwf.of_append
  -- a button is held from now on
  have hstart : t.Holding g.view.tapCount := by
    have htracked := hg.step (c := .holdDetector P) trivial ht
    have hplay : g.view.Playing := by
      by_contra hplay
      rw [View.runHoldDetector_idle P (hg.tracks.not_posted (Or.inl hplay))] at hhold
      obtain ⟨n, hn⟩ := hhold
      cases hn
    obtain ⟨s, hs, rfl⟩ := step_eq ht
    obtain rfl := Option.some.inj hs
    rcases View.runHoldDetector_cases P g.view with
      heq | ⟨-, -, -, ⟨-, -, -, heq⟩ | ⟨-, -, heq⟩⟩
    · rw [heq] at hhold
      obtain ⟨n, hn⟩ := hhold
      cases hn
    · rw [heq] at htracked ⊢
      exact ⟨htracked, hplay, Or.inr rfl, rfl⟩
    · rw [heq] at htracked ⊢
      exact ⟨htracked, hplay, Or.inl rfl, rfl⟩
  have hheld : g'.Holding g.view.tapCount :=
    tryExec_invariant (fun _ _ _ hs hc hstep => hs.step hc.1 hc.2 hstep) hstart
      (hwfmid.and (tryAlways_of_forall (fun c hc _ => hmid c hc) t)) hmidrun
  -- at the end the tap count is what it was
  have hev : ev.WellFormed g'.down := (hwfend g' hmidrun).1
  have hr' : r = g'.view.touchUp P' ev := by
    rw [View.onTouchEvent_up hheld.playing (hend.imp_right Or.inr), Option.some.injEq] at hr
    exact hr.symm
  have hid : ev.actionPointer.id ∈ g'.down := by
    rcases hend with ha | ha
    · simp only [MotionEvent.WellFormed, ha] at hev
      exact hev.1.mem_iff.1 ev.actionPointer_mem
    · simp only [MotionEvent.WellFormed, ha] at hev
      exact hev.mem_iff.1 ev.actionPointer_mem
  have hafter := View.tracks_afterUp hheld.tracked.tracks hheld.tracked.nodup hheld.playing hid P'
  rw [hr', ← Calls.presses_own, View.own_touchUp, if_pos (hend.imp_right Or.inl),
    presses_allPointersReleased hafter.still.1 hafter.taps, tapCount_afterUp hheld.held,
    hheld.taps]
  cases P'.touchGestures <;> simp

/-- The platform at a time. -/
def clock (uptimeMillis : ℤ) : Platform := { idlePlatform with uptimeMillis := uptimeMillis }

def fingerD : Pointer := ⟨1, 600, 800⟩

/-- A second finger taps and goes down again. -/
def tapAndRest : List Callback :=
  [.touch (clock 0) ⟨.down, [fingerC], 0, by decide⟩,
    .touch (clock 100) ⟨.pointerDown, [fingerC, fingerD], 1, by decide⟩,
    .touch (clock 200) ⟨.pointerUp, [fingerC, fingerD], 1, by decide⟩,
    .touch (clock 300) ⟨.pointerDown, [fingerC, fingerD], 1, by decide⟩]

/-- The hold detector runs, and the second finger is lifted. -/
def holdAndLift : List Callback :=
  [.holdDetector (clock 800), .touch (clock 900) ⟨.pointerUp, [fingerC, fingerD], 1, by decide⟩]

/-- The last finger is lifted. -/
def liftC : MotionEvent := ⟨.up, [fingerC], 0, by decide⟩

/-- After a tap of the second finger and a hold of both, the right button is released and the left
one is clicked. -/
theorem click_after_hold :
    twoButtons.Untouched ∧
      TryAlways step WellFormed { view := twoButtons }
        (tapAndRest ++ holdAndLift ++ [.touch (clock 1000) liftC]) ∧
      ∃ g g' r, tryExec step { view := twoButtons } tapAndRest = some g ∧
        (g.view.runHoldDetector (clock 800)).2.Presses ∧
        tryExec step g holdAndLift = some g' ∧
        g'.view.onTouchEvent (clock 1000) liftC = some r ∧ r.2.Presses := by
  refine ⟨untouched_twoButtons, by decide +kernel, ?_⟩
  have hcalls : ((tryExec step { view := twoButtons } tapAndRest).bind fun g =>
      (tryExec step g holdAndLift).bind fun g' =>
        (g'.view.onTouchEvent (clock 1000) liftC).map fun r =>
          ((g.view.runHoldDetector (clock 800)).2, r.2)) =
      some ([(.view, .onPointerButton 3 true)],
        [(.view, .onPointerButton 3 false), (.view, .onPointerButton 1 true),
          (.view, .onPointerButton 1 false)]) := by
    decide +kernel
  obtain ⟨g, hg, hcalls⟩ := Option.bind_eq_some_iff.1 hcalls
  obtain ⟨g', hg', hcalls⟩ := Option.bind_eq_some_iff.1 hcalls
  obtain ⟨r, hr, hcalls⟩ := Option.map_eq_some_iff.1 hcalls
  obtain ⟨hhold, hend⟩ := Prod.mk.inj hcalls
  refine ⟨g, g', r, hg, ⟨3, ?_⟩, hg', hr, ⟨1, ?_⟩⟩
  · rw [hhold]
    exact List.mem_cons_self
  · rw [hend]
    exact List.mem_cons_of_mem _ List.mem_cons_self

/-- A hold of one finger is not followed by a click. -/
theorem no_click_after_holdC :
    ∃ g' r, tryExec step { view := twoButtons } holdC = some g' ∧
      g'.view.onTouchEvent idlePlatform liftC = some r ∧ ¬ r.2.Presses := by
  have htaps : ((tryExec step { view := twoButtons }
      [.touch idlePlatform ⟨.down, [fingerC], 0, by decide⟩]).bind fun g =>
        (tryExec step g [.holdDetector idlePlatform]).bind fun g' =>
          (g'.view.onTouchEvent idlePlatform liftC).map fun _ =>
            ((g.view.runHoldDetector idlePlatform).2, g.view.tapCount)) =
      some ([(.view, .onPointerButton 1 true)], 0) := by
    decide +kernel
  obtain ⟨g, hg, htaps⟩ := Option.bind_eq_some_iff.1 htaps
  obtain ⟨g', hg', htaps⟩ := Option.bind_eq_some_iff.1 htaps
  obtain ⟨r, hr, htaps⟩ := Option.map_eq_some_iff.1 htaps
  obtain ⟨hhold, hzero⟩ := Prod.mk.inj htaps
  have hwf : TryAlways step WellFormed { view := twoButtons }
      ([.touch idlePlatform ⟨.down, [fingerC], 0, by decide⟩] ++
        .holdDetector idlePlatform :: ([] ++ [.touch idlePlatform liftC])) := by
    decide +kernel
  refine ⟨g', r, ?_, hr, (click_after_hold_iff untouched_twoButtons hwf hg ⟨1, ?_⟩ (by simp) hg'
    (Or.inl rfl) hr).2 (Or.inl hzero)⟩
  · show tryExec step { view := twoButtons } ([_] ++ [_]) = some g'
    rw [tryExec_append, hg]
    exact hg'
  · rw [hhold]
    exact List.mem_cons_self

end Gesture

end TermuxX11.VirtualKeys
