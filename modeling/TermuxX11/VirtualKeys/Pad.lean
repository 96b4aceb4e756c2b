import TermuxX11.Lib.Run
import TermuxX11.VirtualKeys.Holds

/-!
# `D_PAD` and `STICK`

What a pad does over a sequence of touches.  A call that moves the thumb has a deflection,
`PadCall.delta`; it sends every direction, in the order up, right, down, left, and records it.
Three things follow from how the directions are found and sent:

* opposite directions exclude each other, and a deflection beyond the dead zone has a direction;
* the state that is remembered does not matter, as `_DEAD_ZONE_OFF` is more than `_DEAD_ZONE`;
* a binding that two directions share goes by the later one.
-/

namespace TermuxX11.VirtualKeys

open Ledger Run

/-- The calls on an element, each with what it reads of its view. -/
inductive PadCall
  | down (H : Host) (pointerId : ℕ) (x y : ℚ)
  | move (H : Host) (pointerId : ℕ) (x y : ℚ)
  | up (H : Host) (pointerId : ℕ)

namespace PadCall

def run (e : Element) : PadCall → Element × List Output
  | down H pointerId x y => (e.handleTouchDown H pointerId x y).2
  | move H pointerId x y => e.handleTouchMove H pointerId x y
  | up H pointerId => e.handleTouchUp H pointerId

def host : PadCall → Host
  | down H .. => H
  | move H .. => H
  | up H .. => H

/-- The deflection of the thumb, if the call moves it. -/
def delta (e : Element) : PadCall → Option (ℚ × ℚ)
  | down H _ x y =>
    if e.currentPointerId = -1 ∧ e.containsPoint H.snappingSize x y = true then
      some (e.padDelta H x y)
    else none
  | move H pointerId x y =>
    if (pointerId : ℤ) = e.currentPointerId then some (e.padDelta H x y) else none
  | up .. => none

/-- The pointer of the element goes up. -/
def Releases (e : Element) : PadCall → Prop
  | up _ pointerId => (pointerId : ℤ) = e.currentPointerId
  | _ => False

end PadCall

namespace Element

/-- The element is a pad. -/
def IsPad (e : Element) : Prop := e.type = .dPad ∨ e.type = .stick

/-- `DPAD_DEAD_ZONE` and `STICK_DEAD_ZONE`. -/
def deadZone (e : Element) : ℚ := if e.type = .stick then 3 / 20 else 3 / 10

/-- `DPAD_DEAD_ZONE_OFF` and `STICK_DEAD_ZONE_OFF`. -/
def deadZoneOff (e : Element) : ℚ := if e.type = .stick then 11 / 50 else 21 / 50

theorem deadZone_pos (e : Element) : 0 < e.deadZone := by
  unfold deadZone
  split_ifs <;> norm_num

theorem deadZone_lt_deadZoneOff (e : Element) : e.deadZone < e.deadZoneOff := by
  unfold deadZone deadZoneOff
  split_ifs <;> norm_num

/-! ### The directions -/

/-- The remembered state of a direction does not matter, as `off` is beyond `dead`. -/
theorem remembered_eq (state : Bool) {p q : Prop} [Decidable p] [Decidable q] (h : q → p) :
    (decide p || (state && decide q)) = decide p := by
  by_cases hp : p
  · simp [hp]
  · have hq : ¬ q := fun hq => hp (h hq)
    simp [hp, hq]

/-- The directions that a deflection has: left and right give way to a stronger vertical one. -/
theorem padStates_eq {dead off : ℚ} (hdead : 0 < dead) (hoff : dead < off)
    (states : Fin 4 → Bool) (dx dy : ℚ) :
    padStates dead off states dx dy =
      ![decide (dy ≤ -dead),
        decide (dead ≤ dx) && !(decide (dead ≤ |dy|) && decide (|dx| < |dy|)),
        decide (dead ≤ dy),
        decide (dx ≤ -dead) && !(decide (dead ≤ |dy|) && decide (|dx| < |dy|))] := by
  have hup := remembered_eq (states 0) (p := dy ≤ -dead) (q := dy ≤ -off) fun h => by linarith
  have hdown := remembered_eq (states 2) (p := dead ≤ dy) (q := off ≤ dy) fun h => by linarith
  have hright := remembered_eq (states 1) (p := dead ≤ dx) (q := off ≤ dx) fun h => by linarith
  have hleft := remembered_eq (states 3) (p := dx ≤ -dead) (q := dx ≤ -off) fun h => by linarith
  have habs : dead ≤ |dy| ↔ dy ≤ -dead ∨ dead ≤ dy := by
    rw [le_abs]
    constructor
    · rintro (h | h)
      · exact Or.inr h
      · exact Or.inl (by linarith)
    · rintro (h | h)
      · exact Or.inr (by linarith)
      · exact Or.inl h
  have hvert : ¬ (dy ≤ -dead ∧ dead ≤ dy) := fun h => by linarith [h.1, h.2]
  have hhor : ¬ (dx ≤ -dead ∧ dead ≤ dx) := fun h => by linarith [h.1, h.2]
  unfold padStates
  simp only [hup, hdown, hright, hleft, habs]
  clear hup hdown hright hleft habs
  by_cases hu : dy ≤ -dead
  · have hd : ¬ dead ≤ dy := fun h => hvert ⟨hu, h⟩
    by_cases hl : dx ≤ -dead
    · have hr : ¬ dead ≤ dx := fun h => hhor ⟨hl, h⟩
      by_cases hv : |dx| < |dy| <;> simp [hu, hd, hl, hr, hv]
    · by_cases hr : dead ≤ dx <;> by_cases hv : |dx| < |dy| <;> simp [hu, hd, hl, hr, hv]
  · by_cases hd : dead ≤ dy
    · by_cases hl : dx ≤ -dead
      · have hr : ¬ dead ≤ dx := fun h => hhor ⟨hl, h⟩
        by_cases hv : |dx| < |dy| <;> simp [hu, hd, hl, hr, hv]
      · by_cases hr : dead ≤ dx <;> by_cases hv : |dx| < |dy| <;> simp [hu, hd, hl, hr, hv]
    · by_cases hl : dx ≤ -dead
      · have hr : ¬ dead ≤ dx := fun h => hhor ⟨hl, h⟩
        simp [hu, hd, hl, hr]
      · by_cases hr : dead ≤ dx <;> simp [hu, hd, hl, hr]

/-! ### The loop over the directions -/

theorem neZero_four : NeZero 4 := inferInstance

section

attribute [local instance] neZero_four

/-- What is recorded of a direction; a mouse motion is shared with the opposite one. -/
def padState (bs : List Binding) (newStates : Fin 4 → Bool) (i : Fin 4) : Bool :=
  if (bindingAt bs i).isMouseMove then newStates i || newStates (i + 2) else newStates i

end

theorem sendPad_states (H : Host) (bs : List Binding) (newStates : Fin 4 → Bool)
    (is : List (Fin 4)) (states : Fin 4 → Bool) (i : Fin 4) :
    (sendPad H bs newStates is states).1 i =
      if i ∈ is then padState bs newStates i else states i := by
  induction is generalizing states with
  | nil => rfl
  | cons j is ih =>
    rw [sendPad, ih]
    by_cases hi : i ∈ is
    · simp [hi]
    · by_cases hij : i = j
      · subst hij
        simp [hi, padState]
      · simp [hi, hij]

theorem events_sendPad (H : Host) (bs : List Binding) (newStates : Fin 4 → Bool)
    (is : List (Fin 4)) (states : Fin 4 → Bool) :
    events (sendPad H bs newStates is states).2 =
      is.flatMap fun i : Fin 4 =>
        (bindingAt bs i).signal.toList.map fun k => (k, padState bs newStates i) := by
  induction is generalizing states with
  | nil => rfl
  | cons j is ih =>
    rw [List.flatMap_cons, ← ih, sendPad, events_append, events_handleInputEvent]
    rfl

/-- A call has moved the thumb to the deflection `d`: every direction is sent and recorded. -/
structure PadMoved (H : Host) (e : Element) (d : ℚ × ℚ) (r : Element × List Output) : Prop where
  type : r.1.type = e.type
  bindings : r.1.bindings = e.bindings
  box : r.1.boundingBoxNeedsUpdate = false ∧ r.1.boundingBox = e.getBoundingBox H.snappingSize
  states : ∀ i, r.1.states i =
    padState e.bindings (padStates e.deadZone e.deadZoneOff e.states d.1 d.2) i
  events : events r.2 = (List.finRange 4).flatMap fun i : Fin 4 =>
    (bindingAt e.bindings i).signal.toList.map fun k =>
      (k, padState e.bindings (padStates e.deadZone e.deadZoneOff e.states d.1 d.2) i)

theorem padMoved_handleTouchMove (H : Host) {e : Element} (hpad : e.IsPad) {pointerId : ℕ}
    (hp : (pointerId : ℤ) = e.currentPointerId) (x y : ℚ) :
    PadMoved H e (e.padDelta H x y) (e.handleTouchMove H pointerId x y) := by
  have hstates (newStates : Fin 4 → Bool) (i : Fin 4) :
      (sendPad H e.bindings newStates [0, 1, 2, 3] e.states).1 i =
        padState e.bindings newStates i := by
    rw [sendPad_states, if_pos (by revert i; decide)]
  rcases hpad with ht | ht
  · have hmove : e.handleTouchMove H pointerId x y =
        (e.cacheBoundingBox H.snappingSize).moveDPad H x y := by
      simp only [handleTouchMove, if_pos hp, ht]
    have hdead : e.deadZone = 3 / 10 := by simp [deadZone, ht]
    have hoff : e.deadZoneOff = 21 / 50 := by simp [deadZoneOff, ht]
    rw [hmove]
    refine ⟨rfl, rfl, ⟨rfl, rfl⟩, ?_, ?_⟩
    · rw [hdead, hoff]
      exact hstates _
    · rw [hdead, hoff]
      exact events_sendPad H e.bindings _ _ e.states
  · have hmove : e.handleTouchMove H pointerId x y =
        (e.cacheBoundingBox H.snappingSize).moveStick H x y := by
      simp only [handleTouchMove, if_pos hp, ht]
    have hdead : e.deadZone = 3 / 20 := by simp [deadZone, ht]
    have hoff : e.deadZoneOff = 11 / 50 := by simp [deadZoneOff, ht]
    rw [hmove]
    refine ⟨rfl, rfl, ⟨rfl, rfl⟩, ?_, ?_⟩
    · rw [hdead, hoff]
      exact hstates _
    · rw [hdead, hoff]
      exact events_sendPad H e.bindings _ _ e.states

theorem padMoved_capture (H : Host) {e : Element} (hpad : e.IsPad) (pointerId : ℕ) (x y : ℚ) :
    PadMoved H e (e.padDelta H x y)
      ((e.cacheBoundingBox H.snappingSize).capture H pointerId x y) := by
  have hcapture : (e.cacheBoundingBox H.snappingSize).capture H pointerId x y =
      ((e.cacheBoundingBox H.snappingSize).withPointer pointerId).handleTouchMove H pointerId
        x y := by
    rcases hpad with ht | ht <;> simp only [capture, cacheBoundingBox, ht]
  rw [hcapture]
  have h := padMoved_handleTouchMove H
    (e := (e.cacheBoundingBox H.snappingSize).withPointer pointerId) hpad rfl x y
  exact ⟨h.type, h.bindings, h.box, h.states, h.events⟩

end Element

/-! ### One call -/

namespace PadCall

variable {e : Element} {c : PadCall} {d : ℚ × ℚ}

theorem padMoved_run (hpad : e.IsPad) (hd : c.delta e = some d) :
    Element.PadMoved c.host e d (c.run e) := by
  cases c with
  | down H pointerId x y =>
    simp only [delta] at hd
    split_ifs at hd with hdown
    obtain rfl := Option.some.inj hd
    have hrun : (down H pointerId x y).run e =
        (e.cacheBoundingBox H.snappingSize).capture H pointerId x y := by
      simp only [run, Element.handleTouchDown, if_pos hdown.1, if_pos hdown.2]
    rw [hrun]
    exact Element.padMoved_capture H hpad pointerId x y
  | move H pointerId x y =>
    simp only [delta] at hd
    split_ifs at hd with hp
    obtain rfl := Option.some.inj hd
    exact Element.padMoved_handleTouchMove H hpad hp x y
  | up H pointerId => cases hd

/-- The directions and the control after a call that does not move the thumb. -/
theorem run_of_delta_none (hpad : e.IsPad) (hd : c.delta e = none) :
    (c.run e).1.type = e.type ∧ (c.run e).1.bindings = e.bindings ∧
      (((c.run e).1.states = e.states ∧ (c.run e).2 = [] ∧ ¬ c.Releases e) ∨
        ((c.run e).1.states = (fun _ => false) ∧
          (c.run e).2 = Element.releaseStates c.host e.bindings e.states)) := by
  cases c with
  | down H pointerId x y =>
    simp only [delta] at hd
    split_ifs at hd with hdown
    simp only [run, Element.handleTouchDown]
    split_ifs with hp hin
    · exact absurd ⟨hp, hin⟩ hdown
    · exact ⟨rfl, rfl, Or.inl ⟨rfl, rfl, id⟩⟩
    · exact ⟨rfl, rfl, Or.inl ⟨rfl, rfl, id⟩⟩
  | move H pointerId x y =>
    simp only [delta] at hd
    split_ifs at hd with hp
    have hrun : (move H pointerId x y).run e = (e, []) := by
      simp only [run, Element.handleTouchMove, if_neg hp]
    rw [hrun]
    exact ⟨rfl, rfl, Or.inl ⟨rfl, rfl, id⟩⟩
  | up H pointerId =>
    by_cases hp : (pointerId : ℤ) = e.currentPointerId
    · have hrun : (up H pointerId).run e =
          ({ e.withPointer (-1) with states := fun _ => false, currentPosition := none },
            Element.releaseStates H e.bindings e.states) := by
        rcases hpad with ht | ht <;> simp only [run, Element.handleTouchUp, if_pos hp, ht]
      rw [hrun]
      exact ⟨rfl, rfl, Or.inr ⟨rfl, rfl⟩⟩
    · have hrun : (up H pointerId).run e = (e, []) := by
        simp only [run, Element.handleTouchUp, if_neg hp]
      rw [hrun]
      exact ⟨rfl, rfl, Or.inl ⟨rfl, rfl, hp⟩⟩

end PadCall

/-! ### Runs -/

/-- A pad, and all that it has sent. -/
structure PadRun where
  element : Element
  sent : List Output := []

namespace PadRun

/-- One call. -/
def step (s : PadRun) (c : PadCall) : PadRun :=
  { element := (c.run s.element).1, sent := s.sent ++ (c.run s.element).2 }

variable {s : PadRun} {e : Element} {cs : List PadCall} {c : PadCall}

/-- No direction moves the mouse. -/
def NoMouseMove (bs : List Binding) : Prop := ∀ i : Fin 4, (bindingAt bs i).isMouseMove = false

instance (bs : List Binding) : Decidable (NoMouseMove bs) :=
  inferInstanceAs (Decidable (∀ i : Fin 4, (bindingAt bs i).isMouseMove = false))

theorem control_step (hpad : s.element.IsPad) (c : PadCall) :
    (s.step c).element.type = s.element.type ∧
      (s.step c).element.bindings = s.element.bindings := by
  cases hd : c.delta s.element with
  | none =>
    obtain ⟨ht, hb, -⟩ := PadCall.run_of_delta_none hpad hd
    exact ⟨ht, hb⟩
  | some d =>
    have h := PadCall.padMoved_run hpad hd
    exact ⟨h.type, h.bindings⟩

/-- The control stays what it is. -/
theorem control_exec (hpad : s.element.IsPad) (cs : List PadCall) :
    (exec step s cs).element.IsPad ∧
      (exec step s cs).element.bindings = s.element.bindings := by
  induction cs using List.reverseRecOn with
  | nil => exact ⟨hpad, rfl⟩
  | append_singleton cs c ih =>
    obtain ⟨ht, hb⟩ := control_step ih.1 c
    rw [exec_concat, Element.IsPad, ht]
    exact ⟨ih.1, hb.trans ih.2⟩

/-- Without mouse motions the directions are those of the deflection. -/
theorem states_moved (hpad : s.element.IsPad) (hmove : NoMouseMove s.element.bindings)
    {d : ℚ × ℚ} (hd : c.delta s.element = some d) :
    (s.step c).element.states =
      Element.padStates s.element.deadZone s.element.deadZoneOff s.element.states d.1 d.2 := by
  funext i
  show (c.run s.element).1.states i = _
  rw [(PadCall.padMoved_run hpad hd).states, Element.padState, if_neg (by rw [hmove i]; decide)]

/-! ### A pad under the thumb -/

/-- A view with a grid of ten pixels. -/
def gridHost : Host where
  snappingSize := 10
  mouseScrollSpeed := 5
  currentTimeMillis := 0
  math := { sqrt := Rat.sqrt, atan2 := fun _ _ => 0, cos := fun _ => 1, sin := fun _ => 0 }

/-- A pad with a radius of 70 around the point (100, 100). -/
def wasd : Element where
  view := true
  type := .dPad
  bindings := [.keyW, .keyD, .keyS, .keyA]
  x := 100
  y := 100

/-! ### Opposite directions -/

section

attribute [local instance] Element.neZero_four

/-- Opposite directions are not active together. -/
def Unopposed (states : Fin 4 → Bool) : Prop :=
  ¬ (states 0 = true ∧ states 2 = true) ∧ ¬ (states 1 = true ∧ states 3 = true)

end

theorem unopposed_padStates (e : Element) (states : Fin 4 → Bool) (dx dy : ℚ) :
    Unopposed (Element.padStates e.deadZone e.deadZoneOff states dx dy) := by
  have hdead := e.deadZone_pos
  rw [Element.padStates_eq hdead e.deadZone_lt_deadZoneOff]
  constructor
  · rintro ⟨hup, hdown⟩
    have hup : dy ≤ -e.deadZone := of_decide_eq_true hup
    have hdown : e.deadZone ≤ dy := of_decide_eq_true hdown
    linarith
  · rintro ⟨hright, hleft⟩
    have hright : e.deadZone ≤ dx := of_decide_eq_true (Bool.and_eq_true_iff.1 hright).1
    have hleft : dx ≤ -e.deadZone := of_decide_eq_true (Bool.and_eq_true_iff.1 hleft).1
    linarith

/-- A deflection beyond the dead zone has a direction. -/
theorem exists_padStates (e : Element) (states : Fin 4 → Bool) {dx dy : ℚ}
    (h : e.deadZone ≤ max |dx| |dy|) :
    ∃ i, Element.padStates e.deadZone e.deadZoneOff states dx dy i = true := by
  rw [Element.padStates_eq e.deadZone_pos e.deadZone_lt_deadZoneOff]
  by_cases hdy : e.deadZone ≤ |dy|
  · rcases le_abs.1 hdy with hdown | hup
    · exact ⟨2, decide_eq_true hdown⟩
    · exact ⟨0, decide_eq_true (by linarith)⟩
  · have hdx : e.deadZone ≤ |dx| := (le_max_iff.1 h).resolve_right hdy
    rcases le_abs.1 hdx with hright | hleft
    · exact ⟨1, by simp [hdy, hright]⟩
    · exact ⟨3, by simp [hdy, show dx ≤ -e.deadZone by linarith]⟩

/-- **Opposite directions are never active together**, and a deflection that reaches the dead zone
has a direction. -/
theorem opposite_never_active (hpad : e.IsPad) (hrest : ∀ i, e.states i = false)
    (hmove : NoMouseMove e.bindings) (cs : List PadCall) :
    Unopposed (exec step { element := e } cs).element.states ∧
      ∀ c d, c.delta (exec step { element := e } cs).element = some d →
        (exec step { element := e } cs).element.deadZone ≤ max |d.1| |d.2| →
        ∃ i, (exec step { element := e } (cs ++ [c])).element.states i = true := by
  have hmove' : ∀ cs, NoMouseMove (exec step { element := e } cs).element.bindings := by
    intro cs
    rw [(control_exec hpad cs).2]
    exact hmove
  refine ⟨?_, fun c d hd hdead => ?_⟩
  · induction cs using List.reverseRecOn with
    | nil =>
      refine ⟨fun h => ?_, fun h => ?_⟩
      · exact Bool.false_ne_true ((hrest 0).symm.trans h.1)
      · exact Bool.false_ne_true ((hrest 1).symm.trans h.1)
    | append_singleton cs c ih =>
      rw [exec_concat]
      cases hd : c.delta (exec step { element := e } cs).element with
      | some d =>
        rw [states_moved (control_exec hpad cs).1 (hmove' cs) hd]
        exact unopposed_padStates _ _ _ _
      | none =>
        obtain ⟨-, -, ⟨hs, -⟩ | ⟨hs, -⟩⟩ := PadCall.run_of_delta_none (control_exec hpad cs).1 hd
        · show Unopposed (c.run _).1.states
          rw [hs]
          exact ih
        · show Unopposed (c.run _).1.states
          rw [hs]
          exact ⟨by simp, by simp⟩
  · rw [exec_concat, states_moved (control_exec hpad cs).1 (hmove' cs) hd]
    exact exists_padStates _ _ hdead

/-- From `W` over to `S`. -/
theorem wasd_unopposed :
    Unopposed (exec step { element := wasd }
        [.down gridHost 0 100 50, .move gridHost 0 100 150]).element.states ∧
      ∃ i, (exec step { element := wasd }
        [.down gridHost 0 100 50, .move gridHost 0 100 150]).element.states i = true :=
  ⟨(opposite_never_active (Or.inl rfl) (fun _ => rfl) (by decide) _).1,
    (opposite_never_active (e := wasd) (Or.inl rfl) (fun _ => rfl) (by decide)
      [.down gridHost 0 100 50]).2 (.move gridHost 0 100 150) (0, 5 / 7) (by decide +kernel)
      (by decide +kernel)⟩

/-! ### The band between the two thresholds -/

/-- How far the thumb is in a direction. -/
def deflection (d : ℚ × ℚ) : Fin 4 → ℚ := ![-d.2, d.1, d.2, -d.1]

/-- How far it is beside the axis of a direction. -/
def aside (d : ℚ × ℚ) : Fin 4 → ℚ := ![d.1, d.2, d.1, d.2]

/-- The thumb is on the axis of a direction, strictly between the two thresholds. -/
def InBand (e : Element) (i : Fin 4) (d : ℚ × ℚ) : Prop :=
  min e.deadZone e.deadZoneOff < deflection d i ∧
    deflection d i < max e.deadZone e.deadZoneOff ∧ aside d i = 0

instance (e : Element) (i : Fin 4) (d : ℚ × ℚ) : Decidable (InBand e i d) :=
  inferInstanceAs (Decidable (_ ∧ _ ∧ _))

/-- On the axis of a direction it is active exactly if the thumb is beyond the dead zone. -/
theorem padStates_axis (e : Element) (states : Fin 4 → Bool) {i : Fin 4} {d : ℚ × ℚ}
    (h : aside d i = 0) :
    Element.padStates e.deadZone e.deadZoneOff states d.1 d.2 i = true ↔
      e.deadZone ≤ deflection d i := by
  have hdead := e.deadZone_pos
  rw [Element.padStates_eq hdead e.deadZone_lt_deadZoneOff]
  fin_cases i
  · show decide (d.2 ≤ -e.deadZone) = true ↔ e.deadZone ≤ -d.2
    rw [decide_eq_true_iff]
    exact le_neg
  · have h : d.2 = 0 := h
    show (decide (e.deadZone ≤ d.1) && _) = true ↔ e.deadZone ≤ d.1
    simp [h, not_le.2 hdead]
  · exact decide_eq_true_iff
  · have h : d.2 = 0 := h
    show (decide (d.1 ≤ -e.deadZone) && _) = true ↔ e.deadZone ≤ -d.1
    simp [h, not_le.2 hdead, le_neg]

/-- The thumb moves within the band. -/
def MovesInBand (i : Fin 4) (s : PadRun) (c : PadCall) : Prop :=
  ∃ d, c.delta s.element = some d ∧ InBand s.element i d

/-- Within the band the direction is active. -/
theorem active_of_movesInBand (hpad : s.element.IsPad) (hmove : NoMouseMove s.element.bindings)
    {i : Fin 4} (h : MovesInBand i s c) : (s.step c).element.states i = true := by
  obtain ⟨d, hd, hmin, -, haside⟩ := h
  rw [min_eq_left s.element.deadZone_lt_deadZoneOff.le] at hmin
  rw [states_moved hpad hmove hd]
  exact (padStates_axis s.element _ haside).2 hmin.le

/-- **Exactly when a direction is kept within the band**: if it was active before. -/
theorem band_keeps_iff (hpad : s.element.IsPad) (hmove : NoMouseMove s.element.bindings)
    {i : Fin 4} (hne : cs ≠ []) (h : Always step (MovesInBand i) s cs) :
    (∀ cs₁ cs₂, cs = cs₁ ++ cs₂ →
        (exec step s cs₁).element.states i = s.element.states i) ↔
      s.element.states i = true := by
  have hactive : ∀ cs₁ c cs₂, cs = cs₁ ++ c :: cs₂ →
      (exec step s (cs₁ ++ [c])).element.states i = true := by
    rintro cs₁ c cs₂ rfl
    obtain ⟨hpad', hb⟩ := control_exec hpad cs₁
    rw [always_append] at h
    rw [exec_concat]
    exact active_of_movesInBand hpad' (hb ▸ hmove) h.2.1
  constructor
  · intro hkeep
    obtain ⟨c, cs', rfl⟩ := List.exists_cons_of_ne_nil hne
    rw [← hkeep [c] cs' rfl]
    exact hactive [] c cs' rfl
  · intro hs cs₁ cs₂ heq
    rw [hs]
    rcases List.eq_nil_or_concat' cs₁ with rfl | ⟨cs₀, c, rfl⟩
    · exact hs
    · exact hactive cs₀ c cs₂ (by rw [heq, List.append_assoc]; rfl)

/-- The thumb goes down in the middle and moves by 24.5, more than 0.3 and less than 0.42 of the
radius. -/
theorem band_entered_changes :
    wasd.IsPad ∧ NoMouseMove wasd.bindings ∧
      MovesInBand 2 (exec step { element := wasd } [.down gridHost 0 100 100])
        (.move gridHost 0 100 (249 / 2)) ∧
      (exec step { element := wasd } [.down gridHost 0 100 100]).element.states 2 = false ∧
      (exec step { element := wasd }
        [.down gridHost 0 100 100, .move gridHost 0 100 (249 / 2)]).element.states 2 = true := by
  refine ⟨Or.inl rfl, by decide, ⟨(0, 7 / 20), ?_, ?_⟩, ?_, ?_⟩
  · decide +kernel
  · decide +kernel
  · decide +kernel
  · decide +kernel

/-- Further on in the band, and back, the direction stays active. -/
theorem band_kept :
    (exec step (exec step { element := wasd } [.down gridHost 0 100 (249 / 2)])
        [.move gridHost 0 100 (250 / 2), .move gridHost 0 100 (249 / 2)]).element.states 2 =
      (exec step { element := wasd } [.down gridHost 0 100 (249 / 2)]).element.states 2 := by
  refine (band_keeps_iff (control_exec (s := { element := wasd }) (Or.inl rfl) _).1
    (by decide +kernel) (by simp) ?_).2 (by decide +kernel) _ [] (List.append_nil _).symm
  refine ⟨⟨(0, 5 / 14), ?_, ?_⟩, ⟨(0, 7 / 20), ?_, ?_⟩, trivial⟩
  · decide +kernel
  · decide +kernel
  · decide +kernel
  · decide +kernel

/-! ### Keys and directions -/

/-- The binding of a key or button. -/
def bindingOf : Signal → Option Binding
  | .key b => some b
  | .button 1 => some .mouseLeftButton
  | .button 2 => some .mouseMiddleButton
  | .button 3 => some .mouseRightButton
  | .button _ => none

theorem bindingOf_signal {b : Binding} {k : Signal} (h : b.signal = some k) :
    bindingOf k = some b := by
  by_cases hm : b.isMouse
  · cases b <;> first | (cases hm; done) | (cases h; done) | (cases h; rfl)
  · have hk : b.isKeyboard = true := by simp [Binding.isKeyboard, hm]
    rw [Binding.signal, if_pos hk] at h
    rw [← Option.some.inj h]
    rfl

/-- Each key or button is down exactly if a direction it is bound to is active. -/
def Agrees (s : PadRun) : Prop :=
  ∀ b k, b.signal = some k →
    (Down (events s.sent) k ↔
      ∃ i : Fin 4, bindingAt s.element.bindings i = b ∧ s.element.states i = true)

/-- No two directions have the same key or button. -/
def Distinct (bs : List Binding) : Prop :=
  ∀ i j : Fin 4, i ≠ j → (bindingAt bs i).signal.isSome = true → bindingAt bs i ≠ bindingAt bs j

/-- The last direction with a key decides about it. -/
theorem last_sendPad (bs : List Binding) (st : Fin 4 → Bool) (is : List (Fin 4)) (k : Signal) :
    Ledger.last (is.flatMap fun i : Fin 4 =>
        (bindingAt bs i).signal.toList.map fun k => (k, st i)) k =
      (is.reverse.find? fun i : Fin 4 => (bindingAt bs i).signal = some k).map st := by
  induction is with
  | nil => rfl
  | cons i is ih =>
    have hhead : Ledger.last ((bindingAt bs i).signal.toList.map fun k => (k, st i)) k =
        ([i].find? fun i : Fin 4 => (bindingAt bs i).signal = some k).map st := by
      rw [last_map]
      by_cases hk : (bindingAt bs i).signal = some k
      · simp [hk]
      · simp [hk]
    rw [List.flatMap_cons, last_append, ih, hhead, List.reverse_cons, List.find?_append,
      Option.map_or]

/-- The last of the directions with a key. -/
def lastWith (bs : List Binding) (k : Signal) : Option (Fin 4) :=
  (List.finRange 4).reverse.find? fun i : Fin 4 => (bindingAt bs i).signal = some k

theorem lastWith_eq_none {bs : List Binding} {k : Signal} :
    lastWith bs k = none ↔ ∀ i : Fin 4, (bindingAt bs i).signal ≠ some k := by
  rw [lastWith, List.find?_eq_none]
  constructor
  · intro h i hi
    exact h i (List.mem_reverse.2 (List.mem_finRange i)) (decide_eq_true hi)
  · intro h i _ hi
    exact h i (of_decide_eq_true hi)

theorem signal_of_lastWith {bs : List Binding} {k : Signal} {m : Fin 4}
    (h : lastWith bs k = some m) : (bindingAt bs m).signal = some k := by
  have hm := List.find?_some h
  exact of_decide_eq_true hm

/-- After the thumb has moved, a key is as the last direction with it is. -/
theorem last_moved (hpad : s.element.IsPad) {d : ℚ × ℚ} (hd : c.delta s.element = some d)
    (k : Signal) :
    Ledger.last (events (s.step c).sent) k =
      ((lastWith s.element.bindings k).map (s.step c).element.states).or
        (Ledger.last (events s.sent) k) := by
  have h := PadCall.padMoved_run hpad hd
  have hstates : (s.step c).element.states = Element.padState s.element.bindings
      (Element.padStates s.element.deadZone s.element.deadZoneOff s.element.states d.1 d.2) :=
    funext h.states
  show Ledger.last (events (s.sent ++ (c.run s.element).2)) k = _
  rw [events_append, last_append, h.events, last_sendPad, hstates]
  rfl

/-- Without a shared key the pad agrees with its directions after every move. -/
theorem agrees_moved (hpad : s.element.IsPad) (hdistinct : Distinct s.element.bindings)
    (hagrees : Agrees s) {d : ℚ × ℚ} (hd : c.delta s.element = some d) : Agrees (s.step c) := by
  intro b k hb
  rw [Down, last_moved hpad hd, (control_step hpad c).2]
  cases hm : lastWith s.element.bindings k with
  | none =>
    rw [lastWith_eq_none] at hm
    have hnone : ∀ i : Fin 4, bindingAt s.element.bindings i ≠ b := by
      rintro i rfl
      exact hm i hb
    constructor
    · intro hdown
      obtain ⟨i, hi, -⟩ := (hagrees b k hb).1 hdown
      exact absurd hi (hnone i)
    · rintro ⟨i, hi, -⟩
      exact absurd hi (hnone i)
  | some m =>
    have hsignal := signal_of_lastWith hm
    have hbm : bindingAt s.element.bindings m = b :=
      Option.some.inj ((bindingOf_signal hsignal).symm.trans (bindingOf_signal hb))
    rw [Option.map_some, Option.some_or, Option.some_inj]
    constructor
    · intro hstate
      exact ⟨m, hbm, hstate⟩
    · rintro ⟨i, hi, hstate⟩
      rcases eq_or_ne i m with rfl | hne
      · exact hstate
      · refine absurd (hi.trans hbm.symm) (hdistinct i m hne ?_)
        rw [hi, hb]
        rfl

/-- The releases at the end leave nothing down. -/
theorem not_down_released (hagrees : Agrees s) (H : Host) {b : Binding} {k : Signal}
    (hb : b.signal = some k) :
    ¬ Down (events (s.sent ++ Element.releaseStates H s.element.bindings s.element.states)) k := by
  rw [Down, events_append, last_append, events_releaseStates, last_map]
  split_ifs with hmem
  · simp
  · rw [Option.none_or]
    intro hdown
    obtain ⟨i, rfl, hi⟩ := (hagrees b k hb).1 hdown
    refine hmem (List.mem_flatMap.2 ⟨i, List.mem_finRange i, ?_⟩)
    rw [if_pos hi]
    exact Option.mem_toList.2 hb

/-- Without a shared key the pad agrees with its directions after every call. -/
theorem agrees_step (hpad : s.element.IsPad) (hdistinct : Distinct s.element.bindings)
    (hagrees : Agrees s) (c : PadCall) : Agrees (s.step c) := by
  cases hd : c.delta s.element with
  | some d => exact agrees_moved hpad hdistinct hagrees hd
  | none =>
    obtain ⟨-, hb, ⟨hs, hsent, -⟩ | ⟨hs, hsent⟩⟩ := PadCall.run_of_delta_none hpad hd
    · intro b k hk
      show Down (events (s.sent ++ (c.run s.element).2)) k ↔
        ∃ i : Fin 4, bindingAt (c.run s.element).1.bindings i = b ∧
          (c.run s.element).1.states i = true
      rw [hsent, List.append_nil, hb, hs]
      exact hagrees b k hk
    · intro b k hk
      show Down (events (s.sent ++ (c.run s.element).2)) k ↔
        ∃ i : Fin 4, bindingAt (c.run s.element).1.bindings i = b ∧
          (c.run s.element).1.states i = true
      rw [hsent, hs]
      refine iff_of_false (not_down_released hagrees c.host hk) ?_
      rintro ⟨i, -, hi⟩
      cases hi

theorem agrees_start (hrest : ∀ i, e.states i = false) : Agrees { element := e } := by
  intro b k _
  refine iff_of_false (fun h => ?_) ?_
  · cases h
  · rintro ⟨i, -, hi⟩
    exact Bool.false_ne_true ((hrest i).symm.trans hi)

theorem agrees_exec (hpad : e.IsPad) (hrest : ∀ i, e.states i = false)
    (hdistinct : Distinct e.bindings) (cs : List PadCall) :
    Agrees (exec step { element := e } cs) := by
  induction cs using List.reverseRecOn with
  | nil => exact agrees_start hrest
  | append_singleton cs c ih =>
    obtain ⟨hpad', hb⟩ := control_exec (s := { element := e }) hpad cs
    rw [exec_concat]
    exact agrees_step hpad' (by rw [hb]; exact hdistinct) ih c

/-! ### Two directions with one key -/

/-- The unit vector of a direction. -/
def unit (i : Fin 4) : ℚ × ℚ := ![(0, -1), (1, 0), (0, 1), (-1, 0)] i

/-- Half-way out in a direction, only this direction is active. -/
theorem padStates_unit (e : Element) (states : Fin 4 → Bool) (i j : Fin 4) :
    Element.padStates e.deadZone e.deadZoneOff states ((unit i).1 / 2) ((unit i).2 / 2) j =
      decide (j = i) := by
  rw [Element.padStates_eq e.deadZone_pos e.deadZone_lt_deadZoneOff, Element.deadZone]
  split_ifs
  · revert i j
    decide +kernel
  · revert i j
    decide +kernel

/-- A view with another grid. -/
def gridHostOf (ss : ℤ) : Host := { gridHost with snappingSize := ss }

theorem unit_sq (i : Fin 4) : (unit i).1 * (unit i).1 + (unit i).2 * (unit i).2 = 1 := by
  revert i
  decide +kernel

theorem clamp_unit (i : Fin 4) :
    Element.clamp ((unit i).1 / 2) (-1) 1 = (unit i).1 / 2 ∧
      Element.clamp ((unit i).2 / 2) (-1) 1 = (unit i).2 / 2 := by
  revert i
  decide +kernel

/-- The thumb half-way out in a direction. -/
theorem padDelta_unit (ss : ℤ) {e : Element} (hwidth : 0 < (e.getBoundingBox ss).width)
    (i : Fin 4) :
    e.padDelta (gridHostOf ss)
        ((e.getBoundingBox ss).left + (e.getBoundingBox ss).width * (1 / 2) * (1 + (unit i).1 / 2))
        ((e.getBoundingBox ss).top + (e.getBoundingBox ss).width * (1 / 2) * (1 + (unit i).2 / 2)) =
      ((unit i).1 / 2, (unit i).2 / 2) := by
  have hr : (0 : ℚ) < (e.getBoundingBox ss).width * (1 / 2) := by
    have hwidth : (0 : ℚ) < (e.getBoundingBox ss).width := by exact_mod_cast hwidth
    linarith
  have hss : (gridHostOf ss).snappingSize = ss := rfl
  unfold Element.padDelta
  dsimp only
  rw [hss]
  generalize ((e.getBoundingBox ss).width : ℚ) * (1 / 2) = r at hr
  generalize ((e.getBoundingBox ss).left : ℚ) = left
  generalize ((e.getBoundingBox ss).top : ℚ) = top
  have hx : left + r * (1 + (unit i).1 / 2) - left = r + r * ((unit i).1 / 2) := by ring
  have hy : top + r * (1 + (unit i).2 / 2) - top = r + r * ((unit i).2 / 2) := by ring
  have hsq : (r - (r + r * ((unit i).1 / 2))) * (r - (r + r * ((unit i).1 / 2))) +
      (r - (r + r * ((unit i).2 / 2))) * (r - (r + r * ((unit i).2 / 2))) = r / 2 * (r / 2) := by
    linear_combination (r * r / 4) * unit_sq i
  have hdist : (gridHostOf ss).math.sqrt (r / 2 * (r / 2)) = r / 2 := by
    show Rat.sqrt (r / 2 * (r / 2)) = r / 2
    rw [Rat.sqrt_eq, abs_of_pos (by linarith)]
  have hdiv : ∀ u : ℚ, (r + r * u - r) / r = u := by
    intro u
    field_simp
    ring
  rw [hx, hy, hsq, hdist, if_neg (by linarith)]
  dsimp only
  rw [hdiv, hdiv, (clamp_unit i).1, (clamp_unit i).2]

theorem isMouseMove_of_signal {b : Binding} {k : Signal} (h : b.signal = some k) :
    b.isMouseMove = false := by
  cases hm : b.isMouseMove with
  | false => rfl
  | true => cases b <;> first | (cases hm; done) | cases h

theorem getBoundingBox_pos {ss : ℤ} {x y : ℚ} (h : e.containsPoint ss x y = true) :
    0 < (e.getBoundingBox ss).width := by
  simp only [Element.containsPoint, Rect.contains, Bool.and_eq_true, decide_eq_true_eq] at h
  rw [Rect.width]
  omega

/-- Half-way out in a direction, a key that a later direction has too is up. -/
theorem not_agrees_unit {k : Signal} {i m : Fin 4} (hi : (bindingAt e.bindings i).signal = some k)
    (hm : lastWith e.bindings k = some m) (hne : i ≠ m) (hs : s.element.IsPad)
    (hb : s.element.bindings = e.bindings)
    (hd : c.delta s.element = some ((unit i).1 / 2, (unit i).2 / 2)) : ¬ Agrees (s.step c) := by
  have hstate : ∀ j : Fin 4, (bindingAt e.bindings j).signal = some k →
      (s.step c).element.states j = decide (j = i) := by
    intro j hj
    have h := (PadCall.padMoved_run hs hd).states j
    rwa [hb, Element.padState, if_neg (by rw [isMouseMove_of_signal hj]; decide),
      padStates_unit] at h
  intro hagrees
  have hdown : Down (events (s.step c).sent) k :=
    (hagrees _ k hi).2 ⟨i, by rw [(control_step hs c).2, hb], (hstate i hi).trans (by simp)⟩
  rw [Down, last_moved hs hd, hb, hm, Option.map_some, Option.some_or,
    hstate m (signal_of_lastWith hm)] at hdown
  exact hne (of_decide_eq_true (Option.some.inj hdown)).symm

/-- A pad with a shared key that can be touched can be brought to disagree. -/
theorem exists_not_agrees (hpad : e.IsPad) (hfree : e.currentPointerId = -1)
    (hshared : ¬ Distinct e.bindings) {ss : ℤ} {x y : ℚ}
    (hin : e.containsPoint ss x y = true) :
    ∃ cs, ¬ Agrees (exec step { element := e } cs) := by
  obtain ⟨i, j, hij, hsome, hbij⟩ : ∃ i j : Fin 4, i ≠ j ∧
      (bindingAt e.bindings i).signal.isSome = true ∧
        bindingAt e.bindings i = bindingAt e.bindings j := by
    by_contra hnone
    refine hshared fun i j hij hsome hb => hnone ⟨i, j, hij, hsome, hb⟩
  obtain ⟨k, hi⟩ := Option.isSome_iff_exists.1 hsome
  obtain ⟨m, hm⟩ : ∃ m, lastWith e.bindings k = some m := by
    refine Option.ne_none_iff_exists'.1 fun hnone => ?_
    exact lastWith_eq_none.1 hnone i hi
  obtain ⟨i, hi, hne⟩ : ∃ i : Fin 4, (bindingAt e.bindings i).signal = some k ∧ i ≠ m := by
    rcases eq_or_ne i m with rfl | hne
    · exact ⟨j, hbij ▸ hi, hij.symm⟩
    · exact ⟨i, hi, hne⟩
  have hdelta : (PadCall.down (gridHostOf ss) 0 x y).delta e =
      some (e.padDelta (gridHostOf ss) x y) := if_pos ⟨hfree, hin⟩
  have hdown := PadCall.padMoved_run hpad hdelta
  have hbox : ((PadCall.down (gridHostOf ss) 0 x y).run e).1.getBoundingBox ss =
      e.getBoundingBox ss := by
    rw [Element.getBoundingBox, hdown.box.1]
    exact hdown.box.2
  have hpointer : ((PadCall.down (gridHostOf ss) 0 x y).run e).1.currentPointerId = 0 := by
    have hrun : (PadCall.down (gridHostOf ss) 0 x y).run e =
        (e.cacheBoundingBox ss).capture (gridHostOf ss) 0 x y := by
      simp only [PadCall.run, Element.handleTouchDown, if_pos hfree]
      rw [if_pos (show e.containsPoint (gridHostOf ss).snappingSize x y = true from hin)]
      rfl
    rw [hrun]
    exact Element.currentPointerId_capture _ _ 0 x y
  have hmoved := padDelta_unit ss (hbox ▸ getBoundingBox_pos hin) i
  refine ⟨[.down (gridHostOf ss) 0 x y, .move (gridHostOf ss) 0 _ _],
    not_agrees_unit (s := step { element := e } (.down (gridHostOf ss) 0 x y)) hi hm hne ?_
      hdown.bindings ((if_pos hpointer.symm).trans (congrArg some hmoved))⟩
  show Element.type _ = _ ∨ Element.type _ = _
  rw [show (step { element := e } (.down (gridHostOf ss) 0 x y)).element.type = e.type from
    hdown.type]
  exact hpad

/-- A pad without a point that can be touched stays at rest. -/
theorem rest_of_untouchable (hfree : e.currentPointerId = -1) (hout : ∀ ss x y, e.containsPoint ss x y = false)
    (cs : List PadCall) :
    (exec step { element := e } cs).sent = [] ∧
      (exec step { element := e } cs).element.currentPointerId = -1 ∧
      (exec step { element := e } cs).element.states = e.states ∧
      ∀ ss x y, (exec step { element := e } cs).element.containsPoint ss x y = false := by
  induction cs using List.reverseRecOn with
  | nil => exact ⟨rfl, hfree, rfl, hout⟩
  | append_singleton cs c ih =>
    rw [exec_concat]
    generalize exec step { element := e } cs = s at ih
    obtain ⟨hsent, hp, hs, hout⟩ := ih
    have hkept : (c.run s.element).2 = [] ∧ ((c.run s.element).1 = s.element ∨
        ∃ ss, (c.run s.element).1 = s.element.cacheBoundingBox ss) := by
      cases c with
      | down H pointerId x y =>
        have hrun : (PadCall.down H pointerId x y).run s.element =
            (s.element.cacheBoundingBox H.snappingSize, []) := by
          simp only [PadCall.run, Element.handleTouchDown, if_pos hp,
            if_neg (Bool.eq_false_iff.1 (hout H.snappingSize x y))]
        rw [hrun]
        exact ⟨rfl, Or.inr ⟨_, rfl⟩⟩
      | move H pointerId x y =>
        have hrun : (PadCall.move H pointerId x y).run s.element = (s.element, []) := by
          simp only [PadCall.run, Element.handleTouchMove, if_neg (show (pointerId : ℤ) ≠
            s.element.currentPointerId by omega)]
        rw [hrun]
        exact ⟨rfl, Or.inl rfl⟩
      | up H pointerId =>
        have hrun : (PadCall.up H pointerId).run s.element = (s.element, []) := by
          simp only [PadCall.run, Element.handleTouchUp, if_neg (show (pointerId : ℤ) ≠
            s.element.currentPointerId by omega)]
        rw [hrun]
        exact ⟨rfl, Or.inl rfl⟩
    obtain ⟨hnone, hsame⟩ := hkept
    refine ⟨?_, ?_⟩
    · show s.sent ++ (c.run s.element).2 = []
      rw [hsent, hnone, List.append_nil]
    · show (c.run s.element).1.currentPointerId = -1 ∧ (c.run s.element).1.states = e.states ∧
        ∀ ss x y, (c.run s.element).1.containsPoint ss x y = false
      rcases hsame with h | ⟨ss', h⟩
      · rw [h]
        exact ⟨hp, hs, hout⟩
      · rw [h]
        exact ⟨hp, hs, fun ss x y => hout ss' x y⟩

/-- **Exactly when the keys of a pad agree with its directions**: if no two directions have the
same key or button, or the pad cannot be touched. -/
theorem pad_agrees_iff (hpad : e.IsPad) (hfree : e.currentPointerId = -1)
    (hrest : ∀ i, e.states i = false) :
    (∀ cs, Agrees (exec step { element := e } cs) ∧
        ∀ c : PadCall, c.Releases (exec step { element := e } cs).element →
          ∀ (b : Binding) k, b.signal = some k →
            ¬ Down (events (exec step { element := e } (cs ++ [c])).sent) k) ↔
      Distinct e.bindings ∨ ∀ ss x y, e.containsPoint ss x y = false := by
  constructor
  · intro h
    by_contra hnot
    rw [not_or] at hnot
    obtain ⟨hshared, hin⟩ := hnot
    push Not at hin
    obtain ⟨ss, x, y, hin⟩ := hin
    obtain ⟨cs, hcs⟩ := exists_not_agrees hpad hfree hshared (Bool.eq_true_of_not_eq_false hin)
    exact hcs (h cs).1
  · rintro (hdistinct | hout) cs
    · have hagrees := agrees_exec hpad hrest hdistinct cs
      refine ⟨hagrees, fun c hc b k hb => ?_⟩
      obtain ⟨H, pointerId, rfl⟩ : ∃ H pointerId, c = .up H pointerId := by
        cases c with
        | up H pointerId => exact ⟨H, pointerId, rfl⟩
        | down | move => exact hc.elim
      obtain ⟨-, -, ⟨-, -, hkept⟩ | ⟨-, hsent⟩⟩ :=
        PadCall.run_of_delta_none (control_exec (s := { element := e }) hpad cs).1
          (show (PadCall.up H pointerId).delta _ = none from rfl)
      · exact absurd hc hkept
      · rw [exec_concat]
        show ¬ Down (events ((exec step { element := e } cs).sent ++ _)) k
        rw [hsent]
        exact not_down_released hagrees H hb
    · obtain ⟨hsent, -, hs, -⟩ := rest_of_untouchable hfree hout cs
      have hagrees : Agrees (exec step { element := e } cs) := by
        intro b k _
        rw [hsent, hs]
        refine iff_of_false (fun h => ?_) ?_
        · cases h
        · rintro ⟨i, -, hi⟩
          exact Bool.false_ne_true ((hrest i).symm.trans hi)
      refine ⟨hagrees, fun c _ b k _ => ?_⟩
      rw [(rest_of_untouchable hfree hout (cs ++ [c])).1]
      intro h
      cases h

/-- `W` for up and for right: pushed up, the pad presses `W` for up and releases it for right. -/
theorem shared_key_released :
    ¬ Agrees (exec step { element := { wasd with bindings := [.keyW, .keyW, .keyS, .keyA] } }
      [.down gridHost 0 100 100, .move gridHost 0 100 50]) := by
  intro h
  have hdown := (h .keyW (.key .keyW) rfl).2 ⟨0, by decide +kernel, by decide +kernel⟩
  exact absurd hdown (by unfold Down; decide +kernel)

/-- From `W` over `W` and `D` to `D`. -/
theorem wasd_agrees :
    Agrees (exec step { element := wasd }
      [.down gridHost 0 100 50, .move gridHost 0 150 50, .move gridHost 0 150 100]) :=
  ((pad_agrees_iff (e := wasd) (Or.inl rfl) rfl fun _ => rfl).2
    (Or.inl (by unfold Distinct; decide)) _).1

end PadRun

end TermuxX11.VirtualKeys
