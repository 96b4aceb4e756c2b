import TermuxX11.Input.Touch
import TermuxX11.Lib.Bytes

/-!
# Repeated touch updates

`handleTouchEvent` drops an update of a touch that stays where it was.  It compares the place on
the screen, in pixels, with the valuators that the touch has stored, which were scaled to
`0 .. 0xFFFF` when they were queued: `always_exact_iff` says in which runs that comparison does
what it is for.

`QueueTouchEvents` is code of the X server: what it stores for the touch is a parameter, of which
only the valuators are assumed to be those that were passed.
-/

namespace TermuxX11.Server

open Run

/-- The member `touch` of a `lorieEvent`. -/
structure TouchEvent where
  type : UInt16
  id : UInt16 := 0
  x : UInt16
  y : UInt16
  deriving DecidableEq

/-- `XI_TouchBegin`. -/
def xiTouchBegin : UInt16 := 18

/-- `XI_TouchUpdate`. -/
def xiTouchUpdate : UInt16 := 19

/-- `XI_TouchEnd`. -/
def xiTouchEnd : UInt16 := 20

/-- What is read of a `DDXTouchPointInfoRec`: the valuators are those that are set in its mask. -/
structure TouchPoint where
  active : Bool
  valuators : List (ℕ × ℚ)

/-- A call of `QueueTouchEvents` for the touch device. -/
structure TouchCall where
  type : UInt16
  id : UInt16
  flags : ℕ
  valuators : List (ℕ × ℚ)
  deriving DecidableEq

section

variable (width height : ℕ)

/-- The place of the event, kept on the screen. -/
def TouchEvent.place (e : TouchEvent) : ℚ × ℚ :=
  (max (min e.x.toNat width) 0, max (min e.y.toNat height) 0)

/-- The valuators of a place. -/
def scaled (p : ℚ × ℚ) : List (ℕ × ℚ) := [(0, p.1 * 65535 / width), (1, p.2 * 65535 / height)]

/-- The touch has been found and is active. -/
def isActive (touch : Option TouchPoint) : Bool := touch.any TouchPoint.active

/-- `handleTouchEvent`: the call that it makes, if it makes one. -/
def handleTouchEvent (touch : Option TouchPoint) (e : TouchEvent) : Option TouchCall :=
  let p := e.place width height
  let valuators := (touch.map TouchPoint.valuators).getD []
  if isActive touch ∧ e.type = xiTouchUpdate ∧ valuators.lookup 0 = some p.1 ∧
      valuators.lookup 1 = some p.2 then none
  else
    let type := if e.type = xiTouchUpdate ∧ ¬ isActive touch then xiTouchBegin else e.type
    if type = xiTouchEnd ∧ ¬ isActive touch then none
    else some { type := type, id := e.id, flags := 0, valuators := scaled width height p }

/-- A touch: what the server has stored for it, and the place of the last event queued. -/
structure Touch where
  point : Option TouchPoint := none
  last : Option (ℚ × ℚ) := none

variable (store : TouchCall → Option TouchPoint → Option TouchPoint)

/-- One message. -/
def Touch.step (s : Touch) (e : TouchEvent) : Touch :=
  match handleTouchEvent width height s.point e with
  | none => s
  | some call => ⟨store call s.point, some (e.place width height)⟩

/-- An update of the active touch is dropped exactly if the touch is where the last event that was
queued has put it. -/
def Touch.Exact (s : Touch) (e : TouchEvent) : Prop :=
  e.type = xiTouchUpdate → isActive s.point = true →
    (handleTouchEvent width height s.point e = none ↔ s.last = some (e.place width height))

/-- A place that is the last one agrees with its own valuators, and one that is not does not agree
with those of the last one. -/
def Touch.Comparable (s : Touch) (e : TouchEvent) : Prop :=
  e.type = xiTouchUpdate → isActive s.point = true → ∀ old, s.last = some old →
    let new := e.place width height
    if new = old then (new.1 = 0 ∨ width = 65535) ∧ (new.2 = 0 ∨ height = 65535)
    else old.1 * 65535 ≠ new.1 * width ∨ old.2 * 65535 ≠ new.2 * height

end

/-! ### The comparison -/

variable {width height : ℕ} {store : TouchCall → Option TouchPoint → Option TouchPoint}

/-- What the server has stored are the valuators of the last event queued. -/
def Touch.Stored (width height : ℕ) (s : Touch) : Prop :=
  ∀ p, s.point = some p → ∃ old, s.last = some old ∧ p.valuators = scaled width height old

/-- An update of an active touch is dropped if its place has the stored valuators. -/
theorem handleTouchEvent_update {s : Touch} {e : TouchEvent} (htype : e.type = xiTouchUpdate)
    (hactive : isActive s.point = true) (h : s.Stored width height) :
    ∃ old, s.last = some old ∧
      (handleTouchEvent width height s.point e = none ↔
        old.1 * 65535 / width = (e.place width height).1 ∧
          old.2 * 65535 / height = (e.place width height).2) := by
  cases hp : s.point with
  | none =>
    rw [hp] at hactive
    cases hactive
  | some p =>
    obtain ⟨old, hold, hval⟩ := h p hp
    refine ⟨old, hold, ?_⟩
    rw [hp] at hactive
    have h0 : (scaled width height old).lookup 0 = some (old.1 * 65535 / width) := rfl
    have h1 : (scaled width height old).lookup 1 = some (old.2 * 65535 / height) := rfl
    have hend : ¬ (xiTouchUpdate = xiTouchEnd) := by decide
    simp only [handleTouchEvent, htype, hactive, Option.map_some, Option.getD_some, hval, h0, h1,
      Option.some.injEq, true_and, not_true, and_false, if_false, hend]
    split_ifs with hsame
    · exact iff_of_true rfl hsame
    · exact iff_of_false (by simp) hsame

theorem valuators_handleTouchEvent {touch : Option TouchPoint} {e : TouchEvent} {call : TouchCall}
    (h : handleTouchEvent width height touch e = some call) :
    call.valuators = scaled width height (e.place width height) := by
  simp only [handleTouchEvent] at h
  split_ifs at h <;> cases h <;> rfl

theorem stored_step (hstore : ∀ call t p, store call t = some p → p.valuators = call.valuators)
    {s : Touch} (h : s.Stored width height) (e : TouchEvent) :
    (s.step width height store e).Stored width height := by
  unfold Touch.step
  cases hc : handleTouchEvent width height s.point e with
  | none => exact h
  | some call =>
    intro p hp
    exact ⟨_, rfl, (hstore _ _ _ hp).trans (valuators_handleTouchEvent hc)⟩

theorem exact_iff_comparable (hw : 0 < width) (hh : 0 < height) {s : Touch}
    (h : s.Stored width height) (e : TouchEvent) :
    s.Exact width height e ↔ s.Comparable width height e := by
  refine forall₂_congr fun htype hactive => ?_
  obtain ⟨old, hold, hdrop⟩ := handleTouchEvent_update htype hactive h
  have hw' : (width : ℚ) ≠ 0 := by exact_mod_cast hw.ne'
  have hh' : (height : ℚ) ≠ 0 := by exact_mod_cast hh.ne'
  rw [div_eq_iff hw', div_eq_iff hh'] at hdrop
  have hsize : ∀ (q : ℚ) (n : ℕ), q * 65535 = q * n ↔ q = 0 ∨ n = 65535 := by
    intro q n
    rw [mul_eq_mul_left_iff, or_comm, eq_comm (a := (65535 : ℚ))]
    exact or_congr_right (by norm_cast)
  simp only [hold, Option.some.injEq, forall_eq']
  rw [hdrop]
  by_cases heq : e.place width height = old
  · rw [if_pos heq, heq, hsize, hsize]
    simp
  · rw [if_neg heq, iff_false_right (Ne.symm heq), not_and_or]

/-- **Duplicate updates are dropped exactly in the comparable runs.** -/
theorem always_exact_iff (hw : 0 < width) (hh : 0 < height)
    (hstore : ∀ call t p, store call t = some p → p.valuators = call.valuators)
    (es : List TouchEvent) :
    Always (Touch.step width height store) (Touch.Exact width height) {} es ↔
      Always (Touch.step width height store) (Touch.Comparable width height) {} es :=
  always_iff_of_invariant (fun _ e h _ => stored_step hstore h e)
    (fun _ e h => exact_iff_comparable hw hh h e) (I := Touch.Stored width height)
    (fun p hp => by cases hp) es

/-! ### The touches of the device

The touches that the activity's events lead to are those of this `handleTouchEvent`. -/

/-- The message for a touch event of the activity. -/
def TouchEvent.ofInput (e : Input.TouchEvent) : TouchEvent where
  type :=
    match e.type with
    | .touchBegin => xiTouchBegin
    | .touchUpdate => xiTouchUpdate
    | .touchEnd => xiTouchEnd
  id := .ofNat e.id
  x := .ofInt e.x
  y := .ofInt e.y

/-- The point of an active touch with its valuators. -/
def TouchPoint.ofInput (valuators : ℚ × ℚ) : TouchPoint :=
  ⟨true, [(0, valuators.1), (1, valuators.2)]⟩

theorem place_ofInput {e : Input.TouchEvent} (hx : 0 ≤ e.x ∧ e.x < 2 ^ 16)
    (hy : 0 ≤ e.y ∧ e.y < 2 ^ 16) :
    (TouchEvent.ofInput e).place width height =
      (max (min (e.x : ℚ) width) 0, max (min (e.y : ℚ) height) 0) := by
  have hx' : ((UInt16.ofInt e.x).toNat : ℚ) = e.x := by
    exact_mod_cast ByteCoding.toNat_ofInt_eq_iff.2 hx
  have hy' : ((UInt16.ofInt e.y).toNat : ℚ) = e.y := by
    exact_mod_cast ByteCoding.toNat_ofInt_eq_iff.2 hy
  rw [TouchEvent.place, TouchEvent.ofInput, hx', hy']

/-- The touches that the device has after an event. -/
theorem input_handleTouchEvent (t : Input.Touches) {e : Input.TouchEvent}
    (hx : 0 ≤ e.x ∧ e.x < 2 ^ 16) (hy : 0 ≤ e.y ∧ e.y < 2 ^ 16) :
    Input.handleTouchEvent width height t e =
      match handleTouchEvent width height ((t e.id).map .ofInput) (.ofInput e) with
      | none => t
      | some call => Function.update t e.id
          (if call.type = xiTouchEnd then none
          else some ((call.valuators.lookup 0).getD 0, (call.valuators.lookup 1).getD 0)) := by
  have hplace : (TouchEvent.ofInput e).place width height = _ := place_ofInput hx hy
  simp only [Input.handleTouchEvent, handleTouchEvent, hplace]
  obtain ⟨type, id, x, y⟩ := e
  cases ht : t id with
  | none =>
    dsimp only
    cases type with
    | touchBegin => rfl
    | touchUpdate => rfl
    | touchEnd => rfl
  | some old =>
    dsimp only
    cases type with
    | touchBegin => rfl
    | touchUpdate =>
      by_cases hsame : old.1 = max (min (x : ℚ) width) 0 ∧ old.2 = max (min (y : ℚ) height) 0
      · rw [if_pos ⟨rfl, hsame⟩,
          if_pos ⟨rfl, rfl, congrArg some hsame.1, congrArg some hsame.2⟩]
      · rw [if_neg fun h => hsame h.2, if_neg fun h => hsame
          ⟨Option.some.inj h.2.2.1, Option.some.inj h.2.2.2⟩]
        rfl
    | touchEnd => rfl

/-- A touch that is active until it ends. -/
def keepTouch (call : TouchCall) (_ : Option TouchPoint) : Option TouchPoint :=
  some ⟨decide (call.type ≠ xiTouchEnd), call.valuators⟩

/-- A touch at the left edge that moves to the right. -/
theorem comparable_edge :
    Always (Touch.step 1280 1024 keepTouch) (Touch.Exact 1280 1024) {}
      [⟨xiTouchBegin, 0, 0, 0⟩, ⟨xiTouchUpdate, 0, 0, 0⟩, ⟨xiTouchUpdate, 0, 5, 0⟩] :=
  (always_exact_iff (by omega) (by omega)
    (fun call t p hp => by obtain rfl := Option.some.inj hp; rfl) _).2 <| by
    refine ⟨fun htype => absurd htype (by decide), fun _ _ old hold => ?_,
      fun _ _ old hold => ?_, trivial⟩
    · obtain rfl : (0, 0) = old := Option.some.inj (Eq.trans (by decide +kernel) hold)
      decide +kernel
    · obtain rfl : (0, 0) = old := Option.some.inj (Eq.trans (by decide +kernel) hold)
      decide +kernel

/-- On a screen of 1285 columns a touch that moves from the column 1 to the column 51 stays where
it was for the server. -/
theorem movement_dropped :
    ¬ ∀ store : TouchCall → Option TouchPoint → Option TouchPoint,
      (∀ call t p, store call t = some p → p.valuators = call.valuators) →
      ∀ width height, 0 < width → 0 < height → ∀ es,
        Always (Touch.step width height store) (Touch.Exact width height) {} es := by
  intro h
  have hrun := h keepTouch (fun call t p hp => by obtain rfl := Option.some.inj hp; rfl) 1285 1024
    (by omega) (by omega) [⟨xiTouchBegin, 0, 1, 0⟩, ⟨xiTouchUpdate, 0, 51, 0⟩]
  have hlast := (hrun.2.1 rfl (by decide +kernel)).1 (by decide +kernel)
  exact absurd hlast (by decide +kernel)

end TermuxX11.Server
