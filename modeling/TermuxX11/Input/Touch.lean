import TermuxX11.Lib.Run

/-!
# Touches on both sides

`InputEventSender.sendTouchEvent` turns a `MotionEvent` into touch events, and the server's
`handleTouchEvent` turns those into the touches of its device.  The events arrive in the order
in which they are sent, so a step here is one `MotionEvent` and all that the server does for it.

The touches of the device are those between a queued `XI_TouchBegin` and a queued
`XI_TouchEnd`.  `fingers` is not part of either side: it is what the events so far say about
the fingers on the screen, and is used to say which streams are handled well.
-/

namespace TermuxX11.Input

open Run

/-- `getActionMasked`. -/
inductive MotionAction
  | down | up | move | cancel | outside | pointerDown | pointerUp | hoverMove | scroll
  | hoverEnter | hoverExit | buttonPress | buttonRelease
  deriving DecidableEq, Repr

structure Pointer where
  id : Fin 10
  x : ℚ
  y : ℚ
  deriving DecidableEq, Repr

/-- An event with the pointers that are present and the index of the one it is about. -/
structure MotionEvent where
  action : MotionAction
  pointers : List Pointer
  actionIndex : Fin pointers.length

namespace MotionEvent

/-- The actions for which all pointers are sent. -/
def movesAll (e : MotionEvent) : Bool :=
  e.action = .move || e.action = .hoverMove || e.action = .hoverEnter || e.action = .hoverExit

/-- The pointer that the event is about. -/
def actionPointer (e : MotionEvent) : Pointer := e.pointers.get e.actionIndex

/-- The ids of the pointers that are present. -/
def ids (e : MotionEvent) : Finset (Fin 10) := (e.pointers.map Pointer.id).toFinset

end MotionEvent

/-- The screen that points are mapped to; `mapScreenPoint` gives the mapped point cut to
integers. -/
structure RenderData where
  mapScreenPoint : ℚ → ℚ → ℤ × ℤ
  screenWidth : ℤ
  screenHeight : ℤ

/-- `MathUtils.clamp`. -/
def clamp (value min max : ℤ) : ℤ := if value < min then min else if max < value then max else value

inductive TouchType
  | touchBegin | touchUpdate | touchEnd
  deriving DecidableEq, Repr

/-- The event `EVENT_TOUCH`. -/
structure TouchEvent where
  type : TouchType
  id : Fin 10
  x : ℤ
  y : ℤ
  deriving DecidableEq, Repr

namespace RenderData

/-- The touch event for a pointer. -/
def touch (r : RenderData) (type : TouchType) (p : Pointer) : TouchEvent :=
  let mappedPoint := r.mapScreenPoint p.x p.y
  { type := type, id := p.id, x := clamp mappedPoint.1 0 r.screenWidth,
    y := clamp mappedPoint.2 0 r.screenHeight }

end RenderData

/-- The array `pointers` of the sender. -/
abbrev PointerTable := Fin 10 → Bool

/-- Writes `b` for each of the pointers. -/
def mark (b : Bool) (ps : List Pointer) (t : PointerTable) : PointerTable :=
  ps.foldl (fun t p => Function.update t p.id b) t

/-- `InputEventSender.sendTouchEvent`: the array afterwards and the events sent. -/
def sendTouchEvent (r : RenderData) (e : MotionEvent) (t : PointerTable) :
    PointerTable × List TouchEvent :=
  if e.movesAll then
    let t := mark true e.pointers (mark false e.pointers t)
    (t, e.pointers.map (r.touch .touchUpdate) ++
      ((List.finRange 10).filter fun p => !t p).map fun p => ⟨.touchEnd, p, 0, 0⟩)
  else
    let p := e.actionPointer
    if e.action = .down ∨ e.action = .pointerDown then (t, [r.touch .touchBegin p])
    else (t, [r.touch .touchUpdate p, r.touch .touchEnd p])

/-- The active touches of `lorieTouch` with their valuators. -/
abbrev Touches := Fin 10 → Option (ℚ × ℚ)

/-- What `QueueTouchEvents` does to the touches. -/
def queueTouchEvents (type : TouchType) (id : Fin 10) (valuators : ℚ × ℚ) (t : Touches) :
    Touches :=
  match type with
  | .touchBegin => Function.update t id (some valuators)
  | .touchUpdate => Function.update t id (some valuators)
  | .touchEnd => Function.update t id none

/-- `handleTouchEvent` on a screen of the given size. -/
def handleTouchEvent (width height : ℚ) (t : Touches) (e : TouchEvent) : Touches :=
  let x : ℚ := max (min e.x width) 0
  let y : ℚ := max (min e.y height) 0
  let valuators := (x * 0xFFFF / width, y * 0xFFFF / height)
  match t e.id with
  | some old =>
    -- an update that moves nothing
    if e.type = .touchUpdate ∧ old.1 = x ∧ old.2 = y then t
    else queueTouchEvents e.type e.id valuators t
  | none =>
    -- an update of a touch that never began begins it
    let type := if e.type = .touchUpdate then .touchBegin else e.type
    if type = .touchEnd then t else queueTouchEvents type e.id valuators t

/-- Both sides, and the fingers on the screen as far as the events tell. -/
structure TouchState where
  pointers : PointerTable := fun _ => false
  touches : Touches := fun _ => none
  fingers : Finset (Fin 10) := ∅

/-- The fingers on the screen after an event. -/
def fingersAfter (e : MotionEvent) (fingers : Finset (Fin 10)) : Finset (Fin 10) :=
  if e.movesAll then e.ids
  else if e.action = .down ∨ e.action = .pointerDown then insert e.actionPointer.id fingers
  else fingers.erase e.actionPointer.id

namespace TouchState

/-- One `MotionEvent`, sent and handled. -/
def step (r : RenderData) (width height : ℚ) (s : TouchState) (e : MotionEvent) : TouchState :=
  let sent := sendTouchEvent r e s.pointers
  { pointers := sent.1, touches := sent.2.foldl (handleTouchEvent width height) s.touches,
    fingers := fingersAfter e s.fingers }

/-- The events that the two sides recover from: a move leaves out no finger that an earlier move
has listed, and no finger is on the screen but the one of an `ACTION_UP` or `ACTION_CANCEL`. -/
def Recovered (s : TouchState) (e : MotionEvent) : Prop :=
  if e.movesAll then ∀ p ∈ s.fingers, s.pointers p = true → p ∈ e.ids
  else if e.action = .up ∨ e.action = .cancel then ∀ p ∈ s.fingers, p = e.actionPointer.id
  else True

instance (s : TouchState) (e : MotionEvent) : Decidable (s.Recovered e) :=
  inferInstanceAs (Decidable
    (if e.movesAll then ∀ p ∈ s.fingers, s.pointers p = true → p ∈ e.ids
      else if e.action = .up ∨ e.action = .cancel then ∀ p ∈ s.fingers, p = e.actionPointer.id
      else True))

end TouchState

/-! ### The active touches -/

/-- The ids of the active touches. -/
def active (t : Touches) : Finset (Fin 10) := Finset.univ.filter fun p => (t p).isSome

theorem mem_active {t : Touches} {p : Fin 10} : p ∈ active t ↔ (t p).isSome := by
  simp [active]

theorem active_update_some (t : Touches) (id : Fin 10) (v : ℚ × ℚ) :
    active (Function.update t id (some v)) = insert id (active t) := by
  ext p
  rw [Finset.mem_insert, mem_active, mem_active]
  by_cases h : p = id
  · subst h
    simp
  · simp [h]

theorem active_update_none (t : Touches) (id : Fin 10) :
    active (Function.update t id none) = (active t).erase id := by
  ext p
  rw [Finset.mem_erase, mem_active, mem_active]
  by_cases h : p = id
  · subst h
    simp
  · simp [h]

variable {width height : ℚ}

/-- An event makes its touch active, unless it is the end of it. -/
theorem active_handleTouchEvent (t : Touches) (e : TouchEvent) :
    active (handleTouchEvent width height t e) =
      if e.type = .touchEnd then (active t).erase e.id else insert e.id (active t) := by
  unfold handleTouchEvent
  cases ht : t e.id with
  | some old =>
    have hmem : e.id ∈ active t := by
      rw [mem_active, ht]
      rfl
    dsimp only
    split_ifs with hsame hend hend
    · rw [hsame.1] at hend
      cases hend
    · exact (Finset.insert_eq_of_mem hmem).symm
    · rw [hend]
      exact active_update_none t e.id
    · cases htype : e.type with
      | touchBegin => exact active_update_some t e.id _
      | touchUpdate => exact active_update_some t e.id _
      | touchEnd => exact absurd htype hend
  | none =>
    have hmem : e.id ∉ active t := by
      rw [mem_active, ht]
      nofun
    cases htype : e.type with
    | touchBegin => exact active_update_some t e.id _
    | touchUpdate => exact active_update_some t e.id _
    | touchEnd => exact (Finset.erase_eq_of_notMem hmem).symm

theorem active_foldl_touchUpdate (r : RenderData) (ps : List Pointer) (t : Touches) :
    active ((ps.map (r.touch .touchUpdate)).foldl (handleTouchEvent width height) t) =
      (ps.map Pointer.id).toFinset ∪ active t := by
  induction ps generalizing t with
  | nil => simp
  | cons p ps ih =>
    rw [List.map_cons, List.foldl_cons, ih, active_handleTouchEvent, if_neg nofun,
      List.map_cons, List.toFinset_cons, Finset.insert_union, Finset.union_insert]
    rfl

theorem active_foldl_touchEnd (ids : List (Fin 10)) (t : Touches) :
    active ((ids.map fun p => (⟨.touchEnd, p, 0, 0⟩ : TouchEvent)).foldl
      (handleTouchEvent width height) t) = active t \ ids.toFinset := by
  induction ids generalizing t with
  | nil => simp
  | cons p ids ih =>
    rw [List.map_cons, List.foldl_cons, ih, active_handleTouchEvent, if_pos rfl,
      List.toFinset_cons, Finset.sdiff_insert, Finset.erase_sdiff_comm]

theorem mark_apply (b : Bool) (ps : List Pointer) (t : PointerTable) (p : Fin 10) :
    mark b ps t p = if p ∈ (ps.map Pointer.id).toFinset then b else t p := by
  induction ps generalizing t with
  | nil => simp [mark]
  | cons q ps ih =>
    have hcons : mark b (q :: ps) t = mark b ps (Function.update t q.id b) := rfl
    rw [hcons, ih, List.map_cons, List.toFinset_cons]
    by_cases hq : p = q.id
    · simp [hq]
    · simp [hq]

variable {r : RenderData} {s : TouchState} {e : MotionEvent}

namespace TouchState

/-- The recovery pass ends the touches that are neither present nor marked. -/
theorem active_step_movesAll (h : e.movesAll = true) :
    active (s.step r width height e).touches =
      e.ids ∪ (active s.touches).filter fun p => s.pointers p = true := by
  simp only [step, sendTouchEvent, h, if_true, List.foldl_append]
  rw [active_foldl_touchEnd, active_foldl_touchUpdate]
  ext p
  simp only [mark_apply, Finset.mem_sdiff, Finset.mem_union, List.mem_toFinset, List.mem_filter,
    List.mem_finRange, true_and, Finset.mem_filter, MotionEvent.ids, Bool.not_eq_true']
  by_cases hp : p ∈ e.pointers.map Pointer.id
  · simp [hp]
  · simp [hp]

theorem active_step_down (h : ¬ e.movesAll = true)
    (hdown : e.action = .down ∨ e.action = .pointerDown) :
    active (s.step r width height e).touches = insert e.actionPointer.id (active s.touches) := by
  have hsent : sendTouchEvent r e s.pointers =
      (s.pointers, [r.touch .touchBegin e.actionPointer]) := by
    rw [sendTouchEvent, if_neg h, if_pos hdown]
  rw [step, hsent, List.foldl_cons, List.foldl_nil, active_handleTouchEvent]
  rfl

theorem active_step_up (h : ¬ e.movesAll = true)
    (hdown : ¬ (e.action = .down ∨ e.action = .pointerDown)) :
    active (s.step r width height e).touches = (active s.touches).erase e.actionPointer.id := by
  have hsent : sendTouchEvent r e s.pointers = (s.pointers,
      [r.touch .touchUpdate e.actionPointer, r.touch .touchEnd e.actionPointer]) := by
    rw [sendTouchEvent, if_neg h, if_neg hdown]
  rw [step, hsent, List.foldl_cons, List.foldl_cons, List.foldl_nil, active_handleTouchEvent,
    active_handleTouchEvent]
  exact Finset.erase_insert_eq_erase _ _

/-- As long as the events are recovered from, the active touches are the fingers. -/
theorem active_step_eq (hs : active s.touches = s.fingers) (hr : s.Recovered e) :
    active (s.step r width height e).touches = (s.step r width height e).fingers := by
  have hfingers : (s.step r width height e).fingers = fingersAfter e s.fingers := rfl
  rw [hfingers, fingersAfter]
  unfold Recovered at hr
  split_ifs with hmoves hdown
  · rw [if_pos hmoves] at hr
    rw [active_step_movesAll hmoves, hs]
    refine Finset.union_eq_left.2 fun p hp => ?_
    obtain ⟨hp, hmarked⟩ := Finset.mem_filter.1 hp
    exact hr p hp hmarked
  · rw [active_step_down hmoves hdown, hs]
  · rw [active_step_up hmoves hdown, hs]

variable {es : List MotionEvent}

theorem active_exec_eq (h : Always (step r width height) Recovered {} es) :
    active (exec (step r width height) {} es).touches =
      (exec (step r width height) {} es).fingers :=
  exec_invariant_of_always (I := fun s => active s.touches = s.fingers)
    (fun _ _ hs hr => active_step_eq hs hr) rfl h

/-- After a move, the touches are the pointers present exactly when the event is one to recover
from. -/
theorem active_step_move_iff (hs : active s.touches = s.fingers) (he : e.action = .move) :
    active (s.step r width height e).touches = e.ids ↔ s.Recovered e := by
  have hmoves : e.movesAll = true := by
    rw [MotionEvent.movesAll, he]
    rfl
  rw [active_step_movesAll hmoves, hs, Recovered, if_pos hmoves, Finset.union_eq_left]
  constructor
  · intro h p hp hmarked
    exact h (Finset.mem_filter.2 ⟨hp, hmarked⟩)
  · intro h p hp
    obtain ⟨hp, hmarked⟩ := Finset.mem_filter.1 hp
    exact h p hp hmarked

theorem active_step_last_iff (hs : active s.touches = s.fingers)
    (he : e.action = .up ∨ e.action = .cancel) :
    active (s.step r width height e).touches = ∅ ↔ s.Recovered e := by
  have hmoves : ¬ e.movesAll = true := by
    rcases he with he | he
    · rw [MotionEvent.movesAll, he]
      nofun
    · rw [MotionEvent.movesAll, he]
      nofun
  have hdown : ¬ (e.action = .down ∨ e.action = .pointerDown) := by
    rcases he with he | he
    · rw [he]
      nofun
    · rw [he]
      nofun
  rw [active_step_up hmoves hdown, hs, Recovered, if_neg hmoves, if_pos he,
    Finset.eq_empty_iff_forall_notMem]
  refine forall_congr' fun p => ?_
  rw [Finset.mem_erase, not_and_or, not_not]
  tauto

/-- **Touch agreement**: in every stream of events that are recovered from, after each
`ACTION_MOVE` the active touches are the pointers present in it, and after each `ACTION_UP` and
`ACTION_CANCEL` there are none.  The condition is exact: after such a stream the next of these
events leaves the two sides in agreement exactly when it is recovered from as well. -/
theorem touches_agree (h : Always (step r width height) Recovered {} es) :
    (∀ es₁ e es₂, es = es₁ ++ e :: es₂ →
      (e.action = .move →
        active (exec (step r width height) {} (es₁ ++ [e])).touches = e.ids) ∧
      (e.action = .up ∨ e.action = .cancel →
        active (exec (step r width height) {} (es₁ ++ [e])).touches = ∅)) ∧
    ∀ e,
      (e.action = .move →
        (active (exec (step r width height) {} (es ++ [e])).touches = e.ids ↔
          (exec (step r width height) {} es).Recovered e)) ∧
      (e.action = .up ∨ e.action = .cancel →
        (active (exec (step r width height) {} (es ++ [e])).touches = ∅ ↔
          (exec (step r width height) {} es).Recovered e)) := by
  constructor
  · rintro es₁ e es₂ rfl
    obtain ⟨h₁, he, -⟩ := always_append.1 h
    have hs := active_exec_eq h₁
    rw [exec_concat]
    exact ⟨fun hmove => (active_step_move_iff hs hmove).2 he,
      fun hlast => (active_step_last_iff hs hlast).2 he⟩
  · intro e
    have hs := active_exec_eq h
    rw [exec_concat]
    exact ⟨active_step_move_iff hs, active_step_last_iff hs⟩

/-- Two fingers go down and the `ACTION_POINTER_UP` of one is lost; the next move tells. -/
theorem touches_agree_lostPointerUp :
    active (exec (step ⟨fun x y => (⌊x⌋, ⌊y⌋), 100, 100⟩ 100 100) {}
      [⟨.down, [⟨0, 5, 5⟩], ⟨0, by decide⟩⟩,
        ⟨.pointerDown, [⟨0, 5, 5⟩, ⟨1, 7, 7⟩], ⟨1, by decide⟩⟩,
        ⟨.move, [⟨0, 6, 6⟩], ⟨0, by decide⟩⟩]).touches = {0} := by
  have h : Always (step ⟨fun x y => (⌊x⌋, ⌊y⌋), 100, 100⟩ 100 100) Recovered {}
      [⟨.down, [⟨0, 5, 5⟩], ⟨0, by decide⟩⟩,
        ⟨.pointerDown, [⟨0, 5, 5⟩, ⟨1, 7, 7⟩], ⟨1, by decide⟩⟩,
        ⟨.move, [⟨0, 6, 6⟩], ⟨0, by decide⟩⟩] :=
    ⟨by decide +kernel, by decide +kernel, by decide +kernel, trivial⟩
  exact ((touches_agree h).1 [_, _] _ [] rfl).1 rfl

/-- The same after a move that has listed both fingers: the other finger stays down. -/
theorem lostPointerUp_stuck :
    ∃ es e, e.action = .move ∧ e.ids = {0} ∧
      active (exec (step ⟨fun x y => (⌊x⌋, ⌊y⌋), 100, 100⟩ 100 100) {} (es ++ [e])).touches =
        {0, 1} :=
  ⟨[⟨.down, [⟨0, 5, 5⟩], ⟨0, by decide⟩⟩,
    ⟨.pointerDown, [⟨0, 5, 5⟩, ⟨1, 7, 7⟩], ⟨1, by decide⟩⟩,
    ⟨.move, [⟨0, 6, 6⟩, ⟨1, 7, 7⟩], ⟨0, by decide⟩⟩],
    ⟨.move, [⟨0, 6, 6⟩], ⟨0, by decide⟩⟩, rfl, by decide, by decide +kernel⟩

end TouchState

end TermuxX11.Input
