import TermuxX11.VirtualKeys.Board
import TermuxX11.VirtualKeys.Clicks
import TermuxX11.VirtualKeys.Twins

/-!
# Free pointers and pointers on elements

A stream of touch events is compared with what is left of it when the pointers that elements take
are deleted (`freeStream`).  The free pointers should do the same in both.  They do
(`free_pointers_apart`) as long as they get `Apart` from the others: a pointer that leaves an element
ends a hold that is waited for, the end of a gesture waits for the pointers on elements, with the
click and the release of the button, and an element that has a pointer takes no other.
-/

namespace TermuxX11.VirtualKeys

open Ledger Run

/-- What the action is called with `n` pointers in the event. -/
def Action.withCount (n : ℕ) : Action → Action
  | .down | .pointerDown => if n = 1 then .down else .pointerDown
  | .up | .pointerUp => if n = 1 then .up else .pointerUp
  | .move => .move
  | .cancel => .cancel

theorem Action.withCount_down {a : Action} (ha : a = .down ∨ a = .pointerDown) (n : ℕ) :
    a.withCount n = Action.withCount n .down := by
  rcases ha with rfl | rfl
  · rfl
  · rfl

theorem Action.withCount_up {a : Action} (ha : a = .up ∨ a = .pointerUp) (n : ℕ) :
    a.withCount n = Action.withCount n .up := by
  rcases ha with rfl | rfl
  · rfl
  · rfl

namespace MotionEvent

/-- What is left of an event with the pointers `ps`.  A motion and a cancellation are about all
pointers, another action is about one. -/
def restrict (ps : List Pointer) (ev : MotionEvent) : Option MotionEvent :=
  if h : ev.actionPointer ∈ ps then
    some ⟨ev.action.withCount ps.length, ps, ps.idxOf ev.actionPointer,
      List.idxOf_lt_length_of_mem h⟩
  else
    match ev.action with
    | .move | .cancel => if h : 0 < ps.length then some ⟨ev.action, ps, 0, h⟩ else none
    | _ => none

variable {ps : List Pointer} {ev : MotionEvent}

theorem restrict_of_mem (h : ev.actionPointer ∈ ps) :
    ∃ ev', ev.restrict ps = some ev' ∧ ev'.action = ev.action.withCount ps.length ∧
      ev'.pointers = ps ∧ ev'.actionPointer = ev.actionPointer := by
  rw [restrict, dif_pos h]
  exact ⟨_, rfl, rfl, rfl, List.getElem_idxOf (List.idxOf_lt_length_of_mem h)⟩

theorem restrict_of_not_mem (h : ev.actionPointer ∉ ps)
    (ha : ev.action ≠ .move ∧ ev.action ≠ .cancel) : ev.restrict ps = none := by
  rw [restrict, dif_neg h]
  cases haction : ev.action with
  | move => exact absurd haction ha.1
  | cancel => exact absurd haction ha.2
  | down => rfl
  | pointerDown => rfl
  | up => rfl
  | pointerUp => rfl

theorem restrict_nil : ev.restrict [] = none := by
  rw [restrict, dif_neg List.not_mem_nil]
  cases ev.action <;> rfl

/-- A motion and a cancellation stay as long as there are pointers. -/
theorem restrict_of_ne_nil (hne : ps ≠ []) (ha : ev.action = .move ∨ ev.action = .cancel) :
    ∃ ev', ev.restrict ps = some ev' ∧ ev'.action = ev.action ∧ ev'.pointers = ps ∧
      (ev.actionPointer ∈ ps → ev'.actionPointer = ev.actionPointer) := by
  by_cases h : ev.actionPointer ∈ ps
  · obtain ⟨ev', hev', haction, hps, hpointer⟩ := restrict_of_mem h
    refine ⟨ev', hev', haction.trans ?_, hps, fun _ => hpointer⟩
    rcases ha with ha | ha
    · rw [ha]
      rfl
    · rw [ha]
      rfl
  · rw [restrict, dif_neg h]
    rcases ha with ha | ha
    · simp only [ha]
      exact ⟨_, dif_pos (List.length_pos_iff.2 hne), rfl, rfl, fun hp => absurd hp h⟩
    · simp only [ha]
      exact ⟨_, dif_pos (List.length_pos_iff.2 hne), rfl, rfl, fun hp => absurd hp h⟩

end MotionEvent

/-- The pointers of an event that no element has taken. -/
def View.untaken (v : View) (ev : MotionEvent) : List Pointer :=
  ev.pointers.filter fun p => v.pointerOnElement.lookup p.id ≠ some true

theorem View.mem_untaken {v : View} {ev : MotionEvent} {q : Pointer} :
    q ∈ v.untaken ev ↔ q ∈ ev.pointers ∧ v.pointerOnElement.lookup q.id ≠ some true := by
  simp [View.untaken]

namespace Gesture

/-- The view that knows who has the pointers of an event: a pointer that goes down is with an
element or not when it is down. -/
def knows (g g' : Gesture) (ev : MotionEvent) : View :=
  match ev.action with
  | .down | .pointerDown => g'.view
  | _ => g.view

/-- What is left of a callback without the pointers on elements.  They alone fling. -/
def keep (g : Gesture) (c : Callback) (g' : Gesture) : Option Callback :=
  match c with
  | .touch P ev => (ev.restrict ((g.knows g' ev).untaken ev)).map (.touch P)
  | .holdDetector P => some (.holdDetector P)
  | .fling _ => none

/-- What is left of a stream without the pointers on elements. -/
def freeStream (g : Gesture) (cs : List Callback) : List Callback := purge step keep g cs

/-- The free pointers do not get in touch with those on elements. -/
def Apart (g : Gesture) : Callback → Prop
  | .touch P ev =>
    match ev.action with
    | .down | .pointerDown =>
      -- a pointer that goes down on elements goes down on one that is free
      OnElement g.view.size.snappingSize ev.actionPointer.x ev.actionPointer.y g.view.elements →
        ∃ e ∈ g.view.elements, e.currentPointerId = -1 ∧
          e.containsPoint g.view.size.snappingSize ev.actionPointer.x ev.actionPointer.y = true
    | .move => True
    | .up | .pointerUp =>
      if g.view.pointerOnElement.lookup ev.actionPointer.id = some true then
        -- a pointer leaves an element only while no hold is waited for
        g.view.holdDetectorPosted = false
      else
        -- the last free pointer leaves others behind only without a button or a tap
        g.view.freeIds g.down = [ev.actionPointer.id] → g.down ≠ [ev.actionPointer.id] →
          g.view.leftButtonHeld = false ∧ g.view.rightButtonHeld = false ∧ g.view.tapCount = 0 ∧
            ¬ g.view.CountsTap P ev
    | .cancel =>
      -- cancelled with a pointer on an element, the first free one is no tap that matters
      g.view.pointerOnElement.lookup ev.actionPointer.id = some true →
        ∀ ev', ev.restrict (g.view.untaken ev) = some ev' →
          ¬ g.view.CountsTap P ev' ∨ 2 ≤ g.view.tapCount
  | _ => True

instance (g : Gesture) : (c : Callback) → Decidable (g.Apart c)
  | .touch P ev =>
    match ha : ev.action with
    | .down | .pointerDown =>
      decidable_of_iff (OnElement g.view.size.snappingSize ev.actionPointer.x ev.actionPointer.y
          g.view.elements →
        ∃ e ∈ g.view.elements, e.currentPointerId = -1 ∧
          e.containsPoint g.view.size.snappingSize ev.actionPointer.x ev.actionPointer.y = true)
        (by simp only [Apart, ha])
    | .move => .isTrue (by simp only [Apart, ha])
    | .up | .pointerUp =>
      decidable_of_iff (if g.view.pointerOnElement.lookup ev.actionPointer.id = some true then
          g.view.holdDetectorPosted = false
        else
          g.view.freeIds g.down = [ev.actionPointer.id] → g.down ≠ [ev.actionPointer.id] →
            g.view.leftButtonHeld = false ∧ g.view.rightButtonHeld = false ∧
              g.view.tapCount = 0 ∧ ¬ g.view.CountsTap P ev)
        (by simp only [Apart, ha])
    | .cancel =>
      match hev : ev.restrict (g.view.untaken ev) with
      | none => .isTrue (by simp [Apart, ha, hev])
      | some ev' =>
        decidable_of_iff (g.view.pointerOnElement.lookup ev.actionPointer.id = some true →
            ¬ g.view.CountsTap P ev' ∨ 2 ≤ g.view.tapCount)
          (by simp [Apart, ha, hev])
  | .holdDetector _ => .isTrue trivial
  | .fling _ => .isTrue trivial

/-! ### One touch and what is left of it -/

/-- What a touch does to the free pointers `free`, the rest of it does too; without a rest it does
nothing. -/
def Answers (free : List ℕ) (w : View) (P : Platform) (rest : Option MotionEvent)
    (r : View × Calls) (free' : List ℕ) : Prop :=
  match rest with
  | none => View.Twin r.1 w ∧ Calls.own r.2 = [] ∧ free' = free
  | some ev' =>
    ev'.WellFormed free ∧ ∃ r', w.onTouchEvent P ev' = some r' ∧ View.Twin r.1 r'.1 ∧
      Calls.own r'.2 = Calls.own r.2 ∧ free' = ev'.pointersAfter free

section

variable {v w : View} {down : List ℕ} {P : Platform} {ev : MotionEvent} {r : View × Calls}

theorem untaken_eq (h : ∀ q ∈ ev.pointers, (v.pointerOnElement.lookup q.id).isSome = true) :
    v.untaken ev = v.freePointers ev := by
  refine List.filter_congr fun q hq => ?_
  obtain ⟨taken, htaken⟩ := Option.isSome_iff_exists.1 (h q hq)
  rw [htaken]
  cases taken with
  | true => rfl
  | false => rfl

theorem untaken_of_tracks (h : v.Tracks down) (hplay : v.Playing) (hids : ev.ids.Perm down) :
    v.untaken ev = v.freePointers ev :=
  untaken_eq fun _ hq => (h.entries _).2 ⟨hplay, hids.mem_iff.1 (List.mem_map_of_mem hq)⟩

theorem ids_freePointers (hids : ev.ids.Perm down) :
    ((v.freePointers ev).map Pointer.id).Perm (v.freeIds down) := by
  rw [View.freePointers_ids]
  exact hids.filter _

theorem ids_of_down (hwf : ev.WellFormed down)
    (ha : ev.action = .down ∨ ev.action = .pointerDown) :
    ev.ids.Perm (ev.actionPointer.id :: down) := by
  rcases ha with ha | ha
  · simp only [MotionEvent.WellFormed, ha] at hwf
    rw [hwf.1, hwf.2]
  · simp only [MotionEvent.WellFormed, ha] at hwf
    exact hwf.2.2

theorem ids_of_up (hwf : ev.WellFormed down) (ha : ev.action = .up ∨ ev.action = .pointerUp) :
    ev.ids.Perm down := by
  rcases ha with ha | ha
  · simp only [MotionEvent.WellFormed, ha] at hwf
    exact hwf.1
  · simp only [MotionEvent.WellFormed, ha] at hwf
    exact hwf.1

theorem actionPointer_mem_pointers (ev : MotionEvent) : ev.actionPointer ∈ ev.pointers :=
  List.get_mem _ _

theorem mem_freePointers (hlookup : v.pointerOnElement.lookup ev.actionPointer.id = some false) :
    ev.actionPointer ∈ v.freePointers ev :=
  List.mem_filter.2 ⟨actionPointer_mem_pointers ev, decide_eq_true hlookup⟩

/-- What is left of an event about a free pointer is about this one. -/
theorem restrict_free (hids : ev.ids.Perm down)
    (hlookup : v.pointerOnElement.lookup ev.actionPointer.id = some false) :
    ∃ ev', ev.restrict (v.freePointers ev) = some ev' ∧
      ev'.action = ev.action.withCount ev'.pointers.length ∧
      ev'.pointers = v.freePointers ev ∧ ev'.actionPointer = ev.actionPointer ∧
      ev'.ids.Perm (v.freeIds down) := by
  obtain ⟨ev', hev', haction, hps, hpointer⟩ :=
    MotionEvent.restrict_of_mem (mem_freePointers hlookup)
  refine ⟨ev', hev', ?_, hps, hpointer, ?_⟩
  · rw [haction, hps]
  · rw [MotionEvent.ids, hps]
    exact ids_freePointers hids

/-- A free pointer that goes down, with the others that are left. -/
theorem wellFormed_down {ev' : MotionEvent} {free : List ℕ}
    (ha : ev'.action = Action.withCount ev'.pointers.length .down)
    (hids : ev'.ids.Perm (ev'.actionPointer.id :: free)) (hnew : ev'.actionPointer.id ∉ free) :
    ev'.WellFormed free ∧ ev'.pointersAfter free = ev'.actionPointer.id :: free := by
  have hlength : ev'.pointers.length = free.length + 1 := by
    have hl := hids.length_eq
    rwa [MotionEvent.ids, List.length_map, List.length_cons] at hl
  rw [hlength] at ha
  cases free with
  | nil =>
    have ha : ev'.action = .down := ha
    simp only [MotionEvent.WellFormed, MotionEvent.pointersAfter, ha, and_true]
    exact ⟨trivial, List.perm_singleton.1 hids⟩
  | cons id free =>
    have ha : ev'.action = .pointerDown := by
      rw [ha, Action.withCount, if_neg (by simp)]
    simp only [MotionEvent.WellFormed, MotionEvent.pointersAfter, ha, and_true]
    exact ⟨List.cons_ne_nil _ _, hnew, hids⟩

/-- A free pointer that goes up, with the others that are left. -/
theorem wellFormed_up {ev' : MotionEvent} {free : List ℕ}
    (ha : ev'.action = Action.withCount ev'.pointers.length .up) (hids : ev'.ids.Perm free) :
    ev'.WellFormed free ∧ ev'.pointersAfter free = free.erase ev'.actionPointer.id ∧
      (ev'.action = .up ∧ free = [ev'.actionPointer.id] ∨
        ev'.action = .pointerUp ∧ free ≠ [ev'.actionPointer.id]) := by
  have hmem : ev'.actionPointer.id ∈ free := hids.mem_iff.1 ev'.actionPointer_mem
  have hlength : ev'.pointers.length = free.length := by
    have hl := hids.length_eq
    rwa [MotionEvent.ids, List.length_map] at hl
  rw [hlength] at ha
  by_cases hone : free.length = 1
  · rw [Action.withCount, if_pos hone] at ha
    obtain ⟨id, rfl⟩ := List.length_eq_one_iff.1 hone
    obtain rfl := List.mem_singleton.1 hmem
    refine ⟨?_, ?_, Or.inl ⟨ha, rfl⟩⟩
    · simp only [MotionEvent.WellFormed, ha]
      exact ⟨hids, rfl⟩
    · simp only [MotionEvent.pointersAfter, ha]
  · rw [Action.withCount, if_neg hone] at ha
    have hpos := List.length_pos_of_mem hmem
    refine ⟨?_, ?_, Or.inr ⟨ha, ?_⟩⟩
    · simp only [MotionEvent.WellFormed, ha]
      exact ⟨hids, by omega⟩
    · simp only [MotionEvent.pointersAfter, ha]
    · rintro rfl
      exact hone rfl

end

section

variable {v w : View} {down : List ℕ} {P : Platform} {ev : MotionEvent} {r : View × Calls}

/-- An element takes the pointer that goes down, and nothing is left of the event. -/
theorem answers_down_taken (hw : w.Tracks (v.freeIds down)) (htwin : View.Twin v w)
    (hplay : v.Playing) (hnew : ev.actionPointer.id ∉ down)
    (ha : ev.action = .down ∨ ev.action = .pointerDown) {es : List Element} {cs : Calls}
    (hboxes : boxes v.size.snappingSize es = boxes v.size.snappingSize v.elements)
    (hown : Calls.own cs = []) :
    Answers (v.freeIds down) w P
      (ev.restrict (((v.withElements es).enter ev.actionPointer.id true).untaken ev))
      ((v.withElements es).enter ev.actionPointer.id true, cs)
      (((v.withElements es).enter ev.actionPointer.id true).freeIds
        (ev.actionPointer.id :: down)) := by
  have hentry : ((v.withElements es).enter ev.actionPointer.id true).pointerOnElement.lookup
      ev.actionPointer.id = some true := AList.lookup_insert _
  have hgone : ev.actionPointer ∉ ((v.withElements es).enter ev.actionPointer.id
      true).untaken ev := fun hmem => (View.mem_untaken.1 hmem).2 hentry
  have hnone : w.pointerOnElement.lookup ev.actionPointer.id = none := by
    by_contra hsome
    have hmem := ((hw.entries _).1 (Option.isSome_iff_ne_none.2 hsome)).2
    exact hnew (View.mem_freeIds.1 hmem).1
  rw [MotionEvent.restrict_of_not_mem hgone
    (by rcases ha with ha | ha <;> rw [ha] <;> exact ⟨by decide, by decide⟩)]
  exact ⟨(htwin.withElements_left hplay.2.1 hboxes).enter_left hnone, hown,
    View.freeIds_enter hnew true (v.withElements es)⟩

/-- No element takes the pointer that goes down, as it is beside all of them. -/
theorem answers_down_free (hv : v.Tracks down) (htwin : View.Twin v w) (hplay : v.Playing)
    (hwf : ev.WellFormed down) (ha : ev.action = .down ∨ ev.action = .pointerDown)
    {es : List Element} {cs : Calls}
    (hboxes : boxes v.size.snappingSize es = boxes v.size.snappingSize v.elements)
    (hown : Calls.own cs = [])
    (hbeside : ¬ OnElement v.size.snappingSize ev.actionPointer.x ev.actionPointer.y w.elements) :
    Answers (v.freeIds down) w P
      (ev.restrict ((((v.withElements es).enter ev.actionPointer.id false).freePointerDown P
        ev).untaken ev))
      (((v.withElements es).enter ev.actionPointer.id false).freePointerDown P ev, cs)
      ((((v.withElements es).enter ev.actionPointer.id false).freePointerDown P ev).freeIds
        (ev.actionPointer.id :: down)) := by
  have hplay' := htwin.playing.2 hplay
  have hnew := not_mem_down hwf ha
  have hids := ids_of_down hwf ha
  have hsame := View.sameFingers_withElements es v
  have hhost : w.host P = v.host P := by
    obtain ⟨p, m, s, rfl⟩ := htwin.exists_apart
    rfl
  obtain ⟨es', hes', hidle⟩ := htwin.idle.touchDownElements (H := v.host P) hbeside
    ev.actionPointer.id
  have hboxes' : boxes (v.host P).snappingSize es' = boxes (v.host P).snappingSize w.elements :=
    boxes_touchDownElements hes'
  have hentered : View.Twin ((v.withElements es).enter ev.actionPointer.id false)
      ((w.withElements es').enter ev.actionPointer.id false) :=
    (htwin.withElements hplay.2.1 hboxes hboxes' hidle).enter _
  -- the pointers that are left are the free ones
  have huntaken : (((v.withElements es).enter ev.actionPointer.id false).freePointerDown P
      ev).untaken ev =
      ((v.withElements es).enter ev.actionPointer.id false).freePointers ev := by
    rw [View.untaken, (View.freePointerDown_spec P ev _).1]
    refine untaken_eq fun q hq => ?_
    refine (View.entries_enter (hv.congr hsame).entries (hsame.playing.2 hplay) false q.id).2
      ⟨hsame.playing.2 hplay, ?_⟩
    exact hids.mem_iff.1 (List.mem_map_of_mem hq)
  obtain ⟨ev', hev', haction, hps, hpointer, hids'⟩ :=
    restrict_free (v := (v.withElements es).enter ev.actionPointer.id false) hids
      (AList.lookup_insert _)
  rw [View.freeIds_enter hnew, if_neg Bool.false_ne_true, hsame.freeIds, ← hpointer] at hids'
  rw [Action.withCount_down ha] at haction
  have hdown' : ev'.action = .down ∨ ev'.action = .pointerDown := by
    rw [haction, Action.withCount]
    split_ifs
    · exact Or.inl rfl
    · exact Or.inr rfl
  obtain ⟨hwf', hafter⟩ := wellFormed_down haction hids' fun hmem' => by
    rw [hpointer] at hmem'
    exact hnew (View.mem_freeIds.1 hmem').1
  rw [huntaken, hev']
  refine ⟨hwf', (((w.withElements es').enter ev.actionPointer.id false).freePointerDown P ev',
    []), ?_, ?_, ?_, ?_⟩
  · rw [View.onTouchEvent_down hplay' hdown', View.touchDown, hpointer, hhost, hes']
    rfl
  · exact hentered.freePointerDown hps (List.ne_nil_of_mem (mem_freePointers (AList.lookup_insert _)))
      hpointer P
  · exact hown.symm
  · rw [hafter, hpointer]
    exact View.freeIds_freePointerDown hnew P (v.withElements es)

/-- A pointer that goes down: an element takes it, or it is beside all of them. -/
theorem answers_down (hv : v.Tracks down) (hw : w.Tracks (v.freeIds down)) (htwin : View.Twin v w)
    (hplay : v.Playing) (hwf : ev.WellFormed down)
    (ha : ev.action = .down ∨ ev.action = .pointerDown) (hr : v.touchDown P ev = some r)
    (hland : OnElement v.size.snappingSize ev.actionPointer.x ev.actionPointer.y v.elements →
      ∃ e ∈ v.elements, e.currentPointerId = -1 ∧
        e.containsPoint v.size.snappingSize ev.actionPointer.x ev.actionPointer.y = true) :
    Answers (v.freeIds down) w P (ev.restrict (r.1.untaken ev)) r
      (r.1.freeIds (ev.actionPointer.id :: down)) := by
  obtain ⟨t, ht, rfl⟩ := Option.map_eq_some_iff.1 hr
  have hboxes := boxes_touchDownElements ht
  have hown := own_touchDownElements ht
  obtain ⟨taken, es, cs⟩ := t
  cases taken with
  | true => exact answers_down_taken hw htwin hplay (not_mem_down hwf ha) ha hboxes hown
  | false =>
    refine answers_down_free hv htwin hplay hwf ha hboxes hown ?_
    rw [onElement_iff, htwin.boxes, ← onElement_iff]
    exact fun hon => absurd (taken_of_free ht (hland hon)) Bool.false_ne_true

/-- The pointers move. -/
theorem answers_move (hv : v.Tracks down) (htwin : View.Twin v w) (hplay : v.Playing)
    (hwf : ev.WellFormed down) (ha : ev.action = .move) :
    Answers (v.freeIds down) w P (ev.restrict (v.untaken ev)) (v.touchMove P ev)
      ((v.touchMove P ev).1.freeIds down) := by
  have hplay' := htwin.playing.2 hplay
  simp only [MotionEvent.WellFormed, ha] at hwf
  have hfreeIds := View.freeIds_touchMove P ev hv.still down
  have hmoved := htwin.withElements_left hplay.2.1
    (boxes_touchMoveElements (v.host P) ev.pointers v.elements)
  rw [untaken_of_tracks hv hplay hwf]
  by_cases hnil : v.freePointers ev = []
  · -- without free pointers nothing moves
    have hcount : v.freePointerCount = 0 := by
      have hlength := View.length_freePointers (v := v) hwf
      rw [hnil, List.length_nil] at hlength
      rw [hv.count, ← hlength]
      rfl
    have hcalls : (v.withElements (touchMoveElements (v.host P) ev.pointers
        v.elements).1).moveFreePointers P ev =
        (v.withElements (touchMoveElements (v.host P) ev.pointers v.elements).1, []) :=
      View.moveFreePointers_none (v := v.withElements _) hnil hcount P
    rw [hnil, MotionEvent.restrict_nil]
    refine ⟨?_, ?_, hfreeIds⟩
    · rw [View.touchMove, hcalls]
      exact hmoved
    · rw [View.own_touchMove, hcalls]
  · obtain ⟨ev', hev', haction, hps, -⟩ := MotionEvent.restrict_of_ne_nil hnil (Or.inl ha)
    rw [hev']
    have hids' : ev'.ids.Perm (v.freeIds down) := by
      rw [MotionEvent.ids, hps]
      exact ids_freePointers hwf
    have hidle := htwin.idle.touchMoveElements (w.host P) ev'.pointers
    have hboxes : boxes (v.host P).snappingSize (touchMoveElements (v.host P) ev.pointers
        v.elements).1 = boxes (v.host P).snappingSize v.elements :=
      boxes_touchMoveElements _ _ _
    have hps' : ev'.pointers = (v.withElements (touchMoveElements (v.host P) ev.pointers
        v.elements).1).freePointers ev := hps
    obtain ⟨htwin', hcalls⟩ := (htwin.withElements hplay.2.1 hboxes rfl
      htwin.idle).moveFreePointers hps' hnil hv.still P
    refine ⟨?_, w.touchMove P ev', ?_, ?_, ?_, ?_⟩
    · simp only [MotionEvent.WellFormed, haction, ha]
      exact hids'
    · simp only [View.onTouchEvent_playing hplay', haction, ha]
    · rw [View.touchMove, View.touchMove, hidle]
      exact htwin'
    · rw [View.own_touchMove, View.own_touchMove, hidle]
      exact hcalls
    · simp only [MotionEvent.pointersAfter, haction, ha]
      exact hfreeIds

/-- `ACTION_UP` and `ACTION_CANCEL` end the gesture. -/
theorem touchUp_last (ha : ev.action = .up ∨ ev.action = .cancel) (P : Platform) (v : View) :
    (v.touchUp P ev).1 = ((v.afterUp P ev).allPointersReleased P).1 ∧
      Calls.own (v.touchUp P ev).2 = ((v.afterUp P ev).allPointersReleased P).2 := by
  rw [View.own_touchUp, View.touchUp_eq, if_pos (ha.imp_right Or.inl),
    if_pos (ha.imp_right Or.inl)]
  exact ⟨rfl, rfl⟩

/-- A pointer leaves an element. -/
theorem answers_up_taken (hv : v.Tracks down) (htwin : View.Twin v w) (hplay : v.Playing)
    (hnodup : down.Nodup) (hwf : ev.WellFormed down)
    (hrest : v.freeIds down = [] →
      v.leftButtonHeld = false ∧ v.rightButtonHeld = false ∧ v.tapCount = 0)
    (ha : ev.action = .up ∨ ev.action = .pointerUp)
    (hlookup : v.pointerOnElement.lookup ev.actionPointer.id = some true)
    (hposted : v.holdDetectorPosted = false) :
    Answers (v.freeIds down) w P (ev.restrict (v.untaken ev)) (v.touchUp P ev)
      ((v.touchUp P ev).1.freeIds (down.erase ev.actionPointer.id)) := by
  have hgone : ev.actionPointer ∉ v.untaken ev := fun hmem => (View.mem_untaken.1 hmem).2 hlookup
  have hnot : ev.actionPointer.id ∉ v.freeIds down := by
    rw [View.mem_freeIds, hlookup]
    simp
  rw [MotionEvent.restrict_of_not_mem hgone
    (by rcases ha with ha | ha <;> rw [ha] <;> exact ⟨by decide, by decide⟩)]
  rcases ha with ha | ha
  · -- it was the last
    simp only [MotionEvent.WellFormed, ha] at hwf
    obtain ⟨id, rfl⟩ := List.length_eq_one_iff.1 hwf.2
    have hid := hwf.1.mem_iff.1 ev.actionPointer_mem
    obtain rfl := List.mem_singleton.1 hid
    have hnil : v.freeIds [ev.actionPointer.id] = [] :=
      List.eq_nil_iff_forall_not_mem.2 fun id hmem => by
        obtain rfl := List.mem_singleton.1 (View.mem_freeIds.1 hmem).1
        exact hnot hmem
    obtain ⟨hlast, hown⟩ := touchUp_last (Or.inl ha) P v
    obtain ⟨htwin', hcalls⟩ := htwin.released_left hv hnodup hplay hid hnil (hrest hnil) P
    rw [Answers, hlast, hown, hnil, List.erase_cons_head]
    exact ⟨htwin', hcalls, rfl⟩
  · obtain ⟨-, heq, hown⟩ := touchUp_pointerUp hv hnodup hplay hwf ha P
    rw [Answers, heq, hown, View.freeIds_afterUp hnodup, List.erase_of_not_mem hnot]
    exact ⟨htwin.afterUp_left hplay.2.1 hv hposted hlookup P, rfl, rfl⟩

/-- A free pointer goes up. -/
theorem answers_up_free (hv : v.Tracks down) (hw : w.Tracks (v.freeIds down))
    (htwin : View.Twin v w) (hplay : v.Playing) (hnodup : down.Nodup) (hwf : ev.WellFormed down)
    (ha : ev.action = .up ∨ ev.action = .pointerUp)
    (hlookup : v.pointerOnElement.lookup ev.actionPointer.id = some false)
    (hlast : v.freeIds down = [ev.actionPointer.id] → down ≠ [ev.actionPointer.id] →
      (v.afterUp P ev).leftButtonHeld = false ∧ (v.afterUp P ev).rightButtonHeld = false ∧
        (v.afterUp P ev).tapCount = 0) :
    Answers (v.freeIds down) w P (ev.restrict (v.untaken ev)) (v.touchUp P ev)
      ((v.touchUp P ev).1.freeIds (down.erase ev.actionPointer.id)) := by
  have hplay' := htwin.playing.2 hplay
  have hids := ids_of_up hwf ha
  have hid := hids.mem_iff.1 ev.actionPointer_mem
  rw [untaken_of_tracks hv hplay hids]
  obtain ⟨ev', hev', haction, hps, hpointer, hids'⟩ := restrict_free (v := v) hids hlookup
  rw [Action.withCount_up ha] at haction
  obtain ⟨hwf', hafter, hcases⟩ := wellFormed_up haction hids'
  rw [hpointer] at hafter hcases
  have htwin' := htwin.afterUp hplay.2.1 hpointer hlookup hps P
  rw [hev', Answers]
  have hup' : ev'.action = .up ∨ ev'.action = .pointerUp ∨ ev'.action = .cancel := by
    rcases hcases with ⟨h, -⟩ | ⟨h, -⟩
    · exact Or.inl h
    · exact Or.inr (Or.inl h)
  refine ⟨hwf', w.touchUp P ev', View.onTouchEvent_up hplay' hup' P, ?_⟩
  rw [hafter]
  rcases hcases with ⟨ha', hone⟩ | ⟨ha', hmore⟩
  · -- it was the last free one
    obtain ⟨hlast', hown'⟩ := touchUp_last (Or.inl ha') P w
    rw [hlast', hown']
    rcases ha with ha | ha
    · obtain ⟨hlast, hown⟩ := touchUp_last (Or.inl ha) P v
      obtain ⟨hreleased, hcalls⟩ := htwin'.allPointersReleased P
      rw [hlast, hown]
      refine ⟨hreleased, hcalls, ?_⟩
      have hnil := pointersAfter_end hwf (Or.inl ha)
      simp only [MotionEvent.pointersAfter, ha] at hnil
      rw [hnil, hone, List.erase_cons_head]
      rfl
    · obtain ⟨hne, heq, hown⟩ := touchUp_pointerUp hv hnodup hplay hwf ha P
      have hrest := hlast hone fun hdown => hne (by rw [hdown, List.erase_cons_head])
      have hnil : (v.afterUp P ev).freeIds (down.erase ev.actionPointer.id) = [] := by
        rw [View.freeIds_afterUp hnodup, hone, List.erase_cons_head]
      obtain ⟨hreleased, hcalls⟩ := htwin'.released_right
        (View.tracks_afterUp hv hnodup hplay hid P) hnil hrest P
      rw [heq, hown, hcalls]
      exact ⟨hreleased, rfl, View.freeIds_afterUp hnodup P ev v⟩
  · have ha : ev.action = .pointerUp := by
      rcases ha with ha | ha
      · simp only [MotionEvent.WellFormed, ha] at hwf
        obtain ⟨id, rfl⟩ := List.length_eq_one_iff.1 hwf.2
        obtain rfl := List.mem_singleton.1 hid
        refine absurd ?_ hmore
        simp [View.freeIds, hlookup]
      · exact ha
    obtain ⟨-, heq, hown⟩ := touchUp_pointerUp hv hnodup hplay hwf ha P
    obtain ⟨-, heq', hown'⟩ := touchUp_pointerUp hw (hnodup.filter _) hplay' hwf' ha' P
    rw [heq, hown, heq', hown']
    exact ⟨htwin', rfl, View.freeIds_afterUp hnodup P ev v⟩

/-- The gesture is taken away. -/
theorem answers_cancel (hv : v.Tracks down) (htwin : View.Twin v w) (hplay : v.Playing)
    (hnodup : down.Nodup) (hwf : ev.WellFormed down)
    (hrest : v.freeIds down = [] →
      v.leftButtonHeld = false ∧ v.rightButtonHeld = false ∧ v.tapCount = 0)
    (ha : ev.action = .cancel)
    (htap : v.pointerOnElement.lookup ev.actionPointer.id = some true →
      ∀ ev', ev.restrict (v.untaken ev) = some ev' → ¬ v.CountsTap P ev' ∨ 2 ≤ v.tapCount) :
    Answers (v.freeIds down) w P (ev.restrict (v.untaken ev)) (v.touchUp P ev)
      ((v.touchUp P ev).1.freeIds []) := by
  have hplay' := htwin.playing.2 hplay
  simp only [MotionEvent.WellFormed, ha] at hwf
  have hid := hwf.mem_iff.1 ev.actionPointer_mem
  obtain ⟨hlast, hown⟩ := touchUp_last (P := P) (Or.inr ha) v
  have huntaken := untaken_of_tracks hv hplay hwf
  have hperm := ids_freePointers (v := v) hwf
  by_cases hps : v.freePointers ev = []
  · have hnil : v.freeIds down = [] := by
      rw [hps] at hperm
      exact List.nil_perm.1 hperm
    obtain ⟨htwin', hcalls⟩ := htwin.released_left hv hnodup hplay hid hnil (hrest hnil) P
    rw [huntaken, hps, MotionEvent.restrict_nil, Answers, hlast, hown, hnil]
    exact ⟨htwin', hcalls, rfl⟩
  · obtain ⟨ev', hev', haction, hpointers, hsame⟩ :=
      MotionEvent.restrict_of_ne_nil hps (Or.inr ha)
    rw [huntaken, hev'] at htap ⊢
    rw [ha] at haction
    have hids' : ev'.ids.Perm (v.freeIds down) := by
      rw [MotionEvent.ids, hpointers]
      exact hperm
    obtain ⟨hlast', hown'⟩ := touchUp_last (P := P) (Or.inr haction) w
    refine ⟨?_, w.touchUp P ev', View.onTouchEvent_up hplay' (Or.inr (Or.inr haction)) P, ?_⟩
    · simp only [MotionEvent.WellFormed, haction]
      exact hids'
    rw [hlast, hown, hlast', hown']
    simp only [MotionEvent.pointersAfter, haction]
    -- all entries are cleared, so that only what is sent can differ
    have htwin' := (htwin.handleTouchUp hplay.2.1 ev.actionPointer.id ev'.actionPointer.id
      P).allPointersReleased P
    refine ⟨?_, ?_, rfl⟩
    · rw [View.afterUp, View.afterUp, View.released_removePointer, View.released_removePointer]
      exact htwin'.1
    obtain ⟨taken, hlookup⟩ := Option.isSome_iff_exists.1 ((hv.entries _).2 ⟨hplay, hid⟩)
    cases taken with
    | false =>
      have hpointer := hsame (mem_freePointers hlookup)
      exact ((htwin.afterUp hplay.2.1 hpointer hlookup hpointers P).allPointersReleased P).2
    | true =>
      have hlookup' : w.pointerOnElement.lookup ev'.actionPointer.id = some false :=
        (htwin.free _).2 (View.mem_freeIds.1 (hids'.mem_iff.1 ev'.actionPointer_mem)).2
      have htouched := View.touched_afterUp P ev hplay.2.1
      have htouched' := View.touched_afterUp P ev' hplay'.2.1
      obtain ⟨hl, hr, hactive, htaps⟩ := htwin.taps
      refine View.clicks_congr ?_ ?_ ?_ ?_ P
      · rw [htouched.leftButtonHeld, htouched'.leftButtonHeld, hl]
      · rw [htouched.rightButtonHeld, htouched'.rightButtonHeld, hr]
      · rw [View.twoFingerScrollActive_afterUp, View.twoFingerScrollActive_afterUp, hactive]
      · rw [View.tapCount_afterUp_taken hlookup]
        rcases View.tapCount_afterUp_free hlookup' P with hcount | ⟨hcounts, hcount⟩
        · exact Or.inl (hcount.trans htaps)
        · have hmany := (htap hlookup ev' rfl).resolve_left
            (not_not.2 (htwin.countsTap.1 hcounts))
          rw [hcount, htaps]
          exact Or.inr ⟨by omega, hmany⟩

end

/-! ### A stream and what is left of it -/

/-- The one gesture is what is left of the other without the pointers on elements. -/
structure Twin (g t : Gesture) : Prop where
  tracked : g.Tracked
  tracked' : t.Tracked
  playing : g.view.Playing
  view : View.Twin g.view t.view
  down : t.down = g.view.freeIds g.down
  own : Calls.own t.view.sent = Calls.own g.view.sent

section

variable {g t : Gesture} {P : Platform} {ev : MotionEvent} {r : View × Calls}

theorem Twin.tracks (h : Twin g t) : t.view.Tracks (g.view.freeIds g.down) :=
  h.down ▸ h.tracked'.tracks

theorem Twin.rest (h : Twin g t) (hnil : g.view.freeIds g.down = []) :
    g.view.leftButtonHeld = false ∧ g.view.rightButtonHeld = false ∧ g.view.tapCount = 0 := by
  obtain ⟨hl, hr, -, htaps⟩ := h.view.taps
  rw [← hl, ← hr, ← htaps]
  exact h.tracked'.rest (Or.inr (h.down.trans hnil))

theorem Twin.inputSender (h : Twin g t) : t.view.inputSender = g.view.inputSender := by
  obtain ⟨p, m, s, heq⟩ := h.view.exists_apart
  rw [heq]
  rfl

/-- Both deliver the same calls. -/
theorem Twin.own_deliver (h : Twin g t) {r r' : View × Calls} (hr : Calls.own r'.2 = Calls.own r.2) :
    Calls.own (t.view.deliver r').sent = Calls.own (g.view.deliver r).sent := by
  show Calls.own (t.view.sent ++ if t.view.inputSender then r'.2 else []) =
    Calls.own (g.view.sent ++ if g.view.inputSender then r.2 else [])
  rw [Calls.own_append, Calls.own_append, h.own, h.inputSender]
  split_ifs
  · rw [hr]
  · rfl

theorem Twin.own_left (h : Twin g t) (hr : Calls.own r.2 = []) :
    Calls.own t.view.sent = Calls.own (g.view.deliver r).sent := by
  show _ = Calls.own (g.view.sent ++ if g.view.inputSender then r.2 else [])
  rw [Calls.own_append, h.own]
  split_ifs
  · rw [hr, List.append_nil]
  · exact (List.append_nil _).symm

/-- A pointer goes up, on an element or free. -/
theorem Twin.answers_up (h : Twin g t) (hwf : ev.WellFormed g.down)
    (ha : ev.action = .up ∨ ev.action = .pointerUp) (hapart : g.Apart (.touch P ev)) :
    Answers (g.view.freeIds g.down) t.view P (ev.restrict (g.view.untaken ev))
      (g.view.touchUp P ev) ((g.view.touchUp P ev).1.freeIds
        (g.down.erase ev.actionPointer.id)) := by
  have hcond : if g.view.pointerOnElement.lookup ev.actionPointer.id = some true then
      g.view.holdDetectorPosted = false
    else
      g.view.freeIds g.down = [ev.actionPointer.id] → g.down ≠ [ev.actionPointer.id] →
        g.view.leftButtonHeld = false ∧ g.view.rightButtonHeld = false ∧
          g.view.tapCount = 0 ∧ ¬ g.view.CountsTap P ev := by
    rcases ha with ha | ha
    · simpa only [Apart, ha] using hapart
    · simpa only [Apart, ha] using hapart
  have hid := (ids_of_up hwf ha).mem_iff.1 ev.actionPointer_mem
  obtain ⟨taken, hlookup⟩ := Option.isSome_iff_exists.1
    ((h.tracked.tracks.entries _).2 ⟨h.playing, hid⟩)
  rw [hlookup] at hcond
  cases taken with
  | true =>
    rw [if_pos rfl] at hcond
    exact answers_up_taken h.tracked.tracks h.view h.playing h.tracked.nodup hwf h.rest ha
      hlookup hcond
  | false =>
    rw [if_neg (by simp)] at hcond
    refine answers_up_free h.tracked.tracks h.tracks h.view h.playing h.tracked.nodup hwf ha
      hlookup fun hone hmore => ?_
    obtain ⟨hl, hr, htaps, hcounts⟩ := hcond hone hmore
    have htouched := View.touched_afterUp P ev h.playing.2.1
    refine ⟨htouched.leftButtonHeld.trans hl, htouched.rightButtonHeld.trans hr, ?_⟩
    rcases View.tapCount_afterUp_free hlookup P with hcount | ⟨hyes, -⟩
    · exact hcount.trans htaps
    · exact absurd hyes hcounts

/-- What is left of a touch answers it. -/
theorem Twin.answers (h : Twin g t) (hwf : ev.WellFormed g.down) (hapart : g.Apart (.touch P ev))
    (hr : g.view.onTouchEvent P ev = some r) :
    Answers (g.view.freeIds g.down) t.view P (ev.restrict
        ((g.knows ⟨g.view.deliver r, ev.pointersAfter g.down⟩ ev).untaken ev)) r
      (r.1.freeIds (ev.pointersAfter g.down)) := by
  unfold knows MotionEvent.pointersAfter
  cases ha : ev.action with
  | down =>
    rw [View.onTouchEvent_down h.playing (Or.inl ha)] at hr
    simp only [Apart, ha] at hapart
    exact answers_down h.tracked.tracks h.tracks h.view h.playing hwf (Or.inl ha) hr hapart
  | pointerDown =>
    rw [View.onTouchEvent_down h.playing (Or.inr ha)] at hr
    simp only [Apart, ha] at hapart
    exact answers_down h.tracked.tracks h.tracks h.view h.playing hwf (Or.inr ha) hr hapart
  | move =>
    simp only [View.onTouchEvent_playing h.playing, ha, Option.some.injEq] at hr
    subst hr
    exact answers_move h.tracked.tracks h.view h.playing hwf ha
  | up =>
    rw [View.onTouchEvent_up h.playing (Or.inl ha), Option.some.injEq] at hr
    subst hr
    exact h.answers_up hwf (Or.inl ha) hapart
  | pointerUp =>
    rw [View.onTouchEvent_up h.playing (Or.inr (Or.inl ha)), Option.some.injEq] at hr
    subst hr
    exact h.answers_up hwf (Or.inr ha) hapart
  | cancel =>
    rw [View.onTouchEvent_up h.playing (Or.inr (Or.inr ha)), Option.some.injEq] at hr
    subst hr
    simp only [Apart, ha] at hapart
    exact answers_cancel h.tracked.tracks h.view h.playing h.tracked.nodup hwf h.rest ha hapart

/-- **One callback and what is left of it.** -/
theorem Twin.step {g' : Gesture} {c : Callback} (h : Twin g t) (hwf : g.WellFormed c)
    (hapart : g.Apart c) (hs : g.step c = some g') :
    ∃ t', tryExec step t (keep g c g').toList = some t' ∧ Twin g' t' := by
  have htracked := h.tracked.step hwf hs
  obtain ⟨r, hr, rfl⟩ := step_eq hs
  have hplaying := (View.frame_run hr).playing.2 h.playing
  cases c with
  | fling ref =>
    obtain rfl := Option.some.inj hr
    refine ⟨t, rfl, htracked, h.tracked', hplaying, ?_, h.down, h.own_left rfl⟩
    refine (h.view.withElements_left h.playing.2.1 ?_).deliver_left _ _
    rw [boxes, boxes, List.map_map]
    refine List.map_congr_left fun e _ => ?_
    show Element.getBoundingBox _ (if e.ref = ref then e.runFling else e) = _
    split_ifs
    · exact e.getBoundingBox_runFling _
    · rfl
  | holdDetector P =>
    obtain rfl := Option.some.inj hr
    obtain ⟨htwin, hcalls⟩ := h.view.runHoldDetector P
    have hstep : t.step (.holdDetector P) =
        some ⟨t.view.deliver (t.view.runHoldDetector P), t.down⟩ := rfl
    refine ⟨_, (by rw [keep, Option.toList, tryExec, hstep]; rfl), htracked, ?_, hplaying,
      htwin.deliver _ _ _ _, ?_, h.own_deliver (congrArg Calls.own hcalls)⟩
    · exact h.tracked'.step (c := .holdDetector P) trivial hstep
    · show t.down = (g.view.runHoldDetector P).1.freeIds g.down
      rw [h.down, View.freeIds, View.freeIds, View.pointerOnElement_runHoldDetector]
  | touch P ev =>
    have hanswers := h.answers hwf hapart hr
    show ∃ t', tryExec Gesture.step t (Option.map (Callback.touch P) (ev.restrict ((g.knows
      ⟨g.view.deliver r, ev.pointersAfter g.down⟩ ev).untaken ev))).toList = some t' ∧ _
    generalize ev.restrict ((g.knows ⟨g.view.deliver r, ev.pointersAfter g.down⟩ ev).untaken ev) =
      rest at hanswers ⊢
    cases rest with
    | none =>
      obtain ⟨htwin, hown, hfree⟩ := hanswers
      exact ⟨t, rfl, htracked, h.tracked', hplaying, htwin.deliver_left _ _,
        h.down.trans hfree.symm, h.own_left hown⟩
    | some ev' =>
      obtain ⟨hwf', r', hr', htwin, hown, hfree⟩ := hanswers
      rw [← h.down] at hwf' hfree
      have hstep : t.step (.touch P ev') =
          some ⟨t.view.deliver r', ev'.pointersAfter t.down⟩ := by
        rw [Gesture.step, View.step, Callback.run, hr']
        rfl
      refine ⟨_, (by rw [Option.map_some, Option.toList, tryExec, hstep]; rfl), htracked, ?_,
        hplaying, htwin.deliver _ _ _ _, hfree.symm, h.own_deliver hown⟩
      exact h.tracked'.step (c := .touch P ev') hwf' hstep

end

/-- The beginning, without pointers. -/
theorem twin_start {v : View} (hstart : v.Start) (hrest : v.Untouched) (hplay : v.Playing) :
    Twin { view := v } { view := v } :=
  { tracked := tracked_start hrest
    tracked' := tracked_start hrest
    playing := hplay
    view :=
      { apart := rfl
        profile := rfl
        free := fun _ => Iff.rfl
        idle := fun e he => ⟨(hstart.fresh e he).currentPointerId, hstart.attached e he⟩
        boxes := rfl }
    down := rfl
    own := rfl }

end Gesture

/-! ### What the input sender hears of the mouse -/

/-- The outputs that are no keys: buttons, motions and scrolls. -/
def Calls.pointing (cs : Calls) : List Output :=
  (cs.map Prod.snd).filter fun o =>
    match o with
    | .onKeyEvent _ _ => false
    | _ => true

theorem Calls.pointing_append (cs cs' : Calls) :
    Calls.pointing (cs ++ cs') = Calls.pointing cs ++ Calls.pointing cs' := by
  rw [Calls.pointing, List.map_append, List.filter_append]
  rfl

/-- Elements without the mouse send keys. -/
theorem NoMouse.allSend {es : List Element} (h : NoMouse es) :
    AllSend (fun o => ∃ b d, o = .onKeyEvent b d) es := by
  intro e he o ho
  cases o with
  | onKeyEvent b d => exact ⟨b, d, rfl⟩
  | onPointerButton n d =>
    obtain ⟨b, hb, hs⟩ := ho
    rw [signal_of_not_isMouse (h e he b hb)] at hs
    cases hs
  | onPointerMove dx dy =>
    obtain ⟨b, hb, hs⟩ := ho
    exact absurd ((h e he b hb).symm.trans hs) Bool.false_ne_true
  | onScroll dx dy =>
    obtain ⟨b, hb, hs⟩ := ho
    exact absurd ((h e he b hb).symm.trans hs) Bool.false_ne_true

/-- Then all that is heard of the mouse is the view's own. -/
theorem pointing_own {cs : Calls} (h : OwnOr (fun o => ∃ b d, o = .onKeyEvent b d) cs) :
    Calls.pointing cs = Calls.pointing (Calls.own cs) := by
  refine h.eq_own Calls.pointing_append fun s o ho => ?_
  obtain ⟨b, d, rfl⟩ := ho
  rfl

/-! ### Without play -/

theorem View.touchEdit_total {v : View} (h : ∀ e ∈ v.elements, e.view = true) (ev : MotionEvent) :
    ∃ v', v.touchEdit ev = some v' := by
  unfold touchEdit
  cases ev.action with
  | down =>
    obtain ⟨s, hs, -⟩ := intersectElement_total v.size.snappingSize ev.firstPointer.x
      ev.firstPointer.y h
    exact ⟨_, Option.map_eq_some_iff.2 ⟨s, hs, rfl⟩⟩
  | pointerDown => exact ⟨_, rfl⟩
  | move => exact ⟨_, rfl⟩
  | up => exact ⟨_, rfl⟩
  | pointerUp => exact ⟨_, rfl⟩
  | cancel => exact ⟨_, rfl⟩

namespace Gesture

/-- Of the elements the input sender hears keys only. -/
structure Keys (g : Gesture) : Prop where
  kept : g.view.Kept
  attached : ∀ e ∈ g.view.elements, e.view = true
  noMouse : NoMouse g.view.elements
  sent : OwnOr (fun o => ∃ b d, o = .onKeyEvent b d) g.view.sent

theorem Keys.step {g g' : Gesture} {c : Callback} (h : g.Keys) (hs : g.step c = some g') :
    g'.Keys := by
  obtain ⟨v, hv, rfl⟩ := Option.map_eq_some_iff.1 hs
  have hsame := View.sameControls_step h.kept hv
  have hno := hsame.bindings (Q := fun bs => ∀ b ∈ bs, b.isMouse = false) h.noMouse
  refine ⟨h.kept.step hv, hsame.view h.attached, hno, ?_⟩
  obtain ⟨r, hr, rfl⟩ := Option.map_eq_some_iff.1 hv
  show OwnOr _ (g.view.sent ++ if g.view.inputSender then r.2 else [])
  refine h.sent.append ?_
  split_ifs
  · exact View.ownOr_run hr h.noMouse.allSend
  · exact ownOr_nil

theorem keys_start {v : View} (h : v.Start) (hno : NoMouse v.elements) :
    Keys { view := v } := by
  refine ⟨h.kept, h.attached, hno, ?_⟩
  show OwnOr _ v.sent
  rw [h.sent]
  exact ownOr_nil

theorem keys_exec {v : View} {g : Gesture} {cs : List Callback} (hstart : v.Start)
    (hno : NoMouse v.elements) (hrun : tryExec step { view := v } cs = some g) : g.Keys :=
  tryExec_invariant (fun _ _ _ hg _ hs => Keys.step hg hs) (keys_start hstart hno)
    (tryAlways_true _ cs) hrun

/-- No touch reaches the elements and the free pointers, and nothing is sent. -/
structure Resting (g : Gesture) : Prop where
  kept : g.view.Kept
  attached : ∀ e ∈ g.view.elements, e.view = true
  playing : ¬ g.view.Playing
  posted : g.view.holdDetectorPosted = false
  sent : g.view.sent = []

theorem Resting.step {g : Gesture} (h : g.Resting) (c : Callback) :
    ∃ g', g.step c = some g' ∧ g'.Resting := by
  have hrun : ∃ r, c.run g.view = some r ∧ r.1.holdDetectorPosted = false ∧ r.2 = [] := by
    cases c with
    | fling ref => exact ⟨_, rfl, h.posted, rfl⟩
    | holdDetector P =>
      refine ⟨_, rfl, ?_⟩
      rw [View.runHoldDetector_idle P h.posted]
      exact ⟨h.posted, rfl⟩
    | touch P ev =>
      obtain ⟨r, hr⟩ : ∃ r, g.view.onTouchEvent P ev = some r := by
        have hplaying := h.playing
        rw [View.Playing] at hplaying
        rw [View.onTouchEvent, if_neg hplaying]
        split_ifs
        · obtain ⟨v', hv'⟩ := View.touchEdit_total h.attached ev
          exact ⟨_, Option.map_eq_some_iff.2 ⟨v', hv', rfl⟩⟩
        · exact ⟨_, rfl⟩
      obtain ⟨hsame, hnone⟩ := View.sameFingers_onTouchEvent h.playing hr
      exact ⟨r, hr, hsame.holdDetectorPosted.trans h.posted, hnone⟩
  obtain ⟨r, hr, hposted, hnone⟩ := hrun
  have hv : g.view.step c = some (g.view.deliver r) := by rw [View.step, hr]; rfl
  refine ⟨⟨g.view.deliver r, c.pointersAfter g.down⟩, by rw [Gesture.step, hv]; rfl, ?_⟩
  refine
    { kept := h.kept.step hv
      attached := (View.sameControls_step h.kept hv).view h.attached
      playing := fun hp => h.playing ((View.frame_run hr).playing.1 hp)
      posted := hposted
      sent := ?_ }
  show g.view.sent ++ (if g.view.inputSender then r.2 else []) = []
  rw [h.sent, hnone, ite_self, List.nil_append]

theorem resting_exec {v : View} (hstart : v.Start) (hrest : v.Untouched) (hplay : ¬ v.Playing)
    (cs : List Callback) :
    ∃ g, tryExec step { view := v } cs = some g ∧ g.view.sent = [] := by
  have hresting : Resting { view := v } :=
    ⟨hstart.kept, hstart.attached, hplay, hrest.holdDetectorPosted, hstart.sent⟩
  have halways : TryAlways step (fun _ _ => True) { view := v } cs := tryAlways_true _ cs
  obtain ⟨g, hg⟩ := tryExec_total (fun g c hg _ => Resting.step hg c) hresting halways
  refine ⟨g, hg, (tryExec_invariant (I := Resting) (fun g c g' hs _ hstep => ?_) hresting
    halways hg).sent⟩
  obtain ⟨t, ht, hresting⟩ := hs.step c
  obtain rfl := Option.some.inj (hstep.symm.trans ht)
  exact hresting

/-- **The free pointers do the same without the others**: in a stream in which they keep apart
from the pointers on elements, none of which is bound to the mouse, the buttons, motions and
scrolls are those of the stream that is left without these pointers. -/
theorem free_pointers_apart {v : View} {g : Gesture} {cs : List Callback} (hstart : v.Start)
    (hrest : v.Untouched) (hno : NoMouse v.elements)
    (h : TryAlways step (fun g c => g.WellFormed c ∧ g.Apart c) { view := v } cs)
    (hrun : tryExec step { view := v } cs = some g) :
    ∃ t, tryExec step { view := v } (freeStream { view := v } cs) = some t ∧
      t.view.sent.pointing = g.view.sent.pointing := by
  by_cases hplay : v.Playing
  · have hstep : ∀ g c g' t, Twin g t → g.WellFormed c ∧ g.Apart c → g.step c = some g' →
        ∃ t', tryExec step t (keep g c g').toList = some t' ∧ Twin g' t' :=
      fun g c g' t hgt hc hs => hgt.step hc.1 hc.2 hs
    obtain ⟨t, ht, htwin⟩ := tryExec_purge hstep (twin_start hstart hrest hplay) h hrun
    refine ⟨t, ht, ?_⟩
    rw [pointing_own (keys_exec hstart hno ht).sent, htwin.own,
      ← pointing_own (keys_exec hstart hno hrun).sent]
  · obtain ⟨g', hg', hsent⟩ := resting_exec hstart hrest hplay cs
    obtain rfl := Option.some.inj (hrun.symm.trans hg')
    obtain ⟨t, ht, hsent'⟩ := resting_exec hstart hrest hplay (freeStream { view := v } cs)
    exact ⟨t, ht, by rw [hsent, hsent']⟩

/-- A finger is on the key `A` while another one taps twice. -/
def tapsOverKey : List Callback :=
  [.touch idlePlatform ⟨.down, [fingerA], 0, Nat.zero_lt_one⟩,
    .touch idlePlatform ⟨.pointerDown, [fingerA, fingerD], 1, Nat.one_lt_two⟩,
    .touch idlePlatform ⟨.pointerUp, [fingerA, fingerD], 1, Nat.one_lt_two⟩,
    .touch idlePlatform ⟨.pointerDown, [fingerA, fingerD], 1, Nat.one_lt_two⟩,
    .touch idlePlatform ⟨.pointerUp, [fingerA, fingerD], 1, Nat.one_lt_two⟩,
    .touch idlePlatform ⟨.up, [fingerA], 0, Nat.zero_lt_one⟩]

/-- The two taps make one click of the right button; without the key they are two of the left. -/
theorem click_tapsOverKey :
    twoButtons.Start ∧ twoButtons.Untouched ∧ NoMouse twoButtons.elements ∧
      TryAlways step WellFormed { view := twoButtons } tapsOverKey ∧
      ∃ g t, tryExec step { view := twoButtons } tapsOverKey = some g ∧
        tryExec step { view := twoButtons } (freeStream { view := twoButtons } tapsOverKey) =
          some t ∧
        g.view.sent.pointing = [.onPointerButton 3 true, .onPointerButton 3 false] ∧
        t.view.sent.pointing =
          [.onPointerButton 1 true, .onPointerButton 1 false,
            .onPointerButton 1 true, .onPointerButton 1 false] := by
  refine ⟨start_twoButtons, untouched_twoButtons, noMouse_twoButtons, by decide +kernel, ?_⟩
  have hsent : ((tryExec step { view := twoButtons } tapsOverKey).bind fun g =>
      (tryExec step { view := twoButtons } (freeStream { view := twoButtons } tapsOverKey)).map
        fun t => (g.view.sent.pointing, t.view.sent.pointing)) =
      some ([.onPointerButton 3 true, .onPointerButton 3 false],
        [.onPointerButton 1 true, .onPointerButton 1 false,
          .onPointerButton 1 true, .onPointerButton 1 false]) := by
    decide +kernel
  obtain ⟨g, hg, hsent⟩ := Option.bind_eq_some_iff.1 hsent
  obtain ⟨t, ht, hsent⟩ := Option.map_eq_some_iff.1 hsent
  obtain ⟨hright, hleft⟩ := Prod.mk.inj hsent
  exact ⟨g, t, hg, ht, hright, hleft⟩

/-- A finger holds while another one is on the key `A`, which is lifted after the hold. -/
def holdOverKey : List Callback :=
  [.touch (clock 0) ⟨.down, [fingerA], 0, Nat.zero_lt_one⟩,
    .touch (clock 100) ⟨.pointerDown, [fingerA, fingerD], 1, Nat.one_lt_two⟩,
    .holdDetector (clock 600),
    .touch (clock 800) ⟨.pointerUp, [fingerA, fingerD], 0, Nat.zero_lt_two⟩,
    .touch (clock 900) ⟨.up, [fingerD], 0, Nat.zero_lt_one⟩]

/-- The button goes down and up as without the key. -/
theorem free_pointers_apart_holdOverKey :
    ∃ g t, tryExec step { view := twoButtons } holdOverKey = some g ∧
      tryExec step { view := twoButtons } (freeStream { view := twoButtons } holdOverKey) =
        some t ∧
      t.view.sent.pointing = g.view.sent.pointing ∧
      g.view.sent.pointing = [.onPointerButton 1 true, .onPointerButton 1 false] := by
  have hsent : (tryExec step { view := twoButtons } holdOverKey).map
      (fun g => g.view.sent.pointing) =
      some [.onPointerButton 1 true, .onPointerButton 1 false] := by
    decide +kernel
  obtain ⟨g, hg, hsent⟩ := Option.map_eq_some_iff.1 hsent
  obtain ⟨t, ht, heq⟩ := free_pointers_apart start_twoButtons untouched_twoButtons
    noMouse_twoButtons (by decide +kernel) hg
  exact ⟨g, t, hg, ht, heq, hsent⟩

end Gesture

end TermuxX11.VirtualKeys
