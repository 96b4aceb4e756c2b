import TermuxX11.Lib.Run

/-!
# The queue of vblanks

A client may ask to be told when the frame counter reaches a value.  The requests are on the list
`vblank_queue` of `InitOutput.c`: a new one is put in front, `loriePerformVblanks` walks over the
list and takes out those that are due, and `loriePresentAbortVblank` walks over it to take out one.

`notified` has the calls of `present_event_notify` by `loriePerformVblanks`, oldest first.  The
counter is changed elsewhere, here by any amount.
-/

namespace TermuxX11.Server

open Run

/-- `struct vblank`. -/
structure Vblank where
  id : ℕ
  msc : ℕ
  deriving DecidableEq

/-- `current_msc` and `vblank_queue` of `pvfb`. -/
structure Vblanks where
  currentMsc : ℕ := 0
  vblankQueue : List Vblank := []
  notified : List (ℕ × ℕ) := []

/-- A call, or a change of the counter; `alloc` says whether the `calloc` succeeds. -/
inductive VblankStep
  | queueVblank (id msc : ℕ) (alloc : Bool)
  | abortVblank (id : ℕ)
  | performVblanks
  | changeMsc (msc : ℕ)
  deriving DecidableEq

namespace Vblanks

/-- `loriePresentQueueVblank`. -/
def loriePresentQueueVblank (id msc : ℕ) (alloc : Bool) (s : Vblanks) : Vblanks :=
  if alloc then { s with vblankQueue := ⟨id, msc⟩ :: s.vblankQueue } else s

/-- The walk of `loriePresentAbortVblank`. -/
def abort (id : ℕ) : List Vblank → List Vblank
  | [] => []
  | vblank :: rest => if vblank.id = id then rest else vblank :: abort id rest

/-- `loriePresentAbortVblank`. -/
def loriePresentAbortVblank (id : ℕ) (s : Vblanks) : Vblanks :=
  { s with vblankQueue := abort id s.vblankQueue }

/-- The walk of `loriePerformVblanks`: what stays on the list, and the calls. -/
def perform (currentMsc : ℕ) : List Vblank → List Vblank × List (ℕ × ℕ)
  | [] => ([], [])
  | vblank :: rest =>
    let r := perform currentMsc rest
    if vblank.msc ≤ currentMsc then (r.1, (vblank.id, currentMsc) :: r.2)
    else (vblank :: r.1, r.2)

/-- `loriePerformVblanks`. -/
def loriePerformVblanks (s : Vblanks) : Vblanks :=
  let r := perform s.currentMsc s.vblankQueue
  { s with vblankQueue := r.1, notified := s.notified ++ r.2 }

/-- One step. -/
def step (s : Vblanks) : VblankStep → Vblanks
  | .queueVblank id msc alloc => s.loriePresentQueueVblank id msc alloc
  | .abortVblank id => s.loriePresentAbortVblank id
  | .performVblanks => s.loriePerformVblanks
  | .changeMsc msc => { s with currentMsc := msc }

/-- How often `id` was notified. -/
def times (s : Vblanks) (id : ℕ) : ℕ := (s.notified.map Prod.fst).count id

/-- The ids on the list. -/
def queuedIds (s : Vblanks) : List ℕ := s.vblankQueue.map Vblank.id

/-- The id that a step queues. -/
def queuedId : VblankStep → Option ℕ
  | .queueVblank id _ true => some id
  | _ => none

/-- No id is queued twice. -/
def Distinct (as : List VblankStep) : Prop := (as.filterMap queuedId).Nodup

/-- In no step `id` is aborted, or due while the queue is gone through. -/
def Awaits (id msc : ℕ) : Vblanks → List VblankStep → Prop :=
  Always step fun s a => a ≠ .abortVblank id ∧ ¬ (a = .performVblanks ∧ msc ≤ s.currentMsc)

/-! ### The two walks -/

theorem perform_eq (currentMsc : ℕ) (q : List Vblank) :
    perform currentMsc q =
      (q.filter fun v => ¬ v.msc ≤ currentMsc,
        (q.filter fun v => v.msc ≤ currentMsc).map fun v => (v.id, currentMsc)) := by
  induction q with
  | nil => rfl
  | cons v q ih =>
    rw [perform, ih]
    by_cases hdue : v.msc ≤ currentMsc
    · simp [hdue]
    · simp [hdue, not_le.1 hdue]

/-- What an abort leaves is on the list in the same order. -/
theorem abort_sublist (id : ℕ) (q : List Vblank) : (abort id q).Sublist q := by
  induction q with
  | nil => exact List.Sublist.refl _
  | cons v q ih =>
    rw [abort]
    split_ifs
    · exact List.sublist_cons_self _ _
    · exact ih.cons_cons _

/-- Where the ids are distinct, an abort takes out the one it is about, and no other. -/
theorem mem_abort {id : ℕ} {q : List Vblank} (hnodup : (q.map Vblank.id).Nodup) {v : Vblank} :
    v ∈ abort id q ↔ v ∈ q ∧ v.id ≠ id := by
  induction q with
  | nil => simp [abort]
  | cons w q ih =>
    obtain ⟨hw, hnodup⟩ := List.nodup_cons.1 hnodup
    rw [abort]
    by_cases hid : w.id = id
    · rw [if_pos hid, List.mem_cons]
      constructor
      · intro hv
        refine ⟨Or.inr hv, fun h => hw ?_⟩
        rw [hid, ← h]
        exact List.mem_map_of_mem hv
      · rintro ⟨rfl | hv, hne⟩
        · exact absurd hid hne
        · exact hv
    · rw [if_neg hid, List.mem_cons, List.mem_cons, ih hnodup]
      constructor
      · rintro (rfl | ⟨hv, hne⟩)
        · exact ⟨Or.inl rfl, hid⟩
        · exact ⟨Or.inr hv, hne⟩
      · rintro ⟨rfl | hv, hne⟩
        · exact Or.inl rfl
        · exact Or.inr ⟨hv, hne⟩

/-! ### One id -/

/-- The ids on the list and those that are still to be queued are distinct. -/
def Apart (s : Vblanks) (as : List VblankStep) : Prop :=
  (s.queuedIds ++ as.filterMap queuedId).Nodup

variable {s : Vblanks} {a : VblankStep} {as : List VblankStep} {id msc : ℕ}

theorem Apart.nodup (h : s.Apart as) : s.queuedIds.Nodup := List.Nodup.of_append_left h

/-- What can be on the list after a step. -/
theorem queuedIds_step (s : Vblanks) (a : VblankStep) :
    (∃ id, queuedId a = some id ∧ (step s a).queuedIds = id :: s.queuedIds) ∨
      queuedId a = none ∧ (step s a).queuedIds.Sublist s.queuedIds := by
  cases a with
  | queueVblank id msc alloc =>
    cases alloc with
    | true => exact Or.inl ⟨id, rfl, rfl⟩
    | false => exact Or.inr ⟨rfl, List.Sublist.refl _⟩
  | abortVblank id => exact Or.inr ⟨rfl, (abort_sublist id _).map _⟩
  | performVblanks =>
    refine Or.inr ⟨rfl, ?_⟩
    show ((perform s.currentMsc s.vblankQueue).1.map Vblank.id).Sublist _
    rw [perform_eq]
    exact List.filter_sublist.map _
  | changeMsc msc => exact Or.inr ⟨rfl, List.Sublist.refl _⟩

theorem Apart.step (h : s.Apart (a :: as)) : (step s a).Apart as := by
  unfold Apart at h ⊢
  rcases queuedIds_step s a with ⟨id, ha, hids⟩ | ⟨ha, hids⟩
  · rw [List.filterMap_cons, ha] at h
    rw [hids]
    exact List.perm_middle.nodup_iff.1 h
  · rw [List.filterMap_cons, ha] at h
    exact h.sublist (hids.append_right _)

theorem Apart.exec {bs : List VblankStep} (h : s.Apart (as ++ bs)) :
    (exec Vblanks.step s as).Apart bs := by
  induction as generalizing s with
  | nil => exact h
  | cons a as ih => exact ih h.step

/-- Only a walk of `loriePerformVblanks` notifies. -/
theorem times_step (ha : a ≠ .performVblanks) : (step s a).times id = s.times id := by
  cases a with
  | queueVblank id msc alloc =>
    cases alloc with
    | true => rfl
    | false => rfl
  | performVblanks => exact absurd rfl ha
  | abortVblank | changeMsc => rfl

/-- The walk notifies those that are due, once for each that is on the list. -/
theorem times_performVblanks (s : Vblanks) (id : ℕ) :
    s.loriePerformVblanks.times id =
      s.times id +
        ((s.vblankQueue.filter fun v => v.msc ≤ s.currentMsc).map Vblank.id).count id := by
  unfold loriePerformVblanks times
  simp only [perform_eq, List.map_append, List.count_append, List.map_map]
  rfl

/-- An id that is not on the list and not queued is not notified. -/
theorem gone_step (hid : id ∉ s.queuedIds) (ha : queuedId a ≠ some id) :
    id ∉ (step s a).queuedIds ∧ (step s a).times id = s.times id := by
  constructor
  · rcases queuedIds_step s a with ⟨id', ha', hids⟩ | ⟨-, hids⟩
    · rw [hids, List.mem_cons, not_or]
      refine ⟨?_, hid⟩
      rintro rfl
      exact ha ha'
    · exact fun hmem => hid (hids.subset hmem)
  · by_cases hperform : a = .performVblanks
    · rw [hperform]
      refine (times_performVblanks s id).trans ?_
      rw [List.count_eq_zero.2, Nat.add_zero]
      exact fun hmem => hid ((List.filter_sublist.map _).subset hmem)
    · exact times_step hperform

theorem gone_exec (hid : id ∉ s.queuedIds) (has : id ∉ as.filterMap queuedId) :
    id ∉ (exec step s as).queuedIds ∧ (exec step s as).times id = s.times id := by
  induction as generalizing s with
  | nil => exact ⟨hid, rfl⟩
  | cons a as ih =>
    have ha : queuedId a ≠ some id := by
      intro ha
      rw [List.filterMap_cons, ha] at has
      exact has List.mem_cons_self
    obtain ⟨hid', htimes⟩ := gone_step hid ha
    have hrest : id ∉ as.filterMap queuedId := by
      rw [List.filterMap_cons] at has
      split at has
      · exact has
      · exact fun hmem => has (List.mem_cons_of_mem _ hmem)
    obtain ⟨hgone, htimes'⟩ := ih hid' hrest
    exact ⟨hgone, htimes'.trans htimes⟩

/-- A vblank stays on the list as long as it is neither aborted nor due. -/
theorem awaits_step (hv : ⟨id, msc⟩ ∈ s.vblankQueue) (h : s.Apart (a :: as))
    (habort : a ≠ .abortVblank id) (hdue : ¬ (a = .performVblanks ∧ msc ≤ s.currentMsc)) :
    ⟨id, msc⟩ ∈ (step s a).vblankQueue ∧ (step s a).times id = s.times id := by
  cases a with
  | queueVblank id' msc' alloc =>
    refine ⟨?_, times_step nofun⟩
    cases alloc with
    | true => exact List.mem_cons_of_mem _ hv
    | false => exact hv
  | abortVblank id' =>
    refine ⟨(mem_abort h.nodup).2 ⟨hv, ?_⟩, times_step nofun⟩
    rintro rfl
    exact habort rfl
  | performVblanks =>
    have hlate : ¬ msc ≤ s.currentMsc := fun hle => hdue ⟨rfl, hle⟩
    constructor
    · show _ ∈ (perform s.currentMsc s.vblankQueue).1
      rw [perform_eq]
      exact List.mem_filter.2 ⟨hv, decide_eq_true hlate⟩
    · refine (times_performVblanks s id).trans ?_
      rw [List.count_eq_zero.2, Nat.add_zero]
      intro hmem
      obtain ⟨w, hw, hid⟩ := List.mem_map.1 hmem
      obtain ⟨hw, hle⟩ := List.mem_filter.1 hw
      obtain rfl : w = ⟨id, msc⟩ := List.inj_on_of_nodup_map h.nodup hw hv hid
      exact hlate (of_decide_eq_true hle)
  | changeMsc msc' => exact ⟨hv, times_step nofun⟩

theorem awaits_exec {bs : List VblankStep} (hv : ⟨id, msc⟩ ∈ s.vblankQueue)
    (h : s.Apart (as ++ bs)) (hawaits : Awaits id msc s as) :
    ⟨id, msc⟩ ∈ (exec step s as).vblankQueue ∧ (exec step s as).times id = s.times id := by
  induction as generalizing s with
  | nil => exact ⟨hv, rfl⟩
  | cons a as ih =>
    obtain ⟨⟨habort, hdue⟩, hawaits⟩ := hawaits
    obtain ⟨hv', htimes⟩ := awaits_step hv h habort hdue
    obtain ⟨hmem, htimes'⟩ := ih hv' h.step hawaits
    exact ⟨hmem, htimes'.trans htimes⟩

/-- A vblank that is due is taken off the list, and notified once. -/
theorem due_step (hv : ⟨id, msc⟩ ∈ s.vblankQueue) (hnodup : s.queuedIds.Nodup)
    (hdue : msc ≤ s.currentMsc) :
    id ∉ s.loriePerformVblanks.queuedIds ∧ s.loriePerformVblanks.times id = s.times id + 1 := by
  constructor
  · show id ∉ (perform s.currentMsc s.vblankQueue).1.map Vblank.id
    rw [perform_eq]
    intro hmem
    obtain ⟨w, hw, hid⟩ := List.mem_map.1 hmem
    obtain ⟨hw, hlate⟩ := List.mem_filter.1 hw
    obtain rfl : w = ⟨id, msc⟩ := List.inj_on_of_nodup_map hnodup hw hv hid
    exact of_decide_eq_true hlate hdue
  · rw [times_performVblanks, List.count_eq_one_of_mem (hnodup.sublist (List.filter_sublist.map _))]
    exact List.mem_map.2 ⟨⟨id, msc⟩, List.mem_filter.2 ⟨hv, decide_eq_true hdue⟩, rfl⟩

/-- A vblank that is aborted is taken off the list. -/
theorem abort_step (hnodup : s.queuedIds.Nodup) :
    id ∉ (s.loriePresentAbortVblank id).queuedIds := by
  intro hmem
  obtain ⟨w, hw, hid⟩ := List.mem_map.1 hmem
  exact ((mem_abort hnodup).1 hw).2 hid

/-- What becomes of a vblank: it waits, or is aborted or notified at last. -/
theorem awaits_or (id msc : ℕ) (s : Vblanks) (bs : List VblankStep) :
    Awaits id msc s bs ∨
      ∃ cs a ds, bs = cs ++ a :: ds ∧ Awaits id msc s cs ∧
        (a = .abortVblank id ∨ a = .performVblanks ∧ msc ≤ (exec step s cs).currentMsc) := by
  induction bs generalizing s with
  | nil => exact Or.inl trivial
  | cons a bs ih =>
    by_cases hdecided : a = .abortVblank id ∨ a = .performVblanks ∧ msc ≤ s.currentMsc
    · exact Or.inr ⟨[], a, bs, rfl, trivial, hdecided⟩
    · rw [not_or] at hdecided
      rcases ih (step s a) with hawaits | ⟨cs, b, ds, rfl, hawaits, hb⟩
      · exact Or.inl ⟨hdecided, hawaits⟩
      · exact Or.inr ⟨a :: cs, b, ds, rfl, ⟨hdecided, hawaits⟩, hb⟩

/-- Before an id is queued it is not notified. -/
theorem times_before {bs : List VblankStep}
    (h : Distinct (as ++ .queueVblank id msc true :: bs)) :
    let s := exec step {} (as ++ [.queueVblank id msc true])
    ⟨id, msc⟩ ∈ s.vblankQueue ∧ s.Apart bs ∧ s.times id = 0 ∧ id ∉ bs.filterMap queuedId := by
  have hstart : Apart {} (as ++ .queueVblank id msc true :: bs) := h
  have happart : (exec step {} (as ++ [.queueVblank id msc true])).Apart bs := by
    refine Apart.exec ?_
    rwa [List.append_assoc]
  unfold Distinct at h
  rw [List.filterMap_append, List.nodup_append] at h
  have has : id ∉ as.filterMap queuedId := fun hmem => h.2.2 id hmem id List.mem_cons_self rfl
  have hgone := gone_exec (s := {}) List.not_mem_nil has
  dsimp only
  refine ⟨?_, happart, ?_, (List.nodup_cons.1 h.2.1).1⟩
  · rw [exec_concat]
    exact List.mem_cons_self
  · rw [exec_concat]
    exact (times_step (a := .queueVblank id msc true) nofun).trans hgone.2

/-- **A vblank is delivered once.**  In every run in which no id is queued twice, an id that is
queued is notified by the first `loriePerformVblanks` at which the counter has reached its value,
and never again; if it is aborted before it is never notified, and until then it is not.  The steps
that are about other ids play no part. -/
theorem vblank_delivery {bs : List VblankStep}
    (h : Distinct (as ++ .queueVblank id msc true :: bs)) :
    let s := exec step {} (as ++ [.queueVblank id msc true])
    (∀ cs ds : List VblankStep, bs = cs ++ .performVblanks :: ds → Awaits id msc s cs →
        msc ≤ (exec step s cs).currentMsc →
        (exec step s cs).times id = 0 ∧ (exec step s (cs ++ [.performVblanks])).times id = 1 ∧
          (exec step s bs).times id = 1) ∧
      (∀ cs ds : List VblankStep, bs = cs ++ .abortVblank id :: ds → Awaits id msc s cs →
        (exec step s bs).times id = 0) ∧
      (Awaits id msc s bs → (exec step s bs).times id = 0) ∧
      (Awaits id msc s bs ∨
        ∃ (cs : List VblankStep) (a : VblankStep) (ds : List VblankStep),
          bs = cs ++ a :: ds ∧ Awaits id msc s cs ∧
          (a = .abortVblank id ∨ a = .performVblanks ∧ msc ≤ (exec step s cs).currentMsc)) := by
  obtain ⟨hv, happart, htimes, hbs⟩ := times_before h
  dsimp only
  generalize exec step {} (as ++ [.queueVblank id msc true]) = s at hv happart htimes
  refine ⟨?_, ?_, fun hawaits => ?_, awaits_or id msc s bs⟩
  · rintro cs ds rfl hawaits hdue
    obtain ⟨hmem, hcs⟩ := awaits_exec hv happart hawaits
    obtain ⟨hgone, honce⟩ := due_step hmem happart.exec.nodup hdue
    rw [List.filterMap_append, List.mem_append, not_or] at hbs
    have hds : id ∉ ds.filterMap queuedId := hbs.2
    rw [hcs, htimes] at honce
    refine ⟨hcs.trans htimes, ?_, ?_⟩
    · rw [exec_concat]
      exact honce
    · rw [exec_append]
      exact (gone_exec hgone hds).2.trans honce
  · rintro cs ds rfl hawaits
    obtain ⟨-, hcs⟩ := awaits_exec hv happart hawaits
    have hrest : (exec step s cs).Apart (.abortVblank id :: ds) := happart.exec
    have hgone : id ∉ (exec step s (cs ++ [.abortVblank id])).queuedIds := by
      rw [exec_concat]
      exact abort_step hrest.nodup
    rw [exec_concat] at hgone
    rw [List.filterMap_append, List.mem_append, not_or] at hbs
    have hds : id ∉ ds.filterMap queuedId := hbs.2
    rw [exec_append]
    exact ((gone_exec hgone hds).2.trans hcs).trans htimes
  · rw [← List.append_nil bs] at happart
    exact (awaits_exec hv happart hawaits).2.trans htimes

/-- A vblank for the value 2, with another that is aborted. -/
theorem vblank_delivery_two :
    (exec step ({} : Vblanks) [.queueVblank 8 5 true, .queueVblank 7 2 true, .performVblanks,
      .changeMsc 1, .abortVblank 8, .performVblanks, .changeMsc 2, .performVblanks,
      .performVblanks]).times 7 = 1 := by
  have h : Distinct (([.queueVblank 8 5 true] : List VblankStep) ++
      .queueVblank 7 2 true :: ([.performVblanks, .changeMsc 1, .abortVblank 8, .performVblanks,
        .changeMsc 2, .performVblanks, .performVblanks] : List VblankStep)) := by
    show ([8, 7] : List ℕ).Nodup
    decide
  refine ((vblank_delivery h).1 [.performVblanks, .changeMsc 1, .abortVblank 8, .performVblanks,
    .changeMsc 2] [.performVblanks] rfl ?_ le_rfl).2.2
  simp [Awaits, Always, exec, step, loriePresentQueueVblank, loriePresentAbortVblank, abort,
    loriePerformVblanks, perform]

end Vblanks

end TermuxX11.Server
