import TermuxX11.Server.Vblanks

/-!
# The frame counter

`current_msc` is advanced by every redraw of the root window, which delivers the vblanks that are
due, and set by `loriePresentAfterFlip`.  `reported` has the values that clients of Present are
told, oldest first.
-/

namespace TermuxX11.Server

open Run

/-- The counter, the vblanks, and what was reported. -/
structure Present where
  vblanks : Vblanks := {}
  reported : List ℕ := []

/-- A call. -/
inductive PresentStep
  | queueVblank (id msc : ℕ) (alloc : Bool)
  | abortVblank (id : ℕ)
  | redraw
  | afterFlip (targetMsc : ℕ)
  | getUstMsc
  deriving DecidableEq

namespace Present

def currentMsc (s : Present) : ℕ := s.vblanks.currentMsc

/-- `lorieRedraw`, the part about the counter. -/
def lorieRedraw (s : Present) : Present :=
  let v := s.vblanks.step (.changeMsc (s.currentMsc + 1))
  { vblanks := v.loriePerformVblanks
    reported := s.reported ++ (Vblanks.perform v.currentMsc v.vblankQueue).2.map Prod.snd }

/-- `loriePresentAfterFlip`, the part about the counter. -/
def loriePresentAfterFlip (targetMsc : ℕ) (s : Present) : Present :=
  let msc := min (s.currentMsc + 1) targetMsc
  { vblanks := s.vblanks.step (.changeMsc msc), reported := s.reported ++ [msc] }

/-- `loriePresentGetUstMsc`. -/
def loriePresentGetUstMsc (s : Present) : Present :=
  { s with reported := s.reported ++ [s.currentMsc] }

/-- One step. -/
def step (s : Present) : PresentStep → Present
  | .queueVblank id msc alloc =>
    { s with vblanks := s.vblanks.loriePresentQueueVblank id msc alloc }
  | .abortVblank id => { s with vblanks := s.vblanks.loriePresentAbortVblank id }
  | .redraw => s.lorieRedraw
  | .afterFlip targetMsc => s.loriePresentAfterFlip targetMsc
  | .getUstMsc => s.loriePresentGetUstMsc

/-- The step does not set the counter back. -/
def NotBack (s : Present) (a : PresentStep) : Prop := s.currentMsc ≤ (s.step a).currentMsc

/-- A flip is not finished for a value that the counter has passed. -/
def InTime (s : Present) : PresentStep → Prop
  | .afterFlip targetMsc => s.currentMsc ≤ targetMsc
  | _ => True

/-- What was reported did not go back, and the counter is not behind it. -/
structure Ascending (s : Present) : Prop where
  sorted : s.reported.Pairwise (· ≤ ·)
  le : ∀ msc ∈ s.reported, msc ≤ s.currentMsc

variable {s : Present} {a : PresentStep}

/-- What a step reports is the counter that it leaves. -/
theorem reported_step (s : Present) (a : PresentStep) :
    ∃ new, (s.step a).reported = s.reported ++ new ∧ ∀ msc ∈ new, msc = (s.step a).currentMsc := by
  cases a with
  | queueVblank id msc alloc => exact ⟨[], (List.append_nil _).symm, nofun⟩
  | abortVblank id => exact ⟨[], (List.append_nil _).symm, nofun⟩
  | redraw =>
    refine ⟨_, rfl, fun msc hmsc => ?_⟩
    rw [Vblanks.perform_eq, List.map_map] at hmsc
    obtain ⟨v, -, rfl⟩ := List.mem_map.1 hmsc
    rfl
  | afterFlip targetMsc => exact ⟨_, rfl, fun msc hmsc => List.mem_singleton.1 hmsc⟩
  | getUstMsc => exact ⟨_, rfl, fun msc hmsc => List.mem_singleton.1 hmsc⟩

theorem notBack_iff (s : Present) (a : PresentStep) : NotBack s a ↔ InTime s a := by
  cases a with
  | queueVblank id msc alloc =>
    refine iff_of_true ?_ trivial
    cases alloc with
    | true => exact le_rfl
    | false => exact le_rfl
  | abortVblank id => exact iff_of_true le_rfl trivial
  | redraw => exact iff_of_true (Nat.le_succ _) trivial
  | afterFlip targetMsc =>
    show s.currentMsc ≤ min (s.currentMsc + 1) targetMsc ↔ s.currentMsc ≤ targetMsc
    omega
  | getUstMsc => exact iff_of_true le_rfl trivial

theorem ascending_step (hs : Ascending s) (ha : NotBack s a) : Ascending (s.step a) := by
  obtain ⟨new, hreported, hnew⟩ := reported_step s a
  refine ⟨?_, fun msc hmsc => ?_⟩
  · rw [hreported, List.pairwise_append]
    refine ⟨hs.sorted, ?_, fun msc hmsc msc' hmsc' => ?_⟩
    · refine List.pairwise_of_forall_mem_list fun msc hmsc msc' hmsc' => ?_
      rw [hnew msc hmsc, hnew msc' hmsc']
    · rw [hnew msc' hmsc']
      exact (hs.le msc hmsc).trans ha
  · rw [hreported, List.mem_append] at hmsc
    rcases hmsc with hmsc | hmsc
    · exact (hs.le msc hmsc).trans ha
    · exact (hnew msc hmsc).le

/-- **The frame counter goes back exactly if a flip is finished too late.**  In every run the
counter never decreases, and what is reported does not, if and only if no flip of the run is
finished whose target the counter has passed. -/
theorem neverBack_iff (v : Vblanks) (as : List PresentStep) :
    Always step NotBack { vblanks := v } as ∧
        (exec step { vblanks := v } as).reported.Pairwise (· ≤ ·) ↔
      Always step InTime { vblanks := v } as := by
  have hiff : Always step NotBack { vblanks := v } as ↔ Always step InTime { vblanks := v } as :=
    always_iff_of_invariant (I := fun _ => True) (fun _ _ _ _ => trivial)
      (fun s a _ => notBack_iff s a) trivial as
  rw [← hiff]
  refine and_iff_left_of_imp fun h => ?_
  have hstart : Ascending { vblanks := v } := ⟨List.Pairwise.nil, nofun⟩
  exact (exec_invariant_of_always (fun s a => ascending_step) hstart h).sorted

/-- The counter is at 3 when a flip for the value 1 is finished, and is reported as 3 before and as
1 after it. -/
theorem back_afterFlip :
    (exec step {} [.redraw, .redraw, .redraw, .getUstMsc, .afterFlip 1, .getUstMsc]).reported =
        [3, 1, 1] ∧
      ¬ Always step NotBack {}
        [.redraw, .redraw, .redraw, .getUstMsc, .afterFlip 1, .getUstMsc] := by
  refine ⟨rfl, ?_⟩
  rintro ⟨-, -, -, -, hback, -⟩
  have hle : 3 ≤ 1 := hback
  omega

end Present

end TermuxX11.Server
