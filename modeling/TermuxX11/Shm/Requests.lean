import TermuxX11.Shm.Segments
import TermuxX11.Lib.Waits

/-!
# Requests that are not answered

A process that asks another one for a segment keeps its own mutex until it has the answer, and the
thread that would answer a request needs the mutex of its process.  So two processes that ask each
other wait for ever, and so does a process that asks itself, which `shmget` does when the link of
the key names a segment that the process has deleted.
-/

namespace TermuxX11.Shm

open Run Waits

/-- A request has been sent. -/
def Phase.waits : Phase → Bool
  | .getting .. => true
  | .attaching .. => true
  | _ => false

/-- The process that the request was sent to. -/
def Phase.peer : Phase → Option ℕ
  | .getting _ _ _ _ peer => peer
  | .attaching _ peer => peer
  | _ => none

namespace World

variable (w : World)

/-- The process that `pid` waits for. -/
def waitsFor (pid : ℕ) : Option ℕ := (w.processes pid).bind fun p => p.phase.peer

/-- A process that has a socket is forked.  The new process has the socket's descriptor too, so that
the socket stays when the process that serves it exits. -/
def Inherits : Step → Prop
  | .fork pid _ => ∃ id, w.kernel.sockets id = some pid
  | _ => False

/-- No process is between two accesses to a link. -/
def Quiet : Prop := ∀ i p, w.processes i = some p → p.phase = .idle ∨ p.phase.waits = true

variable {w} {w' : World} {pid : ℕ} {p p' : Process} {c : Call} {s : Step}

theorem live_of_waits (h : p.phase.waits = true) : p.live pid = p := by
  unfold Process.live
  rw [if_neg]
  intro hidle
  rw [hidle] at h
  cases h

theorem waitsFor_eq (hp : w.processes pid = some p) : w.waitsFor pid = p.phase.peer := by
  rw [waitsFor, hp]
  rfl

theorem waits_of_peer {j : ℕ} (h : p.phase.peer = some j) : p.phase.waits = true := by
  cases hphase : p.phase with
  | getting => rfl
  | attaching => rfl
  | _ =>
    rw [hphase] at h
    cases h

/-- The thread of a process that is in a call does not answer. -/
theorem respond_of_busy {shmid : ℤ} {j : ℕ} {q : Process} (hq : w.processes j = some q)
    (hbusy : q.phase ≠ .idle) : w.respond shmid (some j) = none := by
  rw [respond, Option.bind_some, hq]
  exact if_neg hbusy

/-- A process that waits for one that is in a call does nothing. -/
theorem call_of_busy {j : ℕ} {q : Process} (hj : p.phase.peer = some j)
    (hq : w.processes j = some q) (hbusy : q.phase ≠ .idle) : w.call pid p c = none := by
  have hresp : ∀ shmid, w.respond shmid (some j) = none := fun _ => respond_of_busy hq hbusy
  cases hphase : p.phase with
  | getting key size shmid found peer =>
    rw [hphase] at hj
    obtain rfl : peer = some j := hj
    cases c with
    | answer mapped => simp only [call, hphase, hresp, Option.map_none]
    | _ => simp [call, hphase]
  | attaching shmid peer =>
    rw [hphase] at hj
    obtain rfl : peer = some j := hj
    cases c with
    | answer mapped => simp only [call, hphase, hresp, Option.bind_none]
    | _ => simp [call, hphase]
  | _ =>
    rw [hphase] at hj
    cases hj

/-! ### A chain without an end -/

/-- The processes of `C` are as they were, each waiting for another one of them. -/
structure Stuck (w₀ : World) (C : Set ℕ) (w : World) : Prop where
  same : ∀ j ∈ C, w.processes j = w₀.processes j
  next : ∀ j ∈ C, ∃ k ∈ C, w₀.waitsFor j = some k

theorem Stuck.process {w₀ : World} {C : Set ℕ} (h : Stuck w₀ C w) {j : ℕ} (hj : j ∈ C) :
    ∃ p k, w.processes j = some p ∧ p.phase.peer = some k ∧ k ∈ C := by
  obtain ⟨k, hk, hwaits⟩ := h.next j hj
  obtain ⟨p, hp, hpeer⟩ := Option.bind_eq_some_iff.1 hwaits
  exact ⟨p, k, (h.same j hj).trans hp, hpeer, hk⟩

theorem stuck_step {w₀ : World} {C : Set ℕ} (h : Stuck w₀ C w) (hexit : ∀ j ∈ C, s ≠ .exit j)
    (hs : w.step s = some w') : Stuck w₀ C w' := by
  refine ⟨fun j hj => ?_, h.next⟩
  rw [← h.same j hj]
  obtain ⟨p, k, hp, hpeer, hk⟩ := h.process hj
  obtain ⟨q, l, hq, hpeer', -⟩ := h.process hk
  cases s with
  | start pid =>
    simp only [step] at hs
    split_ifs at hs with hnew
    obtain rfl := Option.some.inj hs
    refine put_processes_of_ne ?_ _
    rintro rfl
    rw [hp] at hnew
    exact hnew (.inr rfl)
  | fork pid child =>
    simp only [step] at hs
    split_ifs at hs with hnew
    obtain ⟨r, -, rfl⟩ := Option.map_eq_some_iff.1 hs
    refine put_processes_of_ne ?_ _
    rintro rfl
    rw [hp] at hnew
    exact hnew (.inr rfl)
  | exit pid =>
    obtain ⟨r, -, rfl⟩ := Option.map_eq_some_iff.1 hs
    have hj' : j ≠ pid := fun heq => hexit j hj (heq ▸ rfl)
    have hk' : k ≠ pid := fun heq => hexit k hk (heq ▸ rfl)
    simp only [remove, if_neg hj', hp, Option.map_some]
    -- the connection to `k` is not closed
    unfold Process.hangUp
    cases hphase : p.phase with
    | getting key size shmid found peer =>
      rw [hphase] at hpeer
      obtain rfl : peer = some k := hpeer
      simp only [Option.some.injEq, if_neg hk', ← hphase]
    | attaching shmid peer =>
      rw [hphase] at hpeer
      obtain rfl : peer = some k := hpeer
      simp only [Option.some.injEq, if_neg hk', ← hphase]
    | _ => rfl
  | call pid c =>
    obtain ⟨r, hr, hs⟩ := Option.bind_eq_some_iff.1 hs
    obtain ⟨⟨k', r'⟩, hcall, rfl⟩ := Option.map_eq_some_iff.1 hs
    refine put_processes_of_ne ?_ _
    rintro rfl
    obtain rfl := Option.some.inj (hp.symm.trans hr)
    have hbusy : q.phase ≠ .idle := by
      intro hidle
      rw [hidle] at hpeer'
      cases hpeer'
    rw [live_of_waits (waits_of_peer hpeer), call_of_busy hpeer hq hbusy] at hcall
    cases hcall

/-- A process whose chain does not end stays as it is, as long as no process of its chain exits. -/
theorem waits_of_endless {steps : List Step} (hendless : Endless w.waitsFor pid)
    (hexit : ∀ j ∈ chain w.waitsFor pid, Step.exit j ∉ steps)
    (h : tryExec step w steps = some w') : w'.processes pid = w.processes pid := by
  have hstuck : Stuck w (chain w.waitsFor pid) w :=
    ⟨fun _ _ => rfl, fun j hj => hendless.next_mem hj⟩
  have hstuck' := tryExec_invariant
    (P := fun _ s => ∀ j ∈ chain w.waitsFor pid, s ≠ .exit j)
    (fun _ _ _ hI hP hs => stuck_step hI hP hs) hstuck
    ((tryAlways_iff_forall h).2 fun s hs j hj (heq : s = .exit j) => hexit j hj (heq ▸ hs)) h
  exact hstuck'.same pid (self_mem_chain pid)

/-! ### A chain that ends -/

/-- A request to a process that is in no call, or that is gone, is answered. -/
theorem finish_answer (hp : w.processes pid = some p) (hwaits : p.phase.waits = true)
    (hfree : ∀ j q, p.phase.peer = some j → w.processes j = some q → q.phase = .idle) :
    ∃ steps w' p', tryExec step w steps = some w' ∧ (∀ i, Step.exit i ∉ steps) ∧
      w'.processes pid = some p' ∧ p'.phase = .idle ∧
      ∀ i, i ≠ pid → w'.processes i = w.processes i := by
  have hresp : ∀ shmid, ∃ answer, w.respond shmid p.phase.peer = some answer := by
    intro shmid
    unfold respond
    cases hq : p.phase.peer.bind w.processes with
    | none => exact ⟨none, rfl⟩
    | some q =>
      obtain ⟨j, hj, hq⟩ := Option.bind_eq_some_iff.1 hq
      exact ⟨q.ashvFindLocal shmid, if_pos (hfree j q hj hq)⟩
  have hlive : p.live pid = p := live_of_waits hwaits
  cases hphase : p.phase with
  | getting key size shmid found peer =>
    obtain ⟨answer, hanswer⟩ := hresp found
    rw [hphase] at hanswer
    cases hread : w.kernel.readRemote answer with
    | none =>
      have hcall : w.call pid (p.live pid) (.answer none) =
          some (w.kernel, { p with phase := .unlink key size shmid }) := by
        simp only [hlive, call, hphase, show w.respond found peer = _ from hanswer,
          Option.map_some, hread]
      obtain ⟨w₁, hw₁, hp₁, -, hframe₁⟩ := step_call hp hcall
      obtain ⟨w₂, w₃, p₃, hw₂, -, hw₃, hp₃, hidle, -, hframe₂⟩ := unlink_symlink false hp₁ rfl
      refine ⟨[.call pid (.answer none), .call pid .unlink, .call pid (.symlink false)], w₃, p₃, ?_,
        ?_, hp₃, hidle, fun i hi => (hframe₂ i hi).trans (hframe₁ i hi)⟩
      · simp only [tryExec, hw₁, hw₂, hw₃, Option.bind_some]
      · simp
    | some e =>
      have hcall : w.call pid (p.live pid) (.answer none) =
          some (w.kernel, { p.return_ found with shmem := p.shmem ++ [e] }) := by
        simp only [hlive, call, hphase, show w.respond found peer = _ from hanswer,
          Option.map_some, hread]
      obtain ⟨w₁, hw₁, hp₁, -, hframe₁⟩ := step_call hp hcall
      refine ⟨[.call pid (.answer none)], w₁, _, ?_, by simp, hp₁, rfl, hframe₁⟩
      simp only [tryExec, hw₁, Option.bind_some]
  | attaching shmid peer =>
    obtain ⟨answer, hanswer⟩ := hresp shmid
    rw [hphase] at hanswer
    have hcall : ∃ p', w.call pid (p.live pid) (.answer none) = some (w.kernel, p') ∧
        p'.phase = .idle := by
      simp only [hlive, call, hphase, show w.respond shmid peer = _ from hanswer, Option.bind_some]
      cases w.kernel.readRemote answer with
      | none => exact ⟨_, rfl, rfl⟩
      | some e =>
        refine ⟨_, if_pos (Process.mayMap_none _), ?_⟩
        unfold Process.attach
        split
        · rfl
        · rfl
    obtain ⟨p', hcall, hidle⟩ := hcall
    obtain ⟨w₁, hw₁, hp₁, -, hframe₁⟩ := step_call hp hcall
    refine ⟨[.call pid (.answer none)], w₁, p', ?_, by simp, hp₁, hidle, hframe₁⟩
    simp only [tryExec, hw₁, Option.bind_some]
  | _ =>
    rw [hphase] at hwaits
    cases hwaits

/-- Where the chain of a process ends, the processes on it can be answered one after the other. -/
theorem finish_of_ends {n : ℕ} (hquiet : w.Quiet) (hp : w.processes pid = some p)
    (hwaits : p.phase.waits = true) (hend : after w.waitsFor pid n = none) :
    ∃ steps w' p', tryExec step w steps = some w' ∧ (∀ i, Step.exit i ∉ steps) ∧
      w'.processes pid = some p' ∧ p'.phase = .idle ∧
      ∀ i, i ∉ chain w.waitsFor pid → w'.processes i = w.processes i := by
  induction n generalizing pid p with
  | zero => cases hend
  | succ n ih =>
    by_cases hfree : ∀ j q, p.phase.peer = some j → w.processes j = some q → q.phase = .idle
    · obtain ⟨steps, w', p', hrun, hexit, hp', hidle, hframe⟩ := finish_answer hp hwaits hfree
      refine ⟨steps, w', p', hrun, hexit, hp', hidle, fun i hi => hframe i ?_⟩
      rintro rfl
      exact hi (self_mem_chain i)
    · push Not at hfree
      obtain ⟨j, q, hj, hq, hbusy⟩ := hfree
      have hnext : w.waitsFor pid = some j := (waitsFor_eq hp).trans hj
      have hend' := hend
      rw [after_succ_of_next hnext] at hend'
      obtain ⟨steps, w₁, q', hrun, hexit, hq', hidle, hframe⟩ :=
        ih hq ((hquiet j q hq).resolve_left hbusy) hend'
      -- the answers to the others leave the process as it is
      have hp₁ : w₁.processes pid = some p :=
        (hframe pid (not_mem_chain_of_ends hend hnext)).trans hp
      obtain ⟨steps', w₂, p', hrun', hexit', hp', hidle', hframe'⟩ :=
        finish_answer hp₁ hwaits fun k r hk hr => by
          obtain rfl := Option.some.inj (hj.symm.trans hk)
          obtain rfl := Option.some.inj (hq'.symm.trans hr)
          exact hidle
      refine ⟨steps ++ steps', w₂, p', ?_, fun i hi => ?_, hp', hidle', fun i hi => ?_⟩
      · rw [tryExec_append, hrun]
        exact hrun'
      · exact (List.mem_append.1 hi).elim (hexit i) (hexit' i)
      · rw [hframe' i (by rintro rfl; exact hi (self_mem_chain i)),
          hframe i (fun hmem => hi (mem_chain_of_next hnext hmem))]

/-! ### Every run -/

/-- There are finitely many processes. -/
def Finite (w : World) : Prop := {i | (w.processes i).isSome}.Finite

theorem finite_put (hw : w.Finite) (pid : ℕ) (p : Process) : (w.put pid p).Finite := by
  refine (hw.insert pid).subset fun i hi => ?_
  by_cases h : i = pid
  · exact .inl h
  · have hi : ((w.put pid p).processes i).isSome := hi
    rw [put_processes_of_ne h p] at hi
    exact .inr hi

theorem finite_step (hw : w.Finite) (h : w.step s = some w') : w'.Finite := by
  cases s with
  | start pid =>
    simp only [step] at h
    split_ifs at h
    obtain rfl := Option.some.inj h
    exact finite_put hw pid _
  | fork pid child =>
    simp only [step] at h
    split_ifs at h
    obtain ⟨p, -, rfl⟩ := Option.map_eq_some_iff.1 h
    exact finite_put hw child _
  | exit pid =>
    obtain ⟨p, -, rfl⟩ := Option.map_eq_some_iff.1 h
    refine hw.subset fun i hi => ?_
    have hi : ((w.remove pid).processes i).isSome := hi
    simp only [remove] at hi
    show (w.processes i).isSome
    split_ifs at hi with hself
    · cases hi
    · rwa [Option.isSome_map] at hi
  | call pid c =>
    obtain ⟨p, -, h⟩ := Option.bind_eq_some_iff.1 h
    obtain ⟨⟨k', p'⟩, -, rfl⟩ := Option.map_eq_some_iff.1 h
    exact finite_put hw pid p'

/-- **Waiting for ever.**  In every state of a run without a fork of a process that has a socket, in
which no process is between two accesses to a link: a process that waits for an answer stays as it
is in all that may follow, as long as no process of its chain of waits exits, exactly if the chain
leads into a circle of processes that wait for each other. -/
theorem waits_forever_iff {before : List Step} (hrun : tryExec step {} before = some w)
    (hforks : TryAlways step (fun w s => ¬ w.Inherits s) {} before) (hquiet : w.Quiet)
    (hp : w.processes pid = some p) (hwaits : p.phase.waits = true) :
    (∀ steps w', (∀ j ∈ chain w.waitsFor pid, Step.exit j ∉ steps) →
      tryExec step w steps = some w' → w'.processes pid = some p) ↔
      ∃ j ∈ chain w.waitsFor pid, ∃ n, 0 < n ∧ after w.waitsFor j n = some j := by
  have hfinite : w.Finite := by
    refine tryExec_invariant (P := fun w s => ¬ w.Inherits s)
      (fun _ _ _ hI _ hs => finite_step hI hs) ?_ hforks hrun
    exact Set.finite_empty.subset fun i hi => nomatch hi
  have hwaiting : {i | (w.waitsFor i).isSome}.Finite := by
    refine hfinite.subset fun i hi => ?_
    obtain ⟨j, hj⟩ := Option.isSome_iff_exists.1 hi
    obtain ⟨q, hq, -⟩ := Option.bind_eq_some_iff.1 hj
    exact Option.isSome_iff_exists.2 ⟨q, hq⟩
  rw [← endless_iff_circle hwaiting]
  constructor
  · intro hforever n
    by_contra hend
    rw [Bool.not_eq_true, Option.isSome_eq_false_iff, Option.isNone_iff_eq_none] at hend
    obtain ⟨steps, w', p', hrun', hexit, hp', hidle, -⟩ := finish_of_ends hquiet hp hwaits hend
    obtain rfl := Option.some.inj ((hforever steps w' (fun j _ => hexit j) hrun').symm.trans hp')
    rw [hidle] at hwaits
    cases hwaits
  · intro hendless steps w' hexit hrun'
    rw [waits_of_endless hendless hexit hrun', hp]

/-- Two processes attach segments of each other. -/
def attachEachOther : List Step :=
  [.start 5, .start 6, .call 5 (.shmget 0 100 true), .call 6 (.shmget 0 100 true),
    .call 5 (.shmat 0x60001 none), .call 6 (.shmat 0x50001 none)]

theorem waits_forever_attachEachOther :
    ∃ w p, tryExec step {} attachEachOther = some w ∧ w.processes 5 = some p ∧
      p.phase = .attaching 0x60001 (some 6) ∧
      ∀ steps w', (∀ j ∈ chain w.waitsFor 5, Step.exit j ∉ steps) →
        tryExec step w steps = some w' → w'.processes 5 = some p := by
  obtain ⟨w, hw⟩ := Option.isSome_iff_exists.1
    (show (tryExec step {} attachEachOther).isSome = true by decide +kernel)
  have hphase : ∀ i, (w.processes i).map Process.phase =
      ((tryExec step {} attachEachOther).bind fun w => w.processes i).map Process.phase := by
    intro i
    rw [hw, Option.bind_some]
  have h5 : (w.processes 5).map Process.phase = some (.attaching 0x60001 (some 6)) :=
    (hphase 5).trans (by decide +kernel)
  have h6 : (w.processes 6).map Process.phase = some (.attaching 0x50001 (some 5)) :=
    (hphase 6).trans (by decide +kernel)
  obtain ⟨p, hp, hp5⟩ := Option.map_eq_some_iff.1 h5
  obtain ⟨q, hq, hq6⟩ := Option.map_eq_some_iff.1 h6
  have hquiet : w.Quiet := by
    intro i r hr
    by_cases hi5 : i = 5
    · rw [hi5, hp] at hr
      obtain rfl := Option.some.inj hr
      rw [hp5]
      exact .inr rfl
    by_cases hi6 : i = 6
    · rw [hi6, hq] at hr
      obtain rfl := Option.some.inj hr
      rw [hq6]
      exact .inr rfl
    · have hnone := tryExec_invariant (I := fun w : World => w.processes i = none)
        (P := fun _ s => s ≠ .start i ∧ ∀ pid, s ≠ .fork pid i)
        (fun _ _ _ hI hP hs => none_step hI hP hs) rfl
        ((tryAlways_iff_forall hw).2 (by
          simp only [attachEachOther, List.forall_mem_cons]
          simp [Ne.symm hi5, Ne.symm hi6])) hw
      rw [hnone] at hr
      cases hr
  have h56 : w.waitsFor 5 = some 6 := by rw [waitsFor_eq hp, hp5, Phase.peer]
  have h65 : w.waitsFor 6 = some 5 := by rw [waitsFor_eq hq, hq6, Phase.peer]
  have hforks : TryAlways step (fun w s => ¬ w.Inherits s) {} attachEachOther := by
    refine tryAlways_of_forall (fun a ha w => ?_) _
    simp only [attachEachOther, List.mem_cons, List.not_mem_nil, or_false] at ha
    rcases ha with rfl | rfl | rfl | rfl | rfl | rfl <;> exact id
  refine ⟨w, p, hw, hp, hp5,
    (waits_forever_iff hw hforks hquiet hp (by rw [hp5, Phase.waits])).2 ?_⟩
  refine ⟨5, self_mem_chain 5, 2, Nat.zero_lt_two, ?_⟩
  rw [after_succ_of_next h56, after_succ_of_next h65]
  rfl

/-! ### A request to oneself -/

theorem chain_of_self (h : w.waitsFor pid = some pid) {j : ℕ} (hj : j ∈ chain w.waitsFor pid) :
    j = pid := by
  obtain ⟨n, hn⟩ := hj
  have hcircle : after w.waitsFor pid 1 = some pid := h
  rw [← Nat.one_mul n, after_mul_of_circle hcircle] at hn
  exact (Option.some.inj hn).symm

/-- What `shmget` makes of a link that names a segment of the process itself. -/
theorem shmget_ownLink {key shmid : ℤ} (size : ℕ) (allocated : Bool)
    (hp : w.processes pid = some p) (hidle : p.phase = .idle) (hset : p.pidSetup = pid)
    (hlistening : p.listening = true) (hpid : pid ≠ 0) (hkey : key ≠ IPC_PRIVATE)
    (hlink : w.kernel.links key = some shmid) (hid : shmid ≠ 0)
    (hown : w.kernel.sockets (ashvSocketIdFromShmid shmid) = some pid) :
    ∃ w' p', tryExec step w [.call pid (.shmget key size allocated), .call pid .readlink] =
        some w' ∧
      w'.processes pid = some p' ∧
      p'.phase = if (p.ashvFindLocal shmid).isSome then .idle
        else .getting key size none shmid (some pid) := by
  have hlive : p.live pid = p := by
    unfold Process.live Process.ashvCheckPid
    rw [hset, if_neg hpid, if_neg (not_not.2 rfl), ite_self]
  have hshmget : w.call pid (p.live pid) (.shmget key size allocated) =
      some (w.kernel, { p with phase := .readlink key size none }) := by
    rw [hlive]
    simp only [call, hidle, Kernel.listen, hlistening, if_true, if_neg hkey, ne_eq, not_true,
      if_false]
  obtain ⟨w₁, hw₁, hp₁, hk₁, -⟩ := step_call hp hshmget
  have hreadlink : w₁.call pid (Process.live { p with phase := .readlink key size none } pid)
      .readlink = some (w₁.kernel, Process.readlink { p with phase := .readlink key size none }
        w₁.kernel.sockets key size none (w₁.kernel.links key)) := by
    rw [show Process.live { p with phase := .readlink key size none } pid = _ from
      if_neg (by simp)]
    simp only [call]
  obtain ⟨w₂, hw₂, hp₂, -, -⟩ := step_call hp₁ hreadlink
  refine ⟨w₂, _, by simp only [tryExec, hw₁, hw₂, Option.bind_some], hp₂, ?_⟩
  have hfind : Process.ashvFindLocal { p with phase := .readlink key size none } shmid =
      p.ashvFindLocal shmid := rfl
  rw [hk₁, hlink, Process.readlink, if_neg hid, hfind]
  split_ifs
  · rfl
  · rw [hown]

/-- **Deleted segments with a key.**  A process asks for a key whose link names a segment of its
own, and reads the link right after the call begins: the call returns in some run in which the
process does not exit exactly if the segment is in the table of the process.  Otherwise the process
asks itself, and waits for ever. -/
theorem shmget_ownLink_returns_iff {key shmid : ℤ} (size : ℕ) (allocated : Bool)
    (hp : w.processes pid = some p) (hidle : p.phase = .idle) (hset : p.pidSetup = pid)
    (hlistening : p.listening = true) (hpid : pid ≠ 0) (hkey : key ≠ IPC_PRIVATE)
    (hlink : w.kernel.links key = some shmid) (hid : shmid ≠ 0)
    (hown : w.kernel.sockets (ashvSocketIdFromShmid shmid) = some pid) :
    (∃ steps w' p', Step.exit pid ∉ steps ∧
      tryExec step w ([.call pid (.shmget key size allocated), .call pid .readlink] ++ steps) =
        some w' ∧ w'.processes pid = some p' ∧ p'.phase = .idle) ↔
      (p.ashvFindLocal shmid).isSome := by
  obtain ⟨w₁, p₁, hw₁, hp₁, hphase⟩ := shmget_ownLink size allocated hp hidle hset hlistening hpid
    hkey hlink hid hown
  constructor
  · rintro ⟨steps, w', p', hexit, hrun, hp', hidle'⟩
    by_contra hnot
    rw [if_neg hnot] at hphase
    rw [tryExec_append, hw₁] at hrun
    have hself : w₁.waitsFor pid = some pid := by
      rw [waitsFor_eq hp₁, hphase, Phase.peer]
    have hendless : Endless w₁.waitsFor pid :=
      Endless.of_circle (self_mem_chain pid) Nat.zero_lt_one hself
    have hsame := waits_of_endless hendless
      (fun j hj => by rw [chain_of_self hself hj]; exact hexit) hrun
    rw [hp', hp₁] at hsame
    rw [Option.some.inj hsame, hphase] at hidle'
    cases hidle'
  · intro hfound
    rw [if_pos hfound] at hphase
    refine ⟨[], w₁, p₁, List.not_mem_nil, ?_, hp₁, hphase⟩
    rw [List.append_nil]
    exact hw₁

/-- A process makes a segment with a key and deletes it. -/
def deleteKeyed : List Step :=
  [.start 5, .call 5 (.shmget 9 100 true), .call 5 .readlink, .call 5 (.symlink true),
    .call 5 (.shmctlRmid 0x50001)]

theorem shmget_deleteKeyed : ∃ w, tryExec step {} deleteKeyed = some w ∧
    ¬ ∃ steps w' p', Step.exit 5 ∉ steps ∧
      tryExec step w ([.call 5 (.shmget 9 100 true), .call 5 .readlink] ++ steps) = some w' ∧
        w'.processes 5 = some p' ∧ p'.phase = .idle := by
  obtain ⟨w, hw⟩ := Option.isSome_iff_exists.1
    (show (tryExec step {} deleteKeyed).isSome = true by decide +kernel)
  have hstate : ((tryExec step {} deleteKeyed).bind fun w =>
      (w.processes 5).map fun p => (p, w.kernel.links 9, w.kernel.sockets 5)) =
      some ({ pidSetup := 5, localSocketId := 5, listening := true, counter := 1 }, some 0x50001,
        some 5) := by
    decide +kernel
  rw [hw, Option.bind_some] at hstate
  obtain ⟨p, hp, hfields⟩ := Option.map_eq_some_iff.1 hstate
  simp only [Prod.mk.injEq] at hfields
  obtain ⟨rfl, hlink, hown⟩ := hfields
  refine ⟨w, hw, fun h => ?_⟩
  have := (shmget_ownLink_returns_iff 100 true hp rfl rfl rfl (by decide) (by decide) hlink
    (by decide) hown).1 h
  cases this

end World

end TermuxX11.Shm
