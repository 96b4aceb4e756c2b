import TermuxX11.Shm.Agreement

/-!
# Numbers of segments

An id is made of the number of a socket and of a counter of the process that the socket belongs to.
No id is given to two segments that are in the tables at one time, as long as the counter does not
wrap around, no socket is bound whose number is in an id of a table, and no forked process has the
pid that its copy of the variables was set up for.
-/

namespace TermuxX11.Shm

open Run

/-- The id with the number `c` of the socket `s`. -/
def idOf (s c : ℕ) : ℤ := Int.bmod (s * 0x10000 + c) (2 ^ 32)

theorem idOf_inj {s s' c c' : ℕ} (hs : s < 0x10000) (hs' : s' < 0x10000) (hc : c < 0x10000)
    (hc' : c' < 0x10000) (h : idOf s c = idOf s' c') : s = s' ∧ c = c' := by
  have hmod : (s * 0x10000 + c : ℤ) % (2 ^ 32 : ℕ) = (s' * 0x10000 + c' : ℤ) % (2 ^ 32 : ℕ) :=
    Int.bmod_emod.symm.trans ((congrArg (· % ((2 ^ 32 : ℕ) : ℤ)) h).trans Int.bmod_emod)
  omega

theorem bindFrom_spec {sockets : ℤ → Option ℕ} {n id s : ℕ} (h : bindFrom sockets n id = some s) :
    sockets s = none ∧ s < 0x10000 := by
  induction n generalizing id with
  | zero => cases h
  | succ n ih =>
    simp only [bindFrom] at h
    split_ifs at h with hfree
    · obtain rfl := Option.some.inj h
      exact ⟨hfree, Nat.mod_lt _ (by norm_num)⟩
    · exact ih h

/-! ### What a process knows of its numbers -/

/-- The id that a call of `shmget` has already. -/
def Phase.shmid : Phase → Option ℤ
  | .readlink _ _ shmid => shmid
  | .getting _ _ shmid _ _ => shmid
  | .unlink _ _ shmid => shmid
  | .symlink _ _ shmid => shmid
  | _ => none

/-- A call of `shmget` is going on. -/
def Phase.InShmget (phase : Phase) : Prop :=
  phase ≠ .idle ∧ ∀ shmid peer, phase ≠ .attaching shmid peer

namespace Process

theorem shmid_eq (p : Process) (n : ℕ) : p.ashvShmidFromCounter n = idOf p.localSocketId n := by
  unfold ashvShmidFromCounter idOf
  with_reducible rfl

/-- The last number that a table may have: the number of an id that `shmget` has at hand is not in
a table yet. -/
def tabled (p : Process) : ℕ := if p.phase.shmid = none then p.counter else p.counter - 1

/-- The part of a call takes a new number. -/
def takesNumber (p : Process) : Call → Bool
  | .shmget key _ _ => key = IPC_PRIVATE
  | .symlink _ => p.phase.shmid = none
  | _ => false

/-- The variables of the process `pid` fit together and with the sockets. -/
structure Numbered (p : Process) (pid : ℕ) (sockets : ℤ → Option ℕ) : Prop where
  listening : p.pidSetup = pid → p.listening = true →
    sockets p.localSocketId = some pid ∧ p.localSocketId < 0x10000
  unset : p.pidSetup = 0 → p.listening = false
  set : p.phase ≠ .idle → p.pidSetup = pid
  inShmget : p.phase.InShmget → p.listening = true
  pending : ∀ shmid, p.phase.shmid = some shmid →
    shmid = p.ashvShmidFromCounter p.counter ∧ 1 ≤ p.counter
  counter : p.counter < 0x8000

variable {p p' : Process} {pid : ℕ} {sockets sockets' : ℤ → Option ℕ}

/-- The variables that the numbers of a process depend on are the same. -/
structure SameNumbers (p p' : Process) : Prop where
  pidSetup : p'.pidSetup = p.pidSetup
  localSocketId : p'.localSocketId = p.localSocketId
  listening : p'.listening = p.listening
  counter : p'.counter = p.counter

theorem Numbered.of_same (h : p.Numbered pid sockets) (hsame : SameNumbers p p')
    (hset : p'.phase ≠ .idle → p.pidSetup = pid) (hin : p'.phase.InShmget → p.listening = true)
    (hshmid : p'.phase.shmid = none ∨ p'.phase.shmid = p.phase.shmid) :
    p'.Numbered pid sockets where
  listening := by
    rw [hsame.pidSetup, hsame.listening, hsame.localSocketId]
    exact h.listening
  unset := by
    rw [hsame.pidSetup, hsame.listening]
    exact h.unset
  set := by
    rw [hsame.pidSetup]
    exact hset
  inShmget := by
    rw [hsame.listening]
    exact hin
  pending shmid hsome := by
    obtain hnone | heq := hshmid
    · rw [hnone] at hsome
      cases hsome
    · rw [heq] at hsome
      rw [shmid_eq, hsame.counter, hsame.localSocketId, ← shmid_eq]
      exact h.pending shmid hsome
  counter := by
    rw [hsame.counter]
    exact h.counter

theorem tabled_le (hsame : SameNumbers p p')
    (hshmid : p'.phase.shmid = none ∨ p'.phase.shmid = p.phase.shmid) : p.tabled ≤ p'.tabled := by
  unfold tabled
  rw [hsame.counter]
  obtain hnone | heq := hshmid
  · rw [if_pos hnone]
    split_ifs
    · exact le_refl _
    · exact Nat.sub_le _ _
  · rw [heq]

/-- A call begins with `ashv_check_pid`. -/
theorem Numbered.live (h : p.Numbered pid sockets) (hpid : pid ≠ 0) :
    (p.live pid).Numbered pid sockets ∧ (p.live pid).pidSetup = pid ∧
      (p.live pid).tabled = p.tabled ∧ (p.live pid).phase = p.phase := by
  unfold Process.live
  split_ifs with hidle
  · unfold ashvCheckPid
    split_ifs with hzero hother
    · refine ⟨?_, rfl, rfl, rfl⟩
      have hnot := h.unset hzero
      refine ⟨fun _ hl => ?_, fun h0 => absurd h0 hpid, fun _ => rfl, h.inShmget, h.pending,
        h.counter⟩
      rw [hnot] at hl
      cases hl
    · refine ⟨⟨fun _ hl => (nomatch hl), fun h0 => absurd h0 hpid, fun _ => rfl, ?_, ?_, h.counter⟩,
        rfl, rfl, rfl⟩
      · exact fun hin => absurd hidle hin.1
      · intro shmid hsome
        rw [show p.phase = _ from hidle] at hsome
        cases hsome
    · exact ⟨h, not_not.1 hother, rfl, rfl⟩
  · exact ⟨h, h.set hidle, rfl, rfl⟩

/-- What `shmget` takes as the number of its segment. -/
theorem Numbered.count (h : p.Numbered pid sockets)
    (hnum : p.phase.shmid = none → p.counter < 0x7fff) :
    p.shmidFor p.phase.shmid =
        (p.count p.phase.shmid).ashvShmidFromCounter (p.count p.phase.shmid).counter ∧
      p.tabled < (p.count p.phase.shmid).counter ∧ (p.count p.phase.shmid).counter < 0x8000 := by
  cases hshmid : p.phase.shmid with
  | none =>
    have hlt := hnum hshmid
    have hnext : p.nextCounter = p.counter + 1 := by
      unfold nextCounter
      omega
    rw [count_none, shmidFor_none]
    refine ⟨?_, ?_, ?_⟩
    · rw [shmid_eq, shmid_eq]
    · show p.tabled < p.nextCounter
      rw [tabled, if_pos hshmid, hnext]
      exact Nat.lt_succ_self _
    · show p.nextCounter < 0x8000
      omega
  | some shmid =>
    obtain ⟨hid, hpos⟩ := h.pending shmid hshmid
    rw [count_some]
    refine ⟨hid, ?_, h.counter⟩
    rw [tabled, if_neg (by rw [hshmid]; exact Option.some_ne_none _)]
    omega

theorem SameNumbers.id (h : SameNumbers p p') (n : ℕ) :
    p'.ashvShmidFromCounter n = p.ashvShmidFromCounter n := by
  rw [shmid_eq, shmid_eq, h.localSocketId]

/-- The variables after a new number. -/
theorem Numbered.count_numbered (h : p.Numbered pid sockets)
    (hnum : p.phase.shmid = none → p.counter < 0x7fff) (hset : p.pidSetup = pid)
    (hl : p.listening = true) (hsame : SameNumbers (p.count p.phase.shmid) p')
    (hphase : p'.phase.shmid = none ∨ p'.phase.shmid = some (p.shmidFor p.phase.shmid)) :
    p'.Numbered pid sockets ∧ p'.pidSetup = pid ∧ p'.listening = true ∧
      p'.localSocketId = p.localSocketId ∧
      p.shmidFor p.phase.shmid = p'.ashvShmidFromCounter p'.counter ∧ p.tabled < p'.counter ∧
      p'.counter < 0x8000 := by
  obtain ⟨hid, hlt, hcounter⟩ := h.count hnum
  rw [← hsame.id, ← hsame.counter] at hid
  rw [← hsame.counter] at hlt hcounter
  have hset' := hsame.pidSetup.trans (p.pidSetup_count _)
  have hl' := hsame.listening.trans (p.listening_count _)
  have hsocket := hsame.localSocketId.trans (p.localSocketId_count _)
  refine ⟨⟨?_, ?_, fun _ => hset'.trans hset, fun _ => hl'.trans hl, ?_, hcounter⟩,
    hset'.trans hset, hl'.trans hl, hsocket, hid, hlt, hcounter⟩
  · rw [hset', hl', hsocket]
    exact h.listening
  · rw [hset', hl']
    exact h.unset
  · intro shmid hsome
    obtain hnone | hsome' := hphase
    · rw [hsome] at hnone
      cases hnone
    · obtain rfl := Option.some.inj (hsome'.symm.trans hsome)
      exact ⟨hid, Nat.one_le_of_lt hlt⟩

theorem create_sameNumbers {k k' : Kernel} {shmid key : ℤ} {size : ℕ} {allocated : Bool}
    (h : k.create p shmid key size allocated = (k', p')) :
    k'.sockets = k.sockets ∧ SameNumbers p p' ∧ p'.phase = .idle := by
  cases allocated with
  | false =>
    obtain ⟨rfl, rfl⟩ := Prod.mk.inj h
    exact ⟨rfl, ⟨rfl, rfl, rfl, rfl⟩, rfl⟩
  | true =>
    obtain ⟨rfl, rfl⟩ := Prod.mk.inj h
    exact ⟨rfl, ⟨rfl, rfl, rfl, rfl⟩, rfl⟩

theorem listen_none {k k' : Kernel} (hl : k.listen pid p = (k', none)) :
    k' = k ∧ p.listening = false := by
  obtain ⟨-, -, hq⟩ | ⟨hnot, hk, -⟩ | ⟨-, id, -, -, hq⟩ := World.listen_eq hl
  · cases hq
  · exact ⟨hk, hnot⟩
  · cases hq

/-- The socket of `shmget`: the one that there is, or a new one. -/
theorem listen_cases {k k' : Kernel} {q : Process} (h : p.Numbered pid k.sockets)
    (hset : p.pidSetup = pid) (hidle : p.phase = .idle) (hpid : pid ≠ 0)
    (hl : k.listen pid p = (k', some q)) :
    q.Numbered pid k'.sockets ∧ q.pidSetup = pid ∧ q.listening = true ∧ q.counter = p.counter ∧
      q.phase = p.phase ∧
      ((k'.sockets = k.sockets ∧ p.listening = true ∧ q.localSocketId = p.localSocketId) ∨
        (p.listening = false ∧ bindFrom k.sockets 4096 pid = some q.localSocketId ∧
          k'.sockets = Function.update k.sockets (q.localSocketId : ℤ) (some pid))) := by
  obtain ⟨hlistening, rfl, hq⟩ | ⟨-, -, hq, -⟩ | ⟨hnot, id, hid, rfl, hq⟩ := World.listen_eq hl
  · obtain rfl := Option.some.inj hq
    exact ⟨h, hset, hlistening, rfl, rfl, .inl ⟨rfl, hlistening, rfl⟩⟩
  · cases hq
  · obtain rfl := Option.some.inj hq
    refine ⟨⟨fun _ _ => ⟨Function.update_self .., (bindFrom_spec hid).2⟩,
      fun h0 => absurd (hset.symm.trans h0) hpid, fun _ => hset, fun _ => rfl, ?_, h.counter⟩,
      hset, rfl, rfl, rfl, .inr ⟨hnot, hid, rfl⟩⟩
    intro shmid hsome
    rw [show p.phase = _ from hidle] at hsome
    cases hsome

end Process

namespace World

/-- The number of the socket that a part of a call binds. -/
def binds (w : World) (pid : ℕ) (p : Process) : Call → Option ℕ
  | .shmget _ _ _ => if p.listening then none else bindFrom w.kernel.sockets 4096 pid
  | _ => none

variable {w w' : World} {pid : ℕ} {p p' : Process} {k' : Kernel} {c : Call} {s : Step}

/-- The process goes on with its numbers as they are. -/
theorem goesOn (hp : p.Numbered pid w.kernel.sockets) (hset : p.pidSetup = pid)
    (hsame : Process.SameNumbers p p')
    (hphase : p'.phase = .idle ∨ (∃ shmid peer, p'.phase = .attaching shmid peer) ∨
      (p.phase.InShmget ∧ (p'.phase.shmid = none ∨ p'.phase.shmid = p.phase.shmid))) :
    p'.Numbered pid w.kernel.sockets ∧ p.tabled ≤ p'.tabled := by
  have hshmid : p'.phase.shmid = none ∨ p'.phase.shmid = p.phase.shmid := by
    obtain h | ⟨shmid, peer, h⟩ | h := hphase
    · rw [h]
      exact .inl rfl
    · rw [h]
      exact .inl rfl
    · exact h.2
  refine ⟨hp.of_same hsame (fun _ => hset) (fun hin => ?_) hshmid, Process.tabled_le hsame hshmid⟩
  obtain h | ⟨shmid, peer, h⟩ | h := hphase
  · exact absurd h hin.1
  · exact absurd h (hin.2 shmid peer)
  · exact hp.inShmget h.1

theorem sameNumbers_readlink (sockets : ℤ → Option ℕ) (key : ℤ) (size : ℕ) (shmid : Option ℤ)
    (found : Option ℤ) : Process.SameNumbers p (p.readlink sockets key size shmid found) ∧
      ((p.readlink sockets key size shmid found).phase = .idle ∨
        (p.readlink sockets key size shmid found).phase.shmid = shmid) := by
  cases found with
  | none => exact ⟨⟨rfl, rfl, rfl, rfl⟩, .inr rfl⟩
  | some found =>
    simp only [Process.readlink]
    split_ifs
    · exact ⟨⟨rfl, rfl, rfl, rfl⟩, .inr rfl⟩
    · exact ⟨⟨rfl, rfl, rfl, rfl⟩, .inl rfl⟩
    · cases sockets (ashvSocketIdFromShmid found) with
      | none => exact ⟨⟨rfl, rfl, rfl, rfl⟩, .inr rfl⟩
      | some peer => exact ⟨⟨rfl, rfl, rfl, rfl⟩, .inr rfl⟩

theorem sameNumbers_attach (shmid : ℤ) (mapped : Option ℕ) :
    Process.SameNumbers p (p.attach shmid mapped) ∧ (p.attach shmid mapped).phase = .idle := by
  unfold Process.attach
  cases p.ashvFindLocal shmid with
  | none => exact ⟨⟨rfl, rfl, rfl, rfl⟩, rfl⟩
  | some e => exact ⟨⟨rfl, rfl, rfl, rfl⟩, rfl⟩

theorem sameNumbers_shmdt (shmaddr : Option ℕ) :
    Process.SameNumbers p (p.shmdt shmaddr) ∧ (p.shmdt shmaddr).phase = .idle := by
  unfold Process.shmdt
  cases p.shmem.find? fun e => e.addr = shmaddr with
  | none => exact ⟨⟨rfl, rfl, rfl, rfl⟩, rfl⟩
  | some e => exact ⟨⟨rfl, rfl, rfl, rfl⟩, rfl⟩

theorem sameNumbers_shmctlRmid (shmid : ℤ) :
    Process.SameNumbers p (p.shmctlRmid shmid) ∧ (p.shmctlRmid shmid).phase = .idle := by
  unfold Process.shmctlRmid
  cases p.ashvFindLocal shmid with
  | none => exact ⟨⟨rfl, rfl, rfl, rfl⟩, rfl⟩
  | some e => exact ⟨⟨rfl, rfl, rfl, rfl⟩, rfl⟩

/-- The calls that neither listen nor make a segment go on with the numbers as they are. -/
theorem call_sameNumbers
    (hnot : ∀ key size allocated, c ≠ .shmget key size allocated)
    (hnot' : ∀ allocated, c ≠ .symlink allocated) (h : w.call pid p c = some (k', p')) :
    k'.sockets = w.kernel.sockets ∧ w.created pid p c = none ∧ Process.SameNumbers p p' ∧
      (p'.phase = .idle ∨ (∃ shmid peer, p'.phase = .attaching shmid peer) ∨
        (p.phase.InShmget ∧ (p'.phase.shmid = none ∨ p'.phase.shmid = p.phase.shmid))) := by
  cases call_cases h with
  | noSocket _ _ | makePrivate _ _ _ | begin _ _ _ => exact absurd rfl (hnot _ _ _)
  | make _ _ _ | retry _ _ => exact absurd rfl (hnot' _)
  | @readlink key size shmid hphase =>
    obtain ⟨hsame, hnext⟩ := sameNumbers_readlink (p := p) w.kernel.sockets key size shmid
      (w.kernel.links key)
    refine ⟨rfl, rfl, hsame, hnext.imp_right fun hnext => .inr ⟨?_, .inr ?_⟩⟩
    · rw [hphase]
      simp [Phase.InShmget]
    · rw [hnext, hphase]
      rfl
  | unlink hphase | notGot hphase _ _ =>
    refine ⟨rfl, rfl, ⟨rfl, rfl, rfl, rfl⟩, .inr (.inr ⟨?_, .inr ?_⟩)⟩
    · rw [hphase]
      simp [Phase.InShmget]
    · rw [hphase]
      rfl
  | attach _ =>
    obtain ⟨hsame, hphase⟩ := sameNumbers_attach (p := p) _ _
    exact ⟨rfl, rfl, hsame, .inl hphase⟩
  | ask _ => exact ⟨rfl, rfl, ⟨rfl, rfl, rfl, rfl⟩, .inr (.inl ⟨_, _, rfl⟩)⟩
  | @attached _ _ mapped _ e _ _ _ =>
    obtain ⟨hsame, hphase⟩ := sameNumbers_attach (p := { p with shmem := p.shmem ++ [e] }) _ mapped
    exact ⟨rfl, rfl, ⟨hsame.1, hsame.2, hsame.3, hsame.4⟩, .inl hphase⟩
  | shmdt _ =>
    obtain ⟨hsame, hphase⟩ := sameNumbers_shmdt (p := p) _
    exact ⟨rfl, rfl, hsame, .inl hphase⟩
  | shmctlRmid _ =>
    obtain ⟨hsame, hphase⟩ := sameNumbers_shmctlRmid (p := p) _
    exact ⟨rfl, rfl, hsame, .inl hphase⟩
  | noSegment _ | got _ _ _ | notAttached _ | shmctlStat _ =>
    exact ⟨rfl, rfl, ⟨rfl, rfl, rfl, rfl⟩, .inl rfl⟩

/-- What a part of a call does to the numbers of its process, and the number that it gives to a new
segment. -/
structure Numbering (w : World) (pid : ℕ) (p : Process) (c : Call) (k' : Kernel) (p' : Process) :
    Prop where
  numbered : p'.Numbered pid k'.sockets
  tabled : p.tabled ≤ p'.tabled
  set : p'.pidSetup = pid
  listening : p.listening = true → p'.listening = true ∧ p'.localSocketId = p.localSocketId
  sockets : k'.sockets = w.kernel.sockets ∨
    (p.listening = false ∧ p'.listening = true ∧ w.kernel.sockets p'.localSocketId = none ∧
      w.binds pid p c = some p'.localSocketId ∧
      k'.sockets = Function.update w.kernel.sockets (p'.localSocketId : ℤ) (some pid))
  created : ∀ shmid, w.created pid p c = some shmid →
    k'.sockets p'.localSocketId = some pid ∧ p'.localSocketId < 0x10000 ∧
      ∃ n, shmid = idOf p'.localSocketId n ∧ n < 0x8000 ∧ p.tabled < n ∧ n ≤ p'.tabled

/-- A process of `shmget` that listens: its socket is the one that there was, or a new one, and
stays that of the process at the end of the part. -/
theorem numbering_listen {key : ℤ} {size : ℕ} {allocated : Bool} {k : Kernel} {q r : Process}
    (hp : p.Numbered pid w.kernel.sockets) (hset : p.pidSetup = pid) (hpid : pid ≠ 0)
    (hidle : p.phase = .idle) (hl : w.kernel.listen pid p = (k, some q))
    (hr : r.localSocketId = q.localSocketId) (hl' : r.listening = true) :
    (p.listening = true → r.listening = true ∧ r.localSocketId = p.localSocketId) ∧
      (k.sockets = w.kernel.sockets ∨
        (p.listening = false ∧ r.listening = true ∧ w.kernel.sockets r.localSocketId = none ∧
          w.binds pid p (.shmget key size allocated) = some r.localSocketId ∧
          k.sockets = Function.update w.kernel.sockets (r.localSocketId : ℤ) (some pid))) := by
  obtain ⟨-, -, -, -, -, hsockets⟩ := Process.listen_cases hp hset hidle hpid hl
  rw [hr]
  obtain ⟨hk, -, hsocket⟩ | ⟨hnot, hbind, hk⟩ := hsockets
  · exact ⟨fun _ => ⟨hl', hsocket⟩, .inl hk⟩
  · refine ⟨fun h => ?_, .inr ⟨hnot, hl', (bindFrom_spec hbind).1, ?_, hk⟩⟩
    · rw [hnot] at h
      cases h
    · simp only [binds, hnot, Bool.false_eq_true, if_false]
      exact hbind

/-- A new segment takes the last number that its process has given out. -/
theorem tabled_of_idle (hidle : p.phase = .idle) : p.tabled = p.counter := by
  unfold Process.tabled
  rw [hidle]
  rfl

theorem numbering_shmget {key : ℤ} {size : ℕ} {allocated : Bool}
    (hp : p.Numbered pid w.kernel.sockets) (hset : p.pidSetup = pid) (hpid : pid ≠ 0)
    (hnum : p.takesNumber (.shmget key size allocated) = true → p.counter < 0x7fff)
    (h : w.call pid p (.shmget key size allocated) = some (k', p')) :
    Numbering w pid p (.shmget key size allocated) k' p' := by
  cases call_cases h with
  | noSocket hidle hl =>
    obtain ⟨rfl, hnot⟩ := Process.listen_none hl
    have hnever : p.listening ≠ true := by
      rw [hnot]
      exact Bool.false_ne_true
    refine ⟨⟨fun _ hl' => absurd hl' hnever, fun _ => hnot, fun _ => hset,
      fun hin => absurd rfl hin.1, fun _ h => (by cases h), hp.counter⟩, ?_, hset,
      fun hl' => absurd hl' hnever, .inl rfl, fun shmid hcreated => ?_⟩
    · exact (tabled_of_idle hidle).le
    · simp [World.created, hl] at hcreated
  | @makePrivate _ _ k _ q _ hidle hl hcreate =>
    obtain ⟨hq, hqset, hqlistening, hqcounter, hqphase, -⟩ :=
      Process.listen_cases hp hset hidle hpid hl
    have hqidle : q.phase = .idle := hqphase.trans hidle
    have hqnone : q.phase.shmid = none := by
      rw [hqidle]
      rfl
    have htabled : p.tabled = q.tabled := by
      rw [tabled_of_idle hidle, tabled_of_idle hqidle, hqcounter]
    obtain ⟨hk', hsame, hdone⟩ := Process.create_sameNumbers hcreate
    rw [← hqnone] at hsame
    obtain ⟨hp', hset', hlistening', hsocket', hid, hlt, hcounter⟩ := hq.count_numbered
      (fun _ => by rw [hqcounter]; exact hnum (by rfl)) hqset hqlistening hsame
      (.inl (by rw [hdone]; rfl))
    obtain ⟨hkeeps, hbinds⟩ := numbering_listen hp hset hpid hidle hl hsocket' hlistening'
    rw [← hk'] at hbinds hp'
    refine ⟨hp', ?_, hset', hkeeps, hbinds, fun shmid hcreated => ?_⟩
    · rw [htabled, tabled_of_idle hdone]
      exact hlt.le
    · simp only [World.created, hl, Option.map_some] at hcreated
      split_ifs at hcreated
      obtain rfl := Option.some.inj hcreated
      obtain ⟨hbound, hbits⟩ := hp'.listening hset' hlistening'
      rw [← hqnone, htabled, tabled_of_idle hdone]
      exact ⟨hbound, hbits, p'.counter, hid.trans (p'.shmid_eq _), hcounter, hlt, le_refl _⟩
  | @begin _ _ _ _ q hidle hl hkey =>
    obtain ⟨hq, hqset, hqlistening, hqcounter, hqphase, -⟩ :=
      Process.listen_cases hp hset hidle hpid hl
    obtain ⟨hkeeps, hbinds⟩ := numbering_listen (r := { q with phase := .readlink key size none })
      hp hset hpid hidle hl rfl hqlistening
    refine ⟨hq.of_same ⟨rfl, rfl, rfl, rfl⟩ (fun _ => hqset) (fun _ => hqlistening) (.inl rfl),
      ?_, hqset, hkeeps, hbinds, fun shmid hcreated => ?_⟩
    · have htabled : p.tabled = q.tabled := by
        rw [tabled_of_idle hidle, tabled_of_idle (hqphase.trans hidle), hqcounter]
      rw [htabled]
      exact Process.tabled_le ⟨rfl, rfl, rfl, rfl⟩ (.inl rfl)
    · simp [World.created, hkey] at hcreated

theorem numbering_symlink {allocated : Bool} (hp : p.Numbered pid w.kernel.sockets)
    (hset : p.pidSetup = pid)
    (hnum : p.takesNumber (.symlink allocated) = true → p.counter < 0x7fff)
    (h : w.call pid p (.symlink allocated) = some (k', p')) :
    Numbering w pid p (.symlink allocated) k' p' := by
  have hlistening : ∀ {key size shmid}, p.phase = .symlink key size shmid → p.listening = true := by
    intro key size shmid hphase
    refine hp.inShmget ?_
    rw [hphase]
    simp [Phase.InShmget]
  have hshmid : ∀ {key size shmid}, p.phase = .symlink key size shmid → p.phase.shmid = shmid := by
    intro key size shmid hphase
    rw [hphase]
    rfl
  have hnum' : p.phase.shmid = none → p.counter < 0x7fff := fun hnone =>
    hnum (decide_eq_true hnone)
  cases call_cases h with
  | make hphase hlink hcreate =>
    have hlistens := hlistening hphase
    obtain rfl := hshmid hphase
    obtain ⟨hk', hsame, hdone⟩ := Process.create_sameNumbers hcreate
    obtain ⟨hp', hset', hlistening', hsocket', hid, hlt, hcounter⟩ :=
      hp.count_numbered hnum' hset hlistens hsame (.inl (by rw [hdone]; rfl))
    rw [← show k'.sockets = w.kernel.sockets from hk'] at hp'
    refine ⟨hp', ?_, hset', fun _ => ⟨hlistening', hsocket'⟩, .inl hk', fun shmid' hcreated => ?_⟩
    · rw [tabled_of_idle hdone]
      exact hlt.le
    · obtain ⟨hbound, hbits⟩ := hp'.listening hset' hlistening'
      rw [created_symlink hphase] at hcreated
      split_ifs at hcreated
      rw [← Option.some.inj hcreated, hid, tabled_of_idle hdone]
      exact ⟨hbound, hbits, p'.counter, p'.shmid_eq _, hcounter, hlt, le_refl _⟩
  | @retry key size shmid _ hphase hlink =>
    have hlistens := hlistening hphase
    obtain rfl := hshmid hphase
    have hsame : Process.SameNumbers (p.count p.phase.shmid)
        { p.count p.phase.shmid with
          phase := .readlink key size (some (p.shmidFor p.phase.shmid)) } :=
      ⟨rfl, rfl, rfl, rfl⟩
    obtain ⟨hp', hset', hlistening', hsocket', -, hlt, -⟩ :=
      hp.count_numbered hnum' hset hlistens hsame (.inr rfl)
    refine ⟨hp', ?_, hset', fun _ => ⟨hlistening', hsocket'⟩, .inl rfl, fun shmid' hcreated => ?_⟩
    · refine (Nat.le_sub_one_of_lt hlt).trans (le_of_eq ?_)
      exact (if_neg (Option.some_ne_none _)).symm
    · rw [created_symlink hphase, if_neg (fun h => hlink h.1)] at hcreated
      cases hcreated

theorem numbering_call (hp : p.Numbered pid w.kernel.sockets) (hset : p.pidSetup = pid)
    (hpid : pid ≠ 0) (hnum : p.takesNumber c = true → p.counter < 0x7fff)
    (h : w.call pid p c = some (k', p')) : Numbering w pid p c k' p' := by
  by_cases hshmget : ∃ key size allocated, c = .shmget key size allocated
  · obtain ⟨key, size, allocated, rfl⟩ := hshmget
    exact numbering_shmget hp hset hpid hnum h
  by_cases hsymlink : ∃ allocated, c = .symlink allocated
  · obtain ⟨allocated, rfl⟩ := hsymlink
    exact numbering_symlink hp hset hnum h
  obtain ⟨hk, hcreated, hsame, hphase⟩ := call_sameNumbers
    (fun key size allocated hc => hshmget ⟨key, size, allocated, hc⟩)
    (fun allocated hc => hsymlink ⟨allocated, hc⟩) h
  obtain ⟨hp', htabled⟩ := goesOn hp hset hsame hphase
  rw [← hk] at hp'
  refine ⟨hp', htabled, hsame.pidSetup.trans hset,
    fun hl => ⟨hsame.listening.trans hl, hsame.localSocketId⟩, .inl hk, fun shmid hc => ?_⟩
  rw [hcreated] at hc
  cases hc

/-! ### All processes -/

/-- The sockets and the numbers of all processes fit together, and an id of a table has a number
that its process gave out. -/
structure Numbered (w : World) : Prop where
  zero : w.processes 0 = none
  bound : ∀ n j, w.kernel.sockets n = some j →
    ∃ q, w.processes j = some q ∧ q.pidSetup = j ∧ q.listening = true ∧ n = q.localSocketId
  each : ∀ j q, w.processes j = some q → q.Numbered j w.kernel.sockets
  ids : ∀ h, w.Holds h → ∃ n c, n < 0x10000 ∧ c < 0x8000 ∧ h.1 = idOf n c ∧
    ∀ j q, w.kernel.sockets n = some j → w.processes j = some q → c ≤ q.tabled

/-- The counter does not wrap around, no socket is bound whose number is in an id of a table, and no
process is forked with the pid that its copy of the variables was set up for. -/
def Orderly (w : World) : Step → Prop
  | .fork pid child => ∀ p, w.processes pid = some p → p.pidSetup ≠ child
  | .call pid c =>
    ∀ p, w.processes pid = some p →
      ((p.live pid).takesNumber c = true → p.counter < 0x7fff) ∧
        ∀ n, w.binds pid (p.live pid) c = some n → ∀ h, w.Holds h → ∀ c < 0x8000, h.1 ≠ idOf n c
  | _ => True

theorem live_counter (p : Process) (pid : ℕ) : (p.live pid).counter = p.counter := by
  unfold Process.live Process.ashvCheckPid
  split_ifs
  · rfl
  · rfl
  · rfl
  · rfl

/-- The process that serves a socket is what its calls go on with. -/
theorem live_of_pidSetup (h : p.pidSetup = pid) (hpid : pid ≠ 0) : p.live pid = p := by
  unfold Process.live Process.ashvCheckPid
  rw [h, if_neg hpid, if_neg (not_not.2 rfl), ite_self]

theorem hangUp_same (p : Process) (pid : ℕ) :
    Process.SameNumbers p (p.hangUp pid) ∧ (p.hangUp pid).phase.shmid = p.phase.shmid ∧
      ((p.hangUp pid).phase = .idle ↔ p.phase = .idle) ∧
      ((p.hangUp pid).phase.InShmget ↔ p.phase.InShmget) := by
  unfold Process.hangUp Phase.InShmget
  split
  · rename_i hphase
    refine ⟨⟨rfl, rfl, rfl, rfl⟩, ?_, ?_, ?_⟩
    · rw [hphase]
      rfl
    · rw [hphase]
      exact ⟨nofun, nofun⟩
    · rw [hphase]
      exact iff_of_true ⟨nofun, nofun⟩ ⟨nofun, nofun⟩
  · rename_i hphase
    refine ⟨⟨rfl, rfl, rfl, rfl⟩, ?_, ?_, ?_⟩
    · rw [hphase]
      rfl
    · rw [hphase]
      exact ⟨nofun, nofun⟩
    · rw [hphase]
      exact iff_of_false (fun h => h.2 _ _ rfl) (fun h => h.2 _ _ rfl)
  · exact ⟨⟨rfl, rfl, rfl, rfl⟩, rfl, Iff.rfl, Iff.rfl⟩

theorem numbered_remove (hw : w.Numbered) : (w.remove pid).Numbered where
  zero := by
    simp only [remove, hw.zero, Option.map_none, ite_self]
  bound n j hn := by
    simp only [remove] at hn ⊢
    split_ifs at hn with hself
    obtain ⟨q, hq, hset, hl, rfl⟩ := hw.bound n j hn
    have hj : j ≠ pid := fun hj => hself (hj ▸ hn)
    obtain ⟨hsame, -⟩ := hangUp_same q pid
    refine ⟨q.hangUp pid, by rw [if_neg hj, hq, Option.map_some], hsame.pidSetup.trans hset,
      hsame.listening.trans hl, ?_⟩
    rw [hsame.localSocketId]
  each j q hq := by
    simp only [remove] at hq ⊢
    split_ifs at hq with hj
    obtain ⟨p, hp, rfl⟩ := Option.map_eq_some_iff.1 hq
    obtain ⟨hsame, hshmid, hidle, hin⟩ := hangUp_same p pid
    have hpn := hw.each j p hp
    have hp' := hpn.of_same hsame (fun h => hpn.set fun h' => h (hidle.2 h'))
      (fun h => hpn.inShmget (hin.1 h)) (.inr hshmid)
    refine ⟨fun hset hl => ?_, hp'.unset, hp'.set, hp'.inShmget, hp'.pending, hp'.counter⟩
    obtain ⟨hbound, hbits⟩ := hp'.listening hset hl
    refine ⟨?_, hbits⟩
    rw [hbound, if_neg]
    exact fun h => hj (Option.some.inj h)
  ids h hh := by
    obtain ⟨n, c, hn, hc, hid, hle⟩ := hw.ids h hh.of_remove
    refine ⟨n, c, hn, hc, hid, fun j q hbound hq => ?_⟩
    simp only [remove] at hbound hq
    split_ifs at hbound with hself
    split_ifs at hq with hj
    obtain ⟨p, hp, rfl⟩ := Option.map_eq_some_iff.1 hq
    obtain ⟨hsame, hshmid, -⟩ := hangUp_same p pid
    exact (hle j p hbound hp).trans (Process.tabled_le hsame (.inr hshmid))

/-- A new process. -/
theorem numbered_put (hw : w.Numbered) (hpid : pid ≠ 0) (hnew : w.processes pid = none)
    (hp : p.Numbered pid w.kernel.sockets) (hhandles : ∀ h ∈ p.handles, w.Holds h) :
    (w.put pid p).Numbered where
  zero := by
    rw [put_processes_of_ne hpid.symm]
    exact hw.zero
  bound n j hn := by
    obtain ⟨q, hq, hrest⟩ := hw.bound n j hn
    have hj : j ≠ pid := by
      rintro rfl
      rw [hnew] at hq
      cases hq
    exact ⟨q, (put_processes_of_ne hj p).trans hq, hrest⟩
  each j q hq := by
    by_cases hj : j = pid
    · rw [hj, put_processes_self] at hq
      obtain rfl := Option.some.inj hq
      rw [hj]
      exact hp
    · rw [put_processes_of_ne hj] at hq
      exact hw.each j q hq
  ids h hh := by
    have hold : w.Holds h := by
      obtain hh | ⟨i, q, -, hq, hh⟩ := holds_put.1 hh
      · exact hhandles h hh
      · exact ⟨i, q, hq, hh⟩
    obtain ⟨n, c, hn, hc, hid, hle⟩ := hw.ids h hold
    refine ⟨n, c, hn, hc, hid, fun j q hbound hq => ?_⟩
    have hj : j ≠ pid := by
      rintro rfl
      obtain ⟨q, hq, -⟩ := hw.bound n j hbound
      rw [hnew] at hq
      cases hq
    rw [put_processes_of_ne hj] at hq
    exact hle j q hbound hq

/-- A socket stays with its process. -/
theorem Numbering.served (hstep : Numbering w pid p c k' p') {n : ℤ} {j : ℕ}
    (hn : w.kernel.sockets n = some j) : k'.sockets n = some j := by
  obtain hk | ⟨-, -, hnone, -, hk⟩ := hstep.sockets
  · rw [hk]
    exact hn
  · rw [hk, Function.update_of_ne, hn]
    rintro rfl
    rw [hnone] at hn
    cases hn

/-- A process that serves a socket had it before the call, or it is the calling process. -/
theorem bound_call (hw : w.Numbered) (hp : w.processes pid = some p) (hpid : pid ≠ 0)
    (hstep : Numbering w pid (p.live pid) c k' p') {n : ℤ} {j : ℕ} (hn : k'.sockets n = some j) :
    ∃ q, (w.put pid p').processes j = some q ∧ q.pidSetup = j ∧ q.listening = true ∧
      n = q.localSocketId := by
  by_cases hnew : w.kernel.sockets n = some j
  · obtain ⟨q, hq, hqset, hl, rfl⟩ := hw.bound n j hnew
    by_cases hj : j = pid
    · subst hj
      obtain rfl := Option.some.inj (hp.symm.trans hq)
      rw [live_of_pidSetup hqset hpid] at hstep
      obtain ⟨hl', hsocket⟩ := hstep.listening hl
      exact ⟨p', put_processes_self j p', hstep.set, hl', congrArg _ hsocket.symm⟩
    · exact ⟨q, (put_processes_of_ne hj p').trans hq, hqset, hl, rfl⟩
  · obtain hk | ⟨-, hl', -, -, hk⟩ := hstep.sockets
    · rw [hk] at hn
      exact absurd hn hnew
    · rw [hk] at hn
      by_cases hsocket : n = p'.localSocketId
      · rw [hsocket, Function.update_self] at hn
        obtain rfl := Option.some.inj hn
        exact ⟨p', put_processes_self pid p', hstep.set, hl', hsocket⟩
      · rw [Function.update_of_ne hsocket] at hn
        exact absurd hn hnew

theorem each_call (hw : w.Numbered) (hstep : Numbering w pid (p.live pid) c k' p') {j : ℕ}
    {q : Process} (hq : (w.put pid p').processes j = some q) : q.Numbered j k'.sockets := by
  by_cases hj : j = pid
  · rw [hj, put_processes_self] at hq
    obtain rfl := Option.some.inj hq
    rw [hj]
    exact hstep.numbered
  · rw [put_processes_of_ne hj] at hq
    have hqn := hw.each j q hq
    refine ⟨fun hset' hl' => ?_, hqn.unset, hqn.set, hqn.inShmget, hqn.pending, hqn.counter⟩
    obtain ⟨hbound, hbits⟩ := hqn.listening hset' hl'
    exact ⟨hstep.served hbound, hbits⟩

/-- An id that was in a table before the call has a number that its process gave out. -/
theorem ids_call (hw : w.Numbered) (hp : w.processes pid = some p)
    (hstep : Numbering w pid (p.live pid) c k' p') (htabled : p.tabled ≤ p'.tabled)
    (hfree : ∀ n, w.binds pid (p.live pid) c = some n →
      ∀ h, w.Holds h → ∀ c < 0x8000, h.1 ≠ idOf n c)
    {handle : ℤ × ℕ × ℤ} (hh : w.Holds handle) :
    ∃ n c, n < 0x10000 ∧ c < 0x8000 ∧ handle.1 = idOf n c ∧
      ∀ j q, k'.sockets n = some j → (w.put pid p').processes j = some q → c ≤ q.tabled := by
  obtain ⟨n, c₀, hn, hc₀, hid, hle⟩ := hw.ids handle hh
  refine ⟨n, c₀, hn, hc₀, hid, fun j q hbound hq => ?_⟩
  have hbound' : w.kernel.sockets n = some j := by
    obtain hk | ⟨-, -, -, hbinds, hk⟩ := hstep.sockets
    · rw [← hk]
      exact hbound
    · rw [hk, Function.update_of_ne] at hbound
      · exact hbound
      · intro hsocket
        obtain rfl : n = p'.localSocketId := by exact_mod_cast hsocket
        exact hfree _ hbinds handle hh c₀ hc₀ hid
  by_cases hj : j = pid
  · rw [hj, put_processes_self] at hq
    obtain rfl := Option.some.inj hq
    exact (hle pid p (hj ▸ hbound') hp).trans htabled
  · rw [put_processes_of_ne hj] at hq
    exact hle j q hbound' hq

/-- The number of a new segment is above those in the tables. -/
theorem not_reuses_call (hw : w.Numbered) (hp : w.processes pid = some p)
    (hstep : Numbering w pid (p.live pid) c k' p') (htabled : (p.live pid).tabled = p.tabled)
    (hfree : ∀ n, w.binds pid (p.live pid) c = some n →
      ∀ h, w.Holds h → ∀ c < 0x8000, h.1 ≠ idOf n c) : ¬ w.Reuses (.call pid c) := by
  rintro ⟨q, shmid, hq, hcreated, handle, hkeeps, hid⟩
  obtain rfl := Option.some.inj (hp.symm.trans hq)
  obtain ⟨hbound, hbits, n, hnew, hn, hlt, -⟩ := hstep.created shmid hcreated
  obtain ⟨m, c₀, hm, hc₀, hid', hle⟩ := hw.ids handle hkeeps.holds
  rw [hid, hnew] at hid'
  obtain ⟨rfl, rfl⟩ := idOf_inj hbits hm (by omega) (by omega) hid'
  obtain hk | ⟨-, -, -, hbinds, -⟩ := hstep.sockets
  · rw [hk] at hbound
    exact absurd (hle pid p hbound hp) (by omega)
  · exact hfree _ hbinds handle hkeeps.holds n hn (hid.trans hnew)

theorem numbered_call (hw : w.Numbered) (hp : w.processes pid = some p)
    (horderly : w.Orderly (.call pid c)) (h : w.call pid (p.live pid) c = some (k', p')) :
    ({ w.put pid p' with kernel := k' } : World).Numbered ∧ ¬ w.Reuses (.call pid c) := by
  have hpid : pid ≠ 0 := by
    rintro rfl
    rw [hw.zero] at hp
    cases hp
  obtain ⟨hnum, hfree⟩ := horderly p hp
  obtain ⟨hlive, hset, htabled, -⟩ := (hw.each pid p hp).live hpid
  have hstep := numbering_call hlive hset hpid (fun ht => by rw [live_counter]; exact hnum ht) h
  refine ⟨⟨?_, fun _ _ => bound_call hw hp hpid hstep, fun _ _ => each_call hw hstep,
    fun handle hh => ?_⟩, not_reuses_call hw hp hstep htabled hfree⟩
  · rw [put_processes_of_ne hpid.symm]
    exact hw.zero
  have hold : w.Holds handle → _ := ids_call hw hp hstep (htabled.symm.le.trans hstep.tabled) hfree
  have hh : (w.put pid p').Holds handle := hh
  obtain ⟨-, -, hsub⟩ | ⟨copy, -, -, hcopy, hp'⟩ | ⟨shmid, key, size, hsome, -, hp'⟩ :=
    call_handles h
  · exact hold ((keeps_iff hp).2 ((holds_put.1 hh).imp_left fun hh => hsub hh)).holds
  · rw [holds_put, hp', List.mem_append, List.mem_singleton] at hh
    obtain (hh | rfl) | hh := hh
    · exact hold ((keeps_iff hp).2 (.inl hh)).holds
    · exact hold hcopy
    · exact hold ((keeps_iff hp).2 (.inr hh)).holds
  · rw [holds_put, hp', List.mem_append, List.mem_singleton] at hh
    obtain (hh | rfl) | hh := hh
    · exact hold ((keeps_iff hp).2 (.inl hh)).holds
    · -- the new segment
      obtain ⟨hbound, hbits, n, hid, hn, -, hle⟩ := hstep.created shmid hsome
      refine ⟨p'.localSocketId, n, hbits, hn, hid, fun j q hj hq => ?_⟩
      obtain rfl := Option.some.inj (hbound.symm.trans hj)
      rw [put_processes_self] at hq
      obtain rfl := Option.some.inj hq
      exact hle
    · exact hold ((keeps_iff hp).2 (.inr hh)).holds

theorem numbered_step (hw : w.Numbered) (horderly : w.Orderly s) (h : w.step s = some w') :
    w'.Numbered ∧ ¬ w.Reuses s := by
  cases s with
  | start pid =>
    simp only [step] at h
    split_ifs at h with hnew
    obtain rfl := Option.some.inj h
    rw [not_or, Bool.not_eq_true, Option.isSome_eq_false_iff, Option.isNone_iff_eq_none] at hnew
    refine ⟨numbered_put hw hnew.1 hnew.2 ?_ fun _ h => (by cases h), id⟩
    exact ⟨fun _ h => (by cases h), fun _ => rfl, fun h => absurd rfl h, fun h => absurd rfl h.1,
      fun _ h => (by cases h), by decide⟩
  | fork pid child =>
    simp only [step] at h
    split_ifs at h with hnew
    obtain ⟨p, hp, rfl⟩ := Option.map_eq_some_iff.1 h
    rw [not_or, Bool.not_eq_true, Option.isSome_eq_false_iff, Option.isNone_iff_eq_none] at hnew
    have hpn := hw.each pid p hp
    refine ⟨numbered_put hw hnew.1 hnew.2 ?_ fun handle hh => ⟨pid, p, hp, hh⟩, id⟩
    exact ⟨fun hset => absurd hset (horderly p hp), hpn.unset, fun h => absurd rfl h,
      fun h => absurd rfl h.1, fun _ h => (by cases h), hpn.counter⟩
  | exit pid =>
    obtain ⟨p, -, rfl⟩ := Option.map_eq_some_iff.1 h
    exact ⟨numbered_remove hw, id⟩
  | call pid c =>
    obtain ⟨p, hp, h⟩ := Option.bind_eq_some_iff.1 h
    obtain ⟨⟨k', p'⟩, hcall, rfl⟩ := Option.map_eq_some_iff.1 h
    exact numbered_call hw hp horderly hcall

theorem numbered_start : ({} : World).Numbered where
  zero := rfl
  bound _ _ h := nomatch h
  each _ _ h := nomatch h
  ids _ h := by
    obtain ⟨_, _, hp, _⟩ := h
    cases hp

/-- **Ids are not given twice.**  In every run of all processes in which no counter wraps around, no
socket is bound whose number is in an id of a table, and no process is forked with the pid that its
copy of the variables was set up for, no segment is made under an id that is still in a table, and
the tables agree. -/
theorem agree_of_orderly {steps : List Step} (h : tryExec step {} steps = some w')
    (horderly : TryAlways step Orderly {} steps) :
    TryAlways step (fun w s => ¬ w.Reuses s) {} steps ∧ w'.Agree := by
  obtain ⟨-, hfresh⟩ := horderly.imp_of_invariant (I := Numbered)
    (Q := fun w s => ¬ w.Reuses s) (fun s a s' hI hP hs => numbered_step hI hP hs) numbered_start h
  refine ⟨hfresh, ?_⟩
  have hstart : ∀ h, ¬ ({} : World).Holds h := fun _ ⟨_, _, hp, _⟩ => nomatch hp
  exact (tryExec_invariant (I := fun w => Made w ∧ Agree w)
    (fun s a s' hI hP hs => ⟨made_step hI.1 hs, (agree_step_iff hI.1 hI.2 hs).2 hP⟩)
    ⟨fun h hh => absurd hh (hstart h), fun h _ hh => absurd hh (hstart h)⟩ hfresh h).2

/-- The calls of a process that has its socket and has no use for a new number. -/
theorem orderly_shmat (w : World) (pid : ℕ) (shmid : ℤ) (mapped : Option ℕ) :
    w.Orderly (.call pid (.shmat shmid mapped)) := fun _ _ => ⟨nofun, nofun⟩

theorem orderly_answer (w : World) (pid : ℕ) (mapped : Option ℕ) :
    w.Orderly (.call pid (.answer mapped)) := fun _ _ => ⟨nofun, nofun⟩

theorem agree_attachOther : ∃ t, tryExec step {} attachOther = some t ∧ t.Agree := by
  obtain ⟨t, ht⟩ := Option.isSome_iff_exists.1
    (show (tryExec step {} attachOther).isSome = true by decide +kernel)
  refine ⟨t, ht, (agree_of_orderly ht ?_).2⟩
  refine ⟨trivial, fun w₁ h₁ => ⟨trivial, fun w₂ h₂ => ⟨fun p hp => ?_, fun w₃ _ =>
    ⟨orderly_shmat w₃ 6 _ _, fun w₄ _ => ⟨orderly_answer w₄ 6 _, fun _ _ => trivial⟩⟩⟩⟩⟩
  obtain rfl := Option.some.inj h₁
  obtain rfl := Option.some.inj h₂
  obtain rfl := Option.some.inj hp
  refine ⟨by decide, fun n _ h hh => ?_⟩
  obtain hh | ⟨i, q, -, hq, hh⟩ := holds_put.1 hh
  · cases hh
  · obtain hh | ⟨i, q, -, hq, hh⟩ := holds_put.1 ⟨i, q, hq, hh⟩
    · cases hh
    · cases hq

end World

end TermuxX11.Shm
