import TermuxX11.Shm.Segments

/-!
# What the tables say of one segment

A process gets a segment by its id, from a table of its own or from the process that made it.  The
tables agree if an id stands for one region and one key wherever it is found.  Nothing but a new
segment under an id that is still in a table can end that.
-/

namespace TermuxX11.Shm

open Run

/-! ### The handles of a table -/

/-- What a table says of a segment: its id, its region and its key. -/
def Shmem.handle (e : Shmem) : ℤ × ℕ × ℤ := (e.id, e.descriptor, e.key)

theorem map_handle_updateFirst {q : Shmem → Bool} {f : Shmem → Shmem}
    (hf : ∀ e, (f e).handle = e.handle) (l : List Shmem) :
    (updateFirst q f l).map Shmem.handle = l.map Shmem.handle := by
  induction l with
  | nil => rfl
  | cons e l ih =>
    rw [updateFirst]
    split_ifs
    · rw [List.map_cons, List.map_cons, hf]
    · rw [List.map_cons, List.map_cons, ih]

/-- An entry is taken out of a table, or changed. -/
theorem map_handle_subset {c : Prop} {_ : Decidable c} {q r : Shmem → Bool} {f : Shmem → Shmem}
    (hf : ∀ e, (f e).handle = e.handle) (l : List Shmem) :
    (if c then l.eraseP q else updateFirst r f l).map Shmem.handle ⊆ l.map Shmem.handle := by
  split_ifs
  · exact (List.eraseP_sublist.map _).subset
  · rw [map_handle_updateFirst hf]
    exact List.Subset.refl _

namespace Process

def handles (p : Process) : List (ℤ × ℕ × ℤ) := p.shmem.map Shmem.handle

variable (p : Process)

@[simp] theorem handles_count (shmid : Option ℤ) : (p.count shmid).handles = p.handles :=
  congrArg (List.map Shmem.handle) (p.shmem_count shmid)

@[simp] theorem handles_readlink (sockets : ℤ → Option ℕ) (key : ℤ) (size : ℕ) (shmid : Option ℤ)
    (found : Option ℤ) : (p.readlink sockets key size shmid found).handles = p.handles := by
  cases found with
  | none => rfl
  | some found =>
    simp only [readlink]
    split_ifs
    · rfl
    · rfl
    · cases sockets (ashvSocketIdFromShmid found) with
      | none => rfl
      | some peer => rfl

@[simp] theorem handles_attach (shmid : ℤ) (mapped : Option ℕ) :
    (p.attach shmid mapped).handles = p.handles := by
  unfold attach
  cases p.ashvFindLocal shmid with
  | none => rfl
  | some e =>
    show (updateFirst _ _ p.shmem).map Shmem.handle = _
    rw [map_handle_updateFirst]
    · rfl
    · exact fun _ => rfl

theorem handles_shmdt (shmaddr : Option ℕ) : (p.shmdt shmaddr).handles ⊆ p.handles := by
  unfold shmdt
  cases p.shmem.find? fun e => e.addr = shmaddr with
  | none => exact List.Subset.refl _
  | some e =>
    refine map_handle_subset ?_ p.shmem
    exact fun _ => rfl

theorem handles_shmctlRmid (shmid : ℤ) : (p.shmctlRmid shmid).handles ⊆ p.handles := by
  unfold shmctlRmid
  cases p.ashvFindLocal shmid with
  | none => exact List.Subset.refl _
  | some e =>
    refine map_handle_subset ?_ p.shmem
    exact fun _ => rfl

theorem handles_live (pid : ℕ) : (p.live pid).handles ⊆ p.handles := by
  unfold live ashvCheckPid
  split_ifs
  · exact List.Subset.refl _
  · exact List.nil_subset _
  · exact List.Subset.refl _
  · exact List.Subset.refl _

end Process

/-! ### What a call does to the tables -/

namespace World

variable (w : World)

/-- The id of the segment that a part of a call makes. -/
def created (pid : ℕ) (p : Process) : Call → Option ℤ
  | .shmget key _ allocated =>
    if key = IPC_PRIVATE ∧ allocated then
      (w.kernel.listen pid p).2.map fun p => p.shmidFor none
    else none
  | .symlink allocated =>
    match p.phase with
    | .symlink key _ shmid =>
      if w.kernel.links key = none ∧ allocated then some (p.shmidFor shmid) else none
    | _ => none
  | _ => none

/-- A process has the handle in its table. -/
def Holds (h : ℤ × ℕ × ℤ) : Prop := ∃ i p, w.processes i = some p ∧ h ∈ p.handles

variable {w} {pid : ℕ} {p p' : Process} {k k' : Kernel} {c : Call}

theorem subset_of_handles (h : p'.handles = p.handles) : p'.handles ⊆ p.handles := by
  rw [h]
  exact List.Subset.refl _

theorem created_symlink {key : ℤ} {size : ℕ} {shmid : Option ℤ} {allocated : Bool}
    (hphase : p.phase = .symlink key size shmid) : w.created pid p (.symlink allocated) =
      if w.kernel.links key = none ∧ allocated then some (p.shmidFor shmid) else none := by
  simp only [created, hphase]

theorem listen_regions {q : Option Process} (h : k.listen pid p = (k', q)) :
    k'.regions = k.regions := by
  obtain ⟨-, rfl, -⟩ | ⟨-, rfl, -⟩ | ⟨-, id, -, rfl, -⟩ := listen_eq h
  · rfl
  · rfl
  · rfl

theorem listen_handles {q : Process} (h : k.listen pid p = (k', some q)) :
    q.handles = p.handles := by
  obtain ⟨-, -, hq⟩ | ⟨-, -, hq, -⟩ | ⟨-, id, -, -, hq⟩ := listen_eq h
  · obtain rfl := Option.some.inj hq
    rfl
  · cases hq
  · obtain rfl := Option.some.inj hq
    rfl

/-- The end of `shmget`. -/
theorem create_cases {shmid key : ℤ} {size : ℕ} {allocated : Bool}
    (h : k.create p shmid key size allocated = (k', p')) :
    (allocated = false ∧ k' = k ∧ p'.handles = p.handles) ∨
    (allocated = true ∧ k'.regions = k.regions ++ [roundUp size] ∧
      p'.handles = p.handles ++ [(shmid, k.regions.length, key)]) := by
  cases allocated with
  | false =>
    obtain ⟨rfl, rfl⟩ := Prod.mk.inj h
    exact .inl ⟨rfl, rfl, rfl⟩
  | true =>
    obtain ⟨rfl, rfl⟩ := Prod.mk.inj h
    exact .inr ⟨rfl, rfl, List.map_append⟩

/-- What the remote table has is what it says. -/
theorem respond_handle {shmid : ℤ} {peer : Option ℕ} {answer : Option Shmem} {e : Shmem}
    (ha : w.respond shmid peer = some answer) (he : w.kernel.readRemote answer = some e) :
    w.Holds e.handle ∧ e.id = shmid := by
  obtain ⟨f, rfl, hf⟩ := Option.bind_eq_some_iff.1 he
  have hhandle : e.handle = f.handle := by
    dsimp only at hf
    split_ifs at hf with hsize
    obtain rfl := Option.some.inj hf
    rfl
  unfold respond at ha
  cases hpeer : peer.bind w.processes with
  | none => simp [hpeer] at ha
  | some q =>
    rw [hpeer] at ha
    dsimp only at ha
    split_ifs at ha with hidle
    obtain ⟨j, rfl, hj⟩ := Option.bind_eq_some_iff.1 hpeer
    have hfind : q.ashvFindLocal shmid = some f := Option.some.inj ha
    refine ⟨⟨j, q, hj, ?_⟩, ?_⟩
    · rw [hhandle]
      exact List.mem_map_of_mem (List.mem_of_find?_eq_some hfind)
    · have hid : f.id = shmid := by simpa using List.find?_some hfind
      rw [← hid]
      exact congrArg Prod.fst hhandle

/-- A part of a call leaves the table, or takes handles out; or copies a handle of another table;
or makes a segment. -/
theorem call_handles (h : w.call pid p c = some (k', p')) :
    (w.created pid p c = none ∧ k'.regions = w.kernel.regions ∧ p'.handles ⊆ p.handles) ∨
    (∃ copy, w.created pid p c = none ∧ k'.regions = w.kernel.regions ∧ w.Holds copy ∧
      p'.handles = p.handles ++ [copy]) ∨
    (∃ shmid key size, w.created pid p c = some shmid ∧
      k'.regions = w.kernel.regions ++ [roundUp size] ∧
      p'.handles = p.handles ++ [(shmid, w.kernel.regions.length, key)]) := by
  cases call_cases h with
  | noSocket _ hlisten =>
    exact .inl ⟨by simp [created, hlisten], listen_regions hlisten, List.Subset.refl _⟩
  | @makePrivate size allocated k _ q _ _ hlisten hcreate =>
    have hq : (q.count none).handles = p.handles :=
      (q.handles_count none).trans (listen_handles hlisten)
    obtain ⟨rfl, rfl, hp⟩ | ⟨rfl, hk, hp⟩ := create_cases hcreate
    · exact .inl ⟨by simp [created], listen_regions hlisten, subset_of_handles (hp.trans hq)⟩
    · rw [listen_regions hlisten] at hk hp
      rw [hq] at hp
      exact .inr (.inr ⟨q.shmidFor none, IPC_PRIVATE, size, by simp [created, hlisten], hk, hp⟩)
  | begin _ hlisten hkey =>
    have hq := listen_handles hlisten
    exact .inl ⟨by simp [created, hkey], listen_regions hlisten, subset_of_handles hq⟩
  | readlink _ => exact .inl ⟨rfl, rfl, subset_of_handles (p.handles_readlink ..)⟩
  | @make key size shmid allocated _ _ hphase hlink hcreate =>
    have hcount : (p.count shmid).handles = p.handles := p.handles_count shmid
    obtain ⟨rfl, rfl, hp⟩ | ⟨rfl, hk, hp⟩ := create_cases hcreate
    · exact .inl ⟨by simp [created, hphase], rfl, subset_of_handles (hp.trans hcount)⟩
    · rw [hcount] at hp
      exact .inr (.inr ⟨p.shmidFor shmid, key, size, by simp [created, hphase, hlink], hk, hp⟩)
  | retry hphase hlink =>
    exact .inl ⟨by simp [created, hphase, hlink], rfl, subset_of_handles (p.handles_count _)⟩
  | attach _ => exact .inl ⟨rfl, rfl, subset_of_handles (p.handles_attach ..)⟩
  | got _ hanswer hread =>
    exact .inr (.inl ⟨_, rfl, rfl, (respond_handle hanswer hread).1, List.map_append⟩)
  | attached _ hanswer hread =>
    refine .inr (.inl ⟨_, rfl, rfl, (respond_handle hanswer hread).1, ?_⟩)
    rw [Process.handles_attach]
    exact List.map_append
  | shmdt _ => exact .inl ⟨rfl, rfl, p.handles_shmdt _⟩
  | shmctlRmid _ => exact .inl ⟨rfl, rfl, p.handles_shmctlRmid _⟩
  | unlink _ | noSegment _ | ask _ | notGot _ _ _ | notAttached _ | shmctlStat _ =>
    exact .inl ⟨rfl, rfl, List.Subset.refl _⟩

/-! ### Agreement -/

/-- An id stands for the same region and the same key in all tables. -/
def Agree (w : World) : Prop := ∀ h h', w.Holds h → w.Holds h' → h.1 = h'.1 → h = h'

/-- A handle of another process, or one that the calling process goes on with. -/
def Keeps (w : World) (pid : ℕ) (h : ℤ × ℕ × ℤ) : Prop :=
  ∃ i p, w.processes i = some p ∧ h ∈ (if i = pid then (p.live pid).handles else p.handles)

/-- The step makes a segment under an id that is still in a table. -/
def Reuses (w : World) : Step → Prop
  | .call pid c =>
    ∃ p shmid, w.processes pid = some p ∧ w.created pid (p.live pid) c = some shmid ∧
      ∃ h, w.Keeps pid h ∧ h.1 = shmid
  | _ => False

/-- The regions of the tables were made. -/
def Made (w : World) : Prop := ∀ h, w.Holds h → h.2.1 < w.kernel.regions.length

variable {w' : World} {s : Step}

theorem Keeps.holds {h : ℤ × ℕ × ℤ} (hh : w.Keeps pid h) : w.Holds h := by
  obtain ⟨i, p, hp, hh⟩ := hh
  refine ⟨i, p, hp, ?_⟩
  split_ifs at hh
  · exact p.handles_live pid hh
  · exact hh

/-- The handles that there are when the process `pid` has become `p'`. -/
theorem holds_put {h : ℤ × ℕ × ℤ} :
    (w.put pid p').Holds h ↔
      h ∈ p'.handles ∨ ∃ i q, i ≠ pid ∧ w.processes i = some q ∧ h ∈ q.handles := by
  constructor
  · rintro ⟨i, q, hq, hh⟩
    by_cases hi : i = pid
    · rw [hi, put_processes_self] at hq
      obtain rfl := Option.some.inj hq
      exact .inl hh
    · rw [put_processes_of_ne hi] at hq
      exact .inr ⟨i, q, hi, hq, hh⟩
  · rintro (hh | ⟨i, q, hi, hq, hh⟩)
    · exact ⟨pid, p', put_processes_self pid p', hh⟩
    · exact ⟨i, q, (put_processes_of_ne hi p').trans hq, hh⟩

theorem keeps_iff (hp : w.processes pid = some p) {h : ℤ × ℕ × ℤ} :
    w.Keeps pid h ↔
      h ∈ (p.live pid).handles ∨ ∃ i q, i ≠ pid ∧ w.processes i = some q ∧ h ∈ q.handles := by
  constructor
  · rintro ⟨i, q, hq, hh⟩
    split_ifs at hh with hi
    · rw [hi, hp] at hq
      obtain rfl := Option.some.inj hq
      exact .inl hh
    · exact .inr ⟨i, q, hi, hq, hh⟩
  · rintro (hh | ⟨i, q, hi, hq, hh⟩)
    · exact ⟨pid, p, hp, by rwa [if_pos rfl]⟩
    · exact ⟨i, q, hq, by rwa [if_neg hi]⟩

theorem Holds.of_remove {h : ℤ × ℕ × ℤ} (hh : (w.remove pid).Holds h) : w.Holds h := by
  obtain ⟨i, q, hq, hh⟩ := hh
  simp only [remove] at hq
  split_ifs at hq with hi
  obtain ⟨p, hp, rfl⟩ := Option.map_eq_some_iff.1 hq
  refine ⟨i, p, hp, ?_⟩
  have hshmem : (p.hangUp pid).shmem = p.shmem := by
    unfold Process.hangUp
    split
    · rfl
    · rfl
    · rfl
  simpa only [Process.handles, hshmem] using hh

/-- A step makes no handle, or it makes a segment. -/
theorem step_holds (h : w.step s = some w') :
    (¬ w.Reuses s ∧ w'.kernel.regions = w.kernel.regions ∧ ∀ h, w'.Holds h → w.Holds h) ∨
    (∃ pid shmid key size, (w.Reuses s ↔ ∃ h, w.Keeps pid h ∧ h.1 = shmid) ∧
      w'.kernel.regions = w.kernel.regions ++ [roundUp size] ∧
      ∀ h, w'.Holds h ↔ w.Keeps pid h ∨ h = (shmid, w.kernel.regions.length, key)) := by
  cases s with
  | start pid =>
    simp only [step] at h
    split_ifs at h
    obtain rfl := Option.some.inj h
    refine .inl ⟨id, rfl, fun h hh => ?_⟩
    obtain hh | ⟨i, q, -, hq, hh⟩ := holds_put.1 hh
    · cases hh
    · exact ⟨i, q, hq, hh⟩
  | fork pid child =>
    simp only [step] at h
    split_ifs at h
    obtain ⟨p, hp, rfl⟩ := Option.map_eq_some_iff.1 h
    refine .inl ⟨id, rfl, fun h hh => ?_⟩
    obtain hh | ⟨i, q, -, hq, hh⟩ := holds_put.1 hh
    · exact ⟨pid, p, hp, hh⟩
    · exact ⟨i, q, hq, hh⟩
  | exit pid =>
    obtain ⟨p, -, rfl⟩ := Option.map_eq_some_iff.1 h
    exact .inl ⟨id, rfl, fun h hh => hh.of_remove⟩
  | call pid c =>
    obtain ⟨p, hp, h⟩ := Option.bind_eq_some_iff.1 h
    obtain ⟨⟨k', p'⟩, hcall, rfl⟩ := Option.map_eq_some_iff.1 h
    have hholds : ∀ h, ({ w.put pid p' with kernel := k' } : World).Holds h ↔
        h ∈ p'.handles ∨ ∃ i q, i ≠ pid ∧ w.processes i = some q ∧ h ∈ q.handles :=
      fun h => holds_put
    have hreuses : w.Reuses (.call pid c) ↔
        ∃ shmid, w.created pid (p.live pid) c = some shmid ∧ ∃ h, w.Keeps pid h ∧ h.1 = shmid := by
      constructor
      · rintro ⟨q, shmid, hq, hshmid⟩
        obtain rfl := Option.some.inj (hp.symm.trans hq)
        exact ⟨shmid, hshmid⟩
      · rintro ⟨shmid, hshmid⟩
        exact ⟨p, shmid, hp, hshmid⟩
    obtain ⟨hnone, hk, hsub⟩ | ⟨copy, hnone, hk, hcopy, hp'⟩ | ⟨shmid, key, size, hsome, hk, hp'⟩ :=
      call_handles hcall
    · refine .inl ⟨by simp [hreuses, hnone], hk, fun h hh => ?_⟩
      refine ((keeps_iff hp).2 ?_).holds
      exact ((hholds h).1 hh).imp_left fun hh => hsub hh
    · refine .inl ⟨by simp [hreuses, hnone], hk, fun h hh => ?_⟩
      rw [hholds, hp', List.mem_append, List.mem_singleton] at hh
      obtain (hh | rfl) | hh := hh
      · exact ((keeps_iff hp).2 (.inl hh)).holds
      · exact hcopy
      · exact ((keeps_iff hp).2 (.inr hh)).holds
    · refine .inr ⟨pid, shmid, key, size, by simp [hreuses, hsome], hk, fun h => ?_⟩
      rw [hholds, hp', List.mem_append, List.mem_singleton, keeps_iff hp, or_right_comm]

theorem made_step (hmade : w.Made) (h : w.step s = some w') : w'.Made := by
  intro handle hh
  obtain ⟨-, hk, hold⟩ | ⟨pid, shmid, key, size, -, hk, hholds⟩ := step_holds h
  · rw [hk]
    exact hmade handle (hold handle hh)
  · rw [hk, List.length_append, List.length_singleton]
    obtain hh | rfl := (hholds handle).1 hh
    · exact Nat.lt_succ_of_lt (hmade handle hh.holds)
    · exact Nat.lt_succ_self _

/-- A step keeps the agreement exactly if it does not use an id again. -/
theorem agree_step_iff (hmade : w.Made) (hagree : w.Agree) (h : w.step s = some w') :
    w'.Agree ↔ ¬ w.Reuses s := by
  obtain ⟨hnot, -, hold⟩ | ⟨pid, shmid, key, size, hreuses, -, hholds⟩ := step_holds h
  · exact iff_of_true (fun h h' hh hh' => hagree h h' (hold h hh) (hold h' hh')) hnot
  rw [hreuses]
  constructor
  · rintro hagree' ⟨handle, hkeeps, hid⟩
    -- the old handle has an old region, the new one has a new region
    have heq := hagree' handle _ ((hholds _).2 (.inl hkeeps)) ((hholds _).2 (.inr rfl)) hid
    have hlt := hmade handle hkeeps.holds
    rw [heq] at hlt
    exact lt_irrefl _ hlt
  · intro hfresh h h' hh hh' hid
    obtain hh | rfl := (hholds h).1 hh
    · obtain hh' | rfl := (hholds h').1 hh'
      · exact hagree h h' hh.holds hh'.holds hid
      · exact absurd ⟨h, hh, hid⟩ hfresh
    · obtain hh' | rfl := (hholds h').1 hh'
      · exact absurd ⟨h', hh', hid.symm⟩ hfresh
      · rfl

/-- **Agreement on segments.**  In every run of all processes, the tables agree in every state on
the region and the key of each id exactly if no step makes a segment under an id that is still in a
table. -/
theorem agree_iff {steps : List Step} (h : tryExec step {} steps = some w') :
    (∀ as₁ as₂ t, steps = as₁ ++ as₂ → tryExec step {} as₁ = some t → t.Agree) ↔
      TryAlways step (fun w s => ¬ w.Reuses s) {} steps := by
  have hstart : ∀ h, ¬ ({} : World).Holds h := fun _ ⟨_, _, hp, _⟩ => nomatch hp
  exact reached_iff_of_invariant (I := Made) (Q := fun _ _ => True)
    (fun _ _ _ hmade _ hs => made_step hmade hs)
    (fun _ _ _ hmade hagree _ hs => agree_step_iff hmade hagree hs)
    (fun h hh => absurd hh (hstart h)) (fun h _ hh => absurd hh (hstart h)) (tryAlways_true _ _) h

/-- A process attaches the segment of another one. -/
def attachOther : List Step :=
  [.start 5, .start 6, .call 5 (.shmget 0 100 true), .call 6 (.shmat 0x50001 none),
    .call 6 (.answer (some 0x7000))]

theorem agree_iff_attachOther :
    (∀ as₁ as₂ t, attachOther = as₁ ++ as₂ → tryExec step {} as₁ = some t → t.Agree) ↔
      TryAlways step (fun w s => ¬ w.Reuses s) {} attachOther :=
  agree_iff (Option.some_get (by decide +kernel)).symm

end World

end TermuxX11.Shm
