import TermuxX11.Shm.Numbers

/-!
# The segment of a key

`shmget` finds the segment of a key by the link of the key.  A call that finds a link which leads
nowhere takes it away and makes a new one; so does a call that has read an older link, whatever the
link says by then.  Where no such call is under way when a segment is made for a key, all processes
get this segment from then on, as long as its process keeps it.
-/

namespace TermuxX11.Shm

open Run

/-- The key of a call of `shmget`. -/
def Phase.key : Phase → Option ℤ
  | .readlink key _ _ => some key
  | .getting key _ _ _ _ => some key
  | .unlink key _ _ => some key
  | .symlink key _ _ => some key
  | _ => none

/-- The link of the key has been read, and the call may take it away. -/
def Phase.Stale (key : ℤ) : Phase → Prop
  | .getting key' _ _ _ _ => key' = key
  | .unlink key' _ _ => key' = key
  | _ => False

/-- The call of `shmget` can only come to the segment `shmid` of the process `owner`. -/
def Phase.LeadsTo (key shmid : ℤ) (owner : ℕ) : Phase → Prop
  | .getting key' _ _ found peer => key' = key → found = shmid ∧ peer = some owner
  | .unlink key' _ _ => key' ≠ key
  | _ => True

/-! ### The table of the process that made it -/

/-- The segment is in the table, and is not marked. -/
def Process.Keeps (p : Process) (shmid : ℤ) (descriptor : ℕ) : Prop :=
  ∃ e, p.ashvFindLocal shmid = some e ∧ e.markedForDeletion = false ∧ e.descriptor = descriptor

theorem find?_updateFirst {q r : Shmem → Bool} {f : Shmem → Shmem} (hf : ∀ e, r (f e) = r e)
    (l : List Shmem) : ∃ g : Shmem → Shmem, (∀ e, g e = e ∨ (q e = true ∧ g e = f e)) ∧
      (updateFirst q f l).find? r = (l.find? r).map g := by
  induction l with
  | nil => exact ⟨id, fun _ => .inl rfl, rfl⟩
  | cons e l ih =>
    rw [updateFirst]
    by_cases hq : q e = true
    · rw [if_pos hq]
      by_cases hr : r e = true
      · refine ⟨fun e' => if q e' then f e' else e', fun e' => ?_, ?_⟩
        · by_cases h : q e' = true
          · exact .inr ⟨h, if_pos h⟩
          · exact .inl (if_neg h)
        · rw [List.find?_cons_of_pos (by rw [hf]; exact hr), List.find?_cons_of_pos hr,
            Option.map_some, if_pos hq]
      · refine ⟨id, fun _ => .inl rfl, ?_⟩
        rw [List.find?_cons_of_neg (by rw [hf]; exact hr), List.find?_cons_of_neg hr,
          Option.map_id, id]
    · rw [if_neg hq]
      by_cases hr : r e = true
      · refine ⟨id, fun _ => .inl rfl, ?_⟩
        rw [List.find?_cons_of_pos hr, List.find?_cons_of_pos hr, Option.map_some, id]
      · obtain ⟨g, hg, heq⟩ := ih
        refine ⟨g, hg, ?_⟩
        rw [List.find?_cons_of_neg hr, List.find?_cons_of_neg hr, heq]

/-- A member that is found stays found when another one is taken out. -/
theorem find?_eraseP {q r : Shmem → Bool} {l : List Shmem} {e : Shmem} (h : l.find? r = some e)
    (hnot : ∀ d, l.find? q = some d → d ≠ e ∨ q e = false) : (l.eraseP q).find? r = some e := by
  induction l with
  | nil => cases h
  | cons d l ih =>
    by_cases hq : q d = true
    · rw [List.eraseP_cons_of_pos hq]
      by_cases hr : r d = true
      · rw [List.find?_cons_of_pos hr] at h
        obtain rfl := Option.some.inj h
        obtain hne | hqe := hnot d (List.find?_cons_of_pos hq)
        · exact absurd rfl hne
        · rw [hq] at hqe
          cases hqe
      · rwa [List.find?_cons_of_neg hr] at h
    · rw [List.eraseP_cons_of_neg hq]
      by_cases hr : r d = true
      · rw [List.find?_cons_of_pos hr] at h ⊢
        exact h
      · rw [List.find?_cons_of_neg hr] at h ⊢
        refine ih h fun d' hd' => hnot d' ?_
        rwa [List.find?_cons_of_neg hq]

namespace Process

variable {p p' : Process} {shmid : ℤ} {d : ℕ}

theorem Keeps.of_shmem (h : p.Keeps shmid d) (hshmem : p'.shmem = p.shmem) : p'.Keeps shmid d := by
  simpa only [Keeps, ashvFindLocal, hshmem] using h

theorem Keeps.append (h : p.Keeps shmid d) {e : Shmem} (hshmem : p'.shmem = p.shmem ++ [e]) :
    p'.Keeps shmid d := by
  obtain ⟨f, hf, hrest⟩ := h
  refine ⟨f, ?_, hrest⟩
  unfold ashvFindLocal at hf ⊢
  rw [hshmem, List.find?_append, hf, Option.some_or]

/-- A new segment is found under its id, if no older one has the id. -/
theorem keeps_append {e : Shmem} (hnone : p.ashvFindLocal e.id = none)
    (hmarked : e.markedForDeletion = false) (hshmem : p'.shmem = p.shmem ++ [e]) :
    p'.Keeps e.id e.descriptor := by
  refine ⟨e, ?_, hmarked, rfl⟩
  unfold ashvFindLocal at hnone ⊢
  rw [hshmem, List.find?_append, hnone, Option.none_or]
  exact List.find?_cons_of_pos (decide_eq_true rfl)

theorem Keeps.update (h : p.Keeps shmid d) {q : Shmem → Bool} {f : Shmem → Shmem}
    (hshmem : p'.shmem = updateFirst q f p.shmem)
    (hid : ∀ e, (f e).id = e.id) (hdescriptor : ∀ e, (f e).descriptor = e.descriptor)
    (hmarked : ∀ e, q e = true → e.id = shmid → e.markedForDeletion = false →
      (f e).markedForDeletion = false) : p'.Keeps shmid d := by
  obtain ⟨e, he, hunmarked, hd⟩ := h
  have hes : e.id = shmid := by simpa using List.find?_some he
  obtain ⟨g, hg, heq⟩ := find?_updateFirst (q := q) (r := fun e => e.id = shmid) (f := f)
    (fun e => by rw [hid]) p.shmem
  refine ⟨g e, ?_, ?_, ?_⟩
  · unfold ashvFindLocal at he ⊢
    rw [hshmem, heq, he, Option.map_some]
  · obtain h | ⟨hq, h⟩ := hg e
    · rw [h]
      exact hunmarked
    · rw [h]
      exact hmarked e hq hes hunmarked
  · obtain h | ⟨-, h⟩ := hg e
    · rw [h]
      exact hd
    · rw [h, hdescriptor]
      exact hd

theorem Keeps.listen (h : p.Keeps shmid d) {k k' : Kernel} {pid : ℕ}
    (hlisten : k.listen pid p = (k', some p')) : p'.Keeps shmid d := by
  obtain ⟨-, -, hq⟩ | ⟨-, -, hq, -⟩ | ⟨-, id, -, -, hq⟩ := World.listen_eq hlisten
  · obtain rfl := Option.some.inj hq
    exact h
  · cases hq
  · obtain rfl := Option.some.inj hq
    exact h.of_shmem rfl

theorem Keeps.count (h : p.Keeps shmid d) (id : Option ℤ) : (p.count id).Keeps shmid d :=
  h.of_shmem (p.shmem_count id)

theorem Keeps.create (h : p.Keeps shmid d) {k k' : Kernel} {id key : ℤ} {size : ℕ}
    {allocated : Bool} (hcreate : k.create p id key size allocated = (k', p')) :
    p'.Keeps shmid d := by
  cases allocated with
  | false =>
    obtain ⟨rfl, rfl⟩ := Prod.mk.inj hcreate
    exact h.of_shmem rfl
  | true =>
    obtain ⟨rfl, rfl⟩ := Prod.mk.inj hcreate
    exact h.append rfl

theorem Keeps.attach (h : p.Keeps shmid d) (shmid' : ℤ) (mapped : Option ℕ) :
    (p.attach shmid' mapped).Keeps shmid d := by
  unfold Process.attach
  cases p.ashvFindLocal shmid' with
  | none => exact h.of_shmem rfl
  | some e => exact h.update rfl (fun _ => rfl) (fun _ => rfl) fun _ _ _ h => h

/-- `shmdt` keeps the segments of the process that are not marked. -/
theorem Keeps.shmdt (h : p.Keeps shmid d) (hown : ashvSocketIdFromShmid shmid = p.localSocketId)
    (shmaddr : Option ℕ) : (p.shmdt shmaddr).Keeps shmid d := by
  unfold Process.shmdt
  cases hfind : p.shmem.find? fun e => e.addr = shmaddr with
  | none => exact h.of_shmem rfl
  | some f =>
    dsimp only
    by_cases hdelete : f.markedForDeletion = true ∨ ashvSocketIdFromShmid f.id ≠ p.localSocketId
    · rw [if_pos hdelete]
      obtain ⟨e, he, hunmarked, hd⟩ := h
      have hes : e.id = shmid := by simpa using List.find?_some he
      refine ⟨e, find?_eraseP he fun f' hf' => .inl ?_, hunmarked, hd⟩
      rintro rfl
      obtain rfl := Option.some.inj (hfind.symm.trans hf')
      obtain hmarked | hforeign := hdelete
      · rw [hunmarked] at hmarked
        cases hmarked
      · exact hforeign (by rw [hes]; exact hown)
    · rw [if_neg hdelete]
      exact h.update rfl (fun _ => rfl) (fun _ => rfl) fun _ _ _ h => h

theorem Keeps.shmctlRmid (h : p.Keeps shmid d) {shmid' : ℤ} (hne : shmid' ≠ shmid) :
    (p.shmctlRmid shmid').Keeps shmid d := by
  unfold Process.shmctlRmid
  cases p.ashvFindLocal shmid' with
  | none => exact h.of_shmem rfl
  | some f =>
    dsimp only
    split_ifs
    · obtain ⟨e, he, hrest⟩ := h
      have hes : e.id = shmid := by simpa using List.find?_some he
      refine ⟨e, find?_eraseP he fun f' _ => .inr ?_, hrest⟩
      rw [hes]
      exact decide_eq_false hne.symm
    · refine h.update rfl (fun _ => rfl) (fun _ => rfl) fun e hq hes _ => ?_
      exact absurd ((of_decide_eq_true hq).symm.trans hes) hne

end Process

namespace World

variable {w w' : World} {pid owner : ℕ} {p p' : Process} {k' : Kernel} {c : Call} {s : Step}
  {key shmid : ℤ} {d : ℕ}

theorem shmem_readlink (sockets : ℤ → Option ℕ) (key : ℤ) (size : ℕ) (id found : Option ℤ) :
    (p.readlink sockets key size id found).shmem = p.shmem := by
  cases found with
  | none => rfl
  | some found =>
    simp only [Process.readlink]
    split_ifs
    · rfl
    · rfl
    · split
      · rfl
      · rfl

/-- The calls of a process keep a segment that it made, but for `IPC_RMID` of it. -/
theorem call_keeps (h : p.Keeps shmid d) (hown : ashvSocketIdFromShmid shmid = p.localSocketId)
    (hrmid : c ≠ .shmctlRmid shmid) (hcall : w.call pid p c = some (k', p')) :
    p'.Keeps shmid d := by
  cases call_cases hcall with
  | makePrivate _ hlisten hcreate => exact ((h.listen hlisten).count none).create hcreate
  | begin _ hlisten _ => exact (h.listen hlisten).of_shmem rfl
  | readlink _ => exact h.of_shmem (shmem_readlink ..)
  | make _ _ hcreate => exact (h.count _).create hcreate
  | retry _ _ => exact (h.count _).of_shmem rfl
  | attach _ => exact h.attach _ _
  | got _ _ _ => exact h.append rfl
  | attached _ _ _ =>
    refine Process.Keeps.attach ?_ _ _
    exact h.append rfl
  | shmdt _ => exact h.shmdt hown _
  | shmctlRmid _ => exact h.shmctlRmid fun heq => hrmid (heq ▸ rfl)
  | noSocket _ _ | unlink _ | noSegment _ | ask _ | notGot _ _ _ | notAttached _ | shmctlStat _ =>
    exact h.of_shmem rfl

/-! ### A key that is served -/

/-- The link of the key names a segment that its process has and can send, and no call of `shmget`
comes to anything else. -/
structure Served (key shmid : ℤ) (owner d : ℕ) (w : World) : Prop where
  link : w.kernel.links key = some shmid
  socket : w.kernel.sockets (ashvSocketIdFromShmid shmid) = some owner
  process : ∃ o, w.processes owner = some o ∧ o.pidSetup = owner ∧ o.listening = true ∧
    ashvSocketIdFromShmid shmid = o.localSocketId ∧ o.Keeps shmid d
  region : ∃ size, w.kernel.regions[d]? = some size ∧ ashmemGetSizeRegion size ≠ 0 ∧
    ashmemGetSizeRegion size ≠ -1
  leads : ∀ i q, w.processes i = some q → q.phase.LeadsTo key shmid owner

theorem listen_sockets {k k' : Kernel} {q : Option Process} {n : ℤ} {j : ℕ}
    (hn : k.sockets n = some j) (h : k.listen pid p = (k', q)) :
    k'.sockets n = some j ∧ (p.listening = true → q = some p) ∧ k'.links = k.links := by
  obtain ⟨-, rfl, rfl⟩ | ⟨hnot, rfl, rfl, -⟩ | ⟨hnot, id, hid, rfl, rfl⟩ := listen_eq h
  · exact ⟨hn, fun _ => rfl, rfl⟩
  · exact ⟨hn, fun h => (by rw [hnot] at h; cases h), rfl⟩
  · refine ⟨?_, fun h => (by rw [hnot] at h; cases h), rfl⟩
    show Function.update _ _ _ n = _
    rw [Function.update_of_ne, hn]
    rintro rfl
    rw [(bindFrom_spec hid).1] at hn
    cases hn

theorem create_links {k : Kernel} {id key' : ℤ} {size : ℕ} {allocated : Bool}
    (h : k.create p id key' size allocated = (k', p')) : k'.links = k.links := by
  cases allocated with
  | false =>
    obtain ⟨rfl, -⟩ := Prod.mk.inj h
    rfl
  | true =>
    obtain ⟨rfl, -⟩ := Prod.mk.inj h
    rfl

/-- A new segment leaves the socket of its process. -/
theorem create_sockets {k : Kernel} {q : Process} {id : Option ℤ} {id' key' : ℤ} {size : ℕ}
    {allocated : Bool} (h : k.create (q.count id) id' key' size allocated = (k', p')) :
    k'.sockets = k.sockets ∧ (q.listening = true → p'.listening = true ∧
      p'.pidSetup = q.pidSetup ∧ p'.localSocketId = q.localSocketId) := by
  obtain ⟨hk, hsame, -⟩ := Process.create_sameNumbers h
  exact ⟨hk, fun h => ⟨hsame.listening.trans ((q.listening_count id).trans h),
    hsame.pidSetup.trans (q.pidSetup_count id),
    hsame.localSocketId.trans (q.localSocketId_count id)⟩⟩

/-- The socket of a segment stays with its process. -/
theorem call_sockets {n : ℤ} {j : ℕ} (hn : w.kernel.sockets n = some j)
    (hcall : w.call pid p c = some (k', p')) :
    k'.sockets n = some j ∧ (p.listening = true → p'.listening = true ∧ p'.pidSetup = p.pidSetup ∧
      p'.localSocketId = p.localSocketId) := by
  cases call_cases hcall with
  | noSocket _ hlisten =>
    obtain ⟨hk, hq, -⟩ := listen_sockets hn hlisten
    exact ⟨hk, fun h => by cases hq h⟩
  | makePrivate _ hlisten hcreate =>
    obtain ⟨hk, hq, -⟩ := listen_sockets hn hlisten
    obtain ⟨hk', hsame⟩ := create_sockets hcreate
    refine ⟨by rw [hk', hk], fun h => ?_⟩
    obtain rfl := Option.some.inj (hq h)
    exact hsame h
  | begin _ hlisten _ =>
    obtain ⟨hk, hq, -⟩ := listen_sockets hn hlisten
    refine ⟨hk, fun h => ?_⟩
    obtain rfl := Option.some.inj (hq h)
    exact ⟨h, rfl, rfl⟩
  | make _ _ hcreate =>
    obtain ⟨hk', hsame⟩ := create_sockets hcreate
    exact ⟨by rw [hk']; exact hn, hsame⟩
  | retry _ _ =>
    exact ⟨hn, fun h => ⟨(p.listening_count _).trans h, p.pidSetup_count _,
      p.localSocketId_count _⟩⟩
  | _ =>
    obtain ⟨hk, -, hsame, -⟩ := call_sameNumbers (by simp) (by simp) hcall
    exact ⟨by rw [hk]; exact hn, fun h => ⟨hsame.listening.trans h, hsame.pidSetup,
      hsame.localSocketId⟩⟩

/-- The thread of the process that made the segment answers with the segment. -/
theorem Served.readRemote (hs : w.Served key shmid owner d) {answer : Option Shmem}
    (ha : w.respond shmid (some owner) = some answer) : w.kernel.readRemote answer ≠ none := by
  obtain ⟨o, ho, -, -, -, e, he, -, hd⟩ := hs.process
  obtain ⟨size, hsize, hzero, hneg⟩ := hs.region
  rw [respond, Option.bind_some, ho] at ha
  dsimp only at ha
  split_ifs at ha
  obtain rfl := Option.some.inj ha
  rw [he, Kernel.readRemote, Option.bind_some, hd, hsize, Option.getD_some]
  dsimp only
  rw [if_neg (not_or.2 ⟨hzero, hneg⟩)]
  exact Option.some_ne_none _

theorem leadsTo_of_key_ne {phase : Phase} (h : phase.key ≠ some key) :
    phase.LeadsTo key shmid owner := by
  cases phase with
  | getting => exact fun heq => absurd (congrArg some heq) h
  | unlink => exact fun heq => absurd (congrArg some heq) h
  | _ => trivial

theorem leadsTo_of_not_stale {phase : Phase} (h : ¬ phase.Stale key) :
    phase.LeadsTo key shmid owner := by
  cases phase with
  | getting => exact fun heq => absurd heq h
  | unlink => exact h
  | _ => trivial

/-- Nothing is returned for a key by a process that is in no call about one. -/
theorem leads_of_key_none (hkey : p.phase.key = none) (hphase : p'.phase.LeadsTo key shmid owner) :
    p'.phase.LeadsTo key shmid owner ∧
      (p.phase.key = some key → p'.phase = .idle → p'.result = shmid) :=
  ⟨hphase, fun h => by rw [hkey] at h; cases h⟩

theorem key_of_idle (hidle : p.phase = .idle) : p.phase.key = none := by
  rw [hidle]
  rfl

theorem leads_of_idle (hidle : p.phase = .idle) (hphase : p'.phase.LeadsTo key shmid owner) :
    p'.phase.LeadsTo key shmid owner ∧
      (p.phase.key = some key → p'.phase = .idle → p'.result = shmid) :=
  leads_of_key_none (key_of_idle hidle) hphase

theorem leadsTo_of_idle (hidle : p.phase = .idle) : p.phase.LeadsTo key shmid owner := by
  rw [hidle]
  trivial

/-- A link that is read leads to the segment of the key, or to another key. -/
theorem leads_readlink (hs : w.Served key shmid owner d) (hid : shmid ≠ 0) {key' : ℤ} {size : ℕ}
    {id : Option ℤ} (hphase : p.phase = .readlink key' size id) :
    (p.readlink w.kernel.sockets key' size id (w.kernel.links key')).phase.LeadsTo
        key shmid owner ∧
      (p.phase.key = some key →
        (p.readlink w.kernel.sockets key' size id (w.kernel.links key')).phase = .idle →
        (p.readlink w.kernel.sockets key' size id (w.kernel.links key')).result = shmid) := by
  rw [hphase]
  by_cases hkey : key' = key
  · rw [hkey, hs.link, Process.readlink, if_neg hid]
    split_ifs
    · exact ⟨trivial, fun _ _ => rfl⟩
    · rw [hs.socket]
      exact ⟨fun _ => ⟨rfl, rfl⟩, fun _ h => by cases h⟩
  · refine ⟨leadsTo_of_key_ne ?_, fun heq => absurd (Option.some.inj heq) hkey⟩
    cases w.kernel.links key' with
    | none => exact fun heq => hkey (Option.some.inj heq)
    | some found =>
      simp only [Process.readlink]
      split_ifs
      · exact fun heq => hkey (Option.some.inj heq)
      · exact fun h => by cases h
      · split
        · exact fun heq => hkey (Option.some.inj heq)
        · exact fun heq => hkey (Option.some.inj heq)

/-- The links of a process that begins a call. -/
theorem Served.links_of_listen (hs : w.Served key shmid owner d) {k : Kernel} {q : Option Process}
    (h : w.kernel.listen pid p = (k, q)) : k.links key = some shmid := by
  rw [(listen_sockets hs.socket h).2.2]
  exact hs.link

/-- What the calls of all processes make of a key that is served: the link stays, and `shmget` comes
to the segment. -/
theorem call_leads (hs : w.Served key shmid owner d) (hid : shmid ≠ 0)
    (hlead : p.phase.LeadsTo key shmid owner) (hcall : w.call pid p c = some (k', p')) :
    k'.links key = some shmid ∧ p'.phase.LeadsTo key shmid owner ∧
      (p.phase.key = some key → p'.phase = .idle → p'.result = shmid) := by
  cases call_cases hcall with
  | noSocket hidle hlisten => exact ⟨hs.links_of_listen hlisten, leads_of_idle hidle trivial⟩
  | makePrivate hidle hlisten hcreate =>
    have hdone := (Process.create_sameNumbers hcreate).2.2
    refine ⟨?_, leads_of_idle hidle (leadsTo_of_idle hdone)⟩
    rw [create_links hcreate]
    exact hs.links_of_listen hlisten
  | begin hidle hlisten _ => exact ⟨hs.links_of_listen hlisten, leads_of_idle hidle trivial⟩
  | readlink hphase => exact ⟨hs.link, leads_readlink hs hid hphase⟩
  | unlink hphase =>
    rw [hphase] at hlead
    refine ⟨?_, trivial, fun _ h => by cases h⟩
    exact (Function.update_of_ne (Ne.symm hlead) _ _).trans hs.link
  | @make key' _ _ _ _ _ hphase hlink hcreate =>
    have hkey : key' ≠ key := by
      rintro rfl
      rw [hs.link] at hlink
      cases hlink
    refine ⟨?_, leadsTo_of_idle (Process.create_sameNumbers hcreate).2.2, fun heq => ?_⟩
    · rw [create_links hcreate]
      exact (Function.update_of_ne hkey.symm _ _).trans hs.link
    · rw [hphase] at heq
      exact absurd (Option.some.inj heq) hkey
  | retry _ _ => exact ⟨hs.link, trivial, fun _ h => by cases h⟩
  | attach hidle =>
    exact ⟨hs.link, leads_of_idle hidle (leadsTo_of_idle (sameNumbers_attach _ _).2)⟩
  | shmdt hidle => exact ⟨hs.link, leads_of_idle hidle (leadsTo_of_idle (sameNumbers_shmdt _).2)⟩
  | shmctlRmid hidle =>
    exact ⟨hs.link, leads_of_idle hidle (leadsTo_of_idle (sameNumbers_shmctlRmid _).2)⟩
  | noSegment hidle | ask hidle | shmctlStat hidle => exact ⟨hs.link, leads_of_idle hidle trivial⟩
  | notGot hphase hanswer hread =>
    rw [hphase] at hlead
    refine ⟨hs.link, fun hkey => ?_, fun _ h => by cases h⟩
    obtain ⟨rfl, rfl⟩ := hlead hkey
    exact hs.readRemote hanswer hread
  | got hphase _ _ =>
    rw [hphase] at hlead ⊢
    exact ⟨hs.link, trivial, fun hkey _ => (hlead (Option.some.inj hkey)).1⟩
  | notAttached hphase =>
    exact ⟨hs.link, leads_of_key_none (by rw [hphase]; rfl) trivial⟩
  | attached hphase _ _ =>
    exact ⟨hs.link, leads_of_key_none (by rw [hphase]; rfl)
      (leadsTo_of_idle (sameNumbers_attach _ _).2)⟩

/-- A step that ends a call of `shmget` with the key returns the id. -/
def Returns (key shmid : ℤ) (w : World) (s : Step) : Prop :=
  ∀ w', w.step s = some w' → ∀ i p p', w.processes i = some p → w'.processes i = some p' →
    p.phase.key = some key → p'.phase = .idle → p'.result = shmid

theorem live_phase (p : Process) (pid : ℕ) : (p.live pid).phase = p.phase := by
  unfold Process.live Process.ashvCheckPid
  split_ifs
  · rfl
  · rfl
  · rfl
  · rfl

theorem hangUp_leadsTo (hlead : p.phase.LeadsTo key shmid owner) (hpid : pid ≠ owner) :
    (p.hangUp pid).phase.LeadsTo key shmid owner ∧
      ((p.hangUp pid).phase = .idle → p.phase = .idle) := by
  unfold Process.hangUp
  split
  · rename_i hphase
    rw [hphase] at hlead
    refine ⟨fun heq => ?_, nofun⟩
    obtain ⟨rfl, rfl⟩ := hlead heq
    exact ⟨rfl, if_neg fun h => hpid (Option.some.inj h).symm⟩
  · exact ⟨trivial, nofun⟩
  · exact ⟨hlead, id⟩

/-- A new process leaves a key served. -/
theorem served_put (hs : w.Served key shmid owner d) (hnew : w.processes pid = none)
    (hidle : p.phase = .idle) : (w.put pid p).Served key shmid owner d where
  link := hs.link
  socket := hs.socket
  process := by
    obtain ⟨o, ho, hrest⟩ := hs.process
    refine ⟨o, ?_, hrest⟩
    rw [put_processes_of_ne, ho]
    rintro rfl
    rw [hnew] at ho
    cases ho
  region := hs.region
  leads i q hq := by
    by_cases hi : i = pid
    · rw [hi, put_processes_self] at hq
      obtain rfl := Option.some.inj hq
      rw [hidle]
      trivial
    · rw [put_processes_of_ne hi] at hq
      exact hs.leads i q hq

/-- No call of `shmget` is over where the calls go on as they were. -/
theorem returns_of_idle (h : w.step s = some w')
    (hidle : ∀ i p p', w.processes i = some p → w'.processes i = some p' → p'.phase = .idle →
      p.phase = .idle) : w.Returns key shmid s := by
  intro w₁ h₁ i p p' hp hp' hkey hend
  obtain rfl := Option.some.inj (h.symm.trans h₁)
  rw [hidle i p p' hp hp' hend] at hkey
  cases hkey

theorem idle_put (hnew : w.processes pid = none) {i : ℕ} {q q' : Process}
    (hq : w.processes i = some q) (hq' : (w.put pid p).processes i = some q')
    (hidle : q'.phase = .idle) : q.phase = .idle := by
  have hi : i ≠ pid := by
    rintro rfl
    rw [hnew] at hq
    cases hq
  rw [put_processes_of_ne hi, hq] at hq'
  obtain rfl := Option.some.inj hq'
  exact hidle

theorem served_exit (hs : w.Served key shmid owner d) (hpid : pid ≠ owner) :
    (w.remove pid).Served key shmid owner d where
  link := hs.link
  socket := by
    simp only [remove]
    rw [if_neg, hs.socket]
    rw [hs.socket]
    exact fun heq => hpid (Option.some.inj heq).symm
  process := by
    obtain ⟨o, ho, hset, hlistening, hsocket, hkeep⟩ := hs.process
    obtain ⟨hsame, -⟩ := hangUp_same o pid
    refine ⟨o.hangUp pid, ?_, hsame.pidSetup.trans hset, hsame.listening.trans hlistening, ?_,
      hkeep.of_shmem ?_⟩
    · simp only [remove, if_neg hpid.symm, ho, Option.map_some]
    · rw [hsame.localSocketId]
      exact hsocket
    · unfold Process.hangUp
      split
      · rfl
      · rfl
      · rfl
  region := hs.region
  leads i q hq := by
    simp only [remove] at hq
    split_ifs at hq
    obtain ⟨p, hp, rfl⟩ := Option.map_eq_some_iff.1 hq
    exact (hangUp_leadsTo (hs.leads i p hp) hpid).1

theorem served_call (hs : w.Served key shmid owner d) (hid : shmid ≠ 0) (howner : owner ≠ 0)
    (hp : w.processes pid = some p) (hrmid : pid = owner → c ≠ .shmctlRmid shmid)
    (hcall : w.call pid (p.live pid) c = some (k', p')) :
    ({ w.put pid p' with kernel := k' } : World).Served key shmid owner d ∧
      (p.phase.key = some key → p'.phase = .idle → p'.result = shmid) := by
  have hlead : (p.live pid).phase.LeadsTo key shmid owner := by
    rw [live_phase]
    exact hs.leads pid p hp
  obtain ⟨hlink, hlead', hresult⟩ := call_leads hs hid hlead hcall
  obtain ⟨hsocket', hsame⟩ := call_sockets hs.socket hcall
  rw [live_phase] at hresult
  refine ⟨⟨hlink, hsocket', ?_, ?_, fun i q hq => ?_⟩, hresult⟩
  · obtain ⟨o, ho, hset, hlistening, hsocket, hkeep⟩ := hs.process
    by_cases hpid : pid = owner
    · subst hpid
      obtain rfl := Option.some.inj (hp.symm.trans ho)
      rw [live_of_pidSetup hset howner] at hcall hsame
      obtain ⟨hlistening', hset', hlocal⟩ := hsame hlistening
      refine ⟨p', put_processes_self pid p', hset'.trans hset, hlistening', ?_,
        call_keeps hkeep hsocket (hrmid rfl) hcall⟩
      rw [hlocal]
      exact hsocket
    · exact ⟨o, (put_processes_of_ne (Ne.symm hpid) p').trans ho, hset, hlistening, hsocket, hkeep⟩
  · obtain ⟨size, hsize, hgood⟩ := hs.region
    refine ⟨size, ?_, hgood⟩
    have hregions : k'.regions = w.kernel.regions ∨
        ∃ new, k'.regions = w.kernel.regions ++ [new] := by
      obtain ⟨-, hk, -⟩ | ⟨-, -, hk, -⟩ | ⟨-, -, new, -, hk, -⟩ := call_handles hcall
      · exact .inl hk
      · exact .inl hk
      · exact .inr ⟨_, hk⟩
    obtain hk | ⟨new, hk⟩ := hregions
    · rw [← hsize]
      exact congrArg (·[d]?) hk
    · have hlt : d < w.kernel.regions.length := by
        by_contra hge
        rw [List.getElem?_eq_none (Nat.le_of_not_lt hge)] at hsize
        cases hsize
      show k'.regions[d]? = _
      rw [hk, List.getElem?_append_left hlt, hsize]
  · by_cases hi : i = pid
    · rw [hi, put_processes_self] at hq
      obtain rfl := Option.some.inj hq
      exact hlead'
    · rw [put_processes_of_ne hi] at hq
      exact hs.leads i q hq

/-- Every step but the exit of the process and its `IPC_RMID` of the segment keeps a key served. -/
theorem served_step (hs : w.Served key shmid owner d) (hid : shmid ≠ 0) (howner : owner ≠ 0)
    (hkeeps : s ≠ .exit owner ∧ s ≠ .call owner (.shmctlRmid shmid)) (h : w.step s = some w') :
    w'.Served key shmid owner d ∧ w.Returns key shmid s := by
  have hstep := h
  cases s with
  | start pid =>
    simp only [step] at h
    split_ifs at h with hnew
    obtain rfl := Option.some.inj h
    rw [not_or, Bool.not_eq_true, Option.isSome_eq_false_iff, Option.isNone_iff_eq_none] at hnew
    exact ⟨served_put hs hnew.2 rfl,
      returns_of_idle hstep fun i p p' hp hp' hidle => idle_put hnew.2 hp hp' hidle⟩
  | fork pid child =>
    simp only [step] at h
    split_ifs at h with hnew
    obtain ⟨p, hp, rfl⟩ := Option.map_eq_some_iff.1 h
    rw [not_or, Bool.not_eq_true, Option.isSome_eq_false_iff, Option.isNone_iff_eq_none] at hnew
    exact ⟨served_put hs hnew.2 rfl,
      returns_of_idle hstep fun i p p' hp hp' hidle => idle_put hnew.2 hp hp' hidle⟩
  | exit pid =>
    obtain ⟨p, -, rfl⟩ := Option.map_eq_some_iff.1 h
    have hpid : pid ≠ owner := by
      rintro rfl
      exact hkeeps.1 rfl
    refine ⟨served_exit hs hpid, returns_of_idle hstep fun i q q' hq hq' hidle => ?_⟩
    simp only [remove, hq, Option.map_some] at hq'
    split_ifs at hq'
    obtain rfl := Option.some.inj hq'
    exact (hangUp_leadsTo (hs.leads i q hq) hpid).2 hidle
  | call pid c =>
    obtain ⟨p, hp, h⟩ := Option.bind_eq_some_iff.1 h
    obtain ⟨⟨k', p'⟩, hcall, rfl⟩ := Option.map_eq_some_iff.1 h
    obtain ⟨hs', hresult⟩ := served_call hs hid howner hp
      (fun heq hc => hkeeps.2 (by rw [heq, hc])) hcall
    refine ⟨hs', fun w₁ h₁ i q q' hq hq' hkey hend => ?_⟩
    obtain rfl := Option.some.inj (hstep.symm.trans h₁)
    by_cases hi : i = pid
    · subst hi
      rw [put_processes_self] at hq'
      obtain rfl := Option.some.inj hq'
      obtain rfl := Option.some.inj (hp.symm.trans hq)
      exact hresult hkey hend
    · rw [put_processes_of_ne hi, hq] at hq'
      obtain rfl := Option.some.inj hq'
      rw [hend] at hkey
      cases hkey

/-! ### Every run -/

theorem ashvSocketIdFromShmid_idOf {n c : ℕ} (hn : n < 0x8000) (hc : c < 0x8000) :
    ashvSocketIdFromShmid (idOf n c) = n ∧ (1 ≤ c → idOf n c ≠ 0) := by
  have hid : idOf n c = n * 0x10000 + c := by
    unfold idOf
    rw [Int.bmod_def]
    split_ifs
    · omega
    · omega
  rw [hid, ashvSocketIdFromShmid]
  constructor
  · rw [Int.tdiv_eq_ediv_of_nonneg (by omega)]
    omega
  · omega

/-- The id of a call of `shmget` has the number of the socket of its process. -/
theorem shmidFor_eq_idOf {sockets : ℤ → Option ℕ} {shmid : Option ℤ}
    (hp : p.Numbered pid sockets) (hshmid : p.phase.shmid = shmid) :
    ∃ c, p.shmidFor shmid = idOf p.localSocketId c ∧ c < 0x8000 := by
  cases shmid with
  | none =>
    refine ⟨p.nextCounter, ?_, Nat.mod_lt _ (by norm_num)⟩
    rw [p.shmidFor_none, p.shmid_eq]
  | some id =>
    obtain ⟨hid, -⟩ := hp.pending id hshmid
    refine ⟨p.counter, ?_, hp.counter⟩
    rw [← p.shmid_eq]
    exact hid

theorem ashmemGetSizeRegion_roundUp_ne (size : ℕ) : ashmemGetSizeRegion (roundUp size) ≠ -1 := by
  unfold ashmemGetSizeRegion roundUp
  rw [Int.bmod_def]
  split_ifs
  · omega
  · omega

/-- The id that a segment is made under is not zero, and its socket is that of the process. -/
theorem socketId_shmidFor {size : ℕ} {shmid' : Option ℤ} (hpn : p.Numbered owner w.kernel.sockets)
    (horderly : w.Orderly (.call owner (.symlink true))) (hp : w.processes owner = some p)
    (hphase : p.phase = .symlink key size shmid') (hlive : p.live owner = p)
    (hsocket : p.localSocketId < 0x8000) :
    ashvSocketIdFromShmid (p.shmidFor shmid') = p.localSocketId ∧ p.shmidFor shmid' ≠ 0 := by
  have hshmid : p.phase.shmid = shmid' := by
    rw [hphase]
    rfl
  have hnum : p.phase.shmid = none → p.counter < 0x7fff := by
    intro hnone
    refine (horderly p hp).1 ?_
    rw [hlive]
    exact decide_eq_true hnone
  obtain ⟨hcount, hpos, hlt⟩ := hpn.count hnum
  rw [Process.shmid_eq, Process.localSocketId_count, hshmid] at hcount
  rw [hshmid] at hpos hlt
  obtain ⟨hserves, hnonzero⟩ := ashvSocketIdFromShmid_idOf hsocket hlt
  rw [← hcount] at hserves hnonzero
  exact ⟨hserves, hnonzero (Nat.one_le_of_lt hpos)⟩

/-- The key is served when its segment has been made, if no other call is about to take the link
away. -/
theorem served_made {size : ℕ} {shmid' : Option ℤ} (hw : w.Numbered)
    (horderly : w.Orderly (.call owner (.symlink true))) (hp : w.processes owner = some p)
    (hphase : p.phase = .symlink key size shmid') (hlink : w.kernel.links key = none)
    (hsocket : p.localSocketId < 0x8000) (hsize : ashmemGetSizeRegion (roundUp size) ≠ 0)
    (hstep : w.step (.call owner (.symlink true)) = some w')
    (hothers : ∀ i q, w.processes i = some q → ¬ q.phase.Stale key) :
    w'.Served key (p.shmidFor shmid') owner w.kernel.regions.length ∧ p.shmidFor shmid' ≠ 0 := by
  have hpn := hw.each owner p hp
  have hset : p.pidSetup = owner := hpn.set (by rw [hphase]; exact nofun)
  have hlistening : p.listening = true := by
    refine hpn.inShmget ?_
    rw [hphase]
    exact ⟨nofun, nofun⟩
  have hlive : p.live owner = p := if_neg (by rw [hphase]; exact nofun)
  obtain ⟨hbound, -⟩ := hpn.listening hset hlistening
  obtain ⟨hserves, hnonzero⟩ := socketId_shmidFor hpn horderly hp hphase hlive hsocket
  refine ⟨?_, hnonzero⟩
  obtain ⟨q, hq, h⟩ := Option.bind_eq_some_iff.1 hstep
  obtain rfl := Option.some.inj (hp.symm.trans hq)
  obtain ⟨⟨k', p'⟩, hcall, rfl⟩ := Option.map_eq_some_iff.1 h
  have hfresh := (numbered_call hw hp horderly hcall).2
  have hsockets := call_sockets hbound hcall
  rw [hlive] at hcall hsockets
  have hcreated : w.created owner p (.symlink true) = some (p.shmidFor shmid') := by
    simp only [created, hphase, hlink, and_self, if_true]
  have hcall' := hcall
  simp only [call, hphase, if_pos hlink] at hcall'
  obtain ⟨hk', hp'⟩ := Prod.mk.inj (Option.some.inj hcall')
  obtain ⟨hlistening', hset', hlocal'⟩ := hsockets.2 hlistening
  refine ⟨?_, ?_, ⟨p', put_processes_self owner p', hset'.trans hset, hlistening', ?_, ?_⟩,
    ⟨roundUp size, ?_, hsize, ashmemGetSizeRegion_roundUp_ne size⟩, fun i r hr => ?_⟩
  · rw [← hk']
    exact Function.update_self ..
  · rw [hserves]
    exact hsockets.1
  · rw [hserves, hlocal']
  · -- no older segment of the table has the id
    have hnone : p.ashvFindLocal (p.shmidFor shmid') = none := by
      by_contra hsome
      obtain ⟨e, he⟩ := Option.ne_none_iff_exists'.1 hsome
      have hes : e.id = p.shmidFor shmid' := by simpa using List.find?_some he
      refine hfresh ⟨p, p.shmidFor shmid', hp, by rw [hlive]; exact hcreated, e.handle,
        (keeps_iff hp).2 (.inl ?_), hes⟩
      rw [hlive]
      exact List.mem_map_of_mem (List.mem_of_find?_eq_some he)
    have hshmem : p'.shmem = p.shmem ++
        [{ id := p.shmidFor shmid', descriptor := w.kernel.regions.length, size := roundUp size,
           key := key }] := by
      rw [← hp', ← p.shmem_count shmid']
    exact Process.keeps_append hnone rfl hshmem
  · show k'.regions[w.kernel.regions.length]? = _
    rw [← hk']
    exact List.getElem?_concat_length
  · by_cases hi : i = owner
    · rw [hi, put_processes_self] at hr
      obtain rfl := Option.some.inj hr
      rw [← hp']
      trivial
    · rw [put_processes_of_ne hi] at hr
      exact leadsTo_of_not_stale (hothers i r hr)

/-- Two processes in calls of `shmget` never have the same id at hand. -/
theorem shmidFor_ne {i j : ℕ} {q : Process} {id id' : Option ℤ} (hw : w.Numbered)
    (hp : w.processes i = some p) (hq : w.processes j = some q) (hin : p.phase.InShmget)
    (hin' : q.phase.InShmget) (hid : p.phase.shmid = id) (hid' : q.phase.shmid = id')
    (hij : i ≠ j) : p.shmidFor id ≠ q.shmidFor id' := by
  intro heq
  have hpn := hw.each i p hp
  have hqn := hw.each j q hq
  obtain ⟨hbound, hbits⟩ := hpn.listening (hpn.set hin.1) (hpn.inShmget hin)
  obtain ⟨hbound', hbits'⟩ := hqn.listening (hqn.set hin'.1) (hqn.inShmget hin')
  obtain ⟨c, hc, hlt⟩ := shmidFor_eq_idOf hpn hid
  obtain ⟨c', hc', hlt'⟩ := shmidFor_eq_idOf hqn hid'
  rw [hc, hc'] at heq
  obtain ⟨hsocket, -⟩ := idOf_inj hbits hbits' (by omega) (by omega) heq
  rw [hsocket, hbound'] at hbound
  exact hij (Option.some.inj hbound).symm

/-- A process asks for a key that has no link. -/
def askFirst : List Step := [.start 5, .call 5 (.shmget 9 100 true), .call 5 .readlink]

end World

end TermuxX11.Shm
