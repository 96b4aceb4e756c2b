import TermuxX11.Lib.Run

/-!
# Shared memory segments

`shmem.c` gives programs the System V calls `shmget`, `shmat`, `shmdt` and `shmctl` where the kernel
has none.  Each process keeps a table of segments, and a thread that hands a segment of the table
to other processes over a socket; the socket's name is a number, which is part of the ids of the
segments.  A symbolic link for each key tells the id.

The model has all processes side by side, the sockets, the links and the regions of memory.  A
process is in one call at a time, and keeps its mutex until the call is over; the steps of a call
are its accesses to the links and its request to another process, so that the steps of other
processes may come between any two of them.  `readlink`, `unlink` and `symlink` do not fail for
other reasons than the link that is there or not, `listen` and `pthread_create` do not fail.  What a
forked process keeps of its parent's socket, the access rights of a mapping and the values of
`errno` are left out, and so is the system's own shared memory (`syscall_supported`).
-/

namespace TermuxX11.Shm

/-! ### The table of a process -/

/-- `shmem_t`.  The descriptor is known by the region that it refers to; `none` is `NULL`. -/
structure Shmem where
  id : ℤ
  addr : Option ℕ := none
  descriptor : ℕ
  size : ℕ
  markedForDeletion : Bool := false
  key : ℤ
  deriving DecidableEq, Repr

/-- Where a process is in a call.  The outer `shmid` of `shmget` is `none` for `-1`; `peer` is the
process that the request was sent to, `none` once it is gone. -/
inductive Phase
  | idle
  | readlink (key : ℤ) (size : ℕ) (shmid : Option ℤ)
  | getting (key : ℤ) (size : ℕ) (shmid : Option ℤ) (found : ℤ) (peer : Option ℕ)
  | unlink (key : ℤ) (size : ℕ) (shmid : Option ℤ)
  | symlink (key : ℤ) (size : ℕ) (shmid : Option ℤ)
  | attaching (shmid : ℤ) (peer : Option ℕ)
  deriving DecidableEq, Repr

/-- The static variables of one process, where it is in a call, and what the last call returned. -/
structure Process where
  pidSetup : ℕ := 0
  localSocketId : ℕ := 0
  listening : Bool := false
  counter : ℕ := 0
  shmem : List Shmem := []
  phase : Phase := .idle
  result : ℤ := 0
  deriving DecidableEq, Repr

/-- `IPC_PRIVATE`. -/
def IPC_PRIVATE : ℤ := 0

/-- `ROUND_UP(size, getpagesize())` on `size_t`. -/
def roundUp (size : ℕ) : ℕ := (size + 4096 - 1) % 2 ^ 64 / 4096 * 4096

/-- `ashmem_get_size_region`: the size as an `int`. -/
def ashmemGetSizeRegion (size : ℕ) : ℤ := Int.bmod size (2 ^ 32)

/-- `ashv_socket_id_from_shmid`: a division of `int`s. -/
def ashvSocketIdFromShmid (shmid : ℤ) : ℤ := shmid.tdiv 0x10000

/-- The first member that `q` holds of is changed. -/
def updateFirst (q : Shmem → Bool) (f : Shmem → Shmem) : List Shmem → List Shmem
  | [] => []
  | e :: es => if q e then f e :: es else e :: updateFirst q f es

/-- The first of the next `n` socket ids that nothing is bound to. -/
def bindFrom (sockets : ℤ → Option ℕ) : ℕ → ℕ → Option ℕ
  | 0, _ => none
  | n + 1, id =>
    if sockets (id % 0x10000 : ℕ) = none then some (id % 0x10000) else bindFrom sockets n (id + 1)

namespace Process

variable (p : Process)

/-- `ashv_check_pid`: a process that was forked starts anew. -/
def ashvCheckPid (pid : ℕ) : Process :=
  if p.pidSetup = 0 then { p with pidSetup := pid }
  else if p.pidSetup ≠ pid then
    { p with pidSetup := pid, localSocketId := 0, listening := false, shmem := [] }
  else p

/-- `ashv_shmid_from_counter`; the product wraps around. -/
def ashvShmidFromCounter (counter : ℕ) : ℤ :=
  Int.bmod (p.localSocketId * 0x10000 + counter) (2 ^ 32)

/-- The next value of `shmem_counter`. -/
def nextCounter : ℕ := (p.counter + 1) % 0x8000

/-- The segment at `ashv_find_local_index`. -/
def ashvFindLocal (shmid : ℤ) : Option Shmem := p.shmem.find? fun e => e.id = shmid

/-- The call is over. -/
def return_ (result : ℤ) : Process := { p with phase := .idle, result := result }

/-- The end of `shmat`, for a segment of the table: a segment that is not mapped yet is mapped to
what `mmap` gives. -/
def attach (shmid : ℤ) (mapped : Option ℕ) : Process :=
  match p.ashvFindLocal shmid with
  | none => p.return_ (-1)
  | some e =>
    let addr := e.addr.or mapped
    { p.return_ ((addr.map Int.ofNat).getD (-1)) with
      shmem := updateFirst (fun e => e.id = shmid) (fun e => { e with addr := addr }) p.shmem }

/-- What `mmap` may give: an address that is not in use. -/
def MayMap (mapped : Option ℕ) : Prop :=
  ∀ addr, mapped = some addr → addr ≠ 0 ∧ ∀ e ∈ p.shmem, e.addr ≠ some addr

/-- `shmdt`.  A segment that is marked, or that belongs to another process, is deleted. -/
def shmdt (shmaddr : Option ℕ) : Process :=
  match p.shmem.find? fun e => e.addr = shmaddr with
  | none => p.return_ 0
  | some e =>
    { p.return_ 0 with
      shmem :=
        if e.markedForDeletion = true ∨ ashvSocketIdFromShmid e.id ≠ p.localSocketId then
          p.shmem.eraseP fun e => e.addr = shmaddr
        else updateFirst (fun e => e.addr = shmaddr) (fun e => { e with addr := none }) p.shmem }

/-- `shmctl` with `IPC_RMID`. -/
def shmctlRmid (shmid : ℤ) : Process :=
  match p.ashvFindLocal shmid with
  | none => p.return_ 0
  | some e =>
    { p.return_ 0 with
      shmem :=
        if e.addr = none then p.shmem.eraseP fun e => e.id = shmid
        else updateFirst (fun e => e.id = shmid) (fun e => { e with markedForDeletion := true })
          p.shmem }

/-- `shmctl` with `IPC_STAT`. -/
def shmctlStat (shmid : ℤ) : Process :=
  p.return_ (if (p.ashvFindLocal shmid).isSome then 0 else -1)

/-- The other end of the connection is closed. -/
def hangUp (pid : ℕ) : Process :=
  match p.phase with
  | .getting key size shmid found peer =>
    { p with phase := .getting key size shmid found (if peer = some pid then none else peer) }
  | .attaching shmid peer =>
    { p with phase := .attaching shmid (if peer = some pid then none else peer) }
  | _ => p

end Process

theorem Process.mayMap_none (p : Process) : p.MayMap none := nofun

instance (p : Process) (mapped : Option ℕ) : Decidable (p.MayMap mapped) :=
  match mapped with
  | none => .isTrue nofun
  | some addr =>
    decidable_of_iff (addr ≠ 0 ∧ ∀ e ∈ p.shmem, e.addr ≠ some addr)
      ⟨fun h _ heq => Option.some.inj heq ▸ h, fun h => h addr rfl⟩

/-! ### All processes -/

/-- What the system keeps for all processes: the processes that serve the sockets, the ids in the
links, and the sizes of the regions that were made. -/
structure Kernel where
  sockets : ℤ → Option ℕ := fun _ => none
  links : ℤ → Option ℤ := fun _ => none
  regions : List ℕ := []

namespace Kernel

variable (k : Kernel)

/-- The end of `shmget`: a new segment with the id `shmid`. -/
def create (p : Process) (shmid key : ℤ) (size : ℕ) (allocated : Bool) : Kernel × Process :=
  if allocated then
    ({ k with regions := k.regions ++ [roundUp size] },
      { p.return_ shmid with
        shmem := p.shmem ++ [{ id := shmid, descriptor := k.regions.length, size := roundUp size,
                               key := key }] })
  else (k, p.return_ (-1))

/-- The socket and the thread of `shmget`; `none` if no socket can be bound. -/
def listen (pid : ℕ) (p : Process) : Kernel × Option Process :=
  if p.listening then (k, some p)
  else
    match bindFrom k.sockets 4096 pid with
    | none => (k, none)
    | some id =>
      ({ k with sockets := Function.update k.sockets id (some pid) },
        some { p with localSocketId := id, listening := true })

/-- What `ashv_read_remote_segment` makes of the answer. -/
def readRemote (answer : Option Shmem) : Option Shmem :=
  answer.bind fun e =>
    let size := ashmemGetSizeRegion ((k.regions[e.descriptor]?).getD 0)
    if size = 0 ∨ size = -1 then none
    else
      some { id := e.id, descriptor := e.descriptor, size := (size % 2 ^ 64).toNat, key := e.key }

end Kernel

/-- The processes by their pids, and the system. -/
structure World where
  processes : ℕ → Option Process := fun _ => none
  kernel : Kernel := {}

/-- A part of a call, up to the next access to a link or the next request.  `allocated` is whether
a region can be made, `mapped` what `mmap` gives.  `answer` is the answer to a request, and what
the call does then. -/
inductive Call
  | shmget (key : ℤ) (size : ℕ) (allocated : Bool)
  | readlink
  | unlink
  | symlink (allocated : Bool)
  | shmat (shmid : ℤ) (mapped : Option ℕ)
  | answer (mapped : Option ℕ)
  | shmdt (shmaddr : Option ℕ)
  | shmctlRmid (shmid : ℤ)
  | shmctlStat (shmid : ℤ)
  deriving DecidableEq

/-- A step of a process. -/
inductive Step
  | start (pid : ℕ)
  | fork (pid child : ℕ)
  | exit (pid : ℕ)
  | call (pid : ℕ) (c : Call)
  deriving DecidableEq

namespace Process

variable (p : Process)

/-- The process as its call goes on with it: a call begins with `ashv_check_pid`. -/
def live (pid : ℕ) : Process := if p.phase = .idle then p.ashvCheckPid pid else p

/-- The loop of `shmget` after `readlink`: the link named `found`, if there was one. -/
def readlink (sockets : ℤ → Option ℕ) (key : ℤ) (size : ℕ) (shmid : Option ℤ) :
    Option ℤ → Process
  | none => { p with phase := .symlink key size shmid }
  | some found =>
    if found = 0 then { p with phase := .unlink key size shmid }
    else if (p.ashvFindLocal found).isSome then p.return_ found
    else
      match sockets (ashvSocketIdFromShmid found) with
      | none => { p with phase := .unlink key size shmid }
      | some peer => { p with phase := .getting key size shmid found (some peer) }

/-- The id of the segment that `shmget` makes: the one that it has, or a new one. -/
def shmidFor (shmid : Option ℤ) : ℤ := shmid.getD (p.ashvShmidFromCounter p.nextCounter)

/-- A new id moves the counter. -/
def count (shmid : Option ℤ) : Process :=
  if shmid = none then { p with counter := p.nextCounter } else p

theorem shmidFor_none : p.shmidFor none = p.ashvShmidFromCounter p.nextCounter := by
  rw [shmidFor, Option.getD_none]

theorem count_none : p.count none = { p with counter := p.nextCounter } := if_pos rfl

theorem count_some (shmid : ℤ) : p.count (some shmid) = p := if_neg (Option.some_ne_none _)

@[simp] theorem pidSetup_count (shmid : Option ℤ) : (p.count shmid).pidSetup = p.pidSetup := by
  cases shmid with
  | none => rw [count_none]
  | some shmid => rw [count_some]

@[simp] theorem listening_count (shmid : Option ℤ) :
    (p.count shmid).listening = p.listening := by
  cases shmid with
  | none => rw [count_none]
  | some shmid => rw [count_some]

@[simp] theorem localSocketId_count (shmid : Option ℤ) :
    (p.count shmid).localSocketId = p.localSocketId := by
  cases shmid with
  | none => rw [count_none]
  | some shmid => rw [count_some]

@[simp] theorem shmem_count (shmid : Option ℤ) : (p.count shmid).shmem = p.shmem := by
  cases shmid with
  | none => rw [count_none]
  | some shmid => rw [count_some]

end Process

namespace World

variable (w : World)

/-- What the thread of the process `peer` answers: `none` while that process has its mutex. -/
def respond (shmid : ℤ) (peer : Option ℕ) : Option (Option Shmem) :=
  match peer.bind w.processes with
  | none => some none
  | some q => if q.phase = .idle then some (q.ashvFindLocal shmid) else none

/-- A part of a call of the process `p`, which is alive; `none` if it is not its turn. -/
def call (pid : ℕ) (p : Process) : Call → Option (Kernel × Process)
  | .shmget key size allocated =>
    if p.phase ≠ .idle then none
    else
      match w.kernel.listen pid p with
      | (k, none) => some (k, { p.return_ (-1) with localSocketId := 0 })
      | (k, some p) =>
        if key = IPC_PRIVATE then
          some (k.create (p.count none) (p.shmidFor none) key size allocated)
        else some (k, { p with phase := .readlink key size none })
  | .readlink =>
    match p.phase with
    | .readlink key size shmid =>
      some (w.kernel, p.readlink w.kernel.sockets key size shmid (w.kernel.links key))
    | _ => none
  | .unlink =>
    match p.phase with
    | .unlink key size shmid =>
      some ({ w.kernel with links := Function.update w.kernel.links key none },
        { p with phase := .symlink key size shmid })
    | _ => none
  | .symlink allocated =>
    match p.phase with
    | .symlink key size shmid =>
      if w.kernel.links key = none then
        some (Kernel.create
          { w.kernel with links := Function.update w.kernel.links key (some (p.shmidFor shmid)) }
          (p.count shmid) (p.shmidFor shmid) key size allocated)
      else
        some (w.kernel,
          { p.count shmid with phase := .readlink key size (some (p.shmidFor shmid)) })
    | _ => none
  | .shmat shmid mapped =>
    if p.phase ≠ .idle then none
    else if (p.ashvFindLocal shmid).isSome then
      if p.MayMap mapped then some (w.kernel, p.attach shmid mapped) else none
    else if ashvSocketIdFromShmid shmid = p.localSocketId then some (w.kernel, p.return_ (-1))
    else
      match w.kernel.sockets (ashvSocketIdFromShmid shmid) with
      | none => some (w.kernel, p.return_ (-1))
      | some peer => some (w.kernel, { p with phase := .attaching shmid (some peer) })
  | .answer mapped =>
    match p.phase with
    | .getting key size shmid found peer =>
      (w.respond found peer).map fun answer =>
        match w.kernel.readRemote answer with
        | none => (w.kernel, { p with phase := .unlink key size shmid })
        | some e => (w.kernel, { p.return_ found with shmem := p.shmem ++ [e] })
    | .attaching shmid peer =>
      (w.respond shmid peer).bind fun answer =>
        match w.kernel.readRemote answer with
        | none => some (w.kernel, p.return_ (-1))
        | some e =>
          if p.MayMap mapped then
            some (w.kernel, Process.attach { p with shmem := p.shmem ++ [e] } shmid mapped)
          else none
    | _ => none
  | .shmdt shmaddr => if p.phase ≠ .idle then none else some (w.kernel, p.shmdt shmaddr)
  | .shmctlRmid shmid => if p.phase ≠ .idle then none else some (w.kernel, p.shmctlRmid shmid)
  | .shmctlStat shmid => if p.phase ≠ .idle then none else some (w.kernel, p.shmctlStat shmid)

/-- The process `pid` is `p`. -/
def put (pid : ℕ) (p : Process) : World :=
  { w with processes := Function.update w.processes pid (some p) }

/-- The process `pid` is gone, and its socket and its connections with it. -/
def remove (pid : ℕ) : World where
  processes i := if i = pid then none else (w.processes i).map (·.hangUp pid)
  kernel :=
    { w.kernel with
      sockets := fun id => if w.kernel.sockets id = some pid then none else w.kernel.sockets id }

/-- One step; `none` if it is not this step's turn. -/
def step : Step → Option World
  | .start pid => if pid = 0 ∨ (w.processes pid).isSome then none else some (w.put pid {})
  | .fork pid child =>
    if child = 0 ∨ (w.processes child).isSome then none
    else (w.processes pid).map fun p => w.put child { p with phase := .idle }
  | .exit pid => (w.processes pid).map fun _ => w.remove pid
  | .call pid c =>
    (w.processes pid).bind fun p =>
      (w.call pid (p.live pid) c).map fun r => { w.put pid r.2 with kernel := r.1 }

variable {w}

@[simp] theorem put_processes_self (pid : ℕ) (p : Process) :
    (w.put pid p).processes pid = some p := Function.update_self ..

@[simp] theorem put_processes_of_ne {pid i : ℕ} (h : i ≠ pid) (p : Process) :
    (w.put pid p).processes i = w.processes i := Function.update_of_ne h ..

/-! ### What a part of a call does -/

/-- What a part of a call makes of the kernel and of its process, one case for each way it goes. -/
inductive Outcome (w : World) (pid : ℕ) (p : Process) : Call → Kernel → Process → Prop
  | noSocket {key : ℤ} {size : ℕ} {allocated : Bool} {k : Kernel} (hidle : p.phase = .idle)
      (hlisten : w.kernel.listen pid p = (k, none)) :
      Outcome w pid p (.shmget key size allocated) k { p.return_ (-1) with localSocketId := 0 }
  | makePrivate {size : ℕ} {allocated : Bool} {k k' : Kernel} {q p' : Process}
      (hidle : p.phase = .idle) (hlisten : w.kernel.listen pid p = (k, some q))
      (hcreate : k.create (q.count none) (q.shmidFor none) IPC_PRIVATE size allocated = (k', p')) :
      Outcome w pid p (.shmget IPC_PRIVATE size allocated) k' p'
  | begin {key : ℤ} {size : ℕ} {allocated : Bool} {k : Kernel} {q : Process}
      (hidle : p.phase = .idle) (hlisten : w.kernel.listen pid p = (k, some q))
      (hkey : key ≠ IPC_PRIVATE) :
      Outcome w pid p (.shmget key size allocated) k { q with phase := .readlink key size none }
  | readlink {key : ℤ} {size : ℕ} {shmid : Option ℤ} (hphase : p.phase = .readlink key size shmid) :
      Outcome w pid p .readlink w.kernel
        (p.readlink w.kernel.sockets key size shmid (w.kernel.links key))
  | unlink {key : ℤ} {size : ℕ} {shmid : Option ℤ} (hphase : p.phase = .unlink key size shmid) :
      Outcome w pid p .unlink { w.kernel with links := Function.update w.kernel.links key none }
        { p with phase := .symlink key size shmid }
  | make {key : ℤ} {size : ℕ} {shmid : Option ℤ} {allocated : Bool} {k' : Kernel} {p' : Process}
      (hphase : p.phase = .symlink key size shmid) (hlink : w.kernel.links key = none)
      (hcreate : Kernel.create
        { w.kernel with links := Function.update w.kernel.links key (some (p.shmidFor shmid)) }
        (p.count shmid) (p.shmidFor shmid) key size allocated = (k', p')) :
      Outcome w pid p (.symlink allocated) k' p'
  | retry {key : ℤ} {size : ℕ} {shmid : Option ℤ} {allocated : Bool}
      (hphase : p.phase = .symlink key size shmid) (hlink : w.kernel.links key ≠ none) :
      Outcome w pid p (.symlink allocated) w.kernel
        { p.count shmid with phase := .readlink key size (some (p.shmidFor shmid)) }
  | attach {shmid : ℤ} {mapped : Option ℕ} (hidle : p.phase = .idle) :
      Outcome w pid p (.shmat shmid mapped) w.kernel (p.attach shmid mapped)
  | noSegment {shmid : ℤ} {mapped : Option ℕ} (hidle : p.phase = .idle) :
      Outcome w pid p (.shmat shmid mapped) w.kernel (p.return_ (-1))
  | ask {shmid : ℤ} {mapped peer : Option ℕ} (hidle : p.phase = .idle) :
      Outcome w pid p (.shmat shmid mapped) w.kernel { p with phase := .attaching shmid peer }
  | notGot {key : ℤ} {size : ℕ} {shmid : Option ℤ} {found : ℤ} {peer mapped : Option ℕ}
      {answer : Option Shmem} (hphase : p.phase = .getting key size shmid found peer)
      (hanswer : w.respond found peer = some answer) (hread : w.kernel.readRemote answer = none) :
      Outcome w pid p (.answer mapped) w.kernel { p with phase := .unlink key size shmid }
  | got {key : ℤ} {size : ℕ} {shmid : Option ℤ} {found : ℤ} {peer mapped : Option ℕ}
      {answer : Option Shmem} {e : Shmem} (hphase : p.phase = .getting key size shmid found peer)
      (hanswer : w.respond found peer = some answer) (hread : w.kernel.readRemote answer = some e) :
      Outcome w pid p (.answer mapped) w.kernel { p.return_ found with shmem := p.shmem ++ [e] }
  | notAttached {shmid : ℤ} {peer mapped : Option ℕ} (hphase : p.phase = .attaching shmid peer) :
      Outcome w pid p (.answer mapped) w.kernel (p.return_ (-1))
  | attached {shmid : ℤ} {peer mapped : Option ℕ} {answer : Option Shmem} {e : Shmem}
      (hphase : p.phase = .attaching shmid peer) (hanswer : w.respond shmid peer = some answer)
      (hread : w.kernel.readRemote answer = some e) :
      Outcome w pid p (.answer mapped) w.kernel
        (Process.attach { p with shmem := p.shmem ++ [e] } shmid mapped)
  | shmdt {shmaddr : Option ℕ} (hidle : p.phase = .idle) :
      Outcome w pid p (.shmdt shmaddr) w.kernel (p.shmdt shmaddr)
  | shmctlRmid {shmid : ℤ} (hidle : p.phase = .idle) :
      Outcome w pid p (.shmctlRmid shmid) w.kernel (p.shmctlRmid shmid)
  | shmctlStat {shmid : ℤ} (hidle : p.phase = .idle) :
      Outcome w pid p (.shmctlStat shmid) w.kernel (p.shmctlStat shmid)

theorem call_cases {pid : ℕ} {p p' : Process} {k' : Kernel} {c : Call}
    (h : w.call pid p c = some (k', p')) : w.Outcome pid p c k' p' := by
  cases c with
  | shmget key size allocated =>
    simp only [call] at h
    split at h
    · cases h
    rename_i hidle
    rw [not_not] at hidle
    rcases hlisten : w.kernel.listen pid p with ⟨k, _ | q⟩
    · rw [hlisten] at h
      obtain ⟨rfl, rfl⟩ := Prod.mk.inj (Option.some.inj h)
      exact .noSocket hidle hlisten
    · rw [hlisten] at h
      dsimp only at h
      split_ifs at h with hkey
      · subst hkey
        exact .makePrivate hidle hlisten (Option.some.inj h)
      · obtain ⟨rfl, rfl⟩ := Prod.mk.inj (Option.some.inj h)
        exact .begin hidle hlisten hkey
  | readlink =>
    simp only [call] at h
    split at h
    · obtain ⟨rfl, rfl⟩ := Prod.mk.inj (Option.some.inj h)
      exact .readlink ‹_›
    · cases h
  | unlink =>
    simp only [call] at h
    split at h
    · obtain ⟨rfl, rfl⟩ := Prod.mk.inj (Option.some.inj h)
      exact .unlink ‹_›
    · cases h
  | symlink allocated =>
    simp only [call] at h
    split at h
    · rename_i hphase
      split_ifs at h with hlink
      · exact .make hphase hlink (Option.some.inj h)
      · obtain ⟨rfl, rfl⟩ := Prod.mk.inj (Option.some.inj h)
        exact .retry hphase hlink
    · cases h
  | shmat shmid mapped =>
    simp only [call] at h
    split at h
    · cases h
    rename_i hidle
    rw [not_not] at hidle
    split_ifs at h
    · obtain ⟨rfl, rfl⟩ := Prod.mk.inj (Option.some.inj h)
      exact .attach hidle
    · obtain ⟨rfl, rfl⟩ := Prod.mk.inj (Option.some.inj h)
      exact .noSegment hidle
    · split at h
      · obtain ⟨rfl, rfl⟩ := Prod.mk.inj (Option.some.inj h)
        exact .noSegment hidle
      · obtain ⟨rfl, rfl⟩ := Prod.mk.inj (Option.some.inj h)
        exact .ask hidle
  | answer mapped =>
    simp only [call] at h
    split at h
    · rename_i hphase
      obtain ⟨answer, hanswer, h⟩ := Option.map_eq_some_iff.1 h
      split at h
      · obtain ⟨rfl, rfl⟩ := Prod.mk.inj h
        exact .notGot hphase hanswer ‹_›
      · obtain ⟨rfl, rfl⟩ := Prod.mk.inj h
        exact .got hphase hanswer ‹_›
    · rename_i hphase
      obtain ⟨answer, hanswer, h⟩ := Option.bind_eq_some_iff.1 h
      split at h
      · obtain ⟨rfl, rfl⟩ := Prod.mk.inj (Option.some.inj h)
        exact .notAttached hphase
      · split_ifs at h
        obtain ⟨rfl, rfl⟩ := Prod.mk.inj (Option.some.inj h)
        exact .attached hphase hanswer ‹_›
    · cases h
  | shmdt shmaddr =>
    simp only [call] at h
    split_ifs at h with hidle
    obtain ⟨rfl, rfl⟩ := Prod.mk.inj (Option.some.inj h)
    exact .shmdt (not_not.1 hidle)
  | shmctlRmid shmid =>
    simp only [call] at h
    split_ifs at h with hidle
    obtain ⟨rfl, rfl⟩ := Prod.mk.inj (Option.some.inj h)
    exact .shmctlRmid (not_not.1 hidle)
  | shmctlStat shmid =>
    simp only [call] at h
    split_ifs at h with hidle
    obtain ⟨rfl, rfl⟩ := Prod.mk.inj (Option.some.inj h)
    exact .shmctlStat (not_not.1 hidle)

/-- What listening makes of the process and the sockets. -/
theorem listen_eq {k k' : Kernel} {pid : ℕ} {p : Process} {q : Option Process}
    (h : k.listen pid p = (k', q)) :
    (p.listening = true ∧ k' = k ∧ q = some p) ∨
      (p.listening = false ∧ k' = k ∧ q = none ∧ bindFrom k.sockets 4096 pid = none) ∨
      (p.listening = false ∧ ∃ id, bindFrom k.sockets 4096 pid = some id ∧
        k' = { k with sockets := Function.update k.sockets (id : ℤ) (some pid) } ∧
        q = some { p with localSocketId := id, listening := true }) := by
  unfold Kernel.listen at h
  split_ifs at h with hlistening
  · obtain ⟨rfl, rfl⟩ := Prod.mk.inj h
    exact .inl ⟨hlistening, rfl, rfl⟩
  · rw [Bool.not_eq_true] at hlistening
    cases hid : bindFrom k.sockets 4096 pid with
    | none =>
      rw [hid] at h
      obtain ⟨rfl, rfl⟩ := Prod.mk.inj h
      exact .inr (.inl ⟨hlistening, rfl, rfl, rfl⟩)
    | some id =>
      rw [hid] at h
      obtain ⟨rfl, rfl⟩ := Prod.mk.inj h
      exact .inr (.inr ⟨hlistening, id, rfl, rfl, rfl⟩)

/-- A part of a call, as a step. -/
theorem step_call {pid : ℕ} {p p' : Process} {k' : Kernel} {c : Call}
    (hp : w.processes pid = some p) (h : w.call pid (p.live pid) c = some (k', p')) :
    ∃ w', w.step (.call pid c) = some w' ∧ w'.processes pid = some p' ∧ w'.kernel = k' ∧
      ∀ i, i ≠ pid → w'.processes i = w.processes i := by
  refine ⟨{ w.put pid p' with kernel := k' }, ?_, put_processes_self pid p', rfl,
    fun i hi => put_processes_of_ne hi p'⟩
  rw [step, hp, Option.bind_some, h]
  rfl

/-- A call that has found a link which leads nowhere takes away whatever link there is, and makes
its own, if no other process comes between. -/
theorem unlink_symlink {pid : ℕ} {p : Process} {key : ℤ} {size : ℕ} {shmid : Option ℤ}
    (allocated : Bool) (hp : w.processes pid = some p) (hphase : p.phase = .unlink key size shmid) :
    ∃ w₁ w₂ p₂, w.step (.call pid .unlink) = some w₁ ∧
      w₁.processes pid = some { p with phase := .symlink key size shmid } ∧
      w₁.step (.call pid (.symlink allocated)) = some w₂ ∧ w₂.processes pid = some p₂ ∧
      p₂.phase = .idle ∧ (allocated = true → p₂.result = p.shmidFor shmid) ∧
      ∀ i, i ≠ pid → w₂.processes i = w.processes i := by
  have hunlink : w.call pid (p.live pid) .unlink =
      some ({ w.kernel with links := Function.update w.kernel.links key none },
        { p with phase := .symlink key size shmid }) := by
    rw [show p.live pid = p from if_neg (by simp [hphase])]
    simp only [call, hphase]
  obtain ⟨w₁, hw₁, hp₁, hk₁, hframe₁⟩ := step_call hp hunlink
  have hfree : w₁.kernel.links key = none := by
    rw [hk₁]
    exact Function.update_self ..
  have hid : Process.shmidFor { p with phase := .symlink key size shmid } shmid =
      p.shmidFor shmid := by
    unfold Process.shmidFor Process.ashvShmidFromCounter Process.nextCounter
    with_reducible rfl
  have hsymlink : ∃ k₂ p₂, w₁.call pid
      (Process.live { p with phase := .symlink key size shmid } pid) (.symlink allocated) =
        some (k₂, p₂) ∧ p₂.phase = .idle ∧ (allocated = true → p₂.result = p.shmidFor shmid) := by
    rw [show Process.live { p with phase := .symlink key size shmid } pid = _ from
      if_neg (by simp)]
    simp only [call, if_pos hfree]
    cases allocated with
    | false => exact ⟨_, _, rfl, rfl, fun h => by cases h⟩
    | true => exact ⟨_, _, rfl, rfl, fun _ => hid⟩
  obtain ⟨k₂, p₂, hcall, hidle, hresult⟩ := hsymlink
  obtain ⟨w₂, hw₂, hp₂, -, hframe₂⟩ := step_call hp₁ hcall
  exact ⟨w₁, w₂, p₂, hw₁, hp₁, hw₂, hp₂, hidle, hresult,
    fun i hi => (hframe₂ i hi).trans (hframe₁ i hi)⟩

/-- A process comes from nothing but a start or a fork. -/
theorem none_step {w' : World} {s : Step} {i : ℕ} (hw : w.processes i = none)
    (hs : s ≠ .start i ∧ ∀ pid, s ≠ .fork pid i) (h : w.step s = some w') :
    w'.processes i = none := by
  cases s with
  | start pid =>
    simp only [step] at h
    split_ifs at h
    obtain rfl := Option.some.inj h
    refine (put_processes_of_ne ?_ _).trans hw
    rintro rfl
    exact hs.1 rfl
  | fork pid child =>
    simp only [step] at h
    split_ifs at h
    obtain ⟨p, -, rfl⟩ := Option.map_eq_some_iff.1 h
    refine (put_processes_of_ne ?_ _).trans hw
    rintro rfl
    exact hs.2 pid rfl
  | exit pid =>
    obtain ⟨p, -, rfl⟩ := Option.map_eq_some_iff.1 h
    simp only [remove, hw, Option.map_none, ite_self]
  | call pid c =>
    obtain ⟨p, hp, h⟩ := Option.bind_eq_some_iff.1 h
    obtain ⟨⟨k', p'⟩, -, rfl⟩ := Option.map_eq_some_iff.1 h
    refine (put_processes_of_ne ?_ _).trans hw
    rintro rfl
    rw [hw] at hp
    cases hp

end World

end TermuxX11.Shm
