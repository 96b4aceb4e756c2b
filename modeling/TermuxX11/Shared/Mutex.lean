import TermuxX11.Lib.Run

/-!
# The mutex of the shared state

The X server and the renderer keep each other out of the root window with a mutex in shared memory.
A mutex whose process has died would stay locked for ever, so `lorie_mutex_lock` waits for 33 ms
only; where the connection is gone by then it takes the process that has the mutex for dead, and
makes the mutex anew.

The model has the processes that use one mutex, each with one thread that does, and the steps of
`lorie_mutex_lock` and `lorie_mutex_unlock`, so that other steps may come between any two of them.
The mutex is recursive.  A timeout comes at any time at which another process has the mutex.  No
process gets the pid of an earlier one that has left its pid in the mutex or in `lockingPid`.
-/

namespace TermuxX11.Shared

open Run

/-- Where a process is: in `lorie_mutex_lock`, before the mutex is locked or before `lockingPid` is
set; in `lorie_mutex_unlock`, before the mutex is unlocked; or in neither. -/
inductive Place
  | idle
  | locking
  | locked
  | unlocking
  deriving DecidableEq, Repr

/-- A process: how many of its calls of `lorie_mutex_lock` have returned and not been undone, and
what `lorieConnectionAlive` says. -/
structure Party where
  depth : ℕ := 0
  place : Place := .idle
  connectionAlive : Bool := false
  deriving DecidableEq, Repr

/-- A process, with the mutex locked: the pid and how often it is locked. -/
structure Mutex where
  parties : ℕ → Option Party := fun _ => none
  owner : Option (ℕ × ℕ) := none
  lockingPid : ℕ := 0

inductive MutexStep
  | start (pid : ℕ)
  | die (pid : ℕ)
  | connection (pid : ℕ) (alive : Bool)
  | lock (pid : ℕ)
  | acquire (pid : ℕ)
  | timeout (pid : ℕ)
  | setPid (pid : ℕ)
  | unlock (pid : ℕ)
  | release (pid : ℕ)
  deriving DecidableEq

namespace Mutex

variable (m : Mutex)

def put (pid : ℕ) (p : Party) : Mutex :=
  { m with parties := Function.update m.parties pid (some p) }

/-- `pthread_mutex_timedlock` succeeds. -/
def take (pid : ℕ) : Option (ℕ × ℕ) :=
  match m.owner with
  | none => some (pid, 1)
  | some (owner, count) => if owner = pid then some (pid, count + 1) else none

/-- `pthread_mutex_unlock`, which fails for a process that does not have the mutex. -/
def give (pid : ℕ) : Option (ℕ × ℕ) :=
  match m.owner with
  | none => none
  | some (owner, count) =>
    if owner ≠ pid then some (owner, count)
    else if count = 1 then none
    else some (owner, count - 1)

/-- One step; `none` if it is not this step's turn. -/
def step : MutexStep → Option Mutex
  | .start pid =>
    if pid = 0 ∨ (m.parties pid).isSome ∨ m.lockingPid = pid ∨ m.owner.map Prod.fst = some pid then
      none
    else some (m.put pid {})
  | .die pid =>
    if (m.parties pid).isSome then
      some { m with parties := Function.update m.parties pid none }
    else none
  | .connection pid alive =>
    (m.parties pid).map fun p => m.put pid { p with connectionAlive := alive }
  | .lock pid =>
    (m.parties pid).bind fun p =>
      if p.place = .idle then some (m.put pid { p with place := .locking }) else none
  | .acquire pid =>
    (m.parties pid).bind fun p =>
      if p.place = .locking then
        (m.take pid).map fun owner =>
          { m.put pid { p with place := .locked } with owner := some owner }
      else none
  | .timeout pid =>
    (m.parties pid).bind fun p =>
      if p.place = .locking ∧ m.take pid = none then
        if m.lockingPid = pid ∨ p.connectionAlive = true then some m
        else some { m with owner := none }
      else none
  | .setPid pid =>
    (m.parties pid).bind fun p =>
      if p.place = .locked then
        some { m.put pid { p with place := .idle, depth := p.depth + 1 } with lockingPid := pid }
      else none
  | .unlock pid =>
    (m.parties pid).bind fun p =>
      if p.place = .idle ∧ p.depth ≠ 0 then
        some { m.put pid { p with place := .unlocking, depth := p.depth - 1 } with lockingPid := 0 }
      else none
  | .release pid =>
    (m.parties pid).bind fun p =>
      if p.place = .unlocking then
        some { m.put pid { p with place := .idle } with owner := m.give pid }
      else none

/-! ### Who is inside -/

end Mutex

/-- The process counts on the mutex: a call of `lorie_mutex_lock` has locked it, and has not been
undone. -/
def Party.Inside (p : Party) : Prop := p.depth ≠ 0 ∨ p.place = .locked

/-- How often the process has locked the mutex. -/
def Party.count (p : Party) : ℕ :=
  p.depth + if p.place = .locked ∨ p.place = .unlocking then 1 else 0

namespace Mutex

/-- Whoever is inside has the mutex. -/
def Sound (m : Mutex) : Prop :=
  ∀ pid p, m.parties pid = some p → p.Inside → ∃ count, m.owner = some (pid, count)

/-- The mutex is made anew where a process has it that is alive and inside. -/
def Breaks (m : Mutex) : MutexStep → Prop
  | .timeout pid =>
    m.lockingPid ≠ pid ∧ (∃ p ∈ m.parties pid, p.connectionAlive = false) ∧
      ∃ owner ∈ m.owner, ∃ p ∈ m.parties owner.1, p.Inside
  | _ => False

instance (p : Party) : Decidable p.Inside := inferInstanceAs (Decidable (_ ∨ _))

instance (m : Mutex) : (s : MutexStep) → Decidable (m.Breaks s)
  | .timeout _ => inferInstanceAs (Decidable (_ ∧ _ ∧ _))
  | .start _ | .die _ | .connection _ _ | .lock _ | .acquire _ | .setPid _ | .unlock _
  | .release _ => .isFalse id

/-- The mutex is locked as often as its process has locked it, and `lockingPid` is a process that is
inside, or dead. -/
structure Counted (m : Mutex) : Prop where
  sound : m.Sound
  zero : m.parties 0 = none
  count : ∀ pid p count, m.parties pid = some p → m.owner = some (pid, count) → count = p.count
  pid : ∀ p, m.parties m.lockingPid = some p → p.depth ≠ 0

variable {m m' : Mutex} {pid : ℕ} {p : Party} {s : MutexStep}

@[simp] theorem put_parties_self (m : Mutex) (pid : ℕ) (p : Party) :
    (m.put pid p).parties pid = some p := Function.update_self ..

@[simp] theorem put_parties_of_ne {i : ℕ} (h : i ≠ pid) (p : Party) :
    (m.put pid p).parties i = m.parties i := Function.update_of_ne h ..

/-- No two processes are inside. -/
theorem Sound.exclusive (h : m.Sound) {i j : ℕ} {p q : Party} (hp : m.parties i = some p)
    (hq : m.parties j = some q) (hi : p.Inside) (hj : q.Inside) : i = j := by
  obtain ⟨c, hc⟩ := h i p hp hi
  obtain ⟨d, hd⟩ := h j q hq hj
  exact congrArg Prod.fst (Option.some.inj (hc.symm.trans hd))

/-! ### One step -/

/-- What a step of one process needs to keep: what the others count on, and its own count. -/
theorem Counted.put (h : m.Counted) (hpid : pid ≠ 0) {owner' : Option (ℕ × ℕ)} {lockingPid' : ℕ}
    (hothers : ∀ i q, i ≠ pid → m.parties i = some q →
      (q.Inside → ∃ c, owner' = some (i, c)) ∧ ∀ c, owner' = some (i, c) → m.owner = some (i, c))
    (hinside : p.Inside → ∃ c, owner' = some (pid, c))
    (hcount : ∀ c, owner' = some (pid, c) → c = p.count)
    (hlocking : lockingPid' = 0 ∨ lockingPid' = pid ∧ p.depth ≠ 0 ∨
      lockingPid' = m.lockingPid ∧ (m.lockingPid = pid → p.depth ≠ 0)) :
    ({ m.put pid p with owner := owner', lockingPid := lockingPid' } : Mutex).Counted where
  sound i q hq hin := by
    by_cases hi : i = pid
    · rw [hi, put_parties_self] at hq
      obtain rfl := Option.some.inj hq
      rw [hi]
      exact hinside hin
    · rw [put_parties_of_ne hi] at hq
      exact (hothers i q hi hq).1 hin
  zero := (put_parties_of_ne hpid.symm p).trans h.zero
  count i q c hq howner := by
    by_cases hi : i = pid
    · rw [hi, put_parties_self] at hq
      obtain rfl := Option.some.inj hq
      rw [hi] at howner
      exact hcount c howner
    · rw [put_parties_of_ne hi] at hq
      exact h.count i q c hq ((hothers i q hi hq).2 c howner)
  pid q hq := by
    by_cases hi : lockingPid' = pid
    · rw [hi, put_parties_self] at hq
      obtain rfl := Option.some.inj hq
      obtain h0 | ⟨-, hdepth⟩ | ⟨hsame, hdepth⟩ := hlocking
      · exact absurd (hi.symm.trans h0) hpid
      · exact hdepth
      · exact hdepth (hsame.symm.trans hi)
    · rw [put_parties_of_ne hi] at hq
      obtain h0 | ⟨hself, -⟩ | ⟨hsame, -⟩ := hlocking
      · rw [h0, h.zero] at hq
        cases hq
      · exact absurd hself hi
      · rw [hsame] at hq
        exact h.pid q hq

/-- The other processes, where the mutex is as it was. -/
theorem Counted.others (h : m.Counted) (i : ℕ) (q : Party) (_ : i ≠ pid)
    (hq : m.parties i = some q) :
    (q.Inside → ∃ c, m.owner = some (i, c)) ∧ ∀ c, m.owner = some (i, c) → m.owner = some (i, c) :=
  ⟨h.sound i q hq, fun _ => id⟩

theorem ne_zero (h : m.Counted) (hp : m.parties pid = some p) : pid ≠ 0 := by
  rintro rfl
  rw [h.zero] at hp
  cases hp

theorem counted_acquire (h : m.Counted) (hp : m.parties pid = some p) (hplace : p.place = .locking)
    {owner' : ℕ × ℕ} (htake : m.take pid = some owner') :
    ({ m.put pid { p with place := .locked } with owner := some owner' } : Mutex).Counted := by
  have hcount' : ∀ {c}, m.owner = some (pid, c) → c = p.depth := by
    intro c hc
    rw [h.count pid p c hp hc, Party.count, hplace]
    simp
  unfold take at htake
  cases howner : m.owner with
  | none =>
    rw [howner] at htake
    obtain rfl := (Option.some.inj htake).symm
    have hnobody : ∀ i q, m.parties i = some q → ¬ q.Inside := by
      intro i q hq hin
      obtain ⟨c, hc⟩ := h.sound i q hq hin
      rw [howner] at hc
      cases hc
    have hdepth : p.depth = 0 := by
      by_contra hne
      exact hnobody pid p hp (.inl hne)
    refine h.put (ne_zero h hp) (fun i q hi hq => ⟨fun hin => absurd hin (hnobody i q hq),
      fun c hc => ?_⟩) (fun _ => ⟨1, rfl⟩) (fun c hc => ?_) (.inr (.inr ⟨rfl, fun heq => ?_⟩))
    · exact absurd (congrArg Prod.fst (Option.some.inj hc)).symm hi
    · obtain rfl := (congrArg Prod.snd (Option.some.inj hc)).symm
      rw [Party.count, hdepth]
      rfl
    · exact absurd hdepth (h.pid p (heq ▸ hp))
  | some o =>
    obtain ⟨owner, count⟩ := o
    rw [howner] at htake
    dsimp only at htake
    split_ifs at htake with hself
    · obtain rfl := (Option.some.inj htake).symm
      obtain rfl := hself
      obtain rfl := hcount' howner
      refine h.put (ne_zero h hp) (fun i q hi hq => ⟨fun hin => ?_, fun c hc => ?_⟩)
        (fun _ => ⟨_, rfl⟩) (fun c hc => ?_) (.inr (.inr ⟨rfl, fun heq => h.pid p (heq ▸ hp)⟩))
      · obtain ⟨c, hc⟩ := h.sound i q hq hin
        rw [howner] at hc
        exact absurd (congrArg Prod.fst (Option.some.inj hc)).symm hi
      · exact absurd (congrArg Prod.fst (Option.some.inj hc)).symm hi
      · obtain rfl := (congrArg Prod.snd (Option.some.inj hc)).symm
        rfl

theorem counted_release (h : m.Counted) (hp : m.parties pid = some p)
    (hplace : p.place = .unlocking) :
    ({ m.put pid { p with place := .idle } with owner := m.give pid } : Mutex).Counted := by
  have hcount' : ∀ {c}, m.owner = some (pid, c) → c = p.depth + 1 := by
    intro c hc
    rw [h.count pid p c hp hc, Party.count, hplace]
    simp
  have hlocking : m.lockingPid = pid → p.depth ≠ 0 := fun heq => h.pid p (heq ▸ hp)
  have hinside : Party.Inside { p with place := .idle } → p.Inside := fun hin =>
    .inl (hin.resolve_right nofun)
  unfold give
  cases howner : m.owner with
  | none =>
    refine h.put (ne_zero h hp) (fun i q hi hq => ⟨fun hin => ?_, nofun⟩) (fun hin => ?_) nofun
      (.inr (.inr ⟨rfl, hlocking⟩))
    · obtain ⟨c, hc⟩ := h.sound i q hq hin
      rw [howner] at hc
      cases hc
    · obtain ⟨c, hc⟩ := h.sound pid p hp (hinside hin)
      rw [howner] at hc
      cases hc
  | some o =>
    obtain ⟨owner, count⟩ := o
    dsimp only
    by_cases hself : owner = pid
    · subst hself
      have hnobody : ∀ i q, i ≠ owner → m.parties i = some q → ¬ q.Inside := by
        intro i q hi hq hin
        obtain ⟨c, hc⟩ := h.sound i q hq hin
        rw [howner] at hc
        exact hi (congrArg Prod.fst (Option.some.inj hc)).symm
      have hc := hcount' howner
      rw [if_neg (not_not.2 rfl)]
      by_cases hlast : count = 1
      · rw [if_pos hlast]
        refine h.put (ne_zero h hp) (fun i q hi hq => ⟨fun hin => absurd hin (hnobody i q hi hq),
          nofun⟩) (fun hin => ?_) nofun (.inr (.inr ⟨rfl, hlocking⟩))
        have hdepth : p.depth ≠ 0 := hin.resolve_right nofun
        omega
      · rw [if_neg hlast]
        refine h.put (ne_zero h hp) (fun i q hi hq => ⟨fun hin => absurd hin (hnobody i q hi hq),
          fun c hc => absurd (congrArg Prod.fst (Option.some.inj hc)).symm hi⟩)
          (fun _ => ⟨_, rfl⟩) (fun c hc' => ?_) (.inr (.inr ⟨rfl, hlocking⟩))
        obtain rfl := (congrArg Prod.snd (Option.some.inj hc')).symm
        show count - 1 = p.depth + 0
        omega
    · rw [if_pos hself]
      refine h.put (ne_zero h hp) (fun i q hi hq => howner ▸ h.others i q hi hq) (fun hin => ?_)
        (fun c hc => ?_) (.inr (.inr ⟨rfl, hlocking⟩))
      · exact howner ▸ h.sound pid p hp (hinside hin)
      · exact absurd (congrArg Prod.fst (Option.some.inj hc)) hself

/-- A step that changes neither the mutex nor what a process counts on. -/
theorem counted_same (h : m.Counted) (hp : m.parties pid = some p) {p' : Party}
    (hin : p'.Inside → p.Inside) (hcount : p'.count = p.count) (hdepth : p'.depth = p.depth) :
    (m.put pid p').Counted := by
  refine h.put (ne_zero h hp) h.others (fun h' => h.sound pid p hp (hin h')) (fun c hc => ?_)
    (.inr (.inr ⟨rfl, fun heq => ?_⟩))
  · rw [hcount]
    exact h.count pid p c hp hc
  · rw [hdepth]
    exact h.pid p (heq ▸ hp)

/-- Every step keeps the counts, unless it makes the mutex anew where a process counts on it. -/
theorem counted_step (h : m.Counted) (hfine : ¬ m.Breaks s) (hstep : m.step s = some m') :
    m'.Counted := by
  cases s with
  | start pid =>
    simp only [step] at hstep
    split_ifs at hstep with hnot
    obtain rfl := Option.some.inj hstep
    obtain ⟨hpid, hnew, hlocking, howner⟩ : pid ≠ 0 ∧ ¬ (m.parties pid).isSome ∧
        m.lockingPid ≠ pid ∧ m.owner.map Prod.fst ≠ some pid := by
      simpa only [not_or] using hnot
    refine h.put hpid h.others (fun hin => ?_) (fun c hc => ?_)
      (.inr (.inr ⟨rfl, fun heq => absurd heq hlocking⟩))
    · exact absurd hin (by simp [Party.Inside])
    · rw [hc] at howner
      exact absurd rfl howner
  | die pid =>
    simp only [step] at hstep
    split_ifs at hstep
    obtain rfl := Option.some.inj hstep
    have hold : ∀ {i q}, Function.update m.parties pid none i = some q → m.parties i = some q := by
      intro i q hq
      by_cases hi : i = pid
      · rw [hi, Function.update_self] at hq
        cases hq
      · rwa [Function.update_of_ne hi] at hq
    refine ⟨fun i q hq => h.sound i q (hold hq), ?_, fun i q c hq => h.count i q c (hold hq),
      fun q hq => h.pid q (hold hq)⟩
    by_cases hi : 0 = pid
    · exact (congrArg _ hi).trans (Function.update_self ..)
    · exact (Function.update_of_ne hi ..).trans h.zero
  | connection pid alive =>
    obtain ⟨p, hp, rfl⟩ := Option.map_eq_some_iff.1 hstep
    exact counted_same h hp id rfl rfl
  | lock pid =>
    obtain ⟨p, hp, hstep⟩ := Option.bind_eq_some_iff.1 hstep
    split_ifs at hstep with hplace
    obtain rfl := Option.some.inj hstep
    refine counted_same h hp (fun hin => .inl (hin.resolve_right nofun)) ?_ rfl
    simp [Party.count, hplace]
  | acquire pid =>
    obtain ⟨p, hp, hstep⟩ := Option.bind_eq_some_iff.1 hstep
    split_ifs at hstep with hplace
    obtain ⟨o, ho, rfl⟩ := Option.map_eq_some_iff.1 hstep
    exact counted_acquire h hp hplace ho
  | timeout pid =>
    obtain ⟨p, hp, hstep⟩ := Option.bind_eq_some_iff.1 hstep
    split_ifs at hstep with hplace hgoes
    · obtain rfl := Option.some.inj hstep
      exact h
    · obtain rfl := Option.some.inj hstep
      rw [not_or, Bool.not_eq_true] at hgoes
      have hnobody : ∀ i q, m.parties i = some q → ¬ q.Inside := by
        intro i q hq hin
        obtain ⟨c, hc⟩ := h.sound i q hq hin
        exact hfine ⟨hgoes.1, ⟨p, hp, hgoes.2⟩, (i, c), hc, q, hq, hin⟩
      exact ⟨fun i q hq hin => absurd hin (hnobody i q hq), h.zero, fun _ _ _ _ => nofun, h.pid⟩
  | setPid pid =>
    obtain ⟨p, hp, hstep⟩ := Option.bind_eq_some_iff.1 hstep
    split_ifs at hstep with hplace
    obtain rfl := Option.some.inj hstep
    refine h.put (ne_zero h hp) h.others (fun _ => h.sound pid p hp (.inr hplace)) (fun c hc => ?_)
      (.inr (.inl ⟨rfl, Nat.succ_ne_zero _⟩))
    rw [h.count pid p c hp hc, Party.count, hplace]
    rfl
  | unlock pid =>
    obtain ⟨p, hp, hstep⟩ := Option.bind_eq_some_iff.1 hstep
    split_ifs at hstep with hplace
    obtain rfl := Option.some.inj hstep
    refine h.put (ne_zero h hp) h.others (fun _ => h.sound pid p hp (.inl hplace.2))
      (fun c hc => ?_) (.inl rfl)
    rw [h.count pid p c hp hc, Party.count, hplace.1]
    show p.depth + 0 = p.depth - 1 + 1
    have := hplace.2
    omega
  | release pid =>
    obtain ⟨p, hp, hstep⟩ := Option.bind_eq_some_iff.1 hstep
    split_ifs at hstep with hplace
    obtain rfl := Option.some.inj hstep
    exact counted_release h hp hplace

/-- A mutex that is made anew where a process counts on it is not that process's any more. -/
theorem not_sound_of_breaks (hbreaks : m.Breaks s) (hstep : m.step s = some m') : ¬ m'.Sound := by
  cases s with
  | timeout pid =>
    obtain ⟨hlocking, ⟨p, hp, halive⟩, ⟨owner, count⟩, howner, q, hq, hin⟩ := hbreaks
    obtain ⟨p', hp', hstep⟩ := Option.bind_eq_some_iff.1 hstep
    obtain rfl := Option.some.inj (hp.symm.trans hp')
    split_ifs at hstep with hplace hgoes
    · rw [halive] at hgoes
      exact absurd (hgoes.resolve_right Bool.false_ne_true) hlocking
    · obtain rfl := Option.some.inj hstep
      intro hsound
      obtain ⟨c, hc⟩ := hsound owner q hq hin
      cases hc
  | _ => cases hbreaks

theorem counted_start : ({} : Mutex).Counted where
  sound _ _ hp := nomatch hp
  zero := rfl
  count _ _ _ hp := nomatch hp
  pid _ hp := nomatch hp

/-- **Mutual exclusion.**  In every run of the processes that use the mutex, whoever is inside has
the mutex in every state, and so no two processes are inside, exactly if no timeout makes the mutex
anew where a process has it that is alive and inside. -/
theorem sound_iff {steps : List MutexStep} (h : tryExec step {} steps = some m') :
    (∀ as₁ as₂ t, steps = as₁ ++ as₂ → tryExec step {} as₁ = some t → t.Sound) ↔
      TryAlways step (fun m s => ¬ m.Breaks s) {} steps :=
  reached_iff_of_kept (I := Counted) (fun _ hI => hI.sound)
    (fun _ _ _ hI hP hs => counted_step hI hP hs)
    (fun _ _ _ _ hP hs => not_sound_of_breaks (not_not.1 hP) hs) counted_start h

/-- One process dies with the mutex, another one waits for it and makes it anew. -/
def diesInside : List MutexStep :=
  [.start 5, .start 6, .connection 6 true, .lock 5, .acquire 5, .setPid 5, .lock 6, .timeout 6,
    .die 5, .connection 6 false, .timeout 6, .acquire 6, .setPid 6]

theorem sound_iff_diesInside :
    (∀ as₁ as₂ t, diesInside = as₁ ++ as₂ → tryExec step {} as₁ = some t → t.Sound) ↔
      TryAlways step (fun m s => ¬ m.Breaks s) {} diesInside :=
  sound_iff (Option.some_get (by decide +kernel)).symm

/-! ### A process that has died with the mutex -/

/-- The steps of a call of `lorie_mutex_lock` that is waiting. -/
def Waiting (pid : ℕ) (s : MutexStep) : Prop := s = .timeout pid ∨ s = .acquire pid

/-- As long as the connection is alive the call waits. -/
theorem waits_of_connectionAlive (hp : m.parties pid = some p)
    (halive : p.connectionAlive = true) (htake : m.take pid = none) {steps : List MutexStep}
    (hsteps : ∀ s ∈ steps, Waiting pid s) (h : tryExec step m steps = some m') : m' = m := by
  refine (tryExec_invariant (I := fun m' => m' = m) (P := fun _ s => Waiting pid s)
    (fun m₁ s m₂ hI hP hs => ?_) rfl ((tryAlways_iff_forall h).2 hsteps) h)
  subst hI
  obtain rfl | rfl := hP
  · obtain ⟨q, hq, hs⟩ := Option.bind_eq_some_iff.1 hs
    obtain rfl := Option.some.inj (hp.symm.trans hq)
    split_ifs at hs with hplace hgoes
    · exact (Option.some.inj hs).symm
    · exact absurd (.inr halive) hgoes
  · obtain ⟨q, -, hs⟩ := Option.bind_eq_some_iff.1 hs
    rw [htake, Option.map_none, ite_self] at hs
    cases hs

/-- **A mutex whose process has died.**  In every run in which the mutex is never made anew where a
process that is alive counts on it: a call that waits for a mutex whose process has died can get it
by steps of its own exactly if the connection is not alive. -/
theorem takesOver_iff {steps : List MutexStep} (h : tryExec step {} steps = some m)
    (hfine : TryAlways step (fun m s => ¬ m.Breaks s) {} steps) (hp : m.parties pid = some p)
    (hplace : p.place = .locking) {owner count : ℕ} (howner : m.owner = some (owner, count))
    (hdead : m.parties owner = none) :
    (∃ own m' p', (∀ s ∈ own, Waiting pid s) ∧ tryExec step m own = some m' ∧
      m'.parties pid = some p' ∧ p'.place = .locked) ↔ p.connectionAlive = false := by
  have hne : owner ≠ pid := by
    rintro rfl
    rw [hp] at hdead
    cases hdead
  have htake : m.take pid = none := by
    rw [take, howner]
    exact if_neg hne
  constructor
  · rintro ⟨own, m', p', hown, hrun, hp', hlocked⟩
    by_contra halive
    rw [Bool.not_eq_false] at halive
    rw [waits_of_connectionAlive hp halive htake hown hrun, hp] at hp'
    obtain rfl := Option.some.inj hp'
    rw [hplace] at hlocked
    cases hlocked
  · intro hnot
    have hcounted : m.Counted :=
      tryExec_invariant (fun _ _ _ hI hP hs => counted_step hI hP hs) counted_start hfine h
    -- a process that waits is not inside, as another one has the mutex
    have hlocking : m.lockingPid ≠ pid := by
      intro heq
      obtain ⟨c, hc⟩ := hcounted.sound pid p hp (.inl (hcounted.pid p (heq ▸ hp)))
      rw [howner] at hc
      exact hne (congrArg Prod.fst (Option.some.inj hc))
    have htimeout : m.step (.timeout pid) = some { m with owner := none } := by
      rw [step, hp, Option.bind_some, if_pos ⟨hplace, htake⟩, if_neg]
      rw [hnot]
      exact fun hgoes => hlocking (hgoes.resolve_right Bool.false_ne_true)
    have hacquire : ({ m with owner := none } : Mutex).step (.acquire pid) =
        some { ({ m with owner := none } : Mutex).put pid { p with place := .locked } with
          owner := some (pid, 1) } := by
      rw [step, show ({ m with owner := none } : Mutex).parties pid = some p from hp,
        Option.bind_some, if_pos hplace]
      rfl
    have hrun : tryExec step m [.timeout pid, .acquire pid] =
        some { ({ m with owner := none } : Mutex).put pid { p with place := .locked } with
          owner := some (pid, 1) } := by
      rw [tryExec, htimeout, Option.bind_some, tryExec, hacquire]
      rfl
    refine ⟨_, _, { p with place := .locked }, ?_, hrun, ?_, rfl⟩
    · simp [Waiting]
    · exact put_parties_self { m with owner := none } pid _

theorem takesOver_diesInside : ∃ m p own m' p',
    tryExec step {} (diesInside.take 10) = some m ∧ m.parties 6 = some p ∧
      (∀ s ∈ own, Waiting 6 s) ∧ tryExec step m own = some m' ∧ m'.parties 6 = some p' ∧
      p'.place = .locked := by
  obtain ⟨m, hm⟩ := Option.isSome_iff_exists.1
    (show (tryExec step {} (diesInside.take 10)).isSome = true by decide +kernel)
  have hstate : ((tryExec step {} (diesInside.take 10)).map fun m =>
      (m.parties 5, m.parties 6, m.owner)) =
      some (none, some { place := .locking }, some (5, 1)) := by
    decide +kernel
  rw [hm, Option.map_some, Option.some.injEq, Prod.mk.injEq, Prod.mk.injEq] at hstate
  obtain ⟨hdead, hp, howner⟩ := hstate
  have hfine : TryAlways step (fun m s => ¬ m.Breaks s) {} (diesInside.take 10) := by
    decide +kernel
  obtain ⟨own, m', p', hown, hrun, hp', hlocked⟩ :=
    (takesOver_iff hm hfine hp rfl howner hdead).2 rfl
  exact ⟨m, _, own, m', p', hm, hp, hown, hrun, hp', hlocked⟩

end Mutex

end TermuxX11.Shared
