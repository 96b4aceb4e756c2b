import TermuxX11.Lib.Run

/-!
# The proxy of the condition variable

The renderer thread sleeps at a condition variable of its own; the X server signals another one, in
the shared state.  `pthreadCondVarProxyThread` waits for the one in the shared state and passes its
signals on.  When the renderer takes over another shared state,
`pthreadCondVarProxyListenOtherCondVar` makes the thread wait there, and the renderer waits until it
has been told so: after that it unmaps the old state.

The model has the two threads, with a step for what each does between two waits for the lock of the
proxy or for a signal.  The thread waits until it is signalled; the renderer may wake for any
reason.  A new shared state is mapped where none is.
-/

namespace TermuxX11.Shared

open Run

/-- Where `pthreadCondVarProxyThread` is: before it has the lock for the first time, with the lock
before it waits, waiting for a condition variable, or signalled and about to lock again. -/
inductive ThreadPlace
  | starting
  | locked
  | waiting (cond : ℕ)
  | woken (cond : ℕ)
  deriving DecidableEq, Repr

/-- Where the renderer is: waiting in `pthreadCondVarProxyListenOtherCondVar`, woken there and about
to lock again, returned from there, or elsewhere; with the shared state it had before. -/
inductive ListenPlace
  | idle
  | waiting (oldState : ℕ)
  | woken (oldState : ℕ)
  | returned (oldState : ℕ)
  deriving DecidableEq, Repr

/-- `proxy` and the two threads.  A shared state is a number, which stands for its condition
variable too; 0 is the state `NULL` and the condition variable `proxy.def`. -/
structure CondVarProxy where
  current : ℕ := 0
  pending : Option ℕ := none
  relocked : Bool := false
  thread : ThreadPlace := .starting
  renderer : ListenPlace := .idle
  state : ℕ := 0
  mapped : Finset ℕ := ∅

inductive ProxyStep
  | start
  | wait
  | signal (cond : ℕ)
  | relock
  | setState (newState : ℕ)
  | wake
  | check
  | unmap
  deriving DecidableEq

namespace CondVarProxy

variable (s : CondVarProxy)

/-- `pthread_cond_signal` or `pthread_cond_broadcast`, for the one thread that may wait there. -/
def signalled (cond : ℕ) : ThreadPlace :=
  if s.thread = .waiting cond then .woken cond else s.thread

/-- The renderer is signalled. -/
def wakened : ListenPlace :=
  match s.renderer with
  | .waiting oldState => .woken oldState
  | place => place

/-- One step; `none` if it is not this step's turn. -/
def step : ProxyStep → Option CondVarProxy
  | .start => if s.thread = .starting then some { s with thread := .locked } else none
  | .wait => if s.thread = .locked then some { s with thread := .waiting s.current } else none
  | .signal cond => if cond = 0 then none else some { s with thread := s.signalled cond }
  | .relock =>
    match s.thread with
    | .woken _ =>
      some { s with
        thread := .locked
        current := s.pending.getD s.current
        pending := none
        relocked := true
        renderer := s.wakened }
    | _ => none
  | .setState newState =>
    if s.renderer = .idle ∧ s.thread ≠ .locked ∧ newState ∉ s.mapped then
      some { s with
        renderer := .waiting s.state
        state := newState
        mapped := if newState = 0 then s.mapped else insert newState s.mapped
        thread := s.signalled s.current
        pending := some newState
        relocked := false }
    else none
  | .wake => some { s with renderer := s.wakened }
  | .check =>
    match s.renderer with
    | .woken oldState =>
      if s.thread = .locked then none
      else some { s with
        renderer := if s.relocked then .returned oldState else .waiting oldState }
    | _ => none
  | .unmap =>
    match s.renderer with
    | .returned oldState => some { s with renderer := .idle, mapped := s.mapped.erase oldState }
    | _ => none

/-! ### Where the thread listens -/

/-- The condition variable that the thread waits for, is in the call of, or is to wait for next. -/
def listensTo : ℕ :=
  match s.thread with
  | .starting | .locked => s.current
  | .waiting cond | .woken cond => cond

/-- The condition variable is there. -/
def Alive (cond : ℕ) : Prop := cond = 0 ∨ cond ∈ s.mapped

/-- The renderer is in `pthreadCondVarProxyListenOtherCondVar`. -/
def Listening : Prop :=
  match s.renderer with
  | .waiting _ | .woken _ => True
  | _ => False

/-- The shared state that the renderer has had before, while it switches. -/
def oldState : Option ℕ :=
  match s.renderer with
  | .idle => none
  | .waiting oldState | .woken oldState | .returned oldState => some oldState

/-- The thread goes over to the state that the renderer has, and has gone over when the renderer
goes on. -/
structure Sound (s : CondVarProxy) : Prop where
  thread : s.listensTo = s.current
  next : s.pending.getD s.current = s.state
  relocked : s.relocked = true → s.pending = none
  listening : ¬ s.Listening → s.pending = none
  state : s.Alive s.state
  current : s.Alive s.current
  old : ∀ oldState ∈ s.oldState, oldState = s.state → s.state = 0
  starting : s.thread = .starting → s.current = 0

variable {s} {s' : CondVarProxy} {a : ProxyStep} {cond : ℕ}

theorem listensTo_signalled (h : s.listensTo = s.current) (cond : ℕ) :
    { s with thread := s.signalled cond }.listensTo = s.current := by
  unfold listensTo signalled at *
  dsimp only
  split_ifs with hwaiting
  · rw [hwaiting] at h
    exact h
  · exact h

theorem starting_signalled : s.signalled cond = .starting ↔ s.thread = .starting := by
  unfold signalled
  split_ifs with hwaiting
  · simp [hwaiting]
  · exact Iff.rfl

theorem listening_wakened (s : CondVarProxy) :
    { s with renderer := s.wakened }.Listening ↔ s.Listening := by
  unfold Listening wakened
  cases s.renderer <;> rfl

theorem oldState_wakened (s : CondVarProxy) :
    { s with renderer := s.wakened }.oldState = s.oldState := by
  unfold oldState wakened
  cases s.renderer <;> rfl

theorem sound_setState (h : s.Sound) {newState : ℕ} (hnew : newState ∉ s.mapped) :
    Sound { s with
      renderer := .waiting s.state
      state := newState
      mapped := if newState = 0 then s.mapped else insert newState s.mapped
      thread := s.signalled s.current
      pending := some newState
      relocked := false } := by
  have hmore : ∀ {cond}, s.Alive cond →
      cond = 0 ∨ cond ∈ if newState = 0 then s.mapped else insert newState s.mapped := by
    intro cond halive
    split_ifs
    · exact halive
    · exact halive.imp_right Finset.mem_insert_of_mem
  refine ⟨listensTo_signalled h.thread _, rfl, nofun, fun hnot => absurd trivial hnot, ?_,
    hmore h.current, fun old hold heq => ?_,
    fun hthread => h.starting (starting_signalled.1 hthread)⟩
  · by_cases hzero : newState = 0
    · exact .inl hzero
    · exact .inr (by simp [hzero])
  · obtain rfl := Option.some.inj hold
    have heq' : s.state = newState := heq
    obtain hzero | hmem := h.state
    · exact heq'.symm.trans hzero
    · exact absurd (heq' ▸ hmem) hnew

theorem sound_unmap (h : s.Sound) {old : ℕ} (hreturned : s.renderer = .returned old) :
    Sound { s with renderer := .idle, mapped := s.mapped.erase old } := by
  have hpending : s.pending = none := h.listening (by simp [Listening, hreturned])
  have hsame : s.current = s.state := by
    have := h.next
    rwa [hpending] at this
  have halive : s.state = 0 ∨ s.state ∈ s.mapped.erase old := by
    obtain hzero | hmem := h.state
    · exact .inl hzero
    · by_cases heq : old = s.state
      · exact .inl (h.old old (by simp [oldState, hreturned]) heq)
      · exact .inr (Finset.mem_erase.2 ⟨fun heq' => heq heq'.symm, hmem⟩)
  exact ⟨h.thread, h.next, h.relocked, fun _ => hpending, halive, hsame ▸ halive, nofun, h.starting⟩

/-- Every step of the two threads keeps it. -/
theorem sound_step (h : s.Sound) (hs : s.step a = some s') : s'.Sound := by
  cases a <;> simp only [step] at hs
  case start | wait =>
    split_ifs at hs with hplace
    obtain rfl := Option.some.inj hs
    exact ⟨rfl, h.next, h.relocked, h.listening, h.state, h.current, h.old, nofun⟩
  case signal cond =>
    split_ifs at hs with hzero
    obtain rfl := Option.some.inj hs
    exact ⟨listensTo_signalled h.thread cond, h.next, h.relocked, h.listening, h.state, h.current,
      h.old, fun hthread => h.starting (starting_signalled.1 hthread)⟩
  case relock =>
    split at hs
    · obtain rfl := Option.some.inj hs
      refine ⟨rfl, h.next, fun _ => rfl, fun _ => rfl, h.state, ?_, ?_, nofun⟩
      · exact h.next ▸ h.state
      · exact oldState_wakened s ▸ h.old
    · cases hs
  case setState newState =>
    split at hs
    · next hguard =>
      obtain rfl := Option.some.inj hs
      exact sound_setState h hguard.2.2
    · cases hs
  case wake =>
    obtain rfl := Option.some.inj hs
    refine ⟨h.thread, h.next, h.relocked, fun hnot => h.listening ?_, h.state, h.current, ?_,
      h.starting⟩
    · exact fun hlistening => hnot ((listening_wakened s).2 hlistening)
    · exact oldState_wakened s ▸ h.old
  case check =>
    split at hs
    · next old hplace =>
      have hold := h.old
      simp only [oldState, hplace] at hold
      split_ifs at hs with hlocked hrelocked
      · obtain rfl := Option.some.inj hs
        exact ⟨h.thread, h.next, h.relocked, fun _ => h.relocked hrelocked, h.state, h.current,
          hold, h.starting⟩
      · obtain rfl := Option.some.inj hs
        exact ⟨h.thread, h.next, h.relocked, fun hnot => absurd trivial hnot, h.state, h.current,
          hold, h.starting⟩
    · cases hs
  case unmap =>
    split at hs
    · next old hplace =>
      obtain rfl := Option.some.inj hs
      exact sound_unmap h hplace
    · cases hs

theorem sound_start : ({} : CondVarProxy).Sound where
  thread := rfl
  next := rfl
  relocked := nofun
  listening _ := rfl
  state := .inl rfl
  current := .inl rfl
  old := nofun
  starting _ := rfl

/-- **The thread never waits in a state that is unmapped.**  In every run, the condition variable
that the proxy thread waits for, or is in the call of, is mapped; and when the renderer is not
switching, it is that of the shared state that the renderer has. -/
theorem listens_mapped {steps : List ProxyStep} (h : tryExec step {} steps = some s) :
    s.Alive s.listensTo ∧ (¬ s.Listening → s.listensTo = s.state) := by
  have hsound : s.Sound :=
    tryExec_invariant (P := fun _ _ => True) (fun _ _ _ hI _ hs => sound_step hI hs) sound_start
      (tryAlways_true _ _) h
  refine ⟨hsound.thread ▸ hsound.current, fun hnot => ?_⟩
  have hnext := hsound.next
  rw [hsound.listening hnot] at hnext
  exact hsound.thread.trans hnext

/-- A first connection, another one, and signals of both. -/
def reconnects : List ProxyStep :=
  [.start, .wait, .setState 1, .relock, .wait, .check, .unmap, .signal 1, .setState 2, .wake,
    .check, .relock, .wait, .check, .signal 1, .unmap, .signal 2]

theorem listens_mapped_reconnects : ∃ s, tryExec step {} reconnects = some s ∧
    s.Alive s.listensTo ∧ (¬ s.Listening → s.listensTo = s.state) := by
  obtain ⟨s, hs⟩ := Option.isSome_iff_exists.1
    (show (tryExec step {} reconnects).isSome = true by decide +kernel)
  exact ⟨s, hs, listens_mapped hs⟩

/-! ### Whether the renderer returns -/

/-- A step of the two threads of their own. -/
def Own (a : ProxyStep) : Prop := a = .start ∨ a = .wait ∨ a = .relock ∨ a = .check

/-- The renderer can return from `pthreadCondVarProxyListenOtherCondVar` by steps of the two
threads. -/
def CanReturn (s : CondVarProxy) : Prop :=
  ∃ own s', (∀ a ∈ own, Own a) ∧ tryExec step s own = some s' ∧
    ∃ oldState, s'.renderer = .returned oldState

/-- While the renderer waits to be told, the thread is about to do it. -/
structure Answered (s : CondVarProxy) : Prop where
  waiting : ∀ oldState, s.renderer = .waiting oldState → s.relocked = false
  woken : s.Listening → s.relocked = false → ∃ cond, s.thread = .woken cond

/-- The renderer waits to be told by a thread that nobody wakes. -/
structure Missed (s : CondVarProxy) : Prop where
  listening : s.Listening
  relocked : s.relocked = false
  current : s.current = 0
  thread : s.thread = .starting ∨ s.thread = .locked ∨ s.thread = .waiting 0

/-- The renderer switches before the thread has come to wait for the first time. -/
def TooEarly (s : CondVarProxy) : ProxyStep → Prop
  | .setState _ => s.thread = .starting
  | _ => False

instance (s : CondVarProxy) : (a : ProxyStep) → Decidable (s.TooEarly a)
  | .setState _ => inferInstanceAs (Decidable (_ = _))
  | .start | .wait | .signal _ | .relock | .wake | .check | .unmap => .isFalse id

theorem woken_signalled (h : ∃ cond, s.thread = .woken cond) (cond : ℕ) :
    ∃ c, s.signalled cond = .woken c := by
  obtain ⟨c, hc⟩ := h
  exact ⟨c, by simp [signalled, hc]⟩

theorem answered_step (h : s.Sound) (hanswered : s.Answered) (hstarted : ¬ s.TooEarly a)
    (hs : s.step a = some s') : s'.Answered := by
  cases a <;> simp only [step] at hs
  case start | wait =>
    split_ifs at hs with hplace
    obtain rfl := Option.some.inj hs
    refine ⟨hanswered.waiting, fun hlistening hrelocked => ?_⟩
    obtain ⟨cond, hwoken⟩ := hanswered.woken hlistening hrelocked
    rw [hplace] at hwoken
    cases hwoken
  case signal cond =>
    split_ifs at hs with hzero
    obtain rfl := Option.some.inj hs
    exact ⟨hanswered.waiting, fun hlistening hrelocked =>
      woken_signalled (hanswered.woken hlistening hrelocked) cond⟩
  case relock =>
    split at hs
    · obtain rfl := Option.some.inj hs
      refine ⟨fun old hwaiting => ?_, fun _ hrelocked => nomatch hrelocked⟩
      have hwaiting' : s.wakened = .waiting old := hwaiting
      unfold wakened at hwaiting'
      split at hwaiting'
      · cases hwaiting'
      · next hnot => exact absurd hwaiting' (hnot old)
    · cases hs
  case setState newState =>
    split at hs
    · next hguard =>
      obtain rfl := Option.some.inj hs
      refine ⟨fun _ _ => rfl, fun _ _ => ?_⟩
      have hthread := h.thread
      unfold listensTo at hthread
      show ∃ cond, s.signalled s.current = .woken cond
      unfold signalled
      cases hplace : s.thread with
      | starting => exact absurd hplace hstarted
      | locked => exact absurd hplace hguard.2.1
      | waiting cond =>
        rw [hplace] at hthread
        exact ⟨s.current, if_pos (congrArg _ hthread)⟩
      | woken cond => exact ⟨cond, if_neg nofun⟩
    · cases hs
  case wake =>
    obtain rfl := Option.some.inj hs
    refine ⟨fun old hwaiting => ?_, fun hlistening => ?_⟩
    · have hwaiting' : s.wakened = .waiting old := hwaiting
      unfold wakened at hwaiting'
      split at hwaiting'
      · cases hwaiting'
      · exact hanswered.waiting old hwaiting'
    · exact hanswered.woken ((listening_wakened s).1 hlistening)
  case check =>
    split at hs
    · next old hplace =>
      split_ifs at hs with hlocked hrelocked
      · obtain rfl := Option.some.inj hs
        exact ⟨nofun, fun hlistening => hlistening.elim⟩
      · obtain rfl := Option.some.inj hs
        refine ⟨fun _ _ => by simpa using hrelocked, fun _ => hanswered.woken ?_⟩
        simp [Listening, hplace]
    · cases hs
  case unmap =>
    split at hs
    · obtain rfl := Option.some.inj hs
      exact ⟨nofun, fun hlistening => hlistening.elim⟩
    · cases hs

theorem CanReturn.cons (ha : Own a) (hs : s.step a = some s') (h : s'.CanReturn) :
    s.CanReturn := by
  obtain ⟨own, t, hown, hrun, hreturned⟩ := h
  refine ⟨a :: own, t, List.forall_mem_cons.2 ⟨ha, hown⟩, ?_, hreturned⟩
  rw [tryExec, hs]
  exact hrun

/-- The renderer looks, and has been told. -/
theorem canReturn_of_relocked {old : ℕ} (hplace : s.renderer = .woken old)
    (hrelocked : s.relocked = true) : s.CanReturn := by
  have hcheck : ∀ t : CondVarProxy, t.renderer = .woken old → t.relocked = true →
      t.thread ≠ .locked → t.CanReturn := by
    intro t hplace hrelocked hfree
    have hs : t.step .check = some { t with renderer := .returned old } := by
      simp [step, hplace, hrelocked, hfree]
    exact .cons (.inr (.inr (.inr rfl))) hs ⟨[], _, List.forall_mem_nil _, rfl, old, rfl⟩
  by_cases hlocked : s.thread = .locked
  · have hs : s.step .wait = some { s with thread := .waiting s.current } := if_pos hlocked
    exact .cons (.inr (.inl rfl)) hs (hcheck _ hplace hrelocked nofun)
  · exact hcheck s hplace hrelocked hlocked

/-- The thread tells the renderer, if it has not yet; then the renderer looks. -/
theorem Answered.canReturn (h : s.Answered) (hlistening : s.Listening) : s.CanReturn := by
  by_cases hrelocked : s.relocked = true
  · cases hplace : s.renderer with
    | waiting old => exact absurd (h.waiting old hplace) (by simp [hrelocked])
    | woken old => exact canReturn_of_relocked hplace hrelocked
    | idle | returned old => simp [Listening, hplace] at hlistening
  · rw [Bool.not_eq_true] at hrelocked
    obtain ⟨cond, hwoken⟩ := h.woken hlistening hrelocked
    have hs : s.step .relock = some { s with
        thread := .locked
        current := s.pending.getD s.current
        pending := none
        relocked := true
        renderer := s.wakened } := by
      simp only [step, hwoken]
    have hwakened : ∃ old, s.wakened = .woken old := by
      cases hplace : s.renderer with
      | waiting old => exact ⟨old, by simp [wakened, hplace]⟩
      | woken old => exact ⟨old, by simp [wakened, hplace]⟩
      | idle | returned old => simp [Listening, hplace] at hlistening
    obtain ⟨old, hold⟩ := hwakened
    exact .cons (.inr (.inr (.inl rfl))) hs (canReturn_of_relocked hold rfl)

theorem missed_of_tooEarly (h : s.Sound) (hearly : s.TooEarly a) (hs : s.step a = some s') :
    s'.Missed := by
  cases a with
  | setState newState =>
    have hthread : s.thread = .starting := hearly
    simp only [step] at hs
    split at hs
    · obtain rfl := Option.some.inj hs
      exact ⟨trivial, rfl, h.starting hthread, .inl (starting_signalled.2 hthread)⟩
    · cases hs
  | _ => cases hearly

/-- Only a signal of `proxy.def` would wake the thread, and there is none. -/
theorem missed_step (h : s.Missed) (hs : s.step a = some s') : s'.Missed := by
  cases a <;> simp only [step] at hs
  case start =>
    split_ifs at hs with hplace
    obtain rfl := Option.some.inj hs
    exact ⟨h.listening, h.relocked, h.current, .inr (.inl rfl)⟩
  case wait =>
    split_ifs at hs with hplace
    obtain rfl := Option.some.inj hs
    exact ⟨h.listening, h.relocked, h.current, .inr (.inr (congrArg _ h.current))⟩
  case signal cond =>
    split_ifs at hs with hzero
    obtain rfl := Option.some.inj hs
    have hsame : s.signalled cond = s.thread := by
      unfold signalled
      refine if_neg fun hwaiting => ?_
      obtain hplace | hplace | hplace := h.thread
      · exact absurd (hplace.symm.trans hwaiting) nofun
      · exact absurd (hplace.symm.trans hwaiting) nofun
      · exact hzero (ThreadPlace.waiting.inj (hwaiting.symm.trans hplace))
    exact ⟨h.listening, h.relocked, h.current, hsame.symm ▸ h.thread⟩
  case relock =>
    obtain hplace | hplace | hplace := h.thread
    all_goals
      rw [hplace] at hs
      cases hs
  case setState newState =>
    split at hs
    · next hguard =>
      have hlistening := h.listening
      rw [Listening, hguard.1] at hlistening
      exact hlistening.elim
    · cases hs
  case wake =>
    obtain rfl := Option.some.inj hs
    exact ⟨(listening_wakened s).2 h.listening, h.relocked, h.current, h.thread⟩
  case check =>
    split at hs
    · split_ifs at hs with hlocked hrelocked
      · exact absurd (h.relocked.symm.trans hrelocked) Bool.false_ne_true
      · obtain rfl := Option.some.inj hs
        exact ⟨trivial, h.relocked, h.current, h.thread⟩
    · cases hs
  case unmap =>
    split at hs
    · next hplace =>
      have hlistening := h.listening
      rw [Listening, hplace] at hlistening
      exact hlistening.elim
    · cases hs

theorem Missed.not_canReturn (h : s.Missed) : ¬ s.CanReturn := by
  rintro ⟨own, s', -, hrun, old, hreturned⟩
  have hmissed : s'.Missed :=
    tryExec_invariant (P := fun _ _ => True) (fun _ _ _ hI _ hs => missed_step hI hs) h
      (tryAlways_true _ _) hrun
  have hlistening := hmissed.listening
  rw [Listening, hreturned] at hlistening
  exact hlistening

theorem answered_start : ({} : CondVarProxy).Answered := ⟨nofun, fun h => h.elim⟩

/-- **Whether the renderer returns.**  In every run, the renderer can return from
`pthreadCondVarProxyListenOtherCondVar` by steps of the two threads in every state in which it is
there, exactly if it never switches before the thread has come to wait for the first time. -/
theorem canReturn_iff {steps : List ProxyStep} (h : tryExec step {} steps = some s) :
    (∀ as₁ as₂ t, steps = as₁ ++ as₂ → tryExec step {} as₁ = some t → t.Listening → t.CanReturn) ↔
      TryAlways step (fun s a => ¬ s.TooEarly a) {} steps :=
  reached_iff_of_kept (I := fun s => s.Sound ∧ s.Answered) (R := fun s => s.Listening → s.CanReturn)
    (fun _ hI => hI.2.canReturn)
    (fun _ _ _ hI hfine hs => ⟨sound_step hI.1 hs, answered_step hI.1 hI.2 hfine hs⟩)
    (fun _ _ _ hI hnot hs hreturns =>
      have hmissed := missed_of_tooEarly hI.1 (not_not.1 hnot) hs
      hmissed.not_canReturn (hreturns hmissed.listening))
    ⟨sound_start, answered_start⟩ h

/-- The shared state comes before the thread has begun to wait. -/
def connectsEarly : List ProxyStep := [.setState 1, .start, .wait, .signal 1, .wake, .check]

theorem canReturn_iff_connectsEarly :
    (∀ as₁ as₂ t, connectsEarly = as₁ ++ as₂ → tryExec step {} as₁ = some t → t.Listening →
      t.CanReturn) ↔ TryAlways step (fun s a => ¬ s.TooEarly a) {} connectsEarly :=
  canReturn_iff (Option.some_get (by decide +kernel)).symm

end CondVarProxy

end TermuxX11.Shared
