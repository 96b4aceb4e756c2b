import TermuxX11.Lib.Run

/-!
# The connection of the activity to a server

An X server is a process that may end and be started again; it sends its binder to the activity in a
broadcast, when it has no connection or when the activity asks for one.  The activity asks the
server for a connection over the binder, tries again where it fails, and hears of a server that has
ended from the socket and from the binder, in any order.

The model has what the threads of the activity do to `conn_fd`, `service` and the queue of the main
thread.  A server is a number; it ends between two steps, and the socket then hangs up.  Every call
of `linkToDeath` for a server that runs is taken to succeed, and to have the end of the server told.
The activity is created once.
-/

namespace TermuxX11.Activity

open Run

/-- `conn_fd` and `service`, each with the server it belongs to; how many calls of `tryConnect` and
how many of what `linkToDeath` posts are in the queue of the main thread; the servers whose death is
yet to be told, once for each call of `linkToDeath`; how often `requestConnection` was called; and
the servers that run and that have ever run. -/
structure Reconnect where
  connFd : Option ℕ := none
  service : Option ℕ := none
  tries : ℕ := 0
  disconnects : ℕ := 0
  linked : List ℕ := []
  requests : ℕ := 0
  alive : Finset ℕ := ∅
  started : Finset ℕ := ∅

inductive ReconnectStep
  | start (server : ℕ)
  | stop (server : ℕ)
  | receive (server : ℕ)
  | runTryConnect
  | binderDied (server : ℕ)
  | runDisconnected
  | hangUp
  deriving DecidableEq

namespace Reconnect

variable (s : Reconnect)

/-- `tryConnect`.  A connection that is made is not lost in `clientConnectedStateChanged`. -/
def tryConnect : Reconnect :=
  if s.connFd.isSome then s
  else
    match s.service with
    | none => { s with requests := s.requests + 1, tries := s.tries + 1 }
    | some server =>
      if server ∈ s.alive then { s with connFd := some server }
      else { s with service := none, tries := s.tries + 1 }

/-- `clientConnectedStateChanged`, on the main thread. -/
def clientConnectedStateChanged : Reconnect := if s.connFd.isSome then s else s.tryConnect

/-- `connect_`. -/
def connect (fd : Option ℕ) : Reconnect := { s with connFd := fd }

/-- `onReceiveConnection`. -/
def onReceiveConnection (server : ℕ) : Reconnect :=
  if server ∈ s.alive then
    { s with service := some server, linked := server :: s.linked }.tryConnect
  else { s with service := some server }

/-- The part of `xcallback` for a socket that has hung up. -/
def xcallback : Reconnect := s.clientConnectedStateChanged.connect none

/-- One step; `none` if it is not this step's turn. -/
def step : ReconnectStep → Option Reconnect
  | .start server =>
    if server ∈ s.started then none
    else some { s with alive := insert server s.alive, started := insert server s.started }
  | .stop server =>
    if server ∈ s.alive then some { s with alive := s.alive.erase server } else none
  | .receive server => if server ∈ s.started then some (s.onReceiveConnection server) else none
  | .runTryConnect =>
    if s.tries = 0 then none else some ({ s with tries := s.tries - 1 }.tryConnect)
  | .binderDied server =>
    if server ∈ s.linked ∧ server ∉ s.alive then
      some { s with
        linked := s.linked.erase server
        service := none
        disconnects := s.disconnects + 1 }
    else none
  | .runDisconnected =>
    if s.disconnects = 0 then none
    else some
      (({ s with disconnects := s.disconnects - 1 }.connect none).clientConnectedStateChanged)
  | .hangUp =>
    match s.connFd with
    | some server => if server ∈ s.alive then none else some s.xcallback
    | none => none

/-- The activity as `onCreate` leaves it. -/
def onCreate : Reconnect := ({} : Reconnect).tryConnect

/-! ### A try is on its way -/

/-- The activity has a connection to a server that runs. -/
def Connected : Prop := ∃ server ∈ s.connFd, server ∈ s.alive

/-- A server has ended, and `linkToDeath` is still to tell it. -/
def Told : Prop := ∃ server ∈ s.linked, server ∉ s.alive

/-- `tryConnect` is in the queue, or will be called for a server that has ended. -/
def Trying : Prop := 0 < s.tries ∨ 0 < s.disconnects ∨ s.Told

/-- The end of the server that the connection is to, or that `service` is, will be told, or has
been. -/
structure Bound (s : Reconnect) : Prop where
  connection : ∀ server ∈ s.connFd, server ∈ s.linked ∨ 0 < s.disconnects
  service : ∀ server ∈ s.service, server ∈ s.alive → server ∈ s.linked
  linked : ∀ server ∈ s.linked, server ∈ s.started
  serviceStarted : ∀ server ∈ s.service, server ∈ s.started

/-- Without a connection a try is on its way. -/
structure Sound (s : Reconnect) : Prop extends s.Bound where
  trying : s.connFd = none → s.Trying

variable {s} {s' : Reconnect} {a : ReconnectStep}

/-- Whatever it finds, `tryConnect` leaves a connection or another try. -/
theorem Bound.tryConnect (h : s.Bound) : s.tryConnect.Sound := by
  unfold Reconnect.tryConnect
  split_ifs with hconnected
  · exact ⟨h, fun hnone => by simp [hnone] at hconnected⟩
  · rw [Bool.not_eq_true, Option.isSome_eq_false_iff, Option.isNone_iff_eq_none] at hconnected
    cases hservice : s.service with
    | none =>
      exact ⟨⟨h.connection, nofun, h.linked, nofun⟩, fun _ => .inl (Nat.succ_pos _)⟩
    | some server =>
      dsimp only
      split_ifs with halive
      · refine ⟨⟨fun i hi => .inl ?_, hservice ▸ h.service, h.linked,
          hservice ▸ h.serviceStarted⟩, nofun⟩
        obtain rfl := Option.some.inj hi
        exact h.service server hservice halive
      · exact ⟨⟨h.connection, nofun, h.linked, nofun⟩, fun _ => .inl (Nat.succ_pos _)⟩

theorem sound_start (h : s.Sound) {server : ℕ} (hnew : server ∉ s.started) :
    Sound { s with alive := insert server s.alive, started := insert server s.started } := by
  have hother : ∀ {i}, i ∈ s.started → i ∈ insert server s.alive → i ∈ s.alive := by
    intro i hstarted hi
    refine (Finset.mem_insert.1 hi).resolve_left ?_
    rintro rfl
    exact hnew hstarted
  refine ⟨⟨h.connection, fun i hi halive => h.service i hi (hother (h.serviceStarted i hi) halive),
    fun i hi => Finset.mem_insert_of_mem (h.linked i hi),
    fun i hi => Finset.mem_insert_of_mem (h.serviceStarted i hi)⟩, fun hnone => ?_⟩
  refine (h.trying hnone).imp_right (Or.imp_right ?_)
  rintro ⟨i, hi, hdead⟩
  exact ⟨i, hi, fun halive => hdead (hother (h.linked i hi) halive)⟩

theorem sound_stop (h : s.Sound) (server : ℕ) :
    Sound { s with alive := s.alive.erase server } := by
  refine ⟨⟨h.connection, fun i hi halive => h.service i hi (Finset.mem_of_mem_erase halive),
    h.linked, h.serviceStarted⟩, fun hnone => ?_⟩
  refine (h.trying hnone).imp_right (Or.imp_right ?_)
  rintro ⟨i, hi, hdead⟩
  exact ⟨i, hi, fun halive => hdead (Finset.mem_of_mem_erase halive)⟩

theorem sound_receive (h : s.Sound) {server : ℕ} (hstarted : server ∈ s.started) :
    (s.onReceiveConnection server).Sound := by
  unfold onReceiveConnection
  split_ifs with halive
  · refine Bound.tryConnect ⟨fun i hi => (h.connection i hi).imp_left (List.mem_cons_of_mem _),
      fun i hi _ => ?_, fun i hi => ?_, fun i hi => ?_⟩
    · obtain rfl := Option.some.inj hi
      exact List.mem_cons_self
    · obtain rfl | hi := List.mem_cons.1 hi
      · exact hstarted
      · exact h.linked i hi
    · obtain rfl := Option.some.inj hi
      exact hstarted
  · refine ⟨⟨h.connection, fun i hi halive' => ?_, h.linked, fun i hi => ?_⟩, h.trying⟩
    · obtain rfl := Option.some.inj hi
      exact absurd halive' halive
    · obtain rfl := Option.some.inj hi
      exact hstarted

/-- Every step keeps it. -/
theorem sound_step (h : s.Sound) (hs : s.step a = some s') : s'.Sound := by
  cases a with
  | start server =>
    simp only [step] at hs
    split_ifs at hs with hold
    obtain rfl := Option.some.inj hs
    exact sound_start h hold
  | stop server =>
    simp only [step] at hs
    split_ifs at hs
    obtain rfl := Option.some.inj hs
    exact sound_stop h server
  | receive server =>
    simp only [step] at hs
    split_ifs at hs with hstarted
    obtain rfl := Option.some.inj hs
    exact sound_receive h hstarted
  | runTryConnect =>
    simp only [step] at hs
    split_ifs at hs
    obtain rfl := Option.some.inj hs
    exact Bound.tryConnect ⟨h.connection, h.service, h.linked, h.serviceStarted⟩
  | binderDied server =>
    simp only [step] at hs
    split_ifs at hs
    obtain rfl := Option.some.inj hs
    exact ⟨⟨fun _ _ => .inr (Nat.succ_pos _), nofun,
      fun i hi => h.linked i (List.mem_of_mem_erase hi), nofun⟩,
      fun _ => .inr (.inl (Nat.succ_pos _))⟩
  | runDisconnected =>
    simp only [step] at hs
    split_ifs at hs
    obtain rfl := Option.some.inj hs
    exact Bound.tryConnect ⟨nofun, h.service, h.linked, h.serviceStarted⟩
  | hangUp =>
    simp only [step] at hs
    split at hs
    · next server hfd =>
      split_ifs at hs with halive
      obtain rfl := Option.some.inj hs
      have hsame : s.xcallback = s.connect none := by
        simp [xcallback, clientConnectedStateChanged, hfd]
      rw [hsame]
      refine ⟨⟨nofun, h.service, h.linked, h.serviceStarted⟩, fun _ => .inr ?_⟩
      obtain hlinked | hdisconnects := h.connection server hfd
      · exact .inr ⟨server, hlinked, halive⟩
      · exact .inl hdisconnects
    · cases hs

theorem sound_onCreate : onCreate.Sound :=
  Bound.tryConnect ⟨nofun, nofun, nofun, nofun⟩

theorem sound_of_run {steps : List ReconnectStep} (h : tryExec step onCreate steps = some s) :
    s.Sound :=
  tryExec_invariant (P := fun _ _ => True) (fun _ _ _ hI _ hs => sound_step hI hs) sound_onCreate
    (tryAlways_true _ _) h

/-- **The activity never stops trying.**  In every state of every run, however servers come and go
and in whatever order the activity hears of it, it is connected to a server that runs, or a call of
`tryConnect` is on its way: in the queue of the main thread, or by what the death of a server posts
there. -/
theorem connected_or_trying {steps : List ReconnectStep}
    (h : tryExec step onCreate steps = some s) : s.Connected ∨ s.Trying := by
  have hsound := sound_of_run h
  cases hfd : s.connFd with
  | none => exact .inr (hsound.trying hfd)
  | some server =>
    by_cases halive : server ∈ s.alive
    · exact .inl ⟨server, hfd, halive⟩
    · obtain hlinked | hdisconnects := hsound.connection server hfd
      · exact .inr (.inr (.inr ⟨server, hlinked, halive⟩))
      · exact .inr (.inr (.inl hdisconnects))

/-- A server ends while the activity is connected to it, and another one is started; the old one's
death is told only when the activity is connected to the new one. -/
def restarts : List ReconnectStep :=
  [.start 1, .receive 1, .stop 1, .hangUp, .start 2, .receive 2, .binderDied 1, .runDisconnected]

theorem connected_or_trying_restarts : ∃ s, tryExec step onCreate restarts = some s ∧
    (s.Connected ∨ s.Trying) := by
  obtain ⟨s, hs⟩ := Option.isSome_iff_exists.1
    (show (tryExec step onCreate restarts).isSome = true by decide +kernel)
  exact ⟨s, hs, connected_or_trying hs⟩

/-! ### A server that runs -/

theorem connected_onReceiveConnection {server : ℕ} (halive : server ∈ s.alive)
    (hfd : s.connFd = none) : (s.onReceiveConnection server).Connected := by
  refine ⟨server, ?_, ?_⟩
  · simp [onReceiveConnection, tryConnect, halive, hfd]
  · simp [onReceiveConnection, tryConnect, halive, hfd]

/-- **The activity comes back.**  In every run, once every death has been told and dealt with: at
most two calls of `tryConnect` lead to a connection to a server that runs, or to a request, which
any server that runs answers with a broadcast that leads to a connection to it. -/
theorem comes_back {steps : List ReconnectStep} (h : tryExec step onCreate steps = some s)
    (htold : ¬ s.Told) (hdisconnects : s.disconnects = 0) :
    ∃ n ≤ 2, ∃ t, tryExec step s (List.replicate n .runTryConnect) = some t ∧
      (t.Connected ∨ s.requests < t.requests ∧
        ∀ server ∈ s.alive, (t.onReceiveConnection server).Connected) := by
  have hsound := sound_of_run h
  cases hfd : s.connFd with
  | some server =>
    refine ⟨0, by omega, s, rfl, .inl ⟨server, hfd, ?_⟩⟩
    by_contra hdead
    obtain hlinked | hpositive := hsound.connection server hfd
    · exact htold ⟨server, hlinked, hdead⟩
    · omega
  | none =>
    have htries : s.tries ≠ 0 := by
      obtain htries | hpositive | hto := hsound.trying hfd
      · omega
      · omega
      · exact absurd hto htold
    -- a call of `tryConnect` that finds no server asks for one
    have hasks : ∀ t : Reconnect, t.connFd = none → t.service = none → t.tries ≠ 0 →
        s.requests ≤ t.requests → s.alive = t.alive → ∃ t', t.step .runTryConnect = some t' ∧
          s.requests < t'.requests ∧
          ∀ server ∈ s.alive, (t'.onReceiveConnection server).Connected := by
      intro t hfd hservice htries hrequests halive
      refine ⟨_, if_neg htries, ?_, fun server hserver => ?_⟩
      · simp only [tryConnect, hfd, hservice, Option.isSome_none, Bool.false_eq_true, if_false]
        omega
      · refine connected_onReceiveConnection ?_ ?_
        · simp only [tryConnect, hfd, hservice, Option.isSome_none, Bool.false_eq_true, if_false]
          exact halive ▸ hserver
        · simp [tryConnect, hfd, hservice]
    cases hservice : s.service with
    | none =>
      obtain ⟨t, hs, hasked⟩ := hasks s hfd hservice htries le_rfl rfl
      exact ⟨1, by omega, t, by simp [tryExec, hs], .inr hasked⟩
    | some server =>
      by_cases halive : server ∈ s.alive
      · refine ⟨1, by omega, { s with tries := s.tries - 1, connFd := some server }, ?_,
          .inl ⟨server, rfl, halive⟩⟩
        simp [tryExec, step, tryConnect, htries, hfd, hservice, halive]
      · have hs : s.step .runTryConnect =
            some { s with service := none, tries := s.tries - 1 + 1 } := by
          simp [step, tryConnect, htries, hfd, hservice, halive]
        obtain ⟨t, ht, hasked⟩ := hasks { s with service := none, tries := s.tries - 1 + 1 } hfd rfl
          (Nat.succ_ne_zero _) le_rfl rfl
        refine ⟨2, le_rfl, t, ?_, .inr hasked⟩
        simp [tryExec, hs, ht]

instance (s : Reconnect) : Decidable s.Told :=
  inferInstanceAs (Decidable (∃ server ∈ s.linked, server ∉ s.alive))

/-- The death of a server has been told, and another one runs. -/
def replaced : List ReconnectStep :=
  [.start 1, .receive 1, .stop 1, .hangUp, .binderDied 1, .runDisconnected, .start 2]

theorem comes_back_replaced : ∃ s, tryExec step onCreate replaced = some s ∧
    ∃ n ≤ 2, ∃ t, tryExec step s (List.replicate n .runTryConnect) = some t ∧
      (t.Connected ∨ s.requests < t.requests ∧
        ∀ server ∈ s.alive, (t.onReceiveConnection server).Connected) := by
  obtain ⟨s, hs⟩ := Option.isSome_iff_exists.1
    (show (tryExec step onCreate replaced).isSome = true by decide +kernel)
  have hstate : ((tryExec step onCreate replaced).map fun s => (decide s.Told, s.disconnects)) =
      some (false, 0) := by
    decide +kernel
  rw [hs, Option.map_some, Option.some.injEq, Prod.mk.injEq] at hstate
  exact ⟨s, hs, comes_back hs (of_decide_eq_false hstate.1) hstate.2⟩

end Reconnect

end TermuxX11.Activity
