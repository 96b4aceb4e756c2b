import TermuxX11.Lib.Run

/-!
# The server's side of the activity connection

`conn_fd`, the clipboard-sync flag and `registeredBuffers` are global variables of the X
server, while hang-ups are delivered per descriptor.  `addFd` installs a new connection
over whatever is there; `handleLorieEvents` with `X_NOTIFY_ERROR` tears the globals down
without looking at which descriptor hung up; `lorieRegisterBuffer` announces a buffer
only if it is not on the list, whichever connection it was put there for.

`replacement_safe_iff` says which orders of these steps leave the newer connection
intact: those in which a hang-up is that of the current connection, and a connection is
installed only after the older one is gone (or its root buffer has been withdrawn).
-/

namespace TermuxX11.Server

/-- A message the server writes on a connection. -/
inductive Sent
  | sharedServerState
  | addBuffer (id : ℕ)
  | removeBuffer (id : ℕ)
  deriving DecidableEq

/-- The globals of `cmdentrypoint.c` and `clipboard.c` a connection depends on.  A buffer
is given by its id; `rootBuffer` is `LORIE_BUFFER_FROM_PIXMAP(pScreenPtr->devPrivate)`,
`inputDevs` the descriptors registered with the input thread, and `written` the messages
written so far with the descriptor they went to. -/
structure Connection where
  connFd : ℤ
  clipboardEnabled : Bool
  registeredBuffers : List ℕ
  rootBuffer : Option ℕ
  inputDevs : List ℕ
  written : List (ℤ × Sent)

/-- The server at startup, with its root buffer. -/
def Connection.start (rootBuffer : Option ℕ) : Connection where
  connFd := -1
  clipboardEnabled := false
  registeredBuffers := []
  rootBuffer := rootBuffer
  inputDevs := []
  written := []

/-- `write(conn_fd, ..)`. -/
def Connection.write (s : Connection) (m : Sent) : Connection :=
  { s with written := s.written ++ [(s.connFd, m)] }

/-- `lorieSendSharedServerState`. -/
def lorieSendSharedServerState (s : Connection) : Connection :=
  if s.connFd ≠ -1 then s.write .sharedServerState else s

/-- `lorieRegisterBuffer`.  The id of a missing buffer is 0. -/
def lorieRegisterBuffer (buffer : Option ℕ) (s : Connection) : Connection :=
  if s.connFd = -1 ∨ buffer.getD 0 ∈ s.registeredBuffers then s
  else
    match buffer with
    | none => s
    | some id =>
      { s.write (.addBuffer id) with registeredBuffers := id :: s.registeredBuffers }

/-- `lorieUnregisterBuffer`. -/
def lorieUnregisterBuffer (buffer : Option ℕ) (s : Connection) : Connection :=
  match buffer with
  | none => s
  | some id =>
    if id ∈ s.registeredBuffers ∧ s.connFd ≠ -1 then
      { s.write (.removeBuffer id) with
        registeredBuffers := s.registeredBuffers.filter (· ≠ id) }
    else s

/-- `lorieActivityConnected`. -/
def lorieActivityConnected (s : Connection) : Connection :=
  lorieRegisterBuffer s.rootBuffer (lorieSendSharedServerState s)

/-- `addFd`. -/
def addFd (fd : ℕ) (s : Connection) : Connection :=
  lorieActivityConnected { s with inputDevs := fd :: s.inputDevs, connFd := fd }

/-- `handleLorieEvents` with `X_NOTIFY_ERROR`. -/
def handleError (fd : ℕ) (s : Connection) : Connection :=
  { s with
    inputDevs := s.inputDevs.filter (· ≠ fd)
    connFd := -1
    clipboardEnabled := false
    registeredBuffers := [] }

/-- A step of the server that touches the connection.  A new root pixmap is registered
where it is installed (`lorieRRScreenSetSize`), after the old one has been destroyed. -/
inductive Step
  | addFd (fd : ℕ)
  | error (fd : ℕ)
  | clipboardEnable (enable : Bool)
  | registerBuffer (id : ℕ)
  | unregisterBuffer (id : ℕ)
  | setRoot (id : ℕ)

/-- One step. -/
def step (s : Connection) : Step → Connection
  | .addFd fd => addFd fd s
  | .error fd => handleError fd s
  | .clipboardEnable enable => { s with clipboardEnabled := enable }
  | .registerBuffer id => lorieRegisterBuffer (some id) s
  | .unregisterBuffer id => lorieUnregisterBuffer (some id) s
  | .setRoot id =>
    let s' := lorieUnregisterBuffer s.rootBuffer { s with rootBuffer := some id }
    lorieRegisterBuffer (some id) s'

/-! ### What replacing a connection should do -/

/-- The hang-up of a descriptor that is not the current one leaves the current connection
as it is, and a connection that becomes current is told about the root buffer. -/
def Safe (s : Connection) : Step → Prop
  | .error fd =>
    s.connFd ≠ -1 → (fd : ℤ) ≠ s.connFd →
      (handleError fd s).connFd = s.connFd ∧
        (handleError fd s).clipboardEnabled = s.clipboardEnabled ∧
        (handleError fd s).registeredBuffers = s.registeredBuffers
  | .addFd fd =>
    ∀ id, s.rootBuffer = some id →
      ∃ new, (addFd fd s).written = s.written ++ new ∧ ((fd : ℤ), .addBuffer id) ∈ new
  | _ => True

/-- The order that makes it so: a hang-up is that of the current connection, and a
connection is installed when none is current or the root buffer is not registered. -/
def InOrder (s : Connection) : Step → Prop
  | .error fd => s.connFd = -1 ∨ (fd : ℤ) = s.connFd
  | .addFd _ => s.connFd = -1 ∨ ∀ id, s.rootBuffer = some id → id ∉ s.registeredBuffers
  | _ => True

/-! ### The registration list belongs to a connection -/

/-- No buffer is registered while there is no connection. -/
def Disconnected (s : Connection) : Prop := s.connFd = -1 → s.registeredBuffers = []

theorem disconnected_registerBuffer (buffer : Option ℕ) {s : Connection} (h : Disconnected s) :
    Disconnected (lorieRegisterBuffer buffer s) := by
  unfold lorieRegisterBuffer
  split_ifs with hc
  · exact h
  · cases buffer with
    | none => exact h
    | some id => exact fun hfd => absurd (Or.inl hfd) hc

theorem disconnected_unregisterBuffer (buffer : Option ℕ) {s : Connection}
    (h : Disconnected s) : Disconnected (lorieUnregisterBuffer buffer s) := by
  cases buffer with
  | none => exact h
  | some id =>
    unfold lorieUnregisterBuffer
    dsimp only
    split_ifs with hc
    · exact fun hfd => absurd hfd hc.2
    · exact h

theorem disconnected_sendSharedServerState {s : Connection} (h : Disconnected s) :
    Disconnected (lorieSendSharedServerState s) := by
  unfold lorieSendSharedServerState
  split_ifs
  · exact h
  · exact h

theorem disconnected_step (s : Connection) (a : Step) (h : Disconnected s) :
    Disconnected (step s a) := by
  cases a with
  | addFd fd =>
    refine disconnected_registerBuffer _ (disconnected_sendSharedServerState fun hfd => ?_)
    have hfd' : (fd : ℤ) = -1 := hfd
    omega
  | error fd => exact fun _ => rfl
  | clipboardEnable enable => exact h
  | registerBuffer id => exact disconnected_registerBuffer _ h
  | unregisterBuffer id => exact disconnected_unregisterBuffer _ h
  | setRoot id =>
    exact disconnected_registerBuffer _ (disconnected_unregisterBuffer _ h)

/-! ### One step -/

/-- The messages of `addFd`: the shared state and, unless it is on the list, the root buffer. -/
theorem written_addFd (fd : ℕ) (s : Connection) :
    (addFd fd s).written = s.written ++ ((fd : ℤ), .sharedServerState) ::
      match s.rootBuffer with
      | none => []
      | some id => if id ∈ s.registeredBuffers then [] else [((fd : ℤ), .addBuffer id)] := by
  have hfd : (fd : ℤ) ≠ -1 := by omega
  unfold addFd lorieActivityConnected lorieSendSharedServerState lorieRegisterBuffer
  simp only [ne_eq, hfd, not_false_eq_true, if_true, Connection.write, false_or]
  cases hroot : s.rootBuffer with
  | none => simp only [Option.getD_none]; split_ifs <;> rfl
  | some id =>
    simp only [Option.getD_some]
    split_ifs
    · rfl
    · simp

theorem safe_addFd_iff (fd : ℕ) (s : Connection) (h : Disconnected s) :
    Safe s (.addFd fd) ↔ InOrder s (.addFd fd) := by
  simp only [Safe, InOrder]
  constructor
  · intro hsafe
    right
    intro id hroot hmem
    obtain ⟨new, hnew, hin⟩ := hsafe id hroot
    rw [written_addFd, hroot] at hnew
    have hnew' := List.append_cancel_left hnew
    simp only [hmem, if_true] at hnew'
    rw [← hnew'] at hin
    simp at hin
  · intro hord id hroot
    have hid : id ∉ s.registeredBuffers := by
      rcases hord with hfd | hreg
      · rw [h hfd]
        exact List.not_mem_nil
      · exact hreg id hroot
    refine ⟨_, written_addFd fd s, ?_⟩
    simp [hroot, hid]

theorem safe_error_iff (fd : ℕ) (s : Connection) :
    Safe s (.error fd) ↔ InOrder s (.error fd) := by
  simp only [Safe, InOrder]
  constructor
  · intro hsafe
    by_contra hord
    obtain ⟨hlive, hother⟩ := not_or.1 hord
    exact hlive (hsafe hlive hother).1.symm
  · rintro (hfd | hfd) hlive hother
    · exact absurd hfd hlive
    · exact absurd hfd hother

theorem safe_iff_inOrder (s : Connection) (a : Step) (h : Disconnected s) :
    Safe s a ↔ InOrder s a := by
  cases a with
  | addFd fd => exact safe_addFd_iff fd s h
  | error fd => exact safe_error_iff fd s
  | clipboardEnable enable => exact Iff.rfl
  | registerBuffer id => exact Iff.rfl
  | unregisterBuffer id => exact Iff.rfl
  | setRoot id => exact Iff.rfl

/-! ### Runs -/

/-- **Connection replacement.** From startup, every step of a run is safe if and only if
every step of it is taken in order. -/
theorem replacement_safe_iff (rootBuffer : Option ℕ) (steps : List Step) :
    Run.Always step Safe (.start rootBuffer) steps ↔
      Run.Always step InOrder (.start rootBuffer) steps :=
  Run.always_iff_of_invariant (fun s a h _ => disconnected_step s a h) safe_iff_inOrder
    (fun _ => rfl) steps

/-- Connection 5 is replaced by connection 6 before its own hang-up is handled. -/
def lateHangUp : List Step := [.addFd 5, .addFd 6, .error 5]

/-- The new connection is not told about the root buffer, and the late hang-up cuts it off. -/
theorem replacement_lateHangUp_fails :
    ¬ Run.Always step Safe (.start (some 1)) lateHangUp ∧
      ¬ Safe (step (.start (some 1)) (.addFd 5)) (.addFd 6) ∧
      ¬ Safe (Run.exec step (.start (some 1)) [.addFd 5, .addFd 6]) (.error 5) := by
  have h6 : ¬ Safe (step (.start (some 1)) (.addFd 5)) (.addFd 6) := by
    intro h
    obtain ⟨new, hnew, hin⟩ := h 1 rfl
    have hnew' : [((6 : ℤ), Sent.sharedServerState)] = new := List.append_cancel_left hnew
    rw [← hnew'] at hin
    simp at hin
  refine ⟨fun h => h6 h.2.1, h6, fun h => ?_⟩
  exact absurd (h (by decide) (by decide)).1 (by decide)

end TermuxX11.Server
