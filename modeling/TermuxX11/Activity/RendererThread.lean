import TermuxX11.Activity.Buffers
import TermuxX11.Activity.Zoom

/-!
# The loop of the renderer thread

`rendererThread` goes round as long as `rendererShouldWait` finds something to do: it takes over
what the other threads have changed, draws a frame if one is asked for and can be drawn, and
releases the buffers that were removed.  `round` is one time round, and a loop that no other thread
or process disturbs is `round` iterated.

Changes are taken over whatever they are, and a frame that is drawn leaves nothing to draw.  A root
buffer that is missing makes the thread wait for buffers; one of an unexpected size does not, and
the frame that is asked for is tried again and again.
-/

namespace TermuxX11.Activity

/-- `defaultWin`, the window of the `ImageReader`, or a window that `rendererSetWindow` was
given. -/
inductive Window
  | defaultWin
  | surface (ref : ℕ) (width height : ℤ)
  deriving DecidableEq

namespace Window

/-- `ANativeWindow_getWidth` and `ANativeWindow_getHeight`. -/
def size : Window → ℤ × ℤ
  | defaultWin => (1, 1)
  | surface _ width height => (width, height)

/-- The window that takes the place of one without a size. -/
def valid (w : Window) : Window := if w.size.1 ≤ 0 ∨ w.size.2 ≤ 0 then defaultWin else w

end Window

/-- What EGL answers for a window. -/
structure Egl where
  createWindowSurface : Window → Bool
  makeCurrent : Window → Bool

/-- The size that `LorieBuffer_description` gives for an object. -/
structure Size where
  width : ℤ
  height : ℤ

/-- The size is the one that is expected. -/
def Size.Expected (expectedW expectedH : ℤ) (desc : Size) : Prop :=
  expectedW ≠ 0 ∧ expectedH ≠ 0 ∧ desc.height = expectedH ∧
    (desc.width = Viewport.alignedExpectedW expectedW ∨ desc.width = expectedW)

instance (expectedW expectedH : ℤ) (desc : Size) : Decidable (desc.Expected expectedW expectedH) :=
  inferInstanceAs (Decidable (_ ∧ _))

/-- It is the test that the viewport is computed after. -/
theorem accepts_iff_expected (expectedW expectedH : ℤ) (desc : Viewport.Desc) :
    Viewport.accepts expectedW expectedH desc ↔
      (⟨desc.width, desc.height⟩ : Size).Expected expectedW expectedH := Iff.rfl

/-- The cursor of `lorie_shared_server_state`. -/
structure ServerCursor where
  x : ℤ := 0
  y : ℤ := 0
  moved : Bool := false
  updated : Bool := false

/-- `lorie_shared_server_state`. -/
structure SharedServerState where
  rootWindowTextureID : ℕ := 0
  drawRequested : Bool := false
  surfaceAvailable : Bool := false
  waitForNextFrame : Bool := false
  renderedFrames : ℤ := 0
  cursor : ServerCursor := {}

/-- A frame is asked for. -/
def SharedServerState.wantsFrame (st : SharedServerState) : Bool :=
  st.drawRequested || st.cursor.moved || st.cursor.updated

/-- A frame is asked for, there is a surface for it and the last one has been shown. -/
def SharedServerState.canDraw (st : SharedServerState) : Bool :=
  st.surfaceAvailable && !st.waitForNextFrame && st.wantsFrame

/-- The variables of `renderer.c` that decide what the loop does, with those of its functions. -/
structure RendererThread where
  state : Option SharedServerState := none
  pendingState : Option SharedServerState := none
  stateChanged : Bool := false
  win : Window := .defaultWin
  pendingWin : Option Window := none
  windowChanged : Bool := false
  viewport : Viewport.Renderer := { x := ⟨0, 0, 0, 0⟩, y := ⟨0, 0, 0, 0⟩ }
  lists : Renderer := {}
  waitingForBuffers : Bool := false
  lastRequestedBufferId : ℕ := 0

namespace RendererThread

/-! ### The other threads -/

/-- `rendererSetSharedState`, up to where it waits. -/
def rendererSetSharedState (newState : Option SharedServerState) (s : RendererThread) :
    RendererThread :=
  { s with pendingState := newState, stateChanged := true }

/-- `rendererSetWindow`, up to where it waits. -/
def rendererSetWindow (newWin : Option Window) (s : RendererThread) : RendererThread :=
  if newWin.isSome ∧ s.pendingWin = newWin then s
  else
    { s with pendingWin := newWin, viewport := s.viewport.setWindow, windowChanged := true }

/-- `rendererSetViewport`. -/
def rendererSetViewport (x y w h ew eh : ℤ) (s : RendererThread) : RendererThread :=
  { s with
    viewport := s.viewport.setViewport x y w h ew eh
    state := s.state.map fun st => { st with drawRequested := true } }

/-- `rendererAddBuffer`. -/
def rendererAddBuffer (id : ℕ) (s : RendererThread) : RendererThread :=
  { s with lists := s.lists.addBuffer id }

/-! ### The loop -/

/-- There are changes to take over. -/
def hasChanges (s : RendererThread) : Bool :=
  s.stateChanged || s.windowChanged || !s.lists.addedBuffers.isEmpty ||
    !s.lists.removedBuffers.isEmpty

/-- `rendererShouldWait`, with what it leaves of `waitingForBuffers` and
`lastRequestedBufferId`. -/
def rendererShouldWait (s : RendererThread) : Bool × RendererThread :=
  if s.hasChanges then (false, s)
  else
    match s.state with
    | none => (true, s)
    | some st =>
      let waitingForBuffers :=
        if s.lastRequestedBufferId ≠ st.rootWindowTextureID then false else s.waitingForBuffers
      let s' := { s with
        waitingForBuffers := waitingForBuffers
        lastRequestedBufferId := st.rootWindowTextureID }
      if !st.surfaceAvailable || st.waitForNextFrame || waitingForBuffers then (true, s')
      else if st.wantsFrame then (false, s')
      else (true, s')

/-- The new shared state is taken over.  It may be the old one again, and then `pendingState` has
the contents of this moment. -/
def changeState (s : RendererThread) : RendererThread :=
  if s.stateChanged then
    { s with
      state := s.pendingState.map fun st =>
        { st with surfaceAvailable := s.win ≠ Window.defaultWin }
      pendingState := none
      stateChanged := false
      waitingForBuffers := false }
  else s

variable (egl : Egl) (description : ℕ → Size)

/-- `rendererRefreshContext`.  The surface that is given up leaves `win` to be set here. -/
def rendererRefreshContext (s : RendererThread) : RendererThread :=
  match s.pendingWin with
  | none =>
    { s with
      win := .defaultWin
      windowChanged := false
      state := s.state.map fun st => { st with surfaceAvailable := false } }
  | some pendingWin =>
    let win := pendingWin.valid
    let s' := { s with win := win, pendingWin := none, windowChanged := false }
    if !egl.createWindowSurface win then s'
    else if !egl.makeCurrent win then
      { s' with state := s.state.map fun st => { st with surfaceAvailable := false } }
    else
      let isShown : Bool := win ≠ .defaultWin
      { s' with
        state := s.state.map fun st =>
          { st with
            surfaceAvailable := isShown
            drawRequested := isShown
            cursor := { st.cursor with updated := isShown } } }

/-- The new window is taken over. -/
def changeWindow (s : RendererThread) : RendererThread :=
  if s.windowChanged then s.rendererRefreshContext egl else s

/-- The attach pass. -/
def attach (s : RendererThread) : RendererThread :=
  { s with
    lists := s.lists.attach
    waitingForBuffers := s.waitingForBuffers && s.lists.addedBuffers.isEmpty }

/-- `rendererRedrawLocked`. -/
def rendererRedrawLocked (st : SharedServerState) (s : RendererThread) : RendererThread :=
  match s.lists.chosen st.rootWindowTextureID with
  | none => { s with waitingForBuffers := true }
  | some buffer =>
    let desc := description buffer.ref
    let r := s.viewport
    if desc.Expected r.x.expected r.y.expected then
      let hasViewport : Bool := r.x.size > 0 && r.y.size > 0
      let spanX := r.x.span r.zoomPercent hasViewport s.win.size.1 st.cursor.x desc.width
      let spanY := r.y.span r.zoomPercent hasViewport s.win.size.2 st.cursor.y desc.height
      { s with
        viewport :=
          { r with
            x := { r.x with zoomSource := spanX.source }
            y := { r.y with zoomSource := spanY.source } }
        state := some
          { st with
            drawRequested := false
            waitForNextFrame := true
            renderedFrames := st.renderedFrames + 1
            cursor := { st.cursor with updated := false, moved := false } } }
    else s

/-- The frame, if one is asked for and there is a surface for it. -/
def redraw (s : RendererThread) : RendererThread :=
  match s.state with
  | none => s
  | some st =>
    if st.canDraw then s.rendererRedrawLocked description st else s

/-- The release pass. -/
def release (s : RendererThread) : RendererThread := { s with lists := s.lists.release }

/-- What the thread has when it has taken over the changes. -/
def settled (s : RendererThread) : RendererThread := (s.changeState.changeWindow egl).attach

/-- One time round the loop of `rendererThread`. -/
def round (s : RendererThread) : RendererThread :=
  ((s.rendererShouldWait.2.settled egl).redraw description).release

/-- Left alone, the thread comes to wait. -/
def DoesNotSpin (s : RendererThread) : Prop :=
  ∃ n, ((round egl description)^[n] s).rendererShouldWait.1 = true

/-- One time round takes over changes, clears a request for a frame or makes the thread wait. -/
def Progress (s : RendererThread) : Prop :=
  (s.hasChanges = true ∧ (s.round egl description).hasChanges = false) ∨
    (∃ st st', s.state = some st ∧ (s.round egl description).state = some st' ∧
      st.wantsFrame = true ∧ st'.wantsFrame = false) ∨
    (s.round egl description).rendererShouldWait.1 = true

/-- Left alone, the thread makes progress each time round until it waits. -/
def MakesProgress (s : RendererThread) : Prop :=
  ∀ n, (∀ m ≤ n, ((round egl description)^[m] s).rendererShouldWait.1 = false) →
    Progress egl description ((round egl description)^[n] s)

/-! ### What makes it spin -/

/-- The shared state that is in use when the changes are taken over. -/
def nextState (s : RendererThread) : Option SharedServerState :=
  if s.stateChanged then s.pendingState else s.state

/-- A new window gets a surface and is drawn in at once. -/
def NewSurface (s : RendererThread) : Prop :=
  s.windowChanged = true ∧ ∃ w, s.pendingWin = some w ∧ w.valid ≠ .defaultWin ∧
    egl.createWindowSurface w.valid = true ∧ egl.makeCurrent w.valid = true

/-- The surface stays as it was: the window does not change, or no surface can be made for the new
one. -/
def SameSurface (s : RendererThread) : Prop :=
  s.windowChanged = false ∨ ∃ w, s.pendingWin = some w ∧ egl.createWindowSurface w.valid = false

/-- The buffer that is found is not of the expected size. -/
def Unexpected (s : RendererThread) (id : ℕ) (buffers : List LorieBuffer) : Prop :=
  ∃ b ∈ (findById id buffers).map Prod.fst,
    ¬ (description b.ref).Expected s.viewport.x.expected s.viewport.y.expected

/-- A frame is asked for, there is a surface for it, and the root buffer is attached, or will be,
but not of the expected size. -/
structure Stuck (s : RendererThread) (st : SharedServerState) : Prop where
  state : s.nextState = some st
  notShown : st.waitForNextFrame = false
  surface : s.NewSurface egl ∨ s.SameSurface egl ∧ st.wantsFrame = true ∧
    if s.stateChanged then s.win ≠ .defaultWin else st.surfaceAvailable = true
  notWaiting : s.stateChanged = true ∨ s.lists.addedBuffers ≠ [] ∨ s.waitingForBuffers = false ∨
    s.lastRequestedBufferId ≠ st.rootWindowTextureID
  buffer : s.Unexpected description st.rootWindowTextureID
    (attachAll s.lists.addedBuffers s.lists.buffers)

/-! ### What each part does -/

section

variable {egl description} {s : RendererThread} {st : SharedServerState}

theorem hasChanges_eq_false : s.hasChanges = false ↔ s.stateChanged = false ∧
    s.windowChanged = false ∧ s.lists.addedBuffers = [] ∧ s.lists.removedBuffers = [] := by
  simp [hasChanges, and_assoc]

theorem shouldWait_of_changes (h : s.hasChanges = true) : s.rendererShouldWait = (false, s) := by
  rw [rendererShouldWait, if_pos h]

theorem canDraw_iff : st.canDraw = true ↔
    st.waitForNextFrame = false ∧ st.wantsFrame = true ∧ st.surfaceAvailable = true := by
  rw [SharedServerState.canDraw, Bool.and_eq_true, Bool.and_eq_true, Bool.not_eq_true']
  tauto

/-- What `rendererShouldWait` leaves of `waitingForBuffers` when there are no changes. -/
theorem shouldWait_of_quiet (h : s.hasChanges = false) :
    (s.state = none ∧ s.rendererShouldWait = (true, s)) ∨
      ∃ st waiting, s.state = some st ∧
        s.rendererShouldWait = (!st.canDraw || waiting,
          { s with
            waitingForBuffers := waiting
            lastRequestedBufferId := st.rootWindowTextureID }) ∧
        (waiting = false ↔
          s.waitingForBuffers = false ∨ s.lastRequestedBufferId ≠ st.rootWindowTextureID) := by
  rw [rendererShouldWait, if_neg (by simp [h])]
  split
  case h_1 hstate => exact Or.inl ⟨hstate, rfl⟩
  case h_2 st hstate =>
    refine Or.inr ⟨st, if s.lastRequestedBufferId ≠ st.rootWindowTextureID then false
      else s.waitingForBuffers, hstate, ?_, ?_⟩
    · generalize (if s.lastRequestedBufferId ≠ st.rootWindowTextureID then false
        else s.waitingForBuffers) = waiting
      rw [SharedServerState.canDraw]
      cases st.surfaceAvailable <;> cases st.waitForNextFrame <;> cases st.wantsFrame <;>
        cases waiting <;> rfl
    · split_ifs with hlast
      · exact iff_of_true rfl (Or.inr hlast)
      · exact ⟨Or.inl, fun h => h.resolve_right hlast⟩

/-- What `redraw` can do. -/
theorem redraw_cases (description : ℕ → Size) (s : RendererThread) :
    (s.redraw description = s ∧ ∀ st, s.state = some st → st.canDraw = false) ∨
      ∃ st, s.state = some st ∧ st.canDraw = true ∧
        ((s.lists.chosen st.rootWindowTextureID = none ∧
            s.redraw description = { s with waitingForBuffers := true }) ∨
          ∃ b, s.lists.chosen st.rootWindowTextureID = some b ∧
            ((¬ (description b.ref).Expected s.viewport.x.expected s.viewport.y.expected ∧
                s.redraw description = s) ∨
              (description b.ref).Expected s.viewport.x.expected s.viewport.y.expected ∧
                ∃ viewport st', s.redraw description =
                    { s with viewport := viewport, state := some st' } ∧
                  st'.waitForNextFrame = true ∧ st'.wantsFrame = false)) := by
  unfold redraw
  split
  case h_1 hstate => exact Or.inl ⟨rfl, fun st hst => by rw [hstate] at hst; cases hst⟩
  case h_2 st hstate =>
    split_ifs with hcan
    · refine Or.inr ⟨st, hstate, hcan, ?_⟩
      unfold rendererRedrawLocked
      cases hchosen : s.lists.chosen st.rootWindowTextureID with
      | none => exact Or.inl ⟨rfl, rfl⟩
      | some b =>
        refine Or.inr ⟨b, rfl, ?_⟩
        dsimp only
        split_ifs with hexpected
        · exact Or.inr ⟨hexpected, _, _, rfl, rfl, rfl⟩
        · exact Or.inl ⟨hexpected, rfl⟩
    · refine Or.inl ⟨rfl, fun st' hst' => ?_⟩
      obtain rfl := Option.some.inj (hstate.symm.trans hst')
      exact eq_false_of_ne_true hcan

/-- The frame is tried again and again as it is now. -/
structure Retrying (description : ℕ → Size) (s : RendererThread) (st : SharedServerState) :
    Prop where
  state : s.state = some st
  canDraw : st.canDraw = true
  notWaiting : s.waitingForBuffers = false ∨ s.lastRequestedBufferId ≠ st.rootWindowTextureID
  buffer : s.Unexpected description st.rootWindowTextureID s.lists.buffers

/-- An attached buffer is the one that is chosen. -/
theorem chosen_of_unexpected {id : ℕ} (h : s.Unexpected description id s.lists.buffers) :
    ∃ b, s.lists.chosen id = some b ∧
      ¬ (description b.ref).Expected s.viewport.x.expected s.viewport.y.expected := by
  obtain ⟨b, hb, hunexpected⟩ := h
  obtain ⟨r, hr, rfl⟩ := Option.map_eq_some_iff.1 (Option.mem_def.1 hb)
  refine ⟨r.1, ?_, hunexpected⟩
  rw [Renderer.chosen, hr]
  rfl

/-- Without removed buffers only an attached one is chosen. -/
theorem chosen_eq_attached (h : s.lists.removedBuffers = []) (id : ℕ) :
    s.lists.chosen id = (findById id s.lists.buffers).map Prod.fst := by
  rw [Renderer.chosen, h]
  exact congrArg _ (Option.or_none)

theorem retrying_release : Retrying description s.release st ↔ Retrying description s st :=
  ⟨fun h => ⟨h.1, h.2, h.3, h.4⟩, fun h => ⟨h.1, h.2, h.3, h.4⟩⟩

/-- Drawing does not change whether a frame is tried again. -/
theorem retrying_redraw :
    Retrying description (s.redraw description) st ↔ Retrying description s st := by
  rcases redraw_cases description s with ⟨hsame, -⟩ | ⟨st', hstate, hcan, hdraw⟩
  · rw [hsame]
  · rcases hdraw with ⟨hnone, hwait⟩ | ⟨b, hb, ⟨-, hsame⟩ | ⟨hexpected, viewport, st'', hdrawn,
      hshown, hwants⟩⟩
    · have habsent : s.state = some st →
          ¬ s.Unexpected description st.rootWindowTextureID s.lists.buffers := by
        intro hst h
        obtain rfl := Option.some.inj (hstate.symm.trans hst)
        obtain ⟨b, hb, -⟩ := chosen_of_unexpected h
        rw [hnone] at hb
        cases hb
      rw [hwait]
      exact iff_of_false (fun h => habsent h.state h.buffer) fun h => habsent h.state h.buffer
    · rw [hsame]
    · rw [hdrawn]
      constructor
      · intro h
        obtain rfl := Option.some.inj h.state
        have hcan' := h.canDraw
        rw [SharedServerState.canDraw, hwants, Bool.and_false] at hcan'
        cases hcan'
      · intro h
        obtain rfl := Option.some.inj (hstate.symm.trans h.state)
        obtain ⟨b', hb', hunexpected⟩ := chosen_of_unexpected h.buffer
        obtain rfl := Option.some.inj (hb.symm.trans hb')
        exact absurd hexpected hunexpected

theorem redraw_keeps (description : ℕ → Size) (s : RendererThread) :
    (s.redraw description).stateChanged = s.stateChanged ∧
      (s.redraw description).windowChanged = s.windowChanged ∧
      (s.redraw description).lists = s.lists := by
  rcases redraw_cases description s with ⟨hsame, -⟩ | ⟨st, -, -, ⟨-, hwait⟩ | ⟨b, -, ⟨-, hsame⟩ |
    ⟨-, viewport, st', hdrawn, -⟩⟩⟩
  · rw [hsame]
    exact ⟨rfl, rfl, rfl⟩
  · rw [hwait]
    exact ⟨rfl, rfl, rfl⟩
  · rw [hsame]
    exact ⟨rfl, rfl, rfl⟩
  · rw [hdrawn]
    exact ⟨rfl, rfl, rfl⟩

/-! ### Taking over the changes -/

theorem changeState_keeps (s : RendererThread) : s.changeState.win = s.win ∧
    s.changeState.pendingWin = s.pendingWin ∧ s.changeState.windowChanged = s.windowChanged ∧
    s.changeState.viewport = s.viewport ∧ s.changeState.lists = s.lists ∧
    s.changeState.lastRequestedBufferId = s.lastRequestedBufferId := by
  unfold changeState
  split_ifs
  · exact ⟨rfl, rfl, rfl, rfl, rfl, rfl⟩
  · exact ⟨rfl, rfl, rfl, rfl, rfl, rfl⟩

theorem changeState_stateChanged : s.changeState.stateChanged = false := by
  unfold changeState
  split_ifs with h
  · rfl
  · exact eq_false_of_ne_true h

theorem changeState_waiting :
    s.changeState.waitingForBuffers = (!s.stateChanged && s.waitingForBuffers) := by
  unfold changeState
  split_ifs with h
  · rw [h]
    rfl
  · rw [eq_false_of_ne_true h]
    rfl

theorem changeState_state : s.changeState.state = s.nextState.map fun st =>
    if s.stateChanged then { st with surfaceAvailable := s.win ≠ Window.defaultWin } else st := by
  unfold changeState nextState
  split_ifs
  · rfl
  · exact Option.map_id'.symm

theorem changeWindow_keeps (egl : Egl) (s : RendererThread) :
    (s.changeWindow egl).stateChanged = s.stateChanged ∧
    (s.changeWindow egl).windowChanged = false ∧
    (s.changeWindow egl).viewport = s.viewport ∧ (s.changeWindow egl).lists = s.lists ∧
    (s.changeWindow egl).waitingForBuffers = s.waitingForBuffers ∧
    (s.changeWindow egl).lastRequestedBufferId = s.lastRequestedBufferId := by
  unfold changeWindow
  split_ifs with h
  · unfold rendererRefreshContext
    split
    · exact ⟨rfl, rfl, rfl, rfl, rfl, rfl⟩
    · dsimp only
      split_ifs <;> exact ⟨rfl, rfl, rfl, rfl, rfl, rfl⟩
  · exact ⟨rfl, eq_false_of_ne_true h, rfl, rfl, rfl, rfl⟩

/-- A window change leaves of the shared state whether a frame can be drawn. -/
theorem changeWindow_state (egl : Egl) (s : RendererThread) :
    ∃ f : SharedServerState → SharedServerState, (s.changeWindow egl).state = s.state.map f ∧
      ∀ st, (f st).rootWindowTextureID = st.rootWindowTextureID ∧
        ((f st).canDraw = true ↔ st.waitForNextFrame = false ∧ (s.NewSurface egl ∨
          s.SameSurface egl ∧ st.wantsFrame = true ∧ st.surfaceAvailable = true)) := by
  unfold changeWindow
  cases hchanged : s.windowChanged with
  | false =>
    refine ⟨id, Option.map_id.symm ▸ rfl, fun st => ⟨rfl, ?_⟩⟩
    simp [canDraw_iff, NewSurface, SameSurface, hchanged]
  | true =>
    rw [if_pos rfl]
    unfold rendererRefreshContext
    split
    case h_1 hpending =>
      refine ⟨_, rfl, fun st => ⟨rfl, ?_⟩⟩
      simp [canDraw_iff, NewSurface, SameSurface, hchanged, hpending]
    case h_2 w hpending =>
      dsimp only
      split_ifs with hcreate hcurrent
      · refine ⟨id, Option.map_id.symm ▸ rfl, fun st => ⟨rfl, ?_⟩⟩
        have hcreate' : egl.createWindowSurface w.valid = false := by simpa using hcreate
        simp [canDraw_iff, NewSurface, SameSurface, hchanged, hpending, hcreate']
      · refine ⟨_, rfl, fun st => ⟨rfl, ?_⟩⟩
        have hcurrent' : egl.makeCurrent w.valid = false := by simpa using hcurrent
        have hcreate' : egl.createWindowSurface w.valid = true := by simpa using hcreate
        simp [canDraw_iff, NewSurface, SameSurface, hchanged, hpending, hcreate', hcurrent']
      · refine ⟨_, rfl, fun st => ⟨rfl, ?_⟩⟩
        have hcurrent' : egl.makeCurrent w.valid = true := by simpa using hcurrent
        have hcreate' : egl.createWindowSurface w.valid = true := by simpa using hcreate
        simp [canDraw_iff, SharedServerState.wantsFrame, NewSurface, SameSurface, hchanged,
          hpending, hcreate', hcurrent']
        tauto

theorem settled_hasChanges (egl : Egl) (s : RendererThread) :
    (s.settled egl).stateChanged = false ∧ (s.settled egl).windowChanged = false ∧
      (s.settled egl).lists.addedBuffers = [] := by
  obtain ⟨hstate, hwindow, -⟩ := changeWindow_keeps egl s.changeState
  exact ⟨hstate.trans changeState_stateChanged, hwindow, rfl⟩

/-- Once round, the changes that there were have been taken over. -/
theorem round_hasChanges (egl : Egl) (description : ℕ → Size) (s : RendererThread) :
    (s.round egl description).hasChanges = false := by
  obtain ⟨hstate, hwindow, hadded⟩ := settled_hasChanges egl s.rendererShouldWait.2
  obtain ⟨hstate', hwindow', hlists⟩ :=
    redraw_keeps description (s.rendererShouldWait.2.settled egl)
  refine hasChanges_eq_false.2 ⟨hstate'.trans hstate, hwindow'.trans hwindow, ?_, rfl⟩
  show (((s.rendererShouldWait.2.settled egl).redraw description).lists).addedBuffers = []
  rw [hlists, hadded]

theorem settled_keeps (egl : Egl) (s : RendererThread) :
    (s.settled egl).viewport = s.viewport ∧
      (s.settled egl).lists.buffers = attachAll s.lists.addedBuffers s.lists.buffers ∧
      (s.settled egl).lists.removedBuffers = s.lists.removedBuffers ∧
      (s.settled egl).waitingForBuffers =
        (!s.stateChanged && s.waitingForBuffers && s.lists.addedBuffers.isEmpty) ∧
      (s.settled egl).lastRequestedBufferId = s.lastRequestedBufferId := by
  obtain ⟨-, -, -, hviewport, hlists, hlast⟩ := changeState_keeps s
  obtain ⟨-, -, hviewport', hlists', hwaiting', hlast'⟩ :=
    changeWindow_keeps egl s.changeState
  simp only [settled, attach, Renderer.attach, hviewport', hviewport, hlists', hlists, hwaiting',
    changeState_waiting, hlast', hlast, and_self]

/-- What the changes leave of the shared state. -/
theorem settled_state (egl : Egl) (s : RendererThread) :
    ∃ f : SharedServerState → SharedServerState, (s.settled egl).state = s.nextState.map f ∧
      ∀ st, (f st).rootWindowTextureID = st.rootWindowTextureID ∧
        ((f st).canDraw = true ↔ st.waitForNextFrame = false ∧ (s.NewSurface egl ∨
          s.SameSurface egl ∧ st.wantsFrame = true ∧
            if s.stateChanged then s.win ≠ .defaultWin else st.surfaceAvailable = true)) := by
  obtain ⟨-, hpending, hchanged, -⟩ := changeState_keeps s
  obtain ⟨f, hstate, hf⟩ := changeWindow_state egl s.changeState
  have hnew : s.changeState.NewSurface egl ↔ s.NewSurface egl := by
    rw [NewSurface, NewSurface, hpending, hchanged]
  have hsame : s.changeState.SameSurface egl ↔ s.SameSurface egl := by
    rw [SameSurface, SameSurface, hpending, hchanged]
  refine ⟨_, hstate.trans (by rw [changeState_state, Option.map_map]), fun st => ?_⟩
  rw [Function.comp_apply, (hf _).1, (hf _).2, hnew, hsame]
  split_ifs
  · refine ⟨rfl, ?_⟩
    rw [decide_eq_true_iff]
    rfl
  · exact ⟨rfl, Iff.rfl⟩

/-- The condition is what is left to do when the changes have been taken over. -/
theorem stuck_iff_retrying (egl : Egl) (description : ℕ → Size) (s : RendererThread) :
    (∃ st, Stuck egl description s st) ↔ ∃ st, Retrying description (s.settled egl) st := by
  obtain ⟨f, hstate, hf⟩ := settled_state egl s
  obtain ⟨hviewport, hbuffers, -, hwaiting, hlast⟩ := settled_keeps egl s
  have hawake : ∀ id, ((s.settled egl).waitingForBuffers = false ∨
      (s.settled egl).lastRequestedBufferId ≠ id) ↔ s.stateChanged = true ∨
        s.lists.addedBuffers ≠ [] ∨ s.waitingForBuffers = false ∨
        s.lastRequestedBufferId ≠ id := by
    intro id
    rw [hwaiting, hlast]
    simp only [Bool.and_eq_false_iff, Bool.not_eq_false', List.isEmpty_eq_false_iff]
    tauto
  have hunexpected : ∀ id, (s.settled egl).Unexpected description id
      (s.settled egl).lists.buffers ↔ s.Unexpected description id
        (attachAll s.lists.addedBuffers s.lists.buffers) := by
    intro id
    rw [Unexpected, Unexpected, hviewport, hbuffers]
  constructor
  · rintro ⟨st, h⟩
    obtain ⟨hid, hcan⟩ := hf st
    refine ⟨f st, by rw [hstate, h.state]; rfl, hcan.2 ⟨h.notShown, h.surface⟩, ?_, ?_⟩
    · rw [hid]
      exact (hawake _).2 h.notWaiting
    · rw [hid]
      exact (hunexpected _).2 h.buffer
  · rintro ⟨st', h⟩
    obtain ⟨st, hnext, rfl⟩ := Option.map_eq_some_iff.1 (hstate.symm.trans h.state)
    obtain ⟨hid, hcan⟩ := hf st
    obtain ⟨hshown, hsurface⟩ := hcan.1 h.canDraw
    have hwait := h.notWaiting
    have hbuffer := h.buffer
    rw [hid] at hwait hbuffer
    exact ⟨st, hnext, hshown, hsurface, (hawake _).1 hwait, (hunexpected _).1 hbuffer⟩

/-! ### Once round -/

theorem settled_of_quiet (egl : Egl) (h : s.hasChanges = false) :
    s.settled egl = { s with lists := { s.lists with phase := .draw } } := by
  obtain ⟨hstate, hwindow, hadded, -⟩ := hasChanges_eq_false.1 h
  have hchange : s.changeState = s := by
    rw [changeState, hstate]
    rfl
  have hchange' : s.changeWindow egl = s := by
    rw [changeWindow, hwindow]
    rfl
  have hattach : s.lists.attach = { s.lists with phase := .draw } := by
    simp only [Renderer.attach, hadded, attachAll]
  rw [settled, hchange, hchange', attach, hattach, hadded, List.isEmpty_nil, Bool.and_true]

theorem retrying_settled (egl : Egl) (h : s.hasChanges = false) :
    Retrying description (s.settled egl) st ↔ Retrying description s st := by
  rw [settled_of_quiet egl h]
  exact ⟨fun h => ⟨h.1, h.2, h.3, h.4⟩, fun h => ⟨h.1, h.2, h.3, h.4⟩⟩

/-- What `rendererShouldWait` sets does not change whether a frame is tried again. -/
theorem retrying_shouldWait (description : ℕ → Size) (st : SharedServerState)
    (h : s.hasChanges = false) :
    s.rendererShouldWait.2.hasChanges = false ∧
      (Retrying description s.rendererShouldWait.2 st ↔ Retrying description s st) := by
  rcases shouldWait_of_quiet h with ⟨-, hshould⟩ | ⟨st', waiting, hstate, hshould, hwaiting⟩
  · rw [hshould]
    exact ⟨h, Iff.rfl⟩
  · rw [hshould]
    refine ⟨h, fun hr => ?_, fun hr => ?_⟩
    · obtain rfl := Option.some.inj (hstate.symm.trans hr.state)
      exact ⟨hr.1, hr.2, hwaiting.1 (hr.notWaiting.resolve_right fun hne => hne rfl), hr.4⟩
    · obtain rfl := Option.some.inj (hstate.symm.trans hr.state)
      exact ⟨hr.1, hr.2, Or.inl (hwaiting.2 hr.notWaiting), hr.4⟩

/-- Once round, a frame is tried again if it would have been when the changes were taken over. -/
theorem retrying_round (egl : Egl) (description : ℕ → Size) (s : RendererThread)
    (st : SharedServerState) : Retrying description (s.round egl description) st ↔
      Retrying description (s.settled egl) st := by
  rw [round, retrying_release, retrying_redraw]
  cases h : s.hasChanges with
  | true => rw [shouldWait_of_changes h]
  | false =>
    obtain ⟨hquiet, hsame⟩ := retrying_shouldWait description st h
    rw [retrying_settled egl hquiet, hsame, retrying_settled egl h]

theorem shouldWait_of_retrying (h : s.hasChanges = false) (hr : Retrying description s st) :
    s.rendererShouldWait.1 = false := by
  rcases shouldWait_of_quiet h with ⟨hnone, -⟩ | ⟨st', waiting, hstate, hshould, hwaiting⟩
  · rw [hr.state] at hnone
    cases hnone
  · obtain rfl := Option.some.inj (hr.state.symm.trans hstate)
    rw [hshould, hwaiting.2 hr.notWaiting, hr.canDraw]
    rfl

/-- The thread waits if there is no frame to draw or it waits for the buffer of the frame. -/
theorem shouldWait_of_asleep (h : s.hasChanges = false)
    (hasleep : ∀ st, s.state = some st → st.canDraw = true →
      s.waitingForBuffers = true ∧ s.lastRequestedBufferId = st.rootWindowTextureID) :
    s.rendererShouldWait.1 = true := by
  rcases shouldWait_of_quiet h with ⟨-, hshould⟩ | ⟨st, waiting, hstate, hshould, hwaiting⟩
  · rw [hshould]
  · rw [hshould]
    cases hcan : st.canDraw with
    | false => rfl
    | true =>
      obtain ⟨hwait, hlast⟩ := hasleep st hstate hcan
      refine (Bool.not_eq_false _).mp fun hfalse => ?_
      rcases hwaiting.1 hfalse with hno | hother
      · rw [hwait] at hno
        cases hno
      · exact hother hlast

/-- Without changes, a thread that goes round once and does not try again comes to wait. -/
theorem shouldWait_round (egl : Egl) (h : s.hasChanges = false)
    (hr : ∀ st, ¬ Retrying description s st) (hgo : s.rendererShouldWait.1 = false) :
    (s.round egl description).rendererShouldWait.1 = true := by
  rcases shouldWait_of_quiet h with ⟨-, hshould⟩ | ⟨st, waiting, hstate, hshould, hwaiting⟩
  · rw [hshould] at hgo
    cases hgo
  rw [hshould] at hgo
  obtain ⟨hcan, rfl⟩ := Bool.or_eq_false_iff.1 hgo
  rw [Bool.not_eq_false'] at hcan
  refine shouldWait_of_asleep (round_hasChanges egl description s) fun st' hstate' hcan' => ?_
  have hquiet := (retrying_shouldWait description st h).1
  obtain ⟨t, ht⟩ : ∃ t, s.rendererShouldWait.2.settled egl = t := ⟨_, rfl⟩
  have hsame := ht
  rw [settled_of_quiet egl hquiet, hshould] at hsame
  have hchosen : t.lists.chosen st.rootWindowTextureID =
      (findById st.rootWindowTextureID s.lists.buffers).map Prod.fst := by
    subst hsame
    exact chosen_eq_attached (hasChanges_eq_false.1 h).2.2.2 _
  have hview : t.viewport = s.viewport := hsame ▸ rfl
  have hlast : t.lastRequestedBufferId = st.rootWindowTextureID := hsame ▸ rfl
  have hst : t.state = some st := hsame ▸ hstate
  rw [round, ht] at hstate' ⊢
  rcases redraw_cases description t with ⟨-, hno⟩ | ⟨st₁, hst₁, -, hdraw⟩
  · exact absurd ((hno st hst).symm.trans hcan) Bool.false_ne_true
  obtain rfl := Option.some.inj (hst.symm.trans hst₁)
  rcases hdraw with ⟨-, hwait⟩ | ⟨b, hb, ⟨hunexpected, -⟩ | ⟨-, viewport, st₂, hdrawn, hshown, -⟩⟩
  · -- the buffer is missing
    rw [hwait] at hstate' ⊢
    obtain rfl := Option.some.inj (hst.symm.trans hstate')
    exact ⟨rfl, hlast⟩
  · exact absurd ⟨hstate, hcan, hwaiting.1 rfl, b, hchosen ▸ hb, hview ▸ hunexpected⟩ (hr st)
  · -- the frame has been drawn
    rw [hdrawn] at hstate'
    obtain rfl := Option.some.inj hstate'
    rw [canDraw_iff, hshown] at hcan'
    cases hcan'.1

/-! ### The whole loop -/

theorem quiet_iterate (egl : Egl) (description : ℕ → Size) (s : RendererThread) (n : ℕ) :
    ((round egl description)^[n + 1] s).hasChanges = false := by
  rw [Function.iterate_succ_apply']
  exact round_hasChanges egl description _

/-- What is tried again is decided at the beginning. -/
theorem retrying_iterate (egl : Egl) (description : ℕ → Size) (s : RendererThread)
    (st : SharedServerState) (n : ℕ) :
    Retrying description (((round egl description)^[n] s).settled egl) st ↔
      Retrying description (s.settled egl) st := by
  induction n with
  | zero => exact Iff.rfl
  | succ n ih =>
    rw [retrying_settled egl (quiet_iterate egl description s n), Function.iterate_succ_apply',
      retrying_round, ih]

theorem goesOn_of_retrying (hr : Retrying description (s.settled egl) st) :
    s.rendererShouldWait.1 = false := by
  cases h : s.hasChanges with
  | true => rw [shouldWait_of_changes h]
  | false => exact shouldWait_of_retrying h ((retrying_settled egl h).1 hr)

/-- A thread that does not try again waits after two times round at most. -/
theorem waits_within_two (hr : ∀ st, ¬ Retrying description (s.settled egl) st) :
    ∃ n ≤ 2, ((round egl description)^[n] s).rendererShouldWait.1 = true := by
  have hr' : ∀ st, ¬ Retrying description (s.round egl description) st :=
    fun st h => hr st ((retrying_round egl description s st).1 h)
  cases hgo : (s.round egl description).rendererShouldWait.1 with
  | true => exact ⟨1, by omega, hgo⟩
  | false =>
    exact ⟨2, le_rfl, shouldWait_round egl (round_hasChanges egl description s) hr' hgo⟩

/-- A thread that does not try again makes progress each time round. -/
theorem progress_of_goesOn (hr : ∀ st, ¬ Retrying description (s.settled egl) st)
    (hgo : s.rendererShouldWait.1 = false) : Progress egl description s := by
  cases h : s.hasChanges with
  | true => exact Or.inl ⟨h, round_hasChanges egl description s⟩
  | false =>
    refine Or.inr (Or.inr (shouldWait_round egl h (fun st hst => ?_) hgo))
    exact hr st ((retrying_settled egl h).2 hst)

/-- A frame that is tried again makes none: it is still asked for, and the thread goes on. -/
theorem not_progress_of_retrying (h : s.hasChanges = false) (hr : Retrying description s st) :
    ¬ Progress egl description s := by
  have hr' : Retrying description (s.round egl description) st :=
    (retrying_round egl description s st).2 ((retrying_settled egl h).2 hr)
  rintro (⟨hchanges, -⟩ | ⟨st₁, st₂, -, hst₂, -, hwants⟩ | hwait)
  · rw [h] at hchanges
    cases hchanges
  · obtain rfl := Option.some.inj (hr'.state.symm.trans hst₂)
    rw [(canDraw_iff.1 hr'.canDraw).2.1] at hwants
    cases hwants
  · rw [shouldWait_of_retrying (round_hasChanges egl description s) hr'] at hwait
    cases hwait

/-- A stuck thread never waits. -/
theorem goesOn_of_stuck (h : Stuck egl description s st) (n : ℕ) :
    ((round egl description)^[n] s).rendererShouldWait.1 = false := by
  obtain ⟨st', hr⟩ := (stuck_iff_retrying egl description s).1 ⟨st, h⟩
  exact goesOn_of_retrying ((retrying_iterate egl description s st' n).2 hr)

/-- Once round is a run of the critical sections of the renderer thread. -/
theorem tryExec_round (egl : Egl) (description : ℕ → Size) {s : RendererThread}
    (h : s.lists.phase = .attach) (id : ℕ) :
    Run.tryExec Renderer.step s.lists [.attach, .beginRedraw id, .endRedraw, .release] =
      some (s.round egl description).lists := by
  have hshould : s.rendererShouldWait.2.lists = s.lists := by
    cases hchanges : s.hasChanges with
    | true => rw [shouldWait_of_changes hchanges]
    | false =>
      rcases shouldWait_of_quiet hchanges with ⟨-, hshould⟩ | ⟨st, waiting, -, hshould, -⟩
      · rw [hshould]
      · rw [hshould]
  have hsettled : (s.rendererShouldWait.2.settled egl).lists = s.lists.attach := by
    show Renderer.attach _ = _
    rw [(changeWindow_keeps egl _).2.2.2.1, (changeState_keeps _).2.2.2.2.1, hshould]
  have hround : (s.round egl description).lists = s.lists.attach.release := by
    show Renderer.release _ = _
    rw [(redraw_keeps description _).2.2, hsettled]
  rw [hround, Run.tryExec, Renderer.step, if_pos h]
  rfl

end

/-- **The thread comes to wait**, if nothing disturbs it, exactly if it is not asked for a frame of
an attached buffer of an unexpected size; and exactly then each time round makes progress. -/
theorem doesNotSpin_iff (egl : Egl) (description : ℕ → Size) (s : RendererThread) :
    (DoesNotSpin egl description s ↔ ¬ ∃ st, Stuck egl description s st) ∧
      (MakesProgress egl description s ↔ ¬ ∃ st, Stuck egl description s st) := by
  have hretrying : (¬ ∃ st, Stuck egl description s st) →
      ∀ st, ¬ Retrying description (s.settled egl) st :=
    fun h st hst => h ((stuck_iff_retrying egl description s).2 ⟨st, hst⟩)
  refine ⟨⟨?_, fun h => ?_⟩, ⟨?_, fun h n hgo => ?_⟩⟩
  · rintro ⟨n, hn⟩ ⟨st, h⟩
    rw [goesOn_of_stuck h n] at hn
    cases hn
  · obtain ⟨n, -, hn⟩ := waits_within_two (hretrying h)
    exact ⟨n, hn⟩
  · rintro hprogress ⟨st, h⟩
    obtain ⟨st', hr⟩ := (stuck_iff_retrying egl description s).1 ⟨st, h⟩
    have hno : ¬ Progress egl description (s.round egl description) :=
      not_progress_of_retrying (round_hasChanges egl description s)
        ((retrying_round egl description s st').2 hr)
    exact hno (hprogress 1 fun m _ => goesOn_of_stuck h m)
  · refine progress_of_goesOn (fun st hst => ?_) (hgo n le_rfl)
    exact hretrying h st ((retrying_iterate egl description s st n).1 hst)

/-- The activity is shown: the shared state and the root buffer have been taken over, and a window
has just been set. -/
def shown (egl : Egl) (description : ℕ → Size) : RendererThread :=
  let connected := round egl description
    (rendererSetSharedState (some { rootWindowTextureID := 7, drawRequested := true }) {})
  rendererSetWindow (some (.surface 1 1280 1024))
    (round egl description (rendererAddBuffer 7 connected))

/-- An EGL that makes a surface for every window. -/
def makesAll : Egl := ⟨fun _ => true, fun _ => true⟩

/-- Until the view sets the viewport for the new window, no size is the expected one. -/
theorem spins_shown :
    ¬ DoesNotSpin makesAll (fun _ => ⟨1280, 1024⟩) (shown makesAll fun _ => ⟨1280, 1024⟩) ∧
      DoesNotSpin makesAll (fun _ => ⟨1280, 1024⟩)
        ((round makesAll (fun _ => ⟨1280, 1024⟩)
          (shown makesAll fun _ => ⟨1280, 1024⟩)).rendererSetViewport 0 0 1280 1024 1280 1024) := by
  refine ⟨?_, ⟨1, rfl⟩⟩
  rintro ⟨n, hn⟩
  have hstuck : Stuck makesAll (fun _ => ⟨1280, 1024⟩) (shown makesAll fun _ => ⟨1280, 1024⟩)
      { rootWindowTextureID := 7, drawRequested := true } := by
    refine ⟨rfl, rfl, Or.inl ⟨rfl, _, rfl, by decide, rfl, rfl⟩, Or.inr (Or.inr (Or.inl rfl)),
      { ref := 0, id := 7, attached := true }, rfl, by decide⟩
  rw [goesOn_of_stuck hstuck n] at hn
  cases hn

end RendererThread

end TermuxX11.Activity
