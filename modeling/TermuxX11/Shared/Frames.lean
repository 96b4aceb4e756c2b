import TermuxX11.Lib.Run
import TermuxX11.Activity.RendererThread

/-!
# What is shown of what was drawn

The X server draws into the root window and moves the cursor; the renderer, in another process,
copies both into a frame.  They tell each other about it by flags in shared memory that are read and
written without a lock: the one that has something to show writes it and raises a flag, the renderer
lowers the flag and reads.

The model has one step for each access to the shared memory, of the X server (`lorieMoveCursor`,
`lorieSetCursor`, `lorieRedraw` and what changes the root window) and of the renderer
(`rendererRedrawLocked` and what `rendererThread` does before it), so that other steps may come
between any two of them.  Writes are seen in the order in which they are made.  A condition on
several flags is read in one step, as is what `drawCursor` reads; the texture of the cursor is read
from the shared memory under the mutex of the cursor.  The mutex of the root window only leaves out
some of the orders.

The Present extension gives the root window another buffer than that of the screen's pixmap; damage
is registered on the latter only.  `lorieRedraw` takes the buffer of the root window before it
performs the vblanks that are due, which draw and flip.

One activity is connected at a time.  Left out are frames that are given up as the buffer is missing
or of another size, and calls of EGL that fail.
-/

namespace TermuxX11.Shared

open Run
open Activity (SharedServerState)

/-- A frame: the buffer that was copied with what was in it, the picture of the cursor in the
texture, the picture whose hot spot and size it was drawn with, and where. -/
structure Frame where
  buffer : ℕ
  contents : ℕ
  texture : Option ℕ
  drawnAs : ℕ
  x : ℤ
  y : ℤ
  deriving DecidableEq, Repr

/-- Where the X server is: in `lorieMoveCursor`, with what is still to be written; in `lorieRedraw`,
with the buffer that the root window had at its beginning, in `loriePerformVblanks`, before it looks
for the activity, at the damage or at the flags, or before it sets `rootWindowTextureID`; or in
neither. -/
inductive ServerPlace
  | idle
  | writingX (x y : ℤ)
  | writingY (y : ℤ)
  | moving
  | performing (root : ℕ)
  | testing (root : ℕ)
  | requesting (root : ℕ)
  | looking (root : ℕ)
  | naming (root : ℕ)
  deriving DecidableEq, Repr

/-- Clients are served, or their vblanks performed. -/
def ServerPlace.draws : ServerPlace → Bool
  | idle | performing _ => true
  | _ => false

/-- Where the renderer is in `rendererRedrawLocked`: it has found the buffer, lowered
`drawRequested`, copied the buffer, seen `updated`, has the texture, lowered `moved`, drawn the
cursor, or given the mutex back; or it is not in it. -/
inductive RendererPlace
  | idle
  | chosen (buffer : ℕ)
  | locked (buffer : ℕ)
  | copied (buffer contents : ℕ)
  | updating (buffer contents : ℕ)
  | textured (buffer contents : ℕ)
  | unmoved (buffer contents : ℕ)
  | drawn (frame : Frame)
  | unlocked (frame : Frame)
  deriving DecidableEq, Repr

/-- The renderer is just about to copy. -/
def RendererPlace.isLocked : RendererPlace → Bool
  | locked _ => true
  | _ => false

/-- The two processes.  What is in a buffer is a number, as is the picture of the cursor, with its
hot spot and size; `root` is the buffer of the root window, `screen` that of the screen's pixmap. -/
structure Display where
  contents : ℕ → ℕ := fun _ => 0
  root : ℕ := 1
  screen : ℕ := 1
  damage : Bool := false
  connectionAlive : Bool := false
  server : ServerPlace := .idle
  state : SharedServerState := {}
  image : ℕ := 0
  renderer : RendererPlace := .idle
  hasState : Bool := false
  hasWindow : Bool := false
  texture : Option ℕ := none
  shown : Option Frame := none

inductive DisplayStep
  | draw (buffer contents : ℕ)
  | flip (buffer : ℕ)
  | unflip
  | resize (buffer contents : ℕ)
  | setCursor (image : ℕ) (x y : ℤ)
  | moveCursor (x y : ℤ)
  | writeX
  | writeY
  | setMoved
  | beginRedraw
  | performed
  | test
  | request
  | look
  | setTexture
  | connected
  | hangUp
  | leave
  | takeOver
  | window (win : Option Bool)
  | setViewport
  | choose
  | lock
  | copy
  | readUpdated
  | upload
  | clearMoved
  | drawCursor
  | unlock
  | swap
  deriving DecidableEq

namespace Display

variable (s : Display)

/-- A step of the X server from one place. -/
def serverAt (place : ServerPlace) (s' : Display) : Option Display :=
  if s.server = place then some s' else none

/-- `lorieMoveCursor`, up to its first write: an `int` is stored as a `uint32_t`. -/
def lorieMoveCursor (x y : ℤ) : Display :=
  { s with server := .writingX (x % 2 ^ 32) (y % 2 ^ 32) }

/-- The steps of `lorieMoveCursor`, `lorieSetCursor`, `lorieRedraw`, `lorieActivityConnected` and of
what changes the root window: drawing, `loriePresentAfterFlip`, `present_restore_screen_pixmap` and
`lorieRRScreenSetSize`.  A client may draw into a buffer of its own at any time. -/
def serverStep : DisplayStep → Option Display
  | .draw buffer contents =>
    if s.server.draws || buffer ≠ s.screen then
      some { s with
        contents := Function.update s.contents buffer contents
        damage := s.damage || buffer = s.screen }
    else none
  | .flip buffer => if s.server.draws then some { s with root := buffer, damage := true } else none
  | .unflip =>
    if s.server.draws then
      some { s with
        contents := Function.update s.contents s.screen (s.contents s.root)
        root := s.screen
        damage := true }
    else none
  | .resize buffer contents =>
    s.serverAt .idle { s with
      contents := Function.update s.contents buffer contents
      root := buffer
      screen := buffer
      damage := true
      state.cursor.moved := true }
  | .setCursor image x y =>
    s.serverAt .idle
      ({ s with image := image, state.cursor.updated := true }.lorieMoveCursor x y)
  | .moveCursor x y => s.serverAt .idle (s.lorieMoveCursor x y)
  | .writeX =>
    match s.server with
    | .writingX x y => some { s with server := .writingY y, state.cursor.x := x }
    | _ => none
  | .writeY =>
    match s.server with
    | .writingY y => some { s with server := .moving, state.cursor.y := y }
    | _ => none
  | .setMoved => s.serverAt .moving { s with server := .idle, state.cursor.moved := true }
  | .beginRedraw => s.serverAt .idle { s with server := .performing s.root }
  | .performed =>
    match s.server with
    | .performing root => some { s with server := .testing root, state.waitForNextFrame := false }
    | _ => none
  | .test =>
    match s.server with
    | .testing root =>
      some { s with
        server :=
          if s.connectionAlive && s.state.surfaceAvailable then .requesting root else .idle }
    | _ => none
  | .request =>
    match s.server with
    | .requesting root =>
      some { s with
        server := .looking root
        damage := false
        state.drawRequested := s.state.drawRequested || s.damage }
    | _ => none
  | .look =>
    match s.server with
    | .looking root =>
      some { s with server := if s.state.wantsFrame then .naming root else .idle }
    | _ => none
  | .setTexture =>
    match s.server with
    | .naming root => some { s with server := .idle, state.rootWindowTextureID := root }
    | _ => none
  | .connected =>
    if s.hasState then none
    else s.serverAt .idle { s with
      connectionAlive := true
      state.drawRequested := true
      state.cursor.updated := true
      texture := none
      shown := none }
  | _ => none

/-- The window is taken over: there is none, or a new one, which may be without a size. -/
def rendererRefreshContext (win : Option Bool) : Display :=
  let s' := { s with hasWindow := win.getD false, shown := none }
  if s.hasState then
    match win with
    | none => { s' with state.surfaceAvailable := false }
    | some isShown =>
      { s' with
        state.surfaceAvailable := isShown
        state.drawRequested := isShown
        state.cursor.updated := isShown }
  else s'

/-- The steps of `rendererThread` and `rendererRedrawLocked`, and of `rendererSetViewport` and
`rendererSetZoom`. -/
def rendererStep : DisplayStep → Option Display
  | .hangUp => some { s with connectionAlive := false }
  | .leave =>
    some { s with connectionAlive := false, hasState := false, renderer := .idle }
  | .takeOver =>
    if s.connectionAlive ∧ ¬ s.hasState ∧ s.renderer = .idle then
      some { s with hasState := true, state.surfaceAvailable := s.hasWindow }
    else none
  | .window win => if s.renderer = .idle then some (s.rendererRefreshContext win) else none
  | .setViewport => if s.hasState then some { s with state.drawRequested := true } else none
  | .choose =>
    if s.renderer = .idle ∧ s.hasState ∧ s.state.canDraw then
      some { s with renderer := .chosen s.state.rootWindowTextureID }
    else none
  | .lock =>
    match s.renderer with
    | .chosen buffer => some { s with renderer := .locked buffer, state.drawRequested := false }
    | _ => none
  | .copy =>
    match s.renderer with
    | .locked buffer => some { s with renderer := .copied buffer (s.contents buffer) }
    | _ => none
  | .readUpdated =>
    match s.renderer with
    | .copied buffer contents =>
      some { s with
        renderer :=
          if s.state.cursor.updated then .updating buffer contents else .textured buffer contents }
    | _ => none
  | .upload =>
    match s.renderer with
    | .updating buffer contents =>
      some { s with
        renderer := .textured buffer contents
        state.cursor.updated := false
        texture := some s.image }
    | _ => none
  | .clearMoved =>
    match s.renderer with
    | .textured buffer contents =>
      some { s with renderer := .unmoved buffer contents, state.cursor.moved := false }
    | _ => none
  | .drawCursor =>
    match s.renderer with
    | .unmoved buffer contents =>
      some { s with
        renderer := .drawn
          { buffer := buffer
            contents := contents
            texture := s.texture
            drawnAs := s.image
            x := s.state.cursor.x
            y := s.state.cursor.y } }
    | _ => none
  | .unlock =>
    match s.renderer with
    | .drawn frame => some { s with renderer := .unlocked frame, state.waitForNextFrame := true }
    | _ => none
  | .swap =>
    match s.renderer with
    | .unlocked frame =>
      some { s with
        renderer := .idle
        shown := some frame
        state.renderedFrames := s.state.renderedFrames + 1 }
    | _ => none
  | _ => none

/-- One step; `none` if it is not this step's turn. -/
def step (a : DisplayStep) : Option Display := (s.serverStep a).or (s.rendererStep a)

/-! ### What is still to be shown -/

/-- The renderer has the shared state and a surface to draw on. -/
def HasSurface : Prop := s.hasState = true ∧ s.state.surfaceAvailable = true

/-- The X server is in `lorieMoveCursor`. -/
def Moving : Prop :=
  match s.server with
  | .writingX _ _ | .writingY _ | .moving => True
  | _ => False

/-- What was copied is what is in the root window. -/
def HasRoot (buffer contents : ℕ) : Prop := buffer = s.root ∧ contents = s.contents s.root

/-- The frame has the cursor as it is. -/
def HasCursor (frame : Frame) : Prop :=
  frame.texture = some s.image ∧ frame.drawnAs = s.image ∧ frame.x = s.state.cursor.x ∧
    frame.y = s.state.cursor.y

/-- The frame that is being drawn, if it has come to copy a buffer, or else the one that is shown,
has the root window, or will have it. -/
def RootComing : Prop :=
  match s.renderer with
  | .idle | .chosen _ => ∃ frame ∈ s.shown, s.HasRoot frame.buffer frame.contents
  | .locked buffer => buffer = s.root
  | .copied buffer contents | .updating buffer contents | .textured buffer contents
  | .unmoved buffer contents => s.HasRoot buffer contents
  | .drawn frame | .unlocked frame => s.HasRoot frame.buffer frame.contents

/-- The frame that is being drawn, or else the one that is shown, has the cursor or will have it. -/
def CursorComing : Prop :=
  match s.renderer with
  | .idle => ∃ frame ∈ s.shown, s.HasCursor frame
  | .drawn frame | .unlocked frame => s.HasCursor frame
  | _ => True

/-- What is in the root window is not lost: there is damage, or a frame is asked for or coming. -/
def RootKept : Prop :=
  s.HasSurface → s.damage = true ∨ s.state.drawRequested = true ∨ s.RootComing

/-- The cursor is not lost: a frame is asked for or about to be, or it is coming. -/
def CursorKept : Prop :=
  s.HasSurface → s.state.wantsFrame = true ∨ s.Moving ∨ s.CursorComing

/-- The request is lowered for a frame of a buffer that is not the root window's, after
`lorieRedraw` has made the damage into the request. -/
def Overtaken (s : Display) : DisplayStep → Prop
  | .lock => s.damage = false ∧ ∃ buffer, s.renderer = .chosen buffer ∧ buffer ≠ s.root
  | _ => False

/-- Something else is drawn into the root window, in a buffer that damage is not registered on,
while nothing asks for a frame and the renderer is not just about to copy. -/
def Unnoticed (s : Display) : DisplayStep → Prop
  | .draw buffer contents =>
    s.HasSurface ∧ (buffer = s.root ∧ s.root ≠ s.screen ∧ contents ≠ s.contents s.root) ∧
      s.damage = false ∧ s.state.drawRequested = false ∧ s.renderer.isLocked = false
  | _ => False

instance (s : Display) : Decidable s.HasSurface := inferInstanceAs (Decidable (_ ∧ _))

instance (s : Display) : (a : DisplayStep) → Decidable (s.Overtaken a)
  | .lock =>
    match h : s.renderer with
    | .chosen buffer =>
      decidable_of_iff (s.damage = false ∧ buffer ≠ s.root) (by simp [Overtaken, h])
    | .idle | .locked _ | .copied _ _ | .updating _ _ | .textured _ _ | .unmoved _ _ | .drawn _
    | .unlocked _ => .isFalse (by simp [Overtaken, h])
  | .draw _ _ | .flip _ | .unflip | .resize _ _ | .setCursor _ _ _ | .moveCursor _ _ | .writeX
  | .writeY | .setMoved | .beginRedraw | .performed | .test | .request | .look | .setTexture
  | .connected | .hangUp | .leave | .takeOver | .window _ | .setViewport | .choose | .copy
  | .readUpdated | .upload | .clearMoved | .drawCursor | .unlock | .swap => .isFalse id

instance (s : Display) : (a : DisplayStep) → Decidable (s.Unnoticed a)
  | .draw buffer contents =>
    inferInstanceAs (Decidable
      (s.HasSurface ∧ (buffer = s.root ∧ s.root ≠ s.screen ∧ contents ≠ s.contents s.root) ∧
        s.damage = false ∧ s.state.drawRequested = false ∧ s.renderer.isLocked = false))
  | .flip _ | .unflip | .resize _ _ | .setCursor _ _ _ | .moveCursor _ _ | .writeX | .writeY
  | .setMoved | .beginRedraw | .performed | .test | .request | .look | .setTexture | .connected
  | .hangUp | .leave | .takeOver | .window _ | .setViewport | .choose | .lock | .copy
  | .readUpdated | .upload | .clearMoved | .drawCursor | .unlock | .swap => .isFalse id

/-- A frame is drawn on a surface; the texture has the picture of the cursor or is to get it; the
first frame after a connection is asked for. -/
structure Consistent (s : Display) : Prop where
  frame : s.renderer ≠ .idle → s.HasSurface
  texture : s.HasSurface → s.state.cursor.updated = true ∨ s.texture = some s.image
  connected : s.connectionAlive = true → s.hasState = false →
    s.state.drawRequested = true ∧ s.state.cursor.updated = true

variable {s} {s' : Display} {a : DisplayStep} {place : ServerPlace}

theorem serverAt_eq_some {t : Display} :
    s.serverAt place t = some s' ↔ s.server = place ∧ t = s' := by
  unfold serverAt
  split_ifs with h <;> simp [h]

theorem consistent_serverStep (h : s.Consistent) (hs : s.serverStep a = some s') :
    s'.Consistent := by
  obtain ⟨hframe, htexture, hconnected⟩ := h
  unfold HasSurface at hframe htexture
  cases a <;> simp only [serverStep, serverAt_eq_some, reduceCtorEq] at hs
  case draw | flip | unflip =>
    split_ifs at hs
    obtain rfl := Option.some.inj hs
    exact ⟨hframe, htexture, hconnected⟩
  case connected =>
    split_ifs at hs with hstate
    rw [serverAt_eq_some] at hs
    obtain ⟨-, rfl⟩ := hs
    rw [Bool.not_eq_true] at hstate
    refine ⟨hframe, fun hsurface => .inl rfl, fun _ _ => ⟨rfl, rfl⟩⟩
  case request =>
    split at hs
    · obtain rfl := Option.some.inj hs
      refine ⟨hframe, htexture, fun halive hstate => ?_⟩
      obtain ⟨hrequested, hupdated⟩ := hconnected halive hstate
      exact ⟨by simp [hrequested], hupdated⟩
    · cases hs
  case writeX | writeY | performed | test | look | setTexture =>
    split at hs
    · obtain rfl := Option.some.inj hs
      exact ⟨hframe, htexture, hconnected⟩
    · cases hs
  case setCursor =>
    obtain ⟨-, rfl⟩ := hs
    exact ⟨hframe, fun _ => .inl rfl, fun halive hstate => ⟨(hconnected halive hstate).1, rfl⟩⟩
  all_goals
    obtain ⟨-, rfl⟩ := hs
    exact ⟨hframe, htexture, hconnected⟩

theorem refresh_of_noState (h : s.hasState = false) (win : Option Bool) :
    s.rendererRefreshContext win = { s with hasWindow := win.getD false, shown := none } := by
  simp [rendererRefreshContext, h]

theorem refresh_none (h : s.hasState = true) :
    s.rendererRefreshContext none =
      { s with hasWindow := false, shown := none, state.surfaceAvailable := false } := by
  simp [rendererRefreshContext, h]

theorem refresh_some (h : s.hasState = true) (isShown : Bool) :
    s.rendererRefreshContext (some isShown) =
      { s with
        hasWindow := isShown
        shown := none
        state.surfaceAvailable := isShown
        state.drawRequested := isShown
        state.cursor.updated := isShown } := by
  simp [rendererRefreshContext, h]

/-- A step of a frame. -/
theorem Consistent.draw (h : s.Consistent) (hplace : s.renderer ≠ .idle)
    (hstate : s'.hasState = s.hasState)
    (havailable : s'.state.surfaceAvailable = s.state.surfaceAvailable)
    (htexture : s'.state.cursor.updated = true ∨ s'.texture = some s'.image) : s'.Consistent := by
  have hsurface := h.frame hplace
  refine ⟨fun _ => ⟨hstate.trans hsurface.1, havailable.trans hsurface.2⟩, fun _ => htexture,
    fun _ hnot => ?_⟩
  rw [hstate, hsurface.1] at hnot
  cases hnot

theorem consistent_rendererStep (h : s.Consistent) (hs : s.rendererStep a = some s') :
    s'.Consistent := by
  cases a <;> simp only [rendererStep, reduceCtorEq] at hs
  case hangUp =>
    obtain rfl := Option.some.inj hs
    exact ⟨h.frame, h.texture, fun halive => nomatch halive⟩
  case leave =>
    obtain rfl := Option.some.inj hs
    exact ⟨fun hplace => absurd rfl hplace, fun hsurface => (nomatch hsurface.1),
      fun halive => nomatch halive⟩
  case takeOver =>
    split_ifs at hs with hguard
    obtain rfl := Option.some.inj hs
    obtain ⟨halive, hstate, hplace⟩ := hguard
    rw [Bool.not_eq_true] at hstate
    exact ⟨fun hnot => absurd hplace hnot, fun _ => .inl (h.connected halive hstate).2,
      fun _ hnot => nomatch hnot⟩
  case window win =>
    split_ifs at hs with hplace
    rw [← Option.some.inj hs]
    by_cases hstate : s.hasState = true
    · have hnot : s.hasState ≠ false := by simp [hstate]
      cases win with
      | none =>
        rw [refresh_none hstate]
        exact ⟨fun hnot => absurd hplace hnot, fun hsurface => (nomatch hsurface.2),
          fun _ h => absurd h hnot⟩
      | some isShown =>
        rw [refresh_some hstate]
        exact ⟨fun hnot => absurd hplace hnot, fun hsurface => .inl hsurface.2,
          fun _ h => absurd h hnot⟩
    · rw [Bool.not_eq_true] at hstate
      rw [refresh_of_noState hstate]
      exact ⟨fun hnot => absurd hplace hnot, h.texture, h.connected⟩
  case setViewport =>
    split_ifs at hs with hstate
    obtain rfl := Option.some.inj hs
    exact ⟨h.frame, h.texture, fun halive hnot => ⟨rfl, (h.connected halive hnot).2⟩⟩
  case choose =>
    split_ifs at hs with hguard
    obtain rfl := Option.some.inj hs
    obtain ⟨-, hstate, hdraw⟩ := hguard
    have hsurface : s.HasSurface := ⟨hstate, (Activity.RendererThread.canDraw_iff.1 hdraw).2.2⟩
    exact ⟨fun _ => hsurface, h.texture, h.connected⟩
  all_goals
    split at hs
    · next hplace =>
      obtain rfl := Option.some.inj hs
      have hdrawing : s.renderer ≠ .idle := by simp [hplace]
      first
      | exact h.draw hdrawing rfl rfl (h.texture (h.frame hdrawing))
      | exact h.draw hdrawing rfl rfl (.inr rfl)
    · cases hs

theorem consistent_step (h : s.Consistent) (hs : s.step a = some s') : s'.Consistent := by
  obtain hserver | ⟨-, hrenderer⟩ := Option.or_eq_some_iff.1 hs
  · exact consistent_serverStep h hserver
  · exact consistent_rendererStep h hrenderer

theorem consistent_start : ({} : Display).Consistent where
  frame h := absurd rfl h
  texture h := nomatch h.1
  connected h := nomatch h

/-! ### The root window -/

theorem rootComing_draw {buffer contents : ℕ} (hne : buffer ≠ s.root) (damage : Bool)
    (h : s.RootComing) :
    { s with
      contents := Function.update s.contents buffer contents
      damage := damage }.RootComing := by
  have hsame : Function.update s.contents buffer contents s.root = s.contents s.root :=
    Function.update_of_ne hne.symm ..
  unfold RootComing HasRoot at h ⊢
  dsimp only
  rw [hsame]
  exact h

/-- A renderer that is just about to copy the root window copies what is drawn there. -/
theorem rootComing_of_isLocked (hplace : s.renderer.isLocked = true) {contents : ℕ → ℕ}
    {damage : Bool} (h : s.RootComing) :
    { s with contents := contents, damage := damage }.RootComing := by
  unfold RootComing at h ⊢
  cases hrenderer : s.renderer <;>
    simp only [hrenderer, RendererPlace.isLocked, Bool.false_eq_true] at hplace h ⊢
  exact h

/-- What was copied is not what is drawn into the root window afterwards. -/
theorem not_rootComing_draw {contents : ℕ} (hne : contents ≠ s.contents s.root)
    (hplace : s.renderer.isLocked = false) (h : s.RootComing) (damage : Bool) :
    ¬ { s with
        contents := Function.update s.contents s.root contents
        damage := damage }.RootComing := by
  have hother : ∀ buffer copied, s.HasRoot buffer copied →
      ¬ HasRoot { s with
        contents := Function.update s.contents s.root contents
        damage := damage } buffer copied := by
    rintro buffer copied ⟨-, hcopied⟩ ⟨-, hnew⟩
    exact hne (((Function.update_self ..).symm.trans hnew.symm).trans hcopied)
  unfold RootComing at h ⊢
  cases hrenderer : s.renderer <;>
    simp only [hrenderer, RendererPlace.isLocked, Bool.true_eq_false] at hplace h ⊢
  case idle | chosen =>
    obtain ⟨frame, hframe, hroot⟩ := h
    rintro ⟨frame', hframe', hroot'⟩
    obtain rfl := Option.mem_unique hframe hframe'
    exact hother _ _ hroot hroot'
  all_goals exact hother _ _ h

/-- A drawing that raises damage, that another buffer gets, or that changes nothing. -/
theorem rootKept_draw {buffer contents : ℕ} (hR : s.RootKept)
    (hfine : ¬ s.Unnoticed (.draw buffer contents)) :
    { s with
      contents := Function.update s.contents buffer contents
      damage := s.damage || buffer = s.screen }.RootKept := by
  intro hsurface
  obtain hdamage | hrequested | hcoming := hR hsurface
  · exact .inl (by simp [hdamage])
  · exact .inr (.inl hrequested)
  by_cases hroot : buffer = s.root
  · by_cases hscreen : s.root = s.screen
    · exact .inl (by simp [hroot, hscreen])
    by_cases hsame : contents = s.contents s.root
    · refine .inr (.inr ?_)
      rw [hroot, hsame, Function.update_eq_self]
      exact hcoming
    by_cases hdamage : s.damage = true
    · exact .inl (by simp [hdamage])
    by_cases hrequested : s.state.drawRequested = true
    · exact .inr (.inl hrequested)
    refine .inr (.inr (rootComing_of_isLocked ?_ hcoming))
    by_contra hplace
    rw [Bool.not_eq_true] at hdamage hrequested hplace
    exact hfine ⟨hsurface, ⟨hroot, hscreen, hsame⟩, hdamage, hrequested, hplace⟩
  · exact .inr (.inr (rootComing_draw hroot _ hcoming))

theorem rootKept_serverStep (hR : s.RootKept) (hfine : ¬ s.Unnoticed a)
    (hs : s.serverStep a = some s') : s'.RootKept := by
  cases a <;> simp only [serverStep, serverAt_eq_some, reduceCtorEq] at hs
  case draw buffer contents =>
    split_ifs at hs
    obtain rfl := Option.some.inj hs
    exact rootKept_draw hR hfine
  case flip | unflip =>
    split_ifs at hs
    obtain rfl := Option.some.inj hs
    exact fun _ => .inl rfl
  case resize =>
    obtain ⟨-, rfl⟩ := hs
    exact fun _ => .inl rfl
  case request =>
    split at hs
    · obtain rfl := Option.some.inj hs
      intro hsurface
      obtain hdamage | hrequested | hcoming := hR hsurface
      · exact .inr (.inl (by simp [hdamage]))
      · exact .inr (.inl (by simp [hrequested]))
      · exact .inr (.inr hcoming)
    · cases hs
  case writeX | writeY | performed | test | look | setTexture =>
    split at hs
    · obtain rfl := Option.some.inj hs
      exact hR
    · cases hs
  case connected =>
    split_ifs at hs
    rw [serverAt_eq_some] at hs
    obtain ⟨-, rfl⟩ := hs
    exact fun _ => .inr (.inl rfl)
  all_goals
    obtain ⟨-, rfl⟩ := hs
    exact hR

theorem rootKept_window (s : Display) (win : Option Bool) :
    (s.rendererRefreshContext win).RootKept := by
  by_cases hstate : s.hasState = true
  · cases win with
    | none =>
      rw [refresh_none hstate]
      exact fun hsurface => nomatch hsurface.2
    | some isShown =>
      rw [refresh_some hstate]
      exact fun hsurface => .inr (.inl hsurface.2)
  · rw [Bool.not_eq_true] at hstate
    rw [refresh_of_noState hstate]
    exact fun hsurface => nomatch hstate.symm.trans hsurface.1

theorem rootKept_rendererStep (h : s.Consistent) (hR : s.RootKept) (hfine : ¬ s.Overtaken a)
    (hs : s.rendererStep a = some s') : s'.RootKept := by
  cases a <;> simp only [rendererStep, reduceCtorEq] at hs
  case hangUp =>
    obtain rfl := Option.some.inj hs
    exact hR
  case leave =>
    obtain rfl := Option.some.inj hs
    exact fun hsurface => nomatch hsurface.1
  case takeOver =>
    split_ifs at hs with hguard
    obtain rfl := Option.some.inj hs
    exact fun _ => .inr (.inl (h.connected hguard.1 (Bool.not_eq_true _ ▸ hguard.2.1)).1)
  case window win =>
    split_ifs at hs
    rw [← Option.some.inj hs]
    exact rootKept_window s win
  case setViewport =>
    split_ifs at hs
    obtain rfl := Option.some.inj hs
    exact fun _ => .inr (.inl rfl)
  case choose =>
    split_ifs at hs with hguard
    obtain rfl := Option.some.inj hs
    intro hsurface
    have hkept := hR hsurface
    unfold RootComing at hkept ⊢
    rw [hguard.1] at hkept
    exact hkept
  case lock =>
    split at hs
    · next buffer hplace =>
      obtain rfl := Option.some.inj hs
      intro _
      by_cases hdamage : s.damage = true
      · exact .inl hdamage
      · refine .inr (.inr (show buffer = s.root from ?_))
        by_contra hne
        exact hfine ⟨by simpa using hdamage, buffer, hplace, hne⟩
    · cases hs
  case copy =>
    split at hs
    · next hplace =>
      obtain rfl := Option.some.inj hs
      intro hsurface
      have hkept := hR hsurface
      unfold RootComing at hkept ⊢
      rw [hplace] at hkept
      exact hkept.imp_right (Or.imp_right fun hroot => ⟨hroot, congrArg s.contents hroot⟩)
    · cases hs
  case readUpdated =>
    split at hs
    · next hplace =>
      obtain rfl := Option.some.inj hs
      intro hsurface
      have hkept := hR hsurface
      unfold RootComing at hkept ⊢
      rw [hplace] at hkept
      dsimp only
      split_ifs
      · exact hkept
      · exact hkept
    · cases hs
  case swap =>
    split at hs
    · next frame hplace =>
      obtain rfl := Option.some.inj hs
      intro hsurface
      have hkept := hR hsurface
      unfold RootComing at hkept ⊢
      rw [hplace] at hkept
      exact hkept.imp_right (Or.imp_right fun hroot => ⟨frame, rfl, hroot⟩)
    · cases hs
  all_goals
    split at hs
    · next hplace =>
      obtain rfl := Option.some.inj hs
      intro hsurface
      have hkept := hR hsurface
      unfold RootComing at hkept ⊢
      rw [hplace] at hkept
      exact hkept
    · cases hs

/-- Every step keeps what is in the root window, unless it lowers a request that has been overtaken,
or draws unnoticed. -/
theorem rootKept_step (h : s.Consistent) (hR : s.RootKept)
    (hfine : ¬ s.Overtaken a ∧ ¬ s.Unnoticed a) (hs : s.step a = some s') : s'.RootKept := by
  obtain hserver | ⟨-, hrenderer⟩ := Option.or_eq_some_iff.1 hs
  · exact rootKept_serverStep hR hfine.2 hserver
  · exact rootKept_rendererStep h hR hfine.1 hrenderer

/-- After a request that has been overtaken, nothing asks for what is in the root window. -/
theorem not_rootKept_of_overtaken (h : s.Consistent) (hovertaken : s.Overtaken a)
    (hs : s.step a = some s') : ¬ s'.RootKept := by
  cases a with
  | lock =>
    obtain ⟨hdamage, buffer, hplace, hne⟩ := hovertaken
    have hsurface := h.frame (by simp [hplace])
    simp only [step, serverStep, rendererStep, hplace, Option.none_or, Option.some.injEq] at hs
    subst hs
    intro hkept
    obtain h | h | h := hkept hsurface
    · exact Bool.false_ne_true (hdamage.symm.trans h)
    · exact Bool.false_ne_true h
    · exact hne h
  | _ => cases hovertaken

theorem not_rootKept_of_unnoticed (hR : s.RootKept) (hunnoticed : s.Unnoticed a)
    (hs : s.step a = some s') : ¬ s'.RootKept := by
  cases a with
  | draw buffer contents =>
    obtain ⟨hsurface, ⟨rfl, hscreen, hne⟩, hdamage, hrequested, hplace⟩ := hunnoticed
    have hcoming := (hR hsurface).resolve_left (by simp [hdamage])
    have hcoming := hcoming.resolve_left (by simp [hrequested])
    simp only [step, serverStep, decide_eq_true hscreen, Bool.or_true, if_true, Option.some_or,
      Option.some.injEq] at hs
    subst hs
    intro hkept
    obtain h | h | h := hkept hsurface
    · rw [hdamage, Bool.false_or] at h
      exact hscreen (of_decide_eq_true h)
    · exact Bool.false_ne_true (hrequested.symm.trans h)
    · exact not_rootComing_draw hne hplace hcoming _ h
  | _ => cases hunnoticed

theorem rootKept_start : ({} : Display).RootKept := fun h => nomatch h.1

/-! ### The cursor -/

theorem wantsFrame_iff : s.state.wantsFrame = true ↔
    s.state.drawRequested = true ∨ s.state.cursor.moved = true ∨ s.state.cursor.updated = true := by
  rw [SharedServerState.wantsFrame, Bool.or_eq_true, Bool.or_eq_true, or_assoc]

theorem cursorKept_serverStep (hR : s.CursorKept) (hs : s.serverStep a = some s') :
    s'.CursorKept := by
  cases a <;> simp only [serverStep, serverAt_eq_some, reduceCtorEq] at hs
  case resize | setMoved =>
    obtain ⟨-, rfl⟩ := hs
    exact fun _ => .inl (wantsFrame_iff.2 (.inr (.inl rfl)))
  case setCursor =>
    obtain ⟨-, rfl⟩ := hs
    exact fun _ => .inl (wantsFrame_iff.2 (.inr (.inr rfl)))
  case moveCursor =>
    obtain ⟨-, rfl⟩ := hs
    exact fun _ => .inr (.inl trivial)
  case writeX | writeY =>
    split at hs
    · obtain rfl := Option.some.inj hs
      exact fun _ => .inr (.inl trivial)
    · cases hs
  case connected =>
    split_ifs at hs
    rw [serverAt_eq_some] at hs
    obtain ⟨-, rfl⟩ := hs
    exact fun _ => .inl (wantsFrame_iff.2 (.inl rfl))
  case draw | flip | unflip =>
    split_ifs at hs
    obtain rfl := Option.some.inj hs
    exact hR
  case beginRedraw =>
    obtain ⟨hplace, rfl⟩ := hs
    intro hsurface
    obtain hwants | hmoving | hcoming := hR hsurface
    · exact .inl hwants
    · unfold Moving at hmoving
      rw [hplace] at hmoving
      exact hmoving.elim
    · exact .inr (.inr hcoming)
  all_goals
    split at hs
    · next hplace =>
      obtain rfl := Option.some.inj hs
      intro hsurface
      obtain hwants | hmoving | hcoming := hR hsurface
      · refine .inl (wantsFrame_iff.2 ((wantsFrame_iff.1 hwants).imp_left fun h => ?_))
        simp [h]
      · unfold Moving at hmoving
        rw [hplace] at hmoving
        exact hmoving.elim
      · exact .inr (.inr hcoming)
    · cases hs

theorem cursorKept_window (s : Display) (win : Option Bool) :
    (s.rendererRefreshContext win).CursorKept := by
  by_cases hstate : s.hasState = true
  · cases win with
    | none =>
      rw [refresh_none hstate]
      exact fun hsurface => nomatch hsurface.2
    | some isShown =>
      rw [refresh_some hstate]
      exact fun hsurface => .inl (wantsFrame_iff.2 (.inl hsurface.2))
  · rw [Bool.not_eq_true] at hstate
    rw [refresh_of_noState hstate]
    exact fun hsurface => nomatch hstate.symm.trans hsurface.1

theorem cursorKept_rendererStep (h : s.Consistent) (hR : s.CursorKept)
    (hs : s.rendererStep a = some s') : s'.CursorKept := by
  cases a <;> simp only [rendererStep, reduceCtorEq] at hs
  case hangUp =>
    obtain rfl := Option.some.inj hs
    exact hR
  case leave =>
    obtain rfl := Option.some.inj hs
    exact fun hsurface => nomatch hsurface.1
  case takeOver =>
    split_ifs at hs with hguard
    obtain rfl := Option.some.inj hs
    refine fun _ => .inl (wantsFrame_iff.2 (.inl ?_))
    exact (h.connected hguard.1 (Bool.not_eq_true _ ▸ hguard.2.1)).1
  case window win =>
    split_ifs at hs
    rw [← Option.some.inj hs]
    exact cursorKept_window s win
  case setViewport =>
    split_ifs at hs
    obtain rfl := Option.some.inj hs
    exact fun _ => .inl (wantsFrame_iff.2 (.inl rfl))
  case choose =>
    split_ifs at hs
    obtain rfl := Option.some.inj hs
    exact fun _ => .inr (.inr trivial)
  case readUpdated =>
    split at hs
    · obtain rfl := Option.some.inj hs
      refine fun _ => .inr (.inr ?_)
      unfold CursorComing
      dsimp only
      split_ifs
      · trivial
      · trivial
    · cases hs
  case drawCursor =>
    split at hs
    · obtain rfl := Option.some.inj hs
      intro hsurface
      obtain hupdated | htexture := h.texture hsurface
      · exact .inl (wantsFrame_iff.2 (.inr (.inr hupdated)))
      · exact .inr (.inr ⟨htexture, rfl, rfl, rfl⟩)
    · cases hs
  case unlock =>
    split at hs
    · next hplace =>
      obtain rfl := Option.some.inj hs
      intro hsurface
      have hkept := hR hsurface
      unfold CursorComing at hkept ⊢
      rw [hplace] at hkept
      exact hkept
    · cases hs
  case swap =>
    split at hs
    · next frame hplace =>
      obtain rfl := Option.some.inj hs
      intro hsurface
      have hkept := hR hsurface
      unfold CursorComing at hkept ⊢
      rw [hplace] at hkept
      exact hkept.imp_right (Or.imp_right fun hcursor => ⟨frame, rfl, hcursor⟩)
    · cases hs
  all_goals
    split at hs
    · obtain rfl := Option.some.inj hs
      exact fun _ => .inr (.inr trivial)
    · cases hs

theorem cursorKept_step (h : s.Consistent) (hR : s.CursorKept) (hs : s.step a = some s') :
    s'.CursorKept := by
  obtain hserver | ⟨-, hrenderer⟩ := Option.or_eq_some_iff.1 hs
  · exact cursorKept_serverStep hR hserver
  · exact cursorKept_rendererStep h hR hrenderer

theorem cursorKept_start : ({} : Display).CursorKept := fun h => nomatch h.1


/-! ### Runs -/

/-- **No drawing is lost.**  In every run, what is in the root window is kept for a frame in every
state exactly if the renderer never lowers the request when it has been overtaken, and nothing is
drawn unnoticed.  A request is overtaken when the root window has become another buffer since
`lorieRedraw` took the one that the renderer chose to copy, and the damage of that has been made
into the request already. -/
theorem rootKept_iff {steps : List DisplayStep} (h : tryExec step {} steps = some s) :
    (∀ as₁ as₂ t, steps = as₁ ++ as₂ → tryExec step {} as₁ = some t → t.RootKept) ↔
      TryAlways step (fun s a => ¬ s.Overtaken a ∧ ¬ s.Unnoticed a) {} steps :=
  reached_iff_of_kept (I := fun s => s.Consistent ∧ s.RootKept) (R := RootKept) (fun _ hI => hI.2)
    (fun _ _ _ hI hfine hs => ⟨consistent_step hI.1 hs, rootKept_step hI.1 hI.2 hfine hs⟩)
    (fun _ _ _ hI hnot hs => by
      obtain hovertaken | hunnoticed := not_and_or.1 hnot
      · exact not_rootKept_of_overtaken hI.1 (not_not.1 hovertaken) hs
      · exact not_rootKept_of_unnoticed hI.2 (not_not.1 hunnoticed) hs)
    ⟨consistent_start, rootKept_start⟩ h

/-- A window, a connection, and a first frame. -/
def firstFrame : List DisplayStep :=
  [.window (some true), .connected, .takeOver, .beginRedraw, .performed, .test, .request, .look,
    .setTexture, .choose, .lock, .copy, .readUpdated, .upload, .clearMoved, .drawCursor, .unlock,
    .swap]

/-- The root window becomes another buffer while the vblanks are performed. -/
def flipsOver : List DisplayStep :=
  firstFrame ++ [.draw 2 5, .beginRedraw, .flip 2, .performed, .test, .request, .look, .setTexture,
    .choose, .lock]

theorem rootKept_iff_flipsOver :
    (∀ as₁ as₂ t, flipsOver = as₁ ++ as₂ → tryExec step {} as₁ = some t → t.RootKept) ↔
      TryAlways step (fun s a => ¬ s.Overtaken a ∧ ¬ s.Unnoticed a) {} flipsOver :=
  rootKept_iff (Option.some_get (by decide +kernel)).symm

/-- Nothing is asked for, and neither process is doing anything about it. -/
structure AtRest (s : Display) : Prop where
  server : s.server = .idle
  renderer : s.renderer = .idle
  damage : s.damage = false
  wantsFrame : s.state.wantsFrame = false

theorem AtRest.drawRequested (h : s.AtRest) : s.state.drawRequested = false := by
  by_contra hnot
  rw [Bool.not_eq_false] at hnot
  exact Bool.false_ne_true (h.wantsFrame.symm.trans (wantsFrame_iff.2 (.inl hnot)))

theorem AtRest.hasCursor (h : s.AtRest) (hsurface : s.HasSurface) (hkept : s.CursorKept) :
    ∃ frame ∈ s.shown, s.HasCursor frame := by
  have hkept := hkept hsurface
  unfold Moving CursorComing at hkept
  rw [h.wantsFrame, h.server, h.renderer] at hkept
  exact (hkept.resolve_left Bool.false_ne_true).resolve_left id

theorem AtRest.hasRoot (h : s.AtRest) (hsurface : s.HasSurface) (hkept : s.RootKept) :
    ∃ frame ∈ s.shown, s.HasRoot frame.buffer frame.contents := by
  have hkept := hkept hsurface
  unfold RootComing at hkept
  rw [h.damage, h.drawRequested, h.renderer] at hkept
  exact (hkept.resolve_left Bool.false_ne_true).resolve_left Bool.false_ne_true

theorem kept_of_run {steps : List DisplayStep} (h : tryExec step {} steps = some s) :
    s.Consistent ∧ s.CursorKept :=
  tryExec_invariant (I := fun s => s.Consistent ∧ s.CursorKept) (P := fun _ _ => True)
    (fun _ _ _ hI _ hs => ⟨consistent_step hI.1 hs, cursorKept_step hI.1 hI.2 hs⟩)
    ⟨consistent_start, cursorKept_start⟩ (tryAlways_true _ _) h

theorem rootKept_of_run {steps : List DisplayStep} (h : tryExec step {} steps = some s)
    (hfine : TryAlways step (fun s a => ¬ s.Overtaken a ∧ ¬ s.Unnoticed a) {} steps) :
    s.RootKept :=
  (tryExec_invariant (I := fun s => s.Consistent ∧ s.RootKept)
    (fun _ _ _ hI hP hs => ⟨consistent_step hI.1 hs, rootKept_step hI.1 hI.2 hP hs⟩)
    ⟨consistent_start, rootKept_start⟩ hfine h).2

/-- **At rest the cursor is shown as it is.**  In every run, when nothing is asked for on a surface,
the frame that is shown has the picture of the cursor, its hot spot and its position; no order of
the steps of the two processes loses any of them. -/
theorem cursor_shown_at_rest {steps : List DisplayStep} (h : tryExec step {} steps = some s)
    (hsurface : s.HasSurface) (hrest : s.AtRest) : ∃ frame ∈ s.shown, s.HasCursor frame :=
  hrest.hasCursor hsurface (kept_of_run h).2

instance (s : Display) : Decidable s.AtRest :=
  decidable_of_iff (s.server = .idle ∧ s.renderer = .idle ∧ s.damage = false ∧
    s.state.wantsFrame = false) ⟨fun ⟨h₁, h₂, h₃, h₄⟩ => ⟨h₁, h₂, h₃, h₄⟩,
      fun ⟨h₁, h₂, h₃, h₄⟩ => ⟨h₁, h₂, h₃, h₄⟩⟩

/-- The cursor gets another picture while a frame is drawn, and moves. -/
def cursorChanges : List DisplayStep :=
  firstFrame ++ [.draw 1 5, .beginRedraw, .performed, .test, .request, .look, .setTexture, .choose,
    .lock, .copy, .readUpdated, .setCursor 7 30 40, .writeX, .clearMoved, .drawCursor, .writeY,
    .setMoved, .unlock, .swap, .beginRedraw, .performed, .test, .request, .look, .setTexture,
    .choose, .lock, .copy, .readUpdated, .upload, .clearMoved, .drawCursor, .unlock, .swap]

theorem cursor_shown_cursorChanges : ∃ s, tryExec step {} cursorChanges = some s ∧
    ∃ frame ∈ s.shown, s.HasCursor frame := by
  obtain ⟨s, hs⟩ := Option.isSome_iff_exists.1
    (show (tryExec step {} cursorChanges).isSome = true by decide +kernel)
  have hstate : ((tryExec step {} cursorChanges).map fun s =>
      (decide s.HasSurface, decide s.AtRest)) = some (true, true) := by decide +kernel
  rw [hs, Option.map_some, Option.some.injEq, Prod.mk.injEq] at hstate
  exact ⟨s, hs, cursor_shown_at_rest hs (of_decide_eq_true hstate.1) (of_decide_eq_true hstate.2)⟩

/-! ### A redraw and a frame that nothing disturbs -/

/-- `lorieRedraw`, if no vblank is due. -/
def lorieRedraw (s : Display) : Display :=
  let s₁ := { s with state.waitForNextFrame := false }
  if s.connectionAlive && s.state.surfaceAvailable then
    let s₂ := { s₁ with
      damage := false
      state.drawRequested := s₁.state.drawRequested || s₁.damage }
    if s₂.state.wantsFrame then { s₂ with state.rootWindowTextureID := s₂.root } else s₂
  else s₁

/-- `rendererRedrawLocked`, of a buffer that is there and of the expected size. -/
def rendererRedrawLocked (s : Display) : Display :=
  let texture := if s.state.cursor.updated then some s.image else s.texture
  { s with
    texture := texture
    shown := some
      { buffer := s.state.rootWindowTextureID
        contents := s.contents s.state.rootWindowTextureID
        texture := texture
        drawnAs := s.image
        x := s.state.cursor.x
        y := s.state.cursor.y }
    state.drawRequested := false
    state.waitForNextFrame := true
    state.renderedFrames := s.state.renderedFrames + 1
    state.cursor.updated := false
    state.cursor.moved := false }

/-- What it leaves of the shared state is what the loop of the renderer thread has it leave. -/
theorem state_rendererRedrawLocked {t : Activity.RendererThread} {buffer : Activity.LorieBuffer}
    {description : ℕ → Activity.Size}
    (hchosen : t.lists.chosen s.state.rootWindowTextureID = some buffer)
    (hexpected : (description buffer.ref).Expected t.viewport.x.expected t.viewport.y.expected) :
    (t.rendererRedrawLocked description s.state).state = some s.rendererRedrawLocked.state := by
  simp only [Activity.RendererThread.rendererRedrawLocked, hchosen, if_pos hexpected]
  rfl

/-- The steps of `lorieRedraw`, if no other step comes between them. -/
def redrawSteps (s : Display) : List DisplayStep :=
  if s.connectionAlive && s.state.surfaceAvailable then
    if s.lorieRedraw.state.wantsFrame then
      [.beginRedraw, .performed, .test, .request, .look, .setTexture]
    else [.beginRedraw, .performed, .test, .request, .look]
  else [.beginRedraw, .performed, .test]

/-- The steps of `rendererRedrawLocked`, if no other step comes between them. -/
def frameSteps (s : Display) : List DisplayStep :=
  if s.state.cursor.updated then
    [.choose, .lock, .copy, .readUpdated, .upload, .clearMoved, .drawCursor, .unlock, .swap]
  else [.choose, .lock, .copy, .readUpdated, .clearMoved, .drawCursor, .unlock, .swap]

theorem tryExec_redrawSteps (h : s.server = .idle) :
    tryExec step s s.redrawSteps = some s.lorieRedraw := by
  unfold redrawSteps
  split_ifs with halive hwants
  · simp only [lorieRedraw, halive, if_true] at hwants ⊢
    obtain ⟨halive, havailable⟩ := Bool.and_eq_true_iff.1 halive
    split_ifs at hwants ⊢ with hflag
    · rw [havailable] at hflag
      simp [tryExec, step, serverStep, serverAt, h, halive, havailable, hflag]
    · exact absurd hwants hflag
  · simp only [lorieRedraw, halive, if_true] at hwants ⊢
    obtain ⟨halive, havailable⟩ := Bool.and_eq_true_iff.1 halive
    split_ifs at hwants ⊢ with hflag
    · exact absurd hflag hwants
    · rw [havailable, Bool.not_eq_true] at hflag
      simp [tryExec, step, serverStep, serverAt, h, halive, havailable, hflag]
  · simp only [lorieRedraw, halive, Bool.false_eq_true, if_false]
    simpa [tryExec, step, serverStep, serverAt, h] using halive

theorem tryExec_frameSteps (h : s.renderer = .idle) (hstate : s.hasState = true)
    (hdraw : s.state.canDraw = true) :
    tryExec step s s.frameSteps = some s.rendererRedrawLocked := by
  unfold frameSteps
  split_ifs with hupdated
  · simp [tryExec, step, serverStep, rendererStep, rendererRedrawLocked, h, hstate, hdraw, hupdated]
  · simp [tryExec, step, serverStep, rendererStep, rendererRedrawLocked, h, hstate, hdraw, hupdated]

/-- What `lorieRedraw` leaves. -/
theorem lorieRedraw_of_surface (h : s.HasSurface) (halive : s.connectionAlive = true) :
    ∃ texture, s.lorieRedraw = { s with
        damage := false
        state.waitForNextFrame := false
        state.drawRequested := s.state.drawRequested || s.damage
        state.rootWindowTextureID := texture } ∧
      (s.lorieRedraw.state.wantsFrame = true → texture = s.root) := by
  have hgoes : (s.connectionAlive && s.state.surfaceAvailable) = true := by rw [halive, h.2]; rfl
  simp only [lorieRedraw, hgoes, if_true]
  split_ifs with hwants
  · exact ⟨s.root, rfl, fun _ => rfl⟩
  · exact ⟨_, rfl, fun h => absurd h hwants⟩

theorem kept_of_mem_redrawSteps (h : a ∈ s.redrawSteps) (t : Display) :
    ¬ t.Overtaken a ∧ ¬ t.Unnoticed a := by
  cases a with
  | lock | draw =>
    unfold redrawSteps at h
    split_ifs at h <;> simp at h
  | _ => exact ⟨id, id⟩

theorem atRest_rendererRedrawLocked (hserver : s.server = .idle) (hrenderer : s.renderer = .idle)
    (hdamage : s.damage = false) : s.rendererRedrawLocked.AtRest :=
  ⟨hserver, hrenderer, hdamage, rfl⟩

theorem hasCursor_rendererRedrawLocked (h : s.Consistent) (hsurface : s.HasSurface) :
    ∃ frame ∈ s.rendererRedrawLocked.shown, s.rendererRedrawLocked.HasCursor frame := by
  refine ⟨_, rfl, ?_, rfl, rfl, rfl⟩
  obtain hupdated | htexture := h.texture hsurface
  · exact if_pos hupdated
  · show (if s.state.cursor.updated then some s.image else s.texture) = some s.image
    rw [htexture, ite_self]

/-- Drawing, another root window and a movement of the cursor, all after a frame. -/
def drawsOn : List DisplayStep :=
  firstFrame ++ [.draw 1 5, .draw 2 9, .flip 2, .moveCursor 3 4, .writeX, .writeY, .setMoved]

end Display

end TermuxX11.Shared
