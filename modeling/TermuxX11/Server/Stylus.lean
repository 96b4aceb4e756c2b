import TermuxX11.Lib.Ledger
import TermuxX11.Lib.Run

/-!
# Stylus events

The case `EVENT_STYLUS` of `handleLorieEvents`: a message moves the mouse, the pen or the eraser
and queues the buttons whose bits differ from those of the message before, whatever device that
was for.  Where the device changes only while no button is held, every device has the buttons of
its own messages.
-/

namespace TermuxX11.Server

open Run Ledger

/-! ### Messages and queued events -/

/-- The pointer devices that a message can be for. -/
inductive StylusDevice
  | lorieMouse | loriePen | lorieEraser
  deriving DecidableEq, Repr

/-- The member `stylus` of a `lorieEvent`; a `float` is the number it stands for. -/
structure StylusEvent where
  x : ℚ := 0
  y : ℚ := 0
  pressure : UInt16 := 0
  tiltX : Int8 := 0
  tiltY : Int8 := 0
  orientation : Int16 := 0
  buttons : BitVec 8 := 0
  eraser : UInt8 := 0
  mouse : UInt8 := 0

/-- `device`. -/
def StylusEvent.device (e : StylusEvent) : StylusDevice :=
  if e.mouse ≠ 0 then .lorieMouse else if e.eraser ≠ 0 then .lorieEraser else .loriePen

/-- The flags of `QueuePointerEvents`. -/
inductive PointerFlag
  | relative | absolute | desktop | noRaw
  deriving DecidableEq, Repr

/-- The calls of `QueuePointerEvents`: `MotionNotify` with the valuators that are set in its
mask, `ButtonPress` and `ButtonRelease` with the number of the button. -/
inductive PointerEvent
  | motion (device : StylusDevice) (flags : List PointerFlag) (valuators : List (ℕ × ℚ))
  | button (device : StylusDevice) (down : Bool) (detail : ℕ) (flags : List PointerFlag)

/-! ### The handler -/

/-- The loop over the buttons: `n` rounds from the button `i + 1` on. -/
def queueButtons (device : StylusDevice) (released pressed : BitVec 32) (i : ℕ) :
    ℕ → List PointerEvent
  | 0 => []
  | n + 1 =>
    (if released &&& 1#32 ≠ 0#32 then [.button device false (i + 1) [.relative]] else []) ++
      (if pressed &&& 1#32 ≠ 0#32 then [.button device true (i + 1) [.relative]] else []) ++
      queueButtons device (released >>> 1) (pressed >>> 1) (i + 1) n

section

variable (width height : ℕ) (present : StylusDevice → Bool)

/-- The valuators of the motion: the place on the screen, and what a stylus has more than a mouse.
The mask is clear at the start of a callback; what an earlier message of the same callback has left
in it for a mouse is not here. -/
def StylusEvent.valuators (e : StylusEvent) : List (ℕ × ℚ) :=
  [(0, max (min e.x width) 0), (1, max (min e.y height) 0)] ++
    if e.device ≠ .lorieMouse then
      [(2, (e.pressure.toNat : ℚ)), (3, (e.tiltX.toInt : ℚ)), (4, (e.tiltY.toInt : ℚ)),
        (5, (e.orientation.toInt : ℚ))]
    else []

/-- `EVENT_STYLUS`, with the static `buttons_prev`: nothing is done for a device that is not
`present`. -/
def handleStylus (buttonsPrev : BitVec 32) (e : StylusEvent) : BitVec 32 × List PointerEvent :=
  if present e.device then
    let buttons := e.buttons.setWidth 32
    let diff := buttonsPrev ^^^ buttons
    let released := diff &&& ~~~ buttons
    let pressed := diff &&& buttons
    (buttons,
      .motion e.device
          ([.absolute, .desktop] ++ if e.device = .lorieMouse then [.noRaw] else [])
          (e.valuators width height) ::
        queueButtons e.device released pressed 0 3)
  else (buttonsPrev, [])

/-- The static of the handler, and all that was queued. -/
structure Stylus where
  buttonsPrev : BitVec 32 := 0
  queued : List PointerEvent := []

/-- One message. -/
def Stylus.step (s : Stylus) (e : StylusEvent) : Stylus where
  buttonsPrev := (handleStylus width height present s.buttonsPrev e).1
  queued := s.queued ++ (handleStylus width height present s.buttonsPrev e).2

end

/-! ### The buttons of the devices -/

/-- The presses and releases among the queued events. -/
def buttonEvents (evs : List PointerEvent) : List ((StylusDevice × ℕ) × Bool) :=
  evs.filterMap fun
    | .motion .. => none
    | .button device down detail _ => some ((device, detail), down)

/-- The button is down on the device. -/
def Stylus.Down (s : Stylus) (device : StylusDevice) (button : ℕ) : Prop :=
  Ledger.Down (buttonEvents s.queued) (device, button)

instance (s : Stylus) (device : StylusDevice) (button : ℕ) : Decidable (s.Down device button) :=
  inferInstanceAs (Decidable (Ledger.Down _ _))

/-- After the message the device that it is for has the buttons of its low three bits, and if it
has no bits no button is down at all. -/
structure StylusEvent.Tracked (e : StylusEvent) (s : Stylus) : Prop where
  addressed : ∀ i < 3, s.Down e.device (i + 1) ↔ e.buttons.getLsbD i = true
  lifted : e.buttons = 0 → ∀ device button, ¬ s.Down device button

/-- The low three bits are zero. -/
def StylusEvent.Idle (e : StylusEvent) : Prop := ∀ i < 3, e.buttons.getLsbD i = false

/-- The bit of a button. -/
def buttonBit (mask : BitVec 32) (button : ℕ) : Bool := mask.getLsbD (button - 1)

theorem and_one_ne_zero_iff (x : BitVec 32) : x &&& 1#32 ≠ 0#32 ↔ x.getLsbD 0 = true := by
  rw [BitVec.and_one_eq_setWidth_ofBool_getLsbD]
  cases x.getLsbD 0 <;> decide

/-- A round queues the change of one button. -/
theorem buttonEvents_queueButtons (device : StylusDevice) (saved current : BitVec 32) {i n : ℕ}
    (hn : i + n ≤ 32) :
    buttonEvents (queueButtons device (((saved ^^^ current) &&& ~~~ current) >>> i)
        (((saved ^^^ current) &&& current) >>> i) i n) =
      tagged device (changes (List.range' (i + 1) n) (buttonBit saved) (buttonBit current)) := by
  induction n generalizing i with
  | zero => rfl
  | succ n ih =>
    have hi : i < 32 := by omega
    have hrow : List.range' (i + 1) (n + 1) = (i + 1) :: List.range' (i + 1 + 1) n := rfl
    rw [queueButtons, ← BitVec.shiftRight_add, ← BitVec.shiftRight_add, hrow]
    simp only [and_one_ne_zero_iff, BitVec.getLsbD_ushiftRight, BitVec.getLsbD_and,
      BitVec.getLsbD_xor, BitVec.getLsbD_not, Nat.add_zero, decide_eq_true hi, Bool.true_and]
    have ih := @ih (i + 1) (by omega)
    -- the round sends the button `i + 1` if the two masks differ in its bit
    cases hs : saved.getLsbD i <;> cases hc : current.getLsbD i <;>
      simp [buttonEvents, changes, tagged, buttonBit, hs, hc] at ih ⊢ <;> exact ih

/-- What a message for a device that is there adds to the buttons. -/
theorem buttonEvents_step (width height : ℕ) {present : StylusDevice → Bool} (s : Stylus)
    (e : StylusEvent) (h : present e.device = true) :
    buttonEvents (s.step width height present e).queued =
      buttonEvents s.queued ++ tagged e.device
        (changes [1, 2, 3] (buttonBit s.buttonsPrev) (buttonBit (e.buttons.setWidth 32))) := by
  have hloop := @buttonEvents_queueButtons e.device s.buttonsPrev (e.buttons.setWidth 32) 0 3
    (by omega)
  rw [BitVec.ushiftRight_zero, BitVec.ushiftRight_zero] at hloop
  rw [Stylus.step, handleStylus, if_pos h, buttonEvents, List.filterMap_append]
  exact congrArg _ hloop

theorem buttonsPrev_step (width height : ℕ) {present : StylusDevice → Bool} (s : Stylus)
    (e : StylusEvent) (h : present e.device = true) :
    (s.step width height present e).buttonsPrev = e.buttons.setWidth 32 := by
  rw [Stylus.step, handleStylus, if_pos h]

/-! ### One device at a time -/

/-- Only the device has buttons down, those of the saved mask. -/
def Stylus.Only (s : Stylus) (device : StylusDevice) : Prop :=
  ∀ d b, s.Down d b ↔ d = device ∧ b ∈ [1, 2, 3] ∧ buttonBit s.buttonsPrev b = true

/-- Where the saved mask is idle it does not matter which device it was for. -/
theorem Stylus.Only.of_idle {s : Stylus} {device device' : StylusDevice} (h : s.Only device)
    (hidle : ∀ b ∈ [1, 2, 3], buttonBit s.buttonsPrev b = false) : s.Only device' := by
  have hnone : ∀ d b, ¬ (d = device ∧ b ∈ [1, 2, 3] ∧ buttonBit s.buttonsPrev b = true) := by
    rintro d b ⟨-, hb, hbit⟩
    rw [hidle b hb] at hbit
    cases hbit
  intro d b
  constructor
  · intro hd
    exact absurd ((h d b).1 hd) (hnone d b)
  · rintro ⟨-, hb, hbit⟩
    exact absurd ⟨rfl, hb, hbit⟩ (hnone device b)

section

variable {width height : ℕ} {present : StylusDevice → Bool} {s : Stylus} {e : StylusEvent}

theorem Stylus.Only.step (h : s.Only e.device) (hp : present e.device = true) :
    (s.step width height present e).Only e.device := by
  intro d b
  rw [Stylus.Down, buttonEvents_step width height s e hp, buttonsPrev_step width height s e hp,
    Ledger.Down, last_append, last_tagged, last_changes]
  by_cases hd : e.device = d
  · subst hd
    by_cases hb : b ∈ [1, 2, 3]
    · by_cases hsame : buttonBit s.buttonsPrev b = buttonBit (e.buttons.setWidth 32) b
      · have hold := h e.device b
        rw [hsame, Stylus.Down, Ledger.Down] at hold
        simpa [hsame] using hold
      · simp [hb, hsame]
    · have hold := h e.device b
      rw [Stylus.Down, Ledger.Down] at hold
      simpa [hb] using hold
  · have hold := h d b
    rw [Stylus.Down, Ledger.Down] at hold
    simpa [hd, Ne.symm hd] using hold

theorem buttonBit_setWidth (mask : BitVec 8) {i : ℕ} (hi : i < 3) :
    buttonBit (mask.setWidth 32) (i + 1) = mask.getLsbD i := by
  rw [buttonBit, BitVec.getLsbD_setWidth, Nat.add_sub_cancel, decide_eq_true (by omega),
    Bool.true_and]

/-- If only the device of the message has buttons down, those of its mask, it is tracked. -/
theorem Stylus.Only.tracked (h : s.Only e.device) (hmask : s.buttonsPrev = e.buttons.setWidth 32) :
    e.Tracked s where
  addressed i hi := by
    rw [h, hmask, buttonBit_setWidth _ hi]
    have hmem : i + 1 ∈ [1, 2, 3] := by
      rcases i with _ | _ | _ | i
      · simp
      · simp
      · simp
      · omega
    simp [hmem]
  lifted hzero d b hd := by
    obtain ⟨-, hb, hbit⟩ := (h d b).1 hd
    rw [hmask, hzero, buttonBit] at hbit
    simp at hbit

theorem buttonBit_of_idle (hidle : e.Idle) {b : ℕ} (hb : b ∈ [1, 2, 3]) :
    buttonBit (e.buttons.setWidth 32) b = false := by
  simp only [List.mem_cons, List.not_mem_nil, or_false] at hb
  rcases hb with rfl | rfl | rfl
  · exact (buttonBit_setWidth e.buttons (by omega)).trans (hidle 0 (by omega))
  · exact (buttonBit_setWidth e.buttons (by omega)).trans (hidle 1 (by omega))
  · exact (buttonBit_setWidth e.buttons (by omega)).trans (hidle 2 (by omega))

/-- The messages after which another device may be addressed. -/
def StylusEvent.May (e e' : StylusEvent) : Prop := e'.device = e.device ∨ e.Idle

/-- The run up to a message, if the device changes after idle messages only. -/
theorem only_run (hp : ∀ d, present d = true) {es : List StylusEvent} {e : StylusEvent}
    (h : (es ++ [e]).IsChain StylusEvent.May) :
    (exec (Stylus.step width height present) {} (es ++ [e])).Only e.device := by
  induction es using List.reverseRecOn generalizing e with
  | nil =>
    refine Stylus.Only.step ?_ (hp e.device)
    intro d b
    simp [Stylus.Down, buttonEvents, Ledger.Down, buttonBit]
  | append_singleton es e' ih =>
    rw [List.isChain_append] at h
    obtain ⟨hchain, -, hlast⟩ := h
    have hmay : e'.May e := hlast e' (by simp) e rfl
    have hold := ih hchain
    rw [exec_concat]
    refine Stylus.Only.step ?_ (hp e.device)
    rcases hmay with hdev | hidle
    · rw [hdev]
      exact hold
    · refine hold.of_idle fun b hb => ?_
      rw [exec_concat, buttonsPrev_step width height _ e' (hp e'.device)]
      exact buttonBit_of_idle hidle hb

/-- **Buttons are tracked** after every message of a run in which the device changes only after
messages without buttons. -/
theorem stylus_buttons_tracked (hp : ∀ d, present d = true) {es : List StylusEvent}
    (h : es.IsChain StylusEvent.May) :
    ∀ before e, before ++ [e] <+: es →
      e.Tracked (exec (Stylus.step width height present) {} (before ++ [e])) := by
  rintro before e ⟨after, rfl⟩
  have hchain : (before ++ [e]).IsChain StylusEvent.May := (List.isChain_append.1 h).1
  refine (only_run hp hchain).tracked ?_
  rw [exec_concat, buttonsPrev_step width height _ e (hp e.device)]

end

/-- The pen touches and is lifted, the eraser touches, with and without its button. -/
def penThenEraser : List StylusEvent :=
  [{ buttons := 1 }, { buttons := 0 }, { buttons := 1, eraser := 1 },
    { buttons := 5, eraser := 1 }]

theorem penThenEraser_tracked :
    StylusEvent.Tracked { buttons := 5, eraser := 1 }
      (exec (Stylus.step 1280 720 fun _ => true) {} penThenEraser) := by
  have hchain : penThenEraser.IsChain StylusEvent.May := by
    refine .cons_cons (.inl rfl) (.cons_cons (.inr ?_) (.cons_cons (.inl rfl) (.singleton _)))
    intro i hi
    simp
  exact stylus_buttons_tracked (fun _ => rfl) hchain
    [{ buttons := 1 }, { buttons := 0 }, { buttons := 1, eraser := 1 }] _ (List.prefix_refl _)

/-- The pen is turned around while its button is held: the eraser gets no press, and when it is
lifted the release is for the eraser, and the button of the pen stays down. -/
theorem pen_held_after_eraser :
    ¬ ∀ (es before : List StylusEvent) (e : StylusEvent), before ++ [e] <+: es →
      e.Tracked (exec (Stylus.step 1280 720 fun _ => true) {} (before ++ [e])) := by
  intro h
  have hlift := (h _ [{ buttons := 4 }, { buttons := 4, eraser := 1 }]
    { buttons := 0, eraser := 1 } (List.prefix_refl _)).lifted rfl .loriePen 3
  revert hlift
  decide +kernel

end TermuxX11.Server
