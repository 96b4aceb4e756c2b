import TermuxX11.Lib.Run
import TermuxX11.Lib.Ledger

/-!
# Releases that are sent again

Input methods lose the release of some keys.  `LorieView` therefore posts a message when it sees the
release of such a key before the input method does, and 50 ms later the message releases the key; it
is taken back when the input method hands the release on.

Without the workaround for scan codes the activity takes every key before the input method, and
nothing is handed on; with it, every key goes to the input method.  The model has both: a keyboard,
an input method that hands on or swallows what it has in any way, the queue of `keyReleaseHandler`,
and the time in milliseconds.  The activity is connected and filters out no key, and the input
method types nothing of its own.

Of what reaches the server the events of the five keys are kept: none of them has a character, so
that they are sent as keys, where another key is sent as text unless a modifier is held.  The events
of the keyboard show the modifiers that are held, so that `releaseStuckModifiers` finds none.  The
deprecated keys for `@`, `#`, `*` and `+`, which are sent with a SHIFT of their own, are not on it,
and the repeats of a key that is held, which are ignored, are left out.
-/

namespace TermuxX11.Input

open Run

/-- `imeBuggyKeys`: `KEYCODE_DEL`, `KEYCODE_CTRL_LEFT`, `KEYCODE_CTRL_RIGHT`, `KEYCODE_SHIFT_LEFT`
and `KEYCODE_SHIFT_RIGHT`. -/
def imeBuggyKeys : List ℤ := [67, 113, 114, 59, 60]

/-- The delay of a message. -/
def releaseDelay : ℕ := 50

/-- What the keyboard and the input method have done: the time, the messages of `keyReleaseHandler`
with the time they are due at, the events that the input method has, what was sent to the server of
the five keys, the keys that are held, and the releases by the keyboard so far with their times. -/
structure DelayedRelease where
  now : ℕ := 0
  messages : List (ℤ × ℕ) := []
  ime : List (ℤ × Bool) := []
  sent : List (ℤ × Bool) := []
  held : Finset ℤ := ∅
  released : List (ℤ × ℕ) := []

inductive ReleaseStep
  | key (keyCode : ℤ) (down : Bool)
  | pass
  | swallow
  | tick
  deriving DecidableEq

namespace DelayedRelease

variable (s : DelayedRelease)

/-- What the server gets of an event that is handled, or of a message: the five keys are sent as
keys. -/
def sendKeyEvent (keyCode : ℤ) (down : Bool) : DelayedRelease :=
  if keyCode ∈ imeBuggyKeys then { s with sent := s.sent ++ [(keyCode, down)] } else s

/-- `dispatchKeyEventPreIme`: what is not handled here goes to the input method. -/
def dispatchKeyEventPreIme (hardwareKbdScancodesWorkaround : Bool) (keyCode : ℤ) (down : Bool) :
    DelayedRelease :=
  let s' :=
    if keyCode ∈ imeBuggyKeys ∧ down = false then
      { s with messages := s.messages ++ [(keyCode, s.now + releaseDelay)] }
    else s
  if hardwareKbdScancodesWorkaround then { s' with ime := s'.ime ++ [(keyCode, down)] }
  else s'.sendKeyEvent keyCode down

/-- `dispatchKeyEvent`. -/
def dispatchKeyEvent (keyCode : ℤ) (down : Bool) : DelayedRelease :=
  let s' :=
    if keyCode ∈ imeBuggyKeys ∧ down = false then
      { s with messages := s.messages.filter fun m => m.1 ≠ keyCode }
    else s
  s'.sendKeyEvent keyCode down

/-- The messages that are due are handled. -/
def handleMessages : DelayedRelease :=
  { s with
    messages := s.messages.filter fun m => s.now < m.2
    sent := s.sent ++ (s.messages.filter fun m => m.2 ≤ s.now).map fun m => (m.1, false) }

/-- One step; `none` if it is not this step's turn. -/
def step (hardwareKbdScancodesWorkaround : Bool) (s : DelayedRelease) :
    ReleaseStep → Option DelayedRelease
  | .key keyCode down =>
    some { s.dispatchKeyEventPreIme hardwareKbdScancodesWorkaround keyCode down with
      held := if down then insert keyCode s.held else s.held.erase keyCode
      released := if down then s.released else s.released ++ [(keyCode, s.now)] }
  | .pass =>
    match s.ime with
    | [] => none
    | (keyCode, down) :: ime => some ({ s with ime := ime }.dispatchKeyEvent keyCode down)
  | .swallow =>
    match s.ime with
    | [] => none
    | _ :: ime => some { s with ime := ime }
  | .tick => some { s with now := s.now + 1 }.handleMessages

variable {s} {s' : DelayedRelease} {a : ReleaseStep} {keyCode : ℤ} {down : Bool}

@[simp] theorem send_messages : (s.sendKeyEvent keyCode down).messages = s.messages := by
  unfold sendKeyEvent
  split_ifs <;> rfl

@[simp] theorem preIme_ime : (s.dispatchKeyEventPreIme false keyCode down).ime = s.ime := by
  simp only [dispatchKeyEventPreIme, Bool.false_eq_true, if_false, sendKeyEvent]
  split_ifs <;> rfl

@[simp] theorem preIme_sent : (s.dispatchKeyEventPreIme false keyCode down).sent =
    (s.sendKeyEvent keyCode down).sent := by
  simp only [dispatchKeyEventPreIme, Bool.false_eq_true, if_false, sendKeyEvent]
  split_ifs <;> rfl

@[simp] theorem preIme_now (workaround : Bool) :
    (s.dispatchKeyEventPreIme workaround keyCode down).now = s.now := by
  unfold dispatchKeyEventPreIme sendKeyEvent
  split_ifs <;> rfl

@[simp] theorem preIme_messages (workaround : Bool) :
    (s.dispatchKeyEventPreIme workaround keyCode down).messages =
      if keyCode ∈ imeBuggyKeys ∧ down = false then
        s.messages ++ [(keyCode, s.now + releaseDelay)]
      else s.messages := by
  unfold dispatchKeyEventPreIme sendKeyEvent
  split_ifs <;> rfl

/-- What the due messages release. -/
theorem last_due (messages : List (ℤ × ℕ)) (keyCode : ℤ) :
    Ledger.last (messages.map fun m => (m.1, false)) keyCode =
      if keyCode ∈ messages.map Prod.fst then some false else none := by
  rw [← Ledger.last_map, List.map_map]
  rfl

theorem down_send_of_ne {other : ℤ} (hne : other ≠ keyCode) (down : Bool) :
    Ledger.Down (s.sendKeyEvent keyCode down).sent other ↔ Ledger.Down s.sent other := by
  unfold sendKeyEvent
  split_ifs
  · rw [Ledger.down_concat, if_neg hne.symm]
  · exact Iff.rfl

theorem down_send_self (hbuggy : keyCode ∈ imeBuggyKeys) :
    Ledger.Down (s.sendKeyEvent keyCode down).sent keyCode ↔ down = true := by
  unfold sendKeyEvent
  rw [if_pos hbuggy, Ledger.down_concat, if_pos rfl]

/-- A key that no due message is for is as it was; one that a due message is for is up. -/
theorem down_handleMessages : Ledger.Down s.handleMessages.sent keyCode ↔
    Ledger.Down s.sent keyCode ∧ ∀ m ∈ s.messages, m.1 = keyCode → s.now < m.2 := by
  unfold Ledger.Down handleMessages
  rw [Ledger.last_append, last_due]
  split_ifs with hdue
  · refine iff_of_false (by simp) fun hboth => ?_
    obtain ⟨m, hm, hkey⟩ := List.mem_map.1 hdue
    obtain ⟨hm, hle⟩ := List.mem_filter.1 hm
    exact absurd (hboth.2 m hm hkey) (by simpa using hle)
  · rw [Option.none_or]
    refine (and_iff_left fun m hm hkey => ?_).symm
    by_contra hle
    exact hdue (List.mem_map.2 ⟨m, List.mem_filter.2 ⟨hm, by simpa using hle⟩, hkey⟩)

/-! ### Every key is taken before the input method -/

/-- The messages are for the releases of the last 50 ms. -/
structure Taken (s : DelayedRelease) : Prop where
  ime : s.ime = []
  messages : ∀ keyCode due, (keyCode, due) ∈ s.messages ↔
    s.now < due ∧ keyCode ∈ imeBuggyKeys ∧ ∃ time, (keyCode, time) ∈ s.released ∧
      time + releaseDelay = due

/-- Those of the five keys that are held are down. -/
def HeldDown (s : DelayedRelease) : Prop :=
  ∀ keyCode ∈ imeBuggyKeys, keyCode ∈ s.held → Ledger.Down s.sent keyCode

/-- It is 50 ms after the release of a key that is held again. -/
def PressedAgain (s : DelayedRelease) : ReleaseStep → Prop
  | .tick => ∃ r ∈ s.released, r.1 ∈ imeBuggyKeys ∧ r.2 + releaseDelay = s.now + 1 ∧ r.1 ∈ s.held
  | _ => False

instance (s : DelayedRelease) : (a : ReleaseStep) → Decidable (s.PressedAgain a)
  | .tick => inferInstanceAs (Decidable (∃ r ∈ s.released, _))
  | .key _ _ | .pass | .swallow => .isFalse id

theorem taken_key (h : s.Taken) (keyCode : ℤ) (down : Bool)
    (hs : step false s (.key keyCode down) = some s') : s'.Taken := by
  obtain rfl := Option.some.inj hs
  refine ⟨preIme_ime.trans h.ime, fun other due => ?_⟩
  dsimp only
  rw [preIme_messages, preIme_now]
  cases down with
  | true => simpa using h.messages other due
  | false =>
    have hnew : (∃ time, (other, time) ∈ s.released ++ [(keyCode, s.now)] ∧
        time + releaseDelay = due) ↔ (∃ time, (other, time) ∈ s.released ∧
          time + releaseDelay = due) ∨ other = keyCode ∧ s.now + releaseDelay = due := by
      constructor
      · rintro ⟨time, hmem, hdue⟩
        obtain hmem | hmem := List.mem_append.1 hmem
        · exact .inl ⟨time, hmem, hdue⟩
        · obtain ⟨rfl, rfl⟩ := Prod.mk.inj (List.mem_singleton.1 hmem)
          exact .inr ⟨rfl, hdue⟩
      · rintro (⟨time, hmem, hdue⟩ | ⟨rfl, hdue⟩)
        · exact ⟨time, List.mem_append_left _ hmem, hdue⟩
        · exact ⟨s.now, List.mem_append_right _ List.mem_cons_self, hdue⟩
    simp only [Bool.false_eq_true, if_false, hnew]
    by_cases hbuggy : keyCode ∈ imeBuggyKeys
    · simp only [hbuggy, and_self, if_true, List.mem_append, List.mem_singleton, Prod.mk.injEq,
        h.messages]
      constructor
      · rintro (⟨hlt, hkey, hold⟩ | ⟨rfl, rfl⟩)
        · exact ⟨hlt, hkey, .inl hold⟩
        · exact ⟨by simp [releaseDelay], hbuggy, .inr ⟨rfl, rfl⟩⟩
      · rintro ⟨hlt, hkey, hold | ⟨rfl, rfl⟩⟩
        · exact .inl ⟨hlt, hkey, hold⟩
        · exact .inr ⟨rfl, rfl⟩
    · simp only [hbuggy, false_and, if_false, h.messages]
      refine and_congr_right fun _ => and_congr_right fun hkey => ?_
      refine (or_iff_left ?_).symm
      rintro ⟨rfl, -⟩
      exact hbuggy hkey

theorem taken_step (h : s.Taken) (hs : step false s a = some s') : s'.Taken := by
  cases a with
  | key keyCode down => exact taken_key h keyCode down hs
  | pass | swallow =>
    rw [step, h.ime] at hs
    cases hs
  | tick =>
    obtain rfl := Option.some.inj hs
    refine ⟨h.ime, fun keyCode due => ?_⟩
    unfold handleMessages
    dsimp only
    rw [List.mem_filter, h.messages]
    constructor
    · rintro ⟨⟨-, hkey, hold⟩, hlt⟩
      exact ⟨by simpa using hlt, hkey, hold⟩
    · rintro ⟨hlt, hkey, hold⟩
      exact ⟨⟨by omega, hkey, hold⟩, by simpa using hlt⟩

/-- Each of the five keys that is held stays down, unless it was released 50 ms before. -/
theorem heldDown_step_iff (h : s.Taken) (hdown : s.HeldDown) (hs : step false s a = some s') :
    s'.HeldDown ↔ ¬ s.PressedAgain a := by
  cases a with
  | key keyCode down =>
    obtain rfl := Option.some.inj hs
    refine iff_of_true (fun other hbuggy hother => ?_) id
    dsimp only at hother ⊢
    rw [preIme_sent]
    by_cases hne : other = keyCode
    · rw [hne, down_send_self (hne ▸ hbuggy)]
      by_contra hup
      rw [Bool.not_eq_true] at hup
      rw [hup, hne] at hother
      exact absurd hother (Finset.notMem_erase keyCode s.held)
    · rw [down_send_of_ne hne]
      refine hdown other hbuggy ?_
      split_ifs at hother
      · exact Finset.mem_of_mem_insert_of_ne hother hne
      · exact Finset.mem_of_mem_erase hother
  | pass | swallow =>
    rw [step, h.ime] at hs
    cases hs
  | tick =>
    obtain rfl := Option.some.inj hs
    constructor
    · rintro hheld ⟨⟨keyCode, time⟩, hreleased, hkey, hdue, hmem⟩
      have hlate := (down_handleMessages.1 (hheld keyCode hkey hmem)).2
        (keyCode, time + releaseDelay)
        ((h.messages _ _).2 ⟨by omega, hkey, time, hreleased, rfl⟩) rfl
      dsimp only at hlate hdue
      omega
    · intro hnot keyCode hbuggy hmem
      refine down_handleMessages.2 ⟨hdown keyCode hbuggy hmem, ?_⟩
      rintro ⟨_, due⟩ hm rfl
      obtain ⟨hlt, hkey, time, hreleased, hdue⟩ := (h.messages _ _).1 hm
      by_contra hle
      dsimp only at hle
      exact hnot ⟨(_, time), hreleased, hkey, by dsimp only; omega, hmem⟩

/-- **Keys that are held stay down.**  Without the workaround for scan codes: in every run, each of
the five keys that is held is down in the server in every state, exactly if none of them is held
50 ms after one of its releases. -/
theorem heldDown_iff {steps : List ReleaseStep} (h : tryExec (step false) {} steps = some s) :
    (∀ as₁ as₂ t, steps = as₁ ++ as₂ → tryExec (step false) {} as₁ = some t → t.HeldDown) ↔
      TryAlways (step false) (fun s a => ¬ s.PressedAgain a) {} steps := by
  have hstart : ({} : DelayedRelease).Taken := ⟨rfl, fun _ _ => by simp⟩
  refine reached_iff_of_invariant (fun _ _ _ hI _ hs => taken_step hI hs)
    (fun _ _ _ hI hR _ hs => heldDown_step_iff hI hR hs) hstart ?_ (tryAlways_true _ _) h
  exact fun _ _ hmem => absurd hmem (Finset.notMem_empty _)

/-- The shift key is released and pressed again 30 ms later. -/
def quickShift : List ReleaseStep :=
  [.key 59 true, .key 59 false] ++ List.replicate 30 .tick ++ [.key 59 true] ++
    List.replicate 20 .tick

theorem heldDown_iff_quickShift :
    (∀ as₁ as₂ t, quickShift = as₁ ++ as₂ → tryExec (step false) {} as₁ = some t → t.HeldDown) ↔
      TryAlways (step false) (fun s a => ¬ s.PressedAgain a) {} quickShift :=
  heldDown_iff (Option.some_get (by decide +kernel)).symm

/-! ### Every key goes to the input method -/

/-- A release of the key is on its way to the server: the input method has it, or a message is
posted. -/
def OnItsWay (s : DelayedRelease) (keyCode : ℤ) : Prop :=
  (keyCode, false) ∈ s.ime ∨ keyCode ∈ s.messages.map Prod.fst

/-- The release of each of the five keys is on its way that is down and is not held. -/
def ReleasesCome (s : DelayedRelease) : Prop :=
  ∀ keyCode ∈ imeBuggyKeys, keyCode ∉ s.held → Ledger.Down s.sent keyCode → s.OnItsWay keyCode

/-- The last that the input method has of a key is what the keyboard did last. -/
def InOrder (s : DelayedRelease) : Prop :=
  ∀ keyCode down, Ledger.last s.ime keyCode = some down → (down = true ↔ keyCode ∈ s.held)

/-- The input method swallows the only release of one of the five keys that is down, and no message
is posted for it any more. -/
def Forgotten (s : DelayedRelease) : ReleaseStep → Prop
  | .swallow => ∃ keyCode ime, s.ime = (keyCode, false) :: ime ∧ keyCode ∈ imeBuggyKeys ∧
      keyCode ∉ s.held ∧ Ledger.Down s.sent keyCode ∧ (keyCode, false) ∉ ime ∧
      keyCode ∉ s.messages.map Prod.fst
  | _ => False

theorem inOrder_tail {e : ℤ × Bool} {ime : List (ℤ × Bool)} (h : s.InOrder)
    (hime : s.ime = e :: ime) {keyCode : ℤ} {down : Bool}
    (hlast : Ledger.last ime keyCode = some down) :
    down = true ↔ keyCode ∈ s.held := by
  refine h keyCode down ?_
  rw [hime, Ledger.last_cons, hlast]
  rfl

@[simp] theorem dispatch_ime : (s.dispatchKeyEvent keyCode down).ime = s.ime := by
  unfold dispatchKeyEvent sendKeyEvent
  split_ifs <;> rfl

@[simp] theorem dispatch_held : (s.dispatchKeyEvent keyCode down).held = s.held := by
  unfold dispatchKeyEvent sendKeyEvent
  split_ifs <;> rfl

@[simp] theorem dispatch_sent :
    (s.dispatchKeyEvent keyCode down).sent = (s.sendKeyEvent keyCode down).sent := by
  unfold dispatchKeyEvent sendKeyEvent
  split_ifs <;> rfl

/-- The messages for other keys stay. -/
theorem mem_dispatch_messages {other : ℤ} (hne : other ≠ keyCode)
    (h : other ∈ s.messages.map Prod.fst) :
    other ∈ (s.dispatchKeyEvent keyCode down).messages.map Prod.fst := by
  unfold dispatchKeyEvent
  dsimp only
  rw [send_messages]
  split_ifs
  · obtain ⟨m, hm, rfl⟩ := List.mem_map.1 h
    exact List.mem_map.2 ⟨m, List.mem_filter.2 ⟨hm, by simpa using hne⟩, rfl⟩
  · exact h

@[simp] theorem preIme_workaround_ime :
    (s.dispatchKeyEventPreIme true keyCode down).ime = s.ime ++ [(keyCode, down)] := by
  simp only [dispatchKeyEventPreIme, if_true]
  split_ifs <;> rfl

@[simp] theorem preIme_workaround_sent :
    (s.dispatchKeyEventPreIme true keyCode down).sent = s.sent := by
  simp only [dispatchKeyEventPreIme, if_true]
  split_ifs <;> rfl

theorem inOrder_step (h : s.InOrder) (hs : step true s a = some s') : s'.InOrder := by
  cases a with
  | key keyCode down =>
    obtain rfl := Option.some.inj hs
    intro other down' hlast
    dsimp only at hlast ⊢
    rw [preIme_workaround_ime, Ledger.last_append, Ledger.last_singleton] at hlast
    by_cases hkey : keyCode = other
    · subst hkey
      rw [if_pos rfl] at hlast
      obtain rfl := Option.some.inj hlast
      cases down <;> simp
    · rw [if_neg hkey, Option.none_or] at hlast
      rw [h other down' hlast]
      have hne : other ≠ keyCode := fun heq => hkey heq.symm
      split_ifs <;> simp [hne]
  | pass =>
    simp only [step] at hs
    split at hs
    · cases hs
    · next keyCode down ime hime =>
      obtain rfl := Option.some.inj hs
      intro other down' hlast
      rw [dispatch_ime] at hlast
      rw [dispatch_held]
      exact inOrder_tail h hime hlast
  | swallow =>
    simp only [step] at hs
    split at hs
    · cases hs
    · next e ime hime =>
      obtain rfl := Option.some.inj hs
      exact fun other down' hlast => inOrder_tail h hime hlast
  | tick =>
    obtain rfl := Option.some.inj hs
    exact h

/-- A press is handed on of a key that has been released since: its release is behind it. -/
theorem mem_of_pressed (h : s.InOrder) {ime : List (ℤ × Bool)}
    (hime : s.ime = (keyCode, true) :: ime) (hheld : keyCode ∉ s.held) :
    (keyCode, false) ∈ ime := by
  have hlast : Ledger.last s.ime keyCode = (Ledger.last ime keyCode).or (some true) := by
    rw [hime, Ledger.last_cons, if_pos rfl]
  cases hbehind : Ledger.last ime keyCode with
  | none =>
    rw [hbehind] at hlast
    exact absurd ((h keyCode true hlast).1 rfl) hheld
  | some down =>
    rw [hbehind] at hlast
    have hup : down = false := by
      by_contra hdown
      rw [Bool.not_eq_false] at hdown
      exact hheld ((h keyCode down hlast).1 hdown)
    exact Ledger.mem_of_last (hup ▸ hbehind)

theorem releasesCome_step (h : s.InOrder) (hR : s.ReleasesCome) (hfine : ¬ s.Forgotten a)
    (hs : step true s a = some s') : s'.ReleasesCome := by
  cases a with
  | key keyCode down =>
    obtain rfl := Option.some.inj hs
    intro other hbuggy hheld hdown
    dsimp only at hheld hdown
    unfold OnItsWay
    dsimp only
    rw [preIme_workaround_ime, preIme_messages]
    rw [preIme_workaround_sent] at hdown
    by_cases hkey : other = keyCode
    · subst hkey
      cases down with
      | true => simp at hheld
      | false => exact .inl (List.mem_append_right _ List.mem_cons_self)
    · have hheld' : other ∉ s.held := by
        split_ifs at hheld
        · exact fun hmem => hheld (Finset.mem_insert_of_mem hmem)
        · exact fun hmem => hheld (Finset.mem_erase.2 ⟨hkey, hmem⟩)
      refine (hR other hbuggy hheld' hdown).imp (List.mem_append_left _) fun hmem => ?_
      split_ifs
      · rw [List.map_append]
        exact List.mem_append_left _ hmem
      · exact hmem
  | pass =>
    simp only [step] at hs
    split at hs
    · cases hs
    · next keyCode down ime hime =>
      obtain rfl := Option.some.inj hs
      intro other hbuggy hheld hdown
      rw [dispatch_held] at hheld
      rw [dispatch_sent] at hdown
      unfold OnItsWay
      rw [dispatch_ime]
      by_cases hkey : other = keyCode
      · subst hkey
        obtain rfl := (down_send_self hbuggy).1 hdown
        exact .inl (mem_of_pressed h hime hheld)
      · have hbefore := (down_send_of_ne (s := { s with ime := ime }) hkey down).1 hdown
        obtain hmem | hmem := hR other hbuggy hheld hbefore
        · rw [hime] at hmem
          refine .inl ((List.mem_cons.1 hmem).resolve_left fun heq => hkey ?_)
          exact congrArg Prod.fst heq
        · exact .inr (mem_dispatch_messages (s := { s with ime := ime }) hkey hmem)
  | swallow =>
    simp only [step] at hs
    split at hs
    · cases hs
    · next e ime hime =>
      obtain rfl := Option.some.inj hs
      intro other hbuggy hheld hdown
      by_contra hnot
      rw [OnItsWay, not_or] at hnot
      refine hfine ⟨other, ime, ?_, hbuggy, hheld, hdown, hnot.1, hnot.2⟩
      obtain hmem | hmem := hR other hbuggy hheld hdown
      · rw [hime] at hmem ⊢
        rw [(List.mem_cons.1 hmem).resolve_right hnot.1]
      · exact absurd hmem hnot.2
  | tick =>
    obtain rfl := Option.some.inj hs
    intro other hbuggy hheld hdown
    obtain ⟨hdown, hlate⟩ := down_handleMessages.1 hdown
    refine (hR other hbuggy hheld hdown).imp_right fun hmem => ?_
    obtain ⟨m, hm, hkey⟩ := List.mem_map.1 hmem
    exact List.mem_map.2 ⟨m, List.mem_filter.2 ⟨hm, by simpa using hlate m hm hkey⟩, hkey⟩

theorem not_releasesCome_of_forgotten (hforgotten : s.Forgotten a)
    (hs : step true s a = some s') : ¬ s'.ReleasesCome := by
  cases a with
  | swallow =>
    obtain ⟨keyCode, ime, hime, hbuggy, hheld, hdown, hbehind, hmessage⟩ := hforgotten
    simp only [step, hime, Option.some.injEq] at hs
    subst hs
    intro hR
    obtain hmem | hmem := hR keyCode hbuggy hheld hdown
    · exact hbehind hmem
    · exact hmessage hmem
  | _ => cases hforgotten

/-- **Releases come.**  With the workaround for scan codes: in every run, however the input method
hands on and swallows what it has, the release of each of the five keys that is down and not held is
on its way in every state, exactly if the input method never swallows the only release of one that
is down when the message for it has been handled, or taken back for an earlier release. -/
theorem releasesCome_iff {steps : List ReleaseStep} (h : tryExec (step true) {} steps = some s) :
    (∀ as₁ as₂ t, steps = as₁ ++ as₂ → tryExec (step true) {} as₁ = some t → t.ReleasesCome) ↔
      TryAlways (step true) (fun s a => ¬ s.Forgotten a) {} steps :=
  reached_iff_of_kept (I := fun s => s.InOrder ∧ s.ReleasesCome) (R := ReleasesCome)
    (fun _ hI => hI.2)
    (fun _ _ _ hI hfine hs => ⟨inOrder_step hI.1 hs, releasesCome_step hI.1 hI.2 hfine hs⟩)
    (fun _ _ _ _ hnot hs => not_releasesCome_of_forgotten (not_not.1 hnot) hs)
    ⟨nofun, fun _ _ _ hdown => nomatch hdown⟩ h

/-- The input method hands on the first of two releases, and swallows the second. -/
def backspaceTwice : List ReleaseStep :=
  [.key 67 true, .pass, .key 67 false, .key 67 true, .key 67 false, .pass, .pass, .swallow]

theorem releasesCome_iff_backspaceTwice :
    (∀ as₁ as₂ t, backspaceTwice = as₁ ++ as₂ → tryExec (step true) {} as₁ = some t →
      t.ReleasesCome) ↔
      TryAlways (step true) (fun s a => ¬ s.Forgotten a) {} backspaceTwice :=
  releasesCome_iff (Option.some_get (by decide +kernel)).symm

end DelayedRelease

end TermuxX11.Input
