import TermuxX11.Activity.Buffers
import TermuxX11.Server.Connection

/-!
# Registered buffers and held buffers

The server keeps `registeredBuffers` and announces every change of it on the connection; the
activity applies the announcements to the lists of its renderer.  Here both run side by side
over one connection: `messages` is all that the server has written on it, `processed` how much
of that the activity has read.  The buffers of the server are known by their ids, which
`allocate` gives out once each; a buffer that arrives keeps the id and has the reference
count 1.
-/

namespace TermuxX11.Server

open Activity Run

/-- The two ends of a connection.  `connected` says that the activity's `conn_fd` is open. -/
structure Link where
  server : Connection
  processed : ℕ := 0
  renderer : Renderer := {}
  connected : Bool := true

/-- What the server has written on the descriptor `fd`. -/
def messages (fd : ℕ) (s : Connection) : List Sent :=
  s.written.filterMap fun m => if m.1 = (fd : ℤ) then some m.2 else none

/-- The connection after `addFd`. -/
def Link.start (rootBuffer : Option ℕ) (fd : ℕ) : Link :=
  { server := addFd fd (.start rootBuffer) }

/-- The ids that the activity has in `addedBuffers` and `buffers`. -/
def heldIds (r : Renderer) : List ℕ := (r.addedBuffers ++ r.buffers).map LorieBuffer.id

/-- `xcallback`, as far as it is about buffers. -/
def xcallback (m : Sent) (r : Renderer) : Renderer :=
  match m with
  | .sharedServerState => r
  | .addBuffer id => r.addBuffer id
  | .removeBuffer id => r.removeBuffer id

/-- A step of the server, of the activity's main thread or of its renderer thread. -/
inductive LinkStep
  | registerBuffer (buffer : Option ℕ)
  | unregisterBuffer (buffer : Option ℕ)
  | xcallback
  | attach
  | skipRedraw
  | beginRedraw (rootWindowTextureID : ℕ)
  | endRedraw
  | release
  | serverError
  | hangUp

namespace Link

/-- A critical section of the renderer thread. -/
def render (l : Link) (a : Action) : Option Link :=
  (l.renderer.step a).map fun r => { l with renderer := r }

/-- One step.  `serverError` is `X_NOTIFY_ERROR` on the server, `hangUp` the branch of
`xcallback` for errors and hang-ups. -/
def step (fd : ℕ) (l : Link) : LinkStep → Option Link
  | .registerBuffer buffer => some { l with server := lorieRegisterBuffer buffer l.server }
  | .unregisterBuffer buffer => some { l with server := lorieUnregisterBuffer buffer l.server }
  | .xcallback =>
    if l.connected then
      (messages fd l.server)[l.processed]?.map fun m =>
        { l with processed := l.processed + 1, renderer := Server.xcallback m l.renderer }
    else none
  | .attach => l.render .attach
  | .skipRedraw => l.render .skipRedraw
  | .beginRedraw id => l.render (.beginRedraw id)
  | .endRedraw => l.render .endRedraw
  | .release => l.render .release
  | .serverError => some { l with server := handleError fd l.server }
  | .hangUp => some { l with connected := false, renderer := l.renderer.removeAllBuffers }

end Link

/-! ### Announcements -/

/-- The ids after one more message. -/
def note (ids : List ℕ) : Sent → List ℕ
  | .sharedServerState => ids
  | .addBuffer id => id :: ids
  | .removeBuffer id => ids.filter (· ≠ id)

/-- The ids that have been announced and not removed. -/
def announced (ms : List Sent) : List ℕ := ms.foldl note []

theorem announced_concat (ms : List Sent) (m : Sent) :
    announced (ms ++ [m]) = note (announced ms) m := by
  simp [announced]

/-- No id is announced while it is. -/
def Fresh (ms : List Sent) : Prop :=
  ∀ ms₁ id ms₂, ms = ms₁ ++ .addBuffer id :: ms₂ → id ∉ announced ms₁

theorem Fresh.of_append {ms ms' : List Sent} (h : Fresh (ms ++ ms')) : Fresh ms := by
  intro ms₁ id ms₂ heq
  refine h ms₁ id (ms₂ ++ ms') ?_
  rw [heq, List.append_assoc, List.cons_append]

theorem Fresh.concat {ms : List Sent} (h : Fresh ms) {m : Sent}
    (hm : ∀ id, m = .addBuffer id → id ∉ announced ms) : Fresh (ms ++ [m]) := by
  intro ms₁ id ms₂ heq
  rcases List.eq_nil_or_concat ms₂ with rfl | ⟨ms₃, m', rfl⟩
  · obtain ⟨rfl, hlast⟩ := List.append_inj' heq rfl
    exact hm id (List.cons.inj hlast).1
  · have heq' : ms ++ [m] = (ms₁ ++ .addBuffer id :: ms₃) ++ [m'] := by simpa using heq
    exact h ms₁ id ms₃ (List.append_inj' heq' rfl).1

theorem nodup_announced {ms : List Sent} (h : Fresh ms) : (announced ms).Nodup := by
  induction ms using List.reverseRecOn with
  | nil => exact List.nodup_nil
  | append_singleton ms m ih =>
    have hms := ih h.of_append
    rw [announced_concat]
    cases m with
    | sharedServerState => exact hms
    | addBuffer id => exact List.nodup_cons.2 ⟨h ms id [] rfl, hms⟩
    | removeBuffer id => exact hms.filter _

/-- An announced id stays so until it is removed. -/
theorem mem_announced_append {ms ms' : List Sent} {id : ℕ} (h : id ∈ announced ms)
    (hno : .removeBuffer id ∉ ms') : id ∈ announced (ms ++ ms') := by
  induction ms' using List.reverseRecOn with
  | nil => rwa [List.append_nil]
  | append_singleton ms' m ih =>
    rw [List.mem_append, not_or, List.mem_singleton] at hno
    have hmem := ih hno.1
    rw [← List.append_assoc, announced_concat]
    cases m with
    | sharedServerState => exact hmem
    | addBuffer id' => exact List.mem_cons_of_mem _ hmem
    | removeBuffer id' =>
      refine List.mem_filter.2 ⟨hmem, decide_eq_true fun heq => hno.2 ?_⟩
      rw [heq]

/-- Between two announcements of an id there is a removal. -/
theorem removed_between {a b c : List Sent} {id : ℕ}
    (h : Fresh (a ++ .addBuffer id :: b ++ .addBuffer id :: c)) : .removeBuffer id ∈ b := by
  by_contra hno
  have hmem : id ∈ announced (a ++ [.addBuffer id]) := by
    rw [announced_concat]
    exact List.mem_cons_self
  refine h (a ++ .addBuffer id :: b) id c rfl ?_
  have := mem_announced_append hmem hno
  rwa [List.append_assoc, List.singleton_append] at this

/-! ### The renderer applies them -/

section

variable {r : Renderer}

theorem filter_ne_self {ids : List ℕ} {id : ℕ} (h : id ∉ ids) : ids.filter (· ≠ id) = ids := by
  refine List.filter_eq_self.2 fun n hn => decide_eq_true fun heq => h ?_
  rwa [← heq]

theorem perm_filter_of_perm_cons {ids ids' : List ℕ} {id : ℕ} (h : ids.Perm (id :: ids'))
    (hnodup : ids.Nodup) : ids'.Perm (ids.filter (· ≠ id)) := by
  have hid : id ∉ ids' := (List.nodup_cons.1 (h.nodup_iff.1 hnodup)).1
  have hfilter := h.filter (· ≠ id)
  rw [List.filter_cons_of_neg (by simp)] at hfilter
  rw [filter_ne_self hid] at hfilter
  exact hfilter.symm

theorem heldIds_removeBuffer (h : r.Inv) (hnodup : (heldIds r).Nodup) (id : ℕ) :
    (heldIds (r.removeBuffer id)).Perm ((heldIds r).filter (· ≠ id)) := by
  unfold Renderer.removeBuffer
  cases ha : findById id r.addedBuffers with
  | some p =>
    obtain ⟨hid, hperm⟩ := findById_spec ha
    have hone := (h.added p.1 (hperm.symm.subset List.mem_cons_self)).1
    dsimp only
    rw [if_pos hone]
    refine perm_filter_of_perm_cons ?_ hnodup
    rw [← hid]
    exact (hperm.append_right r.buffers).map LorieBuffer.id
  | none =>
    dsimp only
    cases hb : findById id r.buffers with
    | some p =>
      obtain ⟨hid, hperm⟩ := findById_spec hb
      refine perm_filter_of_perm_cons ?_ hnodup
      rw [← hid]
      exact ((hperm.append_left r.addedBuffers).trans List.perm_middle).map LorieBuffer.id
    | none =>
      have hout : id ∉ heldIds r := by
        rw [heldIds, List.map_append, List.mem_append, not_or]
        exact ⟨findById_none ha, findById_none hb⟩
      rw [filter_ne_self hout]

/-- A message does to the held ids what it says. -/
theorem heldIds_xcallback (h : r.Inv) {ids : List ℕ} (hids : (heldIds r).Perm ids)
    (hnodup : ids.Nodup) (m : Sent) :
    (heldIds (xcallback m r)).Perm (note ids m) ∧ (xcallback m r).Inv := by
  cases m with
  | sharedServerState => exact ⟨hids, h⟩
  | addBuffer id => exact ⟨hids.cons id, Renderer.inv_addBuffer h id⟩
  | removeBuffer id =>
    have hheld := heldIds_removeBuffer h (hids.nodup_iff.2 hnodup) id
    exact ⟨hheld.trans (hids.filter _), Renderer.inv_removeBuffer h id⟩

theorem heldIds_attach (r : Renderer) : (heldIds r.attach).Perm (heldIds r) := by
  have hattach := map_attachAll LorieBuffer.id (fun _ => rfl) r.addedBuffers r.buffers
  simp only [heldIds, List.map_append]
  exact hattach

theorem heldIds_render {a : Action} {r' : Renderer} (h : r.step a = some r')
    (ha : ∀ id, a ≠ .addBuffer id ∧ a ≠ .removeBuffer id) (ha' : a ≠ .removeAllBuffers) :
    (heldIds r').Perm (heldIds r) := by
  cases a with
  | addBuffer id => exact absurd rfl (ha id).1
  | removeBuffer id => exact absurd rfl (ha id).2
  | removeAllBuffers => exact absurd rfl ha'
  | attach =>
    simp only [Renderer.step] at h
    split_ifs at h
    obtain rfl := Option.some.inj h
    exact heldIds_attach r
  | skipRedraw | beginRedraw id | release =>
    simp only [Renderer.step] at h
    split_ifs at h
    obtain rfl := Option.some.inj h
    exact List.Perm.refl _
  | endRedraw =>
    simp only [Renderer.step] at h
    split at h
    · obtain rfl := Option.some.inj h
      exact List.Perm.refl _
    · cases h

end

/-! ### Both ends agree -/

/-- What holds of the two ends at each moment. -/
structure Link.Agrees (fd : ℕ) (l : Link) : Prop where
  fresh : Fresh (messages fd l.server)
  registered : l.server.connFd = fd → announced (messages fd l.server) = l.server.registeredBuffers
  gone : l.server.connFd ≠ fd → l.server.connFd = -1 ∧ l.server.registeredBuffers = []
  processed : l.processed ≤ (messages fd l.server).length
  held : l.connected = true →
    (heldIds l.renderer).Perm (announced ((messages fd l.server).take l.processed))
  unheld : l.connected = false → heldIds l.renderer = []
  renderer : l.renderer.Inv

namespace Link.Agrees

variable {fd : ℕ} {l : Link}

/-- The server writes one more message. -/
theorem write (h : l.Agrees fd) {s : Connection} {m : Sent}
    (hwritten : s.written = l.server.written ++ [((fd : ℤ), m)]) (hfd : l.server.connFd = fd)
    (hfd' : s.connFd = fd)
    (hm : ∀ id, m = .addBuffer id → id ∉ l.server.registeredBuffers)
    (hreg : s.registeredBuffers = note l.server.registeredBuffers m) :
    Link.Agrees fd { l with server := s } := by
  have hmessages : messages fd s = messages fd l.server ++ [m] := by
    simp [messages, hwritten]
  have hold := h.registered hfd
  refine ⟨?_, fun _ => ?_, fun hne => absurd hfd' hne, ?_, fun hc => ?_, h.unheld, h.renderer⟩
  · rw [hmessages]
    exact h.fresh.concat fun id hid => hold ▸ hm id hid
  · rw [hmessages, announced_concat, hold, hreg]
  · rw [hmessages, List.length_append]
    exact h.processed.trans (Nat.le_add_right _ _)
  · rw [hmessages, List.take_append_of_le_length h.processed]
    exact h.held hc

theorem registerBuffer (h : l.Agrees fd) (buffer : Option ℕ) :
    Link.Agrees fd { l with server := lorieRegisterBuffer buffer l.server } := by
  unfold lorieRegisterBuffer
  split_ifs with hc
  · exact h
  · rw [not_or] at hc
    cases buffer with
    | none => exact h
    | some id =>
      have hfd : l.server.connFd = fd := by
        by_contra hne
        exact hc.1 (h.gone hne).1
      refine h.write (m := .addBuffer id) ?_ hfd hfd ?_ rfl
      · rw [← hfd]
        rfl
      · rintro id' heq
        obtain rfl := Sent.addBuffer.inj heq
        exact hc.2

theorem unregisterBuffer (h : l.Agrees fd) (buffer : Option ℕ) :
    Link.Agrees fd { l with server := lorieUnregisterBuffer buffer l.server } := by
  unfold lorieUnregisterBuffer
  cases buffer with
  | none => exact h
  | some id =>
    dsimp only
    split_ifs with hc
    · have hfd : l.server.connFd = fd := by
        by_contra hne
        exact hc.2 (h.gone hne).1
      refine h.write (m := .removeBuffer id) ?_ hfd hfd nofun rfl
      rw [← hfd]
      rfl
    · exact h

theorem serverError (h : l.Agrees fd) :
    Link.Agrees fd { l with server := handleError fd l.server } := by
  have hminus : (-1 : ℤ) ≠ fd := by omega
  exact ⟨h.fresh, fun hfd => absurd hfd hminus, fun _ => ⟨rfl, rfl⟩, h.processed, h.held,
    h.unheld, h.renderer⟩

/-- The activity reads one more message. -/
theorem xcallback (h : l.Agrees fd) (hc : l.connected = true) {m : Sent}
    (hm : (messages fd l.server)[l.processed]? = some m) :
    Link.Agrees fd
      { l with processed := l.processed + 1, renderer := Server.xcallback m l.renderer } := by
  have htake : (messages fd l.server).take (l.processed + 1) =
      (messages fd l.server).take l.processed ++ [m] := by
    rw [List.take_add_one, hm]
    rfl
  have hfresh : Fresh ((messages fd l.server).take l.processed) := by
    have hsplit := List.take_append_drop l.processed (messages fd l.server)
    exact Fresh.of_append (hsplit.symm ▸ h.fresh)
  obtain ⟨hheld, hinv⟩ := heldIds_xcallback h.renderer (h.held hc) (nodup_announced hfresh) m
  refine ⟨h.fresh, h.registered, h.gone, ?_, fun _ => ?_, fun hno => ?_, hinv⟩
  · exact (List.getElem?_eq_some_iff.1 hm).1
  · rw [htake, announced_concat]
    exact hheld
  · rw [hc] at hno
    cases hno

theorem hangUp (h : l.Agrees fd) :
    Link.Agrees fd { l with connected := false, renderer := l.renderer.removeAllBuffers } :=
  ⟨h.fresh, h.registered, h.gone, h.processed, nofun, fun _ => rfl,
    Renderer.inv_removeAllBuffers h.renderer⟩

theorem render (h : l.Agrees fd) {a : Action} {l' : Link} (hs : l.render a = some l')
    (ha : ∀ id, a ≠ .addBuffer id ∧ a ≠ .removeBuffer id) (ha' : a ≠ .removeAllBuffers) :
    l'.Agrees fd := by
  obtain ⟨r, hr, rfl⟩ := Option.map_eq_some_iff.1 hs
  have hheld := heldIds_render hr ha ha'
  refine ⟨h.fresh, h.registered, h.gone, h.processed, fun hc => hheld.trans (h.held hc),
    fun hc => ?_, Renderer.inv_step h.renderer hr⟩
  rw [h.unheld hc] at hheld
  exact hheld.eq_nil

theorem step (h : l.Agrees fd) {a : LinkStep} {l' : Link} (hs : l.step fd a = some l') :
    l'.Agrees fd := by
  cases a with
  | registerBuffer buffer =>
    obtain rfl := Option.some.inj hs
    exact h.registerBuffer buffer
  | unregisterBuffer buffer =>
    obtain rfl := Option.some.inj hs
    exact h.unregisterBuffer buffer
  | xcallback =>
    simp only [Link.step] at hs
    split_ifs at hs with hc
    obtain ⟨m, hm, rfl⟩ := Option.map_eq_some_iff.1 hs
    exact h.xcallback hc hm
  | serverError =>
    obtain rfl := Option.some.inj hs
    exact h.serverError
  | hangUp =>
    obtain rfl := Option.some.inj hs
    exact h.hangUp
  | attach => exact h.render hs (fun _ => ⟨nofun, nofun⟩) nofun
  | skipRedraw => exact h.render hs (fun _ => ⟨nofun, nofun⟩) nofun
  | beginRedraw id => exact h.render hs (fun _ => ⟨nofun, nofun⟩) nofun
  | endRedraw => exact h.render hs (fun _ => ⟨nofun, nofun⟩) nofun
  | release => exact h.render hs (fun _ => ⟨nofun, nofun⟩) nofun

end Link.Agrees

theorem agrees_start (rootBuffer : Option ℕ) (fd : ℕ) : (Link.start rootBuffer fd).Agrees fd := by
  set s₀ : Connection := { Connection.start rootBuffer with inputDevs := [fd], connFd := fd }
  have hfd : (fd : ℤ) ≠ -1 := by omega
  have hfresh : Fresh (messages fd s₀) := by
    intro ms₁ id ms₂ heq
    exact absurd (congrArg List.length heq) (by simp [messages, s₀, Connection.start])
  have hopen : Link.Agrees fd { server := s₀ } :=
    ⟨hfresh, fun _ => rfl, fun hne => absurd rfl hne, le_rfl, fun _ => List.Perm.refl _, nofun,
      Renderer.inv_start⟩
  have hshared : Link.Agrees fd { server := lorieSendSharedServerState s₀ } := by
    rw [lorieSendSharedServerState, if_pos hfd]
    exact hopen.write (m := .sharedServerState) rfl rfl rfl nofun rfl
  exact hshared.registerBuffer rootBuffer

/-- **Registration agreement**: in every state of every run over a connection, once all that
was written has been processed, the activity holds the buffers that are registered; it holds
none twice; between two announcements of a buffer there is its removal; and when both sides
have handled a disconnect, both sets are empty. -/
theorem heldIds_eq_registered (rootBuffer : Option ℕ) (fd : ℕ) {steps : List LinkStep} {l : Link}
    (h : tryExec (Link.step fd) (Link.start rootBuffer fd) steps = some l) :
    (l.server.connFd = fd → l.connected = true →
        l.processed = (messages fd l.server).length →
        ∀ id, id ∈ heldIds l.renderer ↔ id ∈ l.server.registeredBuffers) ∧
      (heldIds l.renderer).Nodup ∧
      (∀ a b c id, messages fd l.server = a ++ .addBuffer id :: b ++ .addBuffer id :: c →
        .removeBuffer id ∈ b) ∧
      (l.server.connFd ≠ fd → l.connected = false →
        heldIds l.renderer = [] ∧ l.server.registeredBuffers = []) := by
  have hagrees : l.Agrees fd :=
    tryExec_invariant (fun _ _ _ hI _ hs => hI.step hs) (agrees_start rootBuffer fd)
      (tryAlways_true _ _) h
  refine ⟨fun hfd hc hdone id => ?_, ?_, fun a b c id heq => ?_, fun hfd hc => ?_⟩
  · have hheld := hagrees.held hc
    rw [hdone, List.take_length, hagrees.registered hfd] at hheld
    exact hheld.mem_iff
  · cases hc : l.connected with
    | true =>
      -- what has been processed is a beginning of what was sent, so it announces nothing twice
      have hsplit := List.take_append_drop l.processed (messages fd l.server)
      have hfresh : Fresh ((messages fd l.server).take l.processed) :=
        Fresh.of_append (hsplit.symm ▸ hagrees.fresh)
      exact (hagrees.held hc).nodup_iff.2 (nodup_announced hfresh)
    | false =>
      rw [hagrees.unheld hc]
      exact List.nodup_nil
  · exact removed_between (heq ▸ hagrees.fresh)
  · exact ⟨hagrees.unheld hc, (hagrees.gone hfd).2⟩

/-- The root buffer and another one, of which the other is removed again after it was
attached. -/
theorem heldIds_eq_registered_removed :
    ∃ l, tryExec (Link.step 5) (Link.start (some 1) 5) [.xcallback, .registerBuffer (some 2),
        .xcallback, .xcallback, .attach, .unregisterBuffer (some 2), .xcallback] = some l ∧
      l.server.registeredBuffers = [1] ∧ ∀ id, id ∈ heldIds l.renderer ↔ id = 1 := by
  have hrun : (tryExec (Link.step 5) (Link.start (some 1) 5) [.xcallback,
      .registerBuffer (some 2), .xcallback, .xcallback, .attach, .unregisterBuffer (some 2),
      .xcallback]).map (fun l => (l.server.connFd, l.connected, l.processed,
        (messages 5 l.server).length, l.server.registeredBuffers)) = some (5, true, 4, 4, [1]) := by
    decide +kernel
  obtain ⟨l, hl, hfields⟩ := Option.map_eq_some_iff.1 hrun
  simp only [Prod.mk.injEq] at hfields
  obtain ⟨hfd, hc, hprocessed, hlength, hreg⟩ := hfields
  refine ⟨l, hl, hreg, fun id => ?_⟩
  rw [(heldIds_eq_registered (some 1) 5 hl).1 hfd hc (hprocessed.trans hlength.symm) id, hreg,
    List.mem_singleton]

end TermuxX11.Server
