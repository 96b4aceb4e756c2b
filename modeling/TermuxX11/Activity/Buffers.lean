import TermuxX11.Lib.Run

/-!
# The buffers of the renderer

Buffers that the activity receives pass through three lists of `renderer.c`: `addedBuffers`
until the renderer thread attaches them to GL, `buffers` while they can be drawn, and
`removedBuffers` until the renderer thread releases them.  The link is a field of the buffer,
so adding it to a list takes it out of the one it is in; `xorg_list_add` puts it in front.

The main thread adds and removes buffers, the renderer thread goes round attaching, drawing
and releasing.  Every access to the lists is under `bufferLock`, and a step here is one
critical section of either thread; a redraw begins with one and goes on after it.  `freed` is
the log of `__LorieBuffer_free`, with the thread that made the call.
-/

namespace TermuxX11.Activity

open Run

/-- The fields of `LorieBuffer` that decide its life.  `ref` is the identity of the object;
`attached` says that `LorieBuffer_attachToGL` has been called. -/
structure LorieBuffer where
  ref : ℕ
  id : ℕ
  refcount : ℤ := 1
  attached : Bool := false
  deriving DecidableEq

/-- Who makes a call. -/
inductive Thread
  | main | renderer
  deriving DecidableEq

/-- Where the renderer thread is: before its attach pass, after it, in `rendererRedrawLocked`
with the buffer that was chosen, or before its release pass. -/
inductive Phase
  | attach
  | draw
  | redraw (buffer : Option LorieBuffer)
  | release
  deriving DecidableEq

/-- The lists, the frees so far and the place of the renderer thread. -/
structure Renderer where
  addedBuffers : List LorieBuffer := []
  buffers : List LorieBuffer := []
  removedBuffers : List LorieBuffer := []
  freed : List (LorieBuffer × Thread) := []
  phase : Phase := .attach
  nextRef : ℕ := 0

/-- `LorieBufferList_findById`, with the list after the buffer is taken out of it. -/
def findById (id : ℕ) : List LorieBuffer → Option (LorieBuffer × List LorieBuffer)
  | [] => none
  | b :: bs => if b.id = id then some (b, bs) else (findById id bs).map fun r => (r.1, b :: r.2)

/-- The loop of the attach pass: the first buffer is attached and moved, as long as there is
one. -/
def attachAll : List LorieBuffer → List LorieBuffer → List LorieBuffer
  | [], buffers => buffers
  | b :: bs, buffers => attachAll bs ({ b with attached := true } :: buffers)

/-- The loop that moves the first buffer to the list of removed ones. -/
def moveAll : List LorieBuffer → List LorieBuffer → List LorieBuffer
  | [], removed => removed
  | b :: bs, removed => moveAll bs (b :: removed)

/-- The loop that releases the first buffer as long as there is one.  The count is an `int16`
that goes down until the buffer is freed, so every buffer is. -/
def releaseAll (t : Thread) (bs : List LorieBuffer) : List (LorieBuffer × Thread) :=
  bs.map fun b => (b, t)

/-- A step of one of the threads. -/
inductive Action
  | addBuffer (id : ℕ)
  | removeBuffer (id : ℕ)
  | removeAllBuffers
  | attach
  | skipRedraw
  | beginRedraw (rootWindowTextureID : ℕ)
  | endRedraw
  | release

namespace Renderer

variable (s : Renderer)

/-- `rendererAddBuffer`, on a buffer that has just been received. -/
def addBuffer (id : ℕ) : Renderer :=
  { s with addedBuffers := { ref := s.nextRef, id := id } :: s.addedBuffers
           nextRef := s.nextRef + 1 }

/-- `rendererRemoveBuffer`. -/
def removeBuffer (id : ℕ) : Renderer :=
  match findById id s.addedBuffers with
  | some (b, bs) =>
    if b.refcount = 1 then { s with addedBuffers := bs, freed := s.freed ++ [(b, .main)] }
    else
      { s with
        addedBuffers := s.addedBuffers.map fun b' =>
          if b'.ref = b.ref then { b' with refcount := b'.refcount - 1 } else b' }
  | none =>
    match findById id s.buffers with
    | some (b, bs) => { s with buffers := bs, removedBuffers := b :: s.removedBuffers }
    | none => s

/-- `rendererRemoveAllBuffers`. -/
def removeAllBuffers : Renderer :=
  { s with
    addedBuffers := []
    freed := s.freed ++ releaseAll .main s.addedBuffers
    buffers := []
    removedBuffers := moveAll s.buffers s.removedBuffers }

/-- The attach pass of `rendererThread`. -/
def attach : Renderer :=
  { s with addedBuffers := [], buffers := attachAll s.addedBuffers s.buffers, phase := .draw }

/-- The buffer that `rendererRedrawLocked` draws. -/
def chosen (rootWindowTextureID : ℕ) : Option LorieBuffer :=
  ((findById rootWindowTextureID s.buffers).or
    (findById rootWindowTextureID s.removedBuffers)).map Prod.fst

/-- The release pass of `rendererThread`. -/
def release : Renderer :=
  { s with
    removedBuffers := []
    freed := s.freed ++ releaseAll .renderer s.removedBuffers
    phase := .attach }

/-- One step; a step of the renderer thread is possible only where the thread is. -/
def step (s : Renderer) : Action → Option Renderer
  | .addBuffer id => some (s.addBuffer id)
  | .removeBuffer id => some (s.removeBuffer id)
  | .removeAllBuffers => some s.removeAllBuffers
  | .attach => if s.phase = .attach then some s.attach else none
  | .skipRedraw => if s.phase = .draw then some { s with phase := .release } else none
  | .beginRedraw id =>
    if s.phase = .draw then some { s with phase := .redraw (s.chosen id) } else none
  | .endRedraw =>
    match s.phase with
    | .redraw _ => some { s with phase := .release }
    | _ => none
  | .release => if s.phase = .release then some s.release else none

/-- The objects of the three lists and of the frees. -/
def places : List ℕ :=
  s.addedBuffers.map LorieBuffer.ref ++ s.buffers.map LorieBuffer.ref ++
    s.removedBuffers.map LorieBuffer.ref ++ s.freed.map fun f => f.1.ref

/-- What holds at each moment. -/
structure Inv (s : Renderer) : Prop where
  places : s.places.Perm (List.range s.nextRef)
  added : ∀ b ∈ s.addedBuffers, b.refcount = 1 ∧ b.attached = false
  freed : ∀ f ∈ s.freed, f.1.attached = true → f.2 = .renderer
  redraw : ∀ b, s.phase = .redraw (some b) →
    b.ref ∈ s.buffers.map LorieBuffer.ref ++ s.removedBuffers.map LorieBuffer.ref

end Renderer

/-! ### The loops -/

theorem findById_spec {id : ℕ} {bs : List LorieBuffer} {r : LorieBuffer × List LorieBuffer}
    (h : findById id bs = some r) : r.1.id = id ∧ bs.Perm (r.1 :: r.2) := by
  induction bs generalizing r with
  | nil => cases h
  | cons b bs ih =>
    rw [findById] at h
    split_ifs at h with hid
    · obtain rfl := Option.some.inj h
      exact ⟨hid, List.Perm.refl _⟩
    · obtain ⟨r', hr', rfl⟩ := Option.map_eq_some_iff.1 h
      obtain ⟨hid', hperm⟩ := ih hr'
      exact ⟨hid', (hperm.cons b).trans (List.Perm.swap r'.1 b r'.2)⟩

theorem findById_none {id : ℕ} {bs : List LorieBuffer} (h : findById id bs = none) :
    id ∉ bs.map LorieBuffer.id := by
  induction bs with
  | nil => exact List.not_mem_nil
  | cons b bs ih =>
    rw [findById] at h
    split_ifs at h with hid
    rw [List.map_cons, List.mem_cons, not_or]
    exact ⟨fun heq => hid heq.symm, ih (Option.map_eq_none_iff.1 h)⟩

/-- The pass moves every buffer, and changes nothing but the attachment. -/
theorem map_attachAll {α : Type} (f : LorieBuffer → α)
    (hf : ∀ b, f { b with attached := true } = f b) (as bs : List LorieBuffer) :
    ((attachAll as bs).map f).Perm (as.map f ++ bs.map f) := by
  induction as generalizing bs with
  | nil => exact List.Perm.refl _
  | cons a as ih =>
    rw [attachAll]
    refine (ih _).trans ?_
    rw [List.map_cons, hf]
    exact List.perm_middle

theorem moveAll_perm (as bs : List LorieBuffer) : (moveAll as bs).Perm (as ++ bs) := by
  induction as generalizing bs with
  | nil => exact List.Perm.refl _
  | cons a as ih => exact (ih _).trans List.perm_middle

theorem refs_releaseAll (t : Thread) (bs : List LorieBuffer) :
    (releaseAll t bs).map (fun f => f.1.ref) = bs.map LorieBuffer.ref := by
  rw [releaseAll, List.map_map]
  rfl

/-! ### Each step keeps the invariant -/

namespace Renderer

variable {s s' : Renderer}

/-- The objects are where they were, perhaps in another list. -/
theorem Inv.of_perm (h : Inv s) (hplaces : s'.places.Perm s.places) (hnext : s'.nextRef = s.nextRef)
    (hadded : ∀ b ∈ s'.addedBuffers, b.refcount = 1 ∧ b.attached = false)
    (hfreed : ∀ f ∈ s'.freed, f.1.attached = true → f.2 = .renderer)
    (hredraw : ∀ b, s'.phase = .redraw (some b) →
      b.ref ∈ s'.buffers.map LorieBuffer.ref ++ s'.removedBuffers.map LorieBuffer.ref) : Inv s' :=
  ⟨hnext ▸ hplaces.trans h.places, hadded, hfreed, hredraw⟩

theorem inv_addBuffer (h : Inv s) (id : ℕ) : Inv (s.addBuffer id) := by
  refine ⟨?_, ?_, h.freed, h.redraw⟩
  · have hrange : (List.range (s.nextRef + 1)).Perm (s.nextRef :: List.range s.nextRef) := by
      rw [List.range_succ]
      exact List.perm_append_singleton _ _
    exact (h.places.cons s.nextRef).trans hrange.symm
  · intro b hb
    rcases List.mem_cons.1 hb with rfl | hb
    · exact ⟨rfl, rfl⟩
    · exact h.added b hb

theorem inv_removeBuffer (h : Inv s) (id : ℕ) : Inv (s.removeBuffer id) := by
  unfold removeBuffer
  cases ha : findById id s.addedBuffers with
  | some r =>
    obtain ⟨-, hperm⟩ := findById_spec ha
    have hmem : r.1 ∈ s.addedBuffers := hperm.symm.subset List.mem_cons_self
    have hone := (h.added r.1 hmem).1
    -- a buffer that is not attached has no other holder, so it is freed at once
    dsimp only
    rw [if_pos hone]
    refine h.of_perm ?_ rfl ?_ ?_ h.redraw
    · refine List.perm_iff_count.2 fun n => ?_
      have hcount := (hperm.map LorieBuffer.ref).count_eq n
      simp only [places, List.map_append, List.map_cons, List.map_nil, List.count_append,
        List.count_cons, List.count_nil] at hcount ⊢
      omega
    · exact fun b hb => h.added b (hperm.symm.subset (List.mem_cons_of_mem _ hb))
    · intro f hf hatt
      rcases List.mem_append.1 hf with hf | hf
      · exact h.freed f hf hatt
      · rw [List.mem_singleton.1 hf, (h.added r.1 hmem).2] at hatt
        cases hatt
  | none =>
    dsimp only
    cases hb : findById id s.buffers with
    | some r =>
      -- an attached one waits for the renderer
      obtain ⟨-, hperm⟩ := findById_spec hb
      refine h.of_perm ?_ rfl h.added h.freed ?_
      · refine List.perm_iff_count.2 fun n => ?_
        have hcount := (hperm.map LorieBuffer.ref).count_eq n
        simp only [places, List.map_cons, List.count_append, List.count_cons] at hcount ⊢
        omega
      · intro b hphase
        have hold := h.redraw b hphase
        rw [List.mem_append, (hperm.map LorieBuffer.ref).mem_iff] at hold
        simp only [List.map_cons, List.mem_append, List.mem_cons] at hold ⊢
        tauto
    | none => exact h

theorem inv_removeAllBuffers (h : Inv s) : Inv s.removeAllBuffers := by
  have hmove := (moveAll_perm s.buffers s.removedBuffers).map LorieBuffer.ref
  rw [List.map_append] at hmove
  refine h.of_perm ?_ rfl (fun b hb => absurd hb List.not_mem_nil) ?_ ?_
  · refine List.perm_iff_count.2 fun n => ?_
    have hcount := hmove.count_eq n
    simp only [places, removeAllBuffers, List.map_append, refs_releaseAll, List.map_nil,
      List.count_append, List.count_nil] at hcount ⊢
    omega
  · intro f hf hatt
    rcases List.mem_append.1 hf with hf | hf
    · exact h.freed f hf hatt
    · obtain ⟨b, hb, rfl⟩ := List.mem_map.1 hf
      rw [(h.added b hb).2] at hatt
      cases hatt
  · intro b hphase
    exact hmove.symm.subset (h.redraw b hphase)

theorem inv_attach (h : Inv s) : Inv s.attach := by
  have hattach := map_attachAll LorieBuffer.ref (fun _ => rfl) s.addedBuffers s.buffers
  refine h.of_perm ?_ rfl (fun b hb => absurd hb List.not_mem_nil) h.freed nofun
  refine List.perm_iff_count.2 fun n => ?_
  have hcount := hattach.count_eq n
  simp only [places, attach, List.map_nil, List.count_append, List.count_nil] at hcount ⊢
  omega

theorem inv_release (h : Inv s) : Inv s.release := by
  refine h.of_perm ?_ rfl h.added ?_ nofun
  · refine List.perm_iff_count.2 fun n => ?_
    simp only [places, release, List.map_append, refs_releaseAll, List.map_nil,
      List.count_append, List.count_nil]
    omega
  · intro f hf hatt
    rcases List.mem_append.1 hf with hf | hf
    · exact h.freed f hf hatt
    · obtain ⟨b, hb, rfl⟩ := List.mem_map.1 hf
      rfl

/-- The buffer that is drawn is attached. -/
theorem mem_of_chosen {id : ℕ} {b : LorieBuffer} (h : s.chosen id = some b) :
    b.ref ∈ s.buffers.map LorieBuffer.ref ++ s.removedBuffers.map LorieBuffer.ref := by
  obtain ⟨r, hr, rfl⟩ := Option.map_eq_some_iff.1 h
  rw [List.mem_append]
  rcases Option.or_eq_some_iff.1 hr with hr | ⟨-, hr⟩
  · obtain ⟨-, hperm⟩ := findById_spec hr
    exact Or.inl (List.mem_map_of_mem (hperm.symm.subset List.mem_cons_self))
  · obtain ⟨-, hperm⟩ := findById_spec hr
    exact Or.inr (List.mem_map_of_mem (hperm.symm.subset List.mem_cons_self))

/-- **Every critical section keeps the invariant.** -/
theorem inv_step (h : Inv s) {a : Action} (hs : s.step a = some s') : Inv s' := by
  cases a with
  | addBuffer id =>
    obtain rfl := Option.some.inj hs
    exact inv_addBuffer h id
  | removeBuffer id =>
    obtain rfl := Option.some.inj hs
    exact inv_removeBuffer h id
  | removeAllBuffers =>
    obtain rfl := Option.some.inj hs
    exact inv_removeAllBuffers h
  | attach =>
    simp only [step] at hs
    split_ifs at hs
    obtain rfl := Option.some.inj hs
    exact inv_attach h
  | skipRedraw =>
    simp only [step] at hs
    split_ifs at hs
    obtain rfl := Option.some.inj hs
    exact h.of_perm (List.Perm.refl _) rfl h.added h.freed nofun
  | beginRedraw id =>
    simp only [step] at hs
    split_ifs at hs
    obtain rfl := Option.some.inj hs
    refine h.of_perm (List.Perm.refl _) rfl h.added h.freed fun b hb => ?_
    exact mem_of_chosen (Phase.redraw.inj hb)
  | endRedraw =>
    simp only [step] at hs
    split at hs
    · obtain rfl := Option.some.inj hs
      exact h.of_perm (List.Perm.refl _) rfl h.added h.freed nofun
    · cases hs
  | release =>
    simp only [step] at hs
    split_ifs at hs
    obtain rfl := Option.some.inj hs
    exact inv_release h

theorem inv_start : Inv {} :=
  ⟨List.Perm.refl _, fun _ hb => absurd hb List.not_mem_nil,
    fun _ hf => absurd hf List.not_mem_nil, nofun⟩

/-- **The life of a buffer**: in every state of every interleaving, each buffer that was
received is in exactly one of the three lists or has been freed, once; one that was attached
to GL has been freed by the renderer thread; and the buffer that is being drawn has not been
freed. -/
theorem lifeCycle {as : List Action} {s : Renderer} (h : tryExec step {} as = some s) :
    (∀ ref < s.nextRef, s.places.count ref = 1) ∧
      (∀ f ∈ s.freed, f.1.attached = true → f.2 = .renderer) ∧
      ∀ b, s.phase = .redraw (some b) → b.ref ∉ s.freed.map fun f => f.1.ref := by
  have hinv : Inv s :=
    tryExec_invariant (fun _ _ _ hI _ hs => inv_step hI hs) inv_start (tryAlways_true _ _) h
  have hone : ∀ ref < s.nextRef, s.places.count ref = 1 := by
    intro ref href
    rw [hinv.places.count_eq]
    exact List.count_eq_one_of_mem List.nodup_range (List.mem_range.2 href)
  refine ⟨hone, hinv.freed, fun b hb hfreed => ?_⟩
  -- drawn and freed, the object would be counted twice
  have hlive := List.count_pos_iff.2 (hinv.redraw b hb)
  have hdead := List.count_pos_iff.2 hfreed
  have hmem : b.ref ∈ s.places := by
    simp only [places, List.mem_append]
    exact Or.inr hfreed
  have href : b.ref < s.nextRef := List.mem_range.1 (hinv.places.subset hmem)
  have := hone b.ref href
  simp only [places, List.count_append] at this hlive
  omega

/-- A buffer is received, attached and removed while it is drawn; another one is removed
before it is attached. -/
theorem lifeCycle_removeWhileDrawn :
    ∃ s, tryExec step {} [.addBuffer 7, .attach, .beginRedraw 7, .removeBuffer 7, .addBuffer 8,
        .removeBuffer 8, .endRedraw, .release] = some s ∧
      s.freed.map (fun f => (f.1.id, f.2)) = [(8, .main), (7, .renderer)] ∧
      ∀ ref < s.nextRef, s.places.count ref = 1 := by
  have hrun : tryExec step {} [.addBuffer 7, .attach, .beginRedraw 7, .removeBuffer 7,
      .addBuffer 8, .removeBuffer 8, .endRedraw, .release] = some
        { freed := [({ ref := 1, id := 8 }, .main),
            ({ ref := 0, id := 7, attached := true }, .renderer)], nextRef := 2 } := rfl
  exact ⟨_, hrun, rfl, (lifeCycle hrun).1⟩

end Renderer

end TermuxX11.Activity
