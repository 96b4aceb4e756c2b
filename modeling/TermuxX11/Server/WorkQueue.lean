import TermuxX11.Lib.LinkedList
import TermuxX11.Lib.Run

/-!
# The work queue

`QueueWorkProc` and `ProcessWorkQueue` of the patched server, which share a list under
`workQueueLock`.  Each critical section is one step; between two of them other threads, and the
work function that is running, may queue more.  An access to a node that was freed fails.

`function`, `client` and `closure` of an item play no part in what the queue does with it: an item
is the number of the call that queued it, and what its function returns comes with the step.  The
log is kept for the proofs.
-/

namespace TermuxX11.Server.WorkQueue

open LinkedList Run

/-- What happens to the item `n`; scans are numbered too. -/
inductive Event
  | queued (n : ℕ)
  | called (scan n : ℕ)
  | returned (n : ℕ) (result : Bool)
  | ended (scan : ℕ)
  deriving DecidableEq

/-- The queue; `running` has `p` and `q` of `ProcessWorkQueue` while a work function runs. -/
structure State where
  heap : Heap ℕ ℕ := {}
  workQueueLast : LinkedList.Link ℕ := .head
  running : Option (LinkedList.Link ℕ × ℕ) := none
  queued : ℕ := 0
  scans : ℕ := 0
  log : List Event := []

/-- A critical section; `q` is what `malloc` gave. -/
inductive Step
  | queueWorkProc (q : ℕ)
  | processWorkQueue
  | returns (result : Bool)

namespace State

/-- `QueueWorkProc`. -/
def queueWorkProc (s : State) (q : ℕ) : Option State :=
  ((s.heap.alloc q s.queued).write s.workQueueLast (some q)).map fun heap =>
    { s with
      heap
      workQueueLast := .next q
      queued := s.queued + 1
      log := s.log ++ [.queued s.queued] }

/-- The head of the loop of `ProcessWorkQueue`, up to the call or to the end of the function. -/
def loop (s : State) (p : LinkedList.Link ℕ) : Option State :=
  match s.heap.read p with
  | none => none
  | some none =>
    some { s with workQueueLast := p, running := none, log := s.log ++ [.ended s.scans] }
  | some (some q) =>
    (s.heap.item q).map fun n =>
      { s with running := some (p, q), log := s.log ++ [.called s.scans n] }

/-- `ProcessWorkQueue` begins. -/
def processWorkQueue (s : State) : Option State :=
  { s with scans := s.scans + 1 }.loop .head

/-- The function of `q` has returned. -/
def returns (s : State) (p : LinkedList.Link ℕ) (q : ℕ) (result : Bool) : Option State :=
  (s.heap.item q).bind fun n =>
    let s : State := { s with log := s.log ++ [.returned n result] }
    if result then
      (s.heap.read (.next q)).bind fun next =>
        (s.heap.write p next).bind fun heap => { s with heap := heap.free q }.loop p
    else s.loop (.next q)

end State

/-- One step; `none` is an access to memory that is not allocated, or no step at all. -/
def step (s : State) : Step → Option State
  | .queueWorkProc q => s.queueWorkProc q
  | .processWorkQueue => if s.running.isSome then none else s.processWorkQueue
  | .returns result => s.running.bind fun (p, q) => s.returns p q result

/-- `malloc` gives memory that is not in use, and one thread runs `ProcessWorkQueue`. -/
def Enabled (s : State) : Step → Prop
  | .queueWorkProc q => s.heap.node q = none
  | .processWorkQueue => s.running = none
  | .returns _ => s.running.isSome = true

/-- What may happen after `l`: an item is called if it was queued and has not returned `TRUE`, in
the order of queueing within each scan, and a scan ends when it has called all that are left. -/
def Event.Allowed (l : List Event) : Event → Prop
  | queued n => ∀ m, .queued m ∈ l → m < n
  | called k n => .queued n ∈ l ∧ .returned n true ∉ l ∧ ∀ m, .called k m ∈ l → m < n
  | returned n _ => ∃ k, .called k n ∈ l
  | ended k => ∀ n, .queued n ∈ l → .returned n true ∈ l ∨ .called k n ∈ l

/-! ### The log and the items that are left -/

/-- The log tells of the items: `count` were queued, and `ns` are left, in the order of queueing. -/
structure Told (log : List Event) (count scans : ℕ) (ns : List ℕ) : Prop where
  sorted : ns.Pairwise (· < ·)
  queued : ∀ n, .queued n ∈ log ↔ n < count
  below : ∀ n ∈ ns, n < count
  kept : ∀ n < count, .returned n true ∈ log ∨ n ∈ ns
  gone : ∀ n, .returned n true ∈ log → n < count ∧ n ∉ ns
  called : ∀ k n, .called k n ∈ log → k ≤ scans ∧ n < count
  allowed : ∀ l e, l ++ [e] <+: log → Event.Allowed l e

/-- The scan has called the items `before` its place, and none of those `after` it. -/
structure Scanning (log : List Event) (scan : ℕ) (before after : List ℕ) : Prop where
  called : ∀ n ∈ before, .called scan n ∈ log
  ahead : ∀ m, .called scan m ∈ log → ∀ n ∈ after, m < n

section

variable {log : List Event} {count scans n : ℕ} {ns before after : List ℕ} {e : Event}

/-- Something more has happened. -/
theorem allowed_concat (h : ∀ l e, l ++ [e] <+: log → Event.Allowed l e)
    (he : Event.Allowed log e) : ∀ l e', l ++ [e'] <+: log ++ [e] → Event.Allowed l e' := by
  intro l e' hp
  rcases List.prefix_concat_iff.1 hp with heq | hp
  · obtain ⟨rfl, hone⟩ := List.append_inj' heq rfl
    obtain rfl := List.singleton_inj.1 hone
    exact he
  · exact h l e' hp

namespace Told

/-- An item is queued. -/
theorem queue (h : Told log count scans ns) :
    Told (log ++ [.queued count]) (count + 1) scans (ns ++ [count]) where
  sorted := by
    rw [List.pairwise_append]
    refine ⟨h.sorted, List.pairwise_singleton _ _, fun m hm n hn => ?_⟩
    rw [List.mem_singleton.1 hn]
    exact h.below m hm
  queued n := by
    rw [List.mem_append, h.queued, List.mem_singleton, Event.queued.injEq]
    omega
  below n hn := by
    rcases List.mem_append.1 hn with hn | hn
    · exact Nat.lt_succ_of_lt (h.below n hn)
    · rw [List.mem_singleton.1 hn]
      exact Nat.lt_succ_self count
  kept n hn := by
    rcases Nat.lt_succ_iff_lt_or_eq.1 hn with hn | rfl
    · rcases h.kept n hn with hr | hm
      · exact Or.inl (List.mem_append_left _ hr)
      · exact Or.inr (List.mem_append_left _ hm)
    · exact Or.inr (List.mem_append_right _ List.mem_cons_self)
  gone n hr := by
    have hr : .returned n true ∈ log := by simpa using hr
    obtain ⟨hlt, hn⟩ := h.gone n hr
    refine ⟨Nat.lt_succ_of_lt hlt, fun hmem => ?_⟩
    rcases List.mem_append.1 hmem with hmem | hmem
    · exact hn hmem
    · exact hlt.ne (List.mem_singleton.1 hmem)
  called k n hc := by
    have hc : .called k n ∈ log := by simpa using hc
    exact ⟨(h.called k n hc).1, Nat.lt_succ_of_lt (h.called k n hc).2⟩
  allowed := allowed_concat h.allowed fun m hm => (h.queued m).1 hm

/-- Something happens that queues nothing and that no item leaves the queue by. -/
theorem concat (h : Told log count scans ns) (hqueued : ∀ m, e ≠ .queued m)
    (hreturned : ∀ m, e ≠ .returned m true)
    (hcalled : ∀ k m, e = .called k m → k ≤ scans ∧ m < count) (he : Event.Allowed log e) :
    Told (log ++ [e]) count scans ns where
  sorted := h.sorted
  queued m := by simpa [(hqueued m).symm] using h.queued m
  below := h.below
  kept m hm := by simpa [(hreturned m).symm] using h.kept m hm
  gone m hr := h.gone m (by simpa [(hreturned m).symm] using hr)
  called k m hc := by
    rcases List.mem_append.1 hc with hc | hc
    · exact h.called k m hc
    · exact hcalled k m (List.mem_singleton.1 hc).symm
  allowed := allowed_concat h.allowed he

/-- An item that is left is called. -/
theorem call (h : Told log count scans ns) (hn : n ∈ ns)
    (hahead : ∀ m, .called scans m ∈ log → m < n) :
    Told (log ++ [.called scans n]) count scans ns := by
  refine h.concat nofun nofun (fun k m heq => ?_) ⟨?_, fun hr => ?_, hahead⟩
  · obtain ⟨rfl, rfl⟩ := Event.called.inj heq
    exact ⟨le_rfl, h.below n hn⟩
  · exact (h.queued n).2 (h.below n hn)
  · exact (h.gone n hr).2 hn

/-- A function has returned `FALSE`. -/
theorem keep (h : Told log count scans ns) (hcalled : .called scans n ∈ log) :
    Told (log ++ [.returned n false]) count scans ns :=
  h.concat nofun nofun nofun ⟨scans, hcalled⟩

/-- A function has returned `TRUE`. -/
theorem finish (h : Told log count scans (before ++ n :: after))
    (hcalled : .called scans n ∈ log) :
    Told (log ++ [.returned n true]) count scans (before ++ after) where
  sorted := h.sorted.sublist (List.Sublist.append_left (List.sublist_cons_self n after) before)
  queued m := by simpa using h.queued m
  below m hm := by
    refine h.below m ?_
    rw [List.mem_append, List.mem_cons]
    rcases List.mem_append.1 hm with hm | hm
    · exact Or.inl hm
    · exact Or.inr (Or.inr hm)
  kept m hm := by
    rcases h.kept m hm with hr | hmem
    · exact Or.inl (List.mem_append_left _ hr)
    · rcases eq_or_ne m n with rfl | hne
      · exact Or.inl (List.mem_append_right _ List.mem_cons_self)
      · right
        simpa [hne] using hmem
  gone m hr := by
    have hnot : n ∉ before ++ after := by
      have hnodup : (before ++ n :: after).Nodup := h.sorted.imp fun h => h.ne
      exact (List.nodup_middle.1 hnodup).notMem
    rcases List.mem_append.1 hr with hr | hr
    · obtain ⟨hlt, hm⟩ := h.gone m hr
      refine ⟨hlt, fun hmem => hm ?_⟩
      rw [List.mem_append, List.mem_cons]
      rcases List.mem_append.1 hmem with hmem | hmem
      · exact Or.inl hmem
      · exact Or.inr (Or.inr hmem)
    · obtain ⟨rfl, -⟩ := Event.returned.inj (List.mem_singleton.1 hr)
      refine ⟨h.below m ?_, hnot⟩
      exact List.mem_append_right _ List.mem_cons_self
  called k m hc := h.called k m (by simpa using hc)
  allowed := allowed_concat h.allowed ⟨scans, hcalled⟩

/-- The scan has called all that are left. -/
theorem finishScan (h : Told log count scans ns) (hall : ∀ n ∈ ns, .called scans n ∈ log) :
    Told (log ++ [.ended scans]) count scans ns := by
  refine h.concat nofun nofun nofun fun n hn => ?_
  exact (h.kept n ((h.queued n).1 hn)).imp_right (hall n)

/-- The next scan begins. -/
theorem nextScan (h : Told log count scans ns) :
    Told log count (scans + 1) ns ∧ Scanning log (scans + 1) [] ns := by
  have hnone : ∀ m, .called (scans + 1) m ∉ log := fun m hm =>
    absurd (h.called _ m hm).1 (Nat.not_succ_le_self scans)
  refine ⟨{ h with called := fun k m hc => ?_ }, ⟨by simp, fun m hm => absurd hm (hnone m)⟩⟩
  exact ⟨Nat.le_succ_of_le (h.called k m hc).1, (h.called k m hc).2⟩

end Told

end

/-! ### The list -/

/-- The numbers of the items on the list. -/
def serials (xs : List (ℕ × ℕ)) : List ℕ := xs.map Prod.snd

@[simp] theorem serials_append (xs ys : List (ℕ × ℕ)) :
    serials (xs ++ ys) = serials xs ++ serials ys :=
  List.map_append

@[simp] theorem serials_cons (x : ℕ × ℕ) (xs : List (ℕ × ℕ)) :
    serials (x :: xs) = x.2 :: serials xs := rfl

/-- The list is `xs`, and the log tells of it. -/
structure Holds (s : State) (xs : List (ℕ × ℕ)) : Prop where
  chain : Chain s.heap .head xs
  nodup : (addresses xs).Nodup
  told : Told s.log s.queued s.scans (serials xs)

/-- Between two critical sections: the last link is where the list ends, and a scan is at one of
its nodes. -/
structure Inv (s : State) (xs : List (ℕ × ℕ)) : Prop extends Holds s xs where
  last : s.workQueueLast = tail .head xs
  running : ∀ p q, s.running = some (p, q) → ∃ before n after,
    xs = before ++ (q, n) :: after ∧ p = tail .head before ∧
      Scanning s.log s.scans (serials before ++ [n]) (serials after)

section

variable {s : State} {xs ys : List (ℕ × ℕ)} {p : LinkedList.Link ℕ} {q n : ℕ}

theorem head_ne_next : ∀ b ∈ addresses xs, (.head : LinkedList.Link ℕ) ≠ .next b := by
  intro b _ h
  cases h

/-- The loop goes on after the items `xs`, before the items `ys`. -/
theorem loop_spec (h : Holds s (xs ++ ys))
    (hscan : Scanning s.log s.scans (serials xs) (serials ys))
    (hlast : s.workQueueLast = tail .head (xs ++ ys) ∨ ys = []) :
    ∃ s', s.loop (tail .head xs) = some s' ∧ Inv s' (xs ++ ys) := by
  have hchain := h.chain.read_tail
  cases ys with
  | nil =>
    have hread : s.heap.read (tail .head xs) = some none := hchain
    refine ⟨_, by rw [State.loop, hread], ?_⟩
    rw [List.append_nil] at h ⊢
    exact
      { chain := h.chain
        nodup := h.nodup
        told := h.told.finishScan hscan.called
        last := rfl
        running := fun p q hr => by cases hr }
  | cons y ys =>
    obtain ⟨q, n⟩ := y
    obtain ⟨hread, hitem, -⟩ := hchain
    have hloop : s.loop (tail .head xs) = some { s with
        running := some (tail .head xs, q), log := s.log ++ [.called s.scans n] } := by
      rw [State.loop, hread]
      simp only [hitem, Option.map_some]
    have hn : n ∈ serials (xs ++ (q, n) :: ys) := by simp
    have hsorted := h.told.sorted
    rw [serials_append, serials_cons, List.pairwise_append, List.pairwise_cons] at hsorted
    refine ⟨_, hloop, ?_⟩
    refine
      { chain := h.chain
        nodup := h.nodup
        told := h.told.call hn fun m hm => hscan.ahead m hm n List.mem_cons_self
        last := hlast.resolve_right (List.cons_ne_nil _ _)
        running := ?_ }
    intro p' q' hr
    obtain ⟨rfl, rfl⟩ := Prod.mk.inj (Option.some.inj hr)
    refine ⟨xs, n, ys, rfl, rfl, ?_, ?_⟩
    · intro m hm
      rcases List.mem_append.1 hm with hm | hm
      · exact List.mem_append_left _ (hscan.called m hm)
      · rw [List.mem_singleton.1 hm]
        exact List.mem_append_right _ List.mem_cons_self
    · intro m hm n' hn'
      rcases List.mem_append.1 hm with hm | hm
      · exact hscan.ahead m hm n' (List.mem_cons_of_mem _ hn')
      · obtain ⟨-, rfl⟩ := Event.called.inj (List.mem_singleton.1 hm)
        exact hsorted.2.1.1 n' hn'

theorem queueWorkProc_spec (h : Inv s xs) (hfree : s.heap.node q = none) :
    ∃ s', s.queueWorkProc q = some s' ∧ Inv s' (xs ++ [(q, s.queued)]) := by
  have hitem : s.heap.item q = none := by rw [Heap.item, hfree, Option.map_none]
  have hq : q ∉ addresses xs := by
    intro hmem
    have hsome := h.chain.allocated hmem
    rw [hitem] at hsome
    cases hsome
  -- the link at the end is that of a node on the list, and not of the new one
  have hne : tail .head xs ≠ .next q := by
    rcases tail_eq .head xs with heq | ⟨b, hb, heq⟩
    · rw [heq]
      exact fun h => by cases h
    · rw [heq]
      rintro ⟨⟩
      exact hq hb
  have hend : Chain s.heap (tail .head xs) [] := by
    have hc := h.chain
    rw [← List.append_nil xs] at hc
    exact hc.read_tail
  have hread : (s.heap.alloc q s.queued).read s.workQueueLast = some none := by
    rw [h.last, Heap.read_alloc, if_neg hne]
    exact hend
  obtain ⟨heap, hwrite⟩ := Heap.write_of_read hread (some q)
  refine ⟨_, Option.map_eq_some_iff.2 ⟨heap, hwrite, rfl⟩, ?_⟩
  rw [h.last] at hwrite
  refine
    { chain := h.chain.concat h.nodup head_ne_next (fun h => by cases h) hitem hwrite
      nodup := ?_
      told := ?_
      last := (tail_concat .head xs q s.queued).symm
      running := ?_ }
  · rw [addresses_append]
    exact List.nodup_append.2 ⟨h.nodup, List.nodup_singleton q, fun a ha b hb => by
      rw [List.mem_singleton.1 hb]
      rintro rfl
      exact hq ha⟩
  · rw [serials_append]
    exact h.told.queue
  · intro p' q' hr
    obtain ⟨before, n, after, rfl, hp, hscan⟩ := h.running p' q' hr
    refine ⟨before, n, after ++ [(q, s.queued)], by simp, hp, ?_, ?_⟩
    · exact fun m hm => List.mem_append_left _ (hscan.called m hm)
    · intro m hm n' hn'
      have hm : .called s.scans m ∈ s.log := by simpa using hm
      rw [serials_append] at hn'
      rcases List.mem_append.1 hn' with hn' | hn'
      · exact hscan.ahead m hm n' hn'
      · rw [List.mem_singleton.1 hn']
        exact (h.told.called _ m hm).2

theorem processWorkQueue_spec (h : Inv s xs) :
    ∃ s', s.processWorkQueue = some s' ∧ Inv s' xs := by
  obtain ⟨htold, hscan⟩ := h.told.nextScan
  exact @loop_spec { s with scans := s.scans + 1 } [] xs ⟨h.chain, h.nodup, htold⟩ hscan
    (Or.inl h.last)

/-- The function returns `FALSE`: the scan goes on after its node. -/
theorem returns_false_spec (h : Inv s xs) (hrun : s.running = some (p, q)) :
    ∃ s', s.returns p q false = some s' ∧ Inv s' xs := by
  obtain ⟨before, n, after, rfl, rfl, hscan⟩ := h.running p q hrun
  obtain ⟨-, hitem, -⟩ := h.chain.read_tail
  have hcalled := hscan.called n (List.mem_append_right _ List.mem_cons_self)
  have hsplit : before ++ (q, n) :: after = (before ++ [(q, n)]) ++ after := by simp
  have hreturns : s.returns (tail .head before) q false =
      State.loop { s with log := s.log ++ [.returned n false] }
        (tail .head (before ++ [(q, n)])) := by
    rw [tail_concat]
    simp only [State.returns, hitem, Option.bind_some, Bool.false_eq_true, if_false]
  rw [hreturns, hsplit]
  refine loop_spec ?_ ?_ (Or.inl ?_)
  · rw [← hsplit]
    exact ⟨h.chain, h.nodup, h.told.keep hcalled⟩
  · rw [serials_append]
    refine ⟨fun m hm => List.mem_append_left _ (hscan.called m hm), fun m hm => ?_⟩
    exact hscan.ahead m (by simpa using hm)
  · rw [← hsplit]
    exact h.last

/-- The function returns `TRUE`: its node is taken out and freed. -/
theorem returns_true_spec (h : Inv s xs) (hrun : s.running = some (p, q)) :
    ∃ s' ys, s.returns p q true = some s' ∧ Inv s' ys := by
  obtain ⟨before, n, after, rfl, rfl, hscan⟩ := h.running p q hrun
  have hplace := h.chain.read_tail
  obtain ⟨hread, hitem, hrest⟩ := hplace
  have hcalled := hscan.called n (List.mem_append_right _ List.mem_cons_self)
  have hnext : s.heap.read (.next q) = some (after.head?.map Prod.fst) := by
    cases after with
    | nil => exact hrest
    | cons y after => exact hrest.1
  obtain ⟨heap, hwrite⟩ := Heap.write_of_read hread (after.head?.map Prod.fst)
  have hreturns : s.returns (tail .head before) q true =
      State.loop { s with heap := heap.free q, log := s.log ++ [.returned n true] }
        (tail .head before) := by
    simp only [State.returns, hitem, hnext, hwrite, Option.bind_some, if_true]
  rw [hreturns]
  have hnodup : (addresses (before ++ after)).Nodup := by
    have hnodup := h.nodup
    rw [addresses_append, addresses_cons] at hnodup
    rw [addresses_append]
    exact (List.nodup_middle.1 hnodup).of_cons
  have htold := h.told
  rw [serials_append, serials_cons] at htold
  have hholds : Holds { s with heap := heap.free q, log := s.log ++ [.returned n true] }
      (before ++ after) := by
    refine ⟨h.chain.remove h.nodup head_ne_next hwrite, hnodup, ?_⟩
    rw [serials_append]
    exact htold.finish hcalled
  have hscan' : Scanning (s.log ++ [.returned n true]) s.scans (serials before)
      (serials after) := by
    refine ⟨fun m hm => ?_, fun m hm => hscan.ahead m (by simpa using hm)⟩
    exact List.mem_append_left _ (hscan.called m (List.mem_append_left _ hm))
  -- if the node was the last one, the scan ends here and moves the last link
  have hlast : s.workQueueLast = tail .head (before ++ after) ∨ after = [] := by
    rcases eq_or_ne after [] with hafter | hafter
    · exact Or.inr hafter
    · exact Or.inl (h.last.trans (tail_remove .head before (q, n) hafter))
  obtain ⟨s', hs', hinv⟩ := loop_spec hholds hscan' hlast
  exact ⟨s', _, hs', hinv⟩

/-- Every critical section finds its memory allocated and keeps the invariant. -/
theorem step_spec {a : Step} (h : ∃ xs, Inv s xs) (ha : Enabled s a) :
    ∃ s', step s a = some s' ∧ ∃ xs, Inv s' xs := by
  obtain ⟨xs, h⟩ := h
  cases a with
  | queueWorkProc q =>
    obtain ⟨s', hs', hinv⟩ := queueWorkProc_spec h ha
    exact ⟨s', hs', _, hinv⟩
  | processWorkQueue =>
    obtain ⟨s', hs', hinv⟩ := processWorkQueue_spec h
    have hrun : s.running = none := ha
    refine ⟨s', ?_, _, hinv⟩
    rw [step, hrun]
    exact hs'
  | returns result =>
    obtain ⟨⟨p, q⟩, hrun⟩ := Option.isSome_iff_exists.1 ha
    have hreturns : step s (.returns result) = s.returns p q result := by
      rw [step, hrun, Option.bind_some]
    rw [hreturns]
    cases result with
    | false =>
      obtain ⟨s', hs', hinv⟩ := returns_false_spec h hrun
      exact ⟨s', hs', _, hinv⟩
    | true =>
      obtain ⟨s', ys, hs', hinv⟩ := returns_true_spec h hrun
      exact ⟨s', hs', ys, hinv⟩

end

theorem inv_start : Inv {} [] where
  chain := rfl
  nodup := List.nodup_nil
  told :=
    { sorted := List.Pairwise.nil
      queued := by simp
      below := by simp [serials]
      kept := by simp
      gone := by simp
      called := by simp
      allowed := by simp }
  last := rfl
  running p q h := by cases h

/-- **The queue loses nothing**: no critical section fails, the last link is the one that ends the
list, every item that was queued is on it or has returned `TRUE`, and the calls are those that are
allowed. -/
theorem queue_loses_nothing {as : List Step} (h : TryAlways step Enabled {} as) :
    ∃ s xs, tryExec step {} as = some s ∧
      (Chain s.heap .head xs ∧ s.workQueueLast = tail .head xs) ∧
      (∀ n, .queued n ∈ s.log → .returned n true ∈ s.log ∨ n ∈ serials xs) ∧
      ∀ l e, l ++ [e] <+: s.log → Event.Allowed l e := by
  have hstart : ∃ xs, Inv {} xs := ⟨[], inv_start⟩
  obtain ⟨s, hs⟩ := tryExec_total (I := fun s => ∃ xs, Inv s xs)
    (fun s a hs ha => step_spec hs ha) hstart h
  have hinv : ∃ xs, Inv s xs := by
    refine tryExec_invariant (I := fun s => ∃ xs, Inv s xs) (fun s a s' hs ha hstep => ?_) hstart
      h hs
    obtain ⟨t, ht, hinv⟩ := step_spec hs ha
    obtain rfl := Option.some.inj (ht.symm.trans hstep)
    exact hinv
  obtain ⟨xs, hinv⟩ := hinv
  refine ⟨s, xs, hs, ⟨hinv.chain, hinv.last⟩, fun n hn => ?_, hinv.told.allowed⟩
  exact hinv.told.kept n ((hinv.told.queued n).1 hn)

/-- The only item queues another one while it runs, and is freed when it returns. -/
def requeue : List Step :=
  [.queueWorkProc 1, .processWorkQueue, .queueWorkProc 2, .returns true, .returns false]

theorem requeue_loses_nothing :
    ∃ s xs, tryExec step {} requeue = some s ∧
      (Chain s.heap .head xs ∧ s.workQueueLast = tail .head xs) ∧
      (∀ n, .queued n ∈ s.log → .returned n true ∈ s.log ∨ n ∈ serials xs) ∧
      ∀ l e, l ++ [e] <+: s.log → Event.Allowed l e := by
  refine queue_loses_nothing ⟨rfl, fun s hs => ?_⟩
  obtain rfl := Option.some.inj hs
  refine ⟨rfl, fun s hs => ?_⟩
  obtain rfl := Option.some.inj hs
  refine ⟨rfl, fun s hs => ?_⟩
  obtain rfl := Option.some.inj hs
  refine ⟨rfl, fun s hs => ?_⟩
  obtain rfl := Option.some.inj hs
  exact ⟨rfl, fun s hs => trivial⟩

end TermuxX11.Server.WorkQueue
