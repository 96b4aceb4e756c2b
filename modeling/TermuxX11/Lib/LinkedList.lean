import Mathlib

/-!
# Linked lists in memory

Nodes at addresses of any type `A`, each with an item and a pointer to the next node, and a place
that holds the pointer to the first one.  A `Link` is a place that holds such a pointer, so that a
pointer to a pointer is a link.  Reading and writing memory that is not allocated gives `none`.

`Chain h p xs` says that the nodes `xs`, with their items, are what is found from the link `p` on.
It is kept by a write to the link at its end (`Chain.concat`) and by taking a node out
(`Chain.remove`).
-/

namespace LinkedList

variable {A α : Type}

/-- A place that holds a pointer to a node. -/
inductive Link (A : Type)
  | head
  | next (a : A)
  deriving DecidableEq

structure Node (A α : Type) where
  item : α
  next : Option A := none

/-- The memory. -/
structure Heap (A α : Type) where
  head : Option A := none
  node : A → Option (Node A α) := fun _ => none

namespace Heap

/-- The pointer at a place. -/
def read (h : Heap A α) : Link A → Option (Option A)
  | .head => some h.head
  | .next a => (h.node a).map Node.next

/-- The item of the node at an address. -/
def item (h : Heap A α) (a : A) : Option α := (h.node a).map Node.item

variable [DecidableEq A]

/-- A pointer is written to a place. -/
def write (h : Heap A α) (p : Link A) (q : Option A) : Option (Heap A α) :=
  match p with
  | .head => some { h with head := q }
  | .next a =>
    (h.node a).map fun n => { h with node := Function.update h.node a (some { n with next := q }) }

/-- A new node, which points nowhere. -/
def alloc (h : Heap A α) (a : A) (x : α) : Heap A α :=
  { h with node := Function.update h.node a (some { item := x }) }

def free (h : Heap A α) (a : A) : Heap A α := { h with node := Function.update h.node a none }

variable {h h' : Heap A α} {p : Link A} {q : Option A}

theorem read_write (hw : h.write p q = some h') (l : Link A) :
    h'.read l = if l = p then some q else h.read l := by
  cases p with
  | head =>
    obtain rfl := Option.some.inj hw
    cases l with
    | head => rfl
    | next b => rfl
  | next a =>
    obtain ⟨n, hn, rfl⟩ := Option.map_eq_some_iff.1 hw
    cases l with
    | head => rfl
    | next b =>
      by_cases hb : b = a
      · simp [hb, read]
      · simp [hb, read]

theorem item_write (hw : h.write p q = some h') (b : A) : h'.item b = h.item b := by
  cases p with
  | head =>
    obtain rfl := Option.some.inj hw
    rfl
  | next a =>
    obtain ⟨n, hn, rfl⟩ := Option.map_eq_some_iff.1 hw
    by_cases hb : b = a
    · simp [hb, item, hn]
    · simp [hb, item]

/-- A place that can be read can be written. -/
theorem write_of_read {r : Option A} (hr : h.read p = some r) (q : Option A) :
    ∃ h', h.write p q = some h' := by
  cases p with
  | head => exact ⟨_, rfl⟩
  | next a =>
    obtain ⟨n, hn, -⟩ := Option.map_eq_some_iff.1 hr
    exact ⟨_, Option.map_eq_some_iff.2 ⟨n, hn, rfl⟩⟩

theorem read_alloc (h : Heap A α) (a : A) (x : α) (l : Link A) :
    (h.alloc a x).read l = if l = .next a then some none else h.read l := by
  cases l with
  | head => rfl
  | next b =>
    by_cases hb : b = a
    · simp [hb, read, alloc]
    · simp [hb, read, alloc]

theorem item_alloc (h : Heap A α) (a : A) (x : α) (b : A) :
    (h.alloc a x).item b = if b = a then some x else h.item b := by
  by_cases hb : b = a
  · simp [hb, item, alloc]
  · simp [hb, item, alloc]

theorem read_free (h : Heap A α) (a : A) (l : Link A) :
    (h.free a).read l = if l = .next a then none else h.read l := by
  cases l with
  | head => rfl
  | next b =>
    by_cases hb : b = a
    · simp [hb, read, free]
    · simp [hb, read, free]

theorem item_free (h : Heap A α) (a b : A) :
    (h.free a).item b = if b = a then none else h.item b := by
  by_cases hb : b = a
  · simp [hb, item, free]
  · simp [hb, item, free]

end Heap

/-! ### Chains -/

/-- The nodes found from a link on, with their items, up to the end. -/
def Chain (h : Heap A α) : Link A → List (A × α) → Prop
  | p, [] => h.read p = some none
  | p, (a, x) :: xs => h.read p = some (some a) ∧ h.item a = some x ∧ Chain h (.next a) xs

/-- The link after the nodes `xs` that begin at the link `p`. -/
def tail (p : Link A) : List (A × α) → Link A
  | [] => p
  | (a, _) :: xs => tail (.next a) xs

/-- The addresses of the nodes. -/
def addresses (xs : List (A × α)) : List A := xs.map Prod.fst

@[simp] theorem addresses_append (xs ys : List (A × α)) :
    addresses (xs ++ ys) = addresses xs ++ addresses ys :=
  List.map_append

@[simp] theorem addresses_cons (x : A × α) (xs : List (A × α)) :
    addresses (x :: xs) = x.1 :: addresses xs := rfl

@[simp] theorem tail_nil (p : Link A) : tail p ([] : List (A × α)) = p := rfl

@[simp] theorem tail_concat (p : Link A) (xs : List (A × α)) (a : A) (x : α) :
    tail p (xs ++ [(a, x)]) = .next a := by
  induction xs generalizing p with
  | nil => rfl
  | cons y xs ih => exact ih (.next y.1)

theorem tail_append (p : Link A) (xs ys : List (A × α)) :
    tail p (xs ++ ys) = tail (tail p xs) ys := by
  induction xs generalizing p with
  | nil => rfl
  | cons y xs ih => exact ih (.next y.1)

/-- A node that others follow does not matter for the link at the end. -/
theorem tail_remove (p : Link A) (xs : List (A × α)) (y : A × α) {ys : List (A × α)}
    (hys : ys ≠ []) : tail p (xs ++ y :: ys) = tail p (xs ++ ys) := by
  rw [tail_append, tail_append]
  cases ys with
  | nil => exact absurd rfl hys
  | cons z ys => rfl

/-- The link at the end is the one at the beginning or that of a node. -/
theorem tail_eq (p : Link A) (xs : List (A × α)) :
    tail p xs = p ∨ ∃ a ∈ addresses xs, tail p xs = .next a := by
  induction xs generalizing p with
  | nil => exact Or.inl rfl
  | cons y xs ih =>
    right
    rcases ih (.next y.1) with h | ⟨a, ha, h⟩
    · exact ⟨y.1, List.mem_cons_self, h⟩
    · exact ⟨a, List.mem_cons_of_mem _ ha, h⟩

namespace Chain

variable {h h' : Heap A α} {p : Link A} {xs ys : List (A × α)} {a : A} {x : α}

theorem read_tail (hc : Chain h p (xs ++ ys)) : Chain h (tail p xs) ys := by
  induction xs generalizing p with
  | nil => exact hc
  | cons y xs ih => exact ih hc.2.2

/-- What is found depends on the places that are looked at only. -/
theorem frame (hc : Chain h p xs) (hp : h'.read p = h.read p)
    (hxs : ∀ b ∈ addresses xs, h'.read (.next b) = h.read (.next b) ∧ h'.item b = h.item b) :
    Chain h' p xs := by
  induction xs generalizing p with
  | nil => exact hp.trans hc
  | cons y xs ih =>
    obtain ⟨hread, hitem, hc⟩ := hc
    have hy := hxs y.1 List.mem_cons_self
    refine ⟨hp.trans hread, hy.2.trans hitem, ih hc hy.1 fun b hb => ?_⟩
    exact hxs b (List.mem_cons_of_mem _ hb)

/-- The nodes are allocated. -/
theorem allocated (hc : Chain h p xs) (ha : a ∈ addresses xs) : (h.item a).isSome = true := by
  induction xs generalizing p with
  | nil => cases ha
  | cons y xs ih =>
    obtain ⟨-, hitem, hc⟩ := hc
    rcases List.mem_cons.1 ha with rfl | ha
    · rw [hitem]
      rfl
    · exact ih hc ha

variable [DecidableEq A]

/-- A new node at the end. -/
theorem concat (hc : Chain h p xs) (hnodup : (addresses xs).Nodup)
    (hp : ∀ b ∈ addresses xs, p ≠ .next b) (hpa : p ≠ .next a) (hfresh : h.item a = none)
    (hw : (h.alloc a x).write (tail p xs) (some a) = some h') : Chain h' p (xs ++ [(a, x)]) := by
  have hread : ∀ l, h'.read l = if l = tail p xs then some (some a)
      else if l = .next a then some none else h.read l := by
    intro l
    rw [Heap.read_write hw, Heap.read_alloc]
  have hitem : ∀ b, h'.item b = if b = a then some x else h.item b := by
    intro b
    rw [Heap.item_write hw, Heap.item_alloc]
  clear hw
  induction xs generalizing p with
  | nil =>
    have hread : ∀ l, h'.read l = if l = p then some (some a)
        else if l = .next a then some none else h.read l := hread
    refine ⟨?_, ?_, ?_⟩
    · rw [hread, if_pos rfl]
    · rw [hitem, if_pos rfl]
    · show h'.read (.next a) = some none
      rw [hread, if_neg hpa.symm, if_pos rfl]
  | cons y xs ih =>
    have hya : y.1 ≠ a := by
      rintro rfl
      have hsome := hc.allocated List.mem_cons_self
      rw [hfresh] at hsome
      cases hsome
    obtain ⟨hread', hitem', hc⟩ := hc
    obtain ⟨hy, hnodup⟩ := List.nodup_cons.1 hnodup
    refine ⟨?_, ?_, ih hc hnodup ?_ ?_ hread⟩
    · have hne : p ≠ tail p (y :: xs) := by
        rcases tail_eq (.next y.1) xs with h | ⟨b, hb, h⟩
        · exact fun heq => hp y.1 List.mem_cons_self (heq.trans h)
        · exact fun heq => hp b (List.mem_cons_of_mem _ hb) (heq.trans h)
      rw [hread, if_neg hne, if_neg hpa]
      exact hread'
    · rw [hitem, if_neg hya]
      exact hitem'
    · rintro b hb heq
      obtain rfl := Link.next.inj heq
      exact hy hb
    · exact fun heq => hya (Link.next.inj heq)

/-- A node is taken out: the link to it takes the pointer it has. -/
theorem remove {g : Heap A α} (hc : Chain h p (xs ++ (a, x) :: ys))
    (hnodup : (addresses (xs ++ (a, x) :: ys)).Nodup)
    (hp : ∀ b ∈ addresses (xs ++ (a, x) :: ys), p ≠ .next b)
    (hw : h.write (tail p xs) (ys.head?.map Prod.fst) = some g) :
    Chain (g.free a) p (xs ++ ys) := by
  have hread : ∀ l, (g.free a).read l = if l = .next a then none
      else if l = tail p xs then some (ys.head?.map Prod.fst) else h.read l := by
    intro l
    rw [Heap.read_free, Heap.read_write hw]
  have hitem : ∀ b, (g.free a).item b = if b = a then none else h.item b := by
    intro b
    rw [Heap.item_free, Heap.item_write hw]
  generalize g.free a = h' at hread hitem
  clear hw
  induction xs generalizing p with
  | nil =>
    have hread : ∀ l, h'.read l = if l = .next a then none
        else if l = p then some (ys.head?.map Prod.fst) else h.read l := hread
    obtain ⟨-, -, hc⟩ := hc
    obtain ⟨ha, hnodup⟩ := List.nodup_cons.1 hnodup
    have hpa : p ≠ .next a := hp a List.mem_cons_self
    have hpys : h'.read p = some (ys.head?.map Prod.fst) := by
      rw [hread, if_neg hpa, if_pos rfl]
    cases ys with
    | nil => exact hpys
    | cons z ys =>
      obtain ⟨-, hz, hc⟩ := hc
      have hkeep : ∀ b ∈ addresses (z :: ys),
          h'.read (.next b) = h.read (.next b) ∧ h'.item b = h.item b := by
        intro b hb
        have hba : b ≠ a := by
          rintro rfl
          exact ha hb
        have hbp : Link.next b ≠ p := (hp b (List.mem_cons_of_mem _ hb)).symm
        rw [hread, hitem, if_neg (fun heq => hba (Link.next.inj heq)), if_neg hbp, if_neg hba]
        exact ⟨rfl, rfl⟩
      refine ⟨hpys, ?_, hc.frame ?_ fun b hb => hkeep b (List.mem_cons_of_mem _ hb)⟩
      · rw [(hkeep z.1 List.mem_cons_self).2]
        exact hz
      · exact (hkeep z.1 List.mem_cons_self).1
  | cons y xs ih =>
    obtain ⟨hread', hitem', hc⟩ := hc
    obtain ⟨hy, hnodup⟩ := List.nodup_cons.1 hnodup
    have hmem : a ∈ addresses (xs ++ (a, x) :: ys) := by simp
    have hya : y.1 ≠ a := by
      rintro rfl
      exact hy hmem
    refine ⟨?_, ?_, ih hc hnodup ?_ hread⟩
    · have hne : p ≠ tail p (y :: xs) := by
        rcases tail_eq (.next y.1) xs with h | ⟨b, hb, h⟩
        · exact fun heq => hp y.1 List.mem_cons_self (heq.trans h)
        · refine fun heq => hp b ?_ (heq.trans h)
          rw [List.cons_append, addresses_cons, addresses_append]
          exact List.mem_cons_of_mem _ (List.mem_append_left _ hb)
      rw [hread, if_neg (hp a (List.mem_cons_of_mem _ hmem)), if_neg hne]
      exact hread'
    · rw [hitem, if_neg hya]
      exact hitem'
    · rintro b hb heq
      obtain rfl := Link.next.inj heq
      exact hy hb

end Chain

end LinkedList
