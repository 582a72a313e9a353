/-!
# Linked nodes

`Links` are the fields `next` and `prev` of the nodes of doubly linked lists,
where `none` is a null pointer, so an operation that follows one has no result.
The two operations are insertion in front of a node and removal.

`Avoids l x` says that no node leads to `x`. Both operations keep that, unless `x`
itself is inserted or something is inserted in front of it, whatever the shape of
the lists is.

`Seg` is a piece of a singly linked list in a heap. It does not depend on cells
outside of it (`Seg.congr`), and the cell it leads to can be added to it
(`Seg.concat`).
-/

namespace Arale.Lib

/-- The fields `next` and `prev` of the nodes. -/
structure Links (α : Type) where
  next : α → Option α
  prev : α → Option α

namespace Links

variable {α : Type} [DecidableEq α]

def setNext (l : Links α) (a : α) (b : Option α) : Links α :=
  { l with next := fun x => if x = a then b else l.next x }

def setPrev (l : Links α) (a : α) (b : Option α) : Links α :=
  { l with prev := fun x => if x = a then b else l.prev x }

/-- Inserts a node in front of another one. -/
def insertBefore (l : Links α) (node place : α) : Option (Links α) :=
  let l := l.setNext node (some place)
  let l := l.setPrev node (l.prev place)
  (l.prev node).map fun before => (l.setNext before (some node)).setPrev place (some node)

/-- Removes a node and clears its fields. -/
def remove (l : Links α) (node : α) : Option (Links α) :=
  (l.next node).bind fun behind =>
    let l := l.setPrev behind (l.prev node)
    (l.prev node).map fun before =>
      ((l.setNext before (l.next node)).setNext node none).setPrev node none

end Links

section Avoids

variable {α : Type} {l l' : Links α} {x node place : α}

/-- No node leads to `x`. -/
structure Avoids (l : Links α) (x : α) : Prop where
  next : ∀ y, l.next y ≠ some x
  prev : ∀ y, l.prev y ≠ some x

variable [DecidableEq α]

theorem Avoids.setNext (h : Avoids l x) {b : Option α} (hb : b ≠ some x) (a : α) :
    Avoids (l.setNext a b) x := by
  refine ⟨fun y => ?_, h.prev⟩
  unfold Links.setNext
  dsimp only
  split
  · exact hb
  · exact h.next y

theorem Avoids.setPrev (h : Avoids l x) {b : Option α} (hb : b ≠ some x) (a : α) :
    Avoids (l.setPrev a b) x := by
  refine ⟨h.next, fun y => ?_⟩
  unfold Links.setPrev
  dsimp only
  split
  · exact hb
  · exact h.prev y

theorem Avoids.insertBefore (h : Avoids l x) (hnode : node ≠ x) (hplace : place ≠ x)
    (hinsert : l.insertBefore node place = some l') : Avoids l' x := by
  have hlink : ∀ {a : α}, a ≠ x → some a ≠ some x := fun ha heq => ha (Option.some.inj heq)
  have hnext := h.setNext (hlink hplace) node
  have hprev := hnext.setPrev (hnext.prev place) node
  obtain ⟨before, -, rfl⟩ := Option.map_eq_some_iff.mp hinsert
  exact (hprev.setNext (hlink hnode) before).setPrev (hlink hnode) place

theorem Avoids.remove (h : Avoids l x) (hremove : l.remove node = some l') : Avoids l' x := by
  obtain ⟨behind, -, hremove⟩ := Option.bind_eq_some_iff.mp hremove
  have hprev := h.setPrev (h.prev node) behind
  obtain ⟨before, -, rfl⟩ := Option.map_eq_some_iff.mp hremove
  have hnone : none ≠ some x := (Option.some_ne_none x).symm
  exact ((hprev.setNext (hprev.next node) before).setNext hnone node).setPrev hnone node

end Avoids

section Segments

variable {α β : Type}

/-- A node of a singly linked list. -/
structure Cell (α β : Type) where
  next : Option α
  val : Option β

/-- Following `next` from `a` leads through the cells `xs`, given with the value
that each holds, to `b`. -/
def Seg (heap : α → Option (Cell α β)) : α → List (α × β) → α → Prop
  | a, [], b => a = b
  | a, x :: xs, b => a = x.1 ∧ ∃ c, heap a = some ⟨some c, some x.2⟩ ∧ Seg heap c xs b

variable {heap heap' : α → Option (Cell α β)} {a b c : α} {xs : List (α × β)}

theorem Seg.congr (h : Seg heap a xs b) (heq : ∀ x ∈ xs, heap' x.1 = heap x.1) :
    Seg heap' a xs b := by
  induction xs generalizing a with
  | nil => exact h
  | cons x xs ih =>
    obtain ⟨rfl, c, hcell, hseg⟩ := h
    rw [← heq x List.mem_cons_self] at hcell
    exact ⟨rfl, c, hcell, ih hseg fun y hy => heq y (List.mem_cons_of_mem _ hy)⟩

theorem Seg.concat {v : β} (h : Seg heap a xs b) (hcell : heap b = some ⟨some c, some v⟩) :
    Seg heap a (xs ++ [(b, v)]) c := by
  induction xs generalizing a with
  | nil =>
    obtain rfl : a = b := h
    exact ⟨rfl, c, hcell, rfl⟩
  | cons x xs ih =>
    obtain ⟨rfl, d, hfirst, hseg⟩ := h
    exact ⟨rfl, d, hfirst, ih hseg⟩

/-- The cells of a segment are there. -/
theorem Seg.isSome (h : Seg heap a xs b) : ∀ x ∈ xs, (heap x.1).isSome := by
  induction xs generalizing a with
  | nil => exact fun x hx => absurd hx List.not_mem_nil
  | cons y ys ih =>
    obtain ⟨rfl, d, hfirst, hseg⟩ := h
    intro x hx
    rcases List.mem_cons.mp hx with rfl | hx
    · rw [hfirst]
      rfl
    · exact ih hseg x hx

end Segments

end Arale.Lib
