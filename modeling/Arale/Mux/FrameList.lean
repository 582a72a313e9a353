import Arale.Lib.Links
import Arale.Lib.Trace
import Mathlib.Data.List.Nodup
import Mathlib.Logic.Function.Basic

/-!
# The frame list of a channel in memory

A `GSM0710_FrameList` is a ring of cells and a pointer to one of them, whose
`frame` means nothing. The first frame is in the cell behind it. A push writes
the frame into this cell and puts a new one in its place, a pop removes the cell
behind it.

The address that `calloc` returns is part of an operation: any address that is
not in use. Following a null pointer or one that was freed has no result.
-/

namespace Arale.Mux.FrameList

open List
open Arale.Lib (Cell Seg Run anyStep)

/-- What is allocated, by address. -/
abbrev Heap (F : Type) := Nat → Option (Cell Nat F)

variable {F : Type}

/-- `_fl_init(NULL)`, where `calloc` returns `head`. -/
def flInit (heap : Heap F) (head : Nat) : Heap F :=
  Function.update heap head (some ⟨some head, none⟩)

def flIsEmpty (heap : Heap F) : Option Nat → Option Bool
  | none => some true
  | some list => (heap list).map fun cell => cell.next = some list

/-- `_fl_pushFrame`, where `calloc` returns `head`, which is also the result. -/
def flPushFrame (heap : Heap F) (list : Nat) (frame : F) (head : Nat) : Option (Heap F) := do
  let heap := Function.update heap head (some ⟨none, none⟩)
  let cell ← heap list
  let heap := Function.update heap head (some ⟨cell.next, cell.val⟩)
  some (Function.update heap list (some ⟨some head, some frame⟩))

def flPopFrame (heap : Heap F) (list : Nat) : Option (Option F × Heap F) := do
  if ← flIsEmpty heap (some list) then
    some (none, heap)
  else
    let cell ← heap list
    let node ← cell.next
    let first ← heap node
    let heap := Function.update heap list (some { cell with next := first.next })
    some (first.val, Function.update heap node none)

/-- The list at `list` holds `frames`, the oldest first. -/
def Holds (heap : Heap F) (list : Nat) (frames : List F) : Prop :=
  ∃ cell first xs, heap list = some cell ∧ cell.next = some first ∧ Seg heap first xs list ∧
    (xs.map Prod.fst ++ [list]).Nodup ∧ xs.map Prod.snd = frames

variable {heap heap' : Heap F} {list head : Nat} {frames : List F}

theorem holds_init (heap : Heap F) (head : Nat) : Holds (flInit heap head) head [] :=
  ⟨⟨some head, none⟩, head, [], Function.update_self .., rfl, rfl, nodup_singleton head, rfl⟩

/-- The pointer comes back to itself at once only if nothing is stored. -/
theorem flIsEmpty_holds (h : Holds heap list frames) :
    flIsEmpty heap (some list) = some frames.isEmpty := by
  obtain ⟨cell, first, xs, hlist, hnext, hseg, hnodup, rfl⟩ := h
  rw [flIsEmpty, hlist, Option.map_some, hnext, isEmpty_map]
  cases xs with
  | nil =>
    obtain rfl : first = list := hseg
    simp
  | cons x xs =>
    obtain ⟨rfl, -⟩ := hseg
    have hne : x.1 ≠ list := by
      rintro rfl
      exact (nodup_cons.mp hnodup).1 (mem_append_right _ mem_cons_self)
    simp [hne]

theorem flPushFrame_holds (h : Holds heap list frames) (frame : F) (hnew : heap head = none) :
    ∃ heap', flPushFrame heap list frame head = some heap' ∧
      Holds heap' head (frames ++ [frame]) := by
  obtain ⟨cell, first, xs, hlist, hnext, hseg, hnodup, rfl⟩ := h
  have hne : list ≠ head := by
    rintro rfl
    rw [hlist] at hnew
    cases hnew
  have hmem : ∀ x ∈ xs, x.1 ≠ head ∧ x.1 ≠ list := by
    intro x hx
    constructor
    · intro heq
      have hsome := hseg.isSome x hx
      rw [heq, hnew] at hsome
      cases hsome
    · intro heq
      have hdisjoint := disjoint_of_nodup_append hnodup
      exact hdisjoint (mem_map_of_mem hx) (by rw [heq]; exact mem_cons_self)
  simp only [flPushFrame, Function.update_of_ne hne, hlist, Option.bind_eq_bind, Option.bind_some]
  refine ⟨_, rfl, ⟨cell.next, cell.val⟩, first, xs ++ [(list, frame)], ?_, hnext, ?_, ?_, ?_⟩
  · rw [Function.update_of_ne hne.symm, Function.update_self]
  · refine Seg.concat (hseg.congr fun x hx => ?_) (Function.update_self ..)
    rw [Function.update_of_ne (hmem x hx).2, Function.update_of_ne (hmem x hx).1,
      Function.update_of_ne (hmem x hx).1]
  · rw [map_append, nodup_append']
    refine ⟨hnodup, nodup_singleton head, ?_⟩
    rw [disjoint_singleton, mem_append, mem_map]
    rintro (⟨x, hx, heq⟩ | hx)
    · exact (hmem x hx).1 heq
    · exact hne (mem_singleton.mp hx).symm
  · rw [map_append]
    rfl

theorem flPopFrame_holds (h : Holds heap list frames) :
    ∃ heap', flPopFrame heap list = some (frames.head?, heap') ∧ Holds heap' list frames.tail := by
  have hempty := flIsEmpty_holds h
  rw [flPopFrame, hempty]
  cases frames with
  | nil => exact ⟨heap, rfl, h⟩
  | cons frame frames =>
    obtain ⟨cell, first, xs, hlist, hnext, hseg, hnodup, hxs⟩ := h
    obtain ⟨x, xs, rfl, rfl, rfl⟩ := map_eq_cons_iff.mp hxs
    obtain ⟨rfl, second, hfirst, hseg⟩ := hseg
    obtain ⟨hnot, hnodup⟩ := nodup_cons.mp hnodup
    have hne : list ≠ x.1 := by
      rintro rfl
      exact hnot (mem_append_right _ mem_cons_self)
    simp only [Option.bind_eq_bind, Option.bind_some, isEmpty_cons, Bool.false_eq_true,
      if_false, hlist, hnext, hfirst]
    refine ⟨_, rfl, { cell with next := some second }, second, xs, ?_, rfl, ?_, hnodup, rfl⟩
    · rw [Function.update_of_ne hne, Function.update_self]
    · refine hseg.congr fun y hy => ?_
      have hfst := mem_map_of_mem (f := Prod.fst) hy
      have hylist : y.1 ≠ list := by
        intro heq
        exact disjoint_of_nodup_append hnodup hfst (by rw [heq]; exact mem_cons_self)
      have hyfirst : y.1 ≠ x.1 := by
        intro heq
        exact hnot (mem_append_left _ (heq ▸ hfst))
      rw [Function.update_of_ne hyfirst, Function.update_of_ne hylist]

/-! ## Any use of a list -/

/-- A list in use, with the frames that were pushed and not popped since. -/
structure Use (F : Type) where
  heap : Heap F
  list : Nat
  pending : List F

inductive Op (F : Type) where
  | push (frame : F) (head : Nat)
  | pop

/-- The pointer that a push returns becomes the list. -/
def flStep (s : Use F) : Op F → Option (Use F)
  | .push frame head =>
    if s.heap head = none then
      (flPushFrame s.heap s.list frame head).map fun heap => ⟨heap, head, s.pending ++ [frame]⟩
    else none
  | .pop => (flPopFrame s.heap s.list).map fun r => ⟨r.2, s.list, s.pending.tail⟩

/-- What is pending is in memory. -/
def Use.Stored (s : Use F) : Prop := Holds s.heap s.list s.pending

theorem flStep_stored {s s' : Use F} {op : Op F} (hs : s.Stored) (h : flStep s op = some s') :
    s'.Stored := by
  cases op with
  | push frame head =>
    simp only [flStep] at h
    split at h
    · next hnew =>
      obtain ⟨heap', heq, hholds⟩ := flPushFrame_holds hs frame hnew
      rw [heq] at h
      cases h
      exact hholds
    · cases h
  | pop =>
    obtain ⟨heap', heq, hholds⟩ := flPopFrame_holds hs
    rw [flStep, heq] at h
    cases h
    exact hholds

/-- After any pushes and pops from `_fl_init(NULL)` on, a pop returns the oldest
frame that is pending, `_fl_isEmpty` says whether there is none, and no operation
follows a pointer that is null or was freed. -/
theorem frame_list_fifo {F : Type} {heap : Heap F} {head : Nat} {ops : List (Op F)} {s : Use F}
    (h : Run flStep anyStep ⟨flInit heap head, head, []⟩ ops s) :
    (∃ heap', flPopFrame s.heap s.list = some (s.pending.head?, heap')) ∧
      flIsEmpty s.heap (some s.list) = some s.pending.isEmpty ∧
      ∀ frame new, s.heap new = none → (flPushFrame s.heap s.list frame new).isSome := by
  have hholds : s.Stored :=
    h.invariant (fun s op s' hs _ hstep => flStep_stored hs hstep) (holds_init heap head)
  refine ⟨?_, flIsEmpty_holds hholds, ?_⟩
  · obtain ⟨heap', heq, -⟩ := flPopFrame_holds hholds
    exact ⟨heap', heq⟩
  · intro frame new hnew
    obtain ⟨heap', heq, -⟩ := flPushFrame_holds hholds frame hnew
    rw [heq]
    rfl

theorem frame_list_fifo_two :
    ∃ s : Use Nat, Run flStep anyStep ⟨flInit (fun _ => none) 1, 1, []⟩
        [.push 10 2, .push 20 3, .pop, .push 30 1] s ∧
      s.pending = [20, 30] ∧ ∃ heap', flPopFrame s.heap s.list = some (some 20, heap') := by
  refine Run.exists_of_exec (A := fun s : Use Nat => s.pending = [20, 30]) (by decide +kernel) ?_
  intro s hrun hpending
  have hpop := (frame_list_fifo hrun).1
  rw [hpending] at hpop
  exact ⟨hpending, hpop⟩

end Arale.Mux.FrameList
