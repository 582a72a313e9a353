import Mathlib.Data.List.GetD

/-!
# Arrays with checked accesses

An array of C has a size, and nothing stops an access behind it. Here each
access is checked: a computation on arrays ends with a result, or with the
`Fault` that it met first. A pointer into an array is the rest of the array
behind it, and `pointer` counts a fault from the start of the array again.

The equations say that a checked access within the bounds is the plain one, and
`bind_ok`, `readAt_ok`, `modifyAt_ok`, `sliceAt_ok` and `storeAt_ok` that a
computation with a result made only such accesses.
-/

namespace Arale.Lib

open List

/-- Why a computation on the arrays `ι` has no result. -/
inductive Fault (ι : Type) where
  | outside (array : ι) (index : Nat)
  | running
deriving DecidableEq, Repr

/-- The fault of an access through a pointer to `offset` in `array`. -/
def Fault.shift {ι : Type} [DecidableEq ι] (array : ι) (offset : Nat) : Fault ι → Fault ι
  | .outside a index => .outside a (if a = array then offset + index else index)
  | .running => .running

/-- The proof is not `rfl`, so that `simp` writes the step down and the rest `f` is
not unfolded again when the proof is checked. -/
@[simp] theorem ok_bind {ε α β : Type} (a : α) (f : α → Except ε β) :
    (Except.ok a >>= f) = f a := by
  cases h : f a with
  | error e => exact h
  | ok b => exact h

/-- A computation with a result has one after each of its steps. -/
theorem bind_ok {ε α β : Type} {x : Except ε α} {f : α → Except ε β} {b : β}
    (h : x >>= f = .ok b) : ∃ a, x = .ok a ∧ f a = .ok b := by
  cases x with
  | error e => cases h
  | ok a => exact ⟨a, rfl, h⟩

section Access

variable {ι α β : Type}

def readAt (array : ι) (xs : List α) (i : Nat) : Except (Fault ι) α :=
  if h : i < xs.length then .ok xs[i] else .error (.outside array i)

def modifyAt (array : ι) (xs : List α) (i : Nat) (f : α → α) : Except (Fault ι) (List α) :=
  if i < xs.length then .ok (xs.modify i f) else .error (.outside array i)

/-- The first of the indices from `offset` on that is outside. -/
def firstOutside (xs : List α) (offset : Nat) : Nat := max offset xs.length

/-- `memcpy` into an array. -/
def storeAt (array : ι) (xs : List α) (offset : Nat) (ys : List α) : Except (Fault ι) (List α) :=
  if offset + ys.length ≤ xs.length then
    .ok (xs.take offset ++ ys ++ xs.drop (offset + ys.length))
  else .error (.outside array (firstOutside xs offset))

/-- `memcpy` out of an array. -/
def sliceAt (array : ι) (xs : List α) (offset n : Nat) : Except (Fault ι) (List α) :=
  if offset + n ≤ xs.length then .ok ((xs.drop offset).take n)
  else .error (.outside array (firstOutside xs offset))

/-- A computation that has a pointer to `offset` in `array`. -/
def pointer [DecidableEq ι] (array : ι) (offset : Nat) (r : Except (Fault ι) β) :
    Except (Fault ι) β :=
  r.mapError (Fault.shift array offset)

variable {array : ι} {xs ys : List α} {i offset n : Nat}

theorem readAt_eq (h : i < xs.length) (default : α) :
    readAt array xs i = .ok (xs.getD i default) := by
  rw [readAt, dif_pos h, getD_eq_getElem _ _ h]

theorem modifyAt_eq (h : i < xs.length) (f : α → α) : modifyAt array xs i f = .ok (xs.modify i f) :=
  if_pos h

/-- The entry behind `pre`. -/
theorem readAt_behind (pre : List α) (x : α) (xs : List α) :
    readAt array (pre ++ x :: xs) pre.length = .ok x := by
  have hlt : pre.length < (pre ++ x :: xs).length := by
    rw [length_append, length_cons]
    omega
  rw [readAt_eq hlt x, getD_append_right _ _ _ _ (Nat.le_refl _), Nat.sub_self]
  rfl

theorem readAt_second (pre : List α) (x y : α) (xs : List α) :
    readAt array (pre ++ x :: y :: xs) (pre.length + 1) = .ok y := by
  have hbehind : readAt array (pre ++ [x] ++ y :: xs) (pre ++ [x]).length = .ok y :=
    readAt_behind _ y xs
  rwa [append_assoc, length_append] at hbehind

theorem modifyAt_behind (pre : List α) (x : α) (xs : List α) (f : α → α) :
    modifyAt array (pre ++ x :: xs) pre.length f = .ok (pre ++ f x :: xs) := by
  have hlt : pre.length < (pre ++ x :: xs).length := by
    rw [length_append, length_cons]
    omega
  rw [modifyAt_eq hlt]
  clear hlt
  induction pre with
  | nil => rfl
  | cons y pre ih =>
    exact congrArg (fun zs => Except.ok (y :: zs)) (Except.ok.inj ih)

theorem storeAt_eq (h : offset + ys.length ≤ xs.length) :
    storeAt array xs offset ys = .ok (xs.take offset ++ ys ++ xs.drop (offset + ys.length)) :=
  if_pos h

/-- A copy that is too long meets the end of the array. -/
theorem storeAt_outside (h : xs.length < offset + ys.length) (hoffset : offset ≤ xs.length) :
    storeAt array xs offset ys = .error (.outside array xs.length) := by
  rw [storeAt, if_neg (Nat.not_le_of_lt h), firstOutside, Nat.max_eq_right hoffset]

theorem sliceAt_eq (h : offset + n ≤ xs.length) :
    sliceAt array xs offset n = .ok ((xs.drop offset).take n) :=
  if_pos h

theorem readAt_ok {x : α} (h : readAt array xs i = .ok x) : xs[i]? = some x := by
  unfold readAt at h
  split at h
  · cases h
    exact List.getElem?_eq_getElem _
  · cases h

theorem modifyAt_ok {f : α → α} (h : modifyAt array xs i f = .ok ys) :
    i < xs.length ∧ ys.length = xs.length := by
  unfold modifyAt at h
  split at h
  · cases h
    exact ⟨‹_›, length_modify ..⟩
  · cases h

theorem storeAt_ok {zs : List α} (h : storeAt array xs offset ys = .ok zs) :
    offset + ys.length ≤ xs.length := by
  unfold storeAt at h
  split at h
  · assumption
  · cases h

theorem sliceAt_ok (h : sliceAt array xs offset n = .ok ys) :
    offset + n ≤ xs.length ∧ ys = (xs.drop offset).take n := by
  unfold sliceAt at h
  split at h
  · cases h
    exact ⟨‹_›, rfl⟩
  · cases h

@[simp] theorem pointer_ok [DecidableEq ι] (offset : Nat) (b : β) :
    pointer array offset (.ok b) = .ok b := rfl

end Access

section Padded

variable {ι α : Type} {array : ι} {zero : α} {size : Nat} {pre : List α}

/-- An array of zeros whose start has been written. -/
def padded (zero : α) (size : Nat) (pre : List α) : List α :=
  pre ++ List.replicate (size - pre.length) zero

theorem padded_length (h : pre.length ≤ size) : (padded zero size pre).length = size := by
  rw [padded, length_append, length_replicate]
  omega

/-- The next entry is written. -/
theorem modifyAt_padded (h : pre.length < size) (x : α) :
    modifyAt array (padded zero size pre) pre.length (fun _ => x) =
      .ok (padded zero size (pre ++ [x])) := by
  have hsplit : List.replicate (size - pre.length) zero =
      zero :: List.replicate (size - (pre.length + 1)) zero := by
    rw [← replicate_succ]
    congr 1
    omega
  rw [padded, hsplit, modifyAt_behind, padded, length_append, append_assoc]
  rfl

/-- A zero that is written behind the start changes nothing. -/
theorem modifyAt_padded_zero {i : Nat} (hi : i < size) (hpre : pre.length ≤ i) :
    modifyAt array (padded zero size pre) i (fun _ => zero) = .ok (padded zero size pre) := by
  have hlength : (padded zero size pre).length = size :=
    padded_length (Nat.le_trans hpre (Nat.le_of_lt hi))
  rw [modifyAt_eq (hlength.symm ▸ hi)]
  congr 1
  apply ext_getElem?
  intro j
  rw [List.getElem?_modify]
  split
  · rename_i hij
    subst hij
    rw [padded, List.getElem?_append_right hpre, List.getElem?_replicate]
    split <;> rfl
  · cases (padded zero size pre)[j]? <;> rfl

end Padded

end Arale.Lib
