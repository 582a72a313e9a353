/-!
# Ring buffers and the FIFO they store

A ring buffer keeps `datacount` elements in a fixed array, starting at
`readp` and wrapping at the end of the array. This file fixes the four
operations such a buffer offers to a byte-oriented reader and writer: look
at the element under `readp` (`peek`), step over it (`inc`), step over a
run of elements (`skip`, with `copyOut` reading the run) and append a run
(`write`, two block copies when the run wraps).

The meaning of a buffer is `contents`, the stored elements in order. Every
operation is an operation on that list:

> `contents_inc`: stepping drops the head; `contents_skip`: stepping over
> `n` drops `n`; `copyOut_eq`: the run is the first `n`; `contents_write`:
> writing appends what fits.

The bounds on the two offsets and the link between them are fields of the
structure, so an out-of-range buffer cannot be built.
-/

namespace Arale.Lib

open List

/-- A ring of `size` cells. The cells outside the stored run hold whatever
was last written there. -/
structure Ring (α : Type) (size : Nat) where
  data : Nat → α
  readp : Nat
  writep : Nat
  datacount : Nat
  readp_lt : readp < size
  datacount_le : datacount ≤ size
  writep_eq : writep = (readp + datacount) % size

/-- Block copy of `xs` into the cells from `p` on. -/
def copyAt {α : Type} (data : Nat → α) (p : Nat) (xs : List α) : Nat → α :=
  fun i => if p ≤ i then (xs[i - p]?).getD (data i) else data i

theorem copyAt_inside {α : Type} {data : Nat → α} {p j : Nat} {xs : List α}
    (hj : j < xs.length) : copyAt data p xs (p + j) = xs[j] := by
  unfold copyAt
  rw [if_pos (Nat.le_add_right p j), Nat.add_sub_cancel_left, List.getElem?_eq_getElem hj]
  rfl

theorem copyAt_outside {α : Type} {data : Nat → α} {p i : Nat} {xs : List α}
    (hi : i < p ∨ p + xs.length ≤ i) : copyAt data p xs i = data i := by
  unfold copyAt
  split
  · rw [List.getElem?_eq_none (by omega)]
    rfl
  · rfl

/-- One-wrap reduction: an offset less than twice the size is brought back
into range by at most one subtraction. -/
theorem mod_of_lt_two_mul {i size : Nat} (hi : i < 2 * size) :
    i % size = if i < size then i else i - size := by
  split
  · next h => exact Nat.mod_eq_of_lt h
  · next h =>
    rw [Nat.mod_eq_sub_mod (Nat.le_of_not_lt h)]
    exact Nat.mod_eq_of_lt (by omega)

/-- The offset `n` cells after `p`, as the two-block copies compute it: the
part of the run that passes the end restarts at cell 0. -/
def wrapAdd (size p n : Nat) : Nat :=
  if n > size - p then n - (size - p) else if p + n = size then 0 else p + n

theorem wrapAdd_eq {size p n : Nat} (hp : p < size) (hn : n ≤ size) :
    wrapAdd size p n = (p + n) % size := by
  rw [mod_of_lt_two_mul (by omega)]
  unfold wrapAdd
  split
  · rw [if_neg (by omega)]; omega
  · split
    · rw [if_neg (by omega)]; omega
    · rw [if_pos (by omega)]

theorem wrapAdd_lt {size p n : Nat} (hp : p < size) (hn : n ≤ size) : wrapAdd size p n < size := by
  rw [wrapAdd_eq hp hn]
  exact Nat.mod_lt _ (by omega)

namespace Ring

variable {α : Type} {size : Nat}

/-- The element under the read offset. -/
def peek (r : Ring α size) : α := r.data r.readp

variable {r : Ring α size}

/-- The write offset follows from the rest. -/
theorem ext_offsets {s : Ring α size} (hdata : r.data = s.data) (hreadp : r.readp = s.readp)
    (hcount : r.datacount = s.datacount) : r = s := by
  cases r
  cases s
  simp_all

/-- The stored elements, oldest first. -/
def contents (r : Ring α size) : List α :=
  (List.range r.datacount).map fun i => r.data ((r.readp + i) % size)

theorem contents_length (r : Ring α size) : r.contents.length = r.datacount := by
  simp [contents]

variable {i n : Nat}

theorem contents_getElem (r : Ring α size) (hi : i < r.contents.length) :
    r.contents[i] = r.data ((r.readp + i) % size) := by
  simp [contents]

theorem contents_eq_nil : r.contents = [] ↔ r.datacount = 0 := by
  rw [← contents_length, length_eq_zero_iff]

/-- The element under the read offset is the oldest stored one. -/
theorem contents_eq_cons (h : r.datacount ≠ 0) : r.contents = r.peek :: r.contents.tail := by
  cases hc : r.contents with
  | nil => exact absurd (contents_eq_nil.mp hc) h
  | cons b bs =>
    have h0 : 0 < r.contents.length := by rw [hc]; exact Nat.succ_pos _
    have hb := r.contents_getElem h0
    simp only [hc, getElem_cons_zero, Nat.add_zero, Nat.mod_eq_of_lt r.readp_lt] at hb
    rw [tail_cons, hb, peek]

theorem peek_of_contents {b : α} {bs : List α} (h : r.contents = b :: bs) : r.peek = b := by
  have hne : r.datacount ≠ 0 := by
    intro h0
    rw [contents_eq_nil.mpr h0] at h
    cases h
  rw [contents_eq_cons hne] at h
  exact (List.cons.inj h).1

/-- The empty ring whose two offsets stand at `p`. -/
def empty (data : Nat → α) (p : Nat) (hp : p < size) : Ring α size where
  data := data
  readp := p
  writep := p
  datacount := 0
  readp_lt := hp
  datacount_le := Nat.zero_le _
  writep_eq := by rw [Nat.add_zero, Nat.mod_eq_of_lt hp]

/-! ## Stepping over stored elements -/

/-- Step over `n` stored elements, wrapping at the end of the array. A run
longer than what is stored is refused: callers test the count first. -/
def skip (r : Ring α size) (n : Nat) : Ring α size :=
  if h : n ≤ r.datacount then
    { r with
      readp := wrapAdd size r.readp n
      datacount := r.datacount - n
      readp_lt := wrapAdd_lt r.readp_lt (Nat.le_trans h r.datacount_le)
      datacount_le := Nat.le_trans (Nat.sub_le _ _) r.datacount_le
      writep_eq := by
        rw [wrapAdd_eq r.readp_lt (Nat.le_trans h r.datacount_le), Nat.mod_add_mod, r.writep_eq]
        congr 1
        omega }
  else r

/-- Step over one stored element. -/
def inc (r : Ring α size) : Ring α size :=
  if h : r.datacount ≠ 0 then
    { r with
      readp := if r.readp + 1 = size then 0 else r.readp + 1
      datacount := r.datacount - 1
      readp_lt := by
        have h1 := r.readp_lt
        split <;> omega
      datacount_le := Nat.le_trans (Nat.sub_le _ _) r.datacount_le
      writep_eq := by
        have h1 := r.readp_lt
        have hr : (if r.readp + 1 = size then 0 else r.readp + 1) = (r.readp + 1) % size := by
          rw [mod_of_lt_two_mul (by omega)]
          split
          · rw [if_neg (by omega)]; omega
          · rw [if_pos (by omega)]
        rw [hr, Nat.mod_add_mod, r.writep_eq]
        congr 1
        omega }
  else r

theorem inc_datacount (r : Ring α size) : r.inc.datacount = r.datacount - 1 := by
  unfold inc
  split
  · rfl
  · omega

theorem skip_datacount (h : n ≤ r.datacount) : (r.skip n).datacount = r.datacount - n := by
  unfold skip
  rw [dif_pos h]

theorem skip_data (r : Ring α size) (n : Nat) : (r.skip n).data = r.data := by
  unfold skip
  split <;> rfl

theorem skip_readp (h : n ≤ r.datacount) : (r.skip n).readp = (r.readp + n) % size := by
  unfold skip
  rw [dif_pos h]
  exact wrapAdd_eq r.readp_lt (Nat.le_trans h r.datacount_le)

/-- Stepping over `n` elements drops them from the contents. -/
theorem contents_skip (h : n ≤ r.datacount) : (r.skip n).contents = r.contents.drop n := by
  apply ext_getElem
  · rw [contents_length, skip_datacount h, length_drop, contents_length]
  · intro i h1 h2
    rw [contents_getElem, skip_data, skip_readp h, getElem_drop, contents_getElem,
      Nat.mod_add_mod, Nat.add_assoc]

theorem inc_eq_skip (h : r.datacount ≠ 0) : r.inc = r.skip 1 := by
  have h1 := r.readp_lt
  unfold inc skip
  rw [dif_pos h, dif_pos (by omega)]
  simp only [wrapAdd]
  congr 1
  rw [if_neg (c := 1 > size - r.readp) (by omega)]

theorem skip_zero (r : Ring α size) : r.skip 0 = r := by
  have h0 : 0 ≤ r.datacount := Nat.zero_le _
  apply ext_offsets (skip_data r 0)
  · rw [skip_readp h0, Nat.add_zero, Nat.mod_eq_of_lt r.readp_lt]
  · rw [skip_datacount h0, Nat.sub_zero]

/-- Two steps in a row are one. -/
theorem skip_skip {k : Nat} (h : n + k ≤ r.datacount) : (r.skip n).skip k = r.skip (n + k) := by
  have hn : n ≤ r.datacount := by omega
  have hk : k ≤ (r.skip n).datacount := by rw [skip_datacount hn]; omega
  have hreadp : ((r.skip n).skip k).readp = (r.skip (n + k)).readp := by
    rw [skip_readp hk, skip_readp hn, skip_readp h, Nat.mod_add_mod, Nat.add_assoc]
  have hcount : ((r.skip n).skip k).datacount = (r.skip (n + k)).datacount := by
    rw [skip_datacount hk, skip_datacount hn, skip_datacount h, Nat.sub_sub]
  exact ext_offsets (by rw [skip_data, skip_data, skip_data]) hreadp hcount

theorem inc_skip (h : n < r.datacount) : (r.skip n).inc = r.skip (n + 1) := by
  rw [inc_eq_skip (by rw [skip_datacount (by omega)]; omega), skip_skip (by omega)]

/-- Stepping over one element drops the head of the contents. -/
theorem contents_inc (r : Ring α size) : r.inc.contents = r.contents.tail := by
  by_cases h : r.datacount = 0
  · have hi : r.inc.datacount = 0 := by rw [inc_datacount, h]
    rw [contents_eq_nil.mpr hi, contents_eq_nil.mpr h]
    rfl
  · rw [inc_eq_skip h, contents_skip (by omega), drop_one]

theorem contents_eq_peek (h : r.datacount ≠ 0) : r.contents = r.peek :: r.inc.contents := by
  rw [contents_inc, ← contents_eq_cons h]

/-- The next `n` cells from the read offset, in two block copies when the
run passes the end of the array. -/
def copyOut (r : Ring α size) (n : Nat) : List α :=
  if n > size - r.readp then
    (List.range (size - r.readp)).map (fun i => r.data (r.readp + i))
      ++ (List.range (n - (size - r.readp))).map r.data
  else (List.range n).map fun i => r.data (r.readp + i)

theorem copyOut_length (r : Ring α size) (n : Nat) : (r.copyOut n).length = n := by
  unfold copyOut
  split
  · simp; omega
  · simp

theorem copyOut_getElem (r : Ring α size) (hi : i < (r.copyOut n).length)
    (hn : n ≤ size) : (r.copyOut n)[i] = r.data ((r.readp + i) % size) := by
  have h1 := r.readp_lt
  have hin : i < n := by rw [copyOut_length] at hi; exact hi
  rw [mod_of_lt_two_mul (by omega)]
  by_cases hw : n > size - r.readp
  · simp only [copyOut, if_pos hw, getElem_append, length_map, length_range,
      getElem_map, getElem_range]
    by_cases hlt : i < size - r.readp
    · rw [dif_pos hlt, if_pos (by omega)]
    · rw [dif_neg hlt, if_neg (by omega)]
      congr 1
      omega
  · simp only [copyOut, if_neg hw, getElem_map, getElem_range]
    rw [if_pos (by omega)]

/-- The run copied out is the first `n` stored elements. -/
theorem copyOut_eq (h : n ≤ r.datacount) : r.copyOut n = r.contents.take n := by
  apply ext_getElem
  · rw [copyOut_length, length_take, contents_length, Nat.min_eq_left h]
  · intro i hi1 hi2
    rw [copyOut_getElem r hi1 (Nat.le_trans h r.datacount_le), getElem_take,
      contents_getElem]

/-! ## Writing -/

theorem writep_lt (r : Ring α size) : r.writep < size := by
  rw [r.writep_eq]
  exact Nat.mod_lt _ (Nat.lt_of_le_of_lt (Nat.zero_le _) r.readp_lt)

/-- How many of `n` offered elements there is room for. -/
def room (r : Ring α size) (n : Nat) : Nat := min n (size - r.datacount)

/-- The cells after a block of `xs` was stored from the write offset on: one
copy up to the end of the array, and a second one at its start when the run
is longer. -/
def store (r : Ring α size) (xs : List α) : Nat → α :=
  if xs.length > size - r.writep then
    copyAt (copyAt r.data r.writep (xs.take (size - r.writep))) 0 (xs.drop (size - r.writep))
  else copyAt r.data r.writep xs

/-- Append as much of `input` as there is room for. -/
def write (r : Ring α size) (input : List α) : Ring α size where
  data := r.store (input.take (r.room input.length))
  readp := r.readp
  writep := wrapAdd size r.writep (r.room input.length)
  datacount := r.datacount + r.room input.length
  readp_lt := r.readp_lt
  datacount_le := by
    have h2 := r.datacount_le
    unfold room
    omega
  writep_eq := by
    have hle : r.room input.length ≤ size := by
      unfold room
      omega
    rw [wrapAdd_eq r.writep_lt hle, r.writep_eq, Nat.mod_add_mod, Nat.add_assoc]

theorem write_datacount (r : Ring α size) (input : List α) :
    (r.write input).datacount = r.datacount + r.room input.length := rfl

/-- Cell `j` of a stored run, counted from the write offset. -/
theorem store_inside {xs : List α} {j : Nat} (hj : j < xs.length)
    (hle : xs.length ≤ size) : r.store xs ((r.writep + j) % size) = xs[j] := by
  have hw := r.writep_lt
  rw [mod_of_lt_two_mul (by omega)]
  unfold store
  by_cases hc : xs.length > size - r.writep
  · rw [if_pos hc]
    by_cases hlt : r.writep + j < size
    · -- before the end: the first copy, untouched by the second
      rw [if_pos hlt, copyAt_outside, copyAt_inside (by simp; omega), getElem_take]
      rw [length_drop]
      omega
    · rw [if_neg hlt, ← Nat.zero_add (r.writep + j - size), copyAt_inside (by simp; omega),
        getElem_drop]
      congr 1
      omega
  · rw [if_neg hc, if_pos (by omega), copyAt_inside hj]

/-- A cell holding an unread element is not touched: the run that fits ends
before the read offset comes round again. -/
theorem store_outside {xs : List α} (hi : i < r.datacount) (hle : xs.length ≤ size - r.datacount) :
    r.store xs ((r.readp + i) % size) = r.data ((r.readp + i) % size) := by
  have h1 := r.readp_lt
  have h2 := r.datacount_le
  have hw : r.writep = if r.readp + r.datacount < size then r.readp + r.datacount
      else r.readp + r.datacount - size := by
    rw [r.writep_eq, mod_of_lt_two_mul (by omega)]
  rw [mod_of_lt_two_mul (by omega)]
  unfold store
  by_cases hc : xs.length > size - r.writep
  · rw [if_pos hc, copyAt_outside, copyAt_outside]
    · split at hw <;> split <;> omega
    · rw [length_drop]
      split at hw <;> split <;> omega
  · rw [if_neg hc, copyAt_outside]
    split at hw <;> split <;> omega

/-- Writing appends what there is room for. -/
theorem contents_write (r : Ring α size) (input : List α) :
    (r.write input).contents = r.contents ++ input.take (size - r.datacount) := by
  have htake : input.take (r.room input.length) = input.take (size - r.datacount) := by
    unfold room
    rw [take_eq_take_iff]
    omega
  have hlen : (input.take (r.room input.length)).length = r.room input.length := by
    rw [length_take]
    unfold room
    omega
  have hroom : r.room input.length ≤ size - r.datacount := Nat.min_le_right _ _
  rw [← htake]
  apply ext_getElem
  · rw [contents_length, write_datacount, length_append, contents_length, hlen]
  · intro i hi1 hi2
    rw [contents_length, write_datacount] at hi1
    rw [contents_getElem]
    show r.store (input.take (r.room input.length)) ((r.readp + i) % size) = _
    by_cases hi : i < r.datacount
    · rw [store_outside hi (by omega), getElem_append_left (by rw [contents_length]; exact hi),
        contents_getElem]
    · have hj : i - r.datacount < (input.take (r.room input.length)).length := by omega
      have hpos : (r.readp + i) % size = (r.writep + (i - r.datacount)) % size := by
        rw [r.writep_eq, Nat.mod_add_mod]
        congr 1
        omega
      rw [hpos, store_inside hj (by omega),
        getElem_append_right (by rw [contents_length]; omega)]
      congr 1
      rw [contents_length]

/-- A run that fits is appended whole. -/
theorem contents_write_of_le {input : List α} (h : input.length ≤ size - r.datacount) :
    (r.write input).contents = r.contents ++ input := by
  rw [contents_write, take_of_length_le h]

end Ring

end Arale.Lib
