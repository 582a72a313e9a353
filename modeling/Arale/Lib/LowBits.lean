import Mathlib.Algebra.Group.Nat.Defs
import Mathlib.Data.Nat.Bitwise
import Mathlib.Logic.Function.Basic

/-!
# Fields in a string of bits, low bit first

A memory of bytes is a string of bits where the low bit of a byte comes first.
`FieldAt` says that a word of any width stands in such a string from some bit
on, and `FieldsAt` that a row of words does, without gaps. The string is a
function, so that it may be a memory or a memory with bits that are not yet
written.

A word of 32 bits is four bytes, the low one first: `wordBytes` writes it and
`wordOf` reads it.
-/

namespace Arale.Lib

/-- A bit of a memory, counted from the low bit of byte 0. -/
def bitAt (mem : Nat → UInt8) (i : Nat) : Bool := (mem (i / 8)).toNat.testBit (i % 8)

/-- The word `v` stands at bit `i`. -/
def FieldAt {w : Nat} (bits : Nat → Bool) (i : Nat) (v : BitVec w) : Prop :=
  ∀ k < w, bits (i + k) = v.getLsbD k

/-- A row of words from bit `i` on. -/
def FieldsAt {w : Nat} (bits : Nat → Bool) (i : Nat) : List (BitVec w) → Prop
  | [] => True
  | v :: vs => FieldAt bits i v ∧ FieldsAt bits (i + w) vs

theorem testBit_byte {b : UInt8} {k : Nat} (h : 8 ≤ k) : b.toNat.testBit k = false :=
  Nat.testBit_lt_two_pow (Nat.lt_of_lt_of_le b.toNat_lt (Nat.pow_le_pow_right (by decide) h))

theorem bitAt_add {mem : Nat → UInt8} {j k : Nat} (h : k < 8) :
    bitAt mem (8 * j + k) = (mem j).toNat.testBit k := by
  have hdiv : (8 * j + k) / 8 = j := by omega
  have hmod : (8 * j + k) % 8 = k := by omega
  rw [bitAt, hdiv, hmod]

/-- A byte is replaced by the low bits of a number. -/
theorem bitAt_update (mem : Nat → UInt8) (j n i : Nat) :
    bitAt (Function.update mem j (UInt8.ofNat n)) i
      = if i / 8 = j then n.testBit (i % 8) else bitAt mem i := by
  by_cases h : i / 8 = j
  · rw [if_pos h, bitAt, h, Function.update_self, UInt8.toNat_ofNat', Nat.testBit_mod_two_pow,
      decide_eq_true (Nat.mod_lt i (by decide)), Bool.true_and]
  · rw [if_neg h, bitAt, Function.update_of_ne h, bitAt]

section Fields

variable {w : Nat} {bits bits' : Nat → Bool} {i : Nat}

theorem FieldAt.congr {v : BitVec w} (h : FieldAt bits i v)
    (hbits : ∀ j < i + w, bits' j = bits j) : FieldAt bits' i v := by
  intro k hk
  rw [hbits _ (by omega), h k hk]

theorem FieldsAt.congr {vs : List (BitVec w)} (h : FieldsAt bits i vs)
    (hbits : ∀ j < i + w * vs.length, bits' j = bits j) : FieldsAt bits' i vs := by
  induction vs generalizing i with
  | nil => trivial
  | cons v vs ih =>
    rw [List.length_cons, Nat.mul_succ] at hbits
    refine ⟨h.1.congr fun j hj => hbits j (by omega), ih h.2 fun j hj => hbits j ?_⟩
    omega

theorem FieldsAt.concat {vs : List (BitVec w)} {v : BitVec w} (h : FieldsAt bits i vs)
    (hv : FieldAt bits (i + w * vs.length) v) : FieldsAt bits i (vs ++ [v]) := by
  induction vs generalizing i with
  | nil => exact ⟨hv, trivial⟩
  | cons u vs ih =>
    refine ⟨h.1, ih h.2 ?_⟩
    have hplace : i + w + w * vs.length = i + (w * vs.length + w) := by omega
    rw [hplace]
    exact hv

end Fields

/-! ## 32-bit words -/

/-- The bytes of a word, low byte first. -/
def wordBytes (w : BitVec 32) : List UInt8 :=
  [⟨w.extractLsb' 0 8⟩, ⟨w.extractLsb' 8 8⟩, ⟨w.extractLsb' 16 8⟩, ⟨w.extractLsb' 24 8⟩]

/-- The word of four bytes. -/
def wordOf : List UInt8 → BitVec 32
  | [a, b, c, d] => d.toBitVec ++ c.toBitVec ++ b.toBitVec ++ a.toBitVec
  | _ => 0

@[simp] theorem wordOf_wordBytes (w : BitVec 32) : wordOf (wordBytes w) = w := by
  apply BitVec.eq_of_getLsbD_eq
  intro i hi
  simp only [wordBytes, wordOf, BitVec.getLsbD_append, BitVec.getLsbD_extractLsb']
  grind

end Arale.Lib
