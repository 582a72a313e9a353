import Mathlib.Algebra.Group.Nat.Defs
import Mathlib.Data.List.GetD

/-!
# Bytes as bit strings

Fields that are packed without regard to byte boundaries are best seen in the
string of all bits, most significant bit of the first byte first. `byteBit` are
the bits of a byte, `bit` those of an array; `bit_modify` is what the change of
one byte does to the string.
-/

namespace Arale.Lib

/-- A bit of a byte, counted from the most significant one. -/
def byteBit (b : UInt8) (k : Nat) : Bool := b.toBitVec.getMsbD k

/-- The shifts of an 8-bit value by a number of places. -/
def shiftLeft (b : UInt8) (n : Nat) : UInt8 := UInt8.ofBitVec (b.toBitVec <<< n)

def shiftRight (b : UInt8) (n : Nat) : UInt8 := UInt8.ofBitVec (b.toBitVec >>> n)

/-- A bit of an array; behind the array there are zeros. -/
def bit (data : List UInt8) (i : Nat) : Bool := byteBit (data.getD (i / 8) 0) (i % 8)

theorem eq_of_byteBit {a b : UInt8} (h : ∀ k < 8, byteBit a k = byteBit b k) : a = b :=
  UInt8.eq_of_toBitVec_eq (BitVec.eq_of_getMsbD_eq h)

@[simp] theorem byteBit_zero (k : Nat) : byteBit 0 k = false := by
  simp [byteBit]

/-- The high bits of a small value. -/
theorem byteBit_of_toNat_lt {b : UInt8} {m k : Nat} (hb : b.toNat < 2 ^ m) (hk : k + m < 8) :
    byteBit b k = false := by
  have hbit : b.toNat.testBit (7 - k) = false :=
    Nat.testBit_lt_two_pow (Nat.lt_of_lt_of_le hb (Nat.pow_le_pow_right (by decide) (by omega)))
  rw [byteBit, BitVec.getMsbD_eq_getLsbD, BitVec.getLsbD, UInt8.toNat_toBitVec]
  simpa using fun _ => hbit

@[simp] theorem byteBit_and (a b : UInt8) (k : Nat) :
    byteBit (a &&& b) k = (byteBit a k && byteBit b k) := by
  simp [byteBit]

@[simp] theorem byteBit_or (a b : UInt8) (k : Nat) :
    byteBit (a ||| b) k = (byteBit a k || byteBit b k) := by
  simp [byteBit]

@[simp] theorem byteBit_not (a : UInt8) (k : Nat) :
    byteBit (~~~a) k = (decide (k < 8) && !byteBit a k) := by
  simp [byteBit]

@[simp] theorem byteBit_shiftLeft (b : UInt8) (n k : Nat) :
    byteBit (shiftLeft b n) k = byteBit b (k + n) := by
  simp [byteBit, shiftLeft]

@[simp] theorem byteBit_shiftRight (b : UInt8) (n k : Nat) :
    byteBit (shiftRight b n) k = (decide (k < 8) && !decide (k < n) && byteBit b (k - n)) := by
  simp only [byteBit, shiftRight]
  rw [BitVec.getMsbD_ushiftRight]
  by_cases hn : k < n <;> by_cases hk : k < 8 <;> simp [hn, hk]

theorem bit_drop (data : List UInt8) (k i : Nat) : bit (data.drop k) i = bit data (8 * k + i) := by
  have hdiv : (8 * k + i) / 8 = k + i / 8 := by omega
  have hmod : (8 * k + i) % 8 = i % 8 := by omega
  simp only [bit, hdiv, hmod, List.getD_eq_getElem?_getD, List.getElem?_drop]

theorem bit_append_left {pre : List UInt8} {i : Nat} (h : i < 8 * pre.length) (data : List UInt8) :
    bit (pre ++ data) i = bit pre i := by
  rw [bit, bit, List.getD_append _ _ _ _ (by omega)]

theorem bit_take {n i : Nat} (h : i < 8 * n) (data : List UInt8) :
    bit (data.take n) i = bit data i := by
  rw [bit, bit, List.getD_eq_getElem?_getD, List.getElem?_take_of_lt (by omega),
    List.getD_eq_getElem?_getD]

/-- One byte is replaced. -/
theorem bit_modify {data : List UInt8} {j : Nat} (hj : j < data.length) (f : UInt8 → UInt8)
    (i : Nat) : bit (data.modify j f) i
      = if i / 8 = j then byteBit (f (data.getD j 0)) (i % 8) else bit data i := by
  by_cases h : i / 8 = j
  · subst h
    rw [if_pos rfl, bit]
    simp [List.getD_eq_getElem?_getD, hj]
  · rw [if_neg h, bit, bit, List.getD_eq_getElem?_getD, List.getElem?_modify,
      List.getD_eq_getElem?_getD]
    simp [Ne.symm h]

/-- A byte of an array from its bits. -/
theorem getD_eq_of_bit {data : List UInt8} {j : Nat} {b : UInt8}
    (h : ∀ k < 8, bit data (8 * j + k) = byteBit b k) : data.getD j 0 = b := by
  refine eq_of_byteBit fun k hk => ?_
  have hdiv : (8 * j + k) / 8 = j := by omega
  have hmod : (8 * j + k) % 8 = k := by omega
  rw [← h k hk, bit, hdiv, hmod]

end Arale.Lib
