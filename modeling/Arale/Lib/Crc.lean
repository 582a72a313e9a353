import Mathlib.Algebra.Polynomial.FieldDivision
import Mathlib.Algebra.Field.ZMod
import Mathlib.Algebra.CharP.Two
import Mathlib.Tactic.LinearCombination
import Mathlib.RingTheory.PrincipalIdealDomain

/-!
# Cyclic redundancy checks of reflected registers

A reflected check sequence of `w` bits is computed in a register that is
shifted to the right: if a one falls out, the low coefficients of the generator
are added. A message comes in words of `w` bits, the low bit of each first.

Bit strings stand for polynomials over `ZMod 2`, the first bit for the highest
power. Read that way, a shift multiplies the register by `X` modulo the
generator, and the whole computation is a division:

> `dvd_absorbAll`: the register is the message times `X ^ w` modulo the
> generator, up to what the register held before.
> `absorbAll_ne_of_burst`: if the generator has a constant term, two messages
> that differ in a burst of at most `w` bits leave different registers.

Addition and subtraction are the same here, and both are the exclusive or of
the bits.
-/

namespace Arale.Lib.Crc

open Polynomial List

/-! ## Bit strings as polynomials -/

/-- The polynomial of a bit string, the highest power first. -/
noncomputable def bitsPoly : List Bool → (ZMod 2)[X]
  | [] => 0
  | b :: bs => (if b then X ^ bs.length else 0) + bitsPoly bs

theorem bitsPoly_append (xs ys : List Bool) :
    bitsPoly (xs ++ ys) = X ^ ys.length * bitsPoly xs + bitsPoly ys := by
  induction xs with
  | nil => simp [bitsPoly]
  | cons x xs ih =>
    rw [cons_append, bitsPoly, ih, bitsPoly, length_append]
    cases x with
    | false => simp
    | true =>
      simp only [if_true]
      ring

theorem bitsPoly_replicate (n : Nat) : bitsPoly (replicate n false) = 0 := by
  induction n with
  | zero => rfl
  | succ n ih => simp [replicate_succ, bitsPoly, ih]

theorem bitsPoly_xor {xs ys : List Bool} (h : xs.length = ys.length) :
    bitsPoly (List.zipWith xor xs ys) = bitsPoly xs + bitsPoly ys := by
  induction xs generalizing ys with
  | nil =>
    obtain rfl := length_eq_zero_iff.mp h.symm
    simp [bitsPoly]
  | cons x xs ih =>
    cases ys with
    | nil => cases h
    | cons y ys =>
      have htail : xs.length = ys.length := Nat.succ.inj h
      have hlength : (List.zipWith xor xs ys).length = ys.length := by
        rw [length_zipWith, htail, Nat.min_self]
      rw [zipWith_cons_cons, bitsPoly, bitsPoly, bitsPoly, ih htail, hlength, htail]
      have hself : (X : (ZMod 2)[X]) ^ ys.length + X ^ ys.length = 0 := CharTwo.add_self_eq_zero _
      have hbit : (if xor x y then X ^ ys.length else 0 : (ZMod 2)[X])
          = (if x then X ^ ys.length else 0) + if y then X ^ ys.length else 0 := by
        cases x <;> cases y <;> simp [hself]
      rw [hbit]
      ring

theorem degree_bitsPoly (bs : List Bool) : (bitsPoly bs).degree < bs.length := by
  induction bs with
  | nil => simp [bitsPoly]
  | cons b bs ih =>
    have hhead : (if b then X ^ bs.length else 0 : (ZMod 2)[X]).degree
        ≤ (bs.length : WithBot ℕ) := by
      split
      · exact degree_X_pow_le _
      · simp
    have hsucc : (bs.length : WithBot ℕ) < ((b :: bs).length : WithBot ℕ) := by
      exact_mod_cast Nat.lt_succ_self bs.length
    refine lt_of_le_of_lt (degree_add_le _ _) (max_lt (lt_of_le_of_lt hhead hsucc) ?_)
    exact ih.trans hsucc

/-- Only a string of zeros stands for zero. -/
theorem not_mem_of_bitsPoly {bs : List Bool} (h : bitsPoly bs = 0) : true ∉ bs := by
  induction bs with
  | nil => simp
  | cons b bs ih =>
    cases b with
    | false =>
      have hrest : bitsPoly bs = 0 := by simpa [bitsPoly] using h
      simpa using ih hrest
    | true =>
      have hcoeff : (bitsPoly bs).coeff bs.length = 0 :=
        coeff_eq_zero_of_degree_lt (degree_bitsPoly bs)
      have htop : (bitsPoly (true :: bs)).coeff bs.length = 1 := by
        simp [bitsPoly, hcoeff]
      rw [h] at htop
      simp at htop

/-! ## The register -/

variable {w : Nat}

/-- The bits of a word, the low one first. -/
def lsbBits (r : BitVec w) : List Bool := (List.range w).map r.getLsbD

noncomputable def regPoly (r : BitVec w) : (ZMod 2)[X] := bitsPoly (lsbBits r)

/-- The generator whose coefficients below `X ^ w` are the bits of `p`. -/
noncomputable def generator (p : BitVec w) : (ZMod 2)[X] := X ^ w + regPoly p

/-- One shift of the register. -/
def shift (p r : BitVec w) : BitVec w := if r.getLsbD 0 then (r >>> 1) ^^^ p else r >>> 1

/-- One word of the message. -/
def absorb (p r x : BitVec w) : BitVec w := (shift p)^[w] (r ^^^ x)

def absorbAll (p r : BitVec w) (xs : List (BitVec w)) : BitVec w := xs.foldl (absorb p) r

/-- A message as a bit string. -/
def wordBits (xs : List (BitVec w)) : List Bool := xs.flatMap lsbBits

@[simp] theorem length_lsbBits (r : BitVec w) : (lsbBits r).length = w := by simp [lsbBits]

@[simp] theorem length_wordBits (xs : List (BitVec w)) : (wordBits xs).length = xs.length * w := by
  induction xs with
  | nil => simp [wordBits]
  | cons x xs ih =>
    rw [wordBits, flatMap_cons, length_append, ← wordBits, ih, length_lsbBits,
      length_cons, Nat.succ_mul, Nat.add_comm]

theorem lsbBits_xor (a b : BitVec w) :
    lsbBits (a ^^^ b) = List.zipWith xor (lsbBits a) (lsbBits b) := by
  refine ext_getElem (by simp) fun i hi _ => ?_
  simp [lsbBits]

theorem regPoly_xor (a b : BitVec w) : regPoly (a ^^^ b) = regPoly a + regPoly b := by
  rw [regPoly, lsbBits_xor, bitsPoly_xor (by simp)]
  rfl

/-- What is left of a word without its low bit moves one place down. -/
theorem X_mul_regPoly (hw : 0 < w) (r : BitVec w) :
    X * regPoly r = (if r.getLsbD 0 then X ^ w else 0) + regPoly (r >>> 1) := by
  obtain ⟨n, rfl⟩ : ∃ n, w = n + 1 := ⟨w - 1, by omega⟩
  have hbits : lsbBits r = r.getLsbD 0 :: (List.range n).map (fun i => r.getLsbD (i + 1)) := by
    simp [lsbBits, range_succ_eq_map, Function.comp_def]
  have hshift : lsbBits (r >>> 1) = (List.range n).map (fun i => r.getLsbD (i + 1)) ++ [false] := by
    rw [lsbBits, range_succ, map_append]
    congr 1
    · refine map_congr_left fun i _ => ?_
      rw [BitVec.getLsbD_ushiftRight, Nat.add_comm 1 i]
    · simp [BitVec.getLsbD_of_ge]
  have hlast : bitsPoly [false] = 0 := bitsPoly_replicate 1
  rw [regPoly, hbits, regPoly, hshift, bitsPoly_append, bitsPoly, hlast, length_map,
    length_range, length_singleton]
  cases r.getLsbD 0 with
  | false =>
    simp only [Bool.false_eq_true, if_false]
    ring
  | true =>
    simp only [if_true]
    ring

/-- **A shift** multiplies the register by `X`. -/
theorem dvd_shift (hw : 0 < w) (p r : BitVec w) :
    generator p ∣ regPoly (shift p r) + X * regPoly r := by
  have hself : regPoly (r >>> 1) + regPoly (r >>> 1) = 0 := CharTwo.add_self_eq_zero _
  rw [X_mul_regPoly hw, shift]
  cases r.getLsbD 0 with
  | false =>
    refine ⟨0, ?_⟩
    simpa using hself
  | true =>
    refine ⟨1, ?_⟩
    simp only [if_true, regPoly_xor, generator]
    linear_combination hself

theorem dvd_shifts (hw : 0 < w) (p : BitVec w) (n : Nat) (r : BitVec w) :
    generator p ∣ regPoly ((shift p)^[n] r) + X ^ n * regPoly r := by
  induction n generalizing r with
  | zero =>
    refine ⟨0, ?_⟩
    simpa using CharTwo.add_self_eq_zero (regPoly r)
  | succ n ih =>
    rw [Function.iterate_succ_apply]
    have hrest := ih (shift p r)
    have hfirst := (dvd_shift hw p r).mul_left (X ^ n)
    have hself : X ^ n * regPoly (shift p r) + X ^ n * regPoly (shift p r) = 0 :=
      CharTwo.add_self_eq_zero _
    refine (dvd_add hrest hfirst).trans (dvd_of_eq ?_)
    linear_combination hself

/-- **The register after a message** is a remainder: of what it held before,
moved up by the length of the message, and of the message times `X ^ w`. -/
theorem dvd_absorbAll (hw : 0 < w) (p r : BitVec w) (xs : List (BitVec w)) :
    generator p ∣ regPoly (absorbAll p r xs)
      + (X ^ (xs.length * w) * regPoly r + X ^ w * bitsPoly (wordBits xs)) := by
  induction xs generalizing r with
  | nil =>
    refine ⟨0, ?_⟩
    simpa [absorbAll, wordBits, bitsPoly] using CharTwo.add_self_eq_zero (regPoly r)
  | cons x xs ih =>
    have hrest := ih (absorb p r x)
    have hfirst := (dvd_shifts hw p w (r ^^^ x)).mul_left (X ^ (xs.length * w))
    have hbits : bitsPoly (wordBits (x :: xs))
        = X ^ (xs.length * w) * regPoly x + bitsPoly (wordBits xs) := by
      rw [wordBits, flatMap_cons, bitsPoly_append, ← wordBits, length_wordBits]
      rfl
    have hself : X ^ (xs.length * w) * regPoly (absorb p r x)
        + X ^ (xs.length * w) * regPoly (absorb p r x) = 0 := CharTwo.add_self_eq_zero _
    rw [regPoly_xor] at hfirst
    refine (dvd_add hrest hfirst).trans (dvd_of_eq ?_)
    rw [hbits, length_cons, Nat.succ_mul, pow_add]
    show _ = regPoly (absorbAll p (absorb p r x) xs) + _
    have hword : (shift p)^[w] (r ^^^ x) = absorb p r x := rfl
    rw [hword]
    linear_combination hself

/-! ## Bursts -/

/-- The ones of a bit string lie within `n` consecutive places. -/
def Burst (n : Nat) (bits : List Bool) : Prop :=
  ∃ i burst k, bits = replicate i false ++ burst ++ replicate k false ∧ burst.length ≤ n

theorem degree_generator (p : BitVec w) : (generator p).degree = w := by
  have hlow : (regPoly p).degree < (X ^ w : (ZMod 2)[X]).degree := by
    simpa [regPoly] using degree_bitsPoly (lsbBits p)
  rw [generator, degree_add_eq_left_of_degree_lt hlow, degree_X_pow]

/-- The high bit of `p` is the constant term of the generator. -/
theorem coeff_zero_generator (hw : 0 < w) {p : BitVec w} (hp : p.getLsbD (w - 1) = true) :
    (generator p).coeff 0 = 1 := by
  obtain ⟨n, rfl⟩ : ∃ n, w = n + 1 := ⟨w - 1, by omega⟩
  have hbits : lsbBits p = (List.range n).map p.getLsbD ++ [true] := by
    rw [lsbBits, range_succ, map_append, map_singleton]
    rw [Nat.add_sub_cancel] at hp
    rw [hp]
  rw [generator, regPoly, hbits, bitsPoly_append]
  simp [bitsPoly]

/-- A generator with a constant term does not divide a burst. -/
theorem not_dvd_burst (hw : 0 < w) {p : BitVec w} (hp : p.getLsbD (w - 1) = true)
    {bits : List Bool} (hburst : Burst w bits) (hone : true ∈ bits) (n : Nat) :
    ¬ generator p ∣ X ^ n * bitsPoly bits := by
  obtain ⟨i, burst, k, rfl, hle⟩ := hburst
  have hin : true ∈ burst := by simpa using hone
  have hpoly : X ^ n * bitsPoly (replicate i false ++ burst ++ replicate k false)
      = X ^ (n + k) * bitsPoly burst := by
    rw [bitsPoly_append, bitsPoly_append, bitsPoly_replicate, bitsPoly_replicate,
      length_replicate, pow_add]
    ring
  intro hdvd
  rw [hpoly] at hdvd
  -- a power of `X` has nothing in common with the generator
  have hcoprime : IsCoprime (generator p) (X ^ (n + k)) := by
    refine IsCoprime.pow_right (IsCoprime.symm ?_)
    have hirreducible : Irreducible (X : (ZMod 2)[X]) := irreducible_X
    rw [hirreducible.coprime_iff_not_dvd, X_dvd_iff, coeff_zero_generator hw hp]
    exact one_ne_zero
  have hdeg : (bitsPoly burst).degree < (generator p).degree := by
    rw [degree_generator]
    exact lt_of_lt_of_le (degree_bitsPoly burst) (by exact_mod_cast hle)
  have hzero := eq_zero_of_dvd_of_degree_lt (hcoprime.dvd_of_dvd_mul_left hdvd) hdeg
  exact not_mem_of_bitsPoly hzero hin

/-- **Bursts are detected**: whatever the register held, two messages that
differ in a burst of at most `w` bits leave it different. -/
theorem absorbAll_ne_of_burst (hw : 0 < w) {p : BitVec w} (hp : p.getLsbD (w - 1) = true)
    (r : BitVec w) {xs ys : List (BitVec w)} (hlength : xs.length = ys.length)
    (hburst : Burst w (List.zipWith xor (wordBits xs) (wordBits ys)))
    (hone : true ∈ List.zipWith xor (wordBits xs) (wordBits ys)) :
    absorbAll p r xs ≠ absorbAll p r ys := by
  intro heq
  refine not_dvd_burst hw hp hburst hone w ?_
  rw [bitsPoly_xor (by rw [length_wordBits, length_wordBits, hlength])]
  have hxs := dvd_absorbAll hw p r xs
  have hys := dvd_absorbAll hw p r ys
  rw [← heq, ← hlength] at hys
  refine (dvd_add hxs hys).trans (dvd_of_eq ?_)
  have hself : regPoly (absorbAll p r xs) + X ^ (xs.length * w) * regPoly r
      + (regPoly (absorbAll p r xs) + X ^ (xs.length * w) * regPoly r) = 0 :=
    CharTwo.add_self_eq_zero _
  linear_combination hself

end Arale.Lib.Crc
