import Mathlib.Data.List.GetD
import Arale.Lib.Crc
import Arale.Mux.Frame

/-!
# What the check sequence of a header detects

The sender of a frame complements the check sequence of its header and sends it
behind the payload; the receiver goes on through the table with what it got and
wants `0xCF`. `Frame` has the table and the two computations.

Here the table is what it says it is: eight shifts of the register of the
reflected CRC with the generator `x^8 + x^2 + x + 1`. The rest is `Lib.Crc`. An
octet is sent low bit first, and that is the order in which the register takes
the bits, so a burst on the line is a burst of the message.

> `frame_check_sequence`: the table computes that CRC, the receiver accepts what
> the sender sends, and it refuses it with any burst of at most eight bits in it.
-/

namespace Arale.Mux

open Arale.Lib.Crc List
open Polynomial (X)

/-- The coefficients of `x^2 + x + 1`, the constant term in the high bit. -/
def crc8 : BitVec 8 := 0xE0

/-- The bits of octets in the order of the line. -/
def octetBits (octets : List UInt8) : List Bool := wordBits (octets.map UInt8.toBitVec)

/-- The reflected CRC-8 from the register `fcs`, bit by bit. -/
def bitwiseCrc (fcs : UInt8) (octets : List UInt8) : UInt8 :=
  .ofBitVec (absorbAll crc8 fcs.toBitVec (octets.map UInt8.toBitVec))

/-- What the receiver has computed behind a header and the octet it takes for the
check sequence, the last of `octets`. -/
def residue (octets : List UInt8) : UInt8 := octets.foldl crcStep 0xFF

/-- The octets with the bits of `error` flipped. -/
def flipped (octets error : List UInt8) : List UInt8 := zipWith (· ^^^ ·) octets error

/-! ## The table -/

theorem generator_crc8 : generator crc8 = X ^ 8 + X ^ 2 + X + 1 := by
  have hbits : lsbBits crc8 = [false, false, false, false, false, true, true, true] := by decide
  rw [generator, regPoly, hbits]
  simp only [bitsPoly, Bool.false_eq_true, if_false, if_true, length_cons, length_nil]
  ring

/-- A shift of the register, as the number in it. -/
def shiftNat (n : Nat) : Nat := if n % 2 = 1 then n / 2 ^^^ 0xE0 else n / 2

theorem toNat_shift (r : BitVec 8) : (shift crc8 r).toNat = shiftNat r.toNat := by
  have hbit : r.getLsbD 0 = decide (r.toNat % 2 = 1) := Nat.testBit_zero r.toNat
  have hhalf : (r >>> 1).toNat = r.toNat / 2 := by
    rw [BitVec.toNat_ushiftRight, Nat.shiftRight_eq_div_pow]
  rw [shift, shiftNat, hbit]
  split
  · rename_i hodd
    rw [if_pos (of_decide_eq_true hodd), BitVec.toNat_xor, hhalf]
    rfl
  · rename_i heven
    rw [if_neg (fun h => heven (decide_eq_true h)), hhalf]

theorem toNat_shifts (k : Nat) (r : BitVec 8) :
    ((shift crc8)^[k] r).toNat = shiftNat^[k] r.toNat := by
  induction k generalizing r with
  | zero => rfl
  | succ k ih => rw [Function.iterate_succ_apply, Function.iterate_succ_apply, ih, toNat_shift]

/-- The table row by row. A lookup for each octet would walk through it 256 times. -/
theorem rCrctable_rows : rCrctable.map UInt8.toNat = (List.range 256).map shiftNat^[8] := by
  decide +kernel

theorem rCrctable_eq : ∀ x : UInt8,
    (rCrctable.getD x.toNat 0).toBitVec = (shift crc8)^[8] x.toBitVec := by
  intro x
  have hlength : x.toNat < ((List.range 256).map shiftNat^[8]).length := by
    rw [length_map, length_range]
    exact x.toNat_lt
  have hrow : (rCrctable.map UInt8.toNat).getD x.toNat 0 = shiftNat^[8] x.toNat := by
    rw [rCrctable_rows, getD_eq_getElem _ _ hlength, getElem_map, getElem_range]
  have hentry : (rCrctable.map UInt8.toNat).getD x.toNat 0 = (rCrctable.getD x.toNat 0).toNat :=
    getD_map rCrctable 0 UInt8.toNat
  apply BitVec.eq_of_toNat_eq
  rw [toNat_shifts]
  exact hentry.symm.trans hrow

theorem crcStep_eq (fcs octet : UInt8) :
    (crcStep fcs octet).toBitVec = absorb crc8 fcs.toBitVec octet.toBitVec := by
  rw [crcStep, rCrctable_eq, UInt8.toBitVec_xor]
  rfl

theorem foldl_crcStep (fcs : UInt8) (octets : List UInt8) :
    (octets.foldl crcStep fcs).toBitVec
      = absorbAll crc8 fcs.toBitVec (octets.map UInt8.toBitVec) := by
  induction octets generalizing fcs with
  | nil => rfl
  | cons octet octets ih =>
    rw [foldl_cons, ih, crcStep_eq]
    rfl

/-! ## Errors on the line -/

theorem octetBits_cons (octet : UInt8) (octets : List UInt8) :
    octetBits (octet :: octets) = lsbBits octet.toBitVec ++ octetBits octets := rfl

/-- What was sent and what was received differ in the error. -/
theorem octetBits_flipped {octets error : List UInt8} (h : error.length = octets.length) :
    zipWith xor (octetBits octets) (octetBits (flipped octets error)) = octetBits error := by
  induction octets generalizing error with
  | nil =>
    obtain rfl := length_eq_zero_iff.mp h
    rfl
  | cons octet octets ih =>
    cases error with
    | nil => cases h
    | cons e error =>
      have hoctet : octet.toBitVec ^^^ (octet ^^^ e).toBitVec = e.toBitVec := by
        rw [UInt8.toBitVec_xor, ← BitVec.xor_assoc, BitVec.xor_self, BitVec.zero_xor]
      have hhead : zipWith xor (lsbBits octet.toBitVec) (lsbBits (octet ^^^ e).toBitVec)
          = lsbBits e.toBitVec := by
        rw [← lsbBits_xor, hoctet]
      show zipWith xor (octetBits (octet :: octets))
        (octetBits ((octet ^^^ e) :: flipped octets error)) = _
      rw [octetBits_cons, octetBits_cons, octetBits_cons,
        zipWith_append (by simp), hhead, ih (Nat.succ.inj h)]

theorem mem_octetBits {octets : List UInt8} {octet : UInt8} (hmem : octet ∈ octets)
    (hne : octet ≠ 0) : true ∈ octetBits octets := by
  have hbit : true ∈ lsbBits octet.toBitVec := by
    by_contra hnone
    refine hne (UInt8.eq_of_toBitVec_eq (BitVec.eq_of_getLsbD_eq fun i hi => ?_))
    have hclear : octet.toBitVec.getLsbD i ≠ true := by
      intro hset
      exact hnone (mem_map.mpr ⟨i, mem_range.mpr hi, hset⟩)
    simpa using hclear
  exact mem_flatMap.mpr ⟨_, mem_map_of_mem hmem, hbit⟩

/-- An error in a burst of at most eight bits changes the residue. -/
theorem residue_flipped {octets error : List UInt8} (hlength : error.length = octets.length)
    (hburst : Burst 8 (octetBits error)) (hne : ∃ e ∈ error, e ≠ 0) :
    residue (flipped octets error) ≠ residue octets := by
  intro heq
  obtain ⟨e, hmem, he⟩ := hne
  have hdiff := octetBits_flipped hlength
  have hflipped : (flipped octets error).length = octets.length := by
    rw [flipped, length_zipWith, hlength, Nat.min_self]
  have hchanged : absorbAll crc8 (0xFF : UInt8).toBitVec (octets.map UInt8.toBitVec)
      ≠ absorbAll crc8 (0xFF : UInt8).toBitVec ((flipped octets error).map UInt8.toBitVec) := by
    refine absorbAll_ne_of_burst (by decide) (by decide) _ ?_ ?_ ?_
    · rw [length_map, length_map, hflipped]
    · show Burst 8 (zipWith xor (octetBits octets) (octetBits (flipped octets error)))
      rw [hdiff]
      exact hburst
    · show true ∈ zipWith xor (octetBits octets) (octetBits (flipped octets error))
      rw [hdiff]
      exact mem_octetBits hmem he
  refine hchanged ?_
  rw [← foldl_crcStep, ← foldl_crcStep]
  exact congrArg UInt8.toBitVec heq.symm

/-- **The check sequence.** For every header, the table from `0xFF` computes the
reflected CRC-8 of `x^8 + x^2 + x + 1`; with the sequence of the sender the
receiver comes to `0xCF`; and with an error in it that lies within eight
consecutive bits of header and sequence it does not. -/
theorem frame_check_sequence (header : List UInt8) :
    (generator crc8 = X ^ 8 + X ^ 2 + X + 1 ∧
        header.foldl crcStep 0xFF = bitwiseCrc 0xFF header) ∧
      residue (header ++ [frameCalcCrc header]) = 0xCF ∧
      ∀ error : List UInt8, error.length = header.length + 1 → Burst 8 (octetBits error) →
        (∃ e ∈ error, e ≠ 0) →
        residue (flipped (header ++ [frameCalcCrc header]) error) ≠ 0xCF := by
  have hgood : residue (header ++ [frameCalcCrc header]) = 0xCF := by
    rw [residue, foldl_append]
    exact crcStep_frameCalcCrc header
  refine ⟨⟨generator_crc8, ?_⟩, hgood, ?_⟩
  · rw [bitwiseCrc, ← foldl_crcStep]
  · intro error hlength hburst hne
    rw [← hgood]
    refine residue_flipped ?_ hburst hne
    rw [hlength, length_append, length_singleton]

/-- Three flipped bits across two octets of a SABM frame for channel 1. -/
theorem frame_check_sequence_sabm :
    Burst 8 (octetBits [0x00, 0xC0, 0x01, 0x00]) ∧
      residue [0x07, 0x3F, 0x01, frameCalcCrc [0x07, 0x3F, 0x01]] = 0xCF ∧
      residue [0x07, 0xFF, 0x00, frameCalcCrc [0x07, 0x3F, 0x01]] ≠ 0xCF := by
  have hburst : Burst 8 (octetBits [0x00, 0xC0, 0x01, 0x00]) :=
    ⟨14, [true, true, true], 15, by decide, by decide⟩
  obtain ⟨-, hgood, hburstCheck⟩ := frame_check_sequence [0x07, 0x3F, 0x01]
  refine ⟨hburst, hgood, ?_⟩
  exact hburstCheck [0x00, 0xC0, 0x01, 0x00] rfl hburst ⟨0xC0, by decide, by decide⟩

end Arale.Mux
