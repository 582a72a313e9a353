import Arale.Gsm.Alphabet
import Arale.Lib.LowBits

/-!
# Packed septets

`utf8_from_gsm7` reads codes of seven bits from any bit on, and `utf8_to_gsm7`
packs them: a writer keeps the bits that do not fill a byte in `pad`. Both are
seen as strings of bits, where for the writer the bits in `pad` follow the bytes
already written (`BWriter.bit`). Two results:

> `gsm7_packed_agrees`: the packed and the unpacked decoder agree exactly if at
> most one septet follows the first escape. The packed one never clears the
> flag of an escape.

> `gsm7_packing_round_trip`: a text of the default alphabet is packed at any bit
> offset without touching the bits before, and is read back from there.
-/

namespace Arale.Gsm

open Arale.Lib List

/-! ## Model -/

/-- The septet at a bit of a byte. -/
def septetAt (src : Nat → UInt8) (pos shift : Nat) : Nat :=
  let c := (src pos).toNat >>> shift &&& 0x7f
  if shift > 1 then ((src (pos + 1)).toNat <<< (8 - shift) ||| c) &&& 0x7f else c

/-- A round of `utf8_from_gsm7` with the septet `c`. -/
def packedStep (s : Decoder) (c : Nat) : Decoder :=
  if s.escaped then s.write true (gsm7bitsExtendToUnicode.getD c 0)
  else if c = gsm7bitsEscape then { s with escaped := true }
  else s.write false (gsm7bitsToUnicode.getD c 0)

/-- The loop of `utf8_from_gsm7`, with the place of `src` and the shift. -/
def gsm7Loop (src : Nat → UInt8) : Nat → Nat → Nat → Decoder → Decoder
  | 0, _, _, s => s
  | septetCount + 1, pos, shift, s =>
    let s := packedStep s (septetAt src pos shift)
    if shift + 7 ≥ 8 then gsm7Loop src septetCount (pos + 1) (shift + 7 - 8) s
    else gsm7Loop src septetCount pos (shift + 7) s

/-- `utf8_from_gsm7` -/
def utf8FromGsm7 (src : Nat → UInt8) (septetOffset septetCount : Nat) : List UInt8 :=
  (gsm7Loop src septetCount (septetOffset / 8) (septetOffset % 8) ⟨false, []⟩).utf8

/-- `BWriterRec`, with the memory it writes to. -/
structure BWriter where
  mem : Nat → UInt8
  dst : Nat
  pad : Nat
  bits : Nat
  offset : Nat

/-- `bwriter_init` -/
def bwriterInit (mem : Nat → UInt8) (start : Nat) : BWriter :=
  let shift := start % 8
  { mem := mem
    dst := start / 8
    pad := if shift > 0 then (mem (start / 8)).toNat &&& (0xFFFFFFFF ^^^ 0xFF <<< shift) else 0
    bits := shift
    offset := start }

/-- `bwriter_add7` -/
def bwriterAdd7 (w : BWriter) (value : Nat) : BWriter :=
  let pad := w.pad ||| value <<< w.bits
  if w.bits + 7 ≥ 8 then
    { mem := Function.update w.mem w.dst (UInt8.ofNat pad), dst := w.dst + 1, pad := pad >>> 8,
      bits := w.bits + 7 - 8, offset := w.offset + 7 }
  else { w with pad := pad, bits := w.bits + 7, offset := w.offset + 7 }

/-- `bwriter_done`: the memory, and the offset behind the last septet. -/
def bwriterDone (w : BWriter) : (Nat → UInt8) × Nat :=
  (if w.bits > 0 then Function.update w.mem w.dst (UInt8.ofNat w.pad) else w.mem, w.offset)

/-- The septets of a character, a space if it has none. -/
def addChar (w : BWriter) (c : Nat) : BWriter :=
  match unicharToGsm7 c, unicharToGsm7Extend c with
  | some nn, _ => bwriterAdd7 w nn
  | none, some nn => bwriterAdd7 (bwriterAdd7 w gsm7bitsEscape) nn
  | none, none => bwriterAdd7 w 0x20

/-- `utf8_to_gsm7`, with a buffer. -/
def utf8ToGsm7 (utf8 : List UInt8) (dst : Nat → UInt8) (offset : Nat) : (Nat → UInt8) × Nat :=
  bwriterDone (eachChar addChar utf8 (bwriterInit dst offset))

/-! ## Reading -/

theorem testBit_mask7 (n i : Nat) : (n &&& 0x7f).testBit i = (decide (i < 7) && n.testBit i) := by
  rw [show n &&& 0x7f = n % 2 ^ 7 from Nat.and_two_pow_sub_one_eq_mod n 7, Nat.testBit_mod_two_pow]

variable {src : Nat → UInt8}

/-- The bits of a septet are those of the memory. -/
theorem septetAt_field {pos shift : Nat} {v : BitVec 7} (hshift : shift < 8)
    (h : FieldAt (bitAt src) (8 * pos + shift) v) : septetAt src pos shift = v.toNat := by
  refine Nat.eq_of_testBit_eq fun i => ?_
  by_cases hi : i < 7
  · have hbit : v.toNat.testBit i = bitAt src (8 * pos + (shift + i)) := by
      rw [← Nat.add_assoc, h i hi]
      rfl
    rw [hbit]
    by_cases hnext : shift + i < 8
    · -- the bit is in the first byte
      rw [bitAt_add hnext, septetAt]
      split
      · rw [testBit_mask7, Nat.testBit_or, Nat.testBit_shiftLeft, testBit_mask7,
          Nat.testBit_shiftRight, decide_eq_true hi, decide_eq_false (by omega : ¬ i ≥ 8 - shift)]
        rfl
      · rw [testBit_mask7, Nat.testBit_shiftRight, decide_eq_true hi]
        rfl
    · -- the bit is in the second byte
      have hplace : 8 * pos + (shift + i) = 8 * (pos + 1) + (shift + i - 8) := by omega
      have hshifted : i - (8 - shift) = shift + i - 8 := by omega
      rw [hplace, bitAt_add (by omega), septetAt, if_pos (by omega), testBit_mask7, Nat.testBit_or,
        Nat.testBit_shiftLeft, testBit_mask7, Nat.testBit_shiftRight, decide_eq_true hi,
        decide_eq_true (by omega : i ≥ 8 - shift),
        testBit_byte (by omega : 8 ≤ shift + i), hshifted, Bool.and_false, Bool.or_false]
      rfl
  · have hv : v.toNat.testBit i = false :=
      Nat.testBit_lt_two_pow (Nat.lt_of_lt_of_le v.isLt
        (Nat.pow_le_pow_right (by decide) (by omega)))
    rw [hv, septetAt]
    split
    · rw [testBit_mask7, decide_eq_false hi, Bool.false_and]
    · rw [testBit_mask7, decide_eq_false hi, Bool.false_and]

variable {septets : List (BitVec 7)}

theorem gsm7Loop_fields {pos shift : Nat}
    (hshift : shift < 8) (h : FieldsAt (bitAt src) (8 * pos + shift) septets) (s : Decoder) :
    gsm7Loop src septets.length pos shift s
      = septets.foldl (fun s c => packedStep s c.toNat) s := by
  induction septets generalizing pos shift s with
  | nil => rfl
  | cons c septets ih =>
    obtain ⟨hc, hrest⟩ := h
    rw [length_cons, gsm7Loop, septetAt_field hshift hc, foldl_cons]
    show (if shift + 7 ≥ 8 then _ else _) = _
    split
    · have hplace : 8 * pos + shift + 7 = 8 * (pos + 1) + (shift + 7 - 8) := by omega
      rw [hplace] at hrest
      exact ih (by omega) hrest _
    · exact ih (by omega) hrest _

/-- Septets that stand in the memory from a bit on are decoded one by one. -/
theorem utf8FromGsm7_fields {offset : Nat} (h : FieldsAt (bitAt src) offset septets) :
    utf8FromGsm7 src offset septets.length
      = (septets.foldl (fun s c => packedStep s c.toNat) ⟨false, []⟩).utf8 := by
  have hplace : 8 * (offset / 8) + offset % 8 = offset := Nat.div_add_mod offset 8
  rw [utf8FromGsm7, gsm7Loop_fields (Nat.mod_lt offset (by decide)) (hplace.symm ▸ h)]

/-! ## Packed and unpacked -/

/-- One septet in each byte. -/
def unpacked (septets : List (BitVec 7)) : List UInt8 := septets.map fun c => UInt8.ofNat c.toNat

theorem unpacked_septet (c : BitVec 7) : (UInt8.ofNat c.toNat).toNat &&& 0x7f = c.toNat := by
  rw [show (UInt8.ofNat c.toNat).toNat &&& 0x7f = (UInt8.ofNat c.toNat).toNat % 2 ^ 7 from
    Nat.and_two_pow_sub_one_eq_mod _ 7, UInt8.toNat_ofNat']
  omega

theorem utf8FromUnpackedgsm7_septets (septets : List (BitVec 7)) :
    utf8FromUnpackedgsm7 (unpacked septets) septets.length
      = (septets.foldl (fun s c => unpackedStep s c.toNat) ⟨false, []⟩).utf8 := by
  have hlength : septets.length = (unpacked septets).length := (length_map _).symm
  rw [utf8FromUnpackedgsm7, hlength, take_length, unpacked, foldl_map]
  simp only [unpacked_septet]

/-- What the packed decoder writes once its flag is set. -/
def extendedText (septets : List (BitVec 7)) : List UInt8 :=
  septets.flatMap fun c => utf8Write (gsm7bitsExtendToUnicode.getD c.toNat 0)

theorem packedStep_escaped (septets : List (BitVec 7)) (utf8 : List UInt8) :
    (septets.foldl (fun s c => packedStep s c.toNat) ⟨true, utf8⟩).utf8
      = utf8 ++ extendedText septets := by
  induction septets generalizing utf8 with
  | nil => exact (append_nil utf8).symm
  | cons c septets ih =>
    rw [foldl_cons, extendedText, flatMap_cons, ← append_assoc]
    exact ih _

theorem unpackedStep_append (septets : List (BitVec 7)) (escaped : Bool) (utf8 : List UInt8) :
    (septets.foldl (fun s c => unpackedStep s c.toNat) ⟨escaped, utf8⟩).utf8
      = utf8 ++ (septets.foldl (fun s c => unpackedStep s c.toNat) ⟨escaped, []⟩).utf8 := by
  induction septets generalizing escaped utf8 with
  | nil => exact (append_nil utf8).symm
  | cons c septets ih =>
    have hstep : unpackedStep ⟨escaped, utf8⟩ c.toNat
        = ⟨(unpackedStep ⟨escaped, []⟩ c.toNat).escaped,
            utf8 ++ (unpackedStep ⟨escaped, []⟩ c.toNat).utf8⟩ := by
      unfold unpackedStep
      dsimp only
      repeat' split
      all_goals simp [Decoder.write]
    rw [foldl_cons, foldl_cons, hstep, ih, append_assoc, ← ih]

/-- The unpacked decoder from a clear flag on. -/
def unpackedText (septets : List (BitVec 7)) : List UInt8 :=
  (septets.foldl (fun s c => unpackedStep s c.toNat) ⟨false, []⟩).utf8

theorem unpackedText_plain {c : BitVec 7} (h : c.toNat ≠ gsm7bitsEscape)
    (septets : List (BitVec 7)) :
    unpackedText (c :: septets)
      = utf8Write (gsm7bitsToUnicode.getD c.toNat 0) ++ unpackedText septets := by
  have hstep : unpackedStep ⟨false, []⟩ c.toNat
      = ⟨false, utf8Write (gsm7bitsToUnicode.getD c.toNat 0)⟩ := by
    simp [unpackedStep, h, Decoder.write]
  rw [unpackedText, foldl_cons, hstep, unpackedStep_append, unpackedText]

theorem unpackedText_escape {c : BitVec 7} (h : c.toNat = gsm7bitsEscape) (d : BitVec 7)
    (septets : List (BitVec 7)) :
    unpackedText (c :: d :: septets)
      = utf8Write (gsm7bitsExtendToUnicode.getD d.toNat 0) ++ unpackedText septets := by
  have hstep : unpackedStep (unpackedStep ⟨false, []⟩ c.toNat) d.toNat
      = ⟨false, utf8Write (gsm7bitsExtendToUnicode.getD d.toNat 0)⟩ := by
    simp [unpackedStep, h, Decoder.write]
  rw [unpackedText, foldl_cons, foldl_cons, hstep, unpackedStep_append, unpackedText]

/-- A character of a table does not begin with a byte 0. -/
theorem zero_differs {table : List Nat}
    (htable : table ∈ [gsm7bitsToUnicode, gsm7bitsExtendToUnicode]) {c : BitVec 7}
    (hc : table.getD c.toNat 0 ≠ 0) :
    (utf8Write 0).head? ≠ (utf8Write (table.getD c.toNat 0)).head? := by
  have hall : [gsm7bitsToUnicode, gsm7bitsExtendToUnicode].all (fun table =>
      (List.range 128).all fun c => table.getD c 0 == 0 ||
        (utf8Write 0).head? != (utf8Write (table.getD c 0)).head?) = true := by decide +kernel
  simpa [-getD_eq_getElem?_getD, hc] using
    all_eq_true.mp (all_eq_true.mp hall _ htable) c.toNat (mem_range.mpr c.isLt)

/-- Every further escape is a byte 0 for the packed decoder, so it stays ahead:
the texts differ, with any number of such bytes in front. -/
theorem extendedText_ne (n : Nat) (septets : List (BitVec 7)) (hsome : n ≠ 0 ∨ septets ≠ []) :
    replicate n 0 ++ extendedText septets ≠ unpackedText septets := by
  induction hlength : septets.length using Nat.strongRecOn generalizing n septets with
  | ind length ih =>
  cases septets with
  | nil =>
    have hn : n ≠ 0 := hsome.resolve_right (by simp)
    simpa [extendedText, unpackedText] using hn
  | cons c septets =>
    by_cases hescape : c.toNat = gsm7bitsEscape
    · -- the byte 0 for the escape goes to the others
      have hahead : replicate n 0 ++ extendedText (c :: septets)
          = utf8Write 0 ++ (replicate n 0 ++ extendedText septets) := by
        have hcode : extendedText (c :: septets) = 0 :: extendedText septets := by
          rw [extendedText, flatMap_cons, hescape]
          rfl
        rw [hcode, append_cons, ← replicate_succ', replicate_succ]
        rfl
      rw [hahead]
      cases septets with
      | nil =>
        have hempty : unpackedText [c] = [] := by simp [unpackedText, unpackedStep, hescape]
        rw [hempty]
        exact cons_ne_nil _ _
      | cons d septets =>
        rw [unpackedText_escape hescape]
        by_cases hunused : gsm7bitsExtendToUnicode.getD d.toNat 0 = 0
        · rw [hunused]
          intro heq
          refine ih septets.length ?_ (n + 1) septets (.inl n.succ_ne_zero) rfl ?_
          · rw [← hlength, length_cons, length_cons]
            omega
          have hcode : extendedText (d :: septets) = 0 :: extendedText septets := by
            rw [extendedText, flatMap_cons, hunused]
            rfl
          rw [hcode, append_cons, ← replicate_succ'] at heq
          exact append_cancel_left heq
        · exact append_utf8Write_ne (zero_differs (by simp) hunused) [] _ _
    · rw [unpackedText_plain hescape]
      cases n with
      | zero => exact append_utf8Write_ne (tables_differ c.isLt hescape) [] _ _
      | succ n =>
        have hused : gsm7bitsToUnicode.getD c.toNat 0 ≠ 0 := by
          have hall : ∀ c : Fin 128, c.val ≠ gsm7bitsEscape →
              gsm7bitsToUnicode.getD c.val 0 ≠ 0 := by decide
          exact hall ⟨c.toNat, c.isLt⟩ hescape
        exact append_utf8Write_ne (zero_differs (by simp) hused) [] (replicate n 0 ++ _) _

/-- Up to the first escape both decoders do the same, and with the septet behind
it; from there on they never agree again. -/
theorem packed_eq_unpacked (septets : List (BitVec 7)) (utf8 : List UInt8) :
    (septets.foldl (fun s c => packedStep s c.toNat) ⟨false, utf8⟩).utf8
        = (septets.foldl (fun s c => unpackedStep s c.toNat) ⟨false, utf8⟩).utf8 ↔
      (septets.dropWhile fun c => c.toNat != gsm7bitsEscape).length ≤ 2 := by
  induction septets generalizing utf8 with
  | nil => simp
  | cons c septets ih =>
    by_cases hescape : c.toNat = gsm7bitsEscape
    · have hset : packedStep ⟨false, utf8⟩ c.toNat = ⟨true, utf8⟩ := by
        simp [packedStep, hescape]
      rw [dropWhile_cons_of_neg (by simp [hescape]), foldl_cons, hset, packedStep_escaped,
        unpackedStep_append, append_cancel_left_eq]
      show extendedText septets = unpackedText (c :: septets) ↔ _
      cases septets with
      | nil => simp [extendedText, unpackedText, unpackedStep, hescape]
      | cons d septets =>
        rw [unpackedText_escape hescape, extendedText, flatMap_cons, append_cancel_left_eq,
          ← extendedText]
        cases septets with
        | nil => simp [extendedText, unpackedText]
        | cons e septets =>
          refine iff_of_false (extendedText_ne 0 (e :: septets) (.inr (by simp))) ?_
          simp
    · have hsame : packedStep ⟨false, utf8⟩ c.toNat = unpackedStep ⟨false, utf8⟩ c.toNat := rfl
      have hclear : unpackedStep ⟨false, utf8⟩ c.toNat
          = ⟨false, utf8 ++ utf8Write (gsm7bitsToUnicode.getD c.toNat 0)⟩ := by
        simp [unpackedStep, hescape, Decoder.write]
      rw [dropWhile_cons_of_pos (by simp [hescape]), foldl_cons, foldl_cons, hsame, hclear]
      exact ih _

/-- **The two decoders.** They agree exactly if at most one septet follows the
first escape. -/
theorem gsm7_packed_agrees (src : Nat → UInt8) (septets : List (BitVec 7))
    (hpacked : FieldsAt (bitAt src) 0 septets) :
    utf8FromGsm7 src 0 septets.length
        = utf8FromUnpackedgsm7 (unpacked septets) septets.length ↔
      (septets.dropWhile fun c => c.toNat != gsm7bitsEscape).length ≤ 2 := by
  rw [utf8FromGsm7_fields hpacked, utf8FromUnpackedgsm7_septets]
  exact packed_eq_unpacked septets []

/-- The three septets 1b 65 61 in three bytes. -/
def sampleSeptets : List (BitVec 7) := [0x1b, 0x65, 0x61]

def samplePacked (i : Nat) : UInt8 := [0x9b, 0x72, 0x18].getD i 0

theorem samplePacked_fields : FieldsAt (bitAt samplePacked) 0 sampleSeptets := by
  refine ⟨?_, ?_, ?_, trivial⟩
  · unfold FieldAt
    decide
  · unfold FieldAt
    decide
  · unfold FieldAt
    decide

theorem gsm7_packed_agrees_euro :
    utf8FromGsm7 samplePacked 0 2 = utf8FromUnpackedgsm7 [0x1b, 0x65] 2 :=
  (gsm7_packed_agrees samplePacked [0x1b, 0x65]
    ⟨samplePacked_fields.1, samplePacked_fields.2.1, trivial⟩).mpr (by decide)

/-- The letter behind the euro sign is lost in the packed form. -/
theorem gsm7_packed_differs :
    ¬ ∀ (src : Nat → UInt8) (septets : List (BitVec 7)), FieldsAt (bitAt src) 0 septets →
      utf8FromGsm7 src 0 septets.length
        = utf8FromUnpackedgsm7 (unpacked septets) septets.length := by
  intro h
  have hsample := h samplePacked sampleSeptets samplePacked_fields
  revert hsample
  decide

/-! ## Writing -/

namespace BWriter

/-- The string of bits: the bytes given out, and then `pad`. -/
def bit (w : BWriter) (i : Nat) : Bool :=
  if i < 8 * w.dst then bitAt w.mem i else w.pad.testBit (i - 8 * w.dst)

/-- `pad` holds fewer than eight bits, and nothing above them. -/
structure Clean (w : BWriter) : Prop where
  offset_eq : w.offset = 8 * w.dst + w.bits
  bits_lt : w.bits < 8
  pad_lt : w.pad < 2 ^ w.bits

/-- Giving out a byte of `pad` changes no bit of the string. -/
theorem bit_flush (w : BWriter) (bits offset i : Nat) :
    bit ⟨Function.update w.mem w.dst (UInt8.ofNat w.pad), w.dst + 1, w.pad >>> 8, bits, offset⟩ i
      = w.bit i := by
  unfold bit
  by_cases hlow : i < 8 * w.dst
  · rw [if_pos (by omega : i < 8 * (w.dst + 1)), if_pos hlow, bitAt_update, if_neg (by omega)]
  rw [if_neg hlow]
  by_cases hbyte : i < 8 * (w.dst + 1)
  · have hmod : i % 8 = i - 8 * w.dst := by omega
    rw [if_pos hbyte, bitAt_update, if_pos (by omega), hmod]
  · have hshift : 8 + (i - 8 * (w.dst + 1)) = i - 8 * w.dst := by omega
    rw [if_neg hbyte, Nat.testBit_shiftRight, hshift]

variable {w : BWriter}

/-- The bits of `pad` with a value put behind them. -/
theorem testBit_pad (hw : w.Clean) (value j : Nat) :
    (w.pad ||| value <<< w.bits).testBit j
      = if j < w.bits then w.pad.testBit j else value.testBit (j - w.bits) := by
  rw [Nat.testBit_or, Nat.testBit_shiftLeft]
  by_cases hj : j < w.bits
  · rw [if_pos hj, decide_eq_false (by omega : ¬ j ≥ w.bits), Bool.false_and, Bool.or_false]
  · have hpad : w.pad.testBit j = false := Nat.testBit_lt_two_pow
      (Nat.lt_of_lt_of_le hw.pad_lt (Nat.pow_le_pow_right (by decide) (by omega)))
    rw [if_neg hj, hpad, decide_eq_true (by omega : j ≥ w.bits), Bool.true_and, Bool.false_or]

theorem pad_or_lt (hw : w.Clean) {value : Nat} (hvalue : value < 2 ^ 7) :
    w.pad ||| value <<< w.bits < 2 ^ (w.bits + 7) := by
  apply Nat.or_lt_two_pow
  · exact Nat.lt_of_lt_of_le hw.pad_lt (Nat.pow_le_pow_right (by decide) (by omega))
  · rw [Nat.shiftLeft_eq, Nat.pow_add, Nat.mul_comm]
    exact Nat.mul_lt_mul_of_pos_left hvalue (Nat.two_pow_pos _)

theorem clean_add7 (hw : w.Clean) {value : Nat} (hvalue : value < 2 ^ 7) :
    (bwriterAdd7 w value).Clean := by
  have hpad := pad_or_lt hw hvalue
  have hoffset := hw.offset_eq
  have hbits := hw.bits_lt
  unfold bwriterAdd7
  split
  · next hfull =>
    refine ⟨?_, ?_, ?_⟩
    · show w.offset + 7 = 8 * (w.dst + 1) + (w.bits + 7 - 8)
      omega
    · show w.bits + 7 - 8 < 8
      omega
    · show (w.pad ||| value <<< w.bits) >>> 8 < 2 ^ (w.bits + 7 - 8)
      rw [Nat.shiftRight_eq_div_pow]
      apply Nat.div_lt_of_lt_mul
      rw [← Nat.pow_add, Nat.add_sub_cancel' hfull]
      exact hpad
  · next hpart =>
    refine ⟨?_, ?_, hpad⟩
    · show w.offset + 7 = 8 * w.dst + (w.bits + 7)
      omega
    · show w.bits + 7 < 8
      omega

/-- A septet is put behind the string. -/
theorem bit_add7 (hw : w.Clean) (value i : Nat) :
    (bwriterAdd7 w value).bit i
      = if i < w.offset then w.bit i else value.testBit (i - w.offset) := by
  have hoffset := hw.offset_eq
  -- before the byte is given out, the septet is in `pad`
  have hpadded : bit { w with pad := w.pad ||| value <<< w.bits } i
      = if i < w.offset then w.bit i else value.testBit (i - w.offset) := by
    unfold bit
    dsimp only
    by_cases hlow : i < 8 * w.dst
    · rw [if_pos hlow, if_pos (by omega), if_pos hlow]
    · rw [if_neg hlow, testBit_pad hw]
      by_cases hi : i < w.offset
      · rw [if_pos hi, if_neg hlow, if_pos (by omega)]
      · rw [if_neg hi, if_neg (by omega)]
        congr 1
        omega
  rw [← hpadded]
  unfold bwriterAdd7
  split
  · exact bit_flush { w with pad := w.pad ||| value <<< w.bits } _ _ i
  · rfl

theorem clean_init (mem : Nat → UInt8) (start : Nat) :
    (bwriterInit mem start).Clean ∧ ∀ i < start, (bwriterInit mem start).bit i = bitAt mem i := by
  have hmask : ∀ shift j : Fin 8, (0xFFFFFFFF ^^^ 0xFF <<< shift.val).testBit j.val
      = decide (j.val < shift.val) := by decide
  have hpad : ∀ j, (bwriterInit mem start).pad.testBit j
      = (decide (j < start % 8) && (mem (start / 8)).toNat.testBit j) := by
    intro j
    show (if start % 8 > 0 then _ else _ : Nat).testBit j = _
    split
    · rw [Nat.testBit_and]
      by_cases hj : j < 8
      · rw [hmask ⟨start % 8, Nat.mod_lt start (by decide)⟩ ⟨j, hj⟩, Bool.and_comm]
      · rw [testBit_byte (by omega), Bool.false_and, Bool.and_false]
    · next hzero => rw [Nat.zero_testBit, decide_eq_false (by omega), Bool.false_and]
  refine ⟨⟨?_, Nat.mod_lt start (by decide), ?_⟩, ?_⟩
  · exact (Nat.div_add_mod start 8).symm
  · refine Nat.lt_pow_two_of_testBit _ fun j hj => ?_
    change start % 8 ≤ j at hj
    rw [hpad, decide_eq_false (Nat.not_lt.mpr hj), Bool.false_and]
  · intro i hi
    show (if i < 8 * (start / 8) then _ else _) = _
    split
    · rfl
    · have hplace : i = 8 * (start / 8) + (i - 8 * (start / 8)) := by omega
      show (bwriterInit mem start).pad.testBit (i - 8 * (start / 8)) = _
      rw [hpad, decide_eq_true (by omega), Bool.true_and]
      conv => rhs; rw [hplace]
      rw [bitAt_add (by omega)]

/-- The last bits are given out. -/
theorem bitAt_done (hw : w.Clean) {i : Nat} (hi : i < w.offset) :
    bitAt (bwriterDone w).1 i = w.bit i := by
  have hoffset := hw.offset_eq
  have hbits := hw.bits_lt
  unfold bwriterDone bit
  by_cases hlow : i < 8 * w.dst
  · split
    · rw [bitAt_update, if_neg (by omega)]
    · rfl
  · have hmod : i % 8 = i - 8 * w.dst := by omega
    rw [if_neg hlow, if_pos (by omega), bitAt_update, if_pos (by omega), hmod]

end BWriter

/-- The septets `codes` have been put behind the first `offset` bits of `mem`. -/
structure Written (mem : Nat → UInt8) (offset : Nat) (codes : List (BitVec 7)) (w : BWriter) :
    Prop where
  clean : w.Clean
  offset_eq : w.offset = offset + 7 * codes.length
  before : ∀ i < offset, w.bit i = bitAt mem i
  fields : FieldsAt w.bit offset codes

section Writing

variable {mem : Nat → UInt8} {offset : Nat} {codes : List (BitVec 7)} {w : BWriter}

theorem written_init (mem : Nat → UInt8) (offset : Nat) :
    Written mem offset [] (bwriterInit mem offset) :=
  ⟨(BWriter.clean_init mem offset).1, rfl, (BWriter.clean_init mem offset).2, trivial⟩

theorem offset_add7 (w : BWriter) (value : Nat) : (bwriterAdd7 w value).offset = w.offset + 7 := by
  unfold bwriterAdd7
  split
  · rfl
  · rfl

theorem Written.add7 (hw : Written mem offset codes w) (c : BitVec 7) :
    Written mem offset (codes ++ [c]) (bwriterAdd7 w c.toNat) := by
  have hoffset := hw.offset_eq
  refine ⟨BWriter.clean_add7 hw.clean c.isLt, ?_, fun i hi => ?_, FieldsAt.concat ?_ ?_⟩
  · rw [offset_add7, hoffset, length_append, length_singleton]
    omega
  · rw [BWriter.bit_add7 hw.clean, if_pos (by omega), hw.before i hi]
  · refine hw.fields.congr fun i hi => ?_
    rw [BWriter.bit_add7 hw.clean, if_pos (by omega)]
  · intro k hk
    rw [BWriter.bit_add7 hw.clean, ← hoffset, if_neg (by omega), Nat.add_sub_cancel_left]
    rfl

/-- The code of a character of the default alphabet. -/
def gsm7Code (c : Char) : BitVec 7 := BitVec.ofNat 7 ((unicharToGsm7 c.toNat).getD 0)

theorem gsm7Code_basic {c : Char} (h : Basic c) :
    unicharToGsm7 c.toNat = some (gsm7Code c).toNat ∧ (gsm7Code c).toNat ≠ gsm7bitsEscape ∧
      gsm7bitsToUnicode.getD (gsm7Code c).toNat 0 = c.toNat := by
  obtain ⟨nn, hcode, hlt, hescape, htable⟩ := unicharToGsm7_basic h
  have heq : (gsm7Code c).toNat = nn := by
    rw [gsm7Code, hcode, Option.getD_some, BitVec.toNat_ofNat, Nat.mod_eq_of_lt hlt]
  rw [heq]
  exact ⟨hcode, hescape, htable⟩

theorem Written.text {cs : List Char} (hw : Written mem offset codes w) (hcs : ∀ c ∈ cs, Basic c) :
    Written mem offset (codes ++ cs.map gsm7Code) (cs.foldl (fun w c => addChar w c.toNat) w) := by
  induction cs generalizing codes w with
  | nil =>
    rw [map_nil, append_nil]
    exact hw
  | cons c cs ih =>
    have hchar : addChar w c.toNat = bwriterAdd7 w (gsm7Code c).toNat := by
      rw [addChar, (gsm7Code_basic (hcs c mem_cons_self)).1]
    rw [foldl_cons, hchar, map_cons, append_cons]
    exact ih (hw.add7 _) fun d hd => hcs d (mem_cons_of_mem _ hd)

end Writing

/-- The septets of the default alphabet are read back. -/
theorem packedStep_text {cs : List Char} (hcs : ∀ c ∈ cs, Basic c) (utf8 : List UInt8) :
    (cs.map gsm7Code).foldl (fun s c => packedStep s c.toNat) ⟨false, utf8⟩
      = ⟨false, utf8 ++ utf8Bytes cs⟩ := by
  induction cs generalizing utf8 with
  | nil => exact congrArg (Decoder.mk false) (append_nil utf8).symm
  | cons c cs ih =>
    obtain ⟨-, hescape, htable⟩ := gsm7Code_basic (hcs c mem_cons_self)
    have hstep : packedStep ⟨false, utf8⟩ (gsm7Code c).toNat
        = ⟨false, utf8 ++ String.utf8EncodeChar c⟩ := by
      show (if (gsm7Code c).toNat = gsm7bitsEscape then _ else _) = _
      rw [if_neg hescape, htable, Decoder.write, utf8Write_char]
    rw [map_cons, foldl_cons, hstep, ih fun d hd => hcs d (mem_cons_of_mem _ hd),
      append_assoc]
    rfl

/-- A text of the default alphabet is packed at any bit offset and read back. -/
theorem gsm7_packing_round_trip (cs : List Char) (dst : Nat → UInt8) (offset : Nat)
    (hcs : ∀ c ∈ cs, Basic c) :
    (∀ i < offset, bitAt (utf8ToGsm7 (utf8Bytes cs) dst offset).1 i = bitAt dst i) ∧
      (utf8ToGsm7 (utf8Bytes cs) dst offset).2 = offset + 7 * cs.length ∧
      utf8FromGsm7 (utf8ToGsm7 (utf8Bytes cs) dst offset).1 offset cs.length = utf8Bytes cs := by
  have hwritten := (written_init dst offset).text hcs
  rw [nil_append] at hwritten
  rw [utf8ToGsm7, eachChar_utf8Bytes]
  generalize cs.foldl (fun w c => addChar w c.toNat) (bwriterInit dst offset) = w at hwritten
  have hoffset : w.offset = offset + 7 * cs.length := by
    rw [hwritten.offset_eq, length_map]
  have hbits : ∀ i < w.offset, bitAt (bwriterDone w).1 i = w.bit i := fun i hi =>
    BWriter.bitAt_done hwritten.clean hi
  refine ⟨fun i hi => ?_, hoffset, ?_⟩
  · rw [hbits i (by omega), hwritten.before i hi]
  · have hfields : FieldsAt (bitAt (bwriterDone w).1) offset (cs.map gsm7Code) := by
      refine hwritten.fields.congr fun i hi => hbits i ?_
      rw [hwritten.offset_eq]
      exact hi
    have hread := utf8FromGsm7_fields hfields
    rw [length_map, packedStep_text hcs] at hread
    exact hread

theorem gsm7_packing_round_trip_sample :
    utf8FromGsm7 (utf8ToGsm7 (utf8Bytes ['a', 'Δ', '@']) (fun _ => 0xff) 13).1 13 3
      = utf8Bytes ['a', 'Δ', '@'] :=
  (gsm7_packing_round_trip ['a', 'Δ', '@'] (fun _ => 0xff) 13
    (by simp [Basic, gsm7bitsToUnicode])).2.2

end Arale.Gsm
