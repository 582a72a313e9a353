import Mathlib.Data.List.Basic
import Arale.Lib.Bits

/-!
# Bit fields of the CDMA SMS parameters

`putuint8` and `getuint8` write and read up to eight bits at any place of a byte
array; a field may begin in one byte and end in the next. In the bit string of
the array (`Arale.Lib.bit`) a write replaces exactly its field, `bit_putuint8`,
and a read returns it, `byteBit_getuint8`. Everything about packed addresses
follows from these two.
-/

namespace Arale.C2k

open List
open Arale.Lib

/-- `_valueMask`, for the widths of a byte -/
def valueMask (n : Nat) : UInt8 :=
  [0x00, 0x01, 0x03, 0x07, 0x0f, 0x1f, 0x3f, 0x7f, 0xff].getD n 0

/-- `_bitValueMask` -/
def bitValueMask (i : Nat) : UInt8 :=
  [0xff, 0x7f, 0x3f, 0x1f, 0x0f, 0x07, 0x03, 0x01].getD i 0

/-- `_saveTopMask` -/
def saveTopMask (i : Nat) : UInt8 :=
  [0x00, 0x80, 0xc0, 0xe0, 0xf0, 0xf8, 0xfc, 0xfe].getD i 0

/-- `putuint8` -/
def putuint8 (data : List UInt8) (startBit numBits : Nat) (value : UInt8) : List UInt8 :=
  let startByteIndex := startBit / 8 % 256
  let startBitIndex := startBit % 8
  if 8 < startBitIndex + numBits then
    -- the value spans two bytes
    let bitsIn2ndByte := startBitIndex + numBits - 8
    let mask := saveTopMask startBitIndex
    (data.modify startByteIndex fun b =>
      (b &&& mask) ||| (~~~mask &&& shiftRight value bitsIn2ndByte)).modify
      (startByteIndex + 1) fun b =>
        (b &&& ~~~saveTopMask bitsIn2ndByte) ||| shiftLeft value (8 - bitsIn2ndByte)
  else
    let lowBitsSave1stByte := 8 - (startBitIndex + numBits)
    let mask := shiftLeft (valueMask numBits) lowBitsSave1stByte
    data.modify startByteIndex fun b =>
      (b &&& ~~~mask) ||| (mask &&& shiftLeft value lowBitsSave1stByte)

/-- `getuint8` -/
def getuint8 (data : List UInt8) (startBit numBits : Nat) : UInt8 :=
  let startByteIndex := startBit / 8 % 256
  let startBitIndex := startBit % 8
  let value := data.getD startByteIndex 0 &&& bitValueMask startBitIndex
  if 8 < numBits + startBitIndex then
    let bitsIn2ndByte := numBits + startBitIndex - 8
    shiftLeft value bitsIn2ndByte
      ||| shiftRight (data.getD (startByteIndex + 1) 0) (8 - bitsIn2ndByte)
  else shiftRight value (8 - (numBits + startBitIndex))

/-! ## The masks -/

variable {k startBit numBits : Nat} {data : List UInt8}

theorem byteBit_valueMask {n : Nat} (hn : n ≤ 8) (hk : k < 8) :
    byteBit (valueMask n) k = decide (8 - n ≤ k) := by
  have hall : ∀ n : Fin 9, ∀ k : Fin 8, byteBit (valueMask n) k = decide (8 - n.val ≤ k.val) := by
    decide
  exact hall ⟨n, by omega⟩ ⟨k, hk⟩

theorem byteBit_bitValueMask {i : Nat} (hi : i < 8) (hk : k < 8) :
    byteBit (bitValueMask i) k = decide (i ≤ k) := by
  have hall : ∀ i k : Fin 8, byteBit (bitValueMask i) k = decide (i.val ≤ k.val) := by decide
  exact hall ⟨i, hi⟩ ⟨k, hk⟩

theorem byteBit_saveTopMask {i : Nat} (hi : i < 8) (hk : k < 8) :
    byteBit (saveTopMask i) k = decide (k < i) := by
  have hall : ∀ i k : Fin 8, byteBit (saveTopMask i) k = decide (k.val < i.val) := by decide
  exact hall ⟨i, hi⟩ ⟨k, hk⟩

/-- Behind its eight bits a byte has none. -/
theorem byteBit_of_le (b : UInt8) (hk : 8 ≤ k) : byteBit b k = false :=
  BitVec.getMsbD_of_ge b.toBitVec k hk

/-! ## Writing and reading -/

theorem length_putuint8 (data : List UInt8) (startBit numBits : Nat) (value : UInt8) :
    (putuint8 data startBit numBits value).length = data.length := by
  rw [putuint8]
  split <;> simp

/-- A write into two bytes. -/
theorem bit_putuint8_of_lt (value : UInt8)
    (hnum8 : numBits ≤ 8) (hlen : startBit + numBits ≤ 8 * data.length)
    (hbyte : startBit / 8 < 256) (hspan : 8 < startBit % 8 + numBits) (i : Nat) :
    bit (putuint8 data startBit numBits value) i
      = if startBit ≤ i ∧ i < startBit + numBits then byteBit value (8 - numBits + (i - startBit))
        else bit data i := by
  have hi8 : i % 8 < 8 := Nat.mod_lt _ (by decide)
  have hnext : ∀ f, (data.modify (startBit / 8) f).getD (startBit / 8 + 1) 0
      = data.getD (startBit / 8 + 1) 0 := by
    intro f
    simp [getD_eq_getElem?_getD]
  rw [putuint8, if_pos hspan, Nat.mod_eq_of_lt hbyte, bit_modify (by simp; omega),
    bit_modify (by omega), hnext]
  by_cases hsecond : i / 8 = startBit / 8 + 1
  · rw [if_pos hsecond, byteBit_or, byteBit_and, byteBit_not, byteBit_shiftLeft,
      byteBit_saveTopMask (by omega) hi8, bit, hsecond]
    by_cases hfield : i % 8 < startBit % 8 + numBits - 8
    · have hpos : i % 8 + (8 - (startBit % 8 + numBits - 8)) = 8 - numBits + (i - startBit) := by
        omega
      rw [if_pos (by omega), hpos]
      simp [hfield]
    · rw [if_neg (by omega), byteBit_of_le value (by omega)]
      simp [hfield, hi8]
  · rw [if_neg hsecond]
    by_cases hfirst : i / 8 = startBit / 8
    · rw [if_pos hfirst, byteBit_or, byteBit_and, byteBit_and, byteBit_not, byteBit_shiftRight,
        byteBit_saveTopMask (Nat.mod_lt _ (by decide)) hi8, bit, hfirst]
      by_cases hfield : i % 8 < startBit % 8
      · rw [if_neg (by omega)]
        simp [hfield]
      · have hshift : ¬ i % 8 < startBit % 8 + numBits - 8 := by omega
        have hpos : i % 8 - (startBit % 8 + numBits - 8) = 8 - numBits + (i - startBit) := by omega
        rw [if_pos (by omega), hpos]
        simp [hfield, hi8, hshift]
    · rw [if_neg hfirst, if_neg (by omega)]

/-- A write replaces the bits of its field by the low bits of the value. -/
theorem bit_putuint8 (value : UInt8) (hnum : 0 < numBits) (hnum8 : numBits ≤ 8)
    (hlen : startBit + numBits ≤ 8 * data.length) (hbyte : startBit / 8 < 256) (i : Nat) :
    bit (putuint8 data startBit numBits value) i
      = if startBit ≤ i ∧ i < startBit + numBits then byteBit value (8 - numBits + (i - startBit))
        else bit data i := by
  by_cases hspan : 8 < startBit % 8 + numBits
  · exact bit_putuint8_of_lt value hnum8 hlen hbyte hspan i
  have hi8 : i % 8 < 8 := Nat.mod_lt _ (by decide)
  rw [putuint8, if_neg hspan, Nat.mod_eq_of_lt hbyte, bit_modify (by omega)]
  by_cases hfirst : i / 8 = startBit / 8
  · rw [if_pos hfirst, byteBit_or, byteBit_and, byteBit_and, byteBit_not, byteBit_shiftLeft,
      byteBit_shiftLeft, bit, hfirst]
    by_cases hin : i % 8 < startBit % 8 + numBits
    · rw [byteBit_valueMask hnum8 (by omega)]
      by_cases hfield : startBit % 8 ≤ i % 8
      · have hpos : i % 8 + (8 - (startBit % 8 + numBits)) = 8 - numBits + (i - startBit) := by
          omega
        rw [if_pos (by omega), hpos]
        simp [hi8]
      · have hmask : ¬ 8 - numBits ≤ i % 8 + (8 - (startBit % 8 + numBits)) := by omega
        rw [if_neg (by omega)]
        simp [hi8, hmask]
    · rw [if_neg (by omega), byteBit_of_le (valueMask numBits) (by omega)]
      simp [hi8]
  · rw [if_neg hfirst, if_neg (by omega)]

/-- A read returns the bits of its field, behind zeros. -/
theorem byteBit_getuint8 (data : List UInt8) (hnum8 : numBits ≤ 8)
    (hbyte : startBit / 8 < 256) (hk : k < 8) :
    byteBit (getuint8 data startBit numBits) k
      = (decide (8 - numBits ≤ k) && bit data (startBit + (k - (8 - numBits)))) := by
  have hmod : startBit % 8 < 8 := Nat.mod_lt _ (by decide)
  rw [getuint8, Nat.mod_eq_of_lt hbyte, bit]
  split
  · rw [byteBit_or, byteBit_shiftLeft, byteBit_and, byteBit_shiftRight]
    by_cases hfirst : k + (numBits + startBit % 8 - 8) < 8
    · have hdiv : (startBit + (k - (8 - numBits))) / 8 = startBit / 8 := by omega
      rw [byteBit_bitValueMask hmod hfirst]
      by_cases hfield : 8 - numBits ≤ k
      · have hpos : (startBit + (k - (8 - numBits))) % 8 = k + (numBits + startBit % 8 - 8) := by
          omega
        have hmask : startBit % 8 ≤ k + (numBits + startBit % 8 - 8) := by omega
        have hsecond : k < 8 - (numBits + startBit % 8 - 8) := by omega
        rw [hdiv, hpos]
        simp [hfield, hmask, hsecond]
      · have hmask : ¬ startBit % 8 ≤ k + (numBits + startBit % 8 - 8) := by omega
        have hsecond : k < 8 - (numBits + startBit % 8 - 8) := by omega
        simp [hfield, hmask, hsecond]
    · have hdiv : (startBit + (k - (8 - numBits))) / 8 = startBit / 8 + 1 := by omega
      have hpos : (startBit + (k - (8 - numBits))) % 8
          = k - (8 - (numBits + startBit % 8 - 8)) := by omega
      have hfield : 8 - numBits ≤ k := by omega
      have hsecond : ¬ k < 8 - (numBits + startBit % 8 - 8) := by omega
      rw [byteBit_of_le (data.getD (startBit / 8) 0) (by omega), hdiv, hpos]
      simp [hfield, hsecond, hk]
  · rw [byteBit_shiftRight, byteBit_and, byteBit_bitValueMask hmod (by omega)]
    by_cases hfield : 8 - numBits ≤ k
    · have hdiv : (startBit + (k - (8 - numBits))) / 8 = startBit / 8 := by omega
      have hpos : (startBit + (k - (8 - numBits))) % 8 = k - (8 - (numBits + startBit % 8)) := by
        omega
      have hmask : startBit % 8 ≤ k - (8 - (numBits + startBit % 8)) := by omega
      have hshift : ¬ k < 8 - (numBits + startBit % 8) := by omega
      rw [hdiv, hpos]
      simp [hfield, hmask, hshift, hk]
    · have hzero : k < 8 - (numBits + startBit % 8)
          ∨ ¬ startBit % 8 ≤ k - (8 - (numBits + startBit % 8)) := by omega
      rcases hzero with hzero | hzero <;> simp [hfield, hzero]

/-- A write of a whole byte. -/
theorem putuint8_byte (data : List UInt8) (haligned : startBit % 8 = 0) (hbyte : startBit / 8 < 256)
    (value : UInt8) : putuint8 data startBit 8 value = data.set (startBit / 8) value := by
  have hmask : ∀ b : UInt8, (b &&& ~~~shiftLeft (valueMask 8) 0)
      ||| (shiftLeft (valueMask 8) 0 &&& shiftLeft value 0) = value := by
    intro b
    refine eq_of_byteBit fun k hk => ?_
    rw [byteBit_or, byteBit_and, byteBit_and, byteBit_not, byteBit_shiftLeft, byteBit_shiftLeft,
      Nat.add_zero, byteBit_valueMask (by decide) hk]
    simp
  rw [putuint8, haligned, if_neg (by decide), Nat.mod_eq_of_lt hbyte, set_eq_modify]
  simp only [Nat.zero_add, Nat.sub_self, hmask]

/-- Fields with the same bits read the same. -/
theorem getuint8_congr {data' : List UInt8} {startBit' : Nat}
    (hnum8 : numBits ≤ 8) (hbyte : startBit / 8 < 256) (hbyte' : startBit' / 8 < 256)
    (h : ∀ j < numBits, bit data (startBit + j) = bit data' (startBit' + j)) :
    getuint8 data startBit numBits = getuint8 data' startBit' numBits := by
  refine eq_of_byteBit fun k hk => ?_
  rw [byteBit_getuint8 data hnum8 hbyte hk, byteBit_getuint8 data' hnum8 hbyte' hk]
  by_cases hfield : 8 - numBits ≤ k
  · rw [h (k - (8 - numBits)) (by omega)]
  · simp [hfield]

/-- The value of a field that holds the bits of a small value. -/
theorem getuint8_eq {value : UInt8} (hnum8 : numBits ≤ 8) (hbyte : startBit / 8 < 256)
    (hsmall : ∀ k < 8 - numBits, byteBit value k = false)
    (h : ∀ j < numBits, bit data (startBit + j) = byteBit value (8 - numBits + j)) :
    getuint8 data startBit numBits = value := by
  refine eq_of_byteBit fun k hk => ?_
  rw [byteBit_getuint8 data hnum8 hbyte hk]
  by_cases hfield : 8 - numBits ≤ k
  · have hpos : 8 - numBits + (k - (8 - numBits)) = k := by omega
    rw [h (k - (8 - numBits)) (by omega), hpos]
    simp [hfield]
  · rw [hsmall k (by omega)]
    simp [hfield]

/-! ## Several fields -/

/-- A field that can be reached with its byte index, and a value that fits in it. -/
structure BitField where
  startBit : Nat
  numBits : Nat
  value : UInt8
  start_lt : startBit < 2040
  pos : 0 < numBits
  le_eight : numBits ≤ 8
  value_lt : value.toNat < 2 ^ numBits

namespace BitField

variable {f : BitField} {fields : List BitField}

def Covers (f : BitField) (i : Nat) : Prop := f.startBit ≤ i ∧ i < f.startBit + f.numBits

instance (f : BitField) (i : Nat) : Decidable (f.Covers i) := inferInstanceAs (Decidable (_ ∧ _))

def Inside (f : BitField) (data : List UInt8) : Prop := f.startBit + f.numBits ≤ 8 * data.length

def put (data : List UInt8) (f : BitField) : List UInt8 :=
  putuint8 data f.startBit f.numBits f.value

def get (data : List UInt8) (f : BitField) : UInt8 := getuint8 data f.startBit f.numBits

theorem bit_put (h : f.Inside data) (i : Nat) :
    bit (f.put data) i
      = if f.Covers i then byteBit f.value (8 - f.numBits + (i - f.startBit)) else bit data i := by
  have hstart := f.start_lt
  exact bit_putuint8 f.value f.pos f.le_eight h (by omega) i

/-- A field is read from its bits alone. -/
theorem get_of_bits
    (h : ∀ j < f.numBits, bit data (f.startBit + j) = byteBit f.value (8 - f.numBits + j)) :
    f.get data = f.value := by
  have hstart := f.start_lt
  refine getuint8_eq f.le_eight (by omega) ?_ h
  intro k hk
  exact byteBit_of_toNat_lt f.value_lt (by omega)

theorem bit_put_self (h : f.Inside data) {j : Nat} (hj : j < f.numBits) :
    bit (f.put data) (f.startBit + j) = byteBit f.value (8 - f.numBits + j) := by
  rw [bit_put h, if_pos ⟨by omega, by omega⟩, Nat.add_sub_cancel_left]

/-- Writes to fields that do not overlap. -/
theorem foldl_put (hinside : ∀ f ∈ fields, f.Inside data)
    (hdisjoint : fields.Pairwise fun f g => ∀ i, f.Covers i → ¬ g.Covers i) :
    (∀ f ∈ fields, f.get (fields.foldl put data) = f.value)
    ∧ ∀ i, (∀ f ∈ fields, ¬ f.Covers i) → bit (fields.foldl put data) i = bit data i := by
  induction fields generalizing data with
  | nil => exact ⟨fun f hf => absurd hf not_mem_nil, fun _ _ => rfl⟩
  | cons f fields ih =>
    obtain ⟨hfirst, hrest⟩ := pairwise_cons.mp hdisjoint
    have hf := hinside f mem_cons_self
    have hput : ∀ g ∈ fields, g.Inside (f.put data) := by
      intro g hg
      have hg := hinside g (mem_cons_of_mem f hg)
      rwa [Inside, put, length_putuint8]
    obtain ⟨hread, hframe⟩ := ih hput hrest
    refine ⟨?_, ?_⟩
    · intro g hg
      rcases mem_cons.mp hg with rfl | hg
      · -- the later writes leave the bits of the first field alone
        apply get_of_bits
        intro j hj
        rw [foldl_cons, hframe, bit_put_self hf hj]
        intro g' hg'
        exact hfirst g' hg' _ ⟨by omega, by omega⟩
      · exact hread g hg
    · intro i hi
      rw [foldl_cons, hframe i fun g hg => hi g (mem_cons_of_mem f hg), bit_put hf,
        if_neg (hi f mem_cons_self)]

/-- A write is read back and changes no other bit, and so do writes to several
fields. -/
theorem fields_read_back (hinside : ∀ f ∈ fields, f.Inside data)
    (hdisjoint : fields.Pairwise fun f g => ∀ i, f.Covers i → ¬ g.Covers i) :
    (∀ f ∈ fields, f.get (f.put data) = f.value ∧ ∀ i, ¬ f.Covers i →
      bit (f.put data) i = bit data i)
    ∧ (∀ f ∈ fields, f.get (fields.foldl put data) = f.value)
    ∧ ∀ i, (∀ f ∈ fields, ¬ f.Covers i) → bit (fields.foldl put data) i = bit data i := by
  refine ⟨?_, foldl_put hinside hdisjoint⟩
  intro f hf
  have hone : ∀ g ∈ [f], g.Inside data := by
    intro g hg
    exact hinside g (mem_singleton.mp hg ▸ hf)
  obtain ⟨hread, hframe⟩ := foldl_put hone (pairwise_singleton _ f)
  exact ⟨hread f (mem_singleton_self f),
    fun i hi => hframe i fun g hg => mem_singleton.mp hg ▸ hi⟩

/-- The second field has bits in both bytes. -/
theorem fields_read_back_two :
    getuint8 (putuint8 (putuint8 [255, 255] 0 5 19) 5 8 200) 0 5 = 19
    ∧ getuint8 (putuint8 (putuint8 [255, 255] 0 5 19) 5 8 200) 5 8 = 200 := by
  let f : BitField := ⟨0, 5, 19, by decide, by decide, by decide, by decide⟩
  let g : BitField := ⟨5, 8, 200, by decide, by decide, by decide, by decide⟩
  have hinside : ∀ h ∈ [f, g], h.Inside [255, 255] := by
    unfold Inside
    decide
  have hdisjoint : [f, g].Pairwise fun f g => ∀ i, f.Covers i → ¬ g.Covers i := by
    simp only [pairwise_pair, Covers, f, g]
    omega
  obtain ⟨-, hread, -⟩ := fields_read_back hinside hdisjoint
  have hf := hread f (by simp)
  have hg := hread g (by simp)
  simp only [get, foldl, put, f, g] at hf hg
  exact ⟨hf, hg⟩

end BitField

/-! ## Copying fields

Both directions of the codec move digits by the same loop, from one bit cursor
to another. -/

/-- The loop that copies `count` fields of `size` bits. -/
def copyFields (src : List UInt8) (size : Nat) : Nat → Nat → Nat → List UInt8 → List UInt8
  | 0, _, _, dst => dst
  | count + 1, getBit, putBit, dst =>
    copyFields src size count (getBit + size) (putBit + size)
      (putuint8 dst putBit size (getuint8 src getBit size))

theorem length_copyFields (src : List UInt8) (size count getBit putBit : Nat) (dst : List UInt8) :
    (copyFields src size count getBit putBit dst).length = dst.length := by
  induction count generalizing getBit putBit dst with
  | zero => rfl
  | succ count ih => rw [copyFields, ih, length_putuint8]

/-- The loop replaces the bits of its fields by those of the source. -/
theorem bit_copyFields (src : List UInt8) {size : Nat} (hsize : 0 < size) (hsize8 : size ≤ 8)
    (count getBit putBit : Nat) (dst : List UInt8) (hlen : putBit + size * count ≤ 8 * dst.length)
    (hput : (putBit + size * count) / 8 < 256) (hget : (getBit + size * count) / 8 < 256)
    (i : Nat) :
    bit (copyFields src size count getBit putBit dst) i
      = if putBit ≤ i ∧ i < putBit + size * count then bit src (getBit + (i - putBit))
        else bit dst i := by
  induction count generalizing getBit putBit dst with
  | zero => rw [copyFields, if_neg (by omega)]
  | succ count ih =>
    rw [Nat.mul_succ] at hlen hput hget ⊢
    rw [copyFields, ih _ _ _ (by rw [length_putuint8]; omega) (by omega) (by omega)]
    by_cases hrest : putBit + size ≤ i ∧ i < putBit + size + size * count
    · have hpos : getBit + size + (i - (putBit + size)) = getBit + (i - putBit) := by omega
      rw [if_pos hrest, if_pos (by omega), hpos]
    · rw [if_neg hrest, bit_putuint8 _ hsize hsize8 (by omega) (by omega)]
      by_cases hfirst : putBit ≤ i ∧ i < putBit + size
      · have hpos : 8 - size + (i - putBit) - (8 - size) = i - putBit := by omega
        rw [if_pos hfirst, if_pos (by omega),
          byteBit_getuint8 src hsize8 (by omega) (by omega), hpos]
        simp
      · rw [if_neg hfirst, if_neg (by omega)]

end Arale.C2k
