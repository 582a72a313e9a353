import Arale.At.Fields
import Arale.Gsm.Alphabet

/-!
# USSD strings

`onUssd` decodes the hex string of `+CUSD` with one of three decoders into a
buffer of `2 * len + 1` bytes, and `convertToUCS2` encodes the string of a
request, cut to 255 bytes of UTF-8. Two results:

> `ussd_decoding_fits`: the decoders for septets and for UCS-2 write at most
> `2 * len` bytes. The one for 8-bit codes does exactly if the euro codes under
> an escape are no more than the bytes that the other codes spare: the flag of
> an escape stays set, so one escape makes every following `0x65` a character
> of three bytes.

> `convert_to_ucs2_whole`: the string is encoded up to its longest prefix of
> whole characters in 255 bytes exactly if the cut does not fall inside a
> character.

`calloc` of `2 * len + 1` bytes with `len = -1`, for a string that is not hex,
fails, so in the model a string that is not hex always ends in the error branch.
-/

namespace Arale.Gsm

open Arale.At List

/-! ## Model -/

/-- `GsmCbsDcsE` -/
inductive CbsDcs where
  | gsm7
  | eightBit
  | ucs2
deriving DecidableEq

/-- `checkCbsDcs` -/
def checkCbsDcs (dcs : Int) : CbsDcs :=
  let low := (dcs % 256).toNat
  if dcs = 0x11 ∨ low &&& 0x4C = 0x48 ∨ low &&& 0x9C = 0x98 then .ucs2
  else if low &&& 0x4C = 0x44 ∨ low &&& 0x9C = 0x94 ∨ low &&& 0xF4 = 0xF4 then .eightBit
  else .gsm7

/-- The name in `p_data[2]`: with the new service class feature the modem sends
everything but 8-bit codes as UCS-2. -/
def dcsString (newSsServiceClassFeature : Bool) (dcsType : CbsDcs) : CbsDcs :=
  if newSsServiceClassFeature then
    if dcsType = .eightBit then .eightBit else .ucs2
  else dcsType

/-- `gsm_hexchar_to_int`, with `none` for `-1` -/
def gsmHexcharToInt (c : UInt8) : Option Nat :=
  if c - 48 < 10 then some (c - 48).toNat
  else if c - 97 < 6 then some (10 + (c - 97).toNat)
  else if c - 65 < 6 then some (10 + (c - 65).toNat)
  else none

/-- `gsm_hex_to_bytes` -/
def gsmHexToBytes : Line → Option (List UInt8)
  | [] => some []
  | [_] => none
  | hi :: lo :: hex =>
    match gsmHexcharToInt hi, gsmHexcharToInt lo, gsmHexToBytes hex with
    | some hi, some lo, some bytes => some (UInt8.ofNat (hi <<< 4 ||| lo) :: bytes)
    | _, _, _ => none

/-- `zero4_to_space`: the unit 0 becomes a space, but not the last one. -/
def zero4ToSpace : List UInt8 → List UInt8
  | hi :: lo :: next :: ucs2 =>
    hi :: (if hi = 0 ∧ lo = 0 then 0x20 else lo) :: zero4ToSpace (next :: ucs2)
  | ucs2 => ucs2

/-- `MAX_RIL_USSD_STRING_LENGTH` -/
def maxRilUssdStringLength : Nat := 255

/-- Why no notification is sent. -/
inductive UssdStop where
  /-- The label `error`. -/
  | error
  /-- The string is shorter than the four digits that are skipped. -/
  | outside
deriving DecidableEq

/-- A decoded string, with the bytes it was decoded from. -/
structure UssdText where
  dcs : CbsDcs
  hexData : List UInt8
  utf8 : List UInt8

/-- The decoder for a coding scheme. -/
def decodeWith (dcs : CbsDcs) (hexData : List UInt8) : List UInt8 :=
  match dcs with
  | .gsm7 => utf8FromUnpackedgsm7 hexData hexData.length
  | .ucs2 => ucs2ToUtf8 (zero4ToSpace hexData) (hexData.length / 2)
  | .eightBit => utf8FromGsm8 hexData hexData.length

/-- The part of `onUssd` that decodes `str`. -/
def ussdText (newSsServiceClassFeature : Bool) (iDcs : Int) (str : Line) :
    Except UssdStop UssdText :=
  if iDcs = 0x11 ∧ str.length < 4 then .error .outside
  else
    -- the scheme 0x11 starts with two septets for the language
    let str := if iDcs = 0x11 then str.drop 4 else str
    let dcs := dcsString newSsServiceClassFeature (checkCbsDcs iDcs)
    match gsmHexToBytes str with
    | none => .error .error
    | some hexData =>
      let maxLen := if dcs = .ucs2 then hexData.length / 2 else hexData.length
      if maxLen > maxRilUssdStringLength then .error .error
      else .ok ⟨dcs, hexData, decodeWith dcs hexData⟩

/-- `gsm_hex_from_byte` -/
def gsmHexFromByte (val : UInt8) : Line :=
  let hexdigits := bytes "0123456789abcdef"
  [hexdigits.getD (val.toNat >>> 4 &&& 15) 0, hexdigits.getD (val.toNat &&& 15) 0]

/-- `gsm_hex_from_bytes` -/
def gsmHexFromBytes (src : List UInt8) : Line := src.flatMap gsmHexFromByte

/-- `convertToUCS2` -/
def convertToUcs2 (data : Line) : Line :=
  let ucs2 := utf8ToUcs2 (data.take (min data.length maxRilUssdStringLength))
  gsmHexFromBytes (ucs2.1.take (2 * ucs2.2))

/-! ## The size of a character -/

theorem length_utf8Write_le {v : Nat} (h : v < 0x10000) :
    (utf8Write v).length ≤ 3 ∧ (v < 0x800 → (utf8Write v).length ≤ 2) := by
  unfold utf8Write
  by_cases hone : v < 128
  · rw [if_pos hone]
    exact ⟨Nat.le_add_left 1 2, fun _ => Nat.le_add_left 1 1⟩
  by_cases htwo : v < 0x800
  · rw [if_neg hone, if_pos htwo]
    exact ⟨Nat.le_add_left 2 1, fun _ => Nat.le_refl 2⟩
  · rw [if_neg hone, if_neg htwo, if_pos h]
    exact ⟨Nat.le_refl 3, fun hlt => absurd hlt htwo⟩

/-- An entry of a table, or the 0 behind its end. -/
theorem getD_lt {table : List Nat} {bound : Nat} (htable : table.all (fun v => v < bound) = true)
    (hbound : 0 < bound) (c : Nat) : table.getD c 0 < bound := by
  rw [getD_eq_getElem?_getD]
  cases hc : table[c]? with
  | none => exact hbound
  | some v => exact of_decide_eq_true (all_eq_true.mp htable v (mem_of_getElem? hc))

theorem length_basic_le (c : Nat) : (utf8Write (gsm7bitsToUnicode.getD c 0)).length ≤ 2 := by
  have hlt : gsm7bitsToUnicode.getD c 0 < 0x800 := getD_lt (by decide) (by decide) c
  exact (length_utf8Write_le (Nat.lt_trans hlt (by decide))).2 hlt

theorem length_extend_le (c : Nat) : (utf8Write (gsm7bitsExtendToUnicode.getD c 0)).length ≤ 3 :=
  (length_utf8Write_le (getD_lt (by decide) (by decide) c)).1

/-- Of the extension table only the euro sign takes three bytes, and the other
characters one; of the default alphabet some take two. -/
theorem length_code {c : Nat} (h : c < 128) :
    (utf8Write (gsm7bitsExtendToUnicode.getD c 0)).length = (if c = 0x65 then 3 else 1) ∧
      (utf8Write (gsm7bitsToUnicode.getD c 0)).length
        = if 0x80 ≤ gsm7bitsToUnicode.getD c 0 then 2 else 1 := by
  have hall : ∀ c : Fin 128,
      (utf8Write (gsm7bitsExtendToUnicode.getD c.val 0)).length
          = (if c.val = 0x65 then 3 else 1) ∧
        (utf8Write (gsm7bitsToUnicode.getD c.val 0)).length
          = if 0x80 ≤ gsm7bitsToUnicode.getD c.val 0 then 2 else 1 := by decide +kernel
  exact hall ⟨c, h⟩

/-! ## The decoders in their buffer -/

/-- A septet adds at most two bytes, where a set flag counts for two. -/
theorem length_unpackedStep (s : Decoder) (c : Nat) :
    (unpackedStep s c).utf8.length + (if (unpackedStep s c).escaped then 2 else 0)
      ≤ s.utf8.length + (if s.escaped then 2 else 0) + 2 := by
  have hbasic := length_basic_le c
  have hextend := length_extend_le c
  unfold unpackedStep
  cases hset : s.escaped with
  | true =>
    simp only [if_true, Decoder.length_write, Decoder.write_escaped, Bool.false_eq_true, if_false]
    omega
  | false =>
    by_cases hescape : c = gsm7bitsEscape
    · rw [if_pos hescape]
      show s.utf8.length + 2 ≤ s.utf8.length + 0 + 2
      omega
    · rw [if_neg hescape]
      simp only [Decoder.length_write, Decoder.write_escaped, Bool.false_eq_true, if_false]
      omega

theorem length_foldl_unpackedStep (src : List UInt8) (s : Decoder) :
    (src.foldl (fun s b => unpackedStep s (b.toNat &&& 0x7f)) s).utf8.length
      ≤ s.utf8.length + (if s.escaped then 2 else 0) + 2 * src.length := by
  induction src generalizing s with
  | nil => exact Nat.le_trans (Nat.le_add_right _ _) (Nat.le_add_right _ _)
  | cons b src ih =>
    have hstep := length_unpackedStep s (b.toNat &&& 0x7f)
    have hrest := ih (unpackedStep s (b.toNat &&& 0x7f))
    rw [foldl_cons, length_cons]
    omega

theorem length_utf8FromUnpackedgsm7 (src : List UInt8) (septetCount : Nat) :
    (utf8FromUnpackedgsm7 src septetCount).length ≤ 2 * (src.take septetCount).length := by
  have hfold := length_foldl_unpackedStep (src.take septetCount) ⟨false, []⟩
  simpa [utf8FromUnpackedgsm7] using hfold

theorem length_ucs2ToUtf8 (ucs2 : List UInt8) (ucs2len : Nat) :
    (ucs2ToUtf8 ucs2 ucs2len).length ≤ 3 * ucs2len := by
  induction ucs2len generalizing ucs2 with
  | zero => exact Nat.le_refl 0
  | succ ucs2len ih =>
    have hunit : (ucs2.getD 0 0).toNat <<< 8 ||| (ucs2.getD 1 0).toNat < 2 ^ 16 := by
      apply Nat.or_lt_two_pow
      · rw [Nat.shiftLeft_eq]
        exact Nat.mul_lt_mul_of_pos_right (ucs2.getD 0 0).toNat_lt (by decide)
      · exact Nat.lt_trans (ucs2.getD 1 0).toNat_lt (by decide)
    have hwrite := (length_utf8Write_le hunit).1
    have hrest := ih (ucs2.drop 2)
    rw [ucs2ToUtf8, length_append]
    omega

/-- An escape sets and clears the flag, and a code that is no septet clears it. -/
def flagBehind (escaped : Bool) (b : UInt8) : Bool :=
  if b = 0x1b then !escaped else escaped && b < 0x80

/-- The codes `0x65` under an escape, up to the end mark. -/
def euroCodes : Bool → List UInt8 → Nat
  | _, [] => 0
  | escaped, b :: src =>
    if b = 0xff then 0
    else (if escaped && b == 0x65 then 1 else 0) + euroCodes (flagBehind escaped b) src

/-- What the codes leave of two bytes each: an escape that sets the flag and the
codes from the end mark on leave two, a letter of two bytes and a euro sign
none. -/
def spareBytes : Bool → List UInt8 → Nat
  | _, [] => 0
  | escaped, b :: src =>
    if b = 0xff then 2 * (src.length + 1)
    else
      (if b = 0x1b && !escaped then 2
        else if escaped && b == 0x65 then 0
        else if !escaped && b < 0x80 && 0x80 ≤ gsm7bitsToUnicode.getD b.toNat 0 then 0
        else 1)
      + spareBytes (flagBehind escaped b) src

/-- How much `utf8_from_gsm8` writes. -/
theorem length_gsm8Loop (src : List UInt8) (s : Decoder) :
    (gsm8Loop src s).length + spareBytes s.escaped src
      = s.utf8.length + 2 * src.length + euroCodes s.escaped src := by
  induction src generalizing s with
  | nil => rfl
  | cons b src ih =>
    have hspace : (utf8Write 0x20).length = 1 := rfl
    have hwrite : ∀ escaped v, (gsm8Loop src (s.write escaped v)).length
        + spareBytes escaped src = s.utf8.length + (utf8Write v).length + 2 * src.length
          + euroCodes escaped src := fun escaped v => by
      simpa using ih (s.write escaped v)
    unfold gsm8Loop spareBytes euroCodes
    by_cases hff : b = 0xff
    · rw [if_pos (by rw [hff]; rfl), if_pos hff, if_pos hff, length_cons]
      omega
    have hff' : b.toNat ≠ 0xff := fun h => hff (UInt8.toNat_inj.mp h)
    rw [if_neg hff', if_neg hff, if_neg hff, length_cons]
    by_cases hescape : b = 0x1b
    · subst hescape
      have hcode : (0x1b : UInt8).toNat = gsm7bitsEscape := rfl
      rw [if_pos hcode]
      cases hset : s.escaped with
      | true =>
        have hrest := hwrite false 0x20
        simp [flagBehind]
        omega
      | false =>
        have hrest := ih { s with escaped := true }
        simp [flagBehind] at hrest ⊢
        omega
    have hescape' : b.toNat ≠ gsm7bitsEscape := fun h => hescape (UInt8.toNat_inj.mp h)
    rw [if_neg hescape']
    by_cases hhigh : 0x80 ≤ b.toNat
    · have hlow : ¬ b < 0x80 := by rw [UInt8.lt_iff_toNat_lt]; exact Nat.not_lt.mpr hhigh
      have heuro : b ≠ 0x65 := by rintro rfl; exact absurd hhigh (by decide)
      have hrest := hwrite false 0x20
      rw [if_pos hhigh]
      simp [flagBehind, hescape, hlow, heuro]
      omega
    have hlow : b < 0x80 := by rw [UInt8.lt_iff_toNat_lt]; exact Nat.not_le.mp hhigh
    obtain ⟨hextend, hbasic⟩ := length_code (Nat.not_le.mp hhigh)
    have heuro : b.toNat = 0x65 ↔ b = 0x65 := @UInt8.toNat_inj b 0x65
    rw [if_neg hhigh]
    cases hset : s.escaped with
    | true =>
      have hrest := hwrite true (gsm7bitsExtendToUnicode.getD b.toNat 0)
      rw [hextend] at hrest
      simp only [flagBehind, hescape, hlow, heuro] at hrest ⊢
      by_cases hb : b = 0x65
      · simp [hb] at hrest ⊢
        omega
      · simp [hb] at hrest ⊢
        omega
    | false =>
      have hrest := hwrite false (gsm7bitsToUnicode.getD b.toNat 0)
      rw [hbasic] at hrest
      by_cases htwo : 0x80 ≤ gsm7bitsToUnicode.getD b.toNat 0
      · simp [flagBehind, hescape, hlow, htwo, -getD_eq_getElem?_getD] at hrest ⊢
        omega
      · simp [flagBehind, hescape, hlow, htwo, -getD_eq_getElem?_getD] at hrest ⊢
        omega

/-- The bytes that a decoder writes fit in front of the NUL. -/
theorem length_decodeWith (dcs : CbsDcs) (hexData : List UInt8) :
    (decodeWith dcs hexData).length ≤ 2 * hexData.length ↔
      (dcs = .eightBit → euroCodes false hexData ≤ spareBytes false hexData) := by
  cases dcs with
  | gsm7 =>
    have hlength := length_utf8FromUnpackedgsm7 hexData hexData.length
    rw [take_length] at hlength
    exact iff_of_true hlength (by simp)
  | ucs2 =>
    have hlength := length_ucs2ToUtf8 (zero4ToSpace hexData) (hexData.length / 2)
    refine iff_of_true ?_ (by simp)
    show (ucs2ToUtf8 _ _).length ≤ _
    omega
  | eightBit =>
    have hlength := length_gsm8Loop hexData ⟨false, []⟩
    simp only [length_nil] at hlength
    simp only [decodeWith, utf8FromGsm8, take_length, true_imp_iff]
    omega

theorem ussdText_utf8 {newSs : Bool} {iDcs : Int} {str : Line} {text : UssdText}
    (h : ussdText newSs iDcs str = .ok text) :
    text.dcs = dcsString newSs (checkCbsDcs iDcs) ∧
      gsmHexToBytes (if iDcs = 0x11 then str.drop 4 else str) = some text.hexData ∧
      text.utf8 = decodeWith text.dcs text.hexData := by
  unfold ussdText at h
  split at h
  · cases h
  dsimp only at h
  split at h
  · cases h
  next hexData hhex =>
  by_cases hlong : (if dcsString newSs (checkCbsDcs iDcs) = .ucs2 then hexData.length / 2
      else hexData.length) > maxRilUssdStringLength
  · rw [if_pos hlong] at h
    cases h
  · rw [if_neg hlong] at h
    obtain rfl := Except.ok.inj h
    exact ⟨rfl, hhex, rfl⟩

/-- **Decoding into the buffer.** A string that passes the length test is decoded
into its buffer, unless it has 8-bit codes of which the euro signs need more
than the others leave. -/
theorem ussd_decoding_fits (newSs : Bool) (iDcs : Int) (str : Line) (text : UssdText)
    (h : ussdText newSs iDcs str = .ok text) :
    text.utf8.length ≤ 2 * text.hexData.length ↔
      (dcsString newSs (checkCbsDcs iDcs) = .eightBit → ∀ codes, gsmHexToBytes str = some codes →
        euroCodes false codes ≤ spareBytes false codes) := by
  obtain ⟨hdcs, hhex, hutf8⟩ := ussdText_utf8 h
  rw [hutf8, length_decodeWith, hdcs]
  refine imp_congr_right fun height => ?_
  -- the scheme with a language is UCS-2
  have hlanguage : iDcs ≠ 0x11 := by
    rintro rfl
    cases newSs <;> cases height
  rw [if_neg hlanguage] at hhex
  simp [hhex]

theorem ussd_decoding_fits_sample :
    (decodeWith .eightBit [0x31, 0x1b, 0x65, 0x65, 0x65, 0x1b]).length ≤ 2 * 6 :=
  (ussd_decoding_fits false 0x44 (bytes "311B6565651b")
    ⟨.eightBit, [0x31, 0x1b, 0x65, 0x65, 0x65, 0x1b],
      decodeWith .eightBit [0x31, 0x1b, 0x65, 0x65, 0x65, 0x1b]⟩ rfl).mpr
    fun _ codes hcodes => by
      obtain rfl := Option.some.inj hcodes
      decide

/-- Four codes become nine bytes. -/
theorem ussd_decoding_exceeds :
    ¬ ∀ (newSs : Bool) (iDcs : Int) (str : Line) (text : UssdText),
      ussdText newSs iDcs str = .ok text → text.utf8.length ≤ 2 * text.hexData.length := by
  intro h
  have hfour := h false 0x44 (bytes "1B656565")
    ⟨.eightBit, [0x1b, 0x65, 0x65, 0x65], decodeWith .eightBit [0x1b, 0x65, 0x65, 0x65]⟩ rfl
  revert hfour
  decide

/-! ## The string of a request -/

/-- The longest prefix of whole characters in a number of bytes. -/
structure IsLongest (limit : Nat) (cs p : List Char) : Prop where
  starts : p <+: cs
  fits : (utf8Bytes p).length ≤ limit
  longest : ∀ q, q <+: cs → (utf8Bytes q).length ≤ limit → q.length ≤ p.length

/-- The UCS-2 encoding of characters below `0x10000`. -/
def ucs2Encoding (cs : List Char) : List UInt8 :=
  ucs2Bytes (cs.map fun c => UInt16.ofNat c.toNat)

theorem utf8ToUcs2_utf8Bytes {cs : List Char} (hbmp : ∀ c ∈ cs, c.toNat < 0x10000) :
    utf8ToUcs2 (utf8Bytes cs) = (ucs2Encoding cs, cs.length) := by
  rw [utf8Bytes_eq, utf8ToUcs2_chars (toNat_lt cs), length_map, ucs2Encoding, ucs2Bytes,
    flatMap_map, flatMap_map]
  congr 1
  refine flatMap_congr fun c hc => ?_
  have hunit : (UInt16.ofNat c.toNat).toNat = c.toNat := UInt16.toNat_ofNat_of_lt (hbmp c hc)
  rw [hunit]

theorem length_ucs2Encoding (cs : List Char) : (ucs2Encoding cs).length = 2 * cs.length := by
  induction cs with
  | nil => rfl
  | cons c cs ih =>
    show (ucs2Write _ ++ ucs2Encoding cs).length = _
    rw [length_append, ih, length_ucs2Write, length_cons]
    omega

/-- The bytes after the cut are those of whole characters. -/
theorem convertToUcs2_cut {data : Line} {cs : List Char} (hbmp : ∀ c ∈ cs, c.toNat < 0x10000)
    (hcut : data.take (min data.length maxRilUssdStringLength) = utf8Bytes cs) :
    convertToUcs2 data = gsmHexFromBytes (ucs2Encoding cs) := by
  rw [convertToUcs2, hcut, utf8ToUcs2_utf8Bytes hbmp]
  show gsmHexFromBytes ((ucs2Encoding cs).take (2 * cs.length)) = _
  rw [← length_ucs2Encoding, take_length]

theorem utf8Bytes_append (cs ds : List Char) :
    utf8Bytes (cs ++ ds) = utf8Bytes cs ++ utf8Bytes ds :=
  flatMap_append

@[simp] theorem length_gsmHexFromBytes (src : List UInt8) :
    (gsmHexFromBytes src).length = 2 * src.length := by
  induction src with
  | nil => rfl
  | cons b src ih =>
    show (gsmHexFromByte b ++ gsmHexFromBytes src).length = _
    rw [length_append, ih, length_cons]
    show 2 + _ = _
    omega

/-- Four digits for each unit. -/
theorem length_convertToUcs2 (data : Line) :
    (convertToUcs2 data).length
      = 4 * (utf8ToUcs2 (data.take (min data.length maxRilUssdStringLength))).2 := by
  have hunits : ∀ utf8, 2 * (utf8ToUcs2 utf8).2 ≤ (utf8ToUcs2 utf8).1.length :=
    fun _ => Nat.mul_div_le _ 2
  rw [convertToUcs2, length_gsmHexFromBytes, length_take, Nat.min_eq_left (hunits _)]
  omega

/-- A cut inside of a character leaves a unit for its first bytes. -/
theorem convertToUcs2_split {p rest : List Char} {c : Char}
    (hbmp : ∀ d ∈ p ++ c :: rest, d.toNat < 0x10000)
    (hlow : (utf8Bytes p).length < maxRilUssdStringLength)
    (hhigh : maxRilUssdStringLength < (utf8Bytes (p ++ [c])).length) :
    (convertToUcs2 (utf8Bytes (p ++ c :: rest))).length = 4 * (p.length + 1) := by
  have hc := hbmp c (by simp)
  have hlen := (length_utf8Write_le hc).1
  obtain ⟨b, conts, heq, hlead, hconts, hmulti⟩ := utf8Write_cons (Nat.lt_trans hc (by decide))
  have hchar : utf8Bytes [c] = b :: conts := by
    rw [← heq, utf8Write_char]
    exact append_nil _
  rw [utf8Bytes_append, hchar, length_append, length_cons] at hhigh
  rw [heq, length_cons] at hlen
  obtain ⟨k, hk⟩ : ∃ k, maxRilUssdStringLength = (utf8Bytes p).length + (k + 1) :=
    ⟨maxRilUssdStringLength - (utf8Bytes p).length - 1, by omega⟩
  have hbytes : utf8Bytes (p ++ c :: rest) = utf8Bytes p ++ b :: (conts ++ utf8Bytes rest) := by
    rw [utf8Bytes_append, ← singleton_append, utf8Bytes_append, hchar, cons_append]
  have hcut : (utf8Bytes (p ++ c :: rest)).take
      (min (utf8Bytes (p ++ c :: rest)).length maxRilUssdStringLength)
        = utf8Bytes p ++ b :: conts.take k := by
    have hmin : min (utf8Bytes (p ++ c :: rest)).length maxRilUssdStringLength
        = (utf8Bytes p).length + (k + 1) := by
      rw [hbytes, length_append, length_cons, length_append]
      omega
    rw [hmin, hbytes, take_length_add_append, take_succ_cons, take_append_of_le_length (by omega)]
  rw [length_convertToUcs2, hcut, utf8Bytes_eq, utf8ToUcs2_split (toNat_lt p), length_map]
  · rcases hmulti with rfl | hb
    · simp at hhigh
      omega
    · exact hb
  · exact hlead
  · exact fun x hx => hconts x (mem_of_mem_take hx)
  · rw [length_take]
    omega

/-- **The string of a request.** The longest prefix of whole characters is
encoded exactly if the cut falls between two characters. -/
theorem convert_to_ucs2_whole (cs p : List Char) (hbmp : ∀ c ∈ cs, c.toNat < 0x10000)
    (hlongest : IsLongest maxRilUssdStringLength cs p) :
    convertToUcs2 (utf8Bytes cs) = gsmHexFromBytes (ucs2Encoding p) ↔
      (utf8Bytes p).length = min (utf8Bytes cs).length maxRilUssdStringLength := by
  obtain ⟨rest, rfl⟩ := hlongest.starts
  have hfits := hlongest.fits
  constructor
  · intro heq
    have hunits := congrArg length heq
    rw [length_gsmHexFromBytes, length_ucs2Encoding] at hunits
    cases rest with
    | nil =>
      rw [append_nil]
      omega
    | cons c rest =>
      have hhigh : maxRilUssdStringLength < (utf8Bytes (p ++ [c])).length := by
        refine Nat.lt_of_not_le fun hle => ?_
        have hlonger := hlongest.longest (p ++ [c]) ⟨rest, by simp⟩ hle
        rw [length_append, length_singleton] at hlonger
        omega
      rcases Nat.lt_or_eq_of_le hfits with hlow | hfull
      · rw [convertToUcs2_split hbmp hlow hhigh] at hunits
        omega
      · rw [hfull, utf8Bytes_append, length_append]
        omega
  · intro hcut
    apply convertToUcs2_cut
    · exact fun c hc => hbmp c (mem_append_left rest hc)
    · rw [← hcut, utf8Bytes_append, take_left]

theorem isLongest_self {limit : Nat} {cs : List Char} (h : (utf8Bytes cs).length ≤ limit) :
    IsLongest limit cs cs :=
  ⟨prefix_refl cs, h, fun _ hq _ => hq.length_le⟩

theorem convert_to_ucs2_whole_sample :
    convertToUcs2 (utf8Bytes ['*', 'é', '#']) = bytes "002a00e90023" :=
  (convert_to_ucs2_whole ['*', 'é', '#'] ['*', 'é', '#'] (by simp)
    (isLongest_self (by decide))).mpr (by decide)

theorem length_utf8Bytes_replicate (n : Nat) :
    (utf8Bytes (replicate n 'é')).length = 2 * n := by
  induction n with
  | zero => rfl
  | succ n ih =>
    show (String.utf8EncodeChar 'é' ++ utf8Bytes (replicate n 'é')).length = _
    rw [length_append, ih]
    show 2 + 2 * n = 2 * (n + 1)
    omega

/-- 128 letters of two bytes: the first byte of the last one is read as a
character of its own. -/
theorem convert_to_ucs2_splits :
    ¬ ∀ cs p : List Char, (∀ c ∈ cs, c.toNat < 0x10000) → IsLongest maxRilUssdStringLength cs p →
      convertToUcs2 (utf8Bytes cs) = gsmHexFromBytes (ucs2Encoding p) := by
  intro h
  have hlongest : IsLongest maxRilUssdStringLength (replicate 128 'é')
      (replicate 127 'é') := by
    refine ⟨⟨['é'], rfl⟩, ?_, fun q hq hfits => ?_⟩
    · rw [length_utf8Bytes_replicate]
      exact Nat.le_succ 254
    · obtain ⟨-, hletters⟩ := prefix_replicate_iff.mp hq
      rw [hletters, length_utf8Bytes_replicate] at hfits
      change 2 * q.length ≤ 255 at hfits
      rw [length_replicate]
      omega
  have hcode := h _ _ (by simp) hlongest
  revert hcode
  decide +kernel

end Arale.Gsm
