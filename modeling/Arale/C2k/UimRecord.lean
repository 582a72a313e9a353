import Arale.Ril.HexText
import Arale.C2k.Parameters

/-!
# A record of the UIM is encoded again in place

`encodeUimPdu` gets a record of the card as text: the status, the length of a
PDU, the PDU and padding. It decodes the PDU, encodes the message in another
layout, and writes the new length and the new bytes over the text. The new
layout has 28 bytes around the digits and the bearer data, and the digits have
eight bits there.

> `uim_record_in_place`: nothing but the text is written, and it keeps its
> length, exactly if the new bytes are at most 253.

Nothing compares the new length with the old one. With 254 bytes the NUL of the
text is written over, and with 256 bytes the buffers of the encoder are too
short as well.
-/

namespace Arale.C2k.Checked

open Arale.Lib List
open Arale.At (Line)
open Arale.Ril (hexDigit)
open Arale.Ril.Pdu (hexOctets hexOctets_nil hexOctets_cons hexOctets_pair hexOctets_take_drop
  hexDigit_of_mem hexDigit_lt shiftLeft_or_digit pduArray_eq)

/-! ## The encoder -/

/-- The variables `pdu` and `length` of `encodeUimPduFromRilSmsStruc`. -/
structure Out where
  pdu : List UInt8
  length : Nat

/-- `putuint8(pdu, length*8, 8, value); length += 1` -/
def putByte (s : Out) (value : UInt8) : Except (Fault SmsArray) Out := do
  let pdu ← putuint8 .pdu s.pdu (s.length * 8) 8 value
  return ⟨pdu, (s.length + 1) % 256⟩

/-- `pdu[length] = value; length++` -/
def setByte (s : Out) (value : UInt8) : Except (Fault SmsArray) Out := do
  let pdu ← modifyAt .pdu s.pdu s.length fun _ => value
  return ⟨pdu, (s.length + 1) % 256⟩

def putBytes (s : Out) : List UInt8 → Except (Fault SmsArray) Out
  | [] => .ok s
  | value :: values => do
    let s ← putByte s value
    putBytes s values

def putTeleservice (s : Out) (teleserviceId : Nat) : Except (Fault SmsArray) Out := do
  let pdu ← putuint16 .pdu s.pdu (s.length * 8) 16 (UInt16.ofNat teleserviceId)
  return ⟨pdu, (s.length + 2) % 256⟩

/-- The loops that copy the digits and the bearer data. -/
def copyBytes (array : SmsArray) (src : List UInt8) :
    Nat → Nat → Out → Except (Fault SmsArray) Out
  | 0, _, s => .ok s
  | count + 1, i, s => do
    let value ← readAt array src i
    let s ← setByte s value
    copyBytes array src count (i + 1) s

/-- The part of `encodeUimPduFromRilSmsStruc` up to the text. -/
def encodeUimBytes (uServicecategory : Nat) (m : CdmaSmsMessage) : Except (Fault SmsArray) Out := do
  let s ← putBytes ⟨replicate 255 0, 0⟩ [0, 0, 0, 0]
  let s ← putBytes s [0, 0]
  let s ← putTeleservice s m.uTeleserviceId
  let s ← putBytes s [0, 0, 0, UInt8.ofNat uServicecategory]
  let s ← putBytes s [UInt8.ofNat m.sAddress.digitMode, UInt8.ofNat m.sAddress.numberMode,
    UInt8.ofNat m.sAddress.numberType, UInt8.ofNat m.sAddress.numberPlan]
  let s ← setByte s m.sAddress.numberOfDigits
  let s ← copyBytes .digits m.sAddress.digits m.sAddress.numberOfDigits.toNat 0 s
  -- the bearer reply option and the cause code are left out
  let s ← putBytes s [0, 0, 0, 0, 0, 0, 0]
  let s ← putBytes s [0, 0, 0, UInt8.ofNat m.uBearerDataLen]
  copyBytes .bearerData m.aBearerData m.uBearerDataLen 0 s

/-- `encodeUimPduFromRilSmsStruc`: the string `s_pdu`. -/
def encodeUimPduFromRilSmsStruc (uServicecategory : Nat) (m : CdmaSmsMessage) :
    Except (Fault SmsArray) Line := do
  let s ← encodeUimBytes uServicecategory m
  let strPdu ← convertAscii s.pdu s.length (replicate 511 0)
  return strPdu.takeWhile (· != 0)

/-- `sprintf` with `%0x`, for a number of at most 255. -/
def hexNumber (n : Nat) : Line :=
  if n < 16 then [convertChar (UInt8.ofNat n)]
  else [convertChar (UInt8.ofNat (n / 16)), convertChar (UInt8.ofNat (n % 16))]

/-- `strncpy`: the rest of the `n` characters is zero. -/
def strncpy (src : Line) (n : Nat) : Line := (src ++ replicate n 0).take n

/-- `encodeUimPdu`. The text does not have its NUL here, so that a write over the
NUL is outside. -/
def encodeUimPdu (simResponse : Line) : Except (Fault SmsArray) Line := do
  let iccpdulen := (convertNum (simResponse.getD 3 0)).toNat
    + (convertNum (simResponse.getD 2 0)).toNat * 16
  if iccpdulen = 0 ∨ simResponse.getD 1 0 &&& 1 = 0 then return simResponse
  let iccpdu := (simResponse.drop 4).take (iccpdulen * 2)
  let pdulen := iccpdu.length
  let bytePdu := convertByte iccpdu (replicate (pdulen / 2) 0) (pdulen / 2)
  let cdmaSms ← processCdmaIncomingSms bytePdu emptySms
  let sPdu ← encodeUimPduFromRilSmsStruc 0 cdmaSms
  let newlen := sPdu.length
  let text := simResponse.take 2 ++ replicate (simResponse.length - 2) 102
  let text ← storeAt .simResponse text 2 (strncpy (hexNumber (newlen / 2)) 2)
  storeAt .simResponse text 4 (strncpy sPdu newlen)

/-! ## The bytes of the new layout -/

/-- The buffer after `bytes` have been written. -/
def out (bytes : List UInt8) : Out := ⟨bytes ++ replicate (255 - bytes.length) 0, bytes.length⟩

section Writing

variable {bytes : List UInt8}

theorem out_length (bytes : List UInt8) : (out bytes).length = bytes.length := rfl

theorem length_out (hle : bytes.length ≤ 255) : (out bytes).pdu.length = 255 := padded_length hle

theorem out_eq {length : Nat} (hle : length ≤ 255) {pdu : List UInt8} (hpdu : pdu = (out bytes).pdu)
    (hlength : bytes.length = length) : (⟨pdu, length % 256⟩ : Out) = out bytes := by
  rw [hpdu, Nat.mod_eq_of_lt (by omega), ← hlength]
  rfl

/-- The next entry of the buffer. -/
theorem setByte_pdu (hlt : bytes.length < 255) (value : UInt8) :
    modifyAt SmsArray.pdu (out bytes).pdu bytes.length (fun _ => value)
      = .ok (out (bytes ++ [value])).pdu :=
  modifyAt_padded hlt value

/-- A field of eight bits at a byte is that byte. -/
theorem putuint8_out (hlt : bytes.length < 255) {startBit : Nat}
    (hstart : startBit = bytes.length * 8)
    (value : UInt8) :
    putuint8 .pdu (out bytes).pdu startBit 8 value = .ok (out (bytes ++ [value])).pdu := by
  have hlength := length_out (Nat.le_of_lt hlt)
  have hfield : FieldIn (out bytes).pdu startBit 8 := ⟨by omega, by omega, by omega⟩
  have hindex : startBit / 8 = bytes.length := by omega
  rw [putuint8_eq hfield, putuint8_byte _ (by omega) (by omega), hindex, set_eq_modify]
  exact (modifyAt_eq (by omega) _).symm.trans (setByte_pdu hlt value)

theorem putByte_out (hlt : bytes.length < 255) (value : UInt8) :
    putByte (out bytes) value = .ok (out (bytes ++ [value])) := by
  rw [putByte, out_length, putuint8_out hlt rfl, ok_bind]
  exact congrArg Except.ok (out_eq hlt rfl length_append)

theorem setByte_out (hlt : bytes.length < 255) (value : UInt8) :
    setByte (out bytes) value = .ok (out (bytes ++ [value])) := by
  rw [setByte, out_length, setByte_pdu hlt, ok_bind]
  exact congrArg Except.ok (out_eq hlt rfl length_append)

theorem putBytes_out {values : List UInt8} (hle : bytes.length + values.length ≤ 255) :
    putBytes (out bytes) values = .ok (out (bytes ++ values)) := by
  induction values generalizing bytes with
  | nil =>
    rw [append_nil]
    rfl
  | cons value values ih =>
    rw [length_cons] at hle
    rw [putBytes, putByte_out (by omega), ok_bind, ih, append_assoc]
    · rfl
    · rw [length_append, length_singleton]
      omega

theorem putTeleservice_out (hle : bytes.length + 2 ≤ 255) (id : Nat) :
    putTeleservice (out bytes) id = .ok (out (bytes ++ teleserviceBytes id)) := by
  have hhigh : ∀ high : UInt8, (bytes ++ [high]).length = bytes.length + 1 := fun _ => length_append
  rw [putTeleservice, putuint16, out_length, putuint8_out (by omega) rfl, ok_bind,
    putuint8_out (by rw [hhigh]; omega) (by rw [hhigh, Nat.add_mul]), ok_bind]
  refine congrArg Except.ok (out_eq hle ?_ length_append)
  rw [append_assoc]
  rfl

/-- The loop copies the next `count` entries. -/
theorem copyBytes_out {array : SmsArray} {src : List UInt8} {count i : Nat}
    (hsrc : i + count ≤ src.length) (hle : bytes.length + count ≤ 255) :
    copyBytes array src count i (out bytes) = .ok (out (bytes ++ (src.drop i).take count)) := by
  induction count generalizing bytes i with
  | zero =>
    rw [take_zero, append_nil]
    rfl
  | succ count ih =>
    have hdrop : (src.drop i).take (count + 1) = src.getD i 0 :: (src.drop (i + 1)).take count := by
      rw [drop_eq_getElem_cons (show i < src.length by omega), take_succ_cons,
        getD_eq_getElem _ _ (show i < src.length by omega)]
    rw [copyBytes, readAt_eq (show i < src.length by omega) 0, ok_bind,
      setByte_out (by omega), ok_bind, ih (by omega), hdrop, append_assoc]
    · rfl
    · rw [length_append, length_singleton]
      omega

/-- A loop that ends has stayed inside the buffer. -/
theorem copyBytes_inside {array : SmsArray} {src : List UInt8} {count i : Nat} {s : Out}
    (hle : bytes.length ≤ 255) (h : copyBytes array src count i (out bytes) = .ok s) :
    bytes.length + count ≤ 255 := by
  induction count generalizing bytes i with
  | zero => exact hle
  | succ count ih =>
    obtain ⟨value, -, h⟩ := bind_ok h
    obtain ⟨s', hset, h⟩ := bind_ok h
    obtain ⟨pdu, hpdu, -⟩ := bind_ok hset
    have hlt := (modifyAt_ok hpdu).1
    rw [out_length, length_out hle] at hlt
    cases (setByte_out hlt value).symm.trans hset
    have hrest := ih (by rw [length_append]; exact hlt) h
    rw [length_append, length_singleton] at hrest
    omega

end Writing

/-- The bytes of the new layout in front of the bearer data. -/
def uimHead (uServicecategory : Nat) (m : CdmaSmsMessage) : List UInt8 :=
  [0, 0, 0, 0] ++ [0, 0] ++ teleserviceBytes m.uTeleserviceId
    ++ [0, 0, 0, UInt8.ofNat uServicecategory]
    ++ [UInt8.ofNat m.sAddress.digitMode, UInt8.ofNat m.sAddress.numberMode,
      UInt8.ofNat m.sAddress.numberType, UInt8.ofNat m.sAddress.numberPlan]
    ++ [m.sAddress.numberOfDigits]
      ++ (m.sAddress.digits.drop 0).take m.sAddress.numberOfDigits.toNat
    ++ [0, 0, 0, 0, 0, 0, 0] ++ [0, 0, 0, UInt8.ofNat m.uBearerDataLen]

def uimBytes (uServicecategory : Nat) (m : CdmaSmsMessage) : List UInt8 :=
  uimHead uServicecategory m ++ (m.aBearerData.drop 0).take m.uBearerDataLen

/-- The number of bytes of the new layout. -/
def uimLength (m : CdmaSmsMessage) : Nat := 28 + m.sAddress.numberOfDigits.toNat + m.uBearerDataLen

section Encode

variable {m : CdmaSmsMessage}

/-- What the arrays of a message hold. -/
structure Filled (m : CdmaSmsMessage) : Prop where
  sized : Sized m
  digits_le : m.sAddress.numberOfDigits.toNat ≤ 36
  bearer_le : m.uBearerDataLen ≤ 255

theorem length_take_drop_zero {xs : List UInt8} {n : Nat} (h : n ≤ xs.length) :
    ((xs.drop 0).take n).length = n := by
  rw [drop_zero, length_take_of_le h]

/-- The digits and the bearer data are inside their arrays. -/
theorem Filled.inside (hm : Filled m) : m.sAddress.numberOfDigits.toNat ≤ m.sAddress.digits.length ∧
    m.uBearerDataLen ≤ m.aBearerData.length := by
  rw [hm.sized.digits, hm.sized.bearer]
  exact ⟨hm.digits_le, hm.bearer_le⟩

theorem length_uimHead (hm : Filled m) (category : Nat) :
    (uimHead category m).length = 28 + m.sAddress.numberOfDigits.toNat := by
  simp only [uimHead, teleserviceBytes, length_append, length_cons, length_nil,
    length_take_drop_zero hm.inside.1]
  omega

theorem length_uimBytes (hm : Filled m) (category : Nat) :
    (uimBytes category m).length = uimLength m := by
  rw [uimBytes, length_append, length_uimHead hm, length_take_drop_zero hm.inside.2, uimLength]

/-- The bearer data are copied behind the other bytes, which fit. -/
theorem encodeUimBytes_copy (hm : Filled m) (category : Nat) :
    encodeUimBytes category m
      = copyBytes .bearerData m.aBearerData m.uBearerDataLen 0 (out (uimHead category m)) := by
  have hstart : (⟨replicate 255 0, 0⟩ : Out) = out [] := rfl
  have hdigits : 0 + m.sAddress.numberOfDigits.toNat ≤ m.sAddress.digits.length := by
    rw [Nat.zero_add]
    exact hm.inside.1
  have hle := hm.digits_le
  rw [encodeUimBytes, hstart, putBytes_out, ok_bind, putBytes_out, ok_bind,
    putTeleservice_out, ok_bind, putBytes_out, ok_bind, putBytes_out, ok_bind, setByte_out, ok_bind,
    copyBytes_out hdigits, ok_bind, putBytes_out, ok_bind, putBytes_out, ok_bind]
  · rfl
  -- each part ends before the end of the last one
  all_goals
    simp only [teleserviceBytes, length_append, length_cons, length_nil,
      length_take_drop_zero hm.inside.1]
    omega

theorem encodeUimBytes_eq (hm : Filled m) (hfits : uimLength m ≤ 255) (category : Nat) :
    encodeUimBytes category m = .ok (out (uimBytes category m)) := by
  rw [encodeUimBytes_copy hm]
  refine copyBytes_out ?_ ?_
  · rw [Nat.zero_add]
    exact hm.inside.2
  · rw [length_uimHead hm]
    exact hfits

/-- The encoder writes no more than its 255 bytes. -/
theorem uimLength_le {text : Line} (hm : Filled m) {category : Nat}
    (h : encodeUimPduFromRilSmsStruc category m = .ok text) : uimLength m ≤ 255 := by
  have hle := hm.digits_le
  obtain ⟨s, hbytes, -⟩ := bind_ok h
  rw [encodeUimBytes_copy hm] at hbytes
  have hinside := copyBytes_inside (by rw [length_uimHead hm]; omega) hbytes
  rwa [length_uimHead hm] at hinside

/-- The text of the new layout. -/
theorem encodeUim_eq (hm : Filled m) (hfits : uimLength m ≤ 255) (category : Nat) :
    encodeUimPduFromRilSmsStruc category m = .ok (C2k.convertAscii (uimBytes category m)) := by
  have hlength : (uimBytes category m).length ≤ 255 := by
    rw [length_uimBytes hm]
    exact hfits
  have hpdu := length_out hlength
  have htake : (out (uimBytes category m)).pdu.take (uimBytes category m).length
      = uimBytes category m :=
    take_left
  obtain ⟨strPdu, hconvert, htext⟩ := @convertAscii_eq (out (uimBytes category m)).pdu
    (uimBytes category m).length (by omega) hpdu
  rw [htake] at htext
  rw [encodeUimPduFromRilSmsStruc, encodeUimBytes_eq hm hfits, ok_bind, out_length,
    hconvert, ok_bind]
  exact congrArg Except.ok htext

end Encode

/-! ## The decoded message -/

section Decoded

variable {m : CdmaSmsMessage} {t : Tlv} {ts : List Tlv}

theorem extractAddress_count (value : List UInt8) (addr : CdmaSmsAddress) :
    (C2k.rilCdmaSmsExtractAddress value addr).numberOfDigits
      = C2k.getuint8 value (digitsPlace value).1 8 := by
  obtain ⟨hplace, -⟩ := extractModes_place value addr
  rw [C2k.rilCdmaSmsExtractAddress, ← hplace]
  generalize C2k.extractModes value addr = modes
  obtain ⟨address, startBit, size⟩ := modes
  simp only
  by_cases hmode : address.digitMode = 0
  · rw [if_pos hmode]
  · rw [if_neg hmode]

/-- No parameter overfills the message. -/
theorem Filled.step (hm : Filled m) (h : Fits t) : Filled (paramStep m t) := by
  have hsized := (h.run hm.sized []).2
  rw [paramStep] at hsized ⊢
  obtain htag | htag | htag | htag | ⟨htele, haddr, hsub, hdata⟩ := param_cases t.tag
  · rw [htag, C2k.processParam, if_pos rfl] at hsized ⊢
    by_cases hlen : t.value.length = 2
    · rw [if_neg (not_not_intro hlen)] at hsized ⊢
      exact ⟨hsized, hm.digits_le, hm.bearer_le⟩
    · rw [if_pos hlen]
      exact hm
  · rw [processParam_address htag] at hsized ⊢
    refine ⟨hsized, ?_, hm.bearer_le⟩
    rw [extractAddress_count]
    exact (h.address htag).le
  · rw [processParam_subaddress htag] at hsized ⊢
    exact ⟨hsized, hm.digits_le, hm.bearer_le⟩
  · rw [processParam_bearer htag] at hsized ⊢
    exact ⟨hsized, hm.digits_le, Nat.le_of_lt_succ t.short⟩
  · rw [(param_ignored htele haddr hsub hdata).1]
    exact hm

theorem Filled.fold (hm : Filled m) (hfits : ∀ t ∈ ts, Fits t) : Filled (ts.foldl paramStep m) := by
  induction ts generalizing m with
  | nil => exact hm
  | cons t ts ih =>
    exact ih (hm.step (hfits t mem_cons_self)) fun u hu => hfits u (mem_cons_of_mem _ hu)

theorem emptySms_filled : Filled emptySms := ⟨emptySms_sized, Nat.zero_le 36, Nat.zero_le 255⟩

end Decoded

/-! ## The record -/

/-- A record of 255 bytes. -/
structure UimRecord where
  status : UInt8
  msgType : UInt8
  params : List Tlv
  padding : List UInt8
  fits : ∀ t ∈ params, Fits t
  length_eq : 2 + (msgType :: tlvBytes params).length + padding.length = 255

namespace UimRecord

def pdu (r : UimRecord) : List UInt8 := r.msgType :: tlvBytes r.params

def bytes (r : UimRecord) : List UInt8 :=
  r.status :: UInt8.ofNat r.pdu.length :: (r.pdu ++ r.padding)

/-- The message of the record. -/
def message (r : UimRecord) : CdmaSmsMessage := r.params.foldl paramStep emptySms

theorem message_filled (r : UimRecord) : Filled r.message := emptySms_filled.fold r.fits

/-- The decoder reads the message of the record. -/
theorem process_eq (r : UimRecord) : processCdmaIncomingSms r.pdu emptySms = .ok r.message := by
  have hlength := r.length_eq
  exact (process_fold r.fits emptySms_sized r.msgType (by omega)).1

end UimRecord

section Text

variable {r : UimRecord} {resp : Line}

theorem convertNum_hexDigit {c : UInt8} {digit : Nat} (h : hexDigit c = some digit) :
    convertNum c = UInt8.ofNat digit := by
  have hall : ∀ n : Fin 256, ∀ d ∈ hexDigit (UInt8.ofFin n), convertNum (UInt8.ofFin n)
      = UInt8.ofNat d := by
    decide +kernel
  exact hall c.toFin digit h

/-- Two digits as the code for a length reads them. -/
theorem convertNum_pair {hi lo : UInt8} {high low : Nat} (hhi : hexDigit hi = some high)
    (hlo : hexDigit lo = some low) : (convertNum lo).toNat + (convertNum hi).toNat * 16
      = (UInt8.ofNat (high * 16 + low)).toNat := by
  have hhigh := hexDigit_lt hhi
  have hlow := hexDigit_lt hlo
  have hnat : ∀ {n : Nat}, n < 256 → (UInt8.ofNat n).toNat = n :=
    fun hn => UInt8.toNat_ofNat_of_lt hn
  rw [convertNum_hexDigit hhi, convertNum_hexDigit hlo, hnat (by omega), hnat (by omega),
    hnat (by omega)]
  omega

/-- The bytes of a hex text, with digits in either case. -/
theorem convertPairs_hexOctets {text : Line} {bytes : List UInt8}
    (h : hexOctets text = some bytes) :
    convertPairs text = bytes := by
  induction bytes generalizing text with
  | nil =>
    obtain rfl := hexOctets_nil h
    rfl
  | cons b bytes ih =>
    obtain ⟨hi, lo, rest, high, low, rfl, hhi, hlo, rfl, hrest⟩ := hexOctets_cons h
    rw [convertPairs, ih hrest, convertNum_hexDigit hhi, convertNum_hexDigit hlo,
      shiftLeft_or_digit hhi hlo]

theorem convertByte_hexOctets {text : Line} {bytes : List UInt8} (h : hexOctets text = some bytes) :
    convertByte text (replicate (text.length / 2) 0) (text.length / 2) = bytes := by
  rw [convertByte, if_neg (not_not_intro rfl), convertPairs_hexOctets h, drop_replicate,
    Nat.sub_self]
  exact append_nil bytes

/-- What the text of a record starts with. -/
theorem record_text (h : hexOctets resp = some r.bytes) :
    resp.length = 510 ∧
      (convertNum (resp.getD 3 0)).toNat + (convertNum (resp.getD 2 0)).toNat * 16 = r.pdu.length ∧
      hexOctets ((resp.drop 4).take (r.pdu.length * 2)) = some r.pdu := by
  have hsum : 2 + r.pdu.length + r.padding.length = 255 := r.length_eq
  have hlength := (pduArray_eq h).2
  have hbytes : r.bytes.length = 255 := by
    rw [UimRecord.bytes, length_cons, length_cons, length_append]
    omega
  rw [hbytes] at hlength
  obtain ⟨c0, c1, rest, -, -, rfl, -, -, -, hrest⟩ := hexOctets_cons h
  obtain ⟨c2, c3, rest, high, low, rfl, hhigh, hlow, hlen, hrest⟩ := hexOctets_cons hrest
  refine ⟨hlength, ?_, ?_⟩
  · refine (convertNum_pair hhigh hlow).trans ?_
    rw [← hlen]
    exact UInt8.toNat_ofNat_of_lt' (by show r.pdu.length < 256; omega)
  · have htake := (hexOctets_take_drop hrest r.pdu.length).1
    rw [take_left, Nat.mul_comm] at htake
    exact htake

/-- The text with the new length, and `f` behind it. -/
def cleared (resp : Line) (n : Nat) : Line :=
  store (resp.take 2 ++ replicate (resp.length - 2) 102) 2 (strncpy (hexNumber n) 2)

theorem length_strncpy (src : Line) (n : Nat) : (strncpy src n).length = n := by
  rw [strncpy, length_take, length_append, length_replicate]
  omega

theorem length_cleared (hresp : resp.length = 510) (n : Nat) :
    2 + (strncpy (hexNumber n) 2).length
        ≤ (resp.take 2 ++ replicate (resp.length - 2) 102).length ∧
      (cleared resp n).length = 510 := by
  have hlength : (resp.take 2 ++ replicate (resp.length - 2) 102).length = 510 := by
    rw [length_append, length_take, length_replicate]
    omega
  have hroom : 2 + (strncpy (hexNumber n) 2).length
      ≤ (resp.take 2 ++ replicate (resp.length - 2) 102).length := by
    rw [length_strncpy, hlength]
    omega
  exact ⟨hroom, (length_store hroom).trans hlength⟩

/-- A record that is not skipped. -/
theorem encodeUimPdu_message (h : hexOctets resp = some r.bytes)
    (hstatus : resp.getD 1 0 &&& 1 ≠ 0) : encodeUimPdu resp = (do
      let sPdu ← encodeUimPduFromRilSmsStruc 0 r.message
      let text ← storeAt .simResponse (resp.take 2 ++ replicate (resp.length - 2) 102) 2
        (strncpy (hexNumber (sPdu.length / 2)) 2)
      storeAt .simResponse text 4 (strncpy sPdu sPdu.length)) := by
  obtain ⟨-, hlen, hpdu⟩ := record_text h
  have hpos : r.pdu.length ≠ 0 := Nat.succ_ne_zero _
  rw [encodeUimPdu]
  simp only [hlen]
  rw [if_neg (not_or.mpr ⟨hpos, hstatus⟩), convertByte_hexOctets hpdu, r.process_eq, ok_bind]

theorem encodeUimPdu_run (h : hexOctets resp = some r.bytes) (hstatus : resp.getD 1 0 &&& 1 ≠ 0)
    (hfits : uimLength r.message ≤ 255) :
    encodeUimPdu resp = storeAt .simResponse (cleared resp (uimLength r.message)) 4
      (C2k.convertAscii (uimBytes 0 r.message)) := by
  have hresp := (record_text h).1
  have hnew : (C2k.convertAscii (uimBytes 0 r.message)).length = 2 * uimLength r.message := by
    rw [length_convertAscii, length_uimBytes r.message_filled]
  have hhalf : 2 * uimLength r.message / 2 = uimLength r.message := by omega
  have hcopy : strncpy (C2k.convertAscii (uimBytes 0 r.message)) (2 * uimLength r.message)
      = C2k.convertAscii (uimBytes 0 r.message) := by
    rw [strncpy, ← hnew, take_left]
  rw [encodeUimPdu_message h hstatus, encodeUim_eq r.message_filled hfits, ok_bind]
  simp only [hnew, hhalf, hcopy]
  rw [storeAt_store (length_cleared hresp _).1, ok_bind]
  rfl

/-- One byte more is written over the NUL, or outside of the buffer of the encoder. -/
theorem uimLength_of_encodeUimPdu (h : hexOctets resp = some r.bytes)
    (hstatus : resp.getD 1 0 &&& 1 ≠ 0) {resp' : Line} (hok : encodeUimPdu resp = .ok resp') :
    uimLength r.message ≤ 253 := by
  have hencode := hok
  rw [encodeUimPdu_message h hstatus] at hencode
  obtain ⟨sPdu, hencode, -⟩ := bind_ok hencode
  rw [encodeUimPdu_run h hstatus (uimLength_le r.message_filled hencode)] at hok
  have hroom := storeAt_ok hok
  rw [length_convertAscii, length_uimBytes r.message_filled,
    (length_cleared (record_text h).1 _).2] at hroom
  omega

theorem mem_store {xs ys : List UInt8} {offset : Nat} {c : UInt8} (h : c ∈ store xs offset ys) :
    c ∈ xs ∨ c ∈ ys := by
  obtain h | h := mem_append.mp h
  · obtain h | h := mem_append.mp h
    · exact .inl (mem_of_mem_take h)
    · exact .inr h
  · exact .inl (mem_of_mem_drop h)

/-- The digits of a length of two digits. -/
theorem hexNumber_chars {n : Nat} (hlow : 16 ≤ n) (hhigh : n < 256) :
    ∀ c ∈ strncpy (hexNumber n) 2, c ≠ 0 := by
  have hall : ∀ k : Fin 16, convertChar (UInt8.ofNat k) ≠ 0 := by decide
  intro c hc
  rw [hexNumber, if_neg (by omega)] at hc
  obtain rfl | hc := mem_cons.mp hc
  · exact hall ⟨n / 16, by omega⟩
  · obtain rfl := mem_singleton.mp hc
    exact hall ⟨n % 16, by omega⟩

theorem convertAscii_chars (bytes : List UInt8) : ∀ c ∈ C2k.convertAscii bytes, c ≠ 0 := by
  intro c hc
  obtain ⟨b, -, hc⟩ := mem_flatMap.mp hc
  obtain rfl | hc := mem_cons.mp hc
  · exact (convertChar_ne_zero b).1
  · obtain rfl := mem_singleton.mp hc
    exact (convertChar_ne_zero b).2

/-- A hex text has no NUL inside. -/
theorem hexText_chars {bytes : List UInt8} (h : hexOctets resp = some bytes) :
    ∀ c ∈ resp, c ≠ 0 := by
  rintro c hc rfl
  have hsome := hexDigit_of_mem h 0 hc
  cases hsome

end Text

/-- **The text is encoded again in place** exactly if the record is skipped or the
new bytes fit. -/
theorem uim_record_in_place (r : UimRecord) (resp : Line) (h : hexOctets resp = some r.bytes) :
    (∃ resp', encodeUimPdu resp = .ok resp' ∧ resp'.length = resp.length ∧ (0 : UInt8) ∉ resp') ↔
      (resp.getD 1 0 &&& 1 ≠ 0 → uimLength r.message ≤ 253) := by
  constructor
  · rintro ⟨resp', hok, -, -⟩ hstatus
    exact uimLength_of_encodeUimPdu h hstatus hok
  intro hfits
  obtain ⟨hresp, hlen, hpdu⟩ := record_text h
  by_cases hstatus : resp.getD 1 0 &&& 1 = 0
  · refine ⟨resp, ?_, rfl, fun hc => hexText_chars h 0 hc rfl⟩
    rw [encodeUimPdu]
    exact if_pos (.inr hstatus)
  · have hle := hfits hstatus
    obtain ⟨-, hcleared⟩ := @length_cleared resp hresp (uimLength r.message)
    have hroom : 4 + (C2k.convertAscii (uimBytes 0 r.message)).length
        ≤ (cleared resp (uimLength r.message)).length := by
      rw [length_convertAscii, length_uimBytes r.message_filled, hcleared]
      omega
    refine ⟨_, (encodeUimPdu_run h hstatus (by omega)).trans (storeAt_store hroom), ?_, ?_⟩
    · rw [length_store hroom, hcleared, hresp]
    · intro hzero
      obtain hzero | hzero := mem_store hzero
      · obtain hzero | hzero := mem_store hzero
        · obtain hzero | hzero := mem_append.mp hzero
          · exact hexText_chars h 0 (mem_of_mem_take hzero) rfl
          · cases eq_of_mem_replicate hzero
        · have hlow : 28 ≤ uimLength r.message := by
            rw [uimLength]
            omega
          exact hexNumber_chars (by omega) (by omega) 0 hzero rfl
      · exact convertAscii_chars _ 0 hzero rfl

/-! ## Records with bearer data only -/

section Sample

/-- `n` bytes of bearer data. -/
def bearerParam (n : Nat) : Tlv := Tlv.of 8 (replicate n 0xAB)

theorem length_bearerParam {n : Nat} (hn : n ≤ 250) : (bearerParam n).value.length = n := by
  show ((replicate n (0xAB : UInt8)).take 255).length = n
  rw [length_take, length_replicate]
  omega

theorem bearerParam_fits (n : Nat) : ∀ t ∈ [bearerParam n], Fits t := by
  intro t ht
  rw [mem_singleton.mp ht]
  apply fits_of_ne
  · simp [bearerParam, Tlv.of]
  · simp [bearerParam, Tlv.of]

theorem length_bearerRecord {n : Nat} (hn : n ≤ 250) :
    2 + ((0 : UInt8) :: tlvBytes [bearerParam n]).length +
      (replicate (250 - n) (0xFF : UInt8)).length
      = 255 := by
  rw [length_cons, length_tlvBytes_cons, length_bearerParam hn, length_replicate]
  show 2 + (n + 2 + 0 + 1) + (250 - n) = 255
  omega

/-- A record with status 1. -/
def bearerRecord (n : Nat) (hn : n ≤ 250) : UimRecord where
  status := 1
  msgType := 0
  params := [bearerParam n]
  padding := replicate (250 - n) 0xFF
  fits := bearerParam_fits n
  length_eq := length_bearerRecord hn

theorem uimLength_bearerRecord {n : Nat} (hn : n ≤ 250) :
    uimLength (bearerRecord n hn).message = 28 + n := by
  have hmessage : (bearerRecord n hn).message = _ := processParam_bearer (.inr rfl)
  rw [uimLength, hmessage, length_bearerParam hn]
  rfl

theorem hexOctets_convertAscii (bytes : List UInt8) :
    hexOctets (C2k.convertAscii bytes) = some bytes := by
  have hdigits : ∀ n : Fin 256,
      hexDigit (convertChar ((0xf0 &&& UInt8.ofFin n) >>> 4)) = some (n.val / 16) ∧
        hexDigit (convertChar (0x0f &&& UInt8.ofFin n)) = some (n.val % 16) := by
    decide +kernel
  induction bytes with
  | nil => rfl
  | cons b bytes ih =>
    obtain ⟨hhigh, hlow⟩ := hdigits b.toFin
    have hbyte : UInt8.ofNat (b.toNat / 16 * 16 + b.toNat % 16) = b := by
      rw [Nat.mul_comm, Nat.div_add_mod, UInt8.ofNat_toNat]
    refine (hexOctets_pair hhigh hlow ih).trans ?_
    exact congrArg (fun c => some (c :: bytes)) hbyte

end Sample

theorem uim_record_in_place_sample :
    ∃ resp', encodeUimPdu (C2k.convertAscii (bearerRecord 225 (by decide)).bytes) = .ok resp' ∧
      resp'.length = (C2k.convertAscii (bearerRecord 225 (by decide)).bytes).length ∧
        (0 : UInt8) ∉ resp' :=
  (uim_record_in_place (bearerRecord 225 (by decide)) _ (hexOctets_convertAscii _)).mpr
    fun _ => Nat.le_of_eq (uimLength_bearerRecord _)

/-- With 226 bytes of bearer data the new record does not fit. -/
theorem uim_record_overflows :
    ¬ ∀ (r : UimRecord) (resp : Line), hexOctets resp = some r.bytes →
      ∃ resp', encodeUimPdu resp = .ok resp' ∧ resp'.length = resp.length ∧
        (0 : UInt8) ∉ resp' := by
  intro hall
  have htext := hexOctets_convertAscii (bearerRecord 226 (by decide)).bytes
  have hstatus : (C2k.convertAscii (bearerRecord 226 (by decide)).bytes).getD 1 0 &&& 1 ≠ 0 := by
    show convertChar (0x0f &&& 1) &&& 1 ≠ 0
    decide
  have hlength := uimLength_bearerRecord (show 226 ≤ 250 by decide)
  obtain ⟨resp', hrun, -, -⟩ := hall _ _ htext
  have hle := uimLength_of_encodeUimPdu htext hstatus hrun
  omega

end Arale.C2k.Checked
