import Mathlib.Algebra.Order.Floor.Div
import Arale.Ril.SmsAck

/-!
# The checks of SMS PDUs

A PDU is handed to and from the modem as hex digits: the address of the service
centre with its length, the first octet of the TPDU, the address of the other
party with its length in semi-octets, PID, DCS, and the user data behind its
length. `rild_sms_deliver_pdu_check` and `rild_sms_submit_pdu_check` turn the
digits into `pdu_array` and walk through it. Every offset depends on the two
address lengths, and the unit of the last length on the DCS.

Mirroring notes:
- A string is the list of its characters without the NUL, so `strlen` is its
  length and `rild_sms_hexCharToDecInt` ends at `length` characters.
- Two characters that are not both digits give an entry of `-1`.
- Every read of `pdu_array` is a `readPdu`, which fails outside.
- `off` is an `int` in the check of a received PDU and an `unsigned char` in the
  other. The length `rild_sms_checkReceivedPDU` is given is only logged.

> `deliver_pdu_check_exact`: a received PDU is accepted exactly if its user data
> has the length its UDL and DCS say, and at most 140 octets.
> `pdu_reads_inside`: reads stay inside exactly if the UDL octet, as the address
> lengths place it, does, or a field in front of it that is inside is refused.

Nothing compares a short PDU with its length fields before they are followed:
`pdu_reads_outside`.
-/

namespace Arale.Ril.Pdu

open List
open Arale.At (Line bytes)

/-! ## The array -/

/-- What `rild_sms_hexCharToDecInt` returns. -/
def decInt : Option Nat → Int
  | some value => value
  | none => -1

/-- `pdu_array` -/
def pduArray (pdu : Line) : List Int :=
  (List.range (pdu.length / 2)).map fun i => decInt (hexCharToDecInt (pdu.drop (2 * i)) 2)

/-- A read outside of `pdu_array`. -/
structure PduFault where
  index : Int
  deriving DecidableEq, Repr

/-- `pdu_array[off]` -/
def readPdu (array : List Int) (off : Int) : Except PduFault Int :=
  if off < 0 then .error ⟨off⟩
  else
    match array[off.toNat]? with
    | some value => .ok value
    | none => .error ⟨off⟩

/-- `value & mask`, for a mask of eight bits. -/
def bits (value : Int) (mask : Nat) : Nat := (value % 256).toNat &&& mask

/-! ## The data coding scheme -/

/-- `SMS_ENCODING_ENUM` -/
inductive SmsEncoding where
  | bit7 | bit8 | bit16 | unknown
  deriving DecidableEq, Repr

def SmsEncoding.ofValue : Nat → SmsEncoding
  | 0 => .bit7
  | 1 => .bit8
  | 2 => .bit16
  | _ => .unknown

/-- `SMS_MESSAGE_CLASS_ENUM` -/
inductive SmsMessageClass where
  | class0 | class1 | class2 | class3 | unspecified
  deriving DecidableEq, Repr

def SmsMessageClass.ofValue : Nat → SmsMessageClass
  | 0 => .class0
  | 1 => .class1
  | 2 => .class2
  | 3 => .class3
  | _ => .unspecified

structure DecodedDcs where
  alphabetType : SmsEncoding
  msgClass : SmsMessageClass
  isCompress : Bool
  deriving DecidableEq, Repr

/-- The cases of `rild_sms_decode_dcs` over the coding group. -/
def decodeCodingGroup (dcs : Int) (codingGroup : Nat) : DecodedDcs :=
  if codingGroup = 0x0f then
    if bits dcs 0x08 = 0x08 then ⟨.unknown, .unspecified, false⟩
    else ⟨.ofValue (bits dcs 0x04 >>> 2), .ofValue (bits dcs 0x03), false⟩
  else if codingGroup ||| 0x07 = 0x07 then
    ⟨.ofValue (bits (dcs >>> (2 : Nat)) 0x03),
      if bits dcs 0x10 = 0x10 then .ofValue (bits dcs 0x03) else .unspecified,
      (codingGroup &&& 0x02) >>> 1 == 1⟩
  else if codingGroup &&& 0x0c = 0x08 then ⟨.bit7, .unspecified, false⟩
  -- message waiting, stored as UCS2
  else if codingGroup &&& 0x0f = 0x0e then ⟨.bit16, .unspecified, false⟩
  else ⟨.bit7, .unspecified, false⟩

/-- `rild_sms_decode_dcs`; what is reserved is read as the default alphabet. -/
def decodeDcs (dcs : Int) : DecodedDcs :=
  if dcs = 0 then ⟨.bit7, .unspecified, false⟩
  else if dcs = 0x84 then ⟨.bit16, .unspecified, false⟩
  else
    let decoded := decodeCodingGroup dcs ((dcs >>> (4 : Nat)) % 256).toNat
    if decoded.alphabetType = .unknown then { decoded with alphabetType := .bit7 } else decoded

/-- `rild_sms_is_len_in8bit` -/
def isLenIn8bit (dcs : Int) : Bool :=
  let decoded := decodeDcs dcs
  decoded.isCompress || decoded.alphabetType == .bit8 || decoded.alphabetType == .bit16

/-- `rild_sms_msg_len_in_octet` -/
def msgLenInOctet (dcs : Int) (len : Nat) : Nat :=
  if isLenIn8bit dcs then len else (len * 7 + 7) / 8

/-! ## The two checks -/

def maxSmscLength : Nat := 11
def maxTpduLength : Nat := 164

def tpduMaxTpduSize : Nat := 175
def tpduMaxAddrLen : Int := 11
def tpduOneMsgOctet : Nat := 140

def tpduMtiBits : Nat := 0x03
def tpduMtiDeliver : Nat := 0x00
def tpduMtiSubmit : Nat := 0x01
def tpduMtiUnspecified : Nat := 0x02
def tpduMtiReserved : Nat := 0x03

def tpduVpfBits : Nat := 0x18
def tpduVpfNotPresent : Nat := 0x00
def tpduVpfRelative : Nat := 0x02

def tpduPidDefaultPid : Int := 0x00
def tpduPidCheck : Nat := 0xC0
def tpduPidReserved : Nat := 0x80

def tpduDcsCoding1 : Nat := 0xc0
def tpduDcsCoding2 : Nat := 0xf0
def tpduDcsReserveBit : Nat := 0x08
def tpduDcsAlphabetCheck : Nat := 0x0c
def tpduDcsCompressCheck : Nat := 0x20

/-- The values of `TPDU_ERROR_CAUSE_ENUM` that the checks set. -/
inductive TpduErrorCause where
  | noError
  | msgLenExceeded
  deriving DecidableEq, Repr

/-- `rild_sms_fo_check` -/
def foCheck (fo : Int) : Bool :=
  if bits fo tpduMtiBits ≥ tpduMtiReserved then false
  else if bits fo tpduVpfBits >>> 3 ≠ tpduVpfNotPresent ∧
      bits fo tpduVpfBits >>> 3 ≠ tpduVpfRelative then false
  else true

/-- `rild_sms_pid_check` -/
def pidCheck (pid : Int) : Bool :=
  if pid ≠ tpduPidDefaultPid then
    !(bits pid tpduPidCheck == tpduPidCheck || bits pid tpduPidCheck == tpduPidReserved)
  else true

/-- `rild_sms_dcs_check` -/
def dcsCheck (dcs : Int) : Bool :=
  let codingGroup := bits dcs 0xf0
  if dcs = 0 then true
  else if bits dcs tpduDcsCoding2 = tpduDcsCoding2 then
    bits dcs tpduDcsReserveBit != tpduDcsReserveBit
  else if bits dcs tpduDcsCoding1 = 0x00 then
    !(bits dcs tpduDcsAlphabetCheck == tpduDcsAlphabetCheck
      || bits dcs tpduDcsCompressCheck == tpduDcsCompressCheck)
  else if codingGroup &&& 0xc0 = 0x80 then false
  else if codingGroup = 0xc0 ∨ codingGroup = 0xd0 ∨ codingGroup = 0xe0 then
    bits dcs 0x04 != 0x04
  else true

/-- The end of both checks: `udl` and `user_data_len` are of type
`unsigned char`. -/
def checkUserData (octets : Nat) (off dcs udl : Int) : Bool × TpduErrorCause :=
  let userDataLen := msgLenInOctet dcs (udl % 256).toNat % 256
  if userDataLen > tpduOneMsgOctet ∨ (userDataLen : Int) ≠ octets - off then
    (false, .msgLenExceeded)
  else (true, .noError)

/-- `rild_sms_deliver_pdu_check`, with `strlen(pdu)` for `pdu_len` -/
def deliverPduCheck (pdu : Line) : Except PduFault (Bool × TpduErrorCause) :=
  if pdu.length / 2 > tpduMaxTpduSize ∨ pdu.length = 0 then .ok (false, .msgLenExceeded)
  else do
    let sca ← readPdu (pduArray pdu) 0
    if sca > tpduMaxAddrLen then .ok (false, .noError)
    else do
      let off := 1 + sca
      let fo ← readPdu (pduArray pdu) off
      if bits fo tpduMtiBits ≠ tpduMtiDeliver ∧ bits fo tpduMtiBits ≠ tpduMtiUnspecified then
        .ok (false, .noError)
      else do
        let off := off + 1
        let oa ← readPdu (pduArray pdu) off
        if oa > (tpduMaxAddrLen - 1) * 2 then .ok (false, .noError)
        else do
          -- the digits, with the length and the type in front
          let off := if oa.tmod 2 > 0 then off + (1 + 1 + (oa + 1).tdiv 2)
            else off + (1 + 1 + oa.tdiv 2)
          -- the PID is skipped
          let off := off + 1
          let dcs ← readPdu (pduArray pdu) off
          let off := off + (1 + 7)
          let udl ← readPdu (pduArray pdu) off
          .ok (checkUserData (pdu.length / 2) (off + 1) dcs udl)

/-- A value of type `unsigned char`. -/
def uchar (value : Int) : Int := value % 256

/-- `rild_sms_submit_pdu_check`, with `strlen(pdu)` for `pdu_len` -/
def submitPduCheck (pdu : Line) : Except PduFault (Bool × TpduErrorCause) :=
  if pdu.length / 2 > tpduMaxTpduSize ∨ pdu.length = 0 then .ok (false, .msgLenExceeded)
  else do
    let sca ← readPdu (pduArray pdu) 0
    if sca > tpduMaxAddrLen then .ok (false, .noError)
    else do
      let off := uchar (1 + sca)
      let fo ← readPdu (pduArray pdu) off
      if bits fo tpduMtiBits ≠ tpduMtiSubmit then .ok (false, .noError)
      else if foCheck fo = false then .ok (false, .noError)
      else do
        -- the first octet and the message reference
        let off := uchar (off + 2)
        let da ← readPdu (pduArray pdu) off
        if da > (tpduMaxAddrLen - 1) * 2 then .ok (false, .noError)
        else do
          let off := uchar (off + (1 + 1 + (da + 1).tdiv 2))
          let pid ← readPdu (pduArray pdu) off
          if pidCheck pid = false then .ok (false, .noError)
          else do
            let off := uchar (off + 1)
            let dcs ← readPdu (pduArray pdu) off
            if dcsCheck dcs = false then .ok (false, .noError)
            else do
              let off := uchar (off + if bits fo tpduVpfBits >>> 3 = tpduVpfRelative then 2 else 1)
              let udl ← readPdu (pduArray pdu) off
              .ok (checkUserData (pdu.length / 2) (uchar (off + 1)) dcs udl)

/-- `rild_sms_packPDU`: the length of the TPDU and the PDU, or `-1` -/
def packPdu (smsc tpdu : Option Line) (check : Bool) : Except PduFault (Option (Nat × Line)) :=
  if smsc.any fun smsc =>
      smsc.length % 2 != 0 || smsc.length < 2 || smsc.length / 2 - 1 > maxSmscLength then .ok none
  else
    match tpdu with
    | none => .ok none
    | some tpdu =>
      if tpdu.length % 2 ≠ 0 then .ok none
      else if tpdu.length / 2 > maxTpduLength then .ok none
      else
        let pdu := smsc.getD (bytes "00") ++ tpdu
        if check then do
          let r ← submitPduCheck pdu
          .ok (if r.1 then some (tpdu.length / 2, pdu) else none)
        else .ok (some (tpdu.length / 2, pdu))

/-- `rild_sms_checkReceivedPDU` -/
def checkReceivedPdu (pdu : Line) (check : Bool) : Except PduFault Int :=
  if pdu.length < 2 then .ok (-1)
  else if hexCharToDecInt pdu 2 = none then .ok (-1)
  else if check then do
    let r ← deliverPduCheck pdu
    .ok (if r.1 then 0 else -1)
  else .ok 0

variable {pdu : Line} {off : Int}

/-! ## Entries -/

theorem pduArray_length (pdu : Line) : (pduArray pdu).length = pdu.length / 2 := by
  rw [pduArray, length_map, length_range]

theorem pduArray_cons (hi lo : UInt8) (pdu : Line) :
    pduArray (hi :: lo :: pdu) = decInt (hexCharToDecInt [hi, lo] 2) :: pduArray pdu := by
  have hlength : (hi :: lo :: pdu).length / 2 = pdu.length / 2 + 1 := by
    rw [length_cons, length_cons]
    omega
  rw [pduArray, hlength, range_succ_eq_map, map_cons, map_map]
  rfl

/-- An entry is at least the `-1` of what is no digit. -/
theorem pduArray_ge (pdu : Line) : ∀ value ∈ pduArray pdu, -1 ≤ value := by
  intro value hvalue
  obtain ⟨i, -, rfl⟩ := mem_map.mp hvalue
  unfold decInt
  split
  · omega
  · exact Int.le_refl _

/-- `pdu_array[off]`, or 0 outside. -/
def entry (array : List Int) (off : Int) : Int := (array[off.toNat]?).getD 0

/-- A read inside gives the entry. -/
theorem readPdu_entry {array : List Int} (hlow : 0 ≤ off)
    (hhigh : off < array.length) : readPdu array off = .ok (entry array off) := by
  have hlt : off.toNat < array.length := by omega
  unfold readPdu entry
  rw [if_neg (by omega), List.getElem?_eq_getElem hlt]
  rfl

theorem readPdu_outside {array : List Int} (h : ¬ (0 ≤ off ∧ off < array.length)) :
    readPdu array off = .error ⟨off⟩ := by
  unfold readPdu
  by_cases hneg : off < 0
  · rw [if_pos hneg]
  · rw [if_neg hneg, List.getElem?_eq_none (by omega)]

theorem entry_ge (pdu : Line) (off : Int) : -1 ≤ entry (pduArray pdu) off := by
  unfold entry
  cases hentry : (pduArray pdu)[off.toNat]? with
  | none => decide
  | some value => exact pduArray_ge pdu value (mem_of_getElem? hentry)

/-- Behind the end there is nothing that could be refused. -/
theorem entry_outside {array : List Int} (h : array.length ≤ off) : entry array off = 0 := by
  unfold entry
  rw [List.getElem?_eq_none (by omega)]
  rfl

/-! ## A received PDU -/

/-- The octets of a hex string, with digits in either case. -/
def hexOctets : Line → Option (List UInt8)
  | [] => some []
  | [_] => none
  | hi :: lo :: pdu =>
    match hexDigit hi, hexDigit lo, hexOctets pdu with
    | some high, some low, some octets => some (UInt8.ofNat (high * 16 + low) :: octets)
    | _, _, _ => none

/-- The fields of a received PDU. The length of the originating address counts
semi-octets. -/
structure DeliverPdu where
  smsc : List UInt8
  fo : UInt8
  oaLength : Nat
  oaType : UInt8
  oa : List UInt8
  pid : UInt8
  dcs : UInt8
  timestamp : List UInt8
  udl : UInt8
  userData : List UInt8
  smsc_le : smsc.length ≤ 11
  fo_mti : fo &&& 3 = 0 ∨ fo &&& 3 = 2
  oaLength_le : oaLength ≤ 20
  oa_length : oa.length = (oaLength + 1) / 2
  timestamp_length : timestamp.length = 7

def DeliverPdu.octets (p : DeliverPdu) : List UInt8 :=
  UInt8.ofNat p.smsc.length :: (p.smsc ++ p.fo :: UInt8.ofNat p.oaLength :: p.oaType ::
    (p.oa ++ p.pid :: p.dcs :: (p.timestamp ++ p.udl :: p.userData)))

/-- The octets of the user data: the UDL counts octets of compressed, 8-bit and
UCS2 data, and septets otherwise. -/
def DeliverPdu.userDataOctets (p : DeliverPdu) : Nat :=
  if (decodeDcs p.dcs.toNat).isCompress = true ∨ (decodeDcs p.dcs.toNat).alphabetType = .bit8 ∨
      (decodeDcs p.dcs.toNat).alphabetType = .bit16 then p.udl.toNat
  else 7 * p.udl.toNat ⌈/⌉ 8

theorem hexDigit_lt {c : UInt8} {digit : Nat} (h : hexDigit c = some digit) : digit < 16 := by
  have hall : ∀ n : Fin 256, ∀ d ∈ hexDigit (UInt8.ofFin n), d < 16 := by decide +kernel
  exact hall c.toFin digit h

/-- The byte with two digits. -/
theorem shiftLeft_or_digit {hi lo : UInt8} {high low : Nat} (hhi : hexDigit hi = some high)
    (hlo : hexDigit lo = some low) :
    UInt8.ofNat high <<< 4 ||| UInt8.ofNat low = UInt8.ofNat (high * 16 + low) := by
  have hall : ∀ high low : Fin 16, UInt8.ofNat high <<< 4 ||| UInt8.ofNat low
      = UInt8.ofNat (high * 16 + low) := by decide +kernel
  exact hall ⟨high, hexDigit_lt hhi⟩ ⟨low, hexDigit_lt hlo⟩

theorem hexCharToDecInt_digits {hi lo : UInt8} {high low : Nat} (hhi : hexDigit hi = some high)
    (hlo : hexDigit lo = some low) : hexCharToDecInt [hi, lo] 2 = some (high * 16 + low) := by
  simp [hexCharToDecInt, hhi, hlo]

/-- The array of a hex string are its octets. -/
theorem pduArray_eq {octets : List UInt8} (h : hexOctets pdu = some octets) :
    pduArray pdu = octets.map (fun octet => (octet.toNat : Int)) ∧
      pdu.length = 2 * octets.length := by
  induction pdu using hexOctets.induct generalizing octets with
  | case1 =>
    cases h
    exact ⟨rfl, rfl⟩
  | case2 c => cases h
  | case3 hi lo pdu high low rest hrest hlo hhi ih =>
    obtain ⟨harray, hlength⟩ := ih hrest
    rw [hexOctets, hhi, hlo, hrest] at h
    cases h
    have hoctet : (UInt8.ofNat (high * 16 + low)).toNat = high * 16 + low := by
      have hhigh := hexDigit_lt hhi
      have hlow := hexDigit_lt hlo
      exact UInt8.toNat_ofNat_of_lt (Nat.lt_of_le_of_lt (by omega : _ ≤ 255) (by decide))
    constructor
    · rw [pduArray_cons, hexCharToDecInt_digits hhi hlo, harray, map_cons, hoctet]
      rfl
    · rw [length_cons, length_cons, hlength, length_cons]
      omega
  | case4 hi lo pdu hnone =>
    rw [hexOctets] at h
    split at h
    · next high low rest hhi hlo hrest => exact absurd hrest (hnone high low rest hhi hlo)
    · cases h

theorem read_bind {α β : Type} {x : Except PduFault α} {value : α} (h : x = .ok value)
    (f : α → Except PduFault β) : (x >>= f) = f value := by
  rw [h]
  rfl

/-- Behind an address: its length octet, its type and its digits. -/
theorem addressEnd {length : Int} (h : -1 ≤ length) (off : Int) :
    (if length.tmod 2 > 0 then off + (1 + 1 + (length + 1).tdiv 2)
      else off + (1 + 1 + length.tdiv 2)) = off + (2 + (length + 1) / 2) := by
  by_cases hneg : length = -1
  · rw [hneg]
    rfl
  · have hpos : 0 ≤ length := by omega
    rw [Int.tmod_eq_emod_of_nonneg hpos, Int.tdiv_eq_ediv_of_nonneg hpos,
      Int.tdiv_eq_ediv_of_nonneg (Int.le_add_one hpos)]
    split <;> omega

theorem bits_octet (octet : UInt8) (mask : Nat) :
    bits (octet.toNat : Int) mask = octet.toNat &&& mask := by
  have hlt := octet.toNat_lt
  unfold bits
  congr 1
  omega

namespace DeliverPdu

variable (p : DeliverPdu)

theorem octets_length :
    p.octets.length = p.smsc.length + (p.oaLength + 1) / 2 + p.userData.length + 14 := by
  simp only [octets, length_cons, length_append, p.timestamp_length, p.oa_length]
  omega

/-- The array of the PDU. -/
def array : List Int := p.octets.map fun octet => (octet.toNat : Int)

variable {p} in
/-- The octet behind some others is read at their number. -/
theorem readPdu_behind (before : List UInt8) {after : List UInt8} {octet : UInt8}
    (h : p.octets = before ++ octet :: after) (hoff : off = before.length) :
    readPdu p.array off = .ok (octet.toNat : Int) := by
  have hread : p.array[off.toNat]? = some (octet.toNat : Int) := by
    rw [array, h, hoff]
    simp
  unfold readPdu
  rw [if_neg (by omega), hread]

theorem read_sca : readPdu p.array 0 = .ok (p.smsc.length : Int) := by
  have hvalue : (UInt8.ofNat p.smsc.length).toNat = p.smsc.length :=
    UInt8.toNat_ofNat_of_lt (Nat.lt_of_le_of_lt p.smsc_le (by decide))
  have hread := readPdu_behind (p := p) [] rfl (Eq.refl (0 : Int))
  rw [hvalue] at hread
  exact hread

theorem read_fo : readPdu p.array (1 + p.smsc.length) = .ok (p.fo.toNat : Int) := by
  refine readPdu_behind (UInt8.ofNat p.smsc.length :: p.smsc) rfl ?_
  rw [length_cons]
  omega

theorem read_oa : readPdu p.array (1 + p.smsc.length + 1) = .ok (p.oaLength : Int) := by
  have hvalue : (UInt8.ofNat p.oaLength).toNat = p.oaLength :=
    UInt8.toNat_ofNat_of_lt (Nat.lt_of_le_of_lt p.oaLength_le (by decide))
  have hsplit : p.octets = (UInt8.ofNat p.smsc.length :: p.smsc ++ [p.fo])
      ++ UInt8.ofNat p.oaLength :: p.oaType ::
        (p.oa ++ p.pid :: p.dcs :: (p.timestamp ++ p.udl :: p.userData)) := by
    simp only [octets, cons_append, append_assoc, nil_append]
  have hoff : (1 + p.smsc.length + 1 : Int)
      = (UInt8.ofNat p.smsc.length :: p.smsc ++ [p.fo]).length := by
    simp only [length_append, length_cons, length_nil]
    omega
  rw [readPdu_behind _ hsplit hoff, hvalue]

theorem read_dcs : readPdu p.array
    (1 + p.smsc.length + 1 + (2 + ((p.oaLength : Int) + 1) / 2) + 1) = .ok (p.dcs.toNat : Int) := by
  have hsplit : p.octets = (UInt8.ofNat p.smsc.length :: p.smsc ++ p.fo ::
      UInt8.ofNat p.oaLength :: p.oaType :: p.oa ++ [p.pid])
      ++ p.dcs :: (p.timestamp ++ p.udl :: p.userData) := by
    simp only [octets, cons_append, append_assoc, nil_append]
  refine readPdu_behind _ hsplit ?_
  simp only [length_append, length_cons, length_nil, p.oa_length]
  omega

theorem read_udl : readPdu p.array
    (1 + p.smsc.length + 1 + (2 + ((p.oaLength : Int) + 1) / 2) + 1 + (1 + 7))
      = .ok (p.udl.toNat : Int) := by
  have hsplit : p.octets = (UInt8.ofNat p.smsc.length :: p.smsc ++ p.fo ::
      UInt8.ofNat p.oaLength :: p.oaType :: p.oa ++ p.pid :: p.dcs :: p.timestamp)
      ++ p.udl :: p.userData := by
    simp only [octets, cons_append, append_assoc]
  refine readPdu_behind _ hsplit ?_
  simp only [length_append, length_cons, p.oa_length, p.timestamp_length]
  omega

theorem mti : ¬ (bits (p.fo.toNat : Int) tpduMtiBits ≠ tpduMtiDeliver ∧
    bits (p.fo.toNat : Int) tpduMtiBits ≠ tpduMtiUnspecified) := by
  rintro ⟨hdeliver, hunspecified⟩
  rw [bits_octet] at hdeliver hunspecified
  rcases p.fo_mti with hfo | hfo
  · exact hdeliver (congrArg UInt8.toNat hfo)
  · exact hunspecified (congrArg UInt8.toNat hfo)

/-- The walk through the fields ends at the user data. -/
theorem check_eq (hhex : hexOctets pdu = some p.octets)
    (hsize : p.octets.length ≤ tpduMaxTpduSize) :
    deliverPduCheck pdu = .ok (checkUserData p.octets.length
      (p.octets.length - p.userData.length) p.dcs.toNat p.udl.toNat) := by
  have harray : pduArray pdu = p.array := (pduArray_eq hhex).1
  have hlength := (pduArray_eq hhex).2
  have hoctets := p.octets_length
  have hsmsc := p.smsc_le
  have hoaLength := p.oaLength_le
  have hhalf : pdu.length / 2 = p.octets.length := by omega
  have hoff : (1 + p.smsc.length + 1 + (2 + ((p.oaLength : Int) + 1) / 2) + 1 + (1 + 7) + 1 : Int)
      = p.octets.length - p.userData.length := by
    omega
  unfold deliverPduCheck
  rw [harray, hhalf, if_neg (by omega), read_bind p.read_sca,
    if_neg (by unfold tpduMaxAddrLen; omega)]
  rw [read_bind p.read_fo, if_neg p.mti, read_bind p.read_oa,
    if_neg (by unfold tpduMaxAddrLen; omega), addressEnd (by omega), read_bind p.read_dcs,
    read_bind p.read_udl, hoff]

/-- The number of octets fits an `unsigned char`. -/
theorem msgLenInOctet_eq :
    msgLenInOctet p.dcs.toNat ((p.udl.toNat : Int) % 256).toNat % 256 = p.userDataOctets := by
  have hlt : p.udl.toNat < 256 := p.udl.toNat_lt
  have hudl : ((p.udl.toNat : Int) % 256).toNat = p.udl.toNat := by omega
  have hunit : isLenIn8bit p.dcs.toNat = true ↔ (decodeDcs p.dcs.toNat).isCompress = true ∨
      (decodeDcs p.dcs.toNat).alphabetType = .bit8 ∨
      (decodeDcs p.dcs.toNat).alphabetType = .bit16 := by
    simp [isLenIn8bit, or_assoc]
  rw [hudl]
  unfold msgLenInOctet userDataOctets
  by_cases h : isLenIn8bit p.dcs.toNat = true
  · rw [if_pos h, if_pos (hunit.mp h)]
    omega
  · have hceil : 7 * p.udl.toNat ⌈/⌉ 8 = (p.udl.toNat * 7 + 7) / 8 := by
      rw [Nat.ceilDiv_eq_add_pred_div, Nat.mul_comm]
      rfl
    rw [if_neg h, if_neg (fun hspec => h (hunit.mpr hspec)), hceil]
    exact Nat.mod_eq_of_lt (by omega)

end DeliverPdu

/-- **Received PDUs.** Whatever the lengths of the two addresses, the PID, the DCS
and the timestamp, the check of a PDU of at most 175 octets accepts it exactly if
the user data has at most 140 octets and as many as the UDL and the DCS say. -/
theorem deliver_pdu_check_exact (p : DeliverPdu) {pdu : Line} (hhex : hexOctets pdu = some p.octets)
    (hsize : p.octets.length ≤ tpduMaxTpduSize) :
    ∃ ok cause, deliverPduCheck pdu = .ok (ok, cause) ∧
      (ok = true ↔ p.userData.length ≤ 140 ∧ p.userData.length = p.userDataOctets) := by
  have hrest : (p.octets.length : Int) - (p.octets.length - p.userData.length)
      = p.userData.length := by
    omega
  rw [p.check_eq hhex hsize]
  unfold checkUserData
  dsimp only
  rw [p.msgLenInOctet_eq, hrest]
  unfold tpduOneMsgOctet
  split
  · next hbad =>
    refine ⟨false, _, rfl, ?_⟩
    constructor
    · intro hfalse
      cases hfalse
    · rintro ⟨hle, heq⟩
      omega
  · next hgood =>
    refine ⟨true, _, rfl, ?_⟩
    constructor
    · intro _
      omega
    · intro _
      rfl

/-- "Hi" in two septets, from a number of two digits. -/
def shortDeliver : DeliverPdu where
  smsc := []
  fo := 0x04
  oaLength := 2
  oaType := 0x81
  oa := [0x21]
  pid := 0
  dcs := 0
  timestamp := [0x51, 0x10, 0x11, 0x21, 0, 0, 0]
  udl := 2
  userData := [0xC8, 0x34]
  smsc_le := by decide
  fo_mti := by decide
  oaLength_le := by decide
  oa_length := by decide
  timestamp_length := by decide

theorem deliver_pdu_check_short :
    ∃ cause, deliverPduCheck (bytes "000402812100005110112100000002C834") = .ok (true, cause) := by
  obtain ⟨ok, cause, hcheck, hiff⟩ := @deliver_pdu_check_exact shortDeliver
    (bytes "000402812100005110112100000002C834") (by decide +kernel) (by decide)
  have hok : ok = true := hiff.mpr ⟨by decide, by decide +kernel⟩
  exact ⟨cause, hok ▸ hcheck⟩

/-! ## Reads stay inside -/

/-- The first octet of the TPDU, behind the address of the service centre. -/
def firstOctet (array : List Int) : Int := entry array (1 + entry array 0)

/-- Where the check of a received PDU looks for the UDL. -/
def deliverUdl (array : List Int) : Int :=
  let sca := entry array 0
  let oa := entry array (1 + sca + 1)
  1 + sca + 1 + (2 + (oa + 1) / 2) + 1 + (1 + 7)

/-- The UDL is in the PDU, or a field in front of it is refused: the length of an
address or the type of the message. -/
def DeliverInside (array : List Int) : Prop :=
  deliverUdl array < array.length ∨
    tpduMaxAddrLen < entry array 0 ∨
    (bits (firstOctet array) tpduMtiBits ≠ tpduMtiDeliver ∧
      bits (firstOctet array) tpduMtiBits ≠ tpduMtiUnspecified) ∨
    (tpduMaxAddrLen - 1) * 2 < entry array (1 + entry array 0 + 1)

/-- Where the check of a PDU to be sent looks for the PID. -/
def submitPid (array : List Int) : Int :=
  let sca := entry array 0
  let da := entry array (1 + sca + 2)
  1 + sca + 2 + (1 + 1 + (da + 1) / 2)

/-- And for the UDL, behind the DCS and a relative validity period. -/
def submitUdl (array : List Int) : Int :=
  submitPid array + 1 +
    if bits (firstOctet array) tpduVpfBits >>> 3 = tpduVpfRelative then 2 else 1

/-- The UDL is in the PDU, or a field in front of it that is in the PDU is
refused. Behind the end there are no addresses, PIDs and DCSs to refuse. -/
def SubmitInside (array : List Int) : Prop :=
  submitUdl array < array.length ∨
    tpduMaxAddrLen < entry array 0 ∨
    (1 + entry array 0 < array.length ∧
      (bits (firstOctet array) tpduMtiBits ≠ tpduMtiSubmit ∨ foCheck (firstOctet array) = false)) ∨
    (tpduMaxAddrLen - 1) * 2 < entry array (1 + entry array 0 + 2) ∨
    pidCheck (entry array (submitPid array)) = false ∨
    dcsCheck (entry array (submitPid array + 1)) = false

/-- The lengths that `rild_sms_packPDU` lets through. -/
def Packed (smsc : Option Line) (tpdu : Line) : Prop :=
  (∀ address ∈ smsc, address.length % 2 = 0 ∧ 2 ≤ address.length ∧
    address.length / 2 - 1 ≤ maxSmscLength) ∧
  tpdu.length % 2 = 0 ∧ tpdu.length / 2 ≤ maxTpduLength

/-- A check that may return here has a result if what it goes on with has one. -/
theorem return_ok {α : Type} {c : Prop} [Decidable c] {value : α} {x : Except PduFault α} :
    (∃ r, (if c then .ok value else x) = .ok r) ↔ (¬ c → ∃ r, x = .ok r) := by
  by_cases hc : c
  · rw [if_pos hc]
    exact ⟨fun _ hnot => absurd hc hnot, fun _ => ⟨value, rfl⟩⟩
  · rw [if_neg hc]
    exact ⟨fun h _ => h, fun h => h hc⟩

/-- And one that reads has a result if the read is inside, too. -/
theorem read_ok {α : Type} {array : List Int} {f : Int → Except PduFault α} :
    (∃ r, (readPdu array off >>= f) = .ok r) ↔
      (0 ≤ off ∧ off < array.length) ∧ ∃ r, f (entry array off) = .ok r := by
  by_cases hinside : 0 ≤ off ∧ off < array.length
  · rw [read_bind (readPdu_entry hinside.1 hinside.2)]
    exact ⟨fun h => ⟨hinside, h⟩, fun h => h.2⟩
  · rw [readPdu_outside hinside]
    constructor
    · rintro ⟨r, hr⟩
      cases hr
    · intro h
      exact absurd h.1 hinside

/-- A caller has a result if the check it calls has one. -/
theorem call_ok {α β : Type} {x : Except PduFault α} {f : α → β} :
    (∃ r, (x >>= fun a => .ok (f a)) = .ok r) ↔ ∃ r, x = .ok r := by
  cases x with
  | error fault =>
    constructor <;>
    · rintro ⟨r, hr⟩
      cases hr
  | ok a => exact ⟨fun _ => ⟨a, rfl⟩, fun _ => ⟨f a, rfl⟩⟩

/-- Something to refuse is inside. -/
theorem inside_of_refused {array : List Int} {check : Int → Bool} (hzero : check 0 = true)
    (h : check (entry array off) = false) : off < array.length := by
  refine Int.not_le.mp fun hle => ?_
  rw [entry_outside hle, hzero] at h
  cases h

/-- The first entry is the length `rild_sms_checkReceivedPDU` looks at. -/
theorem entry_zero (h : 2 ≤ pdu.length) :
    entry (pduArray pdu) 0 = decInt (hexCharToDecInt pdu 2) := by
  cases pdu with
  | nil => cases h
  | cons hi pdu =>
    cases pdu with
    | nil => exact absurd h (by simp)
    | cons lo pdu =>
      rw [pduArray_cons]
      rfl

/-- The UDL octet is the last one that is read, if no field is refused before. -/
theorem deliverPduCheck_ok_iff (hlow : 2 ≤ pdu.length) :
    (∃ r, deliverPduCheck pdu = .ok r) ↔ DeliverInside (pduArray pdu) := by
  have hlength := pduArray_length pdu
  have hsca := entry_ge pdu 0
  have hoa := entry_ge pdu (1 + entry (pduArray pdu) 0 + 1)
  have hoaEnd := @entry_outside (1 + entry (pduArray pdu) 0 + 1) (pduArray pdu)
  unfold deliverPduCheck DeliverInside deliverUdl firstOctet
  simp only [return_ok, read_ok, addressEnd hoa, Except.ok.injEq, exists_eq', and_true]
  -- a type that is refused is inside
  have hfo : (
      bits (entry (pduArray pdu) (1 + entry (pduArray pdu) 0)) tpduMtiBits ≠ tpduMtiDeliver ∧
      bits (entry (pduArray pdu) (1 + entry (pduArray pdu) 0)) tpduMtiBits ≠ tpduMtiUnspecified) →
      1 + entry (pduArray pdu) 0 < (pduArray pdu).length := by
    intro hmti
    refine Int.not_le.mp fun hle => hmti.1 ?_
    rw [entry_outside hle]
    rfl
  generalize (bits _ tpduMtiBits ≠ _ ∧ bits _ tpduMtiBits ≠ _) = refused at hfo ⊢
  unfold tpduMaxTpduSize tpduMaxAddrLen
  by_cases hmti : refused
  · have hinside := hfo hmti
    simp only [hmti, not_true_eq_false, false_imp_iff, true_or, or_true, iff_true, and_true]
    omega
  · simp only [hmti, not_false_eq_true, true_imp_iff, false_or]
    omega

theorem uchar_eq {value : Int} (hlow : 0 ≤ value) (hhigh : value < 256) : uchar value = value :=
  Int.emod_eq_of_lt hlow hhigh

theorem submitPduCheck_ok_iff (hlow : 2 ≤ pdu.length) :
    (∃ r, submitPduCheck pdu = .ok r) ↔ SubmitInside (pduArray pdu) := by
  have hlength := pduArray_length pdu
  have hsca := entry_ge pdu 0
  have hda := entry_ge pdu (1 + entry (pduArray pdu) 0 + 2)
  have hdaEnd := @entry_outside (1 + entry (pduArray pdu) 0 + 2) (pduArray pdu)
  have hpid := @inside_of_refused (submitPid (pduArray pdu)) (pduArray pdu) pidCheck rfl
  have hdcs := @inside_of_refused (submitPid (pduArray pdu) + 1) (pduArray pdu) dcsCheck rfl
  unfold submitPduCheck SubmitInside submitUdl firstOctet tpduMaxTpduSize
  simp only [return_ok, read_ok, Except.ok.injEq, exists_eq', and_true, gt_iff_lt]
  -- offsets do not wrap while both addresses are in range
  by_cases hscaLe : tpduMaxAddrLen < entry (pduArray pdu) 0
  · simp only [hscaLe, not_true_eq_false, false_imp_iff, and_true, true_or, or_true, iff_true]
    omega
  have hscaLt : entry (pduArray pdu) 0 ≤ 11 := Int.not_lt.mp hscaLe
  rw [uchar_eq (by omega) (by omega), uchar_eq (by omega) (by omega)]
  generalize entry (pduArray pdu) (1 + entry (pduArray pdu) 0) = fo
  have hvp : (if bits fo tpduVpfBits >>> 3 = tpduVpfRelative then 2 else 1 : Int) = 1 ∨
      (if bits fo tpduVpfBits >>> 3 = tpduVpfRelative then 2 else 1 : Int) = 2 := by
    split
    · exact .inr rfl
    · exact .inl rfl
  generalize (if bits fo tpduVpfBits >>> 3 = tpduVpfRelative then 2 else 1 : Int) = vp at hvp ⊢
  by_cases hdaLe : (tpduMaxAddrLen - 1) * 2 < entry (pduArray pdu) (1 + entry (pduArray pdu) 0 + 2)
  · have hinside : 1 + entry (pduArray pdu) 0 + 2 < (pduArray pdu).length := by
      unfold tpduMaxAddrLen at hdaLe
      omega
    simp only [hdaLe, not_true_eq_false, false_imp_iff, and_true, true_or, or_true, iff_true]
    omega
  have hdaLt : entry (pduArray pdu) (1 + entry (pduArray pdu) 0 + 2) ≤ 20 := Int.not_lt.mp hdaLe
  have hplace : submitPid (pduArray pdu) = 1 + entry (pduArray pdu) 0 + 2 +
      (1 + 1 + (entry (pduArray pdu) (1 + entry (pduArray pdu) 0 + 2) + 1) / 2) := rfl
  rw [@Int.tdiv_eq_ediv_of_nonneg (entry (pduArray pdu) (1 + entry (pduArray pdu) 0 + 2) + 1) 2
    (by omega), uchar_eq (by omega) (by omega), ← hplace, uchar_eq (by omega) (by omega),
    uchar_eq (by omega) (by omega)]
  simp only [hscaLe, hdaLe, not_false_eq_true, true_imp_iff, false_or]
  generalize (pidCheck _ = false) = pid at hpid ⊢
  generalize (dcsCheck _ = false) = dcs at hdcs ⊢
  generalize (bits fo _ ≠ _) = mti
  generalize (foCheck fo = false) = first
  by_cases hpidRefused : pid
  · have hinside := hpid hpidRefused
    simp only [hpidRefused, true_or, or_true, iff_true, not_true_eq_false, false_imp_iff, and_true]
    exact fun _ => ⟨by omega, by omega, fun _ _ => by omega⟩
  by_cases hdcsRefused : dcs
  · have hinside := hdcs hdcsRefused
    simp only [hdcsRefused, or_true, iff_true, not_true_eq_false, false_imp_iff, and_true]
    exact fun _ => ⟨by omega, by omega, fun _ _ => ⟨by omega, by omega, fun _ => by omega⟩⟩
  simp only [hpidRefused, hdcsRefused, or_false, not_false_eq_true, true_imp_iff]
  by_cases hfirst : mti ∨ first
  · simp only [← not_or, ← and_imp, hfirst, and_true, not_true_eq_false, false_imp_iff]
    omega
  · obtain ⟨hmti, hfo⟩ := not_or.mp hfirst
    simp only [hmti, hfo, or_false, and_false, not_false_eq_true, true_imp_iff]
    omega

/-- **Reads of `pdu_array`.** For every string, hex or not, all reads of the checks
are inside of the array, as they are called for a received PDU and for one to be
sent, exactly if the UDL octet is or a field in front of it is refused. -/
theorem pdu_reads_inside (pdu : Line) (smsc : Option Line) (tpdu : Line) :
    ((∃ r, checkReceivedPdu pdu true = .ok r) ↔
        (2 ≤ pdu.length → DeliverInside (pduArray pdu))) ∧
      ((∃ r, packPdu smsc (some tpdu) true = .ok r) ↔
        (Packed smsc tpdu → SubmitInside (pduArray (smsc.getD (bytes "00") ++ tpdu)))) := by
  constructor
  · unfold checkReceivedPdu
    rw [return_ok, return_ok, if_pos rfl, call_ok, Nat.not_lt]
    refine imp_congr_right fun hlow => ?_
    rw [deliverPduCheck_ok_iff hlow]
    refine ⟨fun h => ?_, fun h _ => h⟩
    by_cases hdigits : hexCharToDecInt pdu 2 = none
    · -- the length -1 makes it the first octet, too, and that has no allowed type
      have hsca : entry (pduArray pdu) 0 = -1 := by rw [entry_zero hlow, hdigits]; rfl
      refine .inr (.inr (.inl ?_))
      unfold firstOctet
      rw [hsca]
      change bits (entry (pduArray pdu) 0) _ ≠ _ ∧ bits (entry (pduArray pdu) 0) _ ≠ _
      rw [hsca]
      decide
    · exact h hdigits
  · have hpacked : Packed smsc tpdu ↔ ¬ (smsc.any fun smsc => smsc.length % 2 != 0 ||
        smsc.length < 2 || smsc.length / 2 - 1 > maxSmscLength) = true ∧
        ¬ tpdu.length % 2 ≠ 0 ∧ ¬ tpdu.length / 2 > maxTpduLength := by
      cases smsc with
      | none => simp [Packed]
      | some address =>
        simp only [Packed, Option.mem_def, Option.some.injEq, forall_eq', Option.any_some,
          Bool.or_eq_true, bne_iff_ne, decide_eq_true_eq]
        omega
    unfold packPdu
    rw [return_ok]
    dsimp only
    rw [return_ok, return_ok, if_pos rfl, call_ok, ← and_imp, ← and_imp, and_assoc, ← hpacked]
    refine imp_congr_right fun hlengths => submitPduCheck_ok_iff ?_
    rw [length_append]
    cases smsc with
    | none => exact Nat.le_add_right 2 _
    | some address => exact Nat.le_add_right_of_le (hlengths.1 address rfl).2.1

/-- The length of an absent address is all of the PDU, and the first octet of the
TPDU is looked for behind it. -/
theorem pdu_reads_outside :
    ((¬ ∀ pdu : Line, 2 ≤ pdu.length → pdu.length ≤ 350 →
          ∃ r, checkReceivedPdu pdu true = .ok r) ∧
        checkReceivedPdu (bytes "00") true = .error ⟨1⟩) ∧
      (¬ ∀ (smsc : Option Line) (tpdu : Line), 2 ≤ (smsc.getD (bytes "00") ++ tpdu).length →
          (smsc.getD (bytes "00") ++ tpdu).length ≤ 350 →
            ∃ r, packPdu smsc (some tpdu) true = .ok r) ∧
        packPdu none (some []) true = .error ⟨1⟩ := by
  have hreceived : checkReceivedPdu (bytes "00") true = .error ⟨1⟩ := rfl
  have hsent : packPdu none (some []) true = .error ⟨1⟩ := rfl
  refine ⟨⟨?_, hreceived⟩, ?_, hsent⟩
  · intro h
    obtain ⟨r, hr⟩ := h (bytes "00") (by decide) (by decide)
    cases hreceived.symm.trans hr
  · intro h
    obtain ⟨r, hr⟩ := h none [] (by decide) (by decide)
    cases hsent.symm.trans hr

end Arale.Ril.Pdu
