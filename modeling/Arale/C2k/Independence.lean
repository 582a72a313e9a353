import Arale.Lib.Events
import Arale.C2k.Parameters

/-!
# Parameters do not disturb each other

A PDU may have its parameters in any order, and more than one of a kind. The
decoder stores each of them over what it stored before, so in the end each field
of the message should hold the value of the last parameter of its own kind.

> `parameters_independent`: this is so if every cause code is followed by bearer
> data somewhere.

The condition is needed because the `case` of the cause code has no `break`: a
cause code is stored as if it were bearer data. The digits of an address are
those of the last one; its type and plan are those of the last address that has
them, since an address with four bits for a digit has none.
-/

namespace Arale.C2k

open Arale.Lib List
open Arale.C2k.Checked (Fits Sized DigitsIn digitsPlace paramStep)

/-! ## The contents of parameters -/

/-- The `width` bits from `start` on are those of `v`. -/
def FieldHolds (value : List UInt8) (start width v : Nat) : Prop :=
  v < 2 ^ width ∧ ∀ j < width, bit value (start + j) = byteBit (UInt8.ofNat v) (8 - width + j)

/-- The bits of an address before the number of digits. -/
def headerBits (eightBit network : Bool) : Nat :=
  if eightBit then if network then 5 else 9 else 2

def digitBits (eightBit : Bool) : Nat := if eightBit then 8 else 4

/-- An originating or destination address and its bytes. -/
structure AddressParam where
  eightBit : Bool
  network : Bool
  numberType : Nat
  numberPlan : Nat
  digits : List UInt8
  value : List UInt8
  short : value.length < 256
  length_eq : value.length
    = numBytes (headerBits eightBit network + 8 + digitBits eightBit * digits.length)
  mode_bit : FieldHolds value 0 1 eightBit.toNat
  network_bit : FieldHolds value 1 1 network.toNat
  type_bits : eightBit = true → FieldHolds value 2 3 numberType
  plan_bits : eightBit = true → network = false → FieldHolds value 5 4 numberPlan
  count_bits : FieldHolds value (headerBits eightBit network) 8 digits.length
  digit_bits : ∀ k < digits.length, FieldHolds value
    (headerBits eightBit network + 8 + digitBits eightBit * k) (digitBits eightBit)
    (digits.getD k 0).toNat

/-- The characters of an address. -/
def AddressParam.characters (a : AddressParam) : List UInt8 :=
  if a.eightBit then a.digits else a.digits.map rilNumDtmfToChar

/-- A subaddress and its bytes. -/
structure SubaddressParam where
  subaddressType : Nat
  odd : Nat
  digits : List UInt8
  value : List UInt8
  short : value.length < 256
  length_eq : value.length = numBytes (12 + 8 * digits.length)
  type_bits : FieldHolds value 0 3 subaddressType
  odd_bit : FieldHolds value 3 1 odd
  count_bits : FieldHolds value 4 8 digits.length
  digit_bits : ∀ k < digits.length, FieldHolds value (12 + 8 * k) 8 (digits.getD k 0).toNat

/-- As many bytes as a parameter can have. -/
abbrev Octets := { bytes : List UInt8 // bytes.length < 256 }

/-- The parameters of a PDU. -/
inductive Parameter where
  | teleservice (high low : UInt8)
  | serviceCategory (bytes : Octets)
  | address (destination : Bool) (a : AddressParam)
  | subaddress (destination : Bool) (s : SubaddressParam)
  | bearerReplyOption (bytes : Octets)
  | causeCode (bytes : Octets)
  | bearerData (bytes : Octets)

/-- The parameter with its id. -/
def Parameter.tlv : Parameter → Tlv
  | .teleservice high low => Tlv.of 0 [high, low]
  | .serviceCategory bytes => ⟨1, bytes.1, bytes.2⟩
  | .address destination a => ⟨if destination then 4 else 2, a.value, a.short⟩
  | .subaddress destination s => ⟨if destination then 5 else 3, s.value, s.short⟩
  | .bearerReplyOption bytes => ⟨6, bytes.1, bytes.2⟩
  | .causeCode bytes => ⟨7, bytes.1, bytes.2⟩
  | .bearerData bytes => ⟨8, bytes.1, bytes.2⟩

/-! ## Fields -/

/-- The fields of a message that the decoder stores. -/
inductive SmsField where
  | teleserviceId
  | digitMode
  | numberMode
  | numberType
  | numberPlan
  | numberOfDigits
  | digits
  | subaddressType
  | odd
  | subNumberOfDigits
  | subDigits
  | bearerDataLen
  | bearerData

inductive FieldValue where
  | number (n : Nat)
  | bytes (xs : List UInt8)
deriving DecidableEq

/-- A field of a message; of an array the part that is used. -/
def SmsField.get (f : SmsField) (m : CdmaSmsMessage) : FieldValue :=
  match f with
  | .teleserviceId => .number m.uTeleserviceId
  | .digitMode => .number m.sAddress.digitMode
  | .numberMode => .number m.sAddress.numberMode
  | .numberType => .number m.sAddress.numberType
  | .numberPlan => .number m.sAddress.numberPlan
  | .numberOfDigits => .number m.sAddress.numberOfDigits.toNat
  | .digits => .bytes (m.sAddress.digits.take m.sAddress.numberOfDigits.toNat)
  | .subaddressType => .number m.sSubAddress.subaddressType
  | .odd => .number m.sSubAddress.odd.toNat
  | .subNumberOfDigits => .number m.sSubAddress.numberOfDigits.toNat
  | .subDigits => .bytes (m.sSubAddress.digits.take m.sSubAddress.numberOfDigits.toNat)
  | .bearerDataLen => .number m.uBearerDataLen
  | .bearerData => .bytes (m.aBearerData.take m.uBearerDataLen)

/-- What an address says about a field. The digits are reported as characters,
with eight bits each. -/
def AddressParam.own (a : AddressParam) : SmsField → Option FieldValue
  | .digitMode => some (.number 1)
  | .numberMode => some (.number a.network.toNat)
  | .numberType => if a.eightBit then some (.number a.numberType) else none
  | .numberPlan => if a.eightBit && !a.network then some (.number a.numberPlan) else none
  | .numberOfDigits => some (.number a.digits.length)
  | .digits => some (.bytes a.characters)
  | _ => none

def SubaddressParam.own (s : SubaddressParam) : SmsField → Option FieldValue
  | .subaddressType => some (.number s.subaddressType)
  | .odd => some (.number s.odd)
  | .subNumberOfDigits => some (.number s.digits.length)
  | .subDigits => some (.bytes s.digits)
  | _ => none

/-- What bearer data say about a field. -/
def Octets.own (bytes : Octets) : SmsField → Option FieldValue
  | .bearerDataLen => some (.number bytes.1.length)
  | .bearerData => some (.bytes bytes.1)
  | _ => none

/-- The fields of the parameter's own kind, with the values they should get. -/
def Parameter.own (f : SmsField) : Parameter → Option FieldValue
  | .teleservice high low =>
    match f with
    | .teleserviceId => some (.number (high.toNat * 256 + low.toNat))
    | _ => none
  | .address _ a => a.own f
  | .subaddress _ s => s.own f
  | .bearerData bytes => bytes.own f
  | .serviceCategory _ | .bearerReplyOption _ | .causeCode _ => none

/-- The fields that the code writes: a cause code is stored as bearer data. -/
def Parameter.written (f : SmsField) : Parameter → Option FieldValue
  | .causeCode bytes => bytes.own f
  | p => p.own f

/-! ## Reading a parameter -/

section Fields

variable {value : List UInt8} {start width v : Nat}

theorem FieldHolds.toNat_ofNat (h : FieldHolds value start width v) (hwidth : width ≤ 8) :
    (UInt8.ofNat v).toNat = v := by
  have hpow : 2 ^ width ≤ 2 ^ 8 := Nat.pow_le_pow_right (by omega) hwidth
  exact UInt8.toNat_ofNat_of_lt (Nat.lt_of_lt_of_le h.1 hpow)

theorem FieldHolds.getuint8 (h : FieldHolds value start width v) (hwidth : width ≤ 8)
    (hstart : start < 2048) : (C2k.getuint8 value start width).toNat = v := by
  have hv := h.toNat_ofNat hwidth
  have hsmall : ∀ k < 8 - width, byteBit (UInt8.ofNat v) k = false := by
    intro k hk
    apply @byteBit_of_toNat_lt _ width k
    · rw [hv]
      exact h.1
    · omega
  rw [getuint8_eq hwidth (by omega) hsmall h.2, hv]

end Fields

section Address

variable (a : AddressParam) {addr : CdmaSmsAddress}

theorem headerBits_bounds (eightBit network : Bool) :
    2 ≤ headerBits eightBit network ∧ headerBits eightBit network ≤ 9 ∧
      4 ≤ digitBits eightBit ∧ digitBits eightBit ≤ 8 := by
  cases eightBit with
  | false => simp [headerBits, digitBits]
  | true =>
    cases network with
    | false | true => simp [headerBits, digitBits]

/-- The bits of an address are inside its bytes. -/
theorem AddressParam.bits_le : headerBits a.eightBit a.network + 8
    + digitBits a.eightBit * a.digits.length ≤ 8 * a.value.length := by
  rw [a.length_eq, numBytes_eq]
  omega

theorem AddressParam.extractModes_eq : extractModes a.value addr
    = ({ addr with
          digitMode := a.eightBit.toNat
          numberMode := a.network.toNat
          numberType := if a.eightBit then a.numberType else addr.numberType
          numberPlan := if a.eightBit && !a.network then a.numberPlan else addr.numberPlan },
        headerBits a.eightBit a.network, digitBits a.eightBit) := by
  have hmode := a.mode_bit.getuint8 (by omega) (by omega)
  have hnetwork := a.network_bit.getuint8 (by omega) (by omega)
  have htype : a.eightBit = true → (C2k.getuint8 a.value 2 3).toNat = a.numberType :=
    fun h => (a.type_bits h).getuint8 (by omega) (by omega)
  have hplan : a.eightBit = true → a.network = false →
      (C2k.getuint8 a.value 5 4).toNat = a.numberPlan :=
    fun h hn => (a.plan_bits h hn).getuint8 (by omega) (by omega)
  rw [extractModes]
  simp only [hmode, hnetwork]
  cases he : a.eightBit with
  | false => simp [headerBits, digitBits]
  | true =>
    cases hn : a.network with
    | false => simp [headerBits, digitBits, htype he, hplan he hn]
    | true => simp [headerBits, digitBits, htype he]

theorem AddressParam.digitsPlace_eq :
    digitsPlace a.value = (headerBits a.eightBit a.network, digitBits a.eightBit) := by
  have hplace := (Checked.extractModes_place a.value ⟨0, 0, 0, 0, 0, []⟩).1
  rw [a.extractModes_eq] at hplace
  exact hplace.symm

theorem AddressParam.count_eq :
    (C2k.getuint8 a.value (headerBits a.eightBit a.network) 8).toNat = a.digits.length := by
  obtain ⟨-, hhigh, -, -⟩ := headerBits_bounds a.eightBit a.network
  exact a.count_bits.getuint8 (by omega) (by omega)

/-- The decoder can take an address with at most 36 digits. -/
theorem AddressParam.digitsIn (hn : a.digits.length ≤ 36) :
    DigitsIn a.value (digitsPlace a.value) := by
  rw [a.digitsPlace_eq]
  constructor
  · rw [a.count_eq]
    exact hn
  · rw [a.count_eq]
    exact a.bits_le

/-- The digits as they are copied. -/
def AddressParam.copied (digits : List UInt8) : List UInt8 :=
  copyFields a.value (digitBits a.eightBit) a.digits.length
    (headerBits a.eightBit a.network + 8) 0 digits

theorem AddressParam.copied_bits (hn : a.digits.length ≤ 36) {digits : List UInt8}
    (hdigits : digits.length = 36) {k j : Nat} (hk : k < a.digits.length)
    (hj : j < digitBits a.eightBit) :
    bit (a.copied digits) (digitBits a.eightBit * k + j)
      = byteBit (a.digits.getD k 0) (8 - digitBits a.eightBit + j) := by
  obtain ⟨hlow, hhigh, hsize, hsize8⟩ := headerBits_bounds a.eightBit a.network
  have hmul : digitBits a.eightBit * a.digits.length ≤ 8 * 36 := Nat.mul_le_mul hsize8 hn
  have hk1 : digitBits a.eightBit * (k + 1) ≤ digitBits a.eightBit * a.digits.length :=
    Nat.mul_le_mul_left _ hk
  rw [Nat.mul_succ] at hk1
  have hbits := (a.digit_bits k hk).2 j hj
  rw [UInt8.ofNat_toNat] at hbits
  have hplace : headerBits a.eightBit a.network + 8 + (digitBits a.eightBit * k + j - 0)
      = headerBits a.eightBit a.network + 8 + digitBits a.eightBit * k + j := by omega
  rw [AddressParam.copied, bit_copyFields _ (by omega) hsize8 _ _ _ _ (by omega) (by omega)
    (by omega),
    if_pos ⟨by omega, by omega⟩, hplace, hbits]

theorem AddressParam.length_copied (digits : List UInt8) :
    (a.copied digits).length = digits.length :=
  length_copyFields _ _ _ _ _ _

/-- Digits of eight bits are copied as they are. -/
theorem AddressParam.take_copied (hn : a.digits.length ≤ 36) {digits : List UInt8}
    (hdigits : digits.length = 36) (height : a.eightBit = true) :
    (a.copied digits).take a.digits.length = a.digits := by
  have hsize : digitBits a.eightBit = 8 := by rw [height]; rfl
  have hlen := a.length_copied digits
  refine ext_getElem (by rw [length_take]; omega) fun k hk hk' => ?_
  have hbyte : (a.copied digits).getD k 0 = a.digits.getD k 0 := by
    apply getD_eq_of_bit
    intro j hj
    have hbits := a.copied_bits hn hdigits hk' (hsize.symm ▸ hj)
    rw [hsize, Nat.sub_self, Nat.zero_add] at hbits
    exact hbits
  rw [getD_eq_getElem _ _ (by omega), getD_eq_getElem _ _ hk'] at hbyte
  rw [getElem_take]
  exact hbyte

/-- Digits of four bits become characters. -/
theorem AddressParam.asciiNum_copied (hn : a.digits.length ≤ 36) {digits : List UInt8}
    (hdigits : digits.length = 36) (hfour : a.eightBit = false) :
    asciiNum (a.copied digits) a.digits.length = a.digits.map rilNumDtmfToChar := by
  have hsize : digitBits a.eightBit = 4 := by rw [hfour]; rfl
  refine ext_getElem (by rw [Checked.length_asciiNum, length_map]) fun k hk hk' => ?_
  rw [Checked.length_asciiNum] at hk
  have hsmall : (a.digits.getD k 0).toNat < 2 ^ 4 := by
    have hlt := (a.digit_bits k hk).1
    rw [hsize] at hlt
    exact hlt
  have hdigit : dtmfDigit (a.copied digits) k = a.digits.getD k 0 := by
    rw [dtmfDigit_eq _ (by omega)]
    apply getuint8_eq (by omega) (by omega)
    · intro i hi
      exact byteBit_of_toNat_lt hsmall (by omega)
    · intro j hj
      have hbits := a.copied_bits hn hdigits hk (hsize.symm ▸ hj)
      rw [hsize] at hbits
      exact hbits
  rw [getD_eq_getElem _ _ hk] at hdigit
  simp only [asciiNum, getElem_map, getElem_range, hdigit]

/-- The address that is extracted. -/
theorem AddressParam.extract_eq (hn : a.digits.length ≤ 36) (haddr : addr.digits.length = 36) :
    ∃ digits, digits.take a.digits.length = a.characters ∧
      rilCdmaSmsExtractAddress a.value addr
        = { addr with
            digitMode := 1
            numberMode := a.network.toNat
            numberType := if a.eightBit then a.numberType else addr.numberType
            numberPlan := if a.eightBit && !a.network then a.numberPlan else addr.numberPlan
            numberOfDigits := UInt8.ofNat a.digits.length
            digits } := by
  have hcount : C2k.getuint8 a.value (headerBits a.eightBit a.network) 8
      = UInt8.ofNat a.digits.length := by
    rw [← a.count_eq, UInt8.ofNat_toNat]
  have hnat : (UInt8.ofNat a.digits.length).toNat = a.digits.length :=
    a.count_bits.toNat_ofNat (by omega)
  have hcopied : copyFields a.value (digitBits a.eightBit) a.digits.length
      (headerBits a.eightBit a.network + 8) 0 addr.digits = a.copied addr.digits := rfl
  rw [rilCdmaSmsExtractAddress, a.extractModes_eq, AddressParam.characters]
  simp only [hcount, hnat, hcopied]
  cases hmode : a.eightBit with
  | false =>
    refine ⟨store (a.copied addr.digits) 0
      (asciiNum (a.copied addr.digits) a.digits.length), ?_, rfl⟩
    rw [take_store (Nat.zero_le _) (by rw [Checked.length_asciiNum, Nat.zero_add]),
      a.asciiNum_copied hn haddr hmode]
    rfl
  | true => exact ⟨a.copied addr.digits, a.take_copied hn haddr hmode, rfl⟩

end Address

section Subaddress

variable (s : SubaddressParam) {addr : CdmaSmsSubaddress}

theorem SubaddressParam.count_eq : (C2k.getuint8 s.value 4 8).toNat = s.digits.length :=
  s.count_bits.getuint8 (by omega) (by omega)

theorem SubaddressParam.digitsIn (hn : s.digits.length ≤ 36) : DigitsIn s.value (4, 8) := by
  constructor
  · rw [s.count_eq]
    exact hn
  · rw [s.count_eq, s.length_eq, numBytes_eq]
    omega

theorem SubaddressParam.digits_eq (hn : s.digits.length ≤ 36) :
    (List.range s.digits.length).map (fun i => C2k.getuint8 s.value (12 + 8 * i) 8) = s.digits := by
  refine ext_getElem (by rw [length_map, length_range]) fun k hk hk' => ?_
  have hread := (s.digit_bits k hk').getuint8 (by omega) (by omega)
  rw [getD_eq_getElem _ _ hk'] at hread
  rw [getElem_map, getElem_range]
  exact UInt8.toNat_inj.mp hread

/-- The subaddress that is extracted. -/
theorem SubaddressParam.extract_eq (hn : s.digits.length ≤ 36) :
    rilCdmaSmsExtractSubaddress s.value addr
      = { subaddressType := s.subaddressType
          odd := UInt8.ofNat s.odd
          numberOfDigits := UInt8.ofNat s.digits.length
          digits := store addr.digits 0 s.digits } := by
  have hodd : C2k.getuint8 s.value 3 1 = UInt8.ofNat s.odd := by
    rw [← s.odd_bit.getuint8 (by omega) (by omega), UInt8.ofNat_toNat]
  have hcount : C2k.getuint8 s.value 4 8 = UInt8.ofNat s.digits.length := by
    rw [← s.count_eq, UInt8.ofNat_toNat]
  have hnat : (UInt8.ofNat s.digits.length).toNat = s.digits.length :=
    s.count_bits.toNat_ofNat (by omega)
  rw [rilCdmaSmsExtractSubaddress, s.type_bits.getuint8 (by omega) (by omega), hodd, hcount]
  simp only [hnat, s.digits_eq hn]

end Subaddress

/-! ## One parameter -/

/-- At most 36 digits, as the arrays have. -/
def Parameter.Short : Parameter → Prop
  | .address _ a => a.digits.length ≤ 36
  | .subaddress _ s => s.digits.length ≤ 36
  | _ => True

theorem Parameter.fits {p : Parameter} (hp : p.Short) : Fits p.tlv := by
  cases p with
  | address destination a =>
    refine ⟨fun _ => a.digitsIn hp, fun h => absurd h ?_⟩
    cases destination with
    | false | true => simp [Parameter.tlv]
  | subaddress destination s =>
    refine ⟨fun h => absurd h ?_, fun _ => s.digitsIn hp⟩
    cases destination with
    | false | true => simp [Parameter.tlv]
  | teleservice high low =>
    apply Checked.fits_of_ne
    · simp [Parameter.tlv, Tlv.of]
    · simp [Parameter.tlv, Tlv.of]
  | serviceCategory bytes | bearerReplyOption bytes | causeCode bytes | bearerData bytes =>
    apply Checked.fits_of_ne
    · simp [Parameter.tlv]
    · simp [Parameter.tlv]

/-- The message after a parameter: each kind has its own fields. -/
theorem Parameter.step_address (destination : Bool) (a : AddressParam) (m : CdmaSmsMessage) :
    paramStep m (Parameter.address destination a).tlv
      = { m with sAddress := rilCdmaSmsExtractAddress a.value m.sAddress } := by
  cases destination with
  | false => exact processParam_address (.inl rfl)
  | true => exact processParam_address (.inr rfl)

theorem Parameter.step_subaddress (destination : Bool) (s : SubaddressParam) (m : CdmaSmsMessage) :
    paramStep m (Parameter.subaddress destination s).tlv
      = { m with sSubAddress := rilCdmaSmsExtractSubaddress s.value m.sSubAddress } := by
  cases destination with
  | false => exact processParam_subaddress (.inl rfl)
  | true => exact processParam_subaddress (.inr rfl)

theorem Parameter.step_teleservice (high low : UInt8) (m : CdmaSmsMessage) :
    paramStep m (Parameter.teleservice high low).tlv
      = { m with uTeleserviceId := high.toNat * 256 + low.toNat } := by
  have hlow := low.toNat_lt
  have hid : high.toNat <<< 8 ||| low.toNat = high.toNat * 256 + low.toNat := by
    rw [← Nat.shiftLeft_add_eq_or_of_lt hlow, Nat.shiftLeft_eq]
  rw [← hid]
  rfl

/-- The length and the bytes of bearer data, which are also stored for a cause code. -/
theorem Octets.get_step (bytes : Octets) {id : UInt8} (hid : id = 7 ∨ id = 8) (m : CdmaSmsMessage)
    (f : SmsField) :
    f.get (paramStep m ⟨id, bytes.1, bytes.2⟩) = (Octets.own bytes f).getD (f.get m) := by
  have htake : (store m.aBearerData 0 bytes.1).take bytes.1.length = bytes.1 :=
    take_store (Nat.zero_le _) (Nat.zero_add _).symm
  rw [paramStep, processParam_bearer hid, take_length]
  cases f with
  | bearerData => exact congrArg FieldValue.bytes htake
  | _ => rfl

theorem AddressParam.get_step (a : AddressParam) (hn : a.digits.length ≤ 36) {m : CdmaSmsMessage}
    (hm : Sized m) (f : SmsField) :
    f.get { m with sAddress := rilCdmaSmsExtractAddress a.value m.sAddress }
      = (a.own f).getD (f.get m) := by
  obtain ⟨digits, hdigits, hextract⟩ := a.extract_eq hn hm.digits
  have hnat : (UInt8.ofNat a.digits.length).toNat = a.digits.length :=
    a.count_bits.toNat_ofNat (by omega)
  rw [hextract]
  cases f with
  | numberType =>
    by_cases h : a.eightBit = true
    · simp [SmsField.get, AddressParam.own, h]
    · simp [SmsField.get, AddressParam.own, h]
  | numberPlan =>
    by_cases h : (a.eightBit && !a.network) = true
    · simp [SmsField.get, AddressParam.own, h]
    · simp [SmsField.get, AddressParam.own, h]
  | numberOfDigits => exact congrArg FieldValue.number hnat
  | digits =>
    show FieldValue.bytes (digits.take (UInt8.ofNat a.digits.length).toNat) = .bytes a.characters
    rw [hnat, hdigits]
  | _ => rfl

theorem SubaddressParam.get_step (s : SubaddressParam) (hn : s.digits.length ≤ 36)
    (m : CdmaSmsMessage)
    (f : SmsField) :
    f.get { m with sSubAddress := rilCdmaSmsExtractSubaddress s.value m.sSubAddress }
      = (s.own f).getD (f.get m) := by
  have hnat : (UInt8.ofNat s.digits.length).toNat = s.digits.length :=
    s.count_bits.toNat_ofNat (by omega)
  rw [s.extract_eq hn]
  cases f with
  | odd => exact congrArg FieldValue.number (s.odd_bit.toNat_ofNat (by omega))
  | subNumberOfDigits => exact congrArg FieldValue.number hnat
  | subDigits =>
    show FieldValue.bytes ((store m.sSubAddress.digits 0 s.digits).take
        (UInt8.ofNat s.digits.length).toNat)
      = .bytes s.digits
    rw [hnat, take_store (Nat.zero_le _) (Nat.zero_add _).symm]
    rfl
  | _ => rfl

/-- A parameter writes the fields of its kind and no others, a cause code apart. -/
theorem Parameter.get_step {p : Parameter} (hp : p.Short) {m : CdmaSmsMessage} (hm : Sized m)
    (f : SmsField) : f.get (paramStep m p.tlv) = (p.written f).getD (f.get m) := by
  cases p with
  | teleservice high low =>
    rw [step_teleservice]
    cases f <;> rfl
  | serviceCategory bytes => rfl
  | bearerReplyOption bytes => rfl
  | address destination a =>
    rw [step_address]
    exact a.get_step hp hm f
  | subaddress destination s =>
    rw [step_subaddress]
    exact s.get_step hp m f
  | causeCode bytes => exact Octets.get_step bytes (.inl rfl) m f
  | bearerData bytes => exact Octets.get_step bytes (.inr rfl) m f

/-! ## All parameters -/

section Run

variable {ps : List Parameter} {m : CdmaSmsMessage}

/-- The bytes of a PDU. -/
def pduBytes (msgType : UInt8) (ps : List Parameter) : List UInt8 :=
  msgType :: tlvBytes (ps.map Parameter.tlv)

theorem fits_map (hshort : ∀ p ∈ ps, p.Short) : ∀ t ∈ ps.map Parameter.tlv, Fits t := by
  intro t ht
  obtain ⟨p, hp, rfl⟩ := mem_map.mp ht
  exact Parameter.fits (hshort p hp)

/-- In the end each field holds what was last written to it. -/
theorem get_fold (hm : Sized m) (hshort : ∀ p ∈ ps, p.Short) (f : SmsField) :
    f.get ((ps.map Parameter.tlv).foldl paramStep m)
      = lastOf (Parameter.written f) ps (f.get m) := by
  rw [foldl_map]
  refine foldl_lastOf (fun p hp s hs => ?_) hm
  exact ⟨((Parameter.fits (hshort p hp)).run hs []).2, Parameter.get_step (hshort p hp) hs f⟩

/-- Bearer data follow every cause code. -/
def CauseFollowed (ps : List Parameter) : Prop :=
  ∀ pre code post, ps = pre ++ Parameter.causeCode code :: post →
    ∃ data, Parameter.bearerData data ∈ post

/-- For instance if the PDU ends with bearer data. -/
theorem causeFollowed_of_last (ps : List Parameter) (data : Octets) :
    CauseFollowed (ps ++ [.bearerData data]) := by
  intro pre code post hps
  obtain rfl | ⟨post, p, rfl⟩ := eq_nil_or_concat post
  · obtain ⟨-, hlast⟩ := append_inj' hps rfl
    cases hlast
  · have hsplit : ps ++ [Parameter.bearerData data]
        = (pre ++ Parameter.causeCode code :: post) ++ [p] := by
      rw [hps, concat_eq_append, append_assoc]
      rfl
    obtain ⟨-, hlast⟩ := append_inj' hsplit rfl
    obtain rfl := singleton_inj.mp hlast
    rw [concat_eq_append]
    exact ⟨data, mem_append_right _ mem_cons_self⟩

/-- Then what was last written is what the last parameter of the kind says. -/
theorem lastOf_written (hcause : CauseFollowed ps) (f : SmsField) (init : FieldValue) :
    lastOf (Parameter.written f) ps init = lastOf (Parameter.own f) ps init := by
  apply lastOf_followed
  · intro p hp
    cases p with
    | causeCode bytes => exact absurd rfl hp
    | _ => rfl
  · intro pre p post hps hown hwritten
    cases p with
    | causeCode bytes =>
      obtain ⟨data, hdata⟩ := hcause pre bytes post hps
      refine ⟨_, hdata, ?_⟩
      cases f with
      | bearerDataLen | bearerData => exact Option.some_ne_none _
      | _ => exact absurd rfl hwritten
    | _ => exact absurd hown hwritten

end Run

/-- Each field holds the value of the last parameter of its own kind. -/
theorem parameters_independent (msgType : UInt8) (ps : List Parameter) (m : CdmaSmsMessage)
    (hn : (pduBytes msgType ps).length < 65536) (hm : Sized m) (hshort : ∀ p ∈ ps, p.Short)
    (hcause : CauseFollowed ps) :
    ∃ m', Checked.processCdmaIncomingSms (pduBytes msgType ps) m = .ok m' ∧
      ∀ f : SmsField, f.get m' = lastOf (Parameter.own f) ps (f.get m) := by
  refine ⟨_, (Checked.process_fold (fits_map hshort) hm msgType hn).1, ?_⟩
  intro f
  rw [get_fold hm hshort f, lastOf_written hcause]

def Octets.of (bytes : List UInt8) : Octets := ⟨bytes.take 255, Tlv.short_take bytes⟩

/-- The digits 1, 0 and `*` with four bits each. -/
def sampleAddress : AddressParam where
  eightBit := false
  network := false
  numberType := 0
  numberPlan := 0
  digits := [1, 10, 11]
  value := [0x00, 0xC6, 0xAC]
  short := by decide
  length_eq := rfl
  mode_bit := by unfold FieldHolds; decide
  network_bit := by unfold FieldHolds; decide
  type_bits := fun h => absurd h Bool.false_ne_true
  plan_bits := fun h => absurd h Bool.false_ne_true
  count_bits := by unfold FieldHolds; decide
  digit_bits := by unfold FieldHolds; decide

/-- Bearer data twice, with a cause code between them. -/
def sampleParameters : List Parameter :=
  [.bearerData (.of [1, 2, 3]), .address false sampleAddress, .causeCode (.of [0x21]),
    .teleservice 0x10 0x02, .bearerData (.of [0xAB])]

theorem sampleParameters_short : ∀ p ∈ sampleParameters, p.Short := by
  intro p hp
  simp only [sampleParameters, mem_cons, not_mem_nil, or_false] at hp
  obtain rfl | rfl | rfl | rfl | rfl := hp
  · trivial
  · show 3 ≤ 36
    omega
  · trivial
  · trivial
  · trivial

theorem parameters_independent_sample :
    ∃ m', Checked.processCdmaIncomingSms (pduBytes 0 sampleParameters) Checked.emptySms = .ok m' ∧
      ∀ f : SmsField, f.get m' = lastOf (Parameter.own f) sampleParameters
        (f.get Checked.emptySms) := by
  apply parameters_independent 0 sampleParameters Checked.emptySms
    (by decide) Checked.emptySms_sized
    sampleParameters_short
  exact causeFollowed_of_last [_, _, _, _] _

/-- Three bytes of bearer data, and a cause code behind them. -/
def causeBehind : List Parameter := [.bearerData (.of [1, 2, 3]), .causeCode (.of [0x21])]

/-- A cause code behind bearer data is what the message holds. -/
theorem cause_code_stored :
    ¬ ∀ (msgType : UInt8) (ps : List Parameter) (m : CdmaSmsMessage),
      (pduBytes msgType ps).length < 65536 → Sized m → (∀ p ∈ ps, p.Short) →
      ∃ m', Checked.processCdmaIncomingSms (pduBytes msgType ps) m = .ok m' ∧
        ∀ f : SmsField, f.get m' = lastOf (Parameter.own f) ps (f.get m) := by
  intro hall
  have hshort : ∀ p ∈ causeBehind, p.Short := by
    intro p hp
    obtain rfl | hp := mem_cons.mp hp
    · trivial
    · obtain rfl := mem_singleton.mp hp
      trivial
  obtain ⟨m', hrun, hget⟩ :=
    hall 0 causeBehind Checked.emptySms (by decide) Checked.emptySms_sized hshort
  have hfold := (Checked.process_fold (fits_map hshort) Checked.emptySms_sized 0 (by decide)).1
  obtain rfl := Except.ok.inj (hrun.symm.trans hfold)
  have hlength := hget .bearerDataLen
  rw [get_fold Checked.emptySms_sized hshort] at hlength
  cases hlength

end Arale.C2k
