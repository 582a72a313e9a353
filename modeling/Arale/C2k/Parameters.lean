import Arale.C2k.Checked

/-!
# The arrays of the decoder

`ProcessCdmaIncomingSms` walks through a PDU of `n` bytes with a 16-bit index
and stores what it finds into the arrays of a message, which have 36, 36 and 255
entries. Here it does so with every access checked.

> `decoder_in_bounds`: the decoder stays inside the PDU and inside the arrays
> exactly if the PDU has a message type, and where a parameter starts, as the
> lengths before it say, the PDU has all that its identifier asks for, with at
> most 36 digits in an address.

The code checks none of this. For a row of parameters the loop is a fold
(`process_fold`), and this is how the other results about the decoder see it.
-/

namespace Arale.C2k.Checked

open Arale.Lib List

/-! ## The decoder -/

/-- The fields of an address before the number of digits, and the bit and the
size of a digit behind them. -/
def extractModes (bytePdu : List UInt8) (addr : CdmaSmsAddress) :
    Except (Fault SmsArray) (CdmaSmsAddress × Nat × Nat) := do
  let digitMode ← getuint8 .bytePdu bytePdu 0 1
  let numberMode ← getuint8 .bytePdu bytePdu 1 1
  let addr := { addr with digitMode := digitMode.toNat, numberMode := numberMode.toNat }
  if addr.digitMode ≠ 0 then
    let numberType ← getuint8 .bytePdu bytePdu 2 3
    let addr := { addr with numberType := numberType.toNat }
    if addr.numberMode ≠ 0 then return (addr, 5, 8)
    else
      let numberPlan ← getuint8 .bytePdu bytePdu 5 4
      return ({ addr with numberPlan := numberPlan.toNat }, 9, 8)
  else return (addr, 2, 4)

/-- `RILCdmaSmsExtractAddress` -/
def rilCdmaSmsExtractAddress (bytePdu : List UInt8) (addr : CdmaSmsAddress) :
    Except (Fault SmsArray) CdmaSmsAddress := do
  let modes ← extractModes bytePdu addr
  let numberOfDigits ← getuint8 .bytePdu bytePdu modes.2.1 8
  let n := numberOfDigits.toNat
  let digits ← copyFields .bytePdu .digits bytePdu modes.2.2 n (modes.2.1 + 8) 0 modes.1.digits
  if modes.1.digitMode = 0 then
    let digits ← storeAt .digits digits 0 (asciiNum digits n)
    return { modes.1 with numberOfDigits, digits, digitMode := 1 }
  else return { modes.1 with numberOfDigits, digits }

/-- The loop of `RILCdmaSmsExtractSubaddress`. -/
def subaddressLoop (bytePdu : List UInt8) :
    Nat → Nat → List UInt8 → Except (Fault SmsArray) (List UInt8)
  | 0, _, digits => .ok digits
  | count + 1, i, digits => do
    let byte ← getuint8 .bytePdu bytePdu (12 + 8 * i) 8
    let digits ← modifyAt .subDigits digits i fun _ => byte
    subaddressLoop bytePdu count (i + 1) digits

/-- `RILCdmaSmsExtractSubaddress` -/
def rilCdmaSmsExtractSubaddress (bytePdu : List UInt8) (addr : CdmaSmsSubaddress) :
    Except (Fault SmsArray) CdmaSmsSubaddress := do
  let subaddressType ← getuint8 .bytePdu bytePdu 0 3
  let odd ← getuint8 .bytePdu bytePdu 3 1
  let numberOfDigits ← getuint8 .bytePdu bytePdu 4 8
  let digits ← subaddressLoop bytePdu numberOfDigits.toNat 0 addr.digits
  return { subaddressType := subaddressType.toNat, odd, numberOfDigits, digits }

/-- The `switch` of `ProcessCdmaIncomingSms`. -/
def processParam (paramId : UInt8) (paramLen : Nat) (value : List UInt8) (m : CdmaSmsMessage) :
    Except (Fault SmsArray) CdmaSmsMessage := do
  if paramId = 0 then
    if paramLen ≠ 2 then return m
    else
      let high ← readAt .bytePdu value 0
      let low ← readAt .bytePdu value 1
      return { m with uTeleserviceId := high.toNat <<< 8 ||| low.toNat }
  else if paramId = 2 || paramId = 4 then
    let sAddress ← rilCdmaSmsExtractAddress value m.sAddress
    return { m with sAddress }
  else if paramId = 3 || paramId = 5 then
    let sSubAddress ← rilCdmaSmsExtractSubaddress value m.sSubAddress
    return { m with sSubAddress }
  else if paramId = 7 || paramId = 8 then
    -- the cause code is not followed by a `break`
    let data ← sliceAt .bytePdu value 0 paramLen
    let aBearerData ← storeAt .bearerData m.aBearerData 0 data
    return { m with uBearerDataLen := paramLen, aBearerData }
  else return m

/-- The loop of `ProcessCdmaIncomingSms` for at most `steps` parameters. The index
has 16 bits. -/
def processParams (bytePdu : List UInt8) (length : Nat) :
    Nat → Nat × CdmaSmsMessage → Except (Fault SmsArray) (Nat × CdmaSmsMessage)
  | 0, s => .ok s
  | steps + 1, s =>
    if s.1 < length then do
      let paramId ← readAt .bytePdu bytePdu s.1
      let index := (s.1 + 1) % 65536
      let paramLen ← readAt .bytePdu bytePdu index
      let index := (index + 1) % 65536
      let m ← pointer .bytePdu index (processParam paramId paramLen.toNat (bytePdu.drop index) s.2)
      processParams bytePdu length steps ((index + paramLen.toNat) % 65536, m)
    else .ok s

/-- `ProcessCdmaIncomingSms` up to its `steps`-th parameter, for an array of as many
bytes as `length` says: the index and the message. -/
def processFor (steps : Nat) (bytePdu : List UInt8) (m : CdmaSmsMessage) :
    Except (Fault SmsArray) (Nat × CdmaSmsMessage) := do
  let _ ← readAt .bytePdu bytePdu 0
  processParams bytePdu bytePdu.length steps (1, m)

/-- `ProcessCdmaIncomingSms` -/
def processCdmaIncomingSms (bytePdu : List UInt8) (m : CdmaSmsMessage) :
    Except (Fault SmsArray) CdmaSmsMessage := do
  let r ← processFor bytePdu.length bytePdu m
  -- an index that overflows can start again
  if r.1 < bytePdu.length then .error .running else return r.2

/-! ## Well-formed parameters -/

/-- The bit and the size of the digits of an address. -/
def digitsPlace (value : List UInt8) : Nat × Nat :=
  if (C2k.getuint8 value 0 1).toNat ≠ 0 then
    if (C2k.getuint8 value 1 1).toNat ≠ 0 then (5, 8) else (9, 8)
  else (2, 4)

/-- At most 36 digits, and all of them inside the parameter. -/
structure DigitsIn (value : List UInt8) (place : Nat × Nat) : Prop where
  le : (C2k.getuint8 value place.1 8).toNat ≤ 36
  fits : place.1 + 8 + place.2 * (C2k.getuint8 value place.1 8).toNat ≤ 8 * value.length

/-- A parameter that the decoder can take: there is a condition for addresses and
subaddresses only. -/
structure Fits (t : Tlv) : Prop where
  address : t.tag = 2 ∨ t.tag = 4 → DigitsIn t.value (digitsPlace t.value)
  subaddress : t.tag = 3 ∨ t.tag = 5 → DigitsIn t.value (4, 8)

/-- The bytes behind the length of a parameter have what its identifier asks for. -/
structure ParamFits (id : UInt8) (paramLen : Nat) (value : List UInt8) : Prop where
  service : id = 0 → paramLen = 2 → 2 ≤ value.length
  address : id = 2 ∨ id = 4 → DigitsIn value (digitsPlace value)
  subaddress : id = 3 ∨ id = 5 → DigitsIn value (4, 8)
  bearer : id = 7 ∨ id = 8 → paramLen ≤ value.length

/-- A message whose arrays have their sizes. -/
structure Sized (m : CdmaSmsMessage) : Prop where
  digits : m.sAddress.digits.length = 36
  subDigits : m.sSubAddress.digits.length = 36
  bearer : m.aBearerData.length = 255

/-- What a parameter does to the message. -/
def paramStep (m : CdmaSmsMessage) (t : Tlv) : CdmaSmsMessage :=
  C2k.processParam t.tag t.value.length t.value m

/-! ## A value and what stands behind it -/

section Behind

variable {value : List UInt8} (rest : List UInt8)

/-- A field of the value does not depend on what stands behind it. -/
theorem getuint8_append {startBit numBits : Nat} (hnum8 : numBits ≤ 8)
    (h : FieldIn value startBit numBits) :
    C2k.getuint8 (value ++ rest) startBit numBits = C2k.getuint8 value startBit numBits := by
  obtain ⟨hpos, hlen, hbyte⟩ := h
  apply getuint8_congr hnum8 hbyte hbyte
  intro j hj
  exact bit_append_left (by omega) rest

theorem copyFields_append {size : Nat} (hsize : 0 < size) (hsize8 : size ≤ 8)
    {count getBit putBit : Nat} {dst : List UInt8} (hget : getBit + size * count ≤ 8 * value.length)
    (hget8 : (getBit + size * count) / 8 < 256) :
    C2k.copyFields (value ++ rest) size count getBit putBit dst
      = C2k.copyFields value size count getBit putBit dst := by
  induction count generalizing getBit putBit dst with
  | zero => rfl
  | succ count ih =>
    rw [Nat.mul_succ] at hget hget8
    have hfield : FieldIn value getBit size := ⟨hsize, by omega, by omega⟩
    rw [C2k.copyFields, C2k.copyFields, getuint8_append rest hsize8 hfield]
    apply ih
    · omega
    · omega

end Behind

/-! ## Addresses -/

section Address

variable {value : List UInt8}

theorem digitsPlace_cases (value : List UInt8) :
    digitsPlace value = (5, 8) ∨ digitsPlace value = (9, 8) ∨ digitsPlace value = (2, 4) := by
  unfold digitsPlace
  split
  · split
    · exact .inl rfl
    · exact .inr (.inl rfl)
  · exact .inr (.inr rfl)

/-- The header and the digits of an address, in numbers. -/
theorem digitsPlace_bounds (value : List UInt8) :
    2 ≤ (digitsPlace value).1 ∧ (digitsPlace value).1 ≤ 9 ∧
      4 ≤ (digitsPlace value).2 ∧ (digitsPlace value).2 ≤ 8 := by
  obtain h | h | h := digitsPlace_cases value
  · rw [h]
    omega
  · rw [h]
    omega
  · rw [h]
    omega

theorem extractModes_place (value : List UInt8) (addr : CdmaSmsAddress) :
    (C2k.extractModes value addr).2 = digitsPlace value ∧
      (C2k.extractModes value addr).1.digits = addr.digits := by
  unfold C2k.extractModes digitsPlace
  simp only
  split
  · split
    · exact ⟨rfl, rfl⟩
    · exact ⟨rfl, rfl⟩
  · exact ⟨rfl, rfl⟩

theorem extractModes_eq (h : 2 ≤ value.length) (addr : CdmaSmsAddress) :
    extractModes value addr = .ok (C2k.extractModes value addr) := by
  have hfield : ∀ {bit n : Nat}, 0 < n → bit + n ≤ 16 → FieldIn value bit n :=
    fun hn hbit => ⟨hn, by omega, by omega⟩
  rw [extractModes, getuint8_eq (hfield (by omega) (by omega)), ok_bind,
    getuint8_eq (hfield (by omega) (by omega)), ok_bind, C2k.extractModes]
  by_cases hdigit : (C2k.getuint8 value 0 1).toNat = 0
  · rw [if_neg (not_not_intro hdigit), if_neg (not_not_intro hdigit)]
    rfl
  · rw [if_pos hdigit, if_pos hdigit, getuint8_eq (hfield (by omega) (by omega)), ok_bind]
    by_cases hnumber : (C2k.getuint8 value 1 1).toNat = 0
    · rw [if_neg (not_not_intro hnumber), if_neg (not_not_intro hnumber),
        getuint8_eq (hfield (by omega) (by omega))]
      rfl
    · rw [if_pos hnumber, if_pos hnumber]
      rfl

theorem length_asciiNum (digits : List UInt8) (n : Nat) : (asciiNum digits n).length = n := by
  rw [asciiNum, length_map, length_range]

variable {addr : CdmaSmsAddress}

/-- The extracted address, for the digits and their number. -/
theorem extractAddress_run (h : DigitsIn value (digitsPlace value))
    (haddr : addr.digits.length = 36) :
    rilCdmaSmsExtractAddress value addr = .ok (C2k.rilCdmaSmsExtractAddress value addr) ∧
      (C2k.rilCdmaSmsExtractAddress value addr).digits.length = 36 := by
  obtain ⟨hle, hfits⟩ := h
  obtain ⟨hlow, hhigh, hsize, hsize8⟩ := digitsPlace_bounds value
  obtain ⟨hplace, hdigits⟩ := extractModes_place value addr
  have hmodes := extractModes_eq (by omega : 2 ≤ value.length) addr
  rw [rilCdmaSmsExtractAddress, C2k.rilCdmaSmsExtractAddress, hmodes, ok_bind]
  generalize C2k.extractModes value addr = modes at hplace hdigits
  obtain ⟨address, startBit, size⟩ := modes
  rw [← hplace] at hle hfits hlow hhigh hsize hsize8
  simp only at hle hfits hlow hhigh hsize hsize8 ⊢
  have hcount : FieldIn value startBit 8 := ⟨by omega, by omega, by omega⟩
  rw [getuint8_eq hcount, ok_bind]
  generalize C2k.getuint8 value startBit 8 = numberOfDigits at hle hfits
  have hmul : size * numberOfDigits.toNat ≤ 8 * 36 := Nat.mul_le_mul hsize8 hle
  have hlength := length_copyFields value size numberOfDigits.toNat (startBit + 8) 0 address.digits
  rw [copyFields_eq (by omega) hfits (by omega) (by rw [hdigits, haddr]; omega) (by omega), ok_bind]
  generalize C2k.copyFields value size numberOfDigits.toNat (startBit + 8) 0 address.digits = digits
    at hlength ⊢
  rw [hdigits, haddr] at hlength
  have hstore : 0 + (asciiNum digits numberOfDigits.toNat).length ≤ digits.length := by
    rw [length_asciiNum, hlength]
    omega
  by_cases hmode : address.digitMode = 0
  · rw [if_pos hmode, if_pos hmode, storeAt_store hstore, ok_bind]
    exact ⟨rfl, (length_store hstore).trans hlength⟩
  · rw [if_neg hmode, if_neg hmode]
    exact ⟨rfl, hlength⟩

/-- What stands behind an address does not matter. -/
theorem DigitsIn.append_address (h : DigitsIn value (digitsPlace value)) (rest : List UInt8) :
    digitsPlace (value ++ rest) = digitsPlace value ∧
      DigitsIn (value ++ rest) (digitsPlace (value ++ rest)) := by
  obtain ⟨hle, hfits⟩ := h
  obtain ⟨hlow, hhigh, hsize, hsize8⟩ := digitsPlace_bounds value
  have hplace : digitsPlace (value ++ rest) = digitsPlace value := by
    rw [digitsPlace, digitsPlace, getuint8_append rest (by omega) ⟨by omega, by omega, by omega⟩,
      getuint8_append rest (by omega) ⟨by omega, by omega, by omega⟩]
  have hcount := @getuint8_append value rest (digitsPlace value).1 8 (by omega)
    ⟨by omega, by omega, by omega⟩
  refine ⟨hplace, ?_, ?_⟩
  · rw [hplace, hcount]
    exact hle
  · rw [hplace, hcount, length_append]
    omega

theorem extractModes_append (h : 2 ≤ value.length) (rest : List UInt8) :
    C2k.extractModes (value ++ rest) addr = C2k.extractModes value addr := by
  have hfield : ∀ {bit n : Nat}, 0 < n → n ≤ 8 → bit + n ≤ 16 →
      C2k.getuint8 (value ++ rest) bit n = C2k.getuint8 value bit n :=
    fun hn hn8 hbit => getuint8_append rest hn8 ⟨hn, by omega, by omega⟩
  rw [C2k.extractModes, C2k.extractModes, hfield (by omega) (by omega) (by omega),
    hfield (by omega) (by omega) (by omega), hfield (by omega) (by omega) (by omega),
    hfield (by omega) (by omega) (by omega)]

theorem extractAddress_append (h : DigitsIn value (digitsPlace value)) (rest : List UInt8) :
    C2k.rilCdmaSmsExtractAddress (value ++ rest) addr
      = C2k.rilCdmaSmsExtractAddress value addr := by
  obtain ⟨hle, hfits⟩ := h
  obtain ⟨hlow, hhigh, hsize, hsize8⟩ := digitsPlace_bounds value
  obtain ⟨hplace, -⟩ := extractModes_place value addr
  rw [C2k.rilCdmaSmsExtractAddress, C2k.rilCdmaSmsExtractAddress, extractModes_append (by omega)]
  generalize C2k.extractModes value addr = modes at hplace
  obtain ⟨address, startBit, size⟩ := modes
  rw [← hplace] at hle hfits hlow hhigh hsize hsize8
  simp only at hle hfits hlow hhigh hsize hsize8 ⊢
  rw [getuint8_append rest (by omega) ⟨by omega, by omega, by omega⟩]
  have hmul := Nat.mul_le_mul hsize8 hle
  rw [copyFields_append rest (by omega) hsize8 hfits (by omega)]

end Address

/-! ## Subaddresses -/

section Subaddress

variable {value : List UInt8}

/-- The digits that the loop takes from the value. -/
def subaddressDigits (value : List UInt8) (i count : Nat) : List UInt8 :=
  (List.range' i count).map fun i => C2k.getuint8 value (12 + 8 * i) 8

theorem subaddressLoop_eq {count : Nat} {done digits : List UInt8}
    (hvalue : 12 + 8 * (done.length + count) ≤ 8 * value.length) (hcount : done.length + count ≤ 36)
    (hdigits : count ≤ digits.length) :
    subaddressLoop value count done.length (done ++ digits)
      = .ok (done ++ subaddressDigits value done.length count ++ digits.drop count) := by
  induction count generalizing done digits with
  | zero =>
    show Except.ok (done ++ digits) = Except.ok (done ++ [] ++ digits)
    rw [append_nil]
  | succ count ih =>
    obtain ⟨x, digits, rfl⟩ : ∃ x rest, digits = x :: rest := exists_cons_of_length_pos (by omega)
    have hread : FieldIn value (12 + 8 * done.length) 8 := ⟨by omega, by omega, by omega⟩
    have hplace : done.length + 1
        = (done ++ [C2k.getuint8 value (12 + 8 * done.length) 8]).length := by
      rw [length_append]
      rfl
    rw [length_cons] at hdigits
    rw [subaddressLoop, getuint8_eq hread, ok_bind, modifyAt_behind, ok_bind, append_cons, hplace]
    refine (ih ?_ ?_ ?_).trans ?_
    · omega
    · omega
    · omega
    · rw [← hplace, subaddressDigits, subaddressDigits, List.range'_succ, map_cons,
        append_assoc done]
      rfl

variable {addr : CdmaSmsSubaddress}

theorem length_subaddressDigits (value : List UInt8) (i count : Nat) :
    (subaddressDigits value i count).length = count := by
  rw [subaddressDigits, length_map, length_range']

theorem subaddress_digits (value : List UInt8) (addr : CdmaSmsSubaddress) :
    (C2k.rilCdmaSmsExtractSubaddress value addr).digits
      = store addr.digits 0 (subaddressDigits value 0 (C2k.getuint8 value 4 8).toNat) := by
  rw [C2k.rilCdmaSmsExtractSubaddress, subaddressDigits, ← range_eq_range']

theorem extractSubaddress_run (h : DigitsIn value (4, 8)) (haddr : addr.digits.length = 36) :
    rilCdmaSmsExtractSubaddress value addr = .ok (C2k.rilCdmaSmsExtractSubaddress value addr) ∧
      (C2k.rilCdmaSmsExtractSubaddress value addr).digits.length = 36 := by
  obtain ⟨hle, hfits⟩ := h
  simp only at hle hfits
  have hfield : ∀ {bit n : Nat}, 0 < n → bit + n ≤ 12 → FieldIn value bit n :=
    fun hn hbit => ⟨hn, by omega, by omega⟩
  have hloop := @subaddressLoop_eq value (C2k.getuint8 value 4 8).toNat [] addr.digits
    (by rw [length_nil]; omega) (by rw [length_nil]; omega) (by omega)
  have hstored : [] ++ subaddressDigits value 0 (C2k.getuint8 value 4 8).toNat
      ++ addr.digits.drop (C2k.getuint8 value 4 8).toNat
      = (C2k.rilCdmaSmsExtractSubaddress value addr).digits := by
    rw [subaddress_digits, store, length_subaddressDigits, Nat.zero_add]
    rfl
  constructor
  · rw [rilCdmaSmsExtractSubaddress, getuint8_eq (hfield (by omega) (by omega)), ok_bind,
      getuint8_eq (hfield (by omega) (by omega)), ok_bind,
      getuint8_eq (hfield (by omega) (by omega)), ok_bind]
    refine (congrArg (fun r => r >>= _) (hloop.trans (congrArg Except.ok hstored))).trans ?_
    rfl
  · rw [subaddress_digits, length_store, haddr]
    rw [length_subaddressDigits]
    omega

theorem DigitsIn.append_subaddress (h : DigitsIn value (4, 8)) (rest : List UInt8) :
    DigitsIn (value ++ rest) (4, 8) := by
  obtain ⟨hle, hfits⟩ := h
  simp only at hle hfits
  have hcount := @getuint8_append value rest 4 8 (by omega) ⟨by omega, by omega, by omega⟩
  constructor
  · rw [hcount]
    exact hle
  · rw [hcount, length_append]
    omega

theorem extractSubaddress_append (h : DigitsIn value (4, 8)) (rest : List UInt8) :
    C2k.rilCdmaSmsExtractSubaddress (value ++ rest) addr
      = C2k.rilCdmaSmsExtractSubaddress value addr := by
  obtain ⟨hle, hfits⟩ := h
  simp only at hle hfits
  have hfield : ∀ {bit n : Nat}, 0 < n → n ≤ 8 → bit + n ≤ 12 + 8 * (C2k.getuint8 value 4 8).toNat →
      C2k.getuint8 (value ++ rest) bit n = C2k.getuint8 value bit n :=
    fun hn hn8 hbit => getuint8_append rest hn8 ⟨hn, by omega, by omega⟩
  have hdigits : (List.range (C2k.getuint8 value 4 8).toNat).map
      (fun i => C2k.getuint8 (value ++ rest) (12 + 8 * i) 8)
      = (List.range (C2k.getuint8 value 4 8).toNat).map fun i =>
        C2k.getuint8 value (12 + 8 * i) 8 := by
    apply map_congr_left
    intro i hi
    have hlt := mem_range.mp hi
    exact hfield (by omega) (by omega) (by omega)
  rw [C2k.rilCdmaSmsExtractSubaddress, C2k.rilCdmaSmsExtractSubaddress,
    hfield (by omega) (by omega) (by omega), hfield (by omega) (by omega) (by omega),
    hfield (by omega) (by omega) (by omega)]
  simp only [hdigits]

end Subaddress

/-! ## Parameters -/

section Step

variable {t : Tlv} {m : CdmaSmsMessage} {id : UInt8} {paramLen : Nat} {value : List UInt8}

/-- The cases of the `switch`. -/
theorem param_cases (id : UInt8) :
    id = 0 ∨ (id = 2 ∨ id = 4) ∨ (id = 3 ∨ id = 5) ∨ (id = 7 ∨ id = 8) ∨
      (id ≠ 0 ∧ ¬ (id = 2 ∨ id = 4) ∧ ¬ (id = 3 ∨ id = 5) ∧ ¬ (id = 7 ∨ id = 8)) := by
  by_cases htele : id = 0
  · exact .inl htele
  by_cases haddr : id = 2 ∨ id = 4
  · exact .inr (.inl haddr)
  by_cases hsub : id = 3 ∨ id = 5
  · exact .inr (.inr (.inl hsub))
  by_cases hdata : id = 7 ∨ id = 8
  · exact .inr (.inr (.inr (.inl hdata)))
  · exact .inr (.inr (.inr (.inr ⟨htele, haddr, hsub, hdata⟩)))

theorem param_address (h : id = 2 ∨ id = 4) :
    processParam id paramLen value m = (do
      let sAddress ← rilCdmaSmsExtractAddress value m.sAddress
      return { m with sAddress }) := by
  rcases h with rfl | rfl <;> rfl

theorem param_subaddress (h : id = 3 ∨ id = 5) :
    processParam id paramLen value m = (do
      let sSubAddress ← rilCdmaSmsExtractSubaddress value m.sSubAddress
      return { m with sSubAddress }) := by
  rcases h with rfl | rfl <;> rfl

theorem param_bearer (h : id = 7 ∨ id = 8) :
    processParam id paramLen value m = (do
      let data ← sliceAt .bytePdu value 0 paramLen
      let aBearerData ← storeAt .bearerData m.aBearerData 0 data
      return { m with uBearerDataLen := paramLen, aBearerData }) := by
  rcases h with rfl | rfl <;> rfl

theorem param_ignored (htele : id ≠ 0) (haddr : ¬ (id = 2 ∨ id = 4)) (hsub : ¬ (id = 3 ∨ id = 5))
    (hdata : ¬ (id = 7 ∨ id = 8)) :
    C2k.processParam id paramLen value m = m ∧ processParam id paramLen value m = .ok m := by
  simp [C2k.processParam, processParam, htele, haddr, hsub, hdata, pure, Except.pure]

/-- A parameter does the same whatever follows it. -/
theorem processParam_append (h : Fits t) (rest : List UInt8) :
    C2k.processParam t.tag t.value.length (t.value ++ rest) m = paramStep m t := by
  rw [paramStep]
  obtain htag | htag | htag | htag | ⟨htele, haddr, hsub, hdata⟩ := param_cases t.tag
  · rw [htag, C2k.processParam, C2k.processParam, if_pos rfl, if_pos rfl]
    by_cases hlen : t.value.length = 2
    · rw [if_neg (not_not_intro hlen), if_neg (not_not_intro hlen),
        getD_append _ _ _ _ (by omega), getD_append _ _ _ _ (by omega)]
    · rw [if_pos hlen, if_pos hlen]
  · rw [processParam_address htag, processParam_address htag,
      extractAddress_append (h.address htag)]
  · rw [processParam_subaddress htag, processParam_subaddress htag,
      extractSubaddress_append (h.subaddress htag)]
  · rw [processParam_bearer htag, processParam_bearer htag, take_left, take_length]
  · rw [(param_ignored htele haddr hsub hdata).1, (param_ignored htele haddr hsub hdata).1]

/-- Within its bounds the checked `switch` is the plain one, and the arrays keep
their sizes. -/
theorem processParam_run (hm : Sized m) (hlen : paramLen ≤ 255)
    (h : ParamFits id paramLen value) :
    processParam id paramLen value m = .ok (C2k.processParam id paramLen value m) ∧
      Sized (C2k.processParam id paramLen value m) := by
  obtain htag | htag | htag | htag | ⟨htele, haddr, hsub, hdata⟩ := param_cases id
  · rw [htag, processParam, C2k.processParam, if_pos rfl, if_pos rfl]
    by_cases htwo : paramLen = 2
    · have hroom := h.service htag htwo
      rw [if_neg (not_not_intro htwo), if_neg (not_not_intro htwo), readAt_eq (by omega) 0, ok_bind,
        readAt_eq (by omega) 0, ok_bind]
      exact ⟨rfl, hm.digits, hm.subDigits, hm.bearer⟩
    · rw [if_pos htwo, if_pos htwo]
      exact ⟨rfl, hm⟩
  · obtain ⟨hrun, hdigits⟩ := extractAddress_run (h.address htag) hm.digits
    rw [param_address htag, processParam_address htag, hrun, ok_bind]
    exact ⟨rfl, hdigits, hm.subDigits, hm.bearer⟩
  · obtain ⟨hrun, hdigits⟩ := extractSubaddress_run (h.subaddress htag) hm.subDigits
    rw [param_subaddress htag, processParam_subaddress htag, hrun, ok_bind]
    exact ⟨rfl, hm.digits, hdigits, hm.bearer⟩
  · have hroom := h.bearer htag
    have hstore : 0 + (value.take paramLen).length ≤ m.aBearerData.length := by
      rw [length_take, hm.bearer]
      omega
    rw [param_bearer htag, processParam_bearer htag, sliceAt_eq (by omega), ok_bind, drop_zero,
      storeAt_store hstore, ok_bind]
    exact ⟨rfl, hm.digits, hm.subDigits, (length_store hstore).trans hm.bearer⟩
  · rw [(param_ignored htele haddr hsub hdata).1, (param_ignored htele haddr hsub hdata).2]
    exact ⟨rfl, hm⟩

/-- A parameter of a row has what its identifier asks for. -/
theorem Fits.paramFits (h : Fits t) (rest : List UInt8) :
    ParamFits t.tag t.value.length (t.value ++ rest) where
  service _ hlen := by
    rw [length_append]
    omega
  address htag := ((h.address htag).append_address rest).2
  subaddress htag := (h.subaddress htag).append_subaddress rest
  bearer _ := by
    rw [length_append]
    omega

/-- The decoder reads a parameter that fits, whatever follows it. -/
theorem Fits.run (h : Fits t) (hm : Sized m) (rest : List UInt8) :
    processParam t.tag t.value.length (t.value ++ rest) m = .ok (paramStep m t) ∧
      Sized (paramStep m t) := by
  rw [← processParam_append h rest]
  exact processParam_run hm (Nat.le_of_lt_succ t.short) (h.paramFits rest)

end Step

/-! ## The loop -/

section Loop

variable {ts : List Tlv} {m : CdmaSmsMessage}

/-- The loop of the value model is a fold over the parameters. -/
theorem applyParams_fold (hfits : ∀ t ∈ ts, Fits t) (tail : List UInt8) :
    applyParams tail ts m = ts.foldl paramStep m := by
  induction ts generalizing m with
  | nil => rfl
  | cons t ts ih =>
    rw [applyParams, processParam_append (hfits t mem_cons_self), foldl_cons]
    exact ih fun u hu => hfits u (mem_cons_of_mem _ hu)

/-- So is the checked loop, and the index does not overflow. -/
theorem checkedParams_fold (hfits : ∀ t ∈ ts, Fits t) (hm : Sized m) {length : Nat}
    (hlength16 : length < 65536) (pre : List UInt8) (hlength : length = (pre ++ tlvBytes ts).length)
    (fuel : Nat) :
    processParams (pre ++ tlvBytes ts) length (fuel + ts.length) (pre.length, m)
      = .ok (length, ts.foldl paramStep m) := by
  induction ts generalizing pre m with
  | nil =>
    have hend : pre.length = length := by
      rw [hlength]
      show pre.length = (pre ++ []).length
      rw [append_nil]
    rw [hend]
    cases fuel with
    | zero => rfl
    | succ fuel => exact if_neg (Nat.lt_irrefl _)
  | cons t ts ih =>
    have hfit := hfits t mem_cons_self
    have hbytes : pre ++ tlvBytes (t :: ts) = (pre ++ t.bytes) ++ tlvBytes ts := by
      rw [tlvBytes_cons, append_assoc]
    have hsum : length = pre.length + (t.value.length + 2) + (tlvBytes ts).length := by
      rw [hlength, hbytes, length_append, length_append, t.length_bytes]
    have hid : readAt SmsArray.bytePdu (pre ++ tlvBytes (t :: ts)) pre.length = .ok t.tag :=
      readAt_behind _ _ _
    have hlen : readAt SmsArray.bytePdu (pre ++ tlvBytes (t :: ts)) (pre.length + 1)
        = .ok t.lengthByte := readAt_second _ _ _ _
    have hdrop : (pre ++ tlvBytes (t :: ts)).drop (pre.length + 2) = t.value ++ tlvBytes ts := by
      rw [drop_length_add_append]
      rfl
    have hplace : pre.length + 2 + t.value.length = (pre ++ t.bytes).length := by
      rw [length_append, t.length_bytes]
      omega
    rw [length_cons, ← Nat.add_assoc, processParams, if_pos (by dsimp only; omega), hid, ok_bind]
    simp only [Nat.mod_eq_of_lt (show pre.length + 1 < 65536 by omega), hlen, ok_bind,
      Nat.mod_eq_of_lt (show pre.length + 1 + 1 < 65536 by omega), t.toNat_lengthByte]
    obtain ⟨hrun, hsized⟩ := hfit.run hm (tlvBytes ts)
    rw [hdrop, hrun, pointer_ok, ok_bind,
      Nat.mod_eq_of_lt (show pre.length + 1 + 1 + t.value.length < 65536 by omega), hplace, hbytes,
      foldl_cons]
    exact ih (fun u hu => hfits u (mem_cons_of_mem _ hu)) hsized _ (by rw [hlength, hbytes])

/-- Both decoders, for a message type and a row of parameters. -/
theorem process_fold (hfits : ∀ t ∈ ts, Fits t) (hm : Sized m) (msgType : UInt8)
    (hn : (msgType :: tlvBytes ts).length < 65536) :
    processCdmaIncomingSms (msgType :: tlvBytes ts) m = .ok (ts.foldl paramStep m) ∧
      C2k.processCdmaIncomingSms (msgType :: tlvBytes ts) (msgType :: tlvBytes ts).length m
        = ts.foldl paramStep m := by
  have hcount := length_le_tlvBytes ts
  constructor
  · have hrun := checkedParams_fold hfits hm hn [msgType] rfl ((tlvBytes ts).length + 1 - ts.length)
    rw [Nat.sub_add_cancel (by omega)] at hrun
    change (processParams _ _ _ _ >>= _) = _
    refine (congrArg (· >>= _) hrun).trans ?_
    exact if_neg (Nat.lt_irrefl _)
  · have hrun := processCdmaIncomingSms_eq msgType ts [] m
    rw [append_nil, applyParams_fold hfits] at hrun
    exact hrun

end Loop

/-! ## Any bytes -/

/-- Where the loop looks for a parameter: the lengths lead from one to the next,
with 16 bits. -/
inductive ParamAt (bytePdu : List UInt8) : Nat → Prop
  | first : ParamAt bytePdu 1
  | next {i : Nat} (h : ParamAt bytePdu i) (hi : i < bytePdu.length) :
    ParamAt bytePdu ((i + 2 + (bytePdu.getD (i + 1) 0).toNat) % 65536)

/-- The parameter at `i` has a length and what its identifier asks for. -/
def ParamInside (bytePdu : List UInt8) (i : Nat) : Prop :=
  i + 1 < bytePdu.length ∧
    ParamFits (bytePdu.getD i 0) (bytePdu.getD (i + 1) 0).toNat (bytePdu.drop (i + 2))

section AnyBytes

variable {value bytePdu : List UInt8} {m : CdmaSmsMessage} {id : UInt8} {paramLen i : Nat}

theorem extractModes_ok {addr : CdmaSmsAddress} {modes : CdmaSmsAddress × Nat × Nat}
    (h : extractModes value addr = .ok modes) : modes = C2k.extractModes value addr := by
  unfold extractModes at h
  obtain ⟨digitMode, hdigit, h⟩ := bind_ok h
  obtain ⟨numberMode, hnumber, h⟩ := bind_ok h
  obtain rfl := (getuint8_ok (by omega) (by omega) (by omega) hdigit).2
  obtain rfl := (getuint8_ok (by omega) (by omega) (by omega) hnumber).2
  unfold C2k.extractModes
  dsimp only at h ⊢
  by_cases hdigit : (C2k.getuint8 value 0 1).toNat = 0
  · rw [if_neg (not_not_intro hdigit)] at h ⊢
    exact (Except.ok.inj h).symm
  rw [if_pos hdigit] at h ⊢
  obtain ⟨numberType, htype, h⟩ := bind_ok h
  obtain rfl := (getuint8_ok (by omega) (by omega) (by omega) htype).2
  by_cases hnumber : (C2k.getuint8 value 1 1).toNat = 0
  · rw [if_neg (not_not_intro hnumber)] at h ⊢
    obtain ⟨numberPlan, hplan, h⟩ := bind_ok h
    obtain rfl := (getuint8_ok (by omega) (by omega) (by omega) hplan).2
    exact (Except.ok.inj h).symm
  · rw [if_pos hnumber] at h ⊢
    exact (Except.ok.inj h).symm

/-- Digits of four bits are those that are converted. -/
theorem extractModes_size (value : List UInt8) (addr : CdmaSmsAddress) :
    (C2k.extractModes value addr).1.digitMode = 0 ∨ (C2k.extractModes value addr).2.2 = 8 := by
  unfold C2k.extractModes
  by_cases hdigit : (C2k.getuint8 value 0 1).toNat = 0
  · rw [if_neg (not_not_intro hdigit)]
    exact .inl hdigit
  · rw [if_pos hdigit]
    dsimp only
    split
    · exact .inr rfl
    · exact .inr rfl

/-- An address that has been extracted was inside. -/
theorem extractAddress_ok {addr addr' : CdmaSmsAddress} (haddr : addr.digits.length = 36)
    (h : rilCdmaSmsExtractAddress value addr = .ok addr') : DigitsIn value (digitsPlace value) := by
  obtain ⟨modes, hmodes, h⟩ := bind_ok h
  obtain ⟨numberOfDigits, hcount, h⟩ := bind_ok h
  obtain ⟨digits, hcopy, h⟩ := bind_ok h
  obtain ⟨hplace, hdigits⟩ := extractModes_place value addr
  obtain ⟨hlow, hhigh, hsize, hsize8⟩ := digitsPlace_bounds value
  have hmode := extractModes_size value addr
  rw [extractModes_ok hmodes] at hcount hcopy h
  generalize C2k.extractModes value addr = modes at *
  rw [hplace] at hcount hcopy hmode
  rw [hdigits] at hcopy
  obtain ⟨⟨-, hin, -⟩, rfl⟩ := getuint8_ok (by omega) (by omega) (by omega) hcount
  obtain ⟨hfits, hput, hlength⟩ :=
    copyFields_ok (by omega) hsize8 haddr (by omega) (by omega) hin hcopy
  refine ⟨?_, hfits⟩
  obtain hmode | hmode := hmode
  · rw [if_pos hmode] at h
    obtain ⟨stored, hstore, -⟩ := bind_ok h
    have hle := storeAt_ok hstore
    rw [length_asciiNum, hlength] at hle
    omega
  · rw [hmode] at hput
    omega

theorem subaddressLoop_ok {count : Nat} {digits digits' : List UInt8} (hdigits : digits.length = 36)
    (hi : i ≤ 36) (hvalue : 12 + 8 * i ≤ 8 * value.length)
    (h : subaddressLoop value count i digits = .ok digits') :
    12 + 8 * (i + count) ≤ 8 * value.length ∧ i + count ≤ 36 := by
  induction count generalizing i digits with
  | zero => exact ⟨hvalue, hi⟩
  | succ count ih =>
    obtain ⟨byte, hread, h⟩ := bind_ok h
    obtain ⟨next, hwrite, h⟩ := bind_ok h
    obtain ⟨⟨-, hreadIn, -⟩, -⟩ := getuint8_ok (by omega) (by omega) (by omega) hread
    obtain ⟨hlt, hlength⟩ := modifyAt_ok hwrite
    obtain ⟨hsrc, hdst⟩ := ih (hlength.trans hdigits) (by omega) (by omega) h
    exact ⟨by omega, by omega⟩

theorem extractSubaddress_ok {addr addr' : CdmaSmsSubaddress} (haddr : addr.digits.length = 36)
    (h : rilCdmaSmsExtractSubaddress value addr = .ok addr') : DigitsIn value (4, 8) := by
  obtain ⟨subaddressType, -, h⟩ := bind_ok h
  obtain ⟨odd, -, h⟩ := bind_ok h
  obtain ⟨numberOfDigits, hcount, h⟩ := bind_ok h
  obtain ⟨digits, hloop, -⟩ := bind_ok h
  obtain ⟨⟨-, hin, -⟩, rfl⟩ := getuint8_ok (by omega) (by omega) (by omega) hcount
  obtain ⟨hvalue, hle⟩ := subaddressLoop_ok haddr (by omega) (by omega) hloop
  rw [Nat.zero_add] at hvalue hle
  exact ⟨hle, by dsimp only; omega⟩

/-- What was read without a fault fits. -/
theorem processParam_ok (hm : Sized m) {m' : CdmaSmsMessage}
    (h : processParam id paramLen value m = .ok m') : ParamFits id paramLen value := by
  constructor
  · rintro rfl rfl
    obtain ⟨high, -, h⟩ := bind_ok (show (readAt SmsArray.bytePdu value 0 >>= _) = _ from h)
    obtain ⟨low, hlow, -⟩ := bind_ok h
    exact (List.getElem?_eq_some_iff.mp (readAt_ok hlow)).1
  · intro hid
    rw [param_address hid] at h
    obtain ⟨sAddress, haddress, -⟩ := bind_ok h
    exact extractAddress_ok hm.digits haddress
  · intro hid
    rw [param_subaddress hid] at h
    obtain ⟨sSubAddress, haddress, -⟩ := bind_ok h
    exact extractSubaddress_ok hm.subDigits haddress
  · intro hid
    rw [param_bearer hid] at h
    obtain ⟨data, hslice, -⟩ := bind_ok h
    have hlength := (sliceAt_ok hslice).1
    omega

/-- A round of the loop. -/
theorem processParams_succ (hn : bytePdu.length < 65536) (hi : i + 1 < bytePdu.length)
    (steps : Nat) :
    processParams bytePdu bytePdu.length (steps + 1) (i, m) = (do
      let m ← pointer .bytePdu (i + 2) (processParam (bytePdu.getD i 0)
        (bytePdu.getD (i + 1) 0).toNat (bytePdu.drop (i + 2)) m)
      processParams bytePdu bytePdu.length steps
        ((i + 2 + (bytePdu.getD (i + 1) 0).toNat) % 65536, m)) := by
  rw [processParams, if_pos (by dsimp only; omega)]
  simp only [Nat.mod_eq_of_lt (show i + 1 < 65536 by omega),
    Nat.mod_eq_of_lt (show i + 1 + 1 < 65536 by omega),
    readAt_eq (show i < bytePdu.length by omega) 0, readAt_eq hi 0, ok_bind]

/-- A parameter that fits leads to the next place. -/
theorem processParams_inside (hn : bytePdu.length < 65536) (hm : Sized m)
    (h : ParamInside bytePdu i) :
    ∃ m', Sized m' ∧ ∀ steps, processParams bytePdu bytePdu.length (steps + 1) (i, m)
      = processParams bytePdu bytePdu.length steps
        ((i + 2 + (bytePdu.getD (i + 1) 0).toNat) % 65536, m') := by
  have hlen : (bytePdu.getD (i + 1) 0).toNat ≤ 255 := Nat.le_of_lt_succ (UInt8.toNat_lt _)
  obtain ⟨hrun, hm'⟩ := processParam_run hm hlen h.2
  refine ⟨_, hm', fun steps => ?_⟩
  rw [processParams_succ hn h.1, hrun, pointer_ok, ok_bind]

/-- And one that is taken fits. -/
theorem inside_of_processParams (hn : bytePdu.length < 65536) (hm : Sized m)
    (hi : i < bytePdu.length) {r : Nat × CdmaSmsMessage}
    (h : processParams bytePdu bytePdu.length 1 (i, m) = .ok r) : ParamInside bytePdu i := by
  have hlength : i + 1 < bytePdu.length := by
    rw [processParams, if_pos hi] at h
    obtain ⟨paramId, -, h⟩ := bind_ok h
    obtain ⟨paramLen, hlen, -⟩ := bind_ok h
    have hlt := (List.getElem?_eq_some_iff.mp (readAt_ok hlen)).1
    dsimp only at hlt
    omega
  refine ⟨hlength, ?_⟩
  rw [processParams_succ hn hlength] at h
  obtain ⟨m', hm', -⟩ := bind_ok h
  refine processParam_ok hm (?_ : _ = Except.ok m')
  cases hrun : processParam (bytePdu.getD i 0) (bytePdu.getD (i + 1) 0).toNat
      (bytePdu.drop (i + 2)) m with
  | error fault =>
    rw [hrun] at hm'
    cases hm'
  | ok m'' =>
    rw [hrun] at hm'
    exact hm'

/-- The loop from a place where it gets. -/
theorem processParams_run (hn : bytePdu.length < 65536)
    (hinside : ∀ i, ParamAt bytePdu i → i < bytePdu.length → ParamInside bytePdu i) (hm : Sized m)
    (hi : ParamAt bytePdu i) (steps : Nat) :
    ∃ r, processParams bytePdu bytePdu.length steps (i, m) = .ok r := by
  induction steps generalizing i m with
  | zero => exact ⟨_, rfl⟩
  | succ steps ih =>
    by_cases hlt : i < bytePdu.length
    · obtain ⟨m', hm', hrun⟩ := processParams_inside hn hm (hinside i hi hlt)
      rw [hrun]
      exact ih hm' (hi.next hlt)
    · rw [processParams, if_neg hlt]
      exact ⟨_, rfl⟩

/-- It gets to every such place if it has no fault. -/
theorem paramAt_reached (hn : bytePdu.length < 65536) (hm : Sized m)
    (hok : ∀ steps, ∃ r, processParams bytePdu bytePdu.length steps (1, m) = .ok r)
    (hi : ParamAt bytePdu i) :
    ∃ rounds m', Sized m' ∧ ∀ steps, processParams bytePdu bytePdu.length (steps + rounds) (1, m)
      = processParams bytePdu bytePdu.length steps (i, m') := by
  induction hi with
  | first => exact ⟨0, m, hm, fun _ => rfl⟩
  | next _ hlt ih =>
    obtain ⟨rounds, m', hm', hrun⟩ := ih
    obtain ⟨r, hr⟩ := hok (1 + rounds)
    rw [hrun] at hr
    obtain ⟨m'', hm'', hnext⟩ := processParams_inside hn hm' (inside_of_processParams hn hm' hlt hr)
    refine ⟨1 + rounds, m'', hm'', fun steps => ?_⟩
    rw [← Nat.add_assoc, hrun, hnext]

end AnyBytes

/-- **The decoder stays inside.** Whatever the bytes and the number of rounds, no
read is outside of the PDU and no write outside of the arrays of the message,
exactly if each parameter fits where the loop looks for it. -/
theorem decoder_in_bounds (bytePdu : List UInt8) (hn : bytePdu.length < 65536) (m : CdmaSmsMessage)
    (hm : Sized m) :
    (∀ steps, ∃ r, processFor steps bytePdu m = .ok r) ↔
      bytePdu ≠ [] ∧ ∀ i, ParamAt bytePdu i → i < bytePdu.length → ParamInside bytePdu i := by
  unfold processFor
  cases bytePdu with
  | nil =>
    constructor
    · intro hok
      obtain ⟨r, hr⟩ := hok 0
      cases hr
    · intro h
      exact absurd rfl h.1
  | cons msgType rest =>
    have hfirst : readAt SmsArray.bytePdu (msgType :: rest) 0 = .ok msgType := rfl
    simp only [hfirst, ok_bind]
    constructor
    · intro hok
      refine ⟨cons_ne_nil _ _, fun i hi hlt => ?_⟩
      obtain ⟨rounds, m', hm', hrun⟩ := paramAt_reached hn hm hok hi
      obtain ⟨r, hr⟩ := hok (1 + rounds)
      exact inside_of_processParams hn hm' hlt ((hrun 1).symm.trans hr)
    · intro h steps
      exact processParams_run hn h.2 hm .first steps

/-- A message with empty arrays. -/
def emptySms : CdmaSmsMessage where
  uTeleserviceId := 0
  sAddress :=
    { digitMode := 0, numberMode := 0, numberType := 0, numberPlan := 0, numberOfDigits := 0,
      digits := replicate 36 0 }
  sSubAddress :=
    { subaddressType := 0, odd := 0, numberOfDigits := 0, digits := replicate 36 0 }
  uBearerDataLen := 0
  aBearerData := replicate 255 0

theorem emptySms_sized : Sized emptySms where
  digits := length_replicate
  subDigits := length_replicate
  bearer := length_replicate

theorem fits_of_ne {t : Tlv} (haddr : ¬ (t.tag = 2 ∨ t.tag = 4))
    (hsub : ¬ (t.tag = 3 ∨ t.tag = 5)) :
    Fits t where
  address := fun h => absurd h haddr
  subaddress := fun h => absurd h hsub

/-- An unknown parameter may be cut. -/
theorem decoder_in_bounds_cut :
    Sized emptySms ∧ ∀ steps, ∃ r, processFor steps [0, 6, 5] emptySms = .ok r := by
  refine ⟨emptySms_sized, (decoder_in_bounds [0, 6, 5] (by decide) emptySms emptySms_sized).mpr
    ⟨cons_ne_nil _ _, ?_⟩⟩
  have hplaces : ∀ i, ParamAt [0, 6, 5] i → i = 1 ∨ 3 ≤ i := by
    intro i hi
    induction hi with
    | first => exact .inl rfl
    | next _ hi ih =>
      obtain rfl | hle := ih
      · exact .inr (by decide)
      · exact absurd hi (Nat.not_lt.mpr hle)
  intro i hi hlt
  obtain rfl | hle := hplaces i hi
  · refine ⟨by decide, by decide, ?_, ?_, by decide⟩
    · intro hid
      exact absurd hid (by decide)
    · intro hid
      exact absurd hid (by decide)
  · exact absurd hlt (Nat.not_lt.mpr hle)

/-- An address with 37 digits of 8 bits, all of them inside the parameter: digit
mode 1, then the number mode, the type, the plan and the number of digits. -/
def longAddress : List UInt8 := [0, 2, 40, 0x80, 0x12, 0x80] ++ replicate 37 0x98

/-- The last digit is written behind the array. -/
theorem longAddress_outside :
    processFor 1 longAddress emptySms = .error (.outside .digits 36) := by
  decide +kernel

theorem decoder_overflows :
    ¬ ∀ (bytePdu : List UInt8) (m : CdmaSmsMessage), bytePdu.length < 65536 → Sized m →
      ∀ steps, ∃ r, processFor steps bytePdu m = .ok r := by
  intro hall
  obtain ⟨r, hr⟩ := hall longAddress emptySms (by decide) emptySms_sized 1
  rw [longAddress_outside] at hr
  cases hr

end Arale.C2k.Checked
