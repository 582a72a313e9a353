import Arale.Lib.Tlv
import Arale.C2k.Sms

/-!
# What is sent is what is received

The PDU is taken apart in the order in which it was put together.
`bit_makeAddress` says what every bit of the encoded address is, and
`encodeBytes_eq` what the bytes around it are. The loop of the decoder takes one
parameter after the other (`processParams_eq`), and there are four of them.
-/

namespace Arale.C2k

open Arale.Lib List

/-! ## The address as it is written -/

section Address

variable {addr : CdmaSmsAddress} {data : List UInt8}

theorem numBytes_eq (n : Nat) : numBytes n = (n + 7) / 8 := by
  rw [numBytes]
  split <;> omega

theorem length_makeAddress (addr : CdmaSmsAddress) (data : List UInt8) :
    (makeAddress addr true data).1.length = data.length := by
  simp only [makeAddress, makeAddressModes]
  split <;> split <;> (try split) <;> simp only [length_putuint8, length_copyFields]

/-- The fields of an address with four bits for a digit. -/
def addressFields (addr : CdmaSmsAddress) (data : List UInt8) : List UInt8 :=
  putuint8 (putuint8 (putuint8 (putuint8 data 0 8 4) 16 1 0) 17 1 (UInt8.ofNat addr.numberMode))
    18 8 addr.numberOfDigits

theorem length_addressFields : (addressFields addr data).length = data.length := by
  simp only [addressFields, length_putuint8]

theorem bit_addressFields (hdata : 24 ≤ data.length) (i : Nat) :
    bit (addressFields addr data) i
      = if 18 ≤ i ∧ i < 26 then byteBit addr.numberOfDigits (i - 18)
        else if i = 17 then byteBit (UInt8.ofNat addr.numberMode) 7
        else if i = 16 then false
        else if i < 8 then byteBit 4 i
        else bit data i := by
  rw [addressFields, bit_putuint8 _ (by decide) (by decide) (by simp only [length_putuint8]; omega)
      (by decide),
    bit_putuint8 _ (by decide) (by decide) (by simp only [length_putuint8]; omega) (by decide),
    bit_putuint8 _ (by decide) (by decide) (by simp only [length_putuint8]; omega) (by decide),
    bit_putuint8 _ (by decide) (by decide) (by omega) (by decide)]
  by_cases hcount : 18 ≤ i ∧ i < 26
  · rw [if_pos hcount, if_pos hcount, Nat.sub_self, Nat.zero_add]
  · rw [if_neg hcount, if_neg hcount]
    by_cases hnumber : i = 17
    · subst hnumber
      rfl
    · rw [if_neg (by omega), if_neg hnumber]
      by_cases hdigit : i = 16
      · subst hdigit
        rfl
      · rw [if_neg (by omega), if_neg hdigit]
        simp

/-- The number of bytes of an address with `n` digits. -/
def addressLength (n : Nat) : Nat := (33 + 4 * n) / 8

/-! An address with four bits for a digit and at most 36 digits. -/

variable {n : Nat} (hmode : addr.digitMode = 0) (hcount : addr.numberOfDigits.toNat = n)
  (hn : n ≤ 36)
include hmode hcount hn

theorem makeAddress_length : (makeAddress addr true data).2 = addressLength n := by
  simp only [makeAddress, makeAddressModes, hmode, ne_eq, not_true, if_false, numBytes_eq, hcount,
    addressLength]
  omega

theorem makeAddress_eq :
    (makeAddress addr true data).1
      = putuint8 (putuint8 (copyFields addr.digits 4 n 0 26 (addressFields addr data)) (26 + 4 * n)
          (8 * addressLength n - (26 + 4 * n)) 0)
        8 8 (UInt8.ofNat (addressLength n) - 2) := by
  have htotal : numBytes (26 + 4 * n) % 256 = addressLength n := by
    rw [numBytes_eq, addressLength]
    omega
  have hpad : (addressLength n * 8 + 65536 - (26 + 4 * n)) % 256
      = 8 * addressLength n - (26 + 4 * n) := by
    rw [addressLength]
    omega
  have hpos : 8 * addressLength n - (26 + 4 * n) ≠ 0 := by
    rw [addressLength]
    omega
  simp only [makeAddress, makeAddressModes, hmode, ne_eq, not_true, if_false, if_true,
    hcount, htotal, hpad, hpos, not_false_eq_true]
  rfl

variable (hdata : 24 ≤ data.length)
include hdata

theorem bit_makeAddress (i : Nat) :
    bit (makeAddress addr true data).1 i
      = if 8 ≤ i ∧ i < 16 then byteBit (UInt8.ofNat (addressLength n) - 2) (i - 8)
        else if 26 + 4 * n ≤ i ∧ i < 8 * addressLength n then false
        else if 26 ≤ i ∧ i < 26 + 4 * n then bit addr.digits (i - 26)
        else bit (addressFields addr data) i := by
  have hend : 26 + 4 * n + (8 * addressLength n - (26 + 4 * n)) = 8 * addressLength n
      ∧ 26 + 4 * n < 8 * addressLength n ∧ 8 * addressLength n < 26 + 4 * n + 8 := by
    rw [addressLength]
    omega
  rw [makeAddress_eq hmode hcount hn, bit_putuint8 _ (by decide) (by decide)
      (by simp only [length_putuint8, length_copyFields, length_addressFields]; omega) (by decide),
    bit_putuint8 _ (by omega) (by omega)
      (by simp only [length_copyFields, length_addressFields]; omega) (by omega),
    bit_copyFields _ (by decide) (by decide) _ _ _ _ (by rw [length_addressFields]; omega)
    (by omega)
      (by omega)]
  by_cases hlength : 8 ≤ i ∧ i < 16
  · rw [if_pos hlength, if_pos hlength, Nat.sub_self, Nat.zero_add]
  · rw [if_neg hlength, if_neg hlength, byteBit_zero, hend.1, Nat.zero_add]

theorem bit_makeAddress_field {i : Nat} (hlow : 16 ≤ i) (hhigh : i < 26) :
    bit (makeAddress addr true data).1 i = bit (addressFields addr data) i := by
  rw [bit_makeAddress hmode hcount hn hdata, if_neg (by omega), if_neg (by omega),
    if_neg (by omega)]

theorem bit_makeAddress_digit {j : Nat} (hj : j < 4 * n) :
    bit (makeAddress addr true data).1 (26 + j) = bit addr.digits j := by
  rw [bit_makeAddress hmode hcount hn hdata, if_neg (by omega), if_neg (by omega),
    if_pos (by omega), Nat.add_sub_cancel_left]

end Address

/-! ## The address as it is read -/

/-- A digit of packed digits is a field of four bits. -/
theorem dtmfDigit_eq (digits : List UInt8) {k : Nat} (hk : k < 512) :
    dtmfDigit digits k = getuint8 digits (4 * k) 4 := by
  refine eq_of_byteBit fun j hj => ?_
  rw [byteBit_getuint8 digits (by decide) (by omega) hj, dtmfDigit, bit]
  have hlow : byteBit 0x0f j = decide (4 ≤ j) := by
    have hall : ∀ j : Fin 8, byteBit 0x0f j = decide (4 ≤ j.val) := by decide
    exact hall ⟨j, hj⟩
  by_cases hfield : 4 ≤ j
  · have hdiv : (4 * k + (j - 4)) / 8 = k / 2 := by omega
    split
    · have hmod : (4 * k + (j - 4)) % 8 = j - 4 := by omega
      rw [byteBit_shiftRight, hdiv, hmod]
      simp [hj, hfield]
    · have hmod : (4 * k + (j - 4)) % 8 = j := by omega
      rw [byteBit_and, hlow, hdiv, hmod]
      simp [hfield]
  · split
    · simp [hfield]
    · rw [byteBit_and, hlow]
      simp [hfield]

/-- The bits of a digit among packed digits. -/
theorem bit_dtmf {digits : List UInt8} (hdigits : ∀ i, (digits.getD i 0).toNat < 16) {n k j : Nat}
    (hk : k < n) (hj : j < 4) :
    bit (dtmf digits n) (4 * k + j) = byteBit (digits.getD k 0) (4 + j) := by
  have hdiv : (4 * k + j) / 8 = k / 2 := by omega
  have hbyte : (dtmf digits n).getD (k / 2) 0
      = shiftLeft (digits.getD (2 * (k / 2)) 0) 4 ||| digits.getD (2 * (k / 2) + 1) 0 := by
    have hrange : k / 2 < n / 2 + n % 2 := by omega
    rw [dtmf, getD_eq_getElem?_getD, List.getElem?_map, List.getElem?_range hrange]
    rfl
  rw [bit, hdiv, hbyte, byteBit_or, byteBit_shiftLeft]
  by_cases heven : k % 2 = 0
  · have hmod : (4 * k + j) % 8 = j := by omega
    have hfirst : 2 * (k / 2) = k := by omega
    rw [hmod, hfirst, byteBit_of_toNat_lt (m := 4) (hdigits (k + 1)) (by omega), Bool.or_false,
      Nat.add_comm]
  · have hmod : (4 * k + j) % 8 = 4 + j := by omega
    have hsecond : 2 * (k / 2) + 1 = k := by omega
    rw [hmod, hsecond, byteBit_of_le _ (by omega), Bool.false_or]

/-- The characters of the packed digits are those of the digits. -/
theorem asciiNum_dtmf {digits : List UInt8} (hdigits : ∀ i, (digits.getD i 0).toNat < 16) {n : Nat}
    (hn : n ≤ digits.length) (hn512 : n ≤ 512) (rest : List UInt8) :
    asciiNum (dtmf digits n ++ rest) n = (digits.take n).map rilNumDtmfToChar := by
  have hdigit : ∀ k < n, dtmfDigit (dtmf digits n ++ rest) k = digits.getD k 0 := by
    intro k hk
    rw [dtmfDigit_eq _ (by omega)]
    refine getuint8_eq (by decide) (by omega) ?_ fun j hj => ?_
    · intro i hi
      exact byteBit_of_toNat_lt (m := 4) (hdigits k) (by omega)
    · have hlen : (dtmf digits n).length = n / 2 + n % 2 := by simp [dtmf]
      rw [bit_append_left (by omega), bit_dtmf hdigits hk hj]
  refine ext_getElem (by simp [asciiNum, hn]) fun k hk _ => ?_
  have hkn : k < n := by simpa [asciiNum] using hk
  simp only [asciiNum, getElem_map, getElem_range, getElem_take, hdigit k hkn]
  rw [getD_eq_getElem _ _ (by omega)]

section Extract

variable {addr out : CdmaSmsAddress} {data value : List UInt8}

/-- The address is read from an array that holds it. -/
theorem extract_makeAddress {n : Nat} (hmode : addr.digitMode = 0)
    (hcount : addr.numberOfDigits.toNat = n) (hn : n ≤ 36) (hdata : 24 ≤ data.length)
    (hnumber : addr.numberMode < 2) (hout : out.digits.length = 36)
    (hbits : ∀ j < 10 + 4 * n, bit value j = bit (makeAddress addr true data).1 (16 + j)) :
    rilCdmaSmsExtractAddress value out
      = { out with
          digitMode := 1
          numberMode := addr.numberMode
          numberOfDigits := addr.numberOfDigits
          digits := store (copyFields value 4 n 10 0 out.digits) 0 (asciiNum addr.digits n) } := by
  have hfield : ∀ j < 10, bit value j = bit (addressFields addr data) (16 + j) := by
    intro j hj
    rw [hbits j (by omega), bit_makeAddress_field hmode hcount hn hdata (by omega) (by omega)]
  have hdigitMode : getuint8 value 0 1 = 0 := by
    refine getuint8_eq (by decide) (by decide) (fun _ _ => byteBit_zero _) fun j hj => ?_
    obtain rfl : j = 0 := by omega
    rw [hfield _ (by decide), bit_addressFields hdata, byteBit_zero]
    rfl
  have hnumberMode : getuint8 value 1 1 = UInt8.ofNat addr.numberMode := by
    refine getuint8_eq (by decide) (by decide) (fun k hk => ?_) fun j hj => ?_
    · refine byteBit_of_toNat_lt (m := 1) ?_ (by omega)
      rw [UInt8.toNat_ofNat']
      omega
    · obtain rfl : j = 0 := by omega
      rw [hfield _ (by decide), bit_addressFields hdata]
      rfl
  have hnumberOf : getuint8 value 2 8 = addr.numberOfDigits := by
    refine getuint8_eq (by decide) (by decide) (fun k hk => by omega) fun j hj => ?_
    have hpos : 16 + (2 + j) - 18 = 8 - 8 + j := by omega
    rw [hfield _ (by omega), bit_addressFields hdata, if_pos (by omega), hpos]
  have hascii : asciiNum (copyFields value 4 n 10 0 out.digits) n = asciiNum addr.digits n := by
    refine map_congr_left fun k hk => ?_
    have hk : k < n := mem_range.mp hk
    rw [dtmfDigit_eq _ (by omega), dtmfDigit_eq _ (by omega)]
    refine congrArg _ (getuint8_congr (by decide) (by omega) (by omega) fun j hj => ?_)
    rw [bit_copyFields value (by decide) (by decide) _ _ _ _ (by omega) (by omega) (by omega),
      if_pos (by omega), hbits _ (by omega), Nat.sub_zero, ← Nat.add_assoc,
      bit_makeAddress_digit hmode hcount hn hdata (by omega)]
  have hmodes : extractModes value out
      = ({ out with digitMode := 0, numberMode := addr.numberMode }, 2, 4) := by
    have hnumberNat : (UInt8.ofNat addr.numberMode).toNat = addr.numberMode := by
      rw [UInt8.toNat_ofNat']
      omega
    simp [extractModes, hdigitMode, hnumberMode, hnumberNat]
  rw [rilCdmaSmsExtractAddress, hmodes]
  simp only [hnumberOf, hcount, hascii, if_true]

end Extract

/-! ## The bytes of the PDU -/

variable {data bytes : List UInt8} {offset : Nat}

theorem take_store {stop : Nat} (h : offset ≤ data.length) (hstop : stop = offset + bytes.length) :
    (store data offset bytes).take stop = data.take offset ++ bytes := by
  have hlen : (data.take offset ++ bytes).length = stop := by
    rw [length_append, length_take, Nat.min_eq_left h, hstop]
  rw [store, ← hlen, take_left]

theorem length_store
    (h : offset + bytes.length ≤ data.length) : (store data offset bytes).length = data.length := by
  simp only [store, length_append, length_take, length_drop]
  omega

theorem take_atOffset {α : Type} (h : offset ≤ data.length)
    (f : List UInt8 → List UInt8 × α) (n : Nat) :
    (atOffset data offset f).1.take (offset + n)
      = data.take offset ++ (f (data.drop offset)).1.take n := by
  have hlen : (data.take offset).length = offset := by
    rw [length_take, Nat.min_eq_left h]
  have hsplit : (data.take offset ++ (f (data.drop offset)).1).take ((data.take offset).length + n)
      = data.take offset ++ (f (data.drop offset)).1.take n := take_length_add_append n
  rw [hlen] at hsplit
  exact hsplit

/-- The bytes of a teleservice identifier. -/
def teleserviceBytes (id : Nat) : List UInt8 :=
  [UInt8.ofNat ((UInt16.ofNat id).toNat >>> 8), (UInt16.ofNat id).toUInt8 &&& valueMask 8]

theorem take_makeTeleSrvId (id : Nat) (h : 4 ≤ data.length) :
    (makeTeleSrvId id data).1.take 4 = [0, 2] ++ teleserviceBytes id := by
  rw [makeTeleSrvId, putuint16]
  rw [putuint8_byte _ (by decide) (by decide), putuint8_byte _ (by decide) (by decide),
    putuint8_byte _ (by decide) (by decide), putuint8_byte _ (by decide) (by decide)]
  match data, h with
  | a :: b :: c :: d :: rest, _ => rfl

theorem length_makeTeleSrvId (id : Nat) (data : List UInt8) :
    (makeTeleSrvId id data).1.length = data.length := by
  simp only [makeTeleSrvId, putuint16, length_putuint8]

theorem length_atOffset {α : Type} (h : offset ≤ data.length)
    {f : List UInt8 → List UInt8 × α} (hf : ∀ data, (f data).1.length = data.length) :
    (atOffset data offset f).1.length = data.length := by
  rw [atOffset, length_append, length_take, hf, length_drop]
  omega

/-- The message type and the teleservice. -/
theorem telePdu (id : Nat) :
    ∃ tele, atOffset (store (replicate 255 0) 0 [0]) 1 (makeTeleSrvId id) = (tele, 4)
      ∧ tele.length = 255 ∧ tele.take 5 = [0, 0, 2] ++ teleserviceBytes id := by
  have hlen : (store (replicate 255 (0 : UInt8)) 0 [0]).length = 255 := by
    rw [length_store (by rw [length_replicate]; decide), length_replicate]
  refine ⟨(atOffset _ 1 (makeTeleSrvId id)).1, rfl, ?_, ?_⟩
  · rw [length_atOffset (by omega) (length_makeTeleSrvId _), hlen]
  · rw [take_atOffset (by omega) _ 4, take_makeTeleSrvId _ (by rw [length_drop, hlen]; decide)]
    rfl

/-- The parameters up to the address, the array behind which is `data`. -/
theorem rilCdmaSmsPdu_eq {m : CdmaSmsMessage} {n : Nat} (hmode : m.sAddress.digitMode = 0)
    (hcount : m.sAddress.numberOfDigits.toNat = n) (hn : n ≤ 36) :
    ∃ data, data.length = 250
      ∧ (rilCdmaSmsPdu m (replicate 255 0)).2 = 5 + addressLength n
      ∧ (rilCdmaSmsPdu m (replicate 255 0)).1.length = 255
      ∧ (rilCdmaSmsPdu m (replicate 255 0)).1.take (5 + addressLength n)
        = [0, 0, 2] ++ teleserviceBytes m.uTeleserviceId
          ++ (makeAddress m.sAddress true data).1.take (addressLength n) := by
  obtain ⟨tele, htele, hlen, htake⟩ := telePdu m.uTeleserviceId
  simp only [rilCdmaSmsPdu, htele]
  refine ⟨tele.drop 5, by rw [length_drop, hlen], ?_, ?_, ?_⟩
  · rw [atOffset, makeAddress_length hmode hcount hn]
  · rw [length_atOffset (by omega) (length_makeAddress _), hlen]
  · rw [take_atOffset (by omega), htake]

/-- The encoded address begins with its identifier and its length. -/
theorem take_makeAddress {addr : CdmaSmsAddress} {n : Nat} (hmode : addr.digitMode = 0)
    (hcount : addr.numberOfDigits.toNat = n) (hn : n ≤ 36) (hdata : 24 ≤ data.length) :
    ∃ value, value.length = addressLength n - 2
      ∧ (makeAddress addr true data).1.take (addressLength n)
        = 4 :: UInt8.ofNat (addressLength n - 2) :: value
      ∧ ∀ rest, ∀ j < 10 + 4 * n,
        bit (value ++ rest) j = bit (makeAddress addr true data).1 (16 + j) := by
  have hlen : (makeAddress addr true data).1.length = data.length := length_makeAddress _ _
  have hid : (makeAddress addr true data).1.getD 0 0 = 4 := by
    refine getD_eq_of_bit fun k hk => ?_
    rw [bit_makeAddress hmode hcount hn hdata, bit_addressFields hdata, if_neg (by omega),
      if_neg (by omega), if_neg (by omega), if_neg (by omega), if_neg (by omega),
      if_neg (by omega), if_pos (by omega), Nat.mul_zero, Nat.zero_add]
  have hcut : 2 ≤ addressLength n ∧ 10 + 4 * n ≤ 8 * (addressLength n - 2)
      ∧ addressLength n ≤ 24 := by
    rw [addressLength]
    omega
  obtain ⟨htwo, hfit, hmax⟩ := hcut
  have hlength : (makeAddress addr true data).1.getD 1 0 = UInt8.ofNat (addressLength n - 2) := by
    refine getD_eq_of_bit fun k hk => ?_
    rw [bit_makeAddress hmode hcount hn hdata, if_pos (by omega), Nat.mul_one,
      Nat.add_sub_cancel_left, UInt8.ofNat_sub (b := 2) htwo]
    rfl
  generalize addressLength n = total at hlength htwo hfit hmax ⊢
  refine ⟨((makeAddress addr true data).1.drop 2).take (total - 2), ?_, ?_, fun rest j hj => ?_⟩
  · rw [length_take, length_drop, hlen]
    omega
  · rw [← hid, ← hlength]
    generalize (makeAddress addr true data).1 = encoded at hlen ⊢
    match encoded, total, hlen, htwo with
    | a :: b :: rest, total + 2, _, _ => rfl
    | [], _, hlen, _ => simp at hlen; omega
    | [_], _, hlen, _ => simp at hlen; omega
  · rw [bit_append_left, bit_take (by omega), bit_drop]
    rw [length_take, length_drop, hlen]
    omega

/-- A message that the codec can carry. -/
structure Encodable (m : CdmaSmsMessage) : Prop where
  digits_length : m.sAddress.digits.length = 36
  bearer_length : m.aBearerData.length = 255
  digits_le : m.sAddress.numberOfDigits.toNat ≤ 36
  digits_small : ∀ d ∈ m.sAddress.digits.take m.sAddress.numberOfDigits.toNat, d.toNat < 16
  digits_zero : ∀ d ∈ m.sAddress.digits.drop m.sAddress.numberOfDigits.toNat, d = 0
  numberMode_lt : m.sAddress.numberMode < 2
  teleservice_lt : m.uTeleserviceId < 65536
  pdu_le : (rilCdmaSmsPdu (packDigits m) (replicate 255 0)).2 + 5 + m.uBearerDataLen ≤ 255

namespace Encodable

variable {m : CdmaSmsMessage}

theorem digit_lt (h : Encodable m) (i : Nat) : (m.sAddress.digits.getD i 0).toNat < 16 := by
  have hmem : ∀ d ∈ m.sAddress.digits, d.toNat < 16 := by
    intro d hd
    rw [← take_append_drop m.sAddress.numberOfDigits.toNat m.sAddress.digits] at hd
    rcases mem_append.mp hd with hd | hd
    · exact h.digits_small d hd
    · rw [h.digits_zero d hd]
      decide
  by_cases hi : i < m.sAddress.digits.length
  · rw [getD_eq_getElem _ _ hi]
    exact hmem _ (getElem_mem hi)
  · rw [getD_eq_default _ _ (by omega)]
    decide

theorem length_bearer (h : Encodable m) :
    (m.aBearerData.take m.uBearerDataLen).length = m.uBearerDataLen := by
  have hle := h.pdu_le
  rw [length_take, h.bearer_length]
  omega

/-- The bytes of the PDU, parameter by parameter. -/
theorem encodeBytes_eq (h : Encodable m) :
    ∃ data, data.length = 250 ∧ encodeBytes m
      = [0, 0, 2] ++ teleserviceBytes m.uTeleserviceId
        ++ (makeAddress (packDigits m).sAddress true data).1.take
          (addressLength m.sAddress.numberOfDigits.toNat)
        ++ [0x06, 0x01, 0x00] ++ [0x08, UInt8.ofNat m.uBearerDataLen]
        ++ m.aBearerData.take m.uBearerDataLen := by
  obtain ⟨data, hdata, hlength, hpduLen, htake⟩ :=
    rilCdmaSmsPdu_eq (m := packDigits m) rfl rfl h.digits_le
  refine ⟨data, hdata, ?_⟩
  have hle := h.pdu_le
  have hbearer := h.length_bearer
  rw [encodeBytes]
  generalize rilCdmaSmsPdu (packDigits m) (replicate 255 0) = encoded
    at hlength hpduLen htake hle ⊢
  obtain ⟨pdu, length⟩ := encoded
  simp only at hlength hpduLen htake hle ⊢
  have hreply : (store pdu length [0x06, 0x01, 0x00]).length = 255 := by
    rw [length_store (by simp only [length_cons, length_nil]; omega), hpduLen]
  have hheader : (store (store pdu length [0x06, 0x01, 0x00]) (length + 3)
      [0x08, UInt8.ofNat m.uBearerDataLen]).length = 255 := by
    rw [length_store (by simp only [length_cons, length_nil]; omega), hreply]
  rw [take_store (by omega) (by rw [hbearer]), take_store (by omega) (by rfl),
    take_store (by omega) (by rfl), hlength, htake]
  rfl

end Encodable

/-! ## The rounds of the decoder -/

/-- What a row of parameters does, with `tail` behind it. -/
def applyParams (tail : List UInt8) : List Tlv → CdmaSmsMessage → CdmaSmsMessage
  | [], m => m
  | t :: ts, m =>
    applyParams tail ts (processParam t.tag t.value.length (t.value ++ (tlvBytes ts ++ tail)) m)

/-- The loop takes one parameter after the other. -/
theorem processParams_eq (tail pre : List UInt8) (ts : List Tlv) {length : Nat}
    (hlength : length = (pre ++ tlvBytes ts).length) (fuel : Nat) (m : CdmaSmsMessage) :
    processParams (pre ++ (tlvBytes ts ++ tail)) length (fuel + ts.length) pre.length m
      = applyParams tail ts m := by
  induction ts generalizing pre m with
  | nil =>
    have hend : ¬ pre.length < length := by
      rw [hlength, show tlvBytes [] = [] from rfl, append_nil]
      exact Nat.lt_irrefl _
    cases fuel with
    | zero => rfl
    | succ fuel => exact if_neg hend
  | cons t ts ih =>
    have hbytes : pre ++ (tlvBytes (t :: ts) ++ tail)
        = pre ++ t.bytes ++ (tlvBytes ts ++ tail) := by
      rw [tlvBytes_cons, append_assoc, append_assoc]
    have hlt : pre.length < length := by
      rw [hlength, length_append, length_tlvBytes_cons]
      omega
    have hid : (pre ++ (tlvBytes (t :: ts) ++ tail)).getD pre.length 0 = t.tag := by
      rw [getD_append_right _ _ _ _ (Nat.le_refl _), Nat.sub_self]
      rfl
    have hlen : (pre ++ (tlvBytes (t :: ts) ++ tail)).getD (pre.length + 1) 0 = t.lengthByte := by
      rw [getD_append_right _ _ _ _ (by omega), Nat.add_sub_cancel_left]
      rfl
    have hdrop : (pre ++ (tlvBytes (t :: ts) ++ tail)).drop (pre.length + 2)
        = t.value ++ (tlvBytes ts ++ tail) := by
      rw [drop_length_add_append, tlvBytes_cons, append_assoc]
      rfl
    have hplace : pre.length + 2 + t.value.length = (pre ++ t.bytes).length := by
      rw [length_append, t.length_bytes]
      omega
    rw [length_cons, ← Nat.add_assoc, processParams, if_pos hlt, hid, hlen, hdrop,
      t.toNat_lengthByte]
    simp only [hplace, hbytes]
    exact ih _ (by rw [hlength, tlvBytes_cons, append_assoc]) _

/-- The decoder on a message type and a row of parameters. -/
theorem processCdmaIncomingSms_eq (msgType : UInt8) (ts : List Tlv) (tail : List UInt8)
    (m : CdmaSmsMessage) :
    processCdmaIncomingSms (msgType :: tlvBytes ts ++ tail) (msgType :: tlvBytes ts).length m
      = applyParams tail ts m := by
  have hcount := length_le_tlvBytes ts
  have hrun := processParams_eq tail [msgType] ts rfl ((tlvBytes ts).length + 1 - ts.length) m
  rw [Nat.sub_add_cancel (by omega)] at hrun
  exact hrun

/-- The teleservice identifier from its bytes. -/
theorem teleservice_eq {id : Nat} (h : id < 65536) :
    (UInt8.ofNat ((UInt16.ofNat id).toNat >>> 8)).toNat <<< 8
      ||| ((UInt16.ofNat id).toUInt8 &&& valueMask 8).toNat = id := by
  have hid : (UInt16.ofNat id).toNat = id := by
    rw [UInt16.toNat_ofNat']
    omega
  have hlow : ((UInt16.ofNat id).toUInt8 &&& valueMask 8).toNat = id % 256 := by
    rw [UInt8.toNat_and, UInt16.toNat_toUInt8, hid]
    have hmask : (valueMask 8).toNat = 2 ^ 8 - 1 := by decide
    rw [hmask, Nat.and_two_pow_sub_one_eq_mod]
    omega
  have hhigh : (UInt8.ofNat ((UInt16.ofNat id).toNat >>> 8)).toNat = id / 256 := by
    rw [UInt8.toNat_ofNat', hid, Nat.shiftRight_eq_div_pow]
    omega
  rw [hhigh, hlow, ← Nat.shiftLeft_add_eq_or_of_lt (by omega), Nat.shiftLeft_eq]
  omega

section Param

variable {id : UInt8} {paramLen : Nat} {value : List UInt8} {m : CdmaSmsMessage}

theorem processParam_address (h : id = 2 ∨ id = 4) :
    processParam id paramLen value m
      = { m with sAddress := rilCdmaSmsExtractAddress value m.sAddress } := by
  rcases h with rfl | rfl <;> rfl

theorem processParam_subaddress (h : id = 3 ∨ id = 5) :
    processParam id paramLen value m
      = { m with sSubAddress := rilCdmaSmsExtractSubaddress value m.sSubAddress } := by
  rcases h with rfl | rfl <;> rfl

theorem processParam_bearer (h : id = 7 ∨ id = 8) :
    processParam id paramLen value m = { m with
      uBearerDataLen := paramLen, aBearerData := store m.aBearerData 0 (value.take paramLen) } := by
  rcases h with rfl | rfl <;> rfl

end Param

theorem processParam_teleservice {id : Nat} (h : id < 65536) (rest : List UInt8)
    (m : CdmaSmsMessage) :
    processParam 0 (teleserviceBytes id).length (teleserviceBytes id ++ rest) m
      = { m with uTeleserviceId := id } :=
  congrArg (fun tele => { m with uTeleserviceId := tele }) (teleservice_eq h)

/-- The message that is received. -/
theorem decode_eq {m : CdmaSmsMessage} (h : Encodable m) {out : CdmaSmsMessage}
    (hout : out.sAddress.digits.length = 36) (bytePdu : List UInt8) :
    ∃ digits, decodeCdmaSms (rilEncodeCdmaSmsPdu m).1 bytePdu out
      = { out with
          uTeleserviceId := m.uTeleserviceId
          sAddress := { out.sAddress with
            digitMode := 1
            numberMode := m.sAddress.numberMode
            numberOfDigits := m.sAddress.numberOfDigits
            digits := store digits 0
              ((m.sAddress.digits.take m.sAddress.numberOfDigits.toNat).map rilNumDtmfToChar) }
          uBearerDataLen := m.uBearerDataLen
          aBearerData := store out.aBearerData 0 (m.aBearerData.take m.uBearerDataLen) } := by
  obtain ⟨data, hdata, hbytes⟩ := h.encodeBytes_eq
  have hmode : (packDigits m).sAddress.digitMode = 0 := rfl
  have hroom : 24 ≤ data.length := by omega
  obtain ⟨address, haddressLen, htake, hbits⟩ := take_makeAddress hmode rfl h.digits_le hroom
  have hn := h.digits_le
  have hle := h.pdu_le
  have hbearer := h.length_bearer
  have haddr : address.length < 256 := by
    rw [haddressLen, addressLength]
    change (33 + 4 * m.sAddress.numberOfDigits.toNat) / 8 - 2 < 256
    omega
  have hcount : (packDigits m).sAddress.numberOfDigits = m.sAddress.numberOfDigits := rfl
  rw [hcount] at htake haddressLen
  have hshort : (m.aBearerData.take m.uBearerDataLen).length < 256 := by omega
  have hpdu : encodeBytes m = 0 :: tlvBytes [⟨0, teleserviceBytes m.uTeleserviceId,
        Nat.lt_of_sub_pos (Nat.succ_pos 253)⟩, ⟨4, address, haddr⟩,
      ⟨6, [0], Nat.lt_of_sub_pos (Nat.succ_pos 254)⟩, ⟨8, _, hshort⟩] := by
    rw [hbytes, htake]
    simp only [tlvBytes, Tlv.bytes, Tlv.lengthByte, haddressLen, hbearer, flatMap_cons, flatMap_nil,
      append_assoc, cons_append, nil_append, append_nil]
    rfl
  have hlen : (convertAscii (encodeBytes m)).length / 2 = (encodeBytes m).length := by
    rw [length_convertAscii]
    omega
  have hpacked : asciiNum (packDigits m).sAddress.digits m.sAddress.numberOfDigits.toNat
      = (m.sAddress.digits.take m.sAddress.numberOfDigits.toNat).map rilNumDtmfToChar :=
    asciiNum_dtmf h.digit_lt (by rw [h.digits_length]; exact hn) (by omega) _
  rw [decodeCdmaSms, rilEncodeCdmaSmsPdu, hlen, convertByte_convertAscii, hpdu,
    processCdmaIncomingSms_eq]
  have hreply : ∀ n value sms, processParam 6 n value sms = sms := fun _ _ _ => rfl
  simp only [applyParams, processParam_teleservice h.teleservice_lt, hreply,
    processParam_address (.inr rfl), processParam_bearer (.inr rfl)]
  rw [extract_makeAddress hmode rfl hn hroom h.numberMode_lt hout (hbits _), take_left, hbearer]
  exact ⟨_, by rw [← hpacked]; rfl⟩

/-- CDMA messages survive the codec: whatever the array of the receiver and the
message it is read into held before, the teleservice, the number mode, the
number of digits and the bearer data are those that were sent, and the digits
are their characters. -/
theorem decode_encode {m out : CdmaSmsMessage} (h : Encodable m)
    (hdigits : out.sAddress.digits.length = 36) (bytePdu : List UInt8) :
    let received := decodeCdmaSms (rilEncodeCdmaSmsPdu m).1 bytePdu out
    let n := m.sAddress.numberOfDigits.toNat
    received.uTeleserviceId = m.uTeleserviceId
      ∧ received.sAddress.numberMode = m.sAddress.numberMode
      ∧ received.sAddress.numberOfDigits = m.sAddress.numberOfDigits
      ∧ received.sAddress.digits.take n = (m.sAddress.digits.take n).map rilNumDtmfToChar
      ∧ received.uBearerDataLen = m.uBearerDataLen
      ∧ received.aBearerData.take m.uBearerDataLen = m.aBearerData.take m.uBearerDataLen := by
  obtain ⟨digits, hdecode⟩ := decode_eq h hdigits bytePdu
  have hn := h.digits_le
  have hle := h.pdu_le
  intro received n
  have hreceived : received = _ := hdecode
  rw [hreceived]
  refine ⟨rfl, rfl, rfl, ?_, rfl, ?_⟩
  · rw [take_store (Nat.zero_le _) (by simp [n, h.digits_length, hn])]
    rfl
  · rw [take_store (Nat.zero_le _) (by simp [h.bearer_length]; omega)]
    rfl

/-- A message to three digits, with two bytes of bearer data. -/
def sampleSms : CdmaSmsMessage where
  uTeleserviceId := 4098
  sAddress :=
    { digitMode := 1, numberMode := 0, numberType := 0, numberPlan := 0, numberOfDigits := 3,
      digits := [1, 10, 11] ++ replicate 33 0 }
  sSubAddress := { subaddressType := 0, odd := 0, numberOfDigits := 0, digits := [] }
  uBearerDataLen := 2
  aBearerData := [0xab, 0xcd] ++ replicate 253 0

theorem decode_encode_sample :
    let received := decodeCdmaSms (rilEncodeCdmaSmsPdu sampleSms).1 [] sampleSms
    let n := sampleSms.sAddress.numberOfDigits.toNat
    received.uTeleserviceId = sampleSms.uTeleserviceId
      ∧ received.sAddress.numberMode = sampleSms.sAddress.numberMode
      ∧ received.sAddress.numberOfDigits = sampleSms.sAddress.numberOfDigits
      ∧ received.sAddress.digits.take n = (sampleSms.sAddress.digits.take n).map rilNumDtmfToChar
      ∧ received.uBearerDataLen = sampleSms.uBearerDataLen
      ∧ received.aBearerData.take sampleSms.uBearerDataLen
        = sampleSms.aBearerData.take sampleSms.uBearerDataLen := by
  have h : Encodable sampleSms :=
    { digits_length := by decide
      bearer_length := by decide +kernel
      digits_le := by decide
      digits_small := by decide +kernel
      digits_zero := by decide +kernel
      numberMode_lt := by decide
      teleservice_lt := by decide
      pdu_le := by decide +kernel }
  exact decode_encode h h.digits_length []

end Arale.C2k
