import Arale.Lib.Checked
import Arale.C2k.SmsRoundTrip

/-!
# The buffers of the encoder

`Arale.C2k.Sms` computes what the encoder writes and leaves open where it
writes. Here the same functions check every access to `pdu` and `strPdu`, which
have 255 and 511 entries. Under the bounds each function is the one of
`Arale.C2k.Sms`:

> `encoder_in_bounds`: the encoder stays inside its buffers if the whole PDU has
> at most 255 bytes.

A message may have 255 bytes of bearer data, and they are the last parameter of
the PDU: `encode_outside` says that a longer PDU is written over the end of
`pdu`.
-/

namespace Arale.C2k.Checked

open Arale.Lib List
open Arale.At (Line)

/-- The arrays of the codec. -/
inductive SmsArray where
  | pdu
  | strPdu
  | bytePdu
  | digits
  | subDigits
  | bearerData
  | simResponse
deriving DecidableEq, Repr

/-! ## Fields -/

/-- `putuint8` -/
def putuint8 (array : SmsArray) (data : List UInt8) (startBit numBits : Nat) (value : UInt8) :
    Except (Fault SmsArray) (List UInt8) :=
  let startByteIndex := startBit / 8 % 256
  let startBitIndex := startBit % 8
  if 8 < startBitIndex + numBits then do
    let bitsIn2ndByte := startBitIndex + numBits - 8
    let mask := saveTopMask startBitIndex
    let data ← modifyAt array data startByteIndex fun b =>
      (b &&& mask) ||| (~~~mask &&& shiftRight value bitsIn2ndByte)
    modifyAt array data (startByteIndex + 1) fun b =>
      (b &&& ~~~saveTopMask bitsIn2ndByte) ||| shiftLeft value (8 - bitsIn2ndByte)
  else
    let lowBitsSave1stByte := 8 - (startBitIndex + numBits)
    let mask := shiftLeft (valueMask numBits) lowBitsSave1stByte
    modifyAt array data startByteIndex fun b =>
      (b &&& ~~~mask) ||| (mask &&& shiftLeft value lowBitsSave1stByte)

/-- `putuint16` -/
def putuint16 (array : SmsArray) (data : List UInt8) (startBit numBits : Nat) (value : UInt16) :
    Except (Fault SmsArray) (List UInt8) := do
  let high := UInt8.ofNat (value.toNat >>> (numBits - 8))
  let low := value.toUInt8 &&& valueMask (numBits - 8)
  let data ← putuint8 array data startBit 8 high
  putuint8 array data (startBit + 8) (numBits - 8) low

/-- `getuint8` -/
def getuint8 (array : SmsArray) (data : List UInt8) (startBit numBits : Nat) :
    Except (Fault SmsArray) UInt8 := do
  let startByteIndex := startBit / 8 % 256
  let startBitIndex := startBit % 8
  let first ← readAt array data startByteIndex
  let value := first &&& bitValueMask startBitIndex
  if 8 < numBits + startBitIndex then
    let bitsIn2ndByte := numBits + startBitIndex - 8
    let second ← readAt array data (startByteIndex + 1)
    return shiftLeft value bitsIn2ndByte ||| shiftRight second (8 - bitsIn2ndByte)
  else return shiftRight value (8 - (numBits + startBitIndex))

/-- The loop that copies `count` fields of `size` bits. -/
def copyFields (source target : SmsArray) (src : List UInt8) (size : Nat) :
    Nat → Nat → Nat → List UInt8 → Except (Fault SmsArray) (List UInt8)
  | 0, _, _, dst => .ok dst
  | count + 1, getBit, putBit, dst => do
    let byte ← getuint8 source src getBit size
    let dst ← putuint8 target dst putBit size byte
    copyFields source target src size count (getBit + size) (putBit + size) dst

section Fields

variable {array source target : SmsArray} {data src dst : List UInt8} {startBit numBits size : Nat}

/-- A field that lies inside the array. -/
def FieldIn (data : List UInt8) (startBit numBits : Nat) : Prop :=
  0 < numBits ∧ startBit + numBits ≤ 8 * data.length ∧ startBit / 8 < 256

theorem putuint8_eq (h : FieldIn data startBit numBits) (value : UInt8) :
    putuint8 array data startBit numBits value
      = .ok (C2k.putuint8 data startBit numBits value) := by
  obtain ⟨hpos, hlen, hbyte⟩ := h
  rw [putuint8, C2k.putuint8, Nat.mod_eq_of_lt hbyte]
  by_cases hspan : 8 < startBit % 8 + numBits
  · rw [if_pos hspan, if_pos hspan]
    simp only [modifyAt_eq (show startBit / 8 < data.length by omega), ok_bind]
    apply modifyAt_eq
    rw [length_modify]
    omega
  · rw [if_neg hspan, if_neg hspan]
    apply modifyAt_eq
    omega

theorem getuint8_eq (h : FieldIn data startBit numBits) :
    getuint8 array data startBit numBits = .ok (C2k.getuint8 data startBit numBits) := by
  obtain ⟨hpos, hlen, hbyte⟩ := h
  rw [getuint8, C2k.getuint8, Nat.mod_eq_of_lt hbyte]
  simp only [readAt_eq (show startBit / 8 < data.length by omega) 0, ok_bind]
  by_cases hspan : 8 < numBits + startBit % 8
  · rw [if_pos hspan, if_pos hspan, readAt_eq (show startBit / 8 + 1 < data.length by omega) 0]
    rfl
  · rw [if_neg hspan, if_neg hspan]
    rfl

/-- A field that has been read lies inside. -/
theorem getuint8_ok {value : UInt8} (hpos : 0 < numBits) (hnum8 : numBits ≤ 8)
    (hbyte : startBit / 8 < 256) (h : getuint8 array data startBit numBits = .ok value) :
    FieldIn data startBit numBits ∧ value = C2k.getuint8 data startBit numBits := by
  have hfield : FieldIn data startBit numBits := by
    unfold getuint8 at h
    rw [Nat.mod_eq_of_lt hbyte] at h
    obtain ⟨first, hfirst, h⟩ := bind_ok h
    obtain ⟨hlt, -⟩ := List.getElem?_eq_some_iff.mp (readAt_ok hfirst)
    by_cases hspan : 8 < numBits + startBit % 8
    · rw [if_pos hspan] at h
      obtain ⟨second, hsecond, -⟩ := bind_ok h
      obtain ⟨hlt', -⟩ := List.getElem?_eq_some_iff.mp (readAt_ok hsecond)
      exact ⟨hpos, by omega, hbyte⟩
    · exact ⟨hpos, by omega, hbyte⟩
  rw [getuint8_eq hfield] at h
  exact ⟨hfield, (Except.ok.inj h).symm⟩

/-- So does one that has been written. -/
theorem putuint8_ok {value : UInt8} {data' : List UInt8} (hpos : 0 < numBits) (hnum8 : numBits ≤ 8)
    (hbyte : startBit / 8 < 256) (h : putuint8 array data startBit numBits value = .ok data') :
    FieldIn data startBit numBits ∧ data'.length = data.length := by
  unfold putuint8 at h
  rw [Nat.mod_eq_of_lt hbyte] at h
  by_cases hspan : 8 < startBit % 8 + numBits
  · simp only [if_pos hspan] at h
    obtain ⟨first, hfirst, h⟩ := bind_ok h
    obtain ⟨hlt, hlength⟩ := modifyAt_ok hfirst
    obtain ⟨hlt', hlength'⟩ := modifyAt_ok h
    exact ⟨⟨hpos, by omega, hbyte⟩, by omega⟩
  · simp only [if_neg hspan] at h
    obtain ⟨hlt, hlength⟩ := modifyAt_ok h
    exact ⟨⟨hpos, by omega, hbyte⟩, hlength⟩

/-- The loop stays inside both arrays if its fields do. -/
theorem copyFields_eq (hsize : 0 < size) {count getBit putBit : Nat}
    (hget : getBit + size * count ≤ 8 * src.length) (hget8 : (getBit + size * count) / 8 < 256)
    (hput : putBit + size * count ≤ 8 * dst.length) (hput8 : (putBit + size * count) / 8 < 256) :
    copyFields source target src size count getBit putBit dst
      = .ok (C2k.copyFields src size count getBit putBit dst) := by
  induction count generalizing getBit putBit dst with
  | zero => rfl
  | succ count ih =>
    rw [Nat.mul_succ] at hget hget8 hput hput8
    have hread : FieldIn src getBit size := ⟨hsize, by omega, by omega⟩
    have hwrite : FieldIn dst putBit size := ⟨hsize, by omega, by omega⟩
    rw [copyFields, getuint8_eq hread, ok_bind, putuint8_eq hwrite, ok_bind]
    apply ih
    · omega
    · omega
    · rw [length_putuint8]
      omega
    · omega

/-- And if it ends, its fields do: a target of 36 entries stops it before the byte
indices overflow. -/
theorem copyFields_ok (hsize : 0 < size) (hsize8 : size ≤ 8) {count getBit putBit : Nat}
    {dst' : List UInt8} (hdst : dst.length = 36) (hput : putBit ≤ 8 * 36)
    (hget : getBit ≤ putBit + 17) (hgetIn : getBit ≤ 8 * src.length)
    (h : copyFields source target src size count getBit putBit dst = .ok dst') :
    getBit + size * count ≤ 8 * src.length ∧ putBit + size * count ≤ 8 * 36 ∧
      dst'.length = 36 := by
  induction count generalizing getBit putBit dst with
  | zero =>
    cases h
    exact ⟨hgetIn, hput, hdst⟩
  | succ count ih =>
    obtain ⟨byte, hread, h⟩ := bind_ok h
    obtain ⟨next, hwrite, h⟩ := bind_ok h
    obtain ⟨⟨-, hreadIn, -⟩, -⟩ := getuint8_ok hsize hsize8 (by omega) hread
    obtain ⟨⟨-, hwriteIn, -⟩, hnext⟩ := putuint8_ok hsize hsize8 (by omega) hwrite
    obtain ⟨hsrc, hdst', hlength⟩ := ih (hnext.trans hdst) (by omega) (by omega) (by omega) h
    rw [Nat.mul_succ]
    exact ⟨by omega, by omega, hlength⟩

end Fields

/-! ## The encoder -/

theorem storeAt_store {array : SmsArray} {data bytes : List UInt8} {offset : Nat}
    (h : offset + bytes.length ≤ data.length) :
    storeAt array data offset bytes = .ok (store data offset bytes) :=
  storeAt_eq h

/-- A function that is called with a pointer into an array. -/
def atOffset {α : Type} (data : List UInt8) (offset : Nat)
    (f : List UInt8 → Except (Fault SmsArray) (List UInt8 × α)) :
    Except (Fault SmsArray) (List UInt8 × α) := do
  let r ← pointer .pdu offset (f (data.drop offset))
  return (data.take offset ++ r.1, r.2)

/-- `MakeTeleSrvId` -/
def makeTeleSrvId (teleserviceId : Nat) (data : List UInt8) :
    Except (Fault SmsArray) (List UInt8 × Nat) := do
  let data ← putuint8 .pdu data 0 8 0
  let data ← putuint8 .pdu data 8 8 2
  let data ← putuint16 .pdu data 16 16 (UInt16.ofNat teleserviceId)
  return (data, 4)

/-- The fields of an address before the number of digits: the array, the bit
behind them and the size of a digit. -/
def makeAddressModes (addr : CdmaSmsAddress) (data : List UInt8) :
    Except (Fault SmsArray) (List UInt8 × Nat × Nat) := do
  let data ← putuint8 .pdu data 16 1 (UInt8.ofNat addr.digitMode)
  let data ← putuint8 .pdu data 17 1 (UInt8.ofNat addr.numberMode)
  if addr.digitMode ≠ 0 then
    let data ← putuint8 .pdu data 18 3 (UInt8.ofNat addr.numberType)
    if addr.numberMode = 0 then
      let data ← putuint8 .pdu data 21 4 (UInt8.ofNat addr.numberPlan)
      return (data, 25, 8)
    else return (data, 21, 8)
  else return (data, 18, 4)

/-- The bits behind the digits, an `unsigned char`. -/
def padding (totalLength startBit : Nat) : Nat := (totalLength * 8 + 65536 - startBit) % 256

/-- The end of `MakeAddress`: the padding and the length. -/
def padAddress (data : List UInt8) (startBit totalLength result : Nat) :
    Except (Fault SmsArray) (List UInt8) := do
  let data ← if result ≠ 0 then putuint8 .pdu data startBit result 0 else pure data
  putuint8 .pdu data 8 8 (UInt8.ofNat totalLength - 2)

/-- `MakeAddress` -/
def makeAddress (addr : CdmaSmsAddress) (moSmsMsg : Bool) (data : List UInt8) :
    Except (Fault SmsArray) (List UInt8 × Nat) := do
  let data ← putuint8 .pdu data 0 8 (if moSmsMsg then 4 else 2)
  let modes ← makeAddressModes addr data
  let data ← putuint8 .pdu modes.1 modes.2.1 8 addr.numberOfDigits
  let data ← copyFields .digits .pdu addr.digits modes.2.2 addr.numberOfDigits.toNat 0
    (modes.2.1 + 8) data
  let startBit := modes.2.1 + 8 + modes.2.2 * addr.numberOfDigits.toNat
  let totalLength := numBytes startBit % 256
  let data ← padAddress data startBit totalLength (padding totalLength startBit)
  return (data, totalLength)

/-- `RILCdmaSmsPdu`, for an empty PDU. The length is an `unsigned char`. -/
def rilCdmaSmsPdu (m : CdmaSmsMessage) (pdu : List UInt8) :
    Except (Fault SmsArray) (List UInt8 × Nat) := do
  let pdu ← storeAt .pdu pdu 0 [0]
  let tele ← atOffset pdu 1 (makeTeleSrvId m.uTeleserviceId)
  let length := (1 + tele.2) % 256
  let addr ← atOffset tele.1 length (makeAddress m.sAddress true)
  return (addr.1, (length + addr.2) % 256)

/-- The loop of `ConvertAscii`. -/
def convertLoop (pdu : List UInt8) : Nat → Nat → List UInt8 → Except (Fault SmsArray) (List UInt8)
  | 0, _, strPdu => .ok strPdu
  | count + 1, i, strPdu => do
    let b ← readAt .pdu pdu i
    let strPdu ← modifyAt .strPdu strPdu (i * 2) fun _ => convertChar ((0xf0 &&& b) >>> 4)
    let strPdu ← modifyAt .strPdu strPdu (i * 2 + 1) fun _ => convertChar (0x0f &&& b)
    convertLoop pdu count (i + 1) strPdu

/-- `ConvertAscii` -/
def convertAscii (pdu : List UInt8) (length : Nat) (strPdu : List UInt8) :
    Except (Fault SmsArray) (List UInt8) :=
  convertLoop pdu length 0 strPdu

/-- The parameters behind the address, and the number of bytes of the PDU. -/
def encodePdu (m : CdmaSmsMessage) : Except (Fault SmsArray) (List UInt8 × Nat) := do
  let r ← rilCdmaSmsPdu (packDigits m) (replicate 255 0)
  -- the bearer reply option
  let pdu ← storeAt .pdu r.1 r.2 [0x06, 0x01, 0x00]
  let length := (r.2 + 3) % 256
  let pdu ← storeAt .pdu pdu length [0x08, UInt8.ofNat m.uBearerDataLen]
  let pdu ← storeAt .pdu pdu (2 + length) (m.aBearerData.take m.uBearerDataLen)
  return (pdu, length + 2 + m.uBearerDataLen)

/-- `RILEncodeCdmaSmsPdu`: the string `s_pdu`. -/
def rilEncodeCdmaSmsPdu (m : CdmaSmsMessage) : Except (Fault SmsArray) Line := do
  let r ← encodePdu m
  let strPdu ← convertAscii r.1 r.2 (replicate 511 0)
  return strPdu.takeWhile (· != 0)

section Encoder

variable {m : CdmaSmsMessage} {addr : CdmaSmsAddress} {data pdu : List UInt8}

theorem atOffset_eq {α : Type} {offset : Nat}
    {f : List UInt8 → Except (Fault SmsArray) (List UInt8 × α)} {g : List UInt8 → List UInt8 × α}
    (h : f (data.drop offset) = .ok (g (data.drop offset))) :
    atOffset data offset f = .ok (C2k.atOffset data offset g) := by
  rw [atOffset, h]
  rfl

theorem makeTeleSrvId_eq (id : Nat) (h : 4 ≤ data.length) :
    makeTeleSrvId id data = .ok (C2k.makeTeleSrvId id data) := by
  have hfield : ∀ {xs : List UInt8} {bit : Nat}, xs.length = data.length → bit ≤ 24 →
      FieldIn xs bit 8 := fun hxs hbit => ⟨by omega, by omega, by omega⟩
  simp only [makeTeleSrvId, putuint16, Nat.reduceSub, Nat.reduceAdd]
  rw [putuint8_eq (hfield rfl (by omega)), ok_bind,
    putuint8_eq (hfield (length_putuint8 _ _ _ _) (by omega)), ok_bind,
    putuint8_eq (hfield (by simp only [length_putuint8]) (by omega)), ok_bind,
    putuint8_eq (hfield (by simp only [length_putuint8]) (by omega))]
  rfl

/-- A field of an address, which has at most 24 bytes. -/
theorem FieldIn.address (hdata : 24 ≤ data.length) (startBit : Nat) {numBits : Nat}
    (hnum : 0 < numBits) (hend : startBit + numBits ≤ 192) : FieldIn data startBit numBits :=
  ⟨hnum, by omega, by omega⟩

theorem padAddress_eq {startBit result : Nat} (totalLength : Nat) (hdata : 24 ≤ data.length)
    (hend : startBit + result ≤ 192) :
    padAddress data startBit totalLength result
      = .ok (C2k.putuint8 (if result ≠ 0 then C2k.putuint8 data startBit result 0 else data) 8 8
        (UInt8.ofNat totalLength - 2)) := by
  rw [padAddress]
  by_cases hresult : result = 0
  · rw [if_neg (not_not_intro hresult), if_neg (not_not_intro hresult)]
    exact putuint8_eq (.address hdata 8 (Nat.succ_pos 7) (by omega)) _
  · rw [if_pos hresult, if_pos hresult, putuint8_eq (.address hdata _ (by omega) hend)]
    have hdata' := hdata
    rw [← length_putuint8 data startBit result 0] at hdata'
    exact putuint8_eq (.address hdata' 8 (Nat.succ_pos 7) (by omega)) _

/-- An address with four bits for a digit has at most 24 bytes. -/
theorem makeAddress_eq (hmode : addr.digitMode = 0) (hn : addr.numberOfDigits.toNat ≤ 36)
    (hdigits : addr.digits.length = 36) (hdata : 24 ≤ data.length) :
    makeAddress addr true data = .ok (C2k.makeAddress addr true data) := by
  have hpad : 18 + 8 + 4 * addr.numberOfDigits.toNat
      + padding (numBytes (18 + 8 + 4 * addr.numberOfDigits.toNat) % 256)
        (18 + 8 + 4 * addr.numberOfDigits.toNat) ≤ 192 := by
    rw [padding, numBytes_eq]
    omega
  have hcopy : ∀ dst : List UInt8, dst.length = data.length →
      copyFields .digits .pdu addr.digits 4 addr.numberOfDigits.toNat 0 (18 + 8) dst
        = .ok (C2k.copyFields addr.digits 4 addr.numberOfDigits.toNat 0 (18 + 8) dst) := by
    intro dst hdst
    apply copyFields_eq <;> omega
  have hfield : ∀ {xs : List UInt8} {n : Nat} (bit : Nat), xs.length = data.length → 0 < n →
      bit + n ≤ 192 → FieldIn xs bit n := fun bit hxs => .address (hxs ▸ hdata) bit
  rw [makeAddress, if_pos rfl, putuint8_eq (hfield 0 rfl (by omega) (by omega)), ok_bind,
    makeAddressModes,
    putuint8_eq (hfield 16 (by simp only [length_putuint8]) (by omega) (by omega)),
    ok_bind, putuint8_eq (hfield 17 (by simp only [length_putuint8]) (by omega) (by omega)),
    ok_bind, if_neg (not_not_intro hmode), C2k.makeAddress, C2k.makeAddressModes,
    if_neg (not_not_intro hmode), if_pos rfl]
  change (do let data ← putuint8 .pdu _ 18 8 addr.numberOfDigits; _) = _
  rw [putuint8_eq (hfield 18 (by simp only [length_putuint8]) (by omega) (by omega)), ok_bind]
  rw [hcopy _ (by simp only [length_putuint8]), ok_bind]
  change (do let data ← padAddress _ _ _ _; _) = _
  rw [padAddress_eq _ (by simp only [length_copyFields, length_putuint8]; exact hdata) hpad]
  rfl

/-- The PDU up to the address. -/
theorem rilCdmaSmsPdu_eq (hmode : m.sAddress.digitMode = 0)
    (hn : m.sAddress.numberOfDigits.toNat ≤ 36) (hdigits : m.sAddress.digits.length = 36) :
    rilCdmaSmsPdu m (replicate 255 0) = .ok (C2k.rilCdmaSmsPdu m (replicate 255 0)) := by
  obtain ⟨tele, htele, hlen, -⟩ := telePdu m.uTeleserviceId
  have hroom : 0 + [(0 : UInt8)].length ≤ (replicate 255 (0 : UInt8)).length := by
    rw [length_replicate]
    exact Nat.le_add_left 1 254
  have hmakeTele : atOffset (store (replicate 255 0) 0 [0]) 1 (makeTeleSrvId m.uTeleserviceId)
      = .ok (tele, 4) := by
    rw [atOffset_eq (makeTeleSrvId_eq _ ?_), htele]
    rw [length_drop, length_store hroom, length_replicate]
    decide
  have haddr : (C2k.makeAddress m.sAddress true (tele.drop 5)).2
      = (33 + 4 * m.sAddress.numberOfDigits.toNat) / 8 := makeAddress_length hmode rfl hn
  rw [rilCdmaSmsPdu, storeAt_store hroom, ok_bind, hmakeTele, ok_bind]
  simp only [Nat.reduceAdd, Nat.reduceMod]
  rw [atOffset_eq (makeAddress_eq hmode hn hdigits (by rw [length_drop]; omega)), ok_bind]
  simp only [C2k.rilCdmaSmsPdu, htele]
  simp only [C2k.atOffset, haddr]
  rw [Nat.mod_eq_of_lt (by omega)]
  rfl

/-- A message of the interface: the arrays have their sizes. -/
structure Valid (m : CdmaSmsMessage) : Prop where
  digits_length : m.sAddress.digits.length = 36
  bearer_length : m.aBearerData.length = 255
  digits_le : m.sAddress.numberOfDigits.toNat ≤ 36
  bearer_le : m.uBearerDataLen ≤ 255

theorem Valid.length_bearer (h : Valid m) :
    (m.aBearerData.take m.uBearerDataLen).length = m.uBearerDataLen := by
  rw [length_take, h.bearer_length]
  exact Nat.min_eq_left h.bearer_le

/-- The number of bytes of the PDU of a message. -/
def pduLength (m : CdmaSmsMessage) : Nat :=
  10 + addressLength m.sAddress.numberOfDigits.toNat + m.uBearerDataLen

theorem length_dtmf (digits : List UInt8) (n : Nat) : (dtmf digits n).length = n / 2 + n % 2 := by
  rw [dtmf, length_map, length_range]

/-- The digits are packed in place. -/
theorem length_packDigits (h : Valid m) : (packDigits m).sAddress.digits.length = 36 := by
  have hn := h.digits_le
  have hdigits := h.digits_length
  have hclear : (store m.sAddress.digits 0
      (replicate m.sAddress.numberOfDigits.toNat 0)).length = 36 := by
    rw [length_store, hdigits]
    rw [length_replicate]
    omega
  show (store _ 0 (dtmf m.sAddress.digits m.sAddress.numberOfDigits.toNat)).length = 36
  rw [length_store, hclear]
  rw [length_dtmf, hclear]
  omega

/-- The PDU up to the length of the bearer data, which always fits. -/
theorem encodePdu_bearer (h : Valid m) :
    ∃ pdu, pdu.length = 255 ∧
      encodePdu m = (storeAt .pdu pdu (10 + addressLength m.sAddress.numberOfDigits.toNat)
        (m.aBearerData.take m.uBearerDataLen)).map (fun pdu => (pdu, pduLength m)) ∧
      encodeBytes m = (store pdu (10 + addressLength m.sAddress.numberOfDigits.toNat)
        (m.aBearerData.take m.uBearerDataLen)).take (pduLength m) := by
  have hn := h.digits_le
  have hrun := @rilCdmaSmsPdu_eq (packDigits m) rfl hn (length_packDigits h)
  obtain ⟨data, -, hlength, hpdu, -⟩ := @C2k.rilCdmaSmsPdu_eq (packDigits m) _ rfl rfl hn
  have haddr : addressLength m.sAddress.numberOfDigits.toNat ≤ 22 := by
    rw [addressLength]
    omega
  have hcount : (packDigits m).sAddress.numberOfDigits = m.sAddress.numberOfDigits := rfl
  rw [encodePdu, encodeBytes, pduLength, hrun]
  rw [hcount] at hlength
  generalize C2k.rilCdmaSmsPdu (packDigits m) (replicate 255 0) = r at hlength hpdu
  obtain ⟨pdu, length⟩ := r
  simp only at hlength hpdu
  have hreply : length + 3 ≤ pdu.length := by omega
  have hreplyLen := @length_store pdu [0x06, 0x01, 0x00] length hreply
  have hheader : length + 3 + 2 ≤ (store pdu length [0x06, 0x01, 0x00]).length := by omega
  have hplace : length + 3 + 2 = 10 + addressLength m.sAddress.numberOfDigits.toNat := by omega
  refine ⟨store (store pdu length [0x06, 0x01, 0x00]) (length + 3)
    [0x08, UInt8.ofNat m.uBearerDataLen], ?_, ?_, ?_⟩
  · rw [length_store hheader, hreplyLen, hpdu]
  · rw [ok_bind, storeAt_store hreply, ok_bind]
    simp only [Nat.mod_eq_of_lt (by omega : length + 3 < 256)]
    rw [storeAt_store hheader, ok_bind, Nat.add_comm 2, hplace]
    rfl
  · simp only [hplace]

/-- The two digits of each byte are written behind those of the bytes before. -/
theorem convertLoop_eq (tail : List UInt8) {done todo strTail : List UInt8}
    (h : 2 * todo.length ≤ strTail.length) :
    convertLoop (done ++ (todo ++ tail)) todo.length done.length (C2k.convertAscii done ++ strTail)
      = .ok (C2k.convertAscii (done ++ todo) ++ strTail.drop (2 * todo.length)) := by
  induction todo generalizing done strTail with
  | nil =>
    rw [append_nil]
    rfl
  | cons b todo ih =>
    rw [length_cons] at h
    obtain ⟨x, y, strTail, rfl⟩ : ∃ x y rest, strTail = x :: y :: rest := by
      rcases strTail with _ | ⟨x, _ | ⟨y, rest⟩⟩
      · exact absurd h (by rw [length_nil]; omega)
      · exact absurd h (by rw [length_singleton]; omega)
      · exact ⟨x, y, rest, rfl⟩
    rw [length_cons, length_cons] at h
    have hplace : done.length * 2 = (C2k.convertAscii done).length := by
      rw [length_convertAscii, Nat.mul_comm]
    have hpair : C2k.convertAscii (done ++ [b])
        = C2k.convertAscii done ++ [convertChar ((0xf0 &&& b) >>> 4)]
          ++ [convertChar (0x0f &&& b)] := by
      rw [C2k.convertAscii, flatMap_append, append_assoc]
      rfl
    have hbehind : done.length * 2 + 1
        = (C2k.convertAscii done ++ [convertChar ((0xf0 &&& b) >>> 4)]).length := by
      rw [length_append, ← hplace]
      rfl
    have hrest := @ih (done ++ [b]) strTail (by omega)
    rw [hpair, length_append, append_assoc, append_assoc _ [b],
      append_assoc _ [convertChar (0x0f &&& b)]] at hrest
    rw [length_cons, convertLoop, cons_append, readAt_behind, ok_bind, hbehind, hplace,
      modifyAt_behind, ok_bind, append_cons, modifyAt_behind, ok_bind]
    refine hrest.trans ?_
    rfl

theorem convertChar_ne_zero (b : UInt8) :
    convertChar ((0xf0 &&& b) >>> 4) ≠ 0 ∧ convertChar (0x0f &&& b) ≠ 0 := by
  have hall : ∀ n : Fin 256, convertChar ((0xf0 &&& UInt8.ofFin n) >>> 4) ≠ 0 ∧
      convertChar (0x0f &&& UInt8.ofFin n) ≠ 0 := by
    decide +kernel
  exact hall b.toFin

/-- The text of a PDU ends where the digits end. -/
theorem takeWhile_convertAscii (bytes zeros : List UInt8) :
    (C2k.convertAscii bytes ++ 0 :: zeros).takeWhile (· != 0) = C2k.convertAscii bytes := by
  induction bytes with
  | nil => rfl
  | cons b bytes ih =>
    obtain ⟨hhigh, hlow⟩ := convertChar_ne_zero b
    show (convertChar ((0xf0 &&& b) >>> 4) :: convertChar (0x0f &&& b)
      :: (C2k.convertAscii bytes ++ 0 :: zeros)).takeWhile (· != 0) = _
    rw [takeWhile_cons_of_pos (by simpa using hhigh),
      takeWhile_cons_of_pos (by simpa using hlow), ih]
    rfl

/-- `ConvertAscii` stays inside `strPdu` if the text does. -/
theorem convertAscii_run {length : Nat} {strPdu : List UInt8} (h : length ≤ pdu.length)
    (hstr : 2 * length ≤ strPdu.length) :
    convertAscii pdu length strPdu
      = .ok (C2k.convertAscii (pdu.take length) ++ strPdu.drop (2 * length)) := by
  have hlength : (pdu.take length).length = length := length_take_of_le h
  have hloop := @convertLoop_eq (pdu.drop length) [] (pdu.take length) strPdu
    (by rw [hlength]; exact hstr)
  rw [take_append_drop, hlength] at hloop
  exact hloop

/-- The text of a PDU that is inside `pdu`. -/
theorem convertAscii_eq {length : Nat} (h : length ≤ pdu.length) (hpdu : pdu.length = 255) :
    ∃ strPdu, convertAscii pdu length (replicate 511 0) = .ok strPdu ∧
      strPdu.takeWhile (· != 0) = C2k.convertAscii (pdu.take length) := by
  have hzeros : (replicate 511 (0 : UInt8)).drop (2 * length)
      = 0 :: replicate (510 - 2 * length) 0 := by
    rw [drop_replicate, ← replicate_succ]
    congr 1
    omega
  refine ⟨_, convertAscii_run h (by rw [length_replicate]; omega), ?_⟩
  rw [hzeros]
  exact takeWhile_convertAscii _ _

/-- A PDU of more than 255 bytes is written over the end of `pdu`. -/
theorem encode_outside (h : Valid m) (hlong : 255 < pduLength m) :
    rilEncodeCdmaSmsPdu m = .error (.outside .pdu 255) := by
  obtain ⟨pdu, hpdu, hencode, -⟩ := encodePdu_bearer h
  have hn := h.digits_le
  have hbearer := h.length_bearer
  have haddr : addressLength m.sAddress.numberOfDigits.toNat ≤ 22 := by
    rw [addressLength]
    omega
  have hstore := @storeAt_outside SmsArray UInt8 .pdu pdu (m.aBearerData.take m.uBearerDataLen)
    (10 + addressLength m.sAddress.numberOfDigits.toNat) (by rw [hbearer, hpdu]; exact hlong)
    (by omega)
  rw [rilEncodeCdmaSmsPdu, hencode, hstore, hpdu]
  rfl

/-- The encoder stays inside its buffers if the PDU has at most 255 bytes. -/
theorem encoder_in_bounds (m : CdmaSmsMessage) (h : Valid m) (hfits : pduLength m ≤ 255) :
    rilEncodeCdmaSmsPdu m = .ok (C2k.rilEncodeCdmaSmsPdu m).1 := by
  obtain ⟨pdu, hpdu, hencode, hbytes⟩ := encodePdu_bearer h
  have hbearer := h.length_bearer
  have hroom : 10 + addressLength m.sAddress.numberOfDigits.toNat
      + (m.aBearerData.take m.uBearerDataLen).length ≤ pdu.length := by
    rw [hbearer, hpdu]
    exact hfits
  obtain ⟨strPdu, hconvert, htext⟩ := @convertAscii_eq
    (store pdu (10 + addressLength m.sAddress.numberOfDigits.toNat)
      (m.aBearerData.take m.uBearerDataLen))
    (pduLength m) (by rw [length_store hroom, hpdu]; exact hfits) (by rw [length_store hroom, hpdu])
  rw [← hbytes] at htext
  rw [rilEncodeCdmaSmsPdu, hencode, storeAt_store hroom]
  simp only [Except.map, ok_bind, hconvert]
  exact congrArg Except.ok htext

end Encoder

/-- A message with 36 digits and `b` bytes of bearer data. -/
def longSms (b : Nat) : CdmaSmsMessage where
  uTeleserviceId := 4098
  sAddress :=
    { digitMode := 1, numberMode := 0, numberType := 0, numberPlan := 0, numberOfDigits := 36,
      digits := replicate 36 1 }
  sSubAddress :=
    { subaddressType := 0, odd := 0, numberOfDigits := 0, digits := replicate 36 0 }
  uBearerDataLen := b
  aBearerData := replicate 255 0

theorem longSms_valid {b : Nat} (hb : b ≤ 255) : Valid (longSms b) where
  digits_length := length_replicate
  bearer_length := length_replicate
  digits_le := Nat.le_refl 36
  bearer_le := hb

theorem encoder_in_bounds_sample :
    rilEncodeCdmaSmsPdu (longSms 223) = .ok (C2k.rilEncodeCdmaSmsPdu (longSms 223)).1 :=
  encoder_in_bounds (longSms 223) (longSms_valid (by omega)) (Nat.le_refl 255)

/-- One byte more is too long for `pdu`. -/
theorem encoder_overflows :
    ¬ ∀ m : CdmaSmsMessage, Valid m → ∃ text, rilEncodeCdmaSmsPdu m = .ok text := by
  intro hall
  obtain ⟨text, htext⟩ := hall (longSms 224) (longSms_valid (by omega))
  have hlong : 255 < pduLength (longSms 224) := Nat.le_refl 256
  rw [encode_outside (longSms_valid (by omega)) hlong] at htext
  cases htext

end Arale.C2k.Checked
