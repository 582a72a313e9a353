import Arale.C2k.BitField
import Arale.C2k.Hex

/-!
# The transport codec of CDMA short messages

`RILEncodeCdmaSmsPdu` writes a message as a list of parameters (teleservice,
address, bearer reply option, bearer data), each with an identifier and a
length, and turns the bytes into text. The address is a bit field: two mode
bits, the number of digits, and the digits with four bits each, so that no
digit but by chance is in one byte. On the way back `ConvertByte` and
`ProcessCdmaIncomingSms` walk through the parameters and turn the digits into
characters.

> `decode_encode`: what is sent is what is received.

Arrays of the source are lists; a pointer into an array is the rest of the list
behind it.
-/

namespace Arale.C2k

open Arale.Lib
open Arale.At (Line)

/-! ## Messages -/

/-- `RIL_CDMA_SMS_Address` -/
structure CdmaSmsAddress where
  digitMode : Nat
  numberMode : Nat
  numberType : Nat
  numberPlan : Nat
  numberOfDigits : UInt8
  digits : List UInt8
  deriving DecidableEq, Repr

/-- `RIL_CDMA_SMS_Subaddress` -/
structure CdmaSmsSubaddress where
  subaddressType : Nat
  odd : UInt8
  numberOfDigits : UInt8
  digits : List UInt8
  deriving DecidableEq, Repr

/-- `RIL_CDMA_SMS_Message`, without the service category, which the codec does
not use -/
structure CdmaSmsMessage where
  uTeleserviceId : Nat
  sAddress : CdmaSmsAddress
  sSubAddress : CdmaSmsSubaddress
  uBearerDataLen : Nat
  aBearerData : List UInt8
  deriving DecidableEq, Repr

/-- `NUM_BYTES` -/
def numBytes (bitCount : Nat) : Nat :=
  if bitCount % 8 ≠ 0 then bitCount / 8 + 1 else bitCount / 8

/-- Bytes stored into an array one after the other, as by `memcpy`. -/
def store (data : List UInt8) (offset : Nat) (bytes : List UInt8) : List UInt8 :=
  data.take offset ++ bytes ++ data.drop (offset + bytes.length)

/-- A function that is called with a pointer into an array. -/
def atOffset {α : Type} (data : List UInt8) (offset : Nat) (f : List UInt8 → List UInt8 × α) :
    List UInt8 × α :=
  (data.take offset ++ (f (data.drop offset)).1, (f (data.drop offset)).2)

/-! ## Encoding -/

/-- `putuint16` -/
def putuint16 (data : List UInt8) (startBit numBits : Nat) (value : UInt16) : List UInt8 :=
  let high := UInt8.ofNat (value.toNat >>> (numBits - 8))
  let low := value.toUInt8 &&& valueMask (numBits - 8)
  putuint8 (putuint8 data startBit 8 high) (startBit + 8) (numBits - 8) low

/-- `MakeTeleSrvId` -/
def makeTeleSrvId (teleserviceId : Nat) (data : List UInt8) : List UInt8 × Nat :=
  (putuint16 (putuint8 (putuint8 data 0 8 0) 8 8 2) 16 16 (UInt16.ofNat teleserviceId), 4)

/-- The fields of an address before the number of digits: the array, the bit
behind them and the size of a digit. -/
def makeAddressModes (addr : CdmaSmsAddress) (data : List UInt8) : List UInt8 × Nat × Nat :=
  let data := putuint8 data 16 1 (UInt8.ofNat addr.digitMode)
  let data := putuint8 data 17 1 (UInt8.ofNat addr.numberMode)
  if addr.digitMode ≠ 0 then
    let data := putuint8 data 18 3 (UInt8.ofNat addr.numberType)
    if addr.numberMode = 0 then (putuint8 data 21 4 (UInt8.ofNat addr.numberPlan), 25, 8)
    else (data, 21, 8)
  else (data, 18, 4)

/-- `MakeAddress`. The padding and the length are `unsigned char`. -/
def makeAddress (addr : CdmaSmsAddress) (moSmsMsg : Bool) (data : List UInt8) :
    List UInt8 × Nat :=
  let data := putuint8 data 0 8 (if moSmsMsg then 4 else 2)
  let (data, startBit, size) := makeAddressModes addr data
  let data := putuint8 data startBit 8 addr.numberOfDigits
  let data := copyFields addr.digits size addr.numberOfDigits.toNat 0 (startBit + 8) data
  let startBit := startBit + 8 + size * addr.numberOfDigits.toNat
  let totalLength := numBytes startBit % 256
  let result := (totalLength * 8 + 65536 - startBit) % 256
  let data := if result ≠ 0 then putuint8 data startBit result 0 else data
  (putuint8 data 8 8 (UInt8.ofNat totalLength - 2), totalLength)

/-- `RILCdmaSmsPdu`, for an empty PDU; the number is the new length. -/
def rilCdmaSmsPdu (m : CdmaSmsMessage) (pdu : List UInt8) : List UInt8 × Nat :=
  let pdu := store pdu 0 [0]
  let (pdu, teleLength) := atOffset pdu 1 (makeTeleSrvId m.uTeleserviceId)
  let (pdu, addrLength) := atOffset pdu (1 + teleLength) (makeAddress m.sAddress true)
  (pdu, 1 + teleLength + addrLength)

/-- Two digits in each byte; with an odd number the last byte takes the entry
behind the last digit. -/
def dtmf (digits : List UInt8) (n : Nat) : List UInt8 :=
  (List.range (n / 2 + n % 2)).map fun j =>
    shiftLeft (digits.getD (2 * j) 0) 4 ||| digits.getD (2 * j + 1) 0

/-- The digits of the message are packed in place. -/
def packDigits (m : CdmaSmsMessage) : CdmaSmsMessage :=
  let n := m.sAddress.numberOfDigits.toNat
  let digits := store m.sAddress.digits 0 (List.replicate n 0)
  { m with sAddress :=
    { m.sAddress with digitMode := 0, digits := store digits 0 (dtmf m.sAddress.digits n) } }

/-- The bytes of the PDU that `RILEncodeCdmaSmsPdu` writes as text. -/
def encodeBytes (m : CdmaSmsMessage) : List UInt8 :=
  let (pdu, length) := rilCdmaSmsPdu (packDigits m) (List.replicate 255 0)
  -- the bearer reply option
  let pdu := store pdu length [0x06, 0x01, 0x00]
  let length := length + 3
  let pdu := store pdu length [0x08, UInt8.ofNat m.uBearerDataLen]
  let pdu := store pdu (length + 2) (m.aBearerData.take m.uBearerDataLen)
  pdu.take (length + 2 + m.uBearerDataLen)

/-- `RILEncodeCdmaSmsPdu`: `s_pdu`, `s_number` and the message after it. -/
def rilEncodeCdmaSmsPdu (m : CdmaSmsMessage) : Line × Line × CdmaSmsMessage :=
  (convertAscii (encodeBytes m), m.sAddress.digits.take m.sAddress.numberOfDigits.toNat,
    packDigits m)

/-! ## Decoding -/

/-- `RILNumDTMFToChar`, with the byte of `-1` for an invalid digit -/
def rilNumDtmfToChar (digit : UInt8) : UInt8 :=
  if 1 ≤ digit && digit ≤ 9 then digit + 48
  else if digit = 0 || digit = 10 then 48
  else if digit = 11 then 42
  else if digit = 12 then 35
  else if digit = 13 then 80
  else if digit = 14 then 84
  else 0xff

/-- The digit at a place of packed digits. -/
def dtmfDigit (digits : List UInt8) (k : Nat) : UInt8 :=
  if k % 2 = 0 then shiftRight (digits.getD (k / 2) 0) 4 else digits.getD (k / 2) 0 &&& 0x0f

/-- The characters of packed digits. -/
def asciiNum (digits : List UInt8) (n : Nat) : List UInt8 :=
  (List.range n).map fun k => rilNumDtmfToChar (dtmfDigit digits k)

/-- The fields of an address before the number of digits, and the bit and the
size of a digit behind them. -/
def extractModes (bytePdu : List UInt8) (addr : CdmaSmsAddress) : CdmaSmsAddress × Nat × Nat :=
  let addr := { addr with
    digitMode := (getuint8 bytePdu 0 1).toNat, numberMode := (getuint8 bytePdu 1 1).toNat }
  if addr.digitMode ≠ 0 then
    let addr := { addr with numberType := (getuint8 bytePdu 2 3).toNat }
    if addr.numberMode ≠ 0 then (addr, 5, 8)
    else ({ addr with numberPlan := (getuint8 bytePdu 5 4).toNat }, 9, 8)
  else (addr, 2, 4)

/-- `RILCdmaSmsExtractAddress`; its result, the length, is not used. -/
def rilCdmaSmsExtractAddress (bytePdu : List UInt8) (addr : CdmaSmsAddress) : CdmaSmsAddress :=
  let (addr, startBit, size) := extractModes bytePdu addr
  let numberOfDigits := getuint8 bytePdu startBit 8
  let n := numberOfDigits.toNat
  let digits := copyFields bytePdu size n (startBit + 8) 0 addr.digits
  if addr.digitMode = 0 then
    { addr with numberOfDigits, digits := store digits 0 (asciiNum digits n), digitMode := 1 }
  else { addr with numberOfDigits, digits }

/-- `RILCdmaSmsExtractSubaddress` -/
def rilCdmaSmsExtractSubaddress (bytePdu : List UInt8) (addr : CdmaSmsSubaddress) :
    CdmaSmsSubaddress :=
  let numberOfDigits := getuint8 bytePdu 4 8
  { subaddressType := (getuint8 bytePdu 0 3).toNat
    odd := getuint8 bytePdu 3 1
    numberOfDigits
    digits := store addr.digits 0
      ((List.range numberOfDigits.toNat).map fun i => getuint8 bytePdu (12 + 8 * i) 8) }

/-- The `switch` of `ProcessCdmaIncomingSms`. -/
def processParam (paramId : UInt8) (paramLen : Nat) (value : List UInt8) (m : CdmaSmsMessage) :
    CdmaSmsMessage :=
  if paramId = 0 then
    if paramLen ≠ 2 then m
    else { m with uTeleserviceId := (value.getD 0 0).toNat <<< 8 ||| (value.getD 1 0).toNat }
  else if paramId = 2 || paramId = 4 then
    { m with sAddress := rilCdmaSmsExtractAddress value m.sAddress }
  else if paramId = 3 || paramId = 5 then
    { m with sSubAddress := rilCdmaSmsExtractSubaddress value m.sSubAddress }
  else if paramId = 7 || paramId = 8 then
    -- the cause code is not followed by a `break`
    { m with
      uBearerDataLen := paramLen, aBearerData := store m.aBearerData 0 (value.take paramLen) }
  else m

/-- The loop of `ProcessCdmaIncomingSms`. The index grows by two or more with
each parameter, so it ends within `length` rounds. -/
def processParams (bytePdu : List UInt8) (length : Nat) :
    Nat → Nat → CdmaSmsMessage → CdmaSmsMessage
  | 0, _, m => m
  | fuel + 1, index, m =>
    if index < length then
      let paramLen := (bytePdu.getD (index + 1) 0).toNat
      processParams bytePdu length fuel (index + 2 + paramLen)
        (processParam (bytePdu.getD index 0) paramLen (bytePdu.drop (index + 2)) m)
    else m

/-- `ProcessCdmaIncomingSms` -/
def processCdmaIncomingSms (bytePdu : List UInt8) (length : Nat) (m : CdmaSmsMessage) :
    CdmaSmsMessage :=
  processParams bytePdu length length 1 m

/-- The receiver: the text of a PDU is converted into the array `bytePdu` and
processed. -/
def decodeCdmaSms (pdu : Line) (bytePdu : List UInt8) (m : CdmaSmsMessage) : CdmaSmsMessage :=
  let len := pdu.length / 2
  processCdmaIncomingSms (convertByte pdu bytePdu len) len m

end Arale.C2k
