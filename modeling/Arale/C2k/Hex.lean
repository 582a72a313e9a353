import Arale.At.Tok

/-!
# Hex digits of the C2K vendor code

PDUs and phonebook names are sent as text, two digits a byte. `ConvertAscii`
writes that text and `ConvertByte` reads it back; `convertByte_convertAscii` is
the round trip.
-/

namespace Arale.C2k

open Arale.At (Line)

/-- `ConvertChar` -/
def convertChar (value : UInt8) : UInt8 :=
  if value ≤ 9 then value + 48
  else if 0xa ≤ value && value ≤ 0xf then value + 87
  else value

/-- `ConvertAscii`: the digits of the bytes. -/
def convertAscii (pdu : List UInt8) : Line :=
  pdu.flatMap fun (b : UInt8) => [convertChar ((0xf0 &&& b) >>> 4), convertChar (0x0f &&& b)]

/-- `ConvertNum`, with the byte of `-1` for a character that is no digit. -/
def convertNum (s : UInt8) : UInt8 :=
  if 48 ≤ s && s ≤ 57 then s - 48
  else if 97 ≤ s && s ≤ 102 then s - 87
  else if 65 ≤ s && s ≤ 70 then s - 55
  else 0xff

/-- The loop of `ConvertByte`. -/
def convertPairs : Line → List UInt8
  | high :: low :: pdu => (convertNum high <<< 4 ||| convertNum low) :: convertPairs pdu
  | _ => []

/-- `ConvertByte`: the buffer `bytePdu` is left as it is when the text does not
have the length that is asked for. -/
def convertByte (pdu : Line) (bytePdu : List UInt8) (len : Nat) : List UInt8 :=
  if pdu.length / 2 ≠ len then bytePdu
  else convertPairs pdu ++ bytePdu.drop len

theorem length_convertAscii (pdu : List UInt8) : (convertAscii pdu).length = 2 * pdu.length := by
  induction pdu with
  | nil => rfl
  | cons b pdu ih =>
    simp only [convertAscii, List.flatMap_cons, List.length_append, List.length_cons,
      List.length_nil] at ih ⊢
    omega

/-- The two digits of a byte read back as that byte. -/
theorem convertNum_convertChar (b : UInt8) :
    convertNum (convertChar ((0xf0 &&& b) >>> 4)) <<< 4 ||| convertNum (convertChar (0x0f &&& b))
      = b := by
  have hall : ∀ n : Fin 256, convertNum (convertChar ((0xf0 &&& UInt8.ofFin n) >>> 4)) <<< 4
      ||| convertNum (convertChar (0x0f &&& UInt8.ofFin n)) = UInt8.ofFin n := by decide +kernel
  exact hall b.toFin

theorem convertPairs_convertAscii (pdu : List UInt8) : convertPairs (convertAscii pdu) = pdu := by
  induction pdu with
  | nil => rfl
  | cons b pdu ih =>
    rw [convertAscii, List.flatMap_cons]
    simp only [List.cons_append, List.nil_append, convertPairs, convertNum_convertChar]
    rw [← convertAscii, ih]

/-- `ConvertByte` reads what `ConvertAscii` writes. -/
theorem convertByte_convertAscii (pdu bytePdu : List UInt8) :
    convertByte (convertAscii pdu) bytePdu pdu.length = pdu ++ bytePdu.drop pdu.length := by
  have hlen : (convertAscii pdu).length / 2 = pdu.length := by
    rw [length_convertAscii]
    omega
  rw [convertByte, if_neg (not_not_intro hlen), convertPairs_convertAscii]

end Arale.C2k
