import Mathlib.Algebra.Group.Nat.Defs
import Mathlib.Data.List.TakeWhile
import Arale.Lib.Checked
import Arale.Lib.Tlv
import Arale.Ril.SmsAck

/-!
# Whether an STK command is displayed

`checkStkCmdDisplay` walks through the hex text of a proactive command. The
elements are COMPREHENSION-TLVs: the length is one byte up to `7F`, and above
that `81` and a second byte. The walk stops at an icon that is not
self-explanatory, if no text came before it.

> `stk_display_exact`: for every row of elements the walk ends, stays in front
> of the NUL, and returns 1 exactly if there is such an icon.

The text is `hexText` of the bytes. A read behind the NUL ends the model with
`outside`, so a result is also a statement about the reads.
-/

namespace Arale.Ril.Stk

open List
open Arale.Lib (Tlv ok_bind)
open Arale.At (Line bytes isspace skipWhiteSpace)

/-! ## Model -/

inductive Stop where
  /-- A read behind the NUL of a string. -/
  | outside
  /-- The loop has not ended yet. -/
  | running
deriving DecidableEq

/-- A character of a string, up to its NUL. -/
def charAt (s : Line) (i : Nat) : Except Stop UInt8 :=
  if i ≤ s.length then .ok ((s ++ [0]).getD i 0) else .error .outside

/-- `memcpy` of `n` characters. -/
def copyChars (s : Line) (i n : Nat) : Except Stop Line :=
  if i + n ≤ s.length + 1 then .ok (((s ++ [0]).drop i).take n) else .error .outside

/-- `strtoul` in base 16, of 32 bits. -/
def strtoul16 (s : Line) : Nat :=
  let cur := skipWhiteSpace s
  let negative := cur.head? == some 45
  let cur := if negative || cur.head? == some 43 then cur.drop 1 else cur
  let marked := cur.head? == some 48 && (cur[1]? == some 88 || cur[1]? == some 120)
    && (cur[2]?.any fun c => (hexDigit c).isSome)
  let cur := if marked then cur.drop 2 else cur
  let value := (cur.takeWhile fun c => (hexDigit c).isSome).foldl
    (fun v c => v * 16 + (hexDigit c).getD 0) 0
  if 2 ^ 32 ≤ value then 2 ^ 32 - 1 else if negative then (2 ^ 32 - value) % 2 ^ 32 else value

/-- Behind the length at `index` and as many bytes. -/
def skipLength (cmd : Line) (index : Nat) : Except Stop Nat := do
  if (← charAt cmd index) ≤ 55 then
    return index + (strtoul16 (← copyChars cmd index 2) + 1) * 2
  else
    return index + (strtoul16 (← copyChars cmd (index + 2) 2) + 2) * 2

/-- The loop of `checkStkCmdDisplay`. -/
def displayLoop (cmd : Line) : Nat → Nat → Bool → Except Stop Nat
  | fuel, index, isAlphaIdExisted =>
    if cmd.length ≤ index then .ok 0
    else
      match fuel with
      | 0 => .error .running
      | fuel + 1 => do
        let high ← charAt cmd index
        let low ← charAt cmd (index + 1)
        if low = 53 ∧ (high = 48 ∨ high = 56) then
          let l₀ ← charAt cmd (index + 2)
          let l₁ ← charAt cmd (index + 3)
          let next ← skipLength cmd (index + 2)
          displayLoop cmd fuel next (isAlphaIdExisted || l₀ != 48 || l₁ != 48)
        else if (low = 69 ∨ low = 101) ∧ (high = 49 ∨ high = 57) then
          let iconQualifier := strtoul16 [← charAt cmd (index + 5)]
          if iconQualifier &&& 1 = 1 ∧ isAlphaIdExisted = false then return 1
          else displayLoop cmd fuel (index + 8) isAlphaIdExisted
        else
          let next ← skipLength cmd (index + 2)
          displayLoop cmd fuel next isAlphaIdExisted

/-- `checkStkCmdDisplay` -/
def checkStkCmdDisplay (cmd : Line) : Except Stop Nat := displayLoop cmd cmd.length 0 false

/-! ## Hex text -/

/-- The two digits of a byte. -/
def hexByte (b : UInt8) : Line := [upperHex (b.toNat / 16), upperHex (b.toNat % 16)]

/-- Bytes in upper case. -/
def hexText (bytes : List UInt8) : Line := bytes.flatMap hexByte

theorem hexText_append (xs ys : List UInt8) : hexText (xs ++ ys) = hexText xs ++ hexText ys :=
  flatMap_append

@[simp] theorem hexText_cons (b : UInt8) (xs : List UInt8) :
    hexText (b :: xs) = upperHex (b.toNat / 16) :: upperHex (b.toNat % 16) :: hexText xs := rfl

@[simp] theorem length_hexText (xs : List UInt8) : (hexText xs).length = 2 * xs.length := by
  induction xs with
  | nil => rfl
  | cons b xs ih =>
    rw [hexText_cons, length_cons, length_cons, ih, length_cons]
    omega

/-! ## Digits -/

variable {d n : Nat}

/-- The digits in upper case stand between `0` and `F`. -/
theorem upperHex_range (hd : d < 16) : 48 ≤ (upperHex d).toNat ∧ (upperHex d).toNat ≤ 70 := by
  have hall : ∀ d : Fin 16, 48 ≤ (upperHex d).toNat ∧ (upperHex d).toNat ≤ 70 := by decide
  exact hall ⟨d, hd⟩

variable {c : UInt8}

theorem upperHex_ne (hd : d < 16) (hc : c.toNat < 48 ∨ 70 < c.toNat) : upperHex d ≠ c := by
  rintro rfl
  have hrange := upperHex_range hd
  omega

theorem hexDigit_upperHex (hd : d < 16) : hexDigit (upperHex d) = some d := by
  have hall : ∀ d : Fin 16, hexDigit (upperHex d) = some d.val := by decide
  exact hall ⟨d, hd⟩

/-- Different digits have different characters. -/
theorem upperHex_eq {e : Nat} (hd : d < 16) (he : e < 16) (hc : upperHex e = c) :
    upperHex d = c ↔ d = e := by
  subst hc
  constructor
  · intro h
    have hsame := congrArg hexDigit h
    rw [hexDigit_upperHex hd, hexDigit_upperHex he] at hsame
    exact Option.some.inj hsame
  · rintro rfl
    rfl

section Strtoul

variable {ds : List Nat}

/-- The number that digits write. -/
def hexValue (ds : List Nat) : Nat := ds.foldl (fun v d => v * 16 + d) 0

theorem skipWhiteSpace_digits (hds : ∀ d ∈ ds, d < 16) :
    skipWhiteSpace (ds.map upperHex) = ds.map upperHex := by
  cases ds with
  | nil => rfl
  | cons d ds =>
    have hspace : ∀ d : Fin 16, isspace (upperHex d) = false := by decide
    have hhead := hspace ⟨d, hds d mem_cons_self⟩
    exact dropWhile_cons_of_neg (by rw [hhead]; decide)

/-- No character of the digits is a sign or the mark of a base. -/
theorem getElem?_digits (hds : ∀ d ∈ ds, d < 16) (k : Nat) {c : UInt8}
    (hc : c.toNat < 48 ∨ 70 < c.toNat) : ((ds.map upperHex)[k]? == some c) = false := by
  rw [List.getElem?_map, beq_eq_false_iff_ne]
  intro h
  obtain ⟨d, hd, heq⟩ := Option.map_eq_some_iff.mp h
  exact upperHex_ne (hds d (mem_of_getElem? hd)) hc heq

theorem takeWhile_digits (hds : ∀ d ∈ ds, d < 16) :
    (ds.map upperHex).takeWhile (fun c => (hexDigit c).isSome) = ds.map upperHex := by
  rw [takeWhile_eq_self_iff]
  intro c hc
  obtain ⟨d, hd, rfl⟩ := mem_map.mp hc
  rw [hexDigit_upperHex (hds d hd)]
  rfl

theorem foldl_digits (hds : ∀ d ∈ ds, d < 16) (v : Nat) :
    (ds.map upperHex).foldl (fun v c => v * 16 + (hexDigit c).getD 0) v
      = ds.foldl (fun v d => v * 16 + d) v := by
  induction ds generalizing v with
  | nil => rfl
  | cons d ds ih =>
    rw [map_cons, foldl_cons, foldl_cons, hexDigit_upperHex (hds d mem_cons_self)]
    exact ih (fun e he => hds e (mem_cons_of_mem _ he)) _

/-- Digits are read to their end. -/
theorem strtoul16_digits (hds : ∀ d ∈ ds, d < 16) (hvalue : hexValue ds < 2 ^ 32) :
    strtoul16 (ds.map upperHex) = hexValue ds := by
  have hminus := getElem?_digits hds 0
    (show (45 : UInt8).toNat < 48 ∨ 70 < (45 : UInt8).toNat by decide)
  have hplus := getElem?_digits hds 0
    (show (43 : UInt8).toNat < 48 ∨ 70 < (43 : UInt8).toNat by decide)
  have hmark := getElem?_digits hds 1
    (show (88 : UInt8).toNat < 48 ∨ 70 < (88 : UInt8).toNat by decide)
  have hsmall := getElem?_digits hds 1
    (show (120 : UInt8).toNat < 48 ∨ 70 < (120 : UInt8).toNat by decide)
  rw [← List.head?_eq_getElem?] at hminus hplus
  unfold strtoul16
  simp only [skipWhiteSpace_digits hds, hminus, hplus, hmark, hsmall, Bool.or_false, Bool.and_false,
    Bool.false_and, Bool.false_eq_true, if_false, takeWhile_digits hds, foldl_digits hds]
  exact if_neg (Nat.not_le.mpr hvalue)

end Strtoul

theorem nibble_lt (b : UInt8) : b.toNat / 16 < 16 ∧ b.toNat % 16 < 16 := by
  have hlt : b.toNat < 256 := b.toNat_lt
  omega

/-- Different bytes differ in one of their two characters. -/
theorem digits_iff (b x : UInt8) :
    (upperHex (b.toNat / 16) = upperHex (x.toNat / 16) ∧
      upperHex (b.toNat % 16) = upperHex (x.toNat % 16)) ↔ b = x := by
  obtain ⟨hhigh, hlow⟩ := nibble_lt b
  obtain ⟨hhigh', hlow'⟩ := nibble_lt x
  rw [upperHex_eq hhigh hhigh' rfl, upperHex_eq hlow hlow' rfl, ← UInt8.toNat_inj]
  omega

/-- The value of a pair of digits, for every byte. -/
theorem strtoul16_hexByte (b : UInt8) : strtoul16 (hexByte b) = b.toNat := by
  obtain ⟨hhigh, hlow⟩ := nibble_lt b
  have hvalue : hexValue [b.toNat / 16, b.toNat % 16] = b.toNat := by
    show (0 * 16 + b.toNat / 16) * 16 + b.toNat % 16 = b.toNat
    omega
  have hread := @strtoul16_digits [b.toNat / 16, b.toNat % 16] (by simp [hhigh, hlow]) (by omega)
  exact hread.trans hvalue

/-! ## Reads -/

/-- A read behind a text is a read of what follows it. -/
theorem charAt_behind (pre s : Line) (k : Nat) :
    charAt (pre ++ s) (pre.length + k) = charAt s k := by
  unfold charAt
  rw [length_append, append_assoc, getD_eq_getElem?_getD,
    List.getElem?_append_right (Nat.le_add_right _ _), Nat.add_sub_cancel_left,
    ← getD_eq_getElem?_getD]
  by_cases h : k ≤ s.length
  · rw [if_pos h, if_pos (by omega)]
  · rw [if_neg h, if_neg (by omega)]

theorem copyChars_behind (pre s : Line) (k n : Nat) :
    copyChars (pre ++ s) (pre.length + k) n = copyChars s k n := by
  unfold copyChars
  rw [length_append, append_assoc, ← drop_drop, drop_left]
  by_cases h : k + n ≤ s.length + 1
  · rw [if_pos h, if_pos (by omega)]
  · rw [if_neg h, if_neg (by omega)]

theorem charAt_of_getElem? {s : Line} {i : Nat} (h : s[i]? = some c) : charAt s i = .ok c := by
  have hlt : i < s.length := (List.getElem?_eq_some_iff.mp h).1
  rw [charAt, if_pos (Nat.le_of_lt hlt), getD_eq_getElem?_getD,
    List.getElem?_append_left hlt, h]
  rfl

/-- Two digits in a text. -/
theorem copyChars_hexByte (pre : List UInt8) (b : UInt8) (rest : Line) :
    copyChars (hexText pre ++ (hexByte b ++ rest)) (2 * pre.length) 2 = .ok (hexByte b) := by
  have hplace := copyChars_behind (hexText pre) (hexByte b ++ rest) 0 2
  rw [length_hexText, Nat.add_zero] at hplace
  rw [hplace, copyChars, if_pos]
  · rfl
  · show 2 ≤ (hexByte b ++ rest).length + 1
    rw [length_append]
    show 2 ≤ 2 + rest.length + 1
    omega

/-! ## Elements -/

/-- The length of a COMPREHENSION-TLV. -/
def lengthField (n : Nat) : List UInt8 :=
  if n < 0x80 then [UInt8.ofNat n] else [0x81, UInt8.ofNat n]

/-- The bytes of a COMPREHENSION-TLV. -/
def elementBytes (t : Tlv) : List UInt8 := t.tag :: (lengthField t.value.length ++ t.value)

/-- The bytes of a row of elements. -/
def commandBytes (ts : List Tlv) : List UInt8 := ts.flatMap elementBytes

theorem hexText_commandBytes (t : Tlv) (ts : List Tlv) :
    hexText (commandBytes (t :: ts)) = hexText (elementBytes t) ++ hexText (commandBytes ts) := by
  rw [← hexText_append]
  rfl

/-- Up to 128 bytes the first byte of the length leads behind the element. -/
theorem lengthField_first (hn : n ≤ 0x80) :
    ∃ b field, lengthField n = b :: field ∧ b.toNat = n + field.length := by
  obtain hshort | hmax : n < 0x80 ∨ n = 0x80 := by omega
  · refine ⟨UInt8.ofNat n, [], if_pos hshort, ?_⟩
    apply UInt8.toNat_ofNat_of_lt
    show n < 256
    omega
  · subst hmax
    exact ⟨0x81, [0x80], rfl, rfl⟩

/-- The length in front of a value leads behind the value. -/
theorem skipLength_element (hn : n < 256) {value : List UInt8} (hvalue : value.length = n)
    (pre rest : Line) :
    skipLength (pre ++ (hexText (lengthField n ++ value) ++ rest)) pre.length
      = .ok (pre.length + 2 * (lengthField n ++ value).length) := by
  have hbyte : (UInt8.ofNat n).toNat = n :=
    UInt8.toNat_ofNat_of_lt (Nat.lt_of_lt_of_le hn (by decide))
  have hfirst (text : Line) : charAt (pre ++ text) pre.length = charAt text 0 :=
    charAt_behind pre text 0
  have hcopy (text : Line) : copyChars (pre ++ text) pre.length 2 = copyChars text 0 2 :=
    copyChars_behind pre text 0 2
  rw [skipLength, hfirst, hcopy, copyChars_behind, length_append, hvalue]
  by_cases hshort : n < 0x80
  · have hdigit : upperHex (n / 16) ≤ 55 := by
      have hall : ∀ k : Fin 8, upperHex k.val ≤ 55 := by decide
      exact hall ⟨n / 16, by omega⟩
    rw [show lengthField n = [UInt8.ofNat n] from if_pos hshort]
    have hread : charAt (hexText ([UInt8.ofNat n] ++ value) ++ rest) 0 = _ := charAt_of_getElem? rfl
    have htwo : copyChars (hexText ([UInt8.ofNat n] ++ value) ++ rest) 0 2 = _ :=
      copyChars_hexByte [] (UInt8.ofNat n) (hexText value ++ rest)
    rw [← hbyte] at hdigit
    rw [hread, ok_bind, if_pos hdigit, htwo, ok_bind, strtoul16_hexByte, hbyte]
    congr 1
    show _ = pre.length + 2 * (1 + n)
    omega
  · rw [show lengthField n = [0x81, UInt8.ofNat n] from if_neg hshort]
    have hread : charAt (hexText ([0x81, UInt8.ofNat n] ++ value) ++ rest) 0 = .ok 56 :=
      charAt_of_getElem? rfl
    have htwo : copyChars (hexText ([0x81, UInt8.ofNat n] ++ value) ++ rest) 2 2 = _ :=
      copyChars_hexByte [0x81] (UInt8.ofNat n) (hexText value ++ rest)
    rw [hread, ok_bind, if_neg (by decide), htwo, ok_bind, strtoul16_hexByte, hbyte]
    congr 1
    show _ = pre.length + 2 * (2 + n)
    omega

/-! ## The walk -/

def IsAlphaId (t : Tlv) : Prop := t.tag = 0x05 ∨ t.tag = 0x85

def IsIcon (t : Tlv) : Prop := t.tag = 0x1E ∨ t.tag = 0x9E

instance (t : Tlv) : Decidable (IsAlphaId t) := inferInstanceAs (Decidable (_ ∨ _))

instance (t : Tlv) : Decidable (IsIcon t) := inferInstanceAs (Decidable (_ ∨ _))

/-- A text that is not empty. -/
def HasText (t : Tlv) : Prop := IsAlphaId t ∧ t.value ≠ []

instance (t : Tlv) : Decidable (HasText t) := inferInstanceAs (Decidable (_ ∧ _))

/-- An icon that needs a text beside it: bit 0 of the qualifier. -/
def NotSelfExplanatory (t : Tlv) : Prop := IsIcon t ∧ (t.value.getD 0 0).toNat.testBit 0 = true

instance (t : Tlv) : Decidable (NotSelfExplanatory t) := inferInstanceAs (Decidable (_ ∧ _))

/-- Some icon needs a text and none came before it. -/
def DisplayNeeded (ts : List Tlv) : Prop :=
  ∃ before t behind, ts = before ++ t :: behind ∧ NotSelfExplanatory t ∧ ∀ a ∈ before, ¬ HasText a

theorem IsAlphaId.not_icon {t : Tlv} (h : IsAlphaId t) : ¬ IsIcon t := by
  obtain htag | htag := h
  · rw [IsIcon, htag]
    decide
  · rw [IsIcon, htag]
    decide

/-- What the walk finds from an element on. -/
def found (isAlphaIdExisted : Bool) : List Tlv → Nat
  | [] => 0
  | t :: ts =>
    if NotSelfExplanatory t ∧ isAlphaIdExisted = false then 1
    else found (isAlphaIdExisted || decide (HasText t)) ts

/-- The two characters of a tag decide the branch. -/
theorem tag_alpha (b : UInt8) :
    (upperHex (b.toNat % 16) = 53 ∧ (upperHex (b.toNat / 16) = 48 ∨ upperHex (b.toNat / 16) = 56))
      ↔ b = 0x05 ∨ b = 0x85 := by
  rw [and_comm, or_and_right]
  exact or_congr (digits_iff b 0x05) (digits_iff b 0x85)

theorem tag_icon (b : UInt8) :
    ((upperHex (b.toNat % 16) = 69 ∨ upperHex (b.toNat % 16) = 101) ∧
      (upperHex (b.toNat / 16) = 49 ∨ upperHex (b.toNat / 16) = 57)) ↔ b = 0x1E ∨ b = 0x9E := by
  have hlower : upperHex (b.toNat % 16) ≠ 101 := upperHex_ne (nibble_lt b).2 (by decide)
  rw [or_iff_left hlower, and_comm, or_and_right]
  exact or_congr (digits_iff b 0x1E) (digits_iff b 0x9E)

/-- The second digit of the qualifier has its bit 0. -/
theorem qualifier_bit (b : UInt8) :
    strtoul16 [upperHex (b.toNat % 16)] &&& 1 = 1 ↔ b.toNat.testBit 0 = true := by
  have hlow := (nibble_lt b).2
  have hvalue : hexValue [b.toNat % 16] = b.toNat % 16 := Nat.zero_add _
  have hread := @strtoul16_digits [b.toNat % 16] (by simp [hlow]) (by omega)
  rw [show [upperHex (b.toNat % 16)] = [b.toNat % 16].map upperHex from rfl, hread, hvalue,
    Nat.and_one_is_mod, Nat.testBit_zero, decide_eq_true_iff]
  omega

/-- A length is written as `00` only for an empty value. -/
theorem length_digits (hn : n < 256) :
    ∃ b field, lengthField n = b :: field ∧
      (upperHex (b.toNat / 16) != 48 || upperHex (b.toNat % 16) != 48) = decide (n ≠ 0) := by
  have hall : ∀ n : Fin 256, (upperHex (((lengthField n.val).getD 0 0).toNat / 16) != 48 ||
      upperHex (((lengthField n.val).getD 0 0).toNat % 16) != 48) = decide (n.val ≠ 0) := by
    decide +kernel
  have hdigits := hall ⟨n, hn⟩
  obtain ⟨b, field, hfield⟩ : ∃ b field, lengthField n = b :: field := by
    unfold lengthField
    split <;> exact ⟨_, _, rfl⟩
  rw [hfield] at hdigits
  exact ⟨b, field, hfield, hdigits⟩

section Walk

variable {t : Tlv} {pre rest : Line}

/-- The characters of an element behind its tag. -/
theorem element_text (t : Tlv) : hexText (elementBytes t)
    = hexByte t.tag ++ hexText (lengthField t.value.length ++ t.value) := rfl

/-- One round in front of an element. -/
theorem displayLoop_element (hicon : IsIcon t → t.value.length = 2) (fuel : Nat) (alpha : Bool) :
    displayLoop (pre ++ (hexText (elementBytes t) ++ rest)) (fuel + 1) pre.length alpha
      = if NotSelfExplanatory t ∧ alpha = false then .ok 1
        else displayLoop (pre ++ (hexText (elementBytes t) ++ rest)) fuel
          (pre.length + 2 * (elementBytes t).length) (alpha || decide (HasText t)) := by
  have hread : ∀ k c, (hexText (elementBytes t) ++ rest)[k]? = some c →
      charAt (pre ++ (hexText (elementBytes t) ++ rest)) (pre.length + k) = .ok c := fun k c hk =>
    (charAt_behind pre _ k).trans (charAt_of_getElem? hk)
  have hhigh := hread 0 (upperHex (t.tag.toNat / 16)) rfl
  have hlow := hread 1 (upperHex (t.tag.toNat % 16)) rfl
  have hnext : skipLength (pre ++ (hexText (elementBytes t) ++ rest)) (pre.length + 2)
      = .ok (pre.length + 2 * (elementBytes t).length) := by
    have hskip := skipLength_element t.short rfl (pre ++ hexByte t.tag) rest
    rw [append_assoc, ← append_assoc (hexByte t.tag), ← element_text,
      length_append] at hskip
    rw [show pre.length + 2 = pre.length + (hexByte t.tag).length from rfl, hskip]
    congr 1
    show pre.length + 2 + 2 * _ = pre.length + 2 * (_ + 1)
    omega
  have hlt : ¬ (pre ++ (hexText (elementBytes t) ++ rest)).length ≤ pre.length := by
    rw [length_append, length_append, length_hexText, elementBytes, length_cons]
    omega
  rw [displayLoop, if_neg hlt]
  rw [Nat.add_zero] at hhigh
  simp only [hhigh, hlow, hnext, ok_bind]
  by_cases halpha : IsAlphaId t
  · -- a text sets the flag
    obtain ⟨b, field, hfield, hdigits⟩ := length_digits t.short
    have htext : hexText (elementBytes t) ++ rest = hexByte t.tag ++ (hexByte b ++
        (hexText (field ++ t.value) ++ rest)) := by
      rw [element_text, hfield]
      rfl
    have hl₀ := hread 2 (upperHex (b.toNat / 16)) (by rw [htext]; rfl)
    have hl₁ := hread 3 (upperHex (b.toNat % 16)) (by rw [htext]; rfl)
    have hflag : decide (HasText t) = decide (t.value.length ≠ 0) := by
      apply decide_eq_decide.mpr
      rw [HasText, ne_eq, ne_eq, length_eq_zero_iff]
      exact and_iff_right halpha
    rw [if_pos ((tag_alpha t.tag).mpr halpha), if_neg fun h => halpha.not_icon h.1.1, hflag,
      ← hdigits]
    simp only [hl₀, hl₁, ok_bind, Bool.or_assoc]
  have hnotext : decide (HasText t) = false := decide_eq_false fun h => halpha h.1
  rw [if_neg (fun h => halpha ((tag_alpha t.tag).mp h)), hnotext, Bool.or_false]
  by_cases hiconTag : IsIcon t
  · -- an icon has two bytes, and the first is the qualifier
    obtain ⟨q, id, hvalue⟩ := length_eq_two.mp (hicon hiconTag)
    have hbytes : elementBytes t = [t.tag, 2, q, id] := by
      rw [elementBytes, hvalue]
      rfl
    have hqualifier := hread 5 (upperHex (q.toNat % 16)) (by rw [hbytes]; rfl)
    have hneeds : NotSelfExplanatory t ↔ strtoul16 [upperHex (q.toNat % 16)] &&& 1 = 1 := by
      rw [qualifier_bit, NotSelfExplanatory, hvalue]
      exact and_iff_right hiconTag
    rw [if_pos ((tag_icon t.tag).mpr hiconTag)]
    have hlength : (elementBytes t).length = 4 := by
      rw [hbytes]
      rfl
    simp only [hqualifier, ok_bind, hneeds, hlength]
    rfl
  · rw [if_neg fun h => hiconTag ((tag_icon t.tag).mp h), if_neg fun h => hiconTag h.1.1]

end Walk

theorem displayLoop_command {ts : List Tlv} (hicons : ∀ t ∈ ts, IsIcon t → t.value.length = 2)
    (pre : Line) {fuel : Nat} (hfuel : ts.length ≤ fuel) (alpha : Bool) :
    displayLoop (pre ++ hexText (commandBytes ts)) fuel pre.length alpha
      = .ok (found alpha ts) := by
  -- the walk goes from element to element, with the elements behind it in `pre`
  induction ts generalizing pre fuel alpha with
  | nil =>
    have hend : (pre ++ hexText (commandBytes [])).length ≤ pre.length :=
      Nat.le_of_eq (congrArg List.length (append_nil pre))
    cases fuel with
    | zero | succ fuel => rw [displayLoop, if_pos hend, found]
  | cons t ts ih =>
    obtain ⟨fuel, rfl⟩ : ∃ n, fuel = n + 1 := by
      refine ⟨fuel - 1, ?_⟩
      rw [length_cons] at hfuel
      omega
    rw [hexText_commandBytes, displayLoop_element (hicons t mem_cons_self), found]
    split
    · rfl
    · rw [← length_hexText, ← length_append, ← append_assoc]
      exact ih (fun u hu => hicons u (mem_cons_of_mem _ hu)) _ (Nat.le_of_succ_le_succ hfuel) _

theorem found_text (ts : List Tlv) : found true ts = 0 := by
  induction ts with
  | nil => rfl
  | cons t ts ih =>
    rw [found, if_neg (by simp), Bool.true_or]
    exact ih

theorem displayNeeded_cons (t : Tlv) (ts : List Tlv) :
    DisplayNeeded (t :: ts) ↔ NotSelfExplanatory t ∨ ¬ HasText t ∧ DisplayNeeded ts := by
  constructor
  · rintro ⟨before, u, behind, heq, hu, hbefore⟩
    cases before with
    | nil =>
      obtain ⟨rfl, rfl⟩ := List.cons.inj heq
      exact .inl hu
    | cons a before =>
      obtain ⟨rfl, rfl⟩ := List.cons.inj heq
      obtain ⟨htext, hbefore⟩ := forall_mem_cons.mp hbefore
      exact .inr ⟨htext, before, u, behind, rfl, hu, hbefore⟩
  · rintro (hneeds | ⟨htext, before, u, behind, rfl, hu, hbefore⟩)
    · exact ⟨[], t, ts, rfl, hneeds, fun a ha => absurd ha not_mem_nil⟩
    · exact ⟨t :: before, u, behind, rfl, hu, forall_mem_cons.mpr ⟨htext, hbefore⟩⟩

theorem found_eq_one (ts : List Tlv) : found false ts = 1 ↔ DisplayNeeded ts := by
  induction ts with
  | nil =>
    refine ⟨fun h => absurd h (by decide), ?_⟩
    rintro ⟨before, t, behind, heq, -⟩
    exact absurd heq (append_ne_nil_of_right_ne_nil before (cons_ne_nil t behind)).symm
  | cons t ts ih =>
    rw [displayNeeded_cons]
    by_cases hneeds : NotSelfExplanatory t
    · rw [found, if_pos ⟨hneeds, rfl⟩]
      exact iff_of_true rfl (.inl hneeds)
    · rw [found, if_neg fun h => hneeds h.1, Bool.false_or, or_iff_right hneeds]
      by_cases htext : HasText t
      · rw [decide_eq_true htext, found_text]
        exact iff_of_false (by decide) fun h => h.1 htext
      · rw [decide_eq_false htext, ih]
        exact (and_iff_right htext).symm

theorem found_le (ts : List Tlv) (alpha : Bool) : found alpha ts ≤ 1 := by
  induction ts generalizing alpha with
  | nil => exact Nat.zero_le 1
  | cons t ts ih =>
    rw [found]
    split
    · exact Nat.le_refl 1
    · exact ih _

theorem length_commandBytes_ge (ts : List Tlv) :
    ts.length ≤ (hexText (commandBytes ts)).length := by
  induction ts with
  | nil => exact Nat.le_refl 0
  | cons t ts ih =>
    rw [hexText_commandBytes, length_append, elementBytes, length_hexText, length_cons, length_cons]
    omega

/-- The walk ends inside the text, and returns 1 exactly if an icon needs a text
and none came before it. -/
theorem stk_display_exact (ts : List Tlv) (hicons : ∀ t ∈ ts, IsIcon t → t.value.length = 2) :
    ∃ r, checkStkCmdDisplay (hexText (commandBytes ts)) = .ok r ∧ (r = 0 ∨ r = 1) ∧
      (r = 1 ↔ DisplayNeeded ts) := by
  have hle := found_le ts false
  refine ⟨found false ts, displayLoop_command hicons [] (length_commandBytes_ge ts) false, by omega,
    found_eq_one ts⟩

/-- A long text behind a self-explanatory icon, and then one that is not. -/
def sampleDisplay : List Tlv :=
  [.of 0x81 [1, 0x21, 0], .of 0x9E [0, 1], .of 0x8D (replicate 200 0x41), .of 0x1E [1, 2],
    .of 0x85 [0x48]]

theorem stk_display_exact_sample :
    ∃ r, checkStkCmdDisplay (hexText (commandBytes sampleDisplay)) = .ok r ∧ (r = 0 ∨ r = 1) ∧
      (r = 1 ↔ DisplayNeeded sampleDisplay) :=
  stk_display_exact sampleDisplay (by decide)

end Arale.Ril.Stk
