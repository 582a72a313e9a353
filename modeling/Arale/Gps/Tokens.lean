import Arale.At.Fields

/-!
# Numbers and fields of a text

`str2int` reads the characters between two pointers, and `nmea_tokenizer_init`
cuts a sentence at its commas. Both are functions of the characters here. The
first looks at `*p` even if there is no character; whatever stands there, the
result is 0 then.
-/

namespace Arale.Gps

open List
open Arale.At (Line isdigit decimal takeWhile_field dropWhile_field)

/-! ## `str2int` -/

/-- The loop; `none` for `goto Fail`. An `int` wraps around. -/
def str2intLoop : Int → Line → Option Int
  | result, [] => some result
  | result, c :: rest =>
    if isdigit c then str2intLoop ((result * 10 + (c.toNat - 48)).bmod (2 ^ 32)) rest else none

def str2int (text : Line) : Int :=
  if text.head? = some 45 then
    match str2intLoop 0 (text.drop 1) with
    | some result => (-result).bmod (2 ^ 32)
    | none => -1
  else (str2intLoop 0 text).getD (-1)

section Digits

variable {ds : Line}

theorem isdigit_toNat {c : UInt8} (hc : isdigit c = true) : 48 ≤ c.toNat ∧ c.toNat ≤ 57 := by
  rw [isdigit, Bool.and_eq_true, decide_eq_true_iff, decide_eq_true_iff] at hc
  exact hc

/-- Digits are read as the number that they write, up to the wrap of an `int`. -/
theorem str2intLoop_digits (hds : ∀ d ∈ ds, isdigit d = true) (v : Nat) :
    str2intLoop ((v : Int).bmod (2 ^ 32)) ds
      = some (((ds.foldl (fun n b => 10 * n + (b.toNat - 48)) v : Nat) : Int).bmod (2 ^ 32)) := by
  induction ds generalizing v with
  | nil => rfl
  | cons d ds ih =>
    have hd := hds d mem_cons_self
    obtain ⟨hlow, -⟩ := isdigit_toNat hd
    have hstep : ((v : Int).bmod (2 ^ 32) * 10 + (d.toNat - 48)).bmod (2 ^ 32)
        = ((10 * v + (d.toNat - 48) : Nat) : Int).bmod (2 ^ 32) := by
      rw [← Int.bmod_add_bmod, Int.bmod_mul_bmod, Int.bmod_add_bmod]
      congr 1
      omega
    rw [str2intLoop, if_pos hd, hstep, foldl_cons]
    exact ih (fun c hc => hds c (mem_cons_of_mem d hc)) _

theorem str2int_digits (hds : ∀ d ∈ ds, isdigit d = true) :
    str2int ds = (decimal ds : Int).bmod (2 ^ 32) := by
  have hsign : ds.head? ≠ some 45 := by
    intro hhead
    have hminus := hds 45 (mem_of_mem_head? hhead)
    cases hminus
  have hloop := str2intLoop_digits hds 0
  rw [Int.natCast_zero, Int.zero_bmod] at hloop
  rw [str2int, if_neg hsign, hloop, Option.getD_some, decimal]

end Digits

/-! ## The tokenizer -/

/-- `MAX_NMEA_TOKENS` -/
def maxNmeaTokens : Nat := 24

/-- The initial `$`, the newline and the checksum are taken off. -/
def sentenceBody (text : Line) : Line :=
  let text := if text.head? = some 36 then text.drop 1 else text
  let text :=
    if text.getLast? = some 10 then
      if text.dropLast.getLast? = some 13 then text.dropLast.dropLast else text.dropLast
    else text
  if 3 ≤ text.length ∧ text[text.length - 3]? = some 42 then text.take (text.length - 3) else text

/-- The loop of `nmea_tokenizer_init`. Nothing follows a comma at the end. Each
round takes a character, so it ends within as many rounds. -/
def splitFields : Nat → Line → List Line
  | 0, _ => []
  | fuel + 1, text =>
    if text = [] then []
    else text.takeWhile (· != 44) :: splitFields fuel ((text.dropWhile (· != 44)).drop 1)

/-- `nmea_tokenizer_init` -/
def nmeaTokenizerInit (text : Line) : List Line :=
  (splitFields (sentenceBody text).length (sentenceBody text)).take maxNmeaTokens

/-- `nmea_tokenizer_get` -/
def nmeaTokenizerGet (tzer : List Line) (index : Nat) : Line := tzer.getD index []

section Sentences

/-- Fields with commas between them. -/
def joinFields : List Line → Line
  | [] => []
  | [field] => field
  | field :: next :: rest => field ++ 44 :: joinFields (next :: rest)

/-- A sentence as it is sent. -/
def sentenceText (fields : List Line) (checksum : UInt8 × UInt8) : Line :=
  36 :: joinFields fields ++ [42, checksum.1, checksum.2, 13, 10]

theorem sentenceBody_sentenceText (fields : List Line) (checksum : UInt8 × UInt8) :
    sentenceBody (sentenceText fields checksum) = joinFields fields := by
  obtain ⟨c, d⟩ := checksum
  have hlf : (joinFields fields ++ [42, c, d, 13, 10]).getLast? = some 10 := by
    rw [List.getLast?_append]
    rfl
  have hdrop : (joinFields fields ++ [42, c, d, 13, 10]).dropLast
      = joinFields fields ++ [42, c, d, 13] :=
    dropLast_append_of_ne_nil (cons_ne_nil _ _)
  have hcr : (joinFields fields ++ [42, c, d, 13]).getLast? = some 13 := by
    rw [List.getLast?_append]
    rfl
  have hdrop' : (joinFields fields ++ [42, c, d, 13]).dropLast = joinFields fields ++ [42, c, d] :=
    dropLast_append_of_ne_nil (cons_ne_nil _ _)
  have hlength : (joinFields fields ++ [42, c, d]).length - 3 = (joinFields fields).length := by
    rw [length_append]
    rfl
  have hstar : 3 ≤ (joinFields fields ++ [42, c, d]).length ∧
      (joinFields fields ++ [42, c, d])[(joinFields fields).length]? = some 42 := by
    refine ⟨?_, ?_⟩
    · rw [length_append]
      exact Nat.le_add_left _ _
    · rw [List.getElem?_append_right (Nat.le_refl _), Nat.sub_self]
      rfl
  unfold sentenceBody sentenceText
  simp only [cons_append, List.head?_cons, if_true, drop_one, tail_cons, hlf, hdrop, hcr,
    hdrop', hlength, if_pos hstar, take_left]

theorem splitFields_nil (fuel : Nat) : splitFields fuel [] = [] := by
  cases fuel with
  | zero => rfl
  | succ fuel => exact if_pos rfl

theorem splitFields_single {field : Line} (hfield : 44 ∉ field) (hne : field ≠ []) (fuel : Nat) :
    splitFields (fuel + 1) field = [field] := by
  have hall : ∀ c ∈ field, (c != 44) = true := by
    intro c hc
    rw [bne_iff_ne]
    rintro rfl
    exact hfield hc
  rw [splitFields, if_neg hne, takeWhile_eq_self_iff.mpr hall, dropWhile_eq_nil_iff.mpr hall,
    drop_nil, splitFields_nil]

theorem splitFields_comma {field : Line} (hfield : 44 ∉ field) (rest : Line) (fuel : Nat) :
    splitFields (fuel + 1) (field ++ 44 :: rest) = field :: splitFields fuel rest := by
  have hne : field ++ 44 :: rest ≠ [] := append_ne_nil_of_right_ne_nil _ (cons_ne_nil _ _)
  rw [splitFields, if_neg hne, takeWhile_field hfield, dropWhile_field hfield, drop_one,
    tail_cons]

/-- The tokens are the fields. A last field that is empty gives no token, but then
the empty string is read in its place. -/
theorem splitFields_join {fields : List Line} (hfields : ∀ f ∈ fields, 44 ∉ f) {fuel : Nat}
    (hfuel : (joinFields fields).length ≤ fuel) :
    (∀ i, nmeaTokenizerGet (splitFields fuel (joinFields fields)) i = fields.getD i []) ∧
      (splitFields fuel (joinFields fields)).length ≤ fields.length := by
  induction fields using joinFields.induct generalizing fuel with
  | case1 =>
    rw [joinFields, splitFields_nil]
    exact ⟨fun _ => rfl, Nat.le_refl 0⟩
  | case2 field =>
    rw [joinFields] at hfuel ⊢
    by_cases hne : field = []
    · subst hne
      rw [splitFields_nil]
      refine ⟨?_, Nat.zero_le 1⟩
      intro i
      cases i with
      | zero => rfl
      | succ i => rfl
    · obtain ⟨k, rfl⟩ : ∃ k, fuel = k + 1 :=
        Nat.exists_eq_succ_of_ne_zero
          (Nat.ne_zero_of_lt (Nat.lt_of_lt_of_le (length_pos_of_ne_nil hne) hfuel))
      rw [splitFields_single (hfields field mem_cons_self) hne]
      exact ⟨fun _ => rfl, Nat.le_refl 1⟩
  | case3 field next rest ih =>
    rw [joinFields, length_append, length_cons] at hfuel
    obtain ⟨k, rfl⟩ : ∃ k, fuel = k + 1 := Nat.exists_eq_succ_of_ne_zero (by omega)
    have htail : (joinFields (next :: rest)).length ≤ k := by omega
    obtain ⟨hget, hlength⟩ := ih (fun f hf => hfields f (mem_cons_of_mem field hf)) htail
    rw [joinFields, splitFields_comma (hfields field mem_cons_self)]
    refine ⟨?_, Nat.succ_le_succ hlength⟩
    intro i
    cases i with
    | zero => rfl
    | succ i => exact hget i

/-- The tokens of a sentence with up to 24 fields. -/
theorem nmeaTokenizerGet_sentenceText {fields : List Line} (hfields : ∀ f ∈ fields, 44 ∉ f)
    (hlength : fields.length ≤ maxNmeaTokens) (checksum : UInt8 × UInt8) (i : Nat) :
    nmeaTokenizerGet (nmeaTokenizerInit (sentenceText fields checksum)) i = fields.getD i [] := by
  obtain ⟨hget, htokens⟩ := splitFields_join hfields (Nat.le_refl _)
  rw [nmeaTokenizerInit, sentenceBody_sentenceText,
    take_of_length_le (Nat.le_trans htokens hlength)]
  exact hget i

end Sentences

end Arale.Gps
