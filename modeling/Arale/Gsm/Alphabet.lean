import Arale.Gsm.Utf8

/-!
# The GSM alphabet

The default alphabet has 128 codes, and the code `0x1b` takes the next one from
an extension table. The tables are those of `ril_gsm_util.cpp`; an unused place
holds 0. A decoder keeps a flag from an escape to the character behind it.

`utf8_from_unpackedgsm7` clears the flag with that character, but
`utf8_from_gsm8` leaves it set, so everything behind one extension character is
read from the extension table:

> `gsm8_round_trip`: `utf8_from_gsm8` reads back what `utf8_to_gsm8` wrote
> exactly if no character but the last is from the extension table.
-/

namespace Arale.Gsm

open List

/-! ## Model -/

/-- `gsm7bits_to_unicode` -/
def gsm7bitsToUnicode : List Nat :=
  [0x40, 0xa3, 0x24, 0xa5, 0xe8, 0xe9, 0xf9, 0xec, 0xf2, 0xc7, 0x0a, 0xd8, 0xf8, 0x0d, 0xc5, 0xe5,
   0x394, 0x5f, 0x3a6, 0x393, 0x39b, 0x3a9, 0x3a0, 0x3a8, 0x3a3, 0x398, 0x39e, 0, 0xc6, 0xe6,
   0xdf, 0xc9, 0x20, 0x21, 0x22, 0x23, 0xa4, 0x25, 0x26, 0x27, 0x28, 0x29, 0x2a, 0x2b, 0x2c, 0x2d,
   0x2e, 0x2f, 0x30, 0x31, 0x32, 0x33, 0x34, 0x35, 0x36, 0x37, 0x38, 0x39, 0x3a, 0x3b, 0x3c, 0x3d,
   0x3e, 0x3f, 0xa1, 0x41, 0x42, 0x43, 0x44, 0x45, 0x46, 0x47, 0x48, 0x49, 0x4a, 0x4b, 0x4c, 0x4d,
   0x4e, 0x4f, 0x50, 0x51, 0x52, 0x53, 0x54, 0x55, 0x56, 0x57, 0x58, 0x59, 0x5a, 0xc4, 0xd6, 0x147,
   0xdc, 0xa7, 0xbf, 0x61, 0x62, 0x63, 0x64, 0x65, 0x66, 0x67, 0x68, 0x69, 0x6a, 0x6b, 0x6c, 0x6d,
   0x6e, 0x6f, 0x70, 0x71, 0x72, 0x73, 0x74, 0x75, 0x76, 0x77, 0x78, 0x79, 0x7a, 0xe4, 0xf6, 0xf1,
   0xfc, 0xe0]

/-- `gsm7bits_extend_to_unicode` -/
def gsm7bitsExtendToUnicode : List Nat :=
  [0, 0, 0, 0, 0, 0, 0, 0, 0, 0, 0x0c, 0, 0, 0, 0, 0,
   0, 0, 0, 0, 0x5e, 0, 0, 0, 0, 0, 0, 0, 0, 0, 0, 0,
   0, 0, 0, 0, 0, 0, 0, 0, 0x7b, 0x7d, 0, 0, 0, 0, 0, 0x5c,
   0, 0, 0, 0, 0, 0, 0, 0, 0, 0, 0, 0, 0x5b, 0x7e, 0x5d, 0,
   0x7c, 0, 0, 0, 0, 0, 0, 0, 0, 0, 0, 0, 0, 0, 0, 0,
   0, 0, 0, 0, 0, 0, 0, 0, 0, 0, 0, 0, 0, 0, 0, 0,
   0, 0, 0, 0, 0, 0x20ac, 0, 0, 0, 0, 0, 0, 0, 0, 0, 0,
   0, 0, 0, 0, 0, 0, 0, 0, 0, 0, 0, 0, 0, 0, 0, 0]

/-- `GSM_7BITS_ESCAPE` -/
def gsm7bitsEscape : Nat := 0x1b

/-- `unichar_to_gsm7`, with `none` for `-1` -/
def unicharToGsm7 (unicode : Nat) : Option Nat := gsm7bitsToUnicode.findIdx? (· == unicode)

/-- `unichar_to_gsm7_extend` -/
def unicharToGsm7Extend (unichar : Nat) : Option Nat :=
  gsm7bitsExtendToUnicode.findIdx? (· == unichar)

/-- The variables of a decoder: the flag, and the bytes written. -/
structure Decoder where
  escaped : Bool
  utf8 : List UInt8

def Decoder.write (s : Decoder) (escaped : Bool) (v : Nat) : Decoder :=
  ⟨escaped, s.utf8 ++ utf8Write v⟩

@[simp] theorem Decoder.write_escaped (s : Decoder) (escaped : Bool) (v : Nat) :
    (s.write escaped v).escaped = escaped := rfl

@[simp] theorem Decoder.length_write (s : Decoder) (escaped : Bool) (v : Nat) :
    (s.write escaped v).utf8.length = s.utf8.length + (utf8Write v).length :=
  length_append

/-- A round of `utf8_from_unpackedgsm7` with the septet `c`. -/
def unpackedStep (s : Decoder) (c : Nat) : Decoder :=
  if s.escaped then s.write false (gsm7bitsExtendToUnicode.getD c 0)
  else if c = gsm7bitsEscape then { s with escaped := true }
  else s.write false (gsm7bitsToUnicode.getD c 0)

/-- `utf8_from_unpackedgsm7`, for `septet_count` bytes that are in the buffer. -/
def utf8FromUnpackedgsm7 (src : List UInt8) (septetCount : Nat) : List UInt8 :=
  ((src.take septetCount).foldl (fun s b => unpackedStep s (b.toNat &&& 0x7f)) ⟨false, []⟩).utf8

/-- The loop of `utf8_from_gsm8`, which ends at `0xff`. -/
def gsm8Loop : List UInt8 → Decoder → List UInt8
  | [], s => s.utf8
  | b :: src, s =>
    if b.toNat = 0xff then s.utf8
    else if b.toNat = gsm7bitsEscape then
      -- two escapes are one space
      if s.escaped then gsm8Loop src (s.write false 0x20)
      else gsm8Loop src { s with escaped := true }
    else if 0x80 ≤ b.toNat then gsm8Loop src (s.write false 0x20)
    else if s.escaped then gsm8Loop src (s.write true (gsm7bitsExtendToUnicode.getD b.toNat 0))
    else gsm8Loop src (s.write false (gsm7bitsToUnicode.getD b.toNat 0))

/-- `utf8_from_gsm8` -/
def utf8FromGsm8 (src : List UInt8) (count : Nat) : List UInt8 :=
  gsm8Loop (src.take count) ⟨false, []⟩

/-- The codes of a character, a space if it has none. -/
def gsm8Codes (c : Nat) : List UInt8 :=
  match unicharToGsm7 c, unicharToGsm7Extend c with
  | some nn, _ => [UInt8.ofNat nn]
  | none, some nn => [UInt8.ofNat gsm7bitsEscape, UInt8.ofNat nn]
  | none, none => [0x20]

/-- `utf8_to_gsm8` -/
def utf8ToGsm8 (utf8 : List UInt8) : List UInt8 :=
  eachChar (fun dst c => dst ++ gsm8Codes c) utf8 []

/-! ## The tables -/

/-- A character of the default alphabet. The place of the escape holds 0. -/
def Basic (c : Char) : Prop := c.toNat ∈ gsm7bitsToUnicode ∧ c.toNat ≠ 0

/-- A character of the extension table. -/
def Extended (c : Char) : Prop := c.toNat ∈ gsm7bitsExtendToUnicode ∧ c.toNat ≠ 0

instance (c : Char) : Decidable (Basic c) := inferInstanceAs (Decidable (_ ∧ _))

instance (c : Char) : Decidable (Extended c) := inferInstanceAs (Decidable (_ ∧ _))

/-- The place a search in a table finds. -/
theorem findIdx?_mem {table : List Nat} {v : Nat} (h : v ∈ table) :
    ∃ nn, table.findIdx? (· == v) = some nn ∧ nn < table.length ∧ table.getD nn 0 = v := by
  obtain ⟨nn, hnn⟩ : ∃ nn, table.findIdx? (· == v) = some nn := by
    rw [← Option.isSome_iff_exists, List.findIdx?_isSome]
    exact any_eq_true.mpr ⟨v, h, beq_self_eq_true v⟩
  obtain ⟨hlt, heq, -⟩ := List.findIdx?_eq_some_iff_getElem.mp hnn
  refine ⟨nn, hnn, hlt, ?_⟩
  rw [getD_eq_getElem?_getD, List.getElem?_eq_getElem hlt]
  exact beq_iff_eq.mp heq

/-- The code of a character of the default alphabet. -/
theorem unicharToGsm7_basic {c : Char} (h : Basic c) :
    ∃ nn, unicharToGsm7 c.toNat = some nn ∧ nn < 128 ∧ nn ≠ gsm7bitsEscape ∧
      gsm7bitsToUnicode.getD nn 0 = c.toNat := by
  obtain ⟨nn, hfind, hlt, heq⟩ := findIdx?_mem h.1
  refine ⟨nn, hfind, hlt, ?_, heq⟩
  rintro rfl
  exact h.2 heq.symm

/-- The code of a character of the extension table, which the default alphabet
does not have. -/
theorem unicharToGsm7_extended {c : Char} (h : Extended c) :
    unicharToGsm7 c.toNat = none ∧ ∃ nn, unicharToGsm7Extend c.toNat = some nn ∧ nn < 128 ∧
      nn ≠ gsm7bitsEscape ∧ gsm7bitsExtendToUnicode.getD nn 0 = c.toNat := by
  have hnone : gsm7bitsExtendToUnicode.all
      (fun v => v == 0 || (unicharToGsm7 v).isNone) = true := by decide
  obtain ⟨nn, hfind, hlt, heq⟩ := findIdx?_mem h.1
  refine ⟨?_, nn, hfind, hlt, ?_, heq⟩
  · have hv := all_eq_true.mp hnone _ h.1
    rw [Bool.or_eq_true, beq_iff_eq] at hv
    exact Option.isNone_iff_eq_none.mp (hv.resolve_left h.2)
  · rintro rfl
    exact h.2 heq.symm

/-- What a code stands for in one table never begins like what it stands for in
the other. -/
theorem tables_differ {c : Nat} (h : c < 128) (hescape : c ≠ gsm7bitsEscape) :
    (utf8Write (gsm7bitsExtendToUnicode.getD c 0)).head?
      ≠ (utf8Write (gsm7bitsToUnicode.getD c 0)).head? := by
  have hall : (List.range 128).all (fun c => c == gsm7bitsEscape ||
      (utf8Write (gsm7bitsExtendToUnicode.getD c 0)).head?
        != (utf8Write (gsm7bitsToUnicode.getD c 0)).head?) = true := by decide +kernel
  simpa [hescape] using all_eq_true.mp hall c (mem_range.mpr h)

theorem head_utf8Write_append (v : Nat) (xs : List UInt8) :
    (utf8Write v ++ xs).head? = (utf8Write v).head? := by
  unfold utf8Write
  repeat' split
  all_goals rfl

/-- Texts that begin with different bytes. -/
theorem append_utf8Write_ne {v w : Nat} (h : (utf8Write v).head? ≠ (utf8Write w).head?)
    (utf8 xs ys : List UInt8) : utf8 ++ utf8Write v ++ xs ≠ utf8 ++ utf8Write w ++ ys := by
  intro heq
  rw [append_assoc, append_assoc] at heq
  have hhead := congrArg head? (append_cancel_left heq)
  rw [head_utf8Write_append, head_utf8Write_append] at hhead
  exact h hhead

/-! ## The round trip -/

/-- The bytes of a text. -/
def utf8Bytes (cs : List Char) : List UInt8 := cs.flatMap String.utf8EncodeChar

theorem utf8Bytes_eq (cs : List Char) : utf8Bytes cs = (cs.map Char.toNat).flatMap utf8Write := by
  rw [utf8Bytes, flatMap_map]
  exact congrArg cs.flatMap (funext fun c => (utf8Write_char c).symm)

theorem toNat_lt (cs : List Char) : ∀ v ∈ cs.map Char.toNat, v < 0x200000 := by
  intro v hv
  obtain ⟨c, -, rfl⟩ := mem_map.mp hv
  obtain hlow | hhigh := c.valid
  · exact Nat.lt_trans hlow (by decide)
  · exact Nat.lt_trans hhigh.2 (by decide)

/-- A loop over a text takes its characters one by one. -/
theorem eachChar_utf8Bytes {σ : Type} (body : σ → Nat → σ) (cs : List Char) (s : σ) :
    eachChar body (utf8Bytes cs) s = cs.foldl (fun s c => body s c.toNat) s := by
  rw [utf8Bytes_eq, eachChar_chars body (toNat_lt cs), foldl_map]

theorem utf8ToGsm8_eq (cs : List Char) :
    utf8ToGsm8 (utf8Bytes cs) = cs.flatMap fun c => gsm8Codes c.toNat := by
  rw [utf8ToGsm8, eachChar_utf8Bytes]
  exact flatMap_eq_foldl.symm

/-- A code stands for its character in the table the flag selects. -/
theorem gsm8Loop_code {nn : Nat} (hlt : nn < 128) (hescape : nn ≠ gsm7bitsEscape)
    (src : List UInt8) (s : Decoder) :
    gsm8Loop (UInt8.ofNat nn :: src) s = gsm8Loop src (s.write s.escaped
      ((if s.escaped then gsm7bitsExtendToUnicode else gsm7bitsToUnicode).getD nn 0)) := by
  have hbyte : (UInt8.ofNat nn).toNat = nn := UInt8.toNat_ofNat_of_lt (Nat.lt_trans hlt (by decide))
  obtain ⟨escaped, utf8⟩ := s
  rw [gsm8Loop, hbyte, if_neg (by omega), if_neg hescape, if_neg (by omega)]
  cases escaped <;> rfl

/-- A character of the default alphabet is read back. -/
theorem gsm8Loop_basic {c : Char} (h : Basic c) (src utf8 : List UInt8) :
    gsm8Loop (gsm8Codes c.toNat ++ src) ⟨false, utf8⟩
      = gsm8Loop src ⟨false, utf8 ++ String.utf8EncodeChar c⟩ := by
  obtain ⟨nn, hcode, hlt, hescape, htable⟩ := unicharToGsm7_basic h
  rw [gsm8Codes, hcode, ← utf8Write_char, ← htable]
  exact gsm8Loop_code hlt hescape src _

/-- A character of the extension table is read back, and leaves the flag set. -/
theorem gsm8Loop_extended {c : Char} (h : Extended c) (src utf8 : List UInt8) :
    gsm8Loop (gsm8Codes c.toNat ++ src) ⟨false, utf8⟩
      = gsm8Loop src ⟨true, utf8 ++ String.utf8EncodeChar c⟩ := by
  obtain ⟨hnone, nn, hcode, hlt, hescape, htable⟩ := unicharToGsm7_extended h
  rw [gsm8Codes, hnone, hcode, ← utf8Write_char, ← htable]
  exact gsm8Loop_code hlt hescape src ⟨true, utf8⟩

/-- Only the bytes behind those already written depend on the text. -/
theorem gsm8Loop_append (src : List UInt8) (s : Decoder) :
    ∃ xs, gsm8Loop src s = s.utf8 ++ xs := by
  induction src generalizing s with
  | nil => exact ⟨[], (append_nil _).symm⟩
  | cons b src ih =>
    have hwrite : ∀ escaped v, ∃ xs, gsm8Loop src (s.write escaped v) = s.utf8 ++ xs := by
      intro escaped v
      obtain ⟨xs, hxs⟩ := ih (s.write escaped v)
      exact ⟨utf8Write v ++ xs, by rw [hxs, Decoder.write, append_assoc]⟩
    unfold gsm8Loop
    split
    · exact ⟨[], (append_nil _).symm⟩
    split
    · split
      · exact hwrite _ _
      · exact ih _
    · split
      · exact hwrite _ _
      · split <;> exact hwrite _ _

/-- With the flag set, no character is read back. -/
theorem gsm8Loop_escaped {c : Char} (h : Basic c ∨ Extended c) (src utf8 ys : List UInt8) :
    gsm8Loop (gsm8Codes c.toNat ++ src) ⟨true, utf8⟩
      ≠ utf8 ++ String.utf8EncodeChar c ++ ys := by
  rw [← utf8Write_char]
  obtain hbasic | hextended := h
  · obtain ⟨nn, hcode, hlt, hescape, htable⟩ := unicharToGsm7_basic hbasic
    rw [gsm8Codes, hcode, singleton_append, gsm8Loop_code hlt hescape]
    obtain ⟨xs, hxs⟩ := gsm8Loop_append src
      (Decoder.write ⟨true, utf8⟩ true (gsm7bitsExtendToUnicode.getD nn 0))
    rw [if_pos rfl, hxs, ← htable]
    exact append_utf8Write_ne (tables_differ hlt hescape) utf8 xs ys
  · -- the escape is the second one, and stands for a space
    obtain ⟨hnone, nn, hcode, -⟩ := unicharToGsm7_extended hextended
    have hspace : gsm7bitsExtendToUnicode.all
        (fun v => (utf8Write 0x20).head? != (utf8Write v).head?) = true := by decide
    rw [gsm8Codes, hnone, hcode]
    obtain ⟨xs, hxs⟩ := gsm8Loop_append (UInt8.ofNat nn :: src)
      (Decoder.write ⟨true, utf8⟩ false 0x20)
    show gsm8Loop (UInt8.ofNat nn :: src) (Decoder.write ⟨true, utf8⟩ false 0x20) ≠ _
    rw [hxs]
    exact append_utf8Write_ne (by simpa using all_eq_true.mp hspace _ hextended.1) utf8 xs ys

theorem gsm8Loop_text {cs : List Char} (hall : ∀ c ∈ cs, Basic c ∨ Extended c)
    (utf8 : List UInt8) :
    gsm8Loop (cs.flatMap fun c => gsm8Codes c.toNat) ⟨false, utf8⟩ = utf8 ++ utf8Bytes cs ↔
      ∀ c ∈ cs.dropLast, Basic c := by
  -- the flag is clear in front of every character
  induction cs generalizing utf8 with
  | nil => simp [gsm8Loop, utf8Bytes]
  | cons c cs ih =>
    have hstep : utf8 ++ utf8Bytes (c :: cs)
        = (utf8 ++ String.utf8EncodeChar c) ++ utf8Bytes cs := by
      rw [append_assoc]
      rfl
    have hrest : ∀ d ∈ cs, Basic d ∨ Extended d := fun d hd => hall d (mem_cons_of_mem _ hd)
    rw [flatMap_cons, hstep]
    by_cases hbasic : Basic c
    · rw [gsm8Loop_basic hbasic, ih hrest]
      cases cs with
      | nil => simp
      | cons d cs => simp [hbasic]
    · rw [gsm8Loop_extended ((hall c mem_cons_self).resolve_left hbasic)]
      cases cs with
      | nil => simp [gsm8Loop, utf8Bytes]
      | cons d cs =>
        refine iff_of_false ?_ fun h => hbasic (h c mem_cons_self)
        show gsm8Loop (gsm8Codes d.toNat ++ _) _ ≠ _ ++ (String.utf8EncodeChar d ++ utf8Bytes cs)
        rw [← append_assoc]
        exact gsm8Loop_escaped (hrest d mem_cons_self) _ _ _

/-- **The round trip.** `utf8_from_gsm8` reads back a text of the alphabet
exactly if its only extension character, if any, is the last one. -/
theorem gsm8_round_trip (cs : List Char) (hall : ∀ c ∈ cs, Basic c ∨ Extended c) :
    utf8FromGsm8 (utf8ToGsm8 (utf8Bytes cs)) (utf8ToGsm8 (utf8Bytes cs)).length = utf8Bytes cs ↔
      ∀ c ∈ cs.dropLast, Basic c := by
  rw [utf8FromGsm8, take_length, utf8ToGsm8_eq]
  exact gsm8Loop_text hall []

theorem gsm8_round_trip_euro :
    utf8FromGsm8 (utf8ToGsm8 (utf8Bytes ['5', '€'])) (utf8ToGsm8 (utf8Bytes ['5', '€'])).length
      = utf8Bytes ['5', '€'] :=
  (gsm8_round_trip ['5', '€']
    (by simp [Basic, Extended, gsm7bitsToUnicode, gsm7bitsExtendToUnicode])).mpr
    (by simp [Basic, gsm7bitsToUnicode])

/-- Behind an extension character a letter is looked up in the extension table,
which has 0 there. -/
theorem gsm8_round_trip_letter :
    ¬ ∀ cs : List Char, (∀ c ∈ cs, Basic c ∨ Extended c) →
      utf8FromGsm8 (utf8ToGsm8 (utf8Bytes cs)) (utf8ToGsm8 (utf8Bytes cs)).length
        = utf8Bytes cs := by
  intro h
  have hletter := h ['[', 'a']
    (by simp [Basic, Extended, gsm7bitsToUnicode, gsm7bitsExtendToUnicode])
  revert hletter
  decide

end Arale.Gsm
