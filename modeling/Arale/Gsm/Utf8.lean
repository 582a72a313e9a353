import Mathlib.Algebra.Group.Nat.Defs
import Mathlib.Data.List.TakeWhile

/-!
# UTF-8 and UCS-2

The helpers of `ril_gsm_util.cpp` that take a text apart and put it together.
`utf8_next` reads a lead byte and then every continuation byte that follows, so
it finds the end of a character only because no character starts with a
continuation byte. The functions that walk through a text share one loop, here
`eachChar`, and differ in what they do with a character.

> `ucs2_utf8_round_trip`: from UCS-2 to UTF-8 and back, every 16-bit unit
> returns, also the surrogates.

A buffer that is filled from the start is the list of the bytes written.
-/

namespace Arale.Gsm

open List

/-! ## Model -/

/-- `utf8_write` -/
def utf8Write (v : Nat) : List UInt8 :=
  if v < 128 then [UInt8.ofNat v]
  else if v < 0x800 then [UInt8.ofNat (0xc0 ||| v >>> 6), UInt8.ofNat (0x80 ||| (v &&& 0x3f))]
  else if v < 0x10000 then
    [UInt8.ofNat (0xe0 ||| v >>> 12), UInt8.ofNat (0x80 ||| (v >>> 6 &&& 0x3f)),
      UInt8.ofNat (0x80 ||| (v &&& 0x3f))]
  else
    [UInt8.ofNat (0xf0 ||| (v >>> 18 &&& 0x7)), UInt8.ofNat (0x80 ||| (v >>> 12 &&& 0x3f)),
      UInt8.ofNat (0x80 ||| (v >>> 6 &&& 0x3f)), UInt8.ofNat (0x80 ||| (v &&& 0x3f))]

def isContinuation (b : UInt8) : Bool := b &&& 0xc0 == 0x80

/-- The bits of a lead byte. -/
def leadBits (c : Nat) : Nat :=
  if c &&& 0xe0 = 0xc0 then c &&& 0x1f else if c &&& 0xf0 = 0xe0 then c &&& 0x0f else c &&& 0x07

/-- One more continuation byte, in an `int`. -/
def shiftIn (c : Nat) (b : UInt8) : Nat := (c <<< 6 ||| (b.toNat &&& 0x3f)) % 2 ^ 32

/-- `utf8_next`: the character and the rest, `none` at the end. -/
def utf8Next : List UInt8 → Option (Nat × List UInt8)
  | [] => none
  | b :: p =>
    if b.toNat < 128 then some (b.toNat, p)
    else some ((p.takeWhile isContinuation).foldl shiftIn (leadBits b.toNat),
      p.dropWhile isContinuation)

/-- The loop `while (p < end)` over the characters of a text. Many continuation
bytes make the `int` negative, and then the loop is left. -/
def charLoop {σ : Type} (body : σ → Nat → σ) : Nat → List UInt8 → σ → σ
  | 0, _, s => s
  | fuel + 1, p, s =>
    match utf8Next p with
    | none => s
    | some (c, p) => if 2 ^ 31 ≤ c then s else charLoop body fuel p (body s c)

/-- Every round takes a byte, so the length is enough. -/
def eachChar {σ : Type} (body : σ → Nat → σ) (utf8 : List UInt8) (s : σ) : σ :=
  charLoop body utf8.length utf8 s

/-- `ucs2_write` -/
def ucs2Write (v : Nat) : List UInt8 := [UInt8.ofNat (v >>> 8), UInt8.ofNat v]

/-- `utf8_to_ucs2`: the bytes written, and the number of units. -/
def utf8ToUcs2 (utf8 : List UInt8) : List UInt8 × Nat :=
  let ucs2 := eachChar (fun ucs2 c => ucs2 ++ ucs2Write c) utf8 []
  (ucs2, ucs2.length / 2)

/-- `ucs2_to_utf8`, for `ucs2len` units that are in the buffer. -/
def ucs2ToUtf8 : List UInt8 → Nat → List UInt8
  | _, 0 => []
  | ucs2, ucs2len + 1 =>
    utf8Write ((ucs2.getD 0 0).toNat <<< 8 ||| (ucs2.getD 1 0).toNat)
      ++ ucs2ToUtf8 (ucs2.drop 2) ucs2len

/-! ## The bytes of a character -/

theorem or_eq_add {i b : Nat} (a : Nat) (h : b < 2 ^ i) : 2 ^ i * a ||| b = b + 2 ^ i * a := by
  rw [← Nat.two_pow_add_eq_or_of_lt h, Nat.add_comm]

/-- The continuation byte with the low six bits of a number. -/
def continuation (x : Nat) : UInt8 := UInt8.ofNat (x % 64 + 128)

theorem continuation_or (v : Nat) : UInt8.ofNat (0x80 ||| (v &&& 0x3f)) = continuation v := by
  have hmask : v &&& 0x3f = v % 64 := Nat.and_two_pow_sub_one_eq_mod v 6
  have hlt : v % 64 < 2 ^ 6 := Nat.mod_lt v (by decide)
  rw [hmask]
  exact congrArg UInt8.ofNat (or_eq_add 2 hlt)

variable {v x : Nat}

/-- The bytes in arithmetic. -/
theorem utf8Write_eq (h : v < 0x200000) :
    utf8Write v =
      if v < 128 then [UInt8.ofNat v]
      else if v < 0x800 then [UInt8.ofNat (v / 64 + 192), continuation v]
      else if v < 0x10000 then
        [UInt8.ofNat (v / 4096 + 224), continuation (v / 64), continuation v]
      else
        [UInt8.ofNat (v / 262144 + 240), continuation (v / 4096), continuation (v / 64),
          continuation v] := by
  simp only [utf8Write, continuation_or, Nat.shiftRight_eq_div_pow]
  split
  · rfl
  split
  · have hlead : 0xc0 ||| v / 2 ^ 6 = v / 64 + 192 :=
      or_eq_add 3 (by omega : v / 64 < 2 ^ 6)
    rw [hlead]
  split
  · have hlead : 0xe0 ||| v / 2 ^ 12 = v / 4096 + 224 :=
      or_eq_add 7 (by omega : v / 4096 < 2 ^ 5)
    rw [hlead]
  · have hmask : v / 2 ^ 18 &&& 0x7 = v / 262144 :=
      (Nat.and_two_pow_sub_one_eq_mod _ 3).trans (Nat.mod_eq_of_lt (by omega))
    have hlead : 0xf0 ||| v / 262144 = v / 262144 + 240 :=
      or_eq_add 15 (by omega : v / 262144 < 2 ^ 4)
    rw [hmask, hlead]

/-- `utf8_write` writes UTF-8. -/
theorem utf8Write_char (c : Char) : utf8Write c.toNat = String.utf8EncodeChar c := by
  have hlt : c.toNat < 0x110000 := by
    obtain hlow | hhigh := c.valid
    · exact Nat.lt_trans hlow (by decide)
    · exact hhigh.2
  have hval : c.val.toNat = c.toNat := rfl
  rw [utf8Write_eq (by omega), String.utf8EncodeChar]
  simp only [hval, continuation]
  by_cases hone : c.toNat < 128
  · rw [if_pos hone, if_pos (by omega)]
  rw [if_neg hone, if_neg (by omega : ¬ c.toNat ≤ 127)]
  by_cases htwo : c.toNat < 0x800
  · rw [if_pos htwo, if_pos (by omega), Nat.mod_eq_of_lt (by omega : c.toNat / 64 < 32)]
  rw [if_neg htwo, if_neg (by omega : ¬ c.toNat ≤ 2047)]
  by_cases hthree : c.toNat < 0x10000
  · rw [if_pos hthree, if_pos (by omega), Nat.mod_eq_of_lt (by omega : c.toNat / 4096 < 16)]
  · rw [if_neg hthree, if_neg (by omega : ¬ c.toNat ≤ 65535),
      Nat.mod_eq_of_lt (by omega : c.toNat / 262144 < 8)]

theorem continuation_bits (x : Nat) :
    isContinuation (continuation x) = true ∧ (continuation x).toNat &&& 0x3f = x % 64 := by
  have hall : ∀ x : Fin 64, isContinuation (UInt8.ofNat (x.val + 128)) = true ∧
      (UInt8.ofNat (x.val + 128)).toNat &&& 0x3f = x.val := by decide
  exact hall ⟨x % 64, Nat.mod_lt x (by decide)⟩

@[simp] theorem isContinuation_continuation (x : Nat) : isContinuation (continuation x) = true :=
  (continuation_bits x).1

/-- A continuation byte brings back the six bits that were cut off. -/
theorem shiftIn_continuation {w : Nat} (h : w < 2 ^ 26) :
    shiftIn (w / 64) (continuation w) = w := by
  have hlt : w % 64 < 2 ^ 6 := Nat.mod_lt w (by decide)
  rw [shiftIn, (continuation_bits w).2, ← Nat.shiftLeft_add_eq_or_of_lt hlt, Nat.shiftLeft_eq]
  omega

/-- A lead byte followed by continuation bytes and then something else. -/
theorem utf8Next_lead {b : UInt8} {conts rest : List UInt8} (hb : 128 ≤ b.toNat)
    (hconts : ∀ x ∈ conts, isContinuation x = true)
    (hrest : ∀ x ∈ rest.head?, isContinuation x = false) :
    utf8Next (b :: (conts ++ rest)) = some (conts.foldl shiftIn (leadBits b.toNat), rest) := by
  have hstop : rest.takeWhile isContinuation = [] ∧ rest.dropWhile isContinuation = rest := by
    cases rest with
    | nil => exact ⟨rfl, rfl⟩
    | cons x rest =>
      have hx := hrest x rfl
      exact ⟨takeWhile_cons_of_neg (by simp [hx]), dropWhile_cons_of_neg (by simp [hx])⟩
  rw [utf8Next, if_neg (Nat.not_lt.mpr hb), takeWhile_append_of_pos hconts,
    dropWhile_append_of_pos hconts, hstop.1, hstop.2, append_nil]

/-- A lead byte with the bits `x`. -/
def IsLead (b : UInt8) (x : Nat) : Prop :=
  128 ≤ b.toNat ∧ leadBits b.toNat = x ∧ isContinuation b = false

instance (b : UInt8) (x : Nat) : Decidable (IsLead b x) := inferInstanceAs (Decidable (_ ∧ _ ∧ _))

theorem lead_two (h : x < 32) : IsLead (UInt8.ofNat (x + 192)) x := by
  have hall : ∀ x : Fin 32, IsLead (UInt8.ofNat (x.val + 192)) x.val := by decide
  exact hall ⟨x, h⟩

theorem lead_three (h : x < 16) : IsLead (UInt8.ofNat (x + 224)) x := by
  have hall : ∀ x : Fin 16, IsLead (UInt8.ofNat (x.val + 224)) x.val := by decide
  exact hall ⟨x, h⟩

theorem lead_four (h : x < 8) : IsLead (UInt8.ofNat (x + 240)) x := by
  have hall : ∀ x : Fin 8, IsLead (UInt8.ofNat (x.val + 240)) x.val := by decide
  exact hall ⟨x, h⟩

theorem ascii_byte (h : v < 128) :
    (UInt8.ofNat v).toNat = v ∧ isContinuation (UInt8.ofNat v) = false := by
  have hall : ∀ v : Fin 128, (UInt8.ofNat v.val).toNat = v.val ∧
      isContinuation (UInt8.ofNat v.val) = false := by decide
  exact hall ⟨v, h⟩

/-- A character is a first byte and continuation bytes. -/
theorem utf8Write_cons (h : v < 0x200000) :
    ∃ b conts, utf8Write v = b :: conts ∧ isContinuation b = false ∧
      (∀ x ∈ conts, isContinuation x = true) ∧ (conts = [] ∨ 128 ≤ b.toNat) := by
  have hlead : ∀ {b x conts}, IsLead b x → (∀ y ∈ conts, isContinuation y = true) →
      isContinuation b = false ∧ (∀ y ∈ conts, isContinuation y = true) ∧
        (conts = [] ∨ 128 ≤ b.toNat) :=
    fun hlead hconts => ⟨hlead.2.2, hconts, .inr hlead.1⟩
  rw [utf8Write_eq h]
  split
  · next hone => exact ⟨_, [], rfl, (ascii_byte hone).2, by simp, .inl rfl⟩
  split
  · exact ⟨_, _, rfl, hlead (lead_two (by omega)) (by simp)⟩
  split
  · exact ⟨_, _, rfl, hlead (lead_three (by omega)) (by simp)⟩
  · exact ⟨_, _, rfl, hlead (lead_four (by omega)) (by simp)⟩

/-- `utf8_next` reads back what `utf8_write` wrote. -/
theorem utf8Next_write (h : v < 0x200000) {rest : List UInt8}
    (hrest : ∀ x ∈ rest.head?, isContinuation x = false) :
    utf8Next (utf8Write v ++ rest) = some (v, rest) := by
  rw [utf8Write_eq h]
  split
  · next hone =>
    rw [cons_append, nil_append, utf8Next, (ascii_byte hone).1, if_pos hone]
  have hlow : shiftIn (v / 64) (continuation v) = v := shiftIn_continuation (by omega)
  have hmid : shiftIn (v / 4096) (continuation (v / 64)) = v / 64 := by
    rw [← Nat.div_div_eq_div_mul v 64 64]
    exact shiftIn_continuation (by omega)
  have hhigh : shiftIn (v / 262144) (continuation (v / 4096)) = v / 4096 := by
    rw [← Nat.div_div_eq_div_mul v 4096 64]
    exact shiftIn_continuation (by omega)
  have hnext : ∀ {b x conts}, IsLead b x → (∀ y ∈ conts, isContinuation y = true) →
      conts.foldl shiftIn x = v → utf8Next (b :: conts ++ rest) = some (v, rest) := by
    intro b x conts hlead hconts hvalue
    rw [cons_append, utf8Next_lead hlead.1 hconts hrest, hlead.2.1, hvalue]
  split
  · exact hnext (lead_two (by omega)) (by simp) hlow
  split
  · refine hnext (lead_three (by omega)) (by simp) ?_
    rw [foldl_cons, hmid]
    exact hlow
  · refine hnext (lead_four (by omega)) (by simp) ?_
    rw [foldl_cons, hhigh, foldl_cons, hmid]
    exact hlow

/-! ## Whole texts -/

variable {vs : List Nat}

variable {tail : List UInt8} (htail : ∀ x ∈ tail.head?, isContinuation x = false)
include htail

/-- A text does not start with a continuation byte. -/
theorem head_flatMap_utf8Write (h : ∀ v ∈ vs, v < 0x200000) :
    ∀ x ∈ (vs.flatMap utf8Write ++ tail).head?, isContinuation x = false := by
  cases vs with
  | nil => exact htail
  | cons v vs =>
    obtain ⟨b, conts, heq, hb, -⟩ := utf8Write_cons (h v mem_cons_self)
    rw [flatMap_cons, heq]
    rintro x hx
    cases hx
    exact hb

/-- The loop takes the characters one by one, up to what stands behind them. -/
theorem charLoop_chars {σ : Type} (body : σ → Nat → σ) (h : ∀ v ∈ vs, v < 0x200000)
    {fuel k : Nat} (hfuel : (vs.flatMap utf8Write).length + k ≤ fuel) (s : σ) :
    ∃ n, k ≤ n ∧ charLoop body fuel (vs.flatMap utf8Write ++ tail) s
      = charLoop body n tail (vs.foldl body s) := by
  induction vs generalizing fuel s with
  | nil => exact ⟨fuel, by simpa using hfuel, rfl⟩
  | cons v vs ih =>
    have hv := h v mem_cons_self
    have hvs : ∀ v ∈ vs, v < 0x200000 := fun w hw => h w (mem_cons_of_mem _ hw)
    obtain ⟨b, conts, heq, -, -⟩ := utf8Write_cons hv
    rw [flatMap_cons] at hfuel ⊢
    obtain ⟨fuel, rfl⟩ : ∃ n, fuel = n + 1 := by
      refine ⟨fuel - 1, ?_⟩
      rw [heq, length_append, length_cons] at hfuel
      omega
    rw [append_assoc, charLoop, utf8Next_write hv (head_flatMap_utf8Write htail hvs)]
    show ∃ n, k ≤ n ∧ (if 2 ^ 31 ≤ v then _ else _) = _
    rw [if_neg (by omega), foldl_cons]
    apply ih hvs
    rw [heq, length_append, length_cons] at hfuel
    omega

omit htail

/-- A loop over a text takes its characters one by one. -/
theorem eachChar_chars {σ : Type} (body : σ → Nat → σ) (h : ∀ v ∈ vs, v < 0x200000) (s : σ) :
    eachChar body (vs.flatMap utf8Write) s = vs.foldl body s := by
  obtain ⟨n, -, heq⟩ := @charLoop_chars vs [] (by simp) σ body h _ 0 (Nat.le_refl _) s
  rw [append_nil] at heq
  rw [eachChar, ← Nat.add_zero (length _), heq]
  cases n <;> rfl

@[simp] theorem length_ucs2Write (v : Nat) : (ucs2Write v).length = 2 := rfl

theorem length_flatMap_ucs2Write (vs : List Nat) :
    (vs.flatMap ucs2Write).length = 2 * vs.length := by
  induction vs with
  | nil => rfl
  | cons v vs ih =>
    rw [flatMap_cons, length_append, ih, length_ucs2Write, length_cons]
    omega

theorem utf8ToUcs2_chars (h : ∀ v ∈ vs, v < 0x200000) :
    utf8ToUcs2 (vs.flatMap utf8Write) = (vs.flatMap ucs2Write, vs.length) := by
  rw [utf8ToUcs2, eachChar_chars _ h, ← flatMap_eq_foldl, length_flatMap_ucs2Write,
    Nat.mul_div_cancel_left _ (by decide)]

/-- One continuation byte more adds six bits at most. -/
theorem shiftIn_le (c : Nat) (b : UInt8) : shiftIn c b ≤ 64 * c + 63 := by
  have hlt : b.toNat &&& 0x3f < 2 ^ 6 := Nat.lt_succ_of_le Nat.and_le_right
  refine Nat.le_trans (Nat.mod_le _ _) ?_
  rw [← Nat.shiftLeft_add_eq_or_of_lt hlt, Nat.shiftLeft_eq]
  omega

theorem leadBits_le (c : Nat) : leadBits c ≤ 31 := by
  unfold leadBits
  split
  · exact Nat.and_le_right
  split
  · exact Nat.le_trans Nat.and_le_right (by decide)
  · exact Nat.le_trans Nat.and_le_right (by decide)

/-- The first bytes of one more character count as a character. -/
theorem utf8ToUcs2_split (h : ∀ v ∈ vs, v < 0x200000) {b : UInt8} {conts : List UInt8}
    (hb : 128 ≤ b.toNat) (hlead : isContinuation b = false)
    (hconts : ∀ x ∈ conts, isContinuation x = true) (hfew : conts.length ≤ 1) :
    (utf8ToUcs2 (vs.flatMap utf8Write ++ b :: conts)).2 = vs.length + 1 := by
  have hvalue : conts.foldl shiftIn (leadBits b.toNat) < 2 ^ 31 := by
    have hbits := leadBits_le b.toNat
    obtain _ | ⟨x, _ | ⟨y, conts⟩⟩ := conts
    · exact Nat.lt_of_le_of_lt hbits (by decide)
    · have hle := shiftIn_le (leadBits b.toNat) x
      show shiftIn (leadBits b.toNat) x < 2 ^ 31
      omega
    · simp at hfew
  have hnext := @utf8Next_lead b conts [] hb hconts (by simp)
  rw [append_nil] at hnext
  obtain ⟨n, hn, heq⟩ := @charLoop_chars vs (b :: conts) (by simpa using hlead) _
    (fun ucs2 c => ucs2 ++ ucs2Write c) h _ (b :: conts).length (Nat.le_refl _) []
  obtain ⟨n, rfl⟩ : ∃ m, n = m + 1 := ⟨n - 1, by rw [length_cons] at hn; omega⟩
  rw [utf8ToUcs2, eachChar, length_append, heq, charLoop, hnext]
  show (if 2 ^ 31 ≤ _ then _ else _ : List UInt8).length / 2 = _
  rw [if_neg (Nat.not_le.mpr hvalue)]
  have hend : ∀ ucs2, charLoop (fun ucs2 c => ucs2 ++ ucs2Write c) n [] ucs2 = ucs2 := by
    intro ucs2
    cases n <;> rfl
  rw [hend, ← flatMap_eq_foldl, length_append, length_flatMap_ucs2Write, length_ucs2Write]
  omega

/-- The bytes of 16-bit units, the high one first. -/
def ucs2Bytes (units : List UInt16) : List UInt8 := units.flatMap fun u => ucs2Write u.toNat

theorem ucs2ToUtf8_units (units : List UInt16) :
    ucs2ToUtf8 (ucs2Bytes units) units.length = (units.map UInt16.toNat).flatMap utf8Write := by
  induction units with
  | nil => rfl
  | cons u units ih =>
    have hlt : u.toNat < 65536 := u.toNat_lt
    have hunit : (UInt8.ofNat (u.toNat >>> 8)).toNat <<< 8 ||| (UInt8.ofNat u.toNat).toNat
        = u.toNat := by
      rw [Nat.shiftRight_eq_div_pow, UInt8.toNat_ofNat', UInt8.toNat_ofNat',
        Nat.mod_eq_of_lt (by omega : u.toNat / 2 ^ 8 < 2 ^ 8),
        ← Nat.shiftLeft_add_eq_or_of_lt (Nat.mod_lt _ (by decide)), Nat.shiftLeft_eq]
      omega
    show utf8Write _ ++ ucs2ToUtf8 (ucs2Bytes units) units.length = _
    congr 2

/-- From UCS-2 to UTF-8 and back. -/
theorem ucs2_utf8_round_trip (units : List UInt16) :
    utf8ToUcs2 (ucs2ToUtf8 (ucs2Bytes units) units.length) = (ucs2Bytes units, units.length) := by
  have hlt : ∀ v ∈ units.map UInt16.toNat, v < 0x200000 := by
    intro v hv
    obtain ⟨u, -, rfl⟩ := mem_map.mp hv
    exact Nat.lt_trans u.toNat_lt (by decide)
  rw [ucs2ToUtf8_units, utf8ToUcs2_chars hlt, length_map, flatMap_map]
  rfl

end Arale.Gsm
