import Mathlib.Algebra.Group.Nat.Defs
import Mathlib.Data.List.Basic

/-!
# Strings in memory that a NUL ends

Memory is a function from addresses to bytes. `StringAt mem i xs` says that
the bytes `xs` stand at `i` with a NUL behind them; C code that looks for the
end of a string, or for the first byte of some kind in it, then runs a `scan`.

What the lemmas say: a `scan` finds what `List.takeWhile` finds
(`StringAt.scan`), bytes stored over the NUL extend the string
(`StringAt.store`), a NUL stored inside cuts it in two (`StringAt.cut`), and
moving a string with its NUL keeps it (`StringAt.move`).

`digits n` are the bytes of a number as `%u` prints them: never empty, from `'0'`
to `'9'`, and reading them from the left gives the number back. The facts are
those of the core library on `Nat.toDigits`, moved from characters to bytes.
-/

namespace Arale.Lib

open List

/-- The bytes at `i`, with a NUL behind them. -/
def StringAt (mem : Nat → UInt8) (i : Nat) (xs : List UInt8) : Prop :=
  ∀ k, k ≤ xs.length → mem (i + k) = (xs[k]?).getD 0

/-- `while (p(*i)) i++`, over at most `fuel` bytes. -/
def scan (mem : Nat → UInt8) (p : UInt8 → Bool) : Nat → Nat → Nat
  | 0, i => i
  | fuel + 1, i => if p (mem i) then scan mem p fuel (i + 1) else i

/-- The bytes from `i` up to a NUL, at most `fuel` of them. -/
def readString (mem : Nat → UInt8) : Nat → Nat → List UInt8
  | 0, _ => []
  | fuel + 1, i => if mem i = 0 then [] else mem i :: readString mem fuel (i + 1)

/-- Copies bytes to `i`. -/
def store (mem : Nat → UInt8) (i : Nat) (bytes : List UInt8) (j : Nat) : UInt8 :=
  if i ≤ j then (bytes[j - i]?).getD (mem j) else mem j

/-- `memmove(dst, src, len)`. -/
def move (mem : Nat → UInt8) (dst src len : Nat) (j : Nat) : UInt8 :=
  if dst ≤ j ∧ j < dst + len then mem (src + (j - dst)) else mem j

theorem store_before {mem : Nat → UInt8} {i j : Nat} (bytes : List UInt8) (h : j < i) :
    store mem i bytes j = mem j :=
  if_neg (Nat.not_le.mpr h)

theorem store_inside {mem : Nat → UInt8} {i k : Nat} {bytes : List UInt8} {b : UInt8}
    (h : bytes[k]? = some b) : store mem i bytes (i + k) = b := by
  rw [store, if_pos (Nat.le_add_right i k), Nat.add_sub_cancel_left, h]
  rfl

theorem store_behind {mem : Nat → UInt8} {i j : Nat} {bytes : List UInt8}
    (h : i + bytes.length ≤ j) : store mem i bytes j = mem j := by
  rw [store, if_pos (by omega), List.getElem?_eq_none (by omega)]
  rfl

namespace StringAt

variable {mem mem' : Nat → UInt8} {i : Nat} {xs ys : List UInt8}

theorem nil_iff : StringAt mem i [] ↔ mem i = 0 := by
  refine ⟨fun h => h 0 (Nat.le_refl 0), fun h k hk => ?_⟩
  obtain rfl : k = 0 := by simpa using hk
  exact h

theorem cons_iff {x : UInt8} : StringAt mem i (x :: xs) ↔ mem i = x ∧ StringAt mem (i + 1) xs := by
  constructor
  · intro h
    refine ⟨h 0 (Nat.zero_le _), fun k hk => ?_⟩
    have hnext := h (k + 1) (by simpa using hk)
    rw [Nat.add_assoc, Nat.add_comm 1 k]
    simpa using hnext
  · rintro ⟨hx, hxs⟩ k hk
    cases k with
    | zero => exact hx
    | succ k =>
      have hnext := hxs k (by simpa using hk)
      rw [Nat.add_assoc, Nat.add_comm 1 k] at hnext
      simpa using hnext

/-- Only the bytes of the string and its NUL matter. -/
theorem congr (h : StringAt mem i xs)
    (heq : ∀ k, k ≤ xs.length → mem' (i + k) = mem (i + k)) : StringAt mem' i xs :=
  fun k hk => (heq k hk).trans (h k hk)

theorem drop (h : StringAt mem i (xs ++ ys)) : StringAt mem (i + xs.length) ys := by
  intro k hk
  have hlater := h (xs.length + k) (by rw [length_append]; omega)
  rw [List.getElem?_append_right (Nat.le_add_right ..), Nat.add_sub_cancel_left] at hlater
  rw [Nat.add_assoc]
  exact hlater

/-- The first byte is the NUL exactly if the string is empty. -/
theorem head_eq_zero (h : StringAt mem i xs) (hxs : ∀ x ∈ xs, x ≠ 0) : mem i = 0 ↔ xs = [] := by
  cases xs with
  | nil => simpa using nil_iff.mp h
  | cons x xs => simpa [(cons_iff.mp h).1] using hxs x mem_cons_self

theorem scan {p : UInt8 → Bool} {fuel : Nat} (h : StringAt mem i xs) (hp : p 0 = false)
    (hfuel : xs.length < fuel) : scan mem p fuel i = i + (xs.takeWhile p).length := by
  induction xs generalizing i fuel with
  | nil =>
    obtain ⟨fuel, rfl⟩ : ∃ n, fuel = n + 1 := ⟨fuel - 1, by simp at hfuel; omega⟩
    simp [Lib.scan, nil_iff.mp h, hp]
  | cons x xs ih =>
    rw [length_cons] at hfuel
    obtain ⟨fuel, rfl⟩ : ∃ n, fuel = n + 1 := ⟨fuel - 1, by omega⟩
    obtain ⟨hx, hrest⟩ := cons_iff.mp h
    rw [Lib.scan, hx]
    cases hpx : p x with
    | false => simp [hpx]
    | true =>
      simp only [if_true, takeWhile_cons, hpx, length_cons]
      rw [ih hrest (by omega)]
      omega

theorem readString {fuel : Nat} (h : StringAt mem i xs) (hxs : ∀ x ∈ xs, x ≠ 0)
    (hfuel : xs.length < fuel) : readString mem fuel i = xs := by
  induction xs generalizing i fuel with
  | nil =>
    obtain ⟨fuel, rfl⟩ : ∃ n, fuel = n + 1 := ⟨fuel - 1, by simp at hfuel; omega⟩
    exact if_pos (nil_iff.mp h)
  | cons x xs ih =>
    rw [length_cons] at hfuel
    obtain ⟨fuel, rfl⟩ : ∃ n, fuel = n + 1 := ⟨fuel - 1, by omega⟩
    obtain ⟨hx, hrest⟩ := cons_iff.mp h
    rw [Lib.readString, hx, if_neg (hxs x mem_cons_self),
      ih hrest (fun y hy => hxs y (mem_cons_of_mem x hy)) (by omega)]

/-- Bytes stored over the NUL, with a NUL behind them, extend the string. -/
theorem store (h : StringAt mem i xs) (ys : List UInt8) :
    StringAt (store mem (i + xs.length) (ys ++ [0])) i (xs ++ ys) := by
  intro k hk
  rw [length_append] at hk
  rcases Nat.lt_or_ge k xs.length with hlt | hge
  · rw [store_before _ (by omega), h k (by omega), List.getElem?_append_left hlt]
  · obtain ⟨j, rfl⟩ := Nat.exists_eq_add_of_le hge
    rw [← Nat.add_assoc, List.getElem?_append_right hge, Nat.add_sub_cancel_left]
    refine store_inside ?_
    rcases Nat.lt_or_ge j ys.length with hlt | hge
    · simp [List.getElem?_append_left hlt, hlt]
    · obtain rfl : j = ys.length := by omega
      simp

/-- A NUL stored inside ends the string there. -/
theorem cut {x : UInt8} (h : StringAt mem i (xs ++ x :: ys)) :
    StringAt (Lib.store mem (i + xs.length) [0]) i xs ∧
      StringAt (Lib.store mem (i + xs.length) [0]) (i + xs.length + 1) ys := by
  constructor
  · intro k hk
    rcases Nat.lt_or_eq_of_le hk with hlt | rfl
    · rw [store_before _ (by omega), h k (by rw [length_append]; omega),
        List.getElem?_append_left hlt]
    · rw [List.getElem?_eq_none (Nat.le_refl _)]
      exact store_inside (k := 0) rfl
  · refine congr (cons_iff.mp h.drop).2 fun k _ => store_behind ?_
    rw [length_singleton]
    omega

/-- A string moves with its NUL. -/
theorem move (h : StringAt mem i xs) (dst : Nat) :
    StringAt (move mem dst i (xs.length + 1)) dst xs := by
  intro k hk
  rw [Lib.move, if_pos (by omega), Nat.add_sub_cancel_left]
  exact h k hk

end StringAt

/-! ## Decimal digits -/

/-- The decimal digits of a number. -/
def digits (n : Nat) : List UInt8 := (Nat.toDigits 10 n).map fun c => UInt8.ofNat c.toNat

theorem digits_ne_nil (n : Nat) : digits n ≠ [] :=
  fun h => Nat.toDigits_ne_nil (map_eq_nil_iff.mp h)

theorem length_digits_le {n k : Nat} (hk : 0 < k) : (digits n).length ≤ k ↔ n < 10 ^ k := by
  rw [digits, length_map]
  exact Nat.length_toDigits_le_iff (by decide) hk

/-- A digit is the same number as a character and as a byte. -/
theorem toNat_ofNat_digit {n : Nat} {c : Char} (hc : c ∈ Nat.toDigits 10 n) :
    (UInt8.ofNat c.toNat).toNat = c.toNat ∧ 48 ≤ c.toNat ∧ c.toNat ≤ 57 := by
  have hdigit := Nat.isDigit_of_mem_toDigits (by decide) (by decide) hc
  have hlow : 48 ≤ c.toNat ∧ c.toNat ≤ 57 := by
    simp only [Char.isDigit, Bool.and_eq_true, decide_eq_true_eq, ge_iff_le] at hdigit
    exact hdigit
  refine ⟨?_, hlow⟩
  rw [UInt8.toNat_ofNat']
  omega

theorem digits_range {n : Nat} {b : UInt8} (hb : b ∈ digits n) : 48 ≤ b ∧ b ≤ 57 := by
  obtain ⟨c, hc, rfl⟩ := mem_map.mp hb
  obtain ⟨heq, hlow, hhigh⟩ := toNat_ofNat_digit hc
  rw [UInt8.le_iff_toNat_le, UInt8.le_iff_toNat_le, heq]
  exact ⟨hlow, hhigh⟩

/-- Reading the digits gives the number. -/
theorem foldl_digits (n : Nat) : (digits n).foldl (fun v b => 10 * v + (b.toNat - 48)) 0 = n := by
  have hchars : (digits n).foldl (fun v b => 10 * v + (b.toNat - 48)) 0
      = (Nat.toDigits 10 n).foldl (fun v c => 10 * v + (c.toNat - 48)) 0 := by
    rw [digits, foldl_map]
    refine foldl_ext _ _ _ fun v c hc => ?_
    rw [(toNat_ofNat_digit hc).1]
  rw [hchars]
  exact Nat.ofDigitChars_toDigits (by decide) (by decide)

end Arale.Lib
