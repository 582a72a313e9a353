import Arale.Ril.Pdu

/-!
# Texts of hex digits

`hexOctets` reads a text of pairs of digits, in either case. Such a text can be
put together and cut at any byte, and it holds nothing but digits.
-/

namespace Arale.Ril.Pdu

open Arale.At (Line isspace)

variable {xs ys : Line} {as bs : List UInt8}

theorem hexOctets_pair {hi lo : UInt8} {high low : Nat} (hhi : hexDigit hi = some high)
    (hlo : hexDigit lo = some low) (hxs : hexOctets xs = some as) :
    hexOctets (hi :: lo :: xs) = some (UInt8.ofNat (high * 16 + low) :: as) := by
  rw [hexOctets, hhi, hlo, hxs]

theorem hexOctets_nil (h : hexOctets xs = some []) : xs = [] :=
  List.eq_nil_of_length_eq_zero (pduArray_eq h).2

/-- The digits of the first byte. -/
theorem hexOctets_cons {a : UInt8} (h : hexOctets xs = some (a :: as)) :
    ∃ hi lo rest high low, xs = hi :: lo :: rest ∧ hexDigit hi = some high ∧
      hexDigit lo = some low ∧ a = UInt8.ofNat (high * 16 + low) ∧ hexOctets rest = some as := by
  induction xs using hexOctets.induct with
  | case1 => cases h
  | case2 c => cases h
  | case3 hi lo xs high low rest hrest hlo hhi =>
    rw [hexOctets_pair hhi hlo hrest] at h
    obtain ⟨rfl, rfl⟩ := List.cons.inj (Option.some.inj h)
    exact ⟨hi, lo, xs, high, low, rfl, hhi, hlo, rfl, hrest⟩
  | case4 hi lo xs hnone =>
    rw [hexOctets] at h
    split at h
    · next high low rest hhi hlo hrest => exact absurd hrest (hnone high low rest hhi hlo)
    · cases h

theorem hexOctets_append (hxs : hexOctets xs = some as) (hys : hexOctets ys = some bs) :
    hexOctets (xs ++ ys) = some (as ++ bs) := by
  induction as generalizing xs with
  | nil =>
    obtain rfl := hexOctets_nil hxs
    exact hys
  | cons a as ih =>
    obtain ⟨hi, lo, rest, high, low, rfl, hhi, hlo, rfl, hrest⟩ := hexOctets_cons hxs
    exact hexOctets_pair hhi hlo (ih hrest)

theorem hexDigit_of_mem (h : hexOctets xs = some as) : ∀ c ∈ xs, (hexDigit c).isSome := by
  induction as generalizing xs with
  | nil =>
    obtain rfl := hexOctets_nil h
    exact fun c hc => absurd hc List.not_mem_nil
  | cons a as ih =>
    obtain ⟨hi, lo, rest, high, low, rfl, hhi, hlo, -, hrest⟩ := hexOctets_cons h
    intro c hc
    obtain rfl | hc := List.mem_cons.mp hc
    · rw [hhi]
      rfl
    obtain rfl | hc := List.mem_cons.mp hc
    · rw [hlo]
      rfl
    · exact ih hrest c hc

theorem hexOctets_not_mem (h : hexOctets xs = some as) {c : UInt8} (hc : hexDigit c = none) :
    c ∉ xs := by
  intro hmem
  have hsome := hexDigit_of_mem h c hmem
  rw [hc] at hsome
  cases hsome

/-- Two digits for each byte, so texts and bytes are cut in the same places. -/
theorem hexOctets_take_drop (h : hexOctets xs = some as) (k : Nat) :
    hexOctets (xs.take (2 * k)) = some (as.take k) ∧
      hexOctets (xs.drop (2 * k)) = some (as.drop k) := by
  induction as generalizing xs k with
  | nil =>
    obtain rfl := hexOctets_nil h
    simp [hexOctets]
  | cons a as ih =>
    obtain ⟨hi, lo, rest, high, low, rfl, hhi, hlo, rfl, hrest⟩ := hexOctets_cons h
    cases k with
    | zero => exact ⟨rfl, h⟩
    | succ k =>
      obtain ⟨htake, hdrop⟩ := ih hrest k
      exact ⟨hexOctets_pair hhi hlo htake, hdrop⟩

theorem isspace_hexDigit {c : UInt8} (h : (hexDigit c).isSome) : isspace c = false := by
  cases hspace : isspace c with
  | false => rfl
  | true =>
    simp only [isspace, Bool.or_eq_true, beq_iff_eq, Bool.and_eq_true, decide_eq_true_eq,
      UInt8.le_iff_toNat_le] at hspace
    have hlow : c.toNat < 48 := by
      obtain rfl | ⟨-, hhigh⟩ := hspace
      · decide
      · exact Nat.lt_of_le_of_lt hhigh (by decide)
    have hnone : hexDigit c = none := by
      change (if decide (48 ≤ c.toNat) && _ then _ else if decide (65 ≤ c.toNat) && _ then _
        else if decide (97 ≤ c.toNat) && _ then _ else _) = _
      rw [decide_eq_false (by omega : ¬ 48 ≤ c.toNat), decide_eq_false (by omega : ¬ 65 ≤ c.toNat),
        decide_eq_false (by omega : ¬ 97 ≤ c.toNat)]
      rfl
    rw [hnone] at h
    cases h

end Arale.Ril.Pdu
