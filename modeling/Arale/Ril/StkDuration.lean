import Arale.Ril.StkDisplay

/-!
# The duration of an STK command

`findStkCallDuration` walks through the hex text of a command and returns the
duration of the first duration element, in milliseconds. A duration has a unit
and a number of units.

The walk takes the first byte of a length for the whole length, so it stays on
the elements only while they have at most 128 bytes: for 128 the two bytes `81 80`
are skipped as one byte and 129 bytes, which ends at the same place. And it
compares the tag with `84` only; the form `04` of the same tag is passed
(`duration_passed`).

> `stk_duration_exact`: where the walk stays on the elements, the first duration
> is returned exactly if the first one with the tag `84` is as long.
-/

namespace Arale.Ril.Stk

open List
open Arale.Lib (Tlv ok_bind)
open Arale.At (Line)

/-! ## Model -/

/-- The loop of `findStkCallDuration`. -/
def durationLoop (str : Line) : Nat → Int → Nat → Except Stop Nat
  | fuel, length, offset =>
    if length ≤ 0 then .ok 0
    else
      match fuel with
      | 0 => .error .running
      | fuel + 1 => do
        let high ← charAt str offset
        let low ← charAt str (offset + 1)
        if high = 56 ∧ low = 52 then
          let tempStr ← copyChars str (offset + 6) 2
          let timeUnit ← charAt str (offset + 5)
          if timeUnit = 48 then return strtoul16 tempStr * 60000
          else if timeUnit = 49 then return strtoul16 tempStr * 1000
          else if timeUnit = 50 then return strtoul16 tempStr * 100
          else return 0
        else
          let temp := strtoul16 (← copyChars str (offset + 2) 2)
          durationLoop str fuel (length - 2 - (2 * temp + 2)) (offset + 2 + (2 * temp + 2))

/-- `findStkCallDuration` -/
def findStkCallDuration (str : Line) : Except Stop Nat := durationLoop str str.length str.length 0

/-! ## Durations -/

/-- A duration, with either form of the tag. -/
def isDuration (t : Tlv) : Bool := t.tag == 0x04 || t.tag == 0x84

/-- The milliseconds of a unit. -/
def unitMilliseconds (timeUnit : UInt8) : Nat :=
  if timeUnit = 0 then 60000 else if timeUnit = 1 then 1000 else 100

/-- The milliseconds of a duration with its unit and its interval. -/
def milliseconds (t : Tlv) : Nat := (t.value.getD 1 0).toNat * unitMilliseconds (t.value.getD 0 0)

/-- The duration that the command asks for. -/
def callDuration (ts : List Tlv) : Nat := ((ts.find? isDuration).map milliseconds).getD 0

/-- A duration is a unit and an interval. -/
def DurationFormed (t : Tlv) : Prop :=
  isDuration t = true → ∃ timeUnit interval, t.value = [timeUnit, interval] ∧ timeUnit ≤ 2

/-- A duration with the tag `84`, the only one that is looked for. -/
def isFound (t : Tlv) : Bool := t.tag == 0x84

/-- The milliseconds of the first of them. -/
def foundDuration (ts : List Tlv) : Nat := ((ts.find? isFound).map milliseconds).getD 0

/-- Up to there the first byte of a length tells where the next element is. -/
def ShortAhead (ts : List Tlv) : Prop :=
  ∀ t ∈ ts.takeWhile fun t => !isFound t, t.value.length ≤ 0x80

section Walk

variable {t : Tlv} {pre rest : Line}

/-- The first two characters are those of the tag. -/
theorem charAt_tag (t : Tlv) (pre rest : Line) :
    charAt (pre ++ (hexText (elementBytes t) ++ rest)) pre.length
      = .ok (upperHex (t.tag.toNat / 16)) ∧
      charAt (pre ++ (hexText (elementBytes t) ++ rest)) (pre.length + 1)
        = .ok (upperHex (t.tag.toNat % 16)) :=
  ⟨(charAt_behind pre _ 0).trans (charAt_of_getElem? rfl),
    (charAt_behind pre _ 1).trans (charAt_of_getElem? rfl)⟩

/-- The tag `84`. -/
theorem tag_duration (b : UInt8) :
    (upperHex (b.toNat / 16) = 56 ∧ upperHex (b.toNat % 16) = 52) ↔ b = 0x84 :=
  digits_iff b 0x84

theorem elementBytes_length (t : Tlv) :
    (hexText (elementBytes t) ++ rest).length = 2 * (elementBytes t).length + rest.length := by
  rw [length_append, length_hexText]

/-- Another element is skipped. -/
theorem durationLoop_skip (htag : t.tag ≠ 0x84) (hshort : t.value.length ≤ 0x80) {length : Int}
    (hlength : 0 < length) (fuel : Nat) :
    durationLoop (pre ++ (hexText (elementBytes t) ++ rest)) (fuel + 1) length pre.length
      = durationLoop (pre ++ (hexText (elementBytes t) ++ rest)) fuel
        (length - (hexText (elementBytes t)).length) (pre ++ hexText (elementBytes t)).length := by
  obtain ⟨b, field, hfield, hb⟩ := lengthField_first hshort
  obtain ⟨hhigh, hlow⟩ := charAt_tag t pre rest
  have hbytes : elementBytes t = t.tag :: b :: (field ++ t.value) := by
    rw [elementBytes, hfield]
    rfl
  have hcopy : copyChars (pre ++ (hexText (elementBytes t) ++ rest)) (pre.length + 2) 2
      = .ok (hexByte b) := by
    rw [copyChars_behind, hbytes]
    exact copyChars_hexByte [t.tag] b (hexText (field ++ t.value) ++ rest)
  have hsize : (hexText (elementBytes t)).length = 2 + (2 * b.toNat + 2) := by
    rw [length_hexText, hbytes, length_cons, length_cons, length_append, hb]
    omega
  rw [durationLoop, if_neg (Int.not_le.mpr hlength)]
  simp only [hhigh, hlow, hcopy, ok_bind, strtoul16_hexByte]
  rw [if_neg (fun h => htag ((tag_duration t.tag).mp h)), length_append, hsize]
  congr 1
  · omega
  · omega

/-- The duration is returned. -/
theorem durationLoop_duration (htag : t.tag = 0x84) {timeUnit interval : UInt8}
    (hvalue : t.value = [timeUnit, interval]) (hunit : timeUnit ≤ 2) {length : Int}
    (hlength : 0 < length) (fuel : Nat) :
    durationLoop (pre ++ (hexText (elementBytes t) ++ rest)) (fuel + 1) length pre.length
      = .ok (milliseconds t) := by
  obtain ⟨hhigh, hlow⟩ := charAt_tag t pre rest
  have hbytes : elementBytes t = [t.tag, 2, timeUnit, interval] := by
    rw [elementBytes, hvalue]
    rfl
  have hcopy : copyChars (pre ++ (hexText (elementBytes t) ++ rest)) (pre.length + 6) 2
      = .ok (hexByte interval) := by
    rw [copyChars_behind, hbytes]
    exact copyChars_hexByte [t.tag, 2, timeUnit] interval rest
  have hchar : charAt (pre ++ (hexText (elementBytes t) ++ rest)) (pre.length + 5)
      = .ok (upperHex (timeUnit.toNat % 16)) := by
    rw [charAt_behind, hbytes]
    exact charAt_of_getElem? rfl
  have hms : milliseconds t = interval.toNat * unitMilliseconds timeUnit := by
    rw [milliseconds, hvalue]
    rfl
  rw [durationLoop, if_neg (Int.not_le.mpr hlength)]
  simp only [hhigh, hlow, hcopy, hchar, ok_bind, strtoul16_hexByte]
  rw [if_pos ((tag_duration t.tag).mpr htag), hms]
  have hcases : timeUnit = 0 ∨ timeUnit = 1 ∨ timeUnit = 2 := by
    have hle : timeUnit.toNat ≤ 2 := hunit
    rw [← UInt8.toNat_inj, ← UInt8.toNat_inj, ← UInt8.toNat_inj]
    show timeUnit.toNat = 0 ∨ timeUnit.toNat = 1 ∨ timeUnit.toNat = 2
    omega
  obtain rfl | rfl | rfl := hcases
  · rfl
  · rfl
  · rfl

/-- The walk goes from element to element, with the elements behind it in `pre`. -/
theorem durationLoop_command {ts : List Tlv} (hformed : ∀ t ∈ ts, DurationFormed t)
    (hshort : ShortAhead ts) (pre : Line) {fuel : Nat} (hfuel : ts.length ≤ fuel) :
    durationLoop (pre ++ hexText (commandBytes ts)) fuel
      (hexText (commandBytes ts)).length pre.length
      = .ok (foundDuration ts) := by
  induction ts generalizing pre fuel with
  | nil =>
    cases fuel with
    | zero => rfl
    | succ fuel => rfl
  | cons t ts ih =>
    rw [length_cons] at hfuel
    obtain ⟨fuel, rfl⟩ : ∃ n, fuel = n + 1 := ⟨fuel - 1, by omega⟩
    have hpos : (0 : Int) < (hexText (elementBytes t) ++ hexText (commandBytes ts)).length := by
      rw [elementBytes_length, elementBytes, length_cons]
      omega
    rw [hexText_commandBytes]
    by_cases htag : t.tag = 0x84
    · have hduration : isDuration t = true := by
        rw [isDuration, htag]
        rfl
      have hfound : isFound t = true := beq_iff_eq.mpr htag
      obtain ⟨timeUnit, interval, hvalue, hunit⟩ := hformed t mem_cons_self hduration
      rw [durationLoop_duration htag hvalue hunit hpos, foundDuration,
        List.find?_cons_of_pos hfound]
      rfl
    · have hnot : isFound t = false := beq_eq_false_iff_ne.mpr htag
      have hcut : (t :: ts).takeWhile (fun t => !isFound t)
          = t :: ts.takeWhile fun t => !isFound t := takeWhile_cons_of_pos (by rw [hnot]; rfl)
      rw [ShortAhead, hcut] at hshort
      have hleft : ((hexText (elementBytes t) ++ hexText (commandBytes ts)).length : Int)
          - (hexText (elementBytes t)).length = (hexText (commandBytes ts)).length := by
        rw [length_append]
        omega
      have hnext := ih (fun u hu => hformed u (mem_cons_of_mem t hu))
        (fun u hu => hshort u (mem_cons_of_mem t hu))
        (pre ++ hexText (elementBytes t)) (Nat.le_of_succ_le_succ hfuel)
      rw [append_assoc] at hnext
      rw [durationLoop_skip htag (hshort t mem_cons_self) hpos, hleft, hnext, foundDuration,
        foundDuration, List.find?_cons_of_neg (by rw [hnot]; exact Bool.false_ne_true)]

end Walk

/-- Where the walk stays on the elements, the first duration of the command is
returned if the first one with the tag `84` has as many milliseconds, and only
then. -/
theorem stk_duration_exact (ts : List Tlv) (hformed : ∀ t ∈ ts, DurationFormed t)
    (hshort : ShortAhead ts) :
    findStkCallDuration (hexText (commandBytes ts)) = .ok (callDuration ts)
      ↔ foundDuration ts = callDuration ts := by
  have hfound : findStkCallDuration (hexText (commandBytes ts)) = .ok (foundDuration ts) :=
    durationLoop_command hformed hshort [] (length_commandBytes_ge ts)
  rw [hfound, Except.ok.injEq]

/-- A text, a duration of 30 seconds, and another one. -/
def sampleDurations : List Tlv :=
  [Tlv.of 0x05 [0x41, 0x42], Tlv.of 0x84 [1, 30], Tlv.of 0x04 [0, 1]]

theorem sampleDurations_formed : ∀ t ∈ sampleDurations, DurationFormed t := by
  intro t ht hduration
  obtain rfl | ht := mem_cons.mp ht
  · cases hduration
  obtain rfl | ht := mem_cons.mp ht
  · exact ⟨1, 30, rfl, by decide⟩
  · obtain rfl := mem_singleton.mp ht
    exact ⟨0, 1, rfl, by decide⟩

theorem stk_duration_exact_sample :
    findStkCallDuration (hexText (commandBytes sampleDurations)) = .ok 30000 := by
  refine (stk_duration_exact sampleDurations sampleDurations_formed ?_).mpr rfl
  intro t ht
  obtain rfl := mem_singleton.mp ht
  exact Nat.le_of_ble_eq_true rfl

/-- With the tag `04` the duration is passed. -/
theorem duration_passed :
    ¬ ∀ ts : List Tlv, (∀ t ∈ ts, DurationFormed t) →
      findStkCallDuration (hexText (commandBytes ts)) = .ok (callDuration ts) := by
  intro hall
  have hformed : ∀ t ∈ [Tlv.of 0x04 [1, 30]], DurationFormed t := by
    intro t ht hduration
    obtain rfl := mem_singleton.mp ht
    exact ⟨1, 30, rfl, by decide⟩
  have hresult := hall [Tlv.of 0x04 [1, 30]] hformed
  have hpassed : findStkCallDuration (hexText (commandBytes [Tlv.of 0x04 [1, 30]])) = .ok 0 := rfl
  rw [hpassed] at hresult
  cases hresult

end Arale.Ril.Stk
