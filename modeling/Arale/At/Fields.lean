import Mathlib.Data.List.TakeWhile
import Arale.At.Tok
import Arale.Lib.CString

/-!
# Fields of an AT line

`at_tok.c` takes the fields of a line from the left. A field that is written
without quotes ends at a comma, one with quotes at the next quote; blanks before
a field are skipped. The lemmas say what one call returns on a field followed by
a comma, and on the last field.
-/

namespace Arale.At

open List
open Arale.Lib (digits digits_ne_nil digits_range foldl_digits)

/-- `at_tok_hasmore` -/
def atTokHasmore (cur : Option Line) : Bool := cur.any fun cur => !cur.isEmpty

/-- `at_tok_nextstr`: the outer `none` is the result `-1`. -/
def atTokNextstr (cur : Option Line) : Option Line × Option Line := nextTok cur

section Strsep

variable {delim : UInt8} {field rest : Line}

theorem takeWhile_field (h : delim ∉ field) (rest : Line) :
    (field ++ delim :: rest).takeWhile (· != delim) = field := by
  rw [takeWhile_append_of_pos]
  · simp
  · intro b hb
    simpa using fun heq : b = delim => h (heq ▸ hb)

theorem dropWhile_field (h : delim ∉ field) (rest : Line) :
    (field ++ delim :: rest).dropWhile (· != delim) = delim :: rest := by
  rw [dropWhile_append_of_pos]
  · simp
  · intro b hb
    simpa using fun heq : b = delim => h (heq ▸ hb)

theorem strsep_field (h : delim ∉ field) (rest : Line) :
    strsep delim (field ++ delim :: rest) = (field, some rest) := by
  rw [strsep, takeWhile_field h, dropWhile_field h]

theorem strsep_last (h : delim ∉ field) : strsep delim field = (field, none) := by
  have hne : ∀ b ∈ field, (b != delim) = true := by
    intro b hb
    simpa using fun heq : b = delim => h (heq ▸ hb)
  rw [strsep, dropWhile_eq_nil_iff.mpr hne, takeWhile_eq_self_iff.mpr hne]

end Strsep

/-! ## One field -/

/-- The blank behind the name of a response. -/
theorem isspace_blank : ∀ c ∈ ([32] : Line), isspace c = true := by
  intro c hc
  rw [mem_singleton.mp hc]
  rfl

section Field

variable {field rest : Line} {b : UInt8}

variable {blanks : Line} (hblanks : ∀ c ∈ blanks, isspace c = true)
include hblanks

theorem skipWhiteSpace_blanks (hb : isspace b = false) (rest : Line) :
    skipWhiteSpace (blanks ++ b :: rest) = b :: rest := by
  rw [skipWhiteSpace, dropWhile_append_of_pos hblanks, dropWhile_cons_of_neg (by simp [hb])]

/-- A field without quotes, up to the comma. -/
theorem nextTok_field (hb : isspace b = false) (hquote : b ≠ 34)
    (hcomma : (44 : UInt8) ∉ b :: field) (rest : Line) :
    nextTok (some (blanks ++ (b :: field) ++ 44 :: rest)) = (some (b :: field), some rest) := by
  rw [append_assoc, cons_append, nextTok, skipWhiteSpace_blanks hblanks hb]
  show (if b = 34 then _ else _) = _
  rw [if_neg hquote, ← cons_append, strsep_field hcomma]

/-- A field without quotes at the end of the line. -/
theorem nextTok_last (hb : isspace b = false) (hquote : b ≠ 34)
    (hcomma : (44 : UInt8) ∉ b :: field) :
    nextTok (some (blanks ++ (b :: field))) = (some (b :: field), none) := by
  rw [nextTok, skipWhiteSpace_blanks hblanks hb]
  show (if b = 34 then _ else _) = _
  rw [if_neg hquote, strsep_last hcomma]

/-- A field in quotes at the end of the line. -/
theorem nextTok_quoted (hquote : (34 : UInt8) ∉ field) :
    nextTok (some (blanks ++ (34 :: field ++ [34]))) = (some field, some []) := by
  rw [cons_append, nextTok, skipWhiteSpace_blanks hblanks (by decide)]
  show (if (34 : UInt8) = 34 then _ else _) = _
  rw [if_pos rfl, strsep_field hquote]
  rfl

/-- A field in quotes, up to the comma. -/
theorem nextTok_quoted_field (hquote : (34 : UInt8) ∉ field) (rest : Line) :
    nextTok (some (blanks ++ 34 :: (field ++ 34 :: 44 :: rest))) = (some field, some rest) := by
  rw [nextTok, skipWhiteSpace_blanks hblanks (by decide)]
  show (if (34 : UInt8) = 34 then _ else _) = _
  rw [if_pos rfl, strsep_field hquote]
  rfl

end Field

/-! ## Numbers -/

/-- A digit starts a field without quotes. -/
theorem digit_starts {b : UInt8} (hb : isdigit b = true) : isspace b = false ∧ b ≠ 34 := by
  rw [isdigit, Bool.and_eq_true, decide_eq_true_iff, decide_eq_true_iff] at hb
  obtain ⟨hlow, -⟩ := hb
  refine ⟨?_, ?_⟩
  · simp only [isspace, Bool.or_eq_false_iff, beq_eq_false_iff_ne, Bool.and_eq_false_iff,
      decide_eq_false_iff_not]
    refine ⟨?_, .inr ?_⟩
    · rintro rfl
      exact absurd hlow (by decide)
    · intro hhigh
      exact absurd (UInt8.le_trans hlow hhigh) (by decide)
  · rintro rfl
    exact absurd hlow (by decide)

theorem digits_cons (n : Nat) :
    ∃ b field, digits n = b :: field ∧ isspace b = false ∧ b ≠ 34 ∧ (44 : UInt8) ∉ b :: field := by
  obtain ⟨b, field, heq⟩ := exists_cons_of_ne_nil (digits_ne_nil n)
  have hrange : ∀ c ∈ digits n, 48 ≤ c ∧ c ≤ 57 := fun c hc => digits_range hc
  rw [heq] at hrange
  obtain ⟨hlow, hhigh⟩ := hrange b mem_cons_self
  have hb : isdigit b = true := by
    rw [isdigit, Bool.and_eq_true, decide_eq_true_iff, decide_eq_true_iff]
    exact ⟨hlow, hhigh⟩
  obtain ⟨hspace, hquote⟩ := digit_starts hb
  refine ⟨b, field, heq, hspace, hquote, ?_⟩
  intro hmem
  exact absurd (hrange 44 hmem).1 (by decide)

/-- A number is read whatever its size; it is cut to 32 bits. -/
theorem strtol_digits (n : Nat) : strtol (digits n) = some (min (2 ^ 31 - 1) (n : Int)) := by
  obtain ⟨b, field, heq, hspace, -, -⟩ := digits_cons n
  have hall : ∀ c ∈ digits n, isdigit c = true := by
    intro c hc
    obtain ⟨hlow, hhigh⟩ := digits_range hc
    simp [isdigit, hlow, hhigh]
  have hskip : skipWhiteSpace (digits n) = digits n := by
    rw [heq]
    exact @skipWhiteSpace_blanks b [] (by simp) hspace field
  have hsign : ∀ c : UInt8, isdigit c = false → ((digits n).head? == some c) = false := by
    intro c hc
    rw [heq, List.head?_cons]
    have hb := hall b (heq ▸ mem_cons_self)
    simp only [beq_eq_false_iff_ne, ne_eq, Option.some.injEq]
    rintro rfl
    rw [hb] at hc
    cases hc
  have hvalue : decimal (digits n) = n := foldl_digits n
  simp only [strtol, hskip, hsign 45 (by decide), hsign 43 (by decide), Bool.or_self,
    Bool.false_eq_true, if_false, takeWhile_eq_self_iff.mpr hall, digits_ne_nil n, hvalue]
  congr 1
  omega

/-- A number up to a comma. -/
theorem atTokNextint_digits {blanks : Line} (hblanks : ∀ c ∈ blanks, isspace c = true) (n : Nat)
    (rest : Line) :
    atTokNextint (some (blanks ++ digits n ++ 44 :: rest)) =
      (some (min (2 ^ 31 - 1) (n : Int)), some rest) := by
  obtain ⟨b, field, heq, hspace, hquote, hcomma⟩ := digits_cons n
  rw [atTokNextint, heq, nextTok_field hblanks hspace hquote hcomma, ← heq]
  show ((some (digits n)).bind strtol, some rest) = _
  rw [Option.bind_some, strtol_digits]

/-- A number at the end of the line. -/
theorem atTokNextint_last (n : Nat) :
    atTokNextint (some (digits n)) = (some (min (2 ^ 31 - 1) (n : Int)), none) := by
  obtain ⟨b, field, heq, hspace, hquote, hcomma⟩ := digits_cons n
  have hlast := nextTok_last (forall_mem_nil _) hspace hquote hcomma
  rw [nil_append, ← heq] at hlast
  rw [atTokNextint, hlast]
  show ((some (digits n)).bind strtol, none) = _
  rw [Option.bind_some, strtol_digits]

/-! ## All fields of a line -/

/-- A field as it is sent. -/
inductive AtField where
  | quoted (content : Line) (h : (34 : UInt8) ∉ content)
  | plain (content : Line) (hcomma : (44 : UInt8) ∉ content)
      (hstart : ∀ b ∈ content.head?, isspace b = false ∧ b ≠ 34)

namespace AtField

def content : AtField → Line
  | quoted content _ | plain content _ _ => content

def text : AtField → Line
  | quoted content _ => 34 :: content ++ [34]
  | plain content _ _ => content

/-- A field up to the comma. -/
theorem nextTok_comma (f : AtField) (rest : Line) :
    nextTok (some (f.text ++ 44 :: rest)) = (some f.content, some rest) := by
  cases f with
  | quoted content h =>
    rw [text, cons_append, cons_append, append_assoc]
    exact nextTok_quoted_field (forall_mem_nil _) h rest
  | plain content hcomma hstart =>
    cases content with
    | nil => rfl
    | cons b content =>
      obtain ⟨hspace, hquote⟩ := hstart b rfl
      exact nextTok_field (forall_mem_nil _) hspace hquote hcomma rest

/-- The last field. -/
theorem nextTok_end (f : AtField) : (nextTok (some f.text)).1 = some f.content := by
  cases f with
  | quoted content h =>
    exact congrArg Prod.fst (nextTok_quoted (forall_mem_nil _) h)
  | plain content hcomma hstart =>
    cases content with
    | nil => rfl
    | cons b content =>
      obtain ⟨hspace, hquote⟩ := hstart b rfl
      exact congrArg Prod.fst (nextTok_last (forall_mem_nil _) hspace hquote hcomma)

end AtField

/-- What `count` calls of `at_tok_nextstr` return. -/
def nextstrs : Nat → Option Line → List (Option Line)
  | 0, _ => []
  | count + 1, cur => (atTokNextstr cur).1 :: nextstrs count (atTokNextstr cur).2

/-- The fields of a line are read in their order. -/
theorem fields_in_order (f : AtField) (fields : List AtField) :
    nextstrs (fields.length + 1) (some ([44].intercalate ((f :: fields).map AtField.text)))
      = (f :: fields).map fun f => some f.content := by
  induction fields generalizing f with
  | nil =>
    rw [map_singleton, intercalate_singleton]
    exact congrArg (· :: []) f.nextTok_end
  | cons g fields ih =>
    have hline : [44].intercalate ((f :: g :: fields).map AtField.text)
        = f.text ++ 44 :: [44].intercalate ((g :: fields).map AtField.text) := by
      rfl
    rw [hline, length_cons, nextstrs, atTokNextstr, f.nextTok_comma]
    exact congrArg (some f.content :: ·) (ih g)

end Arale.At
