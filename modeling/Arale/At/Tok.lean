import Mathlib.Algebra.Group.Int.Defs

/-!
# Texts of AT lines

Lines are the bytes before their end, so a string of the source is a list of
bytes without its NUL. `at_tok.c` walks through a line with a pointer that
becomes `NULL` when there is nothing left; here that pointer is the rest of the
line, or `none`.
-/

namespace Arale.At

/-- A line, without its end. -/
abbrev Line := List UInt8

/-- The bytes of a string constant. -/
def bytes (s : String) : Line := s.toList.map fun c => UInt8.ofNat c.toNat

/-- `strStartsWith` -/
def strStartsWith (line pre : Line) : Bool := pre.isPrefixOf line

def isspace (b : UInt8) : Bool := b == 32 || (9 ≤ b && b ≤ 13)

def isdigit (b : UInt8) : Bool := 48 ≤ b && b ≤ 57

/-! ## `at_tok.c` -/

/-- `strsep` with one delimiter: the token, and what follows the delimiter. -/
def strsep (delim : UInt8) (cur : Line) : Line × Option Line :=
  match cur.dropWhile (· != delim) with
  | [] => (cur.takeWhile (· != delim), none)
  | _ :: rest => (cur.takeWhile (· != delim), some rest)

def skipWhiteSpace (cur : Line) : Line := cur.dropWhile isspace

/-- The rest behind the next comma, or nothing. -/
def skipNextComma (cur : Line) : Line := (cur.dropWhile (· != 44)).drop 1

/-- The next field, quoted or up to a comma. -/
def nextTok : Option Line → Option Line × Option Line
  | none => (none, none)
  | some cur =>
    match skipWhiteSpace cur with
    | [] => (some (strsep 44 []).1, (strsep 44 []).2)
    | b :: rest =>
      if b = 34 then (some (strsep 34 rest).1, (strsep 34 rest).2.map skipNextComma)
      else (some (strsep 44 (b :: rest)).1, (strsep 44 (b :: rest)).2)

/-- `at_tok_start`: skips the text up to a colon. -/
def atTokStart (cur : Line) : Option Line :=
  match cur.dropWhile (· != 58) with
  | [] => none
  | _ :: rest => some rest

/-- The value of decimal digits. -/
def decimal (digits : Line) : Nat := digits.foldl (fun n b => 10 * n + (b.toNat - 48)) 0

/-- `strtol` in base 10, of 32 bits; `none` where no digit is read. -/
def strtol (s : Line) : Option Int :=
  let cur := skipWhiteSpace s
  let negative := cur.head? == some 45
  let digits := (if negative || cur.head? == some 43 then cur.drop 1 else cur).takeWhile isdigit
  if digits = [] then none
  else
    let value : Int := if negative then -decimal digits else decimal digits
    some (max (-2 ^ 31) (min (2 ^ 31 - 1) value))

/-- `at_tok_nextint` -/
def atTokNextint (cur : Option Line) : Option Int × Option Line :=
  let r := nextTok cur
  (r.1.bind strtol, r.2)

end Arale.At
