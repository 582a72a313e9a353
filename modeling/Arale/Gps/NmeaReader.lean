import Mathlib.Data.List.DropRight

/-!
# Lines of NMEA

The GPS daemon sends NMEA sentences as a stream of bytes. `nmea_reader_addc`
collects them in a buffer of `NMEA_MAX_SIZE + 1` bytes and hands each complete
line to `nmea_reader_parse`. A line that does not fit is to be dropped up to its
end.

The state inside a line is not defined by running the reader: `InLine` says it
in terms of the bytes of the line. One byte takes it to the line with that byte,
or to the next line (`InLine.addc_other`, `InLine.addc_newline`), and so
`parsed_feed` gives what is parsed of any stream: the lines that `kept` lists.

> `parses_short_lines`: those are the lines of at most `NMEA_MAX_SIZE` bytes.

This holds exactly if the lines with a single byte more that come in a row
directly before one of them are even in number. The byte that does not fit is
then the newline, the reader drops it like any other, and waits for the end of a
line that has ended: `next_line_swallowed`.
-/

namespace Arale.Gps

/-- `NMEA_MAX_SIZE` -/
def nmeaMaxSize : Nat := 128

/-- `'\n'` -/
def newline : UInt8 := 10

/-- The part of `NmeaReader` that holds the line, and the other fields. -/
structure NmeaReader (ρ : Type) where
  pos : Int
  overflow : Bool
  /-- `in` -/
  buffer : Vector UInt8 (nmeaMaxSize + 1)
  rest : ρ
  /-- The bytes `in[0..pos)` at each call of `nmea_reader_parse`, for the
  statement. -/
  parsed : List (List UInt8)

namespace NmeaReader

variable {ρ : Type}

/-- `in[0..pos)` -/
def line (r : NmeaReader ρ) : List UInt8 := r.buffer.toList.take r.pos.toNat

/-- `nmea_reader_init` -/
def init (rest : ρ) : NmeaReader ρ := ⟨0, false, .replicate _ 0, rest, []⟩

section Addc

/- What `nmea_reader_parse` and the callback `nmea_cb` do: they may read all of
the reader, but neither writes `pos`, `overflow` or `in`. -/
variable (parse nmeaCb : NmeaReader ρ → ρ)

/-- The end of `nmea_reader_addc` for a newline. -/
def endLine (r : NmeaReader ρ) : NmeaReader ρ :=
  let r := { r with rest := parse r, parsed := r.parsed ++ [r.line] }
  { r with rest := nmeaCb r, pos := 0 }

/-- `nmea_reader_addc` -/
def addc (r : NmeaReader ρ) (c : UInt8) : NmeaReader ρ :=
  if r.overflow then { r with overflow := c != newline }
  else if h : (nmeaMaxSize : Int) ≤ r.pos ∨ r.pos < 0 then { r with overflow := true, pos := 0 }
  else
    let r := { r with buffer := r.buffer.set r.pos.toNat c (by omega), pos := r.pos + 1 }
    if c = newline then r.endLine parse nmeaCb else r

/-- The bytes of a stream, one after another. -/
def feed (r : NmeaReader ρ) (stream : List UInt8) : NmeaReader ρ :=
  stream.foldl (addc parse nmeaCb) r

end Addc

end NmeaReader

/-! ## The lines of a stream -/

section Lines

open List

/-- The lines of a stream that are ended, each with its newline; `line` is the
beginning of the first one. -/
def linesFrom : List UInt8 → List UInt8 → List (List UInt8)
  | _, [] => []
  | line, c :: cs =>
    if c = newline then (line ++ [c]) :: linesFrom [] cs else linesFrom (line ++ [c]) cs

def nmeaLines (stream : List UInt8) : List (List UInt8) := linesFrom [] stream

/-- What the reader makes of the lines: it parses the short ones. It swallows
the line behind one with a single byte too many, unless that one was swallowed
itself. -/
def kept : Bool → List (List UInt8) → List (List UInt8)
  | _, [] => []
  | true, _ :: ls => kept false ls
  | false, l :: ls =>
    if l.length ≤ nmeaMaxSize then l :: kept false ls else kept (l.length == nmeaMaxSize + 1) ls

/-- Only short lines are kept. -/
theorem kept_sublist (swallow : Bool) (ls : List (List UInt8)) :
    (kept swallow ls).Sublist (ls.filter (·.length ≤ nmeaMaxSize)) := by
  induction ls generalizing swallow with
  | nil => simp [kept]
  | cons l ls ih =>
    cases swallow with
    | true =>
      refine (ih false).trans ?_
      exact List.Sublist.filter _ (sublist_cons_self l ls)
    | false =>
      rw [kept]
      by_cases hl : l.length ≤ nmeaMaxSize
      · rw [if_pos hl, filter_cons_of_pos (by simpa using hl)]
        exact (ih false).cons_cons l
      · rw [if_neg hl, filter_cons_of_neg (by simpa using hl)]
        exact ih _

/-- How many of the last lines have a single byte too many, in a row. -/
def rowLength (before : List (List UInt8)) : Nat :=
  (before.rtakeWhile (·.length == nmeaMaxSize + 1)).length

theorem rowLength_concat (before : List (List UInt8)) (l : List UInt8) :
    rowLength (before ++ [l])
      = if l.length = nmeaMaxSize + 1 then rowLength before + 1 else 0 := by
  rw [rowLength, rtakeWhile_concat]
  by_cases hl : l.length = nmeaMaxSize + 1 <;> simp [hl, rowLength]

/-- A row of lines with a single byte too many that comes directly before a
short line has an even number of them. The lines `before` come first. -/
def noneSwallowed (before ls : List (List UInt8)) : Prop :=
  ∀ i (h : i < ls.length), ls[i].length ≤ nmeaMaxSize → rowLength (before ++ ls.take i) % 2 = 0

instance (before ls : List (List UInt8)) : Decidable (noneSwallowed before ls) :=
  inferInstanceAs (Decidable (∀ i (_ : i < ls.length), _))

theorem noneSwallowed_cons {before ls : List (List UInt8)} {l : List UInt8} :
    noneSwallowed before (l :: ls) ↔
      (l.length ≤ nmeaMaxSize → rowLength before % 2 = 0) ∧ noneSwallowed (before ++ [l]) ls := by
  constructor
  · intro h
    refine ⟨fun hl => by simpa using h 0 (by simp) hl, fun i hi hl => ?_⟩
    simpa using h (i + 1) (by simpa using hi) hl
  · rintro ⟨hhead, htail⟩ i hi hl
    cases i with
    | zero => simpa using hhead hl
    | succ i => simpa using htail i (by simpa using hi) hl

/-- The reader swallows every second line of a row, and the line behind the row
if that has an odd number of lines. -/
theorem kept_eq_filter {before ls : List (List UInt8)} {swallow : Bool}
    (hrow : swallow = true ↔ rowLength before % 2 = 1) :
    kept swallow ls = ls.filter (·.length ≤ nmeaMaxSize) ↔ noneSwallowed before ls := by
  induction ls generalizing before swallow with
  | nil => simp [kept, noneSwallowed]
  | cons l ls ih =>
    have hnext := rowLength_concat before l
    rw [noneSwallowed_cons]
    cases swallow with
    | true =>
      have hodd := hrow.mp rfl
      by_cases hl : l.length ≤ nmeaMaxSize
      · -- the short line is lost, and what is kept of the others has too few
        have hless := (kept_sublist false ls).length_le
        rw [filter_cons_of_pos (by simpa using hl)]
        refine iff_of_false (fun heq => ?_) fun h => by have := h.1 hl; omega
        rw [← kept, heq, length_cons] at hless
        omega
      · rw [filter_cons_of_neg (by simpa using hl), and_iff_right (absurd · hl)]
        exact ih (iff_of_false nofun (by split at hnext <;> omega))
    | false =>
      have heven : rowLength before % 2 = 0 := by simpa using hrow
      rw [and_iff_right fun _ => heven, kept]
      by_cases hl : l.length ≤ nmeaMaxSize
      · rw [if_pos hl, filter_cons_of_pos (by simpa using hl), cons_inj_right]
        exact ih (iff_of_false nofun (by split at hnext <;> omega))
      · rw [if_neg hl, filter_cons_of_neg (by simpa using hl)]
        exact ih (beq_iff_eq.trans (by split at hnext <;> omega))

end Lines

/-! ## The reader inside a line -/

namespace NmeaReader

variable {ρ : Type} (parse nmeaCb : NmeaReader ρ → ρ)

/-- The reader inside a line: it has the bytes of the line, or it drops them,
because the line is too long or is swallowed. -/
inductive InLine (r : NmeaReader ρ) : Bool → List UInt8 → Prop where
  | reading {line : List UInt8} (hoverflow : r.overflow = false) (hpos : r.pos = line.length)
      (hlen : line.length ≤ nmeaMaxSize) (hbytes : r.line = line) : InLine r false line
  | dropping {swallow : Bool} {line : List UInt8} (hoverflow : r.overflow = true) (hpos : r.pos = 0)
      (hdrop : swallow = true ∨ nmeaMaxSize < line.length) : InLine r swallow line

variable {r : NmeaReader ρ}

/-- A byte that is stored extends the line. -/
theorem line_stored (hpos : 0 ≤ r.pos) (c : UInt8) (h : r.pos.toNat < nmeaMaxSize + 1) :
    ({ r with buffer := r.buffer.set r.pos.toNat c h, pos := r.pos + 1 } : NmeaReader ρ).line
      = r.line ++ [c] := by
  have hsucc : (r.pos + 1).toNat = r.pos.toNat + 1 := by omega
  have hsize : r.pos.toNat < r.buffer.toList.length := by simpa using h
  simp only [line]
  rw [hsucc, Vector.toList_set, List.take_add_one, List.take_set_of_le (Nat.le_refl _),
    List.getElem?_set_self hsize]
  rfl

/-- A byte that fits is stored. -/
theorem addc_fits (hoverflow : r.overflow = false) (hpos : 0 ≤ r.pos)
    (hfits : r.pos < nmeaMaxSize) (c : UInt8) :
    ∃ stored : NmeaReader ρ, stored.line = r.line ++ [c] ∧ stored.pos = r.pos + 1
      ∧ stored.overflow = false ∧ stored.parsed = r.parsed
      ∧ r.addc parse nmeaCb c = if c = newline then stored.endLine parse nmeaCb else stored := by
  refine ⟨_, line_stored hpos c (by omega), rfl, hoverflow, rfl, ?_⟩
  rw [addc, if_neg (by rw [hoverflow]; decide), dif_neg (by omega)]

/-- One that does not fit is dropped, and the reader with it. -/
theorem addc_full (hoverflow : r.overflow = false) (hpos : r.pos = nmeaMaxSize)
    (c : UInt8) : r.addc parse nmeaCb c = { r with overflow := true, pos := 0 } := by
  rw [addc, if_neg (by rw [hoverflow]; decide), dif_pos (by omega)]

theorem addc_overflow (hoverflow : r.overflow = true) (c : UInt8) :
    r.addc parse nmeaCb c = { r with overflow := c != newline } := by
  rw [addc, if_pos hoverflow]

variable {swallow : Bool}

/-- A byte inside a line. -/
theorem InLine.addc_other {line : List UInt8}
    (h : InLine r swallow line) {c : UInt8} (hc : c ≠ newline) :
    InLine (r.addc parse nmeaCb c) swallow (line ++ [c])
      ∧ (r.addc parse nmeaCb c).parsed = r.parsed := by
  have hlength : (line ++ [c]).length = line.length + 1 := List.length_append
  cases h with
  | reading hoverflow hpos hlen hbytes =>
    by_cases hfull : line.length = nmeaMaxSize
    · rw [addc_full parse nmeaCb hoverflow (by omega)]
      exact ⟨.dropping rfl rfl (.inr (by omega)), rfl⟩
    · obtain ⟨stored, hline, hnext, hoff, hparsed, heq⟩ :=
        addc_fits parse nmeaCb hoverflow (by omega) (by omega) c
      rw [heq, if_neg hc]
      refine ⟨.reading hoff ?_ (by omega) (by rw [hline, hbytes]), hparsed⟩
      rw [hnext, hpos, hlength]
      rfl
  | dropping hoverflow hpos hdrop =>
    rw [addc_overflow parse nmeaCb hoverflow]
    refine ⟨.dropping (bne_iff_ne.mpr hc) hpos ?_, rfl⟩
    exact hdrop.imp_right fun hlong => by omega

/-- The end of a line. -/
theorem InLine.addc_newline {line : List UInt8}
    (h : InLine r swallow line) (ls : List (List UInt8)) :
    ∃ swallow', InLine (r.addc parse nmeaCb newline) swallow' []
      ∧ (r.addc parse nmeaCb newline).parsed ++ kept swallow' ls
        = r.parsed ++ kept swallow ((line ++ [newline]) :: ls) := by
  have hlength : (line ++ [newline]).length = line.length + 1 := List.length_append
  cases h with
  | reading hoverflow hpos hlen hbytes =>
    by_cases hfull : line.length = nmeaMaxSize
    · -- the newline itself is the byte that does not fit
      rw [addc_full parse nmeaCb hoverflow (by omega), kept, if_neg (by omega), hlength, hfull]
      exact ⟨true, .dropping rfl rfl (.inl rfl), by simp⟩
    · obtain ⟨stored, hline, hnext, hoff, hparsed, heq⟩ :=
        addc_fits parse nmeaCb hoverflow (by omega) (by omega) newline
      rw [heq, if_pos rfl, kept, if_pos (by omega)]
      refine ⟨false, .reading hoff rfl (Nat.zero_le _) rfl, ?_⟩
      simp [endLine, hline, hbytes, hparsed]
  | dropping hoverflow hpos hdrop =>
    rw [addc_overflow parse nmeaCb hoverflow]
    refine ⟨false, .reading (by simp) hpos (Nat.zero_le _) ?_, ?_⟩
    · simp [NmeaReader.line, hpos]
    · cases swallow with
      | true => rfl
      | false =>
        have hlong : nmeaMaxSize < line.length := hdrop.resolve_left (by decide)
        have hmore : (line.length + 1 == nmeaMaxSize + 1) = false :=
          beq_eq_false_iff_ne.mpr (by omega)
        rw [kept, if_neg (by omega), hlength, hmore]

/-- What is parsed of a stream. -/
theorem parsed_feed {line : List UInt8} (h : InLine r swallow line) (stream : List UInt8) :
    (r.feed parse nmeaCb stream).parsed = r.parsed ++ kept swallow (linesFrom line stream) := by
  induction stream generalizing r swallow line with
  | nil => simp [feed, linesFrom, kept]
  | cons c cs ih =>
    rw [feed, List.foldl_cons, linesFrom]
    by_cases hc : c = newline
    · subst hc
      obtain ⟨swallow', hnext, hparsed⟩ :=
        h.addc_newline parse nmeaCb (linesFrom [] cs)
      rw [if_pos rfl, ← hparsed]
      exact ih hnext
    · obtain ⟨hnext, hparsed⟩ := h.addc_other parse nmeaCb hc
      rw [if_neg hc, ← hparsed]
      exact ih hnext

theorem InLine.start (hpos : r.pos = 0) (hoverflow : r.overflow = false) : InLine r false [] := by
  refine .reading hoverflow hpos (Nat.zero_le _) ?_
  simp [line, hpos]

end NmeaReader

/-! ## The stream -/

section Stream

variable {ρ : Type} (parse nmeaCb : NmeaReader ρ → ρ) {r : NmeaReader ρ}

/-- Whatever the stream, only lines of at most `NMEA_MAX_SIZE` bytes are parsed,
each at most once and in their order. -/
theorem parsed_sublist (hpos : r.pos = 0) (hoverflow : r.overflow = false) (stream : List UInt8) :
    ∃ ls, (r.feed parse nmeaCb stream).parsed = r.parsed ++ ls
      ∧ ls.Sublist ((nmeaLines stream).filter (·.length ≤ nmeaMaxSize)) :=
  ⟨_, NmeaReader.parsed_feed parse nmeaCb (.start hpos hoverflow) stream, kept_sublist _ _⟩

theorem parsed_sublist_line :
    ∃ ls, ((NmeaReader.init ()).feed (fun _ => ()) (fun _ => ()) [36, 65, 10, 36]).parsed = [] ++ ls
      ∧ ls.Sublist ((nmeaLines [36, 65, 10, 36]).filter (·.length ≤ nmeaMaxSize)) :=
  parsed_sublist _ _ rfl rfl _

/-- From an initial state `nmea_reader_parse` is called for each line of at most
`NMEA_MAX_SIZE` bytes, once, in order and with the bytes of the line, and for no
other, exactly if none of them is swallowed. -/
theorem parses_short_lines (hpos : r.pos = 0) (hoverflow : r.overflow = false)
    (stream : List UInt8) :
    (r.feed parse nmeaCb stream).parsed
        = r.parsed ++ (nmeaLines stream).filter (·.length ≤ nmeaMaxSize) ↔
      noneSwallowed [] (nmeaLines stream) := by
  rw [NmeaReader.parsed_feed parse nmeaCb (.start hpos hoverflow) stream, ← nmeaLines,
    List.append_cancel_left_eq]
  exact kept_eq_filter (by decide)

end Stream

/-- A short line, one that is much too long, and a short one with a rest. -/
theorem parses_short_lines_sample :
    ((NmeaReader.init ()).feed (fun _ => ()) (fun _ => ())
      ([36, 65, 10] ++ List.replicate 200 88 ++ [10] ++ [36, 66, 10] ++ [36])).parsed
        = [[36, 65, 10], [36, 66, 10]] := by
  refine ((parses_short_lines (fun _ => ()) (fun _ => ()) rfl rfl _).mpr ?_).trans ?_ <;>
    decide +kernel

/-- A line of `NMEA_MAX_SIZE + 1` bytes with its newline, and a short one behind
it, which is not parsed. -/
theorem next_line_swallowed :
    ((NmeaReader.init ()).feed (fun _ => ()) (fun _ => ())
      (List.replicate 128 88 ++ [10] ++ [36, 66, 10])).parsed = []
      ∧ nmeaLines (List.replicate 128 88 ++ [10] ++ [36, 66, 10])
        = [List.replicate 128 88 ++ [10], [36, 66, 10]] := by
  decide +kernel

end Arale.Gps
