import Mathlib.Data.List.TakeWhile
import Arale.Lib.CString

/-!
# `readline`: cutting the stream of an AT channel into lines

`readline` returns the next line of an AT channel. What was read beyond it
stays in `ATBuffer`, from `ATBufferCur` up to a NUL; a line that is not
complete is moved to the front of the buffer and the next `read` appends to
it. Newlines in front of a line are skipped, before a `read` and behind it.

The device is the bytes that the modem sends and the way `read` hands them
out: any positive count up to the requested size, with interruptions in
between. Behind the last byte `read` reports the end of the stream (or an
error), and `readline` returns `NULL`.

`lineRuns` says what is in a stream: the runs of bytes that are no newlines,
each with the number of newlines before it. The lines are those that a newline
ends, and the point is that they do not depend on the reads:

> `readline_results`: if every line fits the buffer together with the newlines
> before it, the calls of `readline` return the lines of the stream, in order.

The invariant is `Unread`: the bytes between the cursor and the NUL, followed
by those the device still has, are what is left of the stream.
-/

namespace Arale.At

open List
open Arale.Lib (StringAt scan readString store move)

/-- `MAX_AT_RESPONSE` -/
def maxAtResponse : Nat := 8 * 1024

def isEol (b : UInt8) : Bool := b == 13 || b == 10

/-! ## The device -/

/-- What the next `read` does: it is interrupted, or it returns at most
`less + 1` bytes. -/
inductive Cut where
  | eintr
  | count (less : Nat)
  deriving DecidableEq, Repr

/-- The bytes to come, and the outcomes of the next reads; reads beyond the
list return as much as there is room for. -/
structure Device where
  stream : List UInt8
  cuts : List Cut
  deriving DecidableEq, Repr

/-- `do read(..) while (count < 0 && errno == EINTR)`, with the size that is
asked for; no bytes mean the end of the stream. -/
def readRetry (stream : List UInt8) (request : Nat) : List Cut → List UInt8 × Device
  | [] => (stream.take request, ⟨stream.drop request, []⟩)
  | .eintr :: cuts => readRetry stream request cuts
  | .count less :: cuts =>
    (stream.take (min (less + 1) request), ⟨stream.drop (min (less + 1) request), cuts⟩)

/-! ## The channel -/

/-- The part of `RILChannelCtx` that `readline` uses; `ATBufferCur` is kept as
an index into `ATBuffer`, which has `MAX_AT_RESPONSE + 1` bytes. -/
structure RilChannelCtx where
  atBuffer : Nat → UInt8
  atBufferCur : Nat
  readCount : Nat

/-- `initRILChannels` -/
def initRilChannel : RilChannelCtx where
  atBuffer := fun _ => 0
  atBufferCur := 0
  readCount := 0

/-- The cursor behind leading newlines. -/
def skipNewlines (buffer : Nat → UInt8) (cur : Nat) : Nat :=
  scan buffer isEol (maxAtResponse + 1) cur

/-- `cur[0] == '>' && cur[1] == ' ' && cur[2] == '\0'` -/
def isPrompt (buffer : Nat → UInt8) (cur : Nat) : Bool :=
  buffer cur == 62 && buffer (cur + 1) == 32 && buffer (cur + 2) == 0

/-- A pointer to the end of the next line, if it is complete. -/
def findNextEol (buffer : Nat → UInt8) (cur : Nat) : Option Nat :=
  if isPrompt buffer cur then some (cur + 2)
  else
    let eol := scan buffer (fun b => b != 0 && !isEol b) (maxAtResponse + 1) cur
    if buffer eol = 0 then none else some eol

/-- When the buffer is full without a complete line: ditch it and start over
again. Gives the channel and `p_read`. -/
def ditchFull (c : RilChannelCtx) (pRead : Nat) : RilChannelCtx × Nat :=
  if maxAtResponse - pRead = 0 then
    ({ c with atBuffer := store c.atBuffer 0 [0], atBufferCur := 0 }, 0)
  else (c, pRead)

/-- The bytes a `read` put at `p_read`, with a NUL behind them; leading
newlines are skipped. -/
def takeBytes (c : RilChannelCtx) (pRead : Nat) (bytes : List UInt8) : RilChannelCtx :=
  let buffer := store c.atBuffer pRead (bytes ++ [0])
  { c with
    atBuffer := buffer
    atBufferCur := skipNewlines buffer c.atBufferCur
    readCount := c.readCount + bytes.length }

/-- `while (p_eol == NULL)`: reads until a line is complete. The result is the
end of the line, or `none` where `readline` returns `NULL`. Every turn that
goes on has read a byte, so `fuel` is one more than the bytes to come. -/
def readMore : Nat → RilChannelCtx → Device → Nat → Option Nat × RilChannelCtx × Device
  | 0, c, d, _ => (none, c, d)
  | fuel + 1, c, d, pRead =>
    let r := ditchFull c pRead
    let q := readRetry d.stream (maxAtResponse - r.2) d.cuts
    if q.1 = [] then (none, r.1, q.2)
    else
      let c' := takeBytes r.1 r.2 q.1
      match findNextEol c'.atBuffer c'.atBufferCur with
      | some eol => (some eol, c', q.2)
      | none => readMore fuel c' q.2 (r.2 + q.1.length)

/-- A full line is in the buffer: its end becomes a NUL. -/
def finishLine (c : RilChannelCtx) (eol : Nat) : List UInt8 × RilChannelCtx :=
  let buffer := store c.atBuffer eol [0]
  let line := readString buffer (maxAtResponse + 1) c.atBufferCur
  if isPrompt buffer c.atBufferCur then
    (line, { c with atBuffer := store buffer (eol + 1) [0], atBufferCur := eol + 1 })
  else (line, { c with atBuffer := buffer, atBufferCur := eol + 1 })

/-- Reads a line from the AT channel, or `none` at the end of the stream. -/
def readline (c : RilChannelCtx) (d : Device) : Option (List UInt8) × RilChannelCtx × Device :=
  let finish := fun (r : Option Nat × RilChannelCtx × Device) =>
    match r with
    | (some eol, c, d) => (some (finishLine c eol).1, (finishLine c eol).2, d)
    | (none, c, d) => (none, c, d)
  if c.atBuffer c.atBufferCur = 0 then
    finish (readMore (d.stream.length + 1)
      { c with atBuffer := store c.atBuffer 0 [0], atBufferCur := 0 } d 0)
  else
    let cur := skipNewlines c.atBuffer c.atBufferCur
    match findNextEol c.atBuffer cur with
    | some eol => finish (some eol, { c with atBufferCur := cur }, d)
    | none =>
      -- a partial line: move it up and prepare to read more
      let len := scan c.atBuffer (· != 0) (maxAtResponse + 1) cur - cur
      finish (readMore (d.stream.length + 1)
        { c with atBuffer := move c.atBuffer 0 cur (len + 1), atBufferCur := 0 } d len)

/-- The results of the next calls. -/
def readlines : Nat → RilChannelCtx → Device → List (Option (List UInt8))
  | 0, _, _ => []
  | n + 1, c, d =>
    let r := readline c d
    r.1 :: readlines n r.2.1 r.2.2

/-! ## The lines of a stream -/

/-- A run of bytes that are no newlines, the number of newlines before it, and
whether a newline ends it. -/
structure LineRun where
  newlines : Nat
  line : List UInt8
  ended : Bool
  deriving DecidableEq, Repr

/-- The runs of a stream, behind some newlines and the beginning of a line. -/
def lineRuns : Nat → List UInt8 → List UInt8 → List LineRun
  | newlines, line, [] => if line = [] then [] else [⟨newlines, line, false⟩]
  | newlines, line, b :: bs =>
    if isEol b then
      if line = [] then lineRuns (newlines + 1) [] bs
      else ⟨newlines, line, true⟩ :: lineRuns 1 [] bs
    else lineRuns newlines (line ++ [b]) bs

/-- The lines that are ended. -/
def endedLines (runs : List LineRun) : List (List UInt8) := (runs.filter (·.ended)).map (·.line)

/-- The lines of a stream. -/
def atLines (stream : List UInt8) : List (List UInt8) := endedLines (lineRuns 0 [] stream)

/-- The bytes of a line. -/
def Plain (xs : List UInt8) : Prop := ∀ x ∈ xs, isEol x = false

variable {nls xs s rest : List UInt8}

theorem lineRuns_newlines (h : ∀ x ∈ nls, isEol x = true) (n : Nat)
    (s : List UInt8) : lineRuns n [] (nls ++ s) = lineRuns (n + nls.length) [] s := by
  induction nls generalizing n with
  | nil => rfl
  | cons x nls ih =>
    rw [cons_append, lineRuns, if_pos (h x mem_cons_self), if_pos rfl,
      ih (fun y hy => h y (mem_cons_of_mem x hy)), length_cons, Nat.add_right_comm,
      Nat.add_assoc]

theorem lineRuns_plain (h : Plain xs) (n : Nat) (line s : List UInt8) :
    lineRuns n line (xs ++ s) = lineRuns n (line ++ xs) s := by
  induction xs generalizing line with
  | nil => rw [append_nil, nil_append]
  | cons x xs ih =>
    rw [cons_append, lineRuns, if_neg (by simp [h x mem_cons_self]),
      ih (fun y hy => h y (mem_cons_of_mem x hy)), append_assoc]
    rfl

variable {e : UInt8}

theorem lineRuns_line (h : Plain xs) (hne : xs ≠ []) (he : isEol e = true) (n : Nat)
    (s : List UInt8) : lineRuns n [] (xs ++ e :: s) = ⟨n, xs, true⟩ :: lineRuns 1 [] s := by
  rw [lineRuns_plain h, nil_append, lineRuns, if_pos he, if_neg hne]

theorem lineRuns_open (h : Plain xs) (n : Nat) :
    lineRuns n [] xs = if xs = [] then [] else [⟨n, xs, false⟩] := by
  have hplain := lineRuns_plain h n [] []
  rwa [append_nil, nil_append] at hplain

/-- Newlines before the stream make the first run larger and change nothing
else. -/
theorem lineRuns_le {n n' : Nat} (h : n ≤ n') (line s : List UInt8) :
    endedLines (lineRuns n line s) = endedLines (lineRuns n' line s) ∧
      ∀ r ∈ lineRuns n line s, ∃ r' ∈ lineRuns n' line s,
        r.newlines ≤ r'.newlines ∧ r'.line = r.line := by
  induction s generalizing n n' line with
  | nil =>
    simp only [lineRuns]
    split
    · exact ⟨rfl, forall_mem_nil _⟩
    · exact ⟨rfl, fun r hr => ⟨_, mem_singleton_self _, by
        rw [mem_singleton.mp hr]; exact ⟨h, rfl⟩⟩⟩
  | cons b bs ih =>
    simp only [lineRuns]
    split
    · split
      · exact ih (by omega) []
      · refine ⟨by simp [endedLines], fun r hr => ?_⟩
        rcases mem_cons.mp hr with rfl | hr
        · exact ⟨_, mem_cons_self, h, rfl⟩
        · exact ⟨r, mem_cons_of_mem _ hr, Nat.le_refl _, rfl⟩
    · exact ih h (line ++ [b])

/-- What a stream must satisfy behind `n` newlines: no NULs, no line that
looks like the prompt, and room in the buffer for every line with the newlines
before it. -/
structure Readable (n : Nat) (stream : List UInt8) : Prop where
  nul : ∀ b ∈ stream, b ≠ 0
  prompt : ∀ r ∈ lineRuns n [] stream, ¬ [62, 32] <+: r.line
  fits : ∀ r ∈ lineRuns n [] stream, r.newlines + r.line.length < maxAtResponse

namespace Readable

variable {n : Nat} {nls xs s : List UInt8} {e : UInt8}

theorem fewer {n' : Nat} (h : Readable n' s) (hle : n ≤ n') : Readable n s where
  nul := h.nul
  prompt := by
    intro r hr
    obtain ⟨r', hr', -, hline⟩ := (lineRuns_le hle [] s).2 r hr
    exact hline ▸ h.prompt r' hr'
  fits := by
    intro r hr
    obtain ⟨r', hr', hnewlines, hline⟩ := (lineRuns_le hle [] s).2 r hr
    have hfits := h.fits r' hr'
    rw [hline] at hfits
    omega

theorem newlines (h : Readable n (nls ++ s)) (hnls : ∀ x ∈ nls, isEol x = true) :
    Readable (n + nls.length) s where
  nul := fun b hb => h.nul b (mem_append_right nls hb)
  prompt := lineRuns_newlines hnls n s ▸ h.prompt
  fits := lineRuns_newlines hnls n s ▸ h.fits

/-- What a complete line leaves. -/
theorem line (h : Readable n (xs ++ e :: s)) (hxs : Plain xs) (hne : xs ≠ [])
    (he : isEol e = true) : Readable 0 s := by
  have hruns := lineRuns_line hxs hne he n s
  have hone : Readable 1 s := by
    refine ⟨fun b hb => h.nul b (mem_append_right xs (mem_cons_of_mem e hb)), ?_, ?_⟩
    · exact fun r hr => h.prompt r (hruns ▸ mem_cons_of_mem _ hr)
    · exact fun r hr => h.fits r (hruns ▸ mem_cons_of_mem _ hr)
  exact hone.fewer (Nat.zero_le 1)

end Readable

/-! ## What the scans find -/

/-- Bytes are a line that is not ended, or one that is. -/
theorem exists_end (ys : List UInt8) :
    Plain ys ∨ ∃ line e tail, ys = line ++ e :: tail ∧ Plain line ∧ isEol e = true := by
  induction ys with
  | nil => exact .inl (forall_mem_nil _)
  | cons y ys ih =>
    cases hy : isEol y with
    | true => exact .inr ⟨[], y, ys, rfl, forall_mem_nil _, hy⟩
    | false =>
      rcases ih with hplain | ⟨line, e, tail, rfl, hplain, he⟩
      · exact .inl (forall_mem_cons.mpr ⟨hy, hplain⟩)
      · exact .inr ⟨y :: line, e, tail, rfl, forall_mem_cons.mpr ⟨hy, hplain⟩, he⟩

/-- Bytes are newlines, then something that does not begin with one. -/
theorem exists_newlines (xs : List UInt8) :
    ∃ nls ys, xs = nls ++ ys ∧ (∀ x ∈ nls, isEol x = true) ∧ ∀ y ∈ ys.head?, isEol y = false := by
  induction xs with
  | nil => exact ⟨[], [], rfl, forall_mem_nil _, fun y hy => by cases hy⟩
  | cons x xs ih =>
    cases hx : isEol x with
    | true =>
      obtain ⟨nls, ys, rfl, hnls, hys⟩ := ih
      exact ⟨x :: nls, ys, rfl, forall_mem_cons.mpr ⟨hx, hnls⟩, hys⟩
    | false =>
      refine ⟨[], x :: xs, rfl, forall_mem_nil _, fun y hy => ?_⟩
      cases hy
      exact hx

/-- A line that does not begin with a newline is not empty. -/
theorem line_ne_nil {line tail : List UInt8}
    (hhead : ∀ y ∈ (line ++ e :: tail).head?, isEol y = false) (he : isEol e = true) :
    line ≠ [] := by
  rintro rfl
  cases (hhead e rfl).symm.trans he

section Scans

variable {buffer : Nat → UInt8} {cur : Nat} {nls line tail : List UInt8} {e : UInt8}

theorem isPrompt_iff (h : StringAt buffer cur line) (hnul : ∀ b ∈ line, b ≠ 0) :
    isPrompt buffer cur = true ↔ line = [62, 32] := by
  unfold isPrompt
  cases line with
  | nil => simp [StringAt.nil_iff.mp h]
  | cons a line =>
    obtain ⟨ha, h⟩ := StringAt.cons_iff.mp h
    cases line with
    | nil => simp [ha, StringAt.nil_iff.mp h]
    | cons b line =>
      obtain ⟨hb, h⟩ := StringAt.cons_iff.mp h
      cases line with
      | nil => simp [ha, hb, StringAt.nil_iff.mp h]
      | cons c line =>
        have hc : c ≠ 0 := hnul c (by simp)
        simp [ha, hb, (StringAt.cons_iff.mp h).1, hc]

theorem skipNewlines_eq {ys : List UInt8} (h : StringAt buffer cur (nls ++ ys))
    (hnls : ∀ x ∈ nls, isEol x = true) (hys : ∀ y ∈ ys.head?, isEol y = false)
    (hlen : (nls ++ ys).length ≤ maxAtResponse) : skipNewlines buffer cur = cur + nls.length := by
  have htake : (nls ++ ys).takeWhile isEol = nls := by
    rw [takeWhile_append_of_pos hnls]
    cases ys with
    | nil => simp
    | cons y ys => simp [hys y rfl]
  rw [skipNewlines, h.scan rfl (Nat.lt_succ_of_le hlen), htake]

/-- The end of a line that is complete. -/
theorem findNextEol_line (h : StringAt buffer cur (line ++ e :: tail))
    (hnul : ∀ b ∈ line ++ e :: tail, b ≠ 0) (hplain : Plain line) (he : isEol e = true)
    (hlen : (line ++ e :: tail).length ≤ maxAtResponse) :
    findNextEol buffer cur = some (cur + line.length) := by
  have hprompt : ¬ isPrompt buffer cur = true := by
    rw [isPrompt_iff h hnul]
    intro heq
    have hmem : e ∈ ([62, 32] : List UInt8) := heq ▸ mem_append_right line mem_cons_self
    rcases mem_cons.mp hmem with rfl | hmem
    · cases he
    · rw [mem_singleton.mp hmem] at he
      cases he
  have htake : (line ++ e :: tail).takeWhile (fun b => b != 0 && !isEol b) = line := by
    rw [takeWhile_append_of_pos]
    · simp [he]
    · intro b hb
      simp [hnul b (mem_append_left _ hb), hplain b hb]
  have hat : buffer (cur + line.length) = e := (StringAt.cons_iff.mp h.drop).1
  unfold findNextEol
  rw [if_neg hprompt, h.scan rfl (Nat.lt_succ_of_le hlen), htake]
  show (if buffer (cur + line.length) = 0 then none else _) = _
  rw [hat, if_neg (hnul e (mem_append_right line mem_cons_self))]

/-- There is none in a line that is not complete. -/
theorem findNextEol_open (h : StringAt buffer cur line) (hnul : ∀ b ∈ line, b ≠ 0)
    (hplain : Plain line) (hprompt : line ≠ [62, 32]) (hlen : line.length ≤ maxAtResponse) :
    findNextEol buffer cur = none := by
  have htake : line.takeWhile (fun b => b != 0 && !isEol b) = line := by
    rw [takeWhile_eq_self_iff]
    intro b hb
    simp [hnul b hb, hplain b hb]
  have hend := h line.length (Nat.le_refl _)
  rw [List.getElem?_eq_none (Nat.le_refl _)] at hend
  unfold findNextEol
  rw [if_neg (by rwa [isPrompt_iff h hnul]), h.scan rfl (Nat.lt_succ_of_le hlen), htake]
  exact if_pos hend

end Scans

/-! ## Reading until a line is complete -/

/-- The next run has at least the bytes of the line seen so far. -/
theorem lineRuns_head {line : List UInt8} (h : line ≠ []) (n : Nat) (s : List UInt8) :
    ∃ r ∈ lineRuns n line s, r.newlines = n ∧ line <+: r.line := by
  induction s generalizing line with
  | nil =>
    rw [lineRuns, if_neg h]
    exact ⟨_, mem_singleton_self _, rfl, prefix_refl _⟩
  | cons b bs ih =>
    rw [lineRuns]
    split
    · exact ⟨_, mem_cons_self, rfl, prefix_refl _⟩
    · obtain ⟨r, hr, hn, hprefix⟩ := @ih (line ++ [b]) (by simp)
      exact ⟨r, hr, hn, (prefix_append line [b]).trans hprefix⟩

/-- A line that has begun has room in the buffer and is not the prompt. -/
theorem Readable.begun {n : Nat} (h : Readable n (xs ++ s)) (hxs : Plain xs)
    (hne : xs ≠ []) : n + xs.length < maxAtResponse ∧ xs ≠ [62, 32] := by
  obtain ⟨r, hr, hn, hprefix⟩ := lineRuns_head hne n s
  have hmem : r ∈ lineRuns n [] (xs ++ s) := by
    rw [lineRuns_plain hxs, nil_append]
    exact hr
  have hfits := h.fits r hmem
  have hlen := hprefix.length_le
  refine ⟨by omega, ?_⟩
  rintro rfl
  exact h.prompt r hmem hprefix

/-- So its end is not found. -/
theorem Readable.findNextEol {n cur : Nat} {buffer : Nat → UInt8} (h : Readable n (xs ++ s))
    (hstr : StringAt buffer cur xs) (hxs : Plain xs) (hlen : xs.length ≤ maxAtResponse) :
    findNextEol buffer cur = none := by
  refine findNextEol_open hstr (fun b hb => h.nul b (mem_append_left _ hb)) hxs ?_ hlen
  by_cases hnil : xs = []
  · rw [hnil]
    simp
  · exact (h.begun hxs hnil).2

/-- A `read` takes some bytes off the stream, and none only at its end. -/
theorem readRetry_spec (stream : List UInt8) {request : Nat} (hpos : 0 < request)
    (cuts : List Cut) :
    (readRetry stream request cuts).1 ++ (readRetry stream request cuts).2.stream = stream ∧
      (readRetry stream request cuts).1.length ≤ request ∧
      ((readRetry stream request cuts).1 = [] → stream = []) := by
  have htake : ∀ count, 0 < count → count ≤ request →
      stream.take count ++ stream.drop count = stream ∧ (stream.take count).length ≤ request ∧
        (stream.take count = [] → stream = []) := by
    intro count hcount hle
    refine ⟨take_append_drop count stream, ?_, fun hnil => ?_⟩
    · rw [length_take]
      omega
    · rcases take_eq_nil_iff.mp hnil with hzero | hnil
      · omega
      · exact hnil
  induction cuts with
  | nil => exact htake request hpos (Nat.le_refl _)
  | cons cut cuts ih =>
    cases cut with
    | eintr => exact ih
    | count less => exact htake (min (less + 1) request) (by omega) (by omega)

/-- What the search for a line gives when `rem` is what is left of the stream:
the end of the next line, in a buffer that holds the line and some of what
follows; or the end of a stream that has no more lines. -/
inductive Found (rem : List UInt8) : Option Nat × RilChannelCtx × Device → Prop where
  | line {nls line tail : List UInt8} {e : UInt8} {c : RilChannelCtx} {d : Device} :
      rem = nls ++ (line ++ e :: (tail ++ d.stream)) → (∀ x ∈ nls, isEol x = true) →
      Plain line → line ≠ [] → isEol e = true →
      StringAt c.atBuffer c.atBufferCur (line ++ e :: tail) →
      c.atBufferCur + (line ++ e :: tail).length ≤ maxAtResponse →
      Found rem (some (c.atBufferCur + line.length), c, d)
  | ended {nls rest : List UInt8} {c : RilChannelCtx} {d : Device} :
      rem = nls ++ rest → (∀ x ∈ nls, isEol x = true) → Plain rest → d.stream = [] →
      StringAt c.atBuffer c.atBufferCur rest →
      c.atBufferCur + rest.length ≤ maxAtResponse → Found rem (none, c, d)

theorem Found.newlines {rem : List UInt8} {r : Option Nat × RilChannelCtx × Device}
    (h : Found rem r) (hnls : ∀ x ∈ nls, isEol x = true) : Found (nls ++ rem) r := by
  cases h with
  | line hrem hnls' hplain hne he hstr hle =>
    have hboth := forall_mem_append.mpr ⟨hnls, hnls'⟩
    exact .line (by rw [hrem, append_assoc]) hboth hplain hne he hstr hle
  | ended hrem hnls' hplain hnil hstr hle =>
    have hboth := forall_mem_append.mpr ⟨hnls, hnls'⟩
    exact .ended (by rw [hrem, append_assoc]) hboth hplain hnil hstr hle

/-- The bytes behind the cursor, as far as they are read. -/
structure Unread (c : RilChannelCtx) (rest : List UInt8) : Prop where
  string : StringAt c.atBuffer c.atBufferCur rest
  room : c.atBufferCur + rest.length ≤ maxAtResponse

variable {c : RilChannelCtx}

/-- The buffer is given up only when nothing but newlines is in it; then there
is room for a byte. -/
theorem ditchFull_spec (hun : Unread c rest)
    (hrest : Plain rest) (hread : Readable c.atBufferCur (rest ++ s)) :
    ∃ c₁, ditchFull c (c.atBufferCur + rest.length) = (c₁, c₁.atBufferCur + rest.length) ∧
      Unread c₁ rest ∧ c₁.atBufferCur + rest.length < maxAtResponse ∧
      Readable c₁.atBufferCur (rest ++ s) := by
  unfold ditchFull
  split
  · have hnil : rest = [] := by
      by_contra hne
      have := (hread.begun hrest hne).1
      omega
    subst hnil
    refine ⟨_, rfl, ⟨StringAt.nil_iff.mpr ?_, Nat.zero_le _⟩, ?_, hread.fewer (Nat.zero_le _)⟩
    · show store c.atBuffer 0 [0] (0 + 0) = 0
      exact Lib.store_inside rfl
    · show 0 < maxAtResponse
      decide
  · exact ⟨c, rfl, hun, by omega, hread⟩

variable {d : Device}

theorem readMore_found {fuel : Nat} (hfuel : d.stream.length < fuel) (hun : Unread c rest)
    (hrest : Plain rest) (hread : Readable c.atBufferCur (rest ++ d.stream)) :
    Found (rest ++ d.stream) (readMore fuel c d (c.atBufferCur + rest.length)) := by
  -- one turn of the loop for each unit of fuel; the line begun so far is the invariant
  induction fuel generalizing c d rest with
  | zero => omega
  | succ fuel ih =>
    obtain ⟨c₁, hditch, hun₁, hlt, hread₁⟩ := ditchFull_spec hun hrest hread
    rw [readMore, hditch]
    obtain ⟨hsplit, hcount, hend⟩ := readRetry_spec d.stream
      (Nat.sub_pos_of_lt hlt) d.cuts
    generalize readRetry d.stream (maxAtResponse - (c₁.atBufferCur + rest.length)) d.cuts = q
      at hsplit hcount hend ⊢
    obtain ⟨bytes, d'⟩ := q
    dsimp only at hsplit hcount hend ⊢
    split
    · next hnil =>
      -- the end of the stream
      have hstream := hend hnil
      rw [hstream, append_eq_nil_iff] at hsplit
      rw [hstream, append_nil]
      exact .ended (show rest = [] ++ rest from rfl) (forall_mem_nil _) hrest
        hsplit.2 hun₁.string hun₁.room
    · next hne =>
      have hstr := hun₁.string.store bytes
      obtain ⟨nls, ys, hsum, hnls, hhead⟩ := exists_newlines (rest ++ bytes)
      have hrem : rest ++ d.stream = nls ++ (ys ++ d'.stream) := by
        rw [← hsplit, ← append_assoc, hsum, append_assoc]
      have hsize : rest.length + bytes.length = nls.length + ys.length := by
        simpa using congrArg List.length hsum
      rw [hsum] at hstr
      rw [hrem] at hread₁ ⊢
      have hskip := skipNewlines_eq hstr hnls hhead (by rw [length_append]; omega)
      have hread₂ := hread₁.newlines hnls
      have hnul : ∀ b ∈ ys, b ≠ 0 := fun b hb => hread₂.nul b (mem_append_left _ hb)
      refine Found.newlines ?_ hnls
      unfold takeBytes
      dsimp only
      rw [hskip]
      have hun₂ : Unread ⟨store c₁.atBuffer (c₁.atBufferCur + rest.length) (bytes ++ [0]),
          c₁.atBufferCur + nls.length, c₁.readCount + bytes.length⟩ ys :=
        ⟨hstr.drop, by dsimp only; omega⟩
      rcases exists_end ys with hplain | ⟨line, e, tail, rfl, hplain, he⟩
      · rw [hread₂.findNextEol hun₂.string hplain (by omega)]
        have hnext : c₁.atBufferCur + rest.length + bytes.length
            = c₁.atBufferCur + nls.length + ys.length := by omega
        rw [hnext]
        refine ih ?_ hun₂ hplain hread₂
        have hstream := congrArg List.length hsplit
        have hpos := length_pos_iff.mpr hne
        rw [length_append] at hstream
        omega
      · rw [findNextEol_line hun₂.string hnul hplain he (by omega)]
        have hrem' : line ++ e :: tail ++ d'.stream = [] ++ (line ++ e :: (tail ++ d'.stream)) := by
          simp
        exact .line hrem' (forall_mem_nil _) hplain (line_ne_nil hhead he) he
          hun₂.string hun₂.room

/-! ## The calls -/

/-- What a call does to what is left of the stream: it takes the next line
off, or finds that there is none. -/
inductive Called (rem : List UInt8) : Option (List UInt8) × RilChannelCtx × Device → Prop where
  | line {nls line rest : List UInt8} {e : UInt8} {c : RilChannelCtx} {d : Device} :
      rem = nls ++ (line ++ e :: (rest ++ d.stream)) → (∀ x ∈ nls, isEol x = true) →
      Plain line → line ≠ [] → isEol e = true → Unread c rest → Called rem (some line, c, d)
  | ended {nls rest : List UInt8} {c : RilChannelCtx} {d : Device} :
      rem = nls ++ (rest ++ d.stream) → (∀ x ∈ nls, isEol x = true) → Plain (rest ++ d.stream) →
      Unread c rest → Called rem (none, c, d)

/-- The end of the line becomes a NUL, and the cursor goes behind it. -/
theorem finishLine_spec {line tail : List UInt8}
    (hstr : StringAt c.atBuffer c.atBufferCur (line ++ e :: tail)) (hnul : ∀ b ∈ line, b ≠ 0)
    (hprompt : line ≠ [62, 32])
    (hroom : c.atBufferCur + (line ++ e :: tail).length ≤ maxAtResponse) :
    (finishLine c (c.atBufferCur + line.length)).1 = line ∧
      Unread (finishLine c (c.atBufferCur + line.length)).2 tail := by
  obtain ⟨hline, htail⟩ := hstr.cut
  rw [length_append, length_cons] at hroom
  have hread := hline.readString hnul (show line.length < maxAtResponse + 1 by omega)
  unfold finishLine
  rw [if_neg (by rwa [isPrompt_iff hline hnul])]
  exact ⟨hread, htail, by dsimp only; omega⟩

theorem readline_called (hun : Unread c rest)
    (hread : Readable 0 (rest ++ d.stream)) : Called (rest ++ d.stream) (readline c d) := by
  -- the common end of the branches
  have hfinish : ∀ r : Option Nat × RilChannelCtx × Device, Found (rest ++ d.stream) r →
      Called (rest ++ d.stream) (match r with
        | (some eol, c, d) => (some (finishLine c eol).1, (finishLine c eol).2, d)
        | (none, c, d) => (none, c, d)) := by
    intro r hr
    cases hr with
    | ended hrem hnls hplain hnil hstr hroom =>
      refine .ended (by rw [hnil, append_nil]; exact hrem) hnls ?_ ⟨hstr, hroom⟩
      rwa [hnil, append_nil]
    | line hrem hnls hplain hne he hstr hroom =>
      rw [hrem] at hread
      have hread' := hread.newlines hnls
      obtain ⟨hline, hun'⟩ := finishLine_spec hstr
        (fun b hb => hread'.nul b (mem_append_left _ hb)) (hread'.begun hplain hne).2 hroom
      dsimp only
      rw [hline]
      exact .line hrem hnls hplain hne he hun'
  have hnul : ∀ b ∈ rest, b ≠ 0 := fun b hb => hread.nul b (mem_append_left _ hb)
  unfold readline
  dsimp only
  by_cases hempty : c.atBuffer c.atBufferCur = 0
  · rw [if_pos hempty]
    obtain rfl := (hun.string.head_eq_zero hnul).mp hempty
    refine hfinish _ (readMore_found (Nat.lt_succ_self _) ⟨StringAt.nil_iff.mpr ?_, ?_⟩
      (forall_mem_nil _) hread)
    · show store c.atBuffer 0 [0] (0 + 0) = 0
      exact Lib.store_inside rfl
    · exact Nat.zero_le _
  · rw [if_neg hempty]
    obtain ⟨nls, ys, rfl, hnls, hhead⟩ := exists_newlines rest
    have hroom := hun.room
    rw [length_append] at hroom
    have hskip := skipNewlines_eq hun.string hnls hhead (by rw [length_append]; omega)
    have hstr := hun.string.drop
    have hnul' : ∀ b ∈ ys, b ≠ 0 := fun b hb => hnul b (mem_append_right nls hb)
    rw [append_assoc] at hread hfinish ⊢
    have hread' := hread.newlines hnls
    rw [hskip]
    rcases exists_end ys with hplain | ⟨line, e, tail, rfl, hplain, he⟩
    · -- the partial line is moved up
      have hlen : scan c.atBuffer (· != 0) (maxAtResponse + 1) (c.atBufferCur + nls.length)
          - (c.atBufferCur + nls.length) = ys.length := by
        have htake : ys.takeWhile (· != 0) = ys :=
          takeWhile_eq_self_iff.mpr fun b hb => by simpa using hnul' b hb
        rw [hstr.scan rfl (by omega), htake]
        omega
      rw [hread'.findNextEol hstr hplain (by omega), hlen]
      refine hfinish _ (Found.newlines ?_ hnls)
      have hmoved : Unread { c with
          atBuffer := move c.atBuffer 0 (c.atBufferCur + nls.length) (ys.length + 1)
          atBufferCur := 0 } ys := ⟨hstr.move 0, by dsimp only; omega⟩
      have hfound := readMore_found (Nat.lt_succ_self _) hmoved hplain
        (hread'.fewer (Nat.zero_le _))
      rwa [Nat.zero_add] at hfound
    · rw [findNextEol_line hstr hnul' hplain he (by omega)]
      refine hfinish _ (.line ?_ hnls hplain (line_ne_nil hhead he) he hstr ?_)
      · simp
      · dsimp only
        omega

theorem atLines_line {line : List UInt8} (hnls : ∀ x ∈ nls, isEol x = true)
    (hplain : Plain line) (hne : line ≠ []) (he : isEol e = true) :
    atLines (nls ++ (line ++ e :: s)) = line :: atLines s := by
  have hone := (lineRuns_le (Nat.zero_le 1) [] s).1
  unfold atLines
  rw [lineRuns_newlines hnls, lineRuns_line hplain hne he, hone]
  simp [endedLines]

theorem atLines_open (hnls : ∀ x ∈ nls, isEol x = true)
    (hplain : Plain rest) : atLines (nls ++ rest) = [] := by
  unfold atLines
  rw [lineRuns_newlines hnls, lineRuns_open hplain]
  split
  · rfl
  · rfl

theorem readlines_results (n : Nat) (hun : Unread c rest) (hread : Readable 0 (rest ++ d.stream)) :
    readlines n c d = (List.range n).map fun i => (atLines (rest ++ d.stream))[i]? := by
  induction n generalizing c d rest with
  | zero => rfl
  | succ n ih =>
    have hcall := readline_called hun hread
    rw [readlines, range_succ_eq_map, map_cons, map_map]
    generalize readline c d = r at hcall ⊢
    cases hcall with
    | line hrem hnls hplain hne he hun' =>
      rw [hrem] at hread ⊢
      rw [ih hun' ((hread.newlines hnls).line hplain hne he), atLines_line hnls hplain hne he]
      rfl
    | ended hrem hnls hplain hun' =>
      rw [hrem] at hread ⊢
      have hnil : ∀ x ∈ ([] : List UInt8), isEol x = true := forall_mem_nil _
      have hnone := atLines_open hnil hplain
      rw [ih hun' ((hread.newlines hnls).fewer (Nat.zero_le _)), atLines_open hnls hplain]
      rw [nil_append] at hnone
      rw [hnone]
      rfl

/-- **Lines of a channel.** However `read` cuts the stream, the calls of
`readline` return its lines, and then `NULL`. -/
theorem readline_results {stream : List UInt8} (hread : Readable 0 stream) (cuts : List Cut)
    (n : Nat) :
    readlines n initRilChannel ⟨stream, cuts⟩
      = (List.range n).map fun i => (atLines stream)[i]? := by
  have hun : Unread initRilChannel [] := ⟨StringAt.nil_iff.mpr rfl, Nat.zero_le _⟩
  exact readlines_results n hun hread

/-- An answer of two lines, read byte by byte with an interruption. -/
theorem readline_results_bytewise :
    Readable 0 [13, 10, 43, 67, 83, 81, 13, 10, 79, 75, 13, 10] ∧
      readlines 3 initRilChannel ⟨[13, 10, 43, 67, 83, 81, 13, 10, 79, 75, 13, 10],
          .eintr :: List.replicate 12 (.count 0)⟩
        = [some [43, 67, 83, 81], some [79, 75], none] := by
  have hread : Readable 0 [13, 10, 43, 67, 83, 81, 13, 10, 79, 75, 13, 10] :=
    ⟨by decide +kernel, by decide, by decide⟩
  exact ⟨hread, readline_results hread _ 3⟩

end Arale.At
