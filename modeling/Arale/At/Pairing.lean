import Arale.Lib.Trace
import Arale.At.Tok

/-!
# Commands and their answers on an AT channel

`at_send_command_full_nolock` writes a command, puts an empty `ATResponse` at
`p_response` and waits on `commandcond`. The reader thread takes
`commandmutex` for every line: `processLine` adds the line to the response,
makes it the final response and signals, or passes it to the unsolicited
handler. The issuer takes the response when it has the mutex again, which may
be several lines later.

A step of `pairStep` is what one of the threads does under the mutex, so the
labels of a run are an interleaving, and the moment at which a line counts as
received is the one at which the reader has the mutex. There are no timeouts.

Beside the memory of the program the state keeps every line since the last
command was sent, whether it is a final response by the tables of the source, and
what was done with it. `processLine` does not look at `finalResponse`, so a line
that comes between the final response and the issuer is still sorted into the
response:

> `response_pairing`: unless such a line is one of those the tables and the
> command ask for, or a final response is one the command selects, the issuer
> gets the first final line after the command, the intermediate lines before it,
> and no more.
-/

namespace Arale.At

open List
open Arale.Lib (Run anyStep)

/-! ## The kinds of lines -/

/-- `RIL_URC`, the first channel of the first SIM -/
def rilUrc : Nat := 0

/-- `RIL_CHANNEL_OFFSET`, the number of channels of a SIM -/
def rilChannelOffset : Nat := 6

/-- `s_finalResponsesError` -/
def finalResponsesError : List Line :=
  [bytes "ERROR", bytes "+CMS ERROR:", bytes "+CME ERROR:", bytes "NO CARRIER", bytes "NO ANSWER",
    bytes "NO DIALTONE"]

/-- `s_finalResponsesSuccess` -/
def finalResponsesSuccess : List Line := [bytes "OK", bytes "CONNECT"]

/-- `s_smsUnsoliciteds` -/
def smsUnsoliciteds : List Line :=
  [bytes "+CMT:", bytes "+CDS:", bytes "+CBM:", bytes "+EIMSCMT:", bytes "+EIMSCDS:"]

/-- `s_IntermediatePattern` -/
def intermediatePattern : List Line := [bytes "> "]

/-- `s_finalResponsesSuccessInNumeric` -/
def finalResponsesSuccessInNumeric : List Line := [bytes "0", bytes "1"]

/-- `s_finalResponsesErrorInNumeric` -/
def finalResponsesErrorInNumeric : List Line :=
  [bytes "2", bytes "3", bytes "4", bytes "6", bytes "7", bytes "8", bytes "+CMS ERROR:",
    bytes "+CME ERROR:"]

def isFinalResponseSuccess (line : Line) : Bool := finalResponsesSuccess.any (strStartsWith line)

/-- `NO CARRIER` is no final response on the URC channel of a SIM. -/
def isFinalResponseErrorEx (simCount id : Nat) (line : Line) : Bool :=
  if (List.range simCount).any fun j =>
      id == rilUrc + j * rilChannelOffset && strStartsWith line (bytes "NO CARRIER") then false
  else finalResponsesError.any (strStartsWith line)

def isSmsUnsolicited (line : Line) : Bool := smsUnsoliciteds.any (strStartsWith line)

def isIntermediatePattern (line : Line) : Bool := intermediatePattern.any (line == ·)

def isFinalResponseSuccessInNumeric (line : Line) : Bool :=
  finalResponsesSuccessInNumeric.any (line == ·)

def isFinalResponseErrorInNumeric (line : Line) : Bool :=
  finalResponsesErrorInNumeric.any (strStartsWith line)

/-- `isdigit(line[0])` -/
def beginsWithDigit (line : Line) : Bool := line.head?.any isdigit

/-! ## The pending command -/

/-- `ATCommandType`; the two types that look at `responsePrefix` carry it. -/
inductive AtCommandType where
  | noResult
  | numeric
  | singleline (responsePrefix : Line)
  | multiline (responsePrefix : Line)
  | raw
  deriving DecidableEq, Repr

/-- `ATResponse`; the reader adds intermediate lines at the head of the list. -/
structure AtResponse where
  success : Bool
  finalResponse : Option Line
  intermediates : List Line
  deriving DecidableEq, Repr

/-- `at_response_new` -/
def atResponseNew : AtResponse := ⟨false, none, []⟩

/-- The part of `RILChannelCtx` that commands and their answers use. -/
structure CommandCtx where
  id : Nat
  type : AtCommandType
  smsPdu : Option Line
  response : Option AtResponse
  readerClosed : Bool
  deriving DecidableEq, Repr

/-- `at_open`, for the channel `id` -/
def atOpen (id : Nat) : CommandCtx := ⟨id, .noResult, none, none, false⟩

/-- `clearPendingCommand` -/
def clearPendingCommand (c : CommandCtx) : CommandCtx :=
  { c with smsPdu := none, response := none }

/-- What `processLine` does with a line. -/
inductive Handled where
  | unsolicited
  | intermediate
  | final (success : Bool)
  | writeCtrlZ (smsPdu : Line)
  | dropped
  deriving DecidableEq, Repr

/-- The `switch` of `processLine`: the line is an intermediate result of the
pending command. -/
def isIntermediateResult (simCount : Nat) (isNumericSet : Bool) (c : CommandCtx) (p : AtResponse)
    (line : Line) : Bool :=
  match c.type with
  | .noResult => false
  | .numeric => p.intermediates.isEmpty && beginsWithDigit line
  | .singleline responsePrefix => p.intermediates.isEmpty && strStartsWith line responsePrefix
  | .multiline responsePrefix => strStartsWith line responsePrefix
  | .raw =>
    if isNumericSet then
      !isFinalResponseSuccessInNumeric line && !isFinalResponseErrorInNumeric line
    else
      !isFinalResponseSuccess line && !isFinalResponseErrorEx simCount c.id line
        && !isIntermediatePattern line

/-- The branches of `processLine`. -/
def handled (simCount : Nat) (isNumericSet : Bool) (c : CommandCtx) (line : Line) : Handled :=
  match c.response with
  | none => .unsolicited
  | some p =>
    if isIntermediateResult simCount isNumericSet c p line then .intermediate
    else if isFinalResponseSuccess line then .final true
    else if isFinalResponseErrorEx simCount c.id line then .final false
    else
      match c.smsPdu, line == bytes "> " with
      -- only the local copy of the pointer is cleared
      | some smsPdu, true => .writeCtrlZ smsPdu
      | _, _ =>
        if isIntermediatePattern line then .final true
        else if isNumericSet then
          if isFinalResponseSuccessInNumeric line then .final true
          else if isFinalResponseErrorInNumeric line then .final false
          else .dropped
        else .unsolicited

/-- `addIntermediate` and `handleFinalResponse`: what becomes of the response. -/
def record (p : AtResponse) (line : Line) : Handled → AtResponse
  | .intermediate => { p with intermediates := line :: p.intermediates }
  | .final success => { p with success := success, finalResponse := some line }
  | .unsolicited | .writeCtrlZ _ | .dropped => p

/-- `processLine`, with what is done with the line -/
def processLine (simCount : Nat) (isNumericSet : Bool) (line : Line) (c : CommandCtx) :
    CommandCtx × Handled :=
  let h := handled simCount isNumericSet c line
  ({ c with response := c.response.map (record · line h) }, h)

/-- A final response by the tables, in the result format of the channel. A prompt
that is not answered with an SMS ends the command too. -/
def isFinal (simCount : Nat) (isNumericSet : Bool) (c : CommandCtx) (line : Line) : Bool :=
  isFinalResponseSuccess line || isFinalResponseErrorEx simCount c.id line
    || c.smsPdu.isNone && isIntermediatePattern line
    || isNumericSet && (isFinalResponseSuccessInNumeric line || isFinalResponseErrorInNumeric line)

/-! ## The two threads -/

/-- A line the reader had, and what `processLine` did with it; `final` says that
it is a final response. -/
structure Turn where
  line : Line
  final : Bool
  how : Handled
  deriving DecidableEq, Repr

/-- The errors that are not timeouts. -/
inductive AtError where
  | generic
  | commandPending
  | channelClosed
  deriving DecidableEq, Repr

/-- The issuer is outside of `at_send_command_full_nolock`, or it waits on
`commandcond` for a response that its caller wants or not. -/
inductive Issuer where
  | idle
  | waiting (wantsResponse : Bool)
  deriving DecidableEq, Repr

/-- The channel and the two threads. `header` is the first line of a two-line
SMS URC, when the reader has read just that. `since` are the lines since the last
command was sent, `given` is what the issuer got for it, and `errors` are the
calls that failed. -/
structure Pairing where
  ctx : CommandCtx
  isNumericSet : Bool
  header : Option Line
  issuer : Issuer
  since : List Turn
  given : Option AtResponse
  errors : List AtError
  deriving DecidableEq, Repr

/-- A channel that has just been opened. -/
def Pairing.start (id : Nat) (isNumericSet : Bool) : Pairing where
  ctx := atOpen id
  isNumericSet := isNumericSet
  header := none
  issuer := .idle
  since := []
  given := none
  errors := []

/-- A command, with what `write` says to it; the issuer runs again, signalled
or not; the reader has a line; the channel is closed, by `at_close` or by the
reader; another command changes the result format. -/
inductive PairAct where
  | send (type : AtCommandType) (smsPdu : Option Line) (wantsResponse : Bool) (written : Bool)
  | wake
  | line (line : Line)
  | close
  | setNumeric (isNumericSet : Bool)
  deriving DecidableEq, Repr

/-- `writeline` -/
def writeline (c : CommandCtx) (written : Bool) : Except AtError Unit :=
  if c.readerClosed then .error .channelClosed
  else if written then .ok () else .error .generic

/-- The label `error` of `at_send_command_full_nolock`. -/
def sendFailed (s : Pairing) (err : AtError) : Pairing :=
  { s with ctx := clearPendingCommand s.ctx, issuer := .idle, errors := s.errors ++ [err] }

/-- `at_send_command_full_nolock` up to the wait -/
def atSendCommand (s : Pairing) (type : AtCommandType) (smsPdu : Option Line)
    (wantsResponse written : Bool) : Pairing :=
  if s.ctx.response.isSome then sendFailed s .commandPending
  else
    match writeline s.ctx written with
    | .error err => sendFailed s err
    | .ok () =>
      { s with
        ctx := { s.ctx with type := type, smsPdu := smsPdu, response := some atResponseNew }
        issuer := .waiting wantsResponse
        since := []
        given := none }

/-- `at_send_command_full_nolock` from the wait on; a thread that still has to
wait does so. -/
def atWake (s : Pairing) (wantsResponse : Bool) (p : AtResponse) : Pairing :=
  if p.finalResponse.isNone && !s.ctx.readerClosed then s
  else if s.ctx.readerClosed then sendFailed s .channelClosed
  else
    { s with
      ctx := clearPendingCommand { s.ctx with response := none }
      issuer := .idle
      -- `reverseIntermediates`
      given :=
        if wantsResponse then some { p with intermediates := p.intermediates.reverse } else none }

/-- One turn of `readerLoop`; the two lines of an SMS URC go to the unsolicited
handler together, without the mutex. -/
def readerTurn (simCount : Nat) (s : Pairing) (line : Line) : Pairing :=
  match s.header with
  | some header =>
    { s with
      header := none
      since := s.since ++ [⟨header, false, .unsolicited⟩, ⟨line, false, .unsolicited⟩] }
  | none =>
    if isSmsUnsolicited line then { s with header := some line }
    else
      let r := processLine simCount s.isNumericSet line s.ctx
      { s with
        ctx := r.1
        since := s.since ++ [⟨line, isFinal simCount s.isNumericSet s.ctx line, r.2⟩] }

/-- A step of one of the threads. -/
def pairStep (simCount : Nat) (s : Pairing) : PairAct → Option Pairing
  | .send type smsPdu wantsResponse written =>
    match s.issuer with
    | .idle => some (atSendCommand s type smsPdu wantsResponse written)
    | .waiting _ => none
  | .wake =>
    match s.issuer, s.ctx.response with
    | .waiting wantsResponse, some p => some (atWake s wantsResponse p)
    | _, _ => none
  | .line line => some (readerTurn simCount s line)
  | .close => some { s with ctx := { s.ctx with readerClosed := true } }
  | .setNumeric isNumericSet => some { s with isNumericSet := isNumericSet }

/-- A line that `processLine` mixes up. While a final response waits for the
issuer that is one which the command selects, a final response, the prompt of a
command with an SMS, and any line in numeric mode; before it, a final response
which the command selects. -/
def mixesUp (simCount : Nat) (s : Pairing) : PairAct → Bool
  | .line line =>
    s.header.isNone && !isSmsUnsolicited line && s.ctx.response.any fun p =>
      let selected := isIntermediateResult simCount s.isNumericSet s.ctx p line
      let final := isFinal simCount s.isNumericSet s.ctx line
      if p.finalResponse.isSome then
        selected || final || s.isNumericSet || isIntermediatePattern line
      else selected && final
  | _ => false

def keepsApart (simCount : Nat) (s : Pairing) (a : PairAct) : Prop := mixesUp simCount s a = false

instance (simCount : Nat) (s : Pairing) (a : PairAct) : Decidable (keepsApart simCount s a) :=
  inferInstanceAs (Decidable (_ = false))

/-! ## The answer in the lines since the command -/

/-- The intermediate results among some lines. -/
def intermediatesOf (lines : List Turn) : List Line :=
  (lines.filter (·.how == .intermediate)).map (·.line)

def NoFinal (lines : List Turn) : Prop := ∀ e ∈ lines, e.final = false

def AllUnsolicited (lines : List Turn) : Prop := ∀ e ∈ lines, e.how = .unsolicited

/-- The response is made of the first final line and the intermediate results
before it; every later line went to the unsolicited handler. -/
def Answers (lines : List Turn) (p : AtResponse) : Prop :=
  ∃ before e after, lines = before ++ e :: after ∧ NoFinal before ∧ e.final = true ∧
    AllUnsolicited after ∧ p.finalResponse = some e.line ∧
    p.intermediates = intermediatesOf before

/-- Behind a final line everything goes to the unsolicited handler. -/
def QuietAfterFinal (lines : List Turn) : Prop :=
  lines.Pairwise fun e later => e.final = true → later.how = .unsolicited

section Lines

variable {lines more : List Turn} {e : Turn} {p : AtResponse}

theorem NoFinal.append (h : NoFinal lines) (hmore : NoFinal more) : NoFinal (lines ++ more) :=
  fun e he => (mem_append.mp he).elim (h e) (hmore e)

theorem noFinal_one (h : e.final = false) : NoFinal [e] := by
  simpa [NoFinal] using h

theorem AllUnsolicited.append (h : AllUnsolicited lines) (hmore : AllUnsolicited more) :
    AllUnsolicited (lines ++ more) :=
  fun e he => (mem_append.mp he).elim (h e) (hmore e)

theorem intermediatesOf_unsolicited (h : AllUnsolicited lines) : intermediatesOf lines = [] := by
  have hnone : lines.filter (·.how == .intermediate) = [] := by
    rw [filter_eq_nil_iff]
    intro e he
    rw [h e he]
    decide
  rw [intermediatesOf, hnone, map_nil]

theorem intermediatesOf_append :
    intermediatesOf (lines ++ more) = intermediatesOf lines ++ intermediatesOf more := by
  rw [intermediatesOf, filter_append, map_append]
  rfl

theorem Answers.append (h : Answers lines p) (hmore : AllUnsolicited more) :
    Answers (lines ++ more) p := by
  obtain ⟨before, e, after, rfl, hbefore, he, hafter, hfinal, hinter⟩ := h
  exact ⟨before, e, after ++ more, by simp, hbefore, he, hafter.append hmore, hfinal, hinter⟩

theorem NoFinal.answers (h : NoFinal lines) (he : e.final = true) (success : Bool) :
    Answers (lines ++ [e]) ⟨success, some e.line, intermediatesOf lines⟩ :=
  ⟨lines, e, [], rfl, h, he, fun _ he => absurd he not_mem_nil, rfl, rfl⟩

theorem QuietAfterFinal.unsolicited (h : QuietAfterFinal lines) (hmore : AllUnsolicited more) :
    QuietAfterFinal (lines ++ more) := by
  refine pairwise_append.mpr ⟨h, ?_, fun _ _ later hlater _ => hmore later hlater⟩
  exact pairwise_of_forall_mem_list fun _ _ later hlater _ => hmore later hlater

theorem NoFinal.quiet (h : NoFinal lines) (e : Turn) : QuietAfterFinal (lines ++ [e]) := by
  have hold : ∀ first ∈ lines, ∀ later : Turn, first.final = true → later.how = .unsolicited :=
    fun first hfirst _ heq => by cases (h first hfirst).symm.trans heq
  refine pairwise_append.mpr ⟨?_, pairwise_singleton _ e, ?_⟩
  · exact pairwise_of_forall_mem_list fun first hfirst later _ => hold first hfirst later
  · exact fun first hfirst later _ => hold first hfirst later

end Lines

/-! ## A line and the tables -/

section Tables

variable {simCount : Nat} {isNumericSet : Bool} {c : CommandCtx} {line : Line} {p : AtResponse}

/-- With a command pending, a line is made the final response just when it is one
and the command does not select it. -/
theorem handled_final_iff (hp : c.response = some p)
    (hselected : isIntermediateResult simCount isNumericSet c p line = true →
      isFinal simCount isNumericSet c line = false) :
    (∃ success, handled simCount isNumericSet c line = .final success)
      ↔ isFinal simCount isNumericSet c line = true := by
  unfold handled
  rw [hp]
  cases hsel : isIntermediateResult simCount isNumericSet c p line with
  | true => simp [hsel, hselected hsel]
  | false =>
    have hpattern : isIntermediatePattern line = (line == bytes "> ") := by
      simp [isIntermediatePattern, intermediatePattern]
    -- a prompt is no result code
    have hcode : (line == bytes "> ") = true → (isFinalResponseSuccessInNumeric line
        || isFinalResponseErrorInNumeric line) = false := by
      intro hline
      rw [eq_of_beq hline]
      decide
    rw [isFinal, hpattern]
    cases hline : line == bytes "> " with
    | true =>
      rw [hcode hline]
      cases isFinalResponseSuccess line <;> cases isFinalResponseErrorEx simCount c.id line <;>
        cases c.smsPdu <;> simp [hsel]
    | false =>
      cases isFinalResponseSuccess line <;> cases isFinalResponseErrorEx simCount c.id line <;>
        cases isFinalResponseSuccessInNumeric line <;>
        cases isFinalResponseErrorInNumeric line <;> cases isNumericSet <;>
        cases c.smsPdu <;> simp [hsel]

/-- What neither the command nor the tables ask for is passed on. -/
theorem handled_unsolicited (hp : c.response = some p)
    (hselected : isIntermediateResult simCount false c p line = false)
    (hfinal : isFinal simCount false c line = false)
    (hprompt : isIntermediatePattern line = false) :
    handled simCount false c line = .unsolicited := by
  have hline : (line == bytes "> ") = false := by
    simpa [isIntermediatePattern, intermediatePattern] using hprompt
  simp only [isFinal, Bool.or_eq_false_iff] at hfinal
  unfold handled
  rw [hp]
  simp [hselected, hfinal, hline, hprompt]

end Tables

/-! ## What the steps preserve -/

/-- The response under construction, against the lines since the command. -/
inductive Collects (lines : List Turn) (p : AtResponse) : Prop where
  | pending (hfinal : p.finalResponse = none) (hno : NoFinal lines)
      (hinter : p.intermediates.reverse = intermediatesOf lines)
  | ended (hfinal : p.finalResponse.isSome)
      (hans : Answers lines { p with intermediates := p.intermediates.reverse })

/-- What relates the memory of the channel to the lines since the command. -/
structure Paired (s : Pairing) : Prop where
  idle : s.issuer = .idle → s.ctx.response = none
  waiting : s.issuer ≠ .idle → s.given = none
  collects : ∀ p, s.ctx.response = some p → Collects s.since p
  given : ∀ p, s.given = some p → Answers s.since p
  quiet : QuietAfterFinal s.since

theorem Collects.new : Collects [] atResponseNew :=
  .pending rfl (fun _ he => absurd he not_mem_nil) rfl

/-- A line that `processLine` looks at while the command is open. -/
theorem Collects.record {lines : List Turn} {p : AtResponse} {e : Turn}
    (hfinal : p.finalResponse = none) (hno : NoFinal lines)
    (hinter : p.intermediates.reverse = intermediatesOf lines)
    (he : (∃ success, e.how = .final success) ↔ e.final = true) :
    Collects (lines ++ [e]) (record p e.line e.how) := by
  obtain ⟨line, final, how⟩ := e
  have hopen : (∀ success, how ≠ .final success) → NoFinal (lines ++ [⟨line, final, how⟩]) := by
    intro hnot
    refine hno.append (noFinal_one (Bool.eq_false_iff.mpr fun htrue => ?_))
    obtain ⟨success, heq⟩ := he.mpr htrue
    exact hnot success heq
  cases how with
  | final success =>
    refine .ended rfl ?_
    have hans := hno.answers (he.mp ⟨success, rfl⟩) success
    rw [← hinter] at hans
    exact hans
  | intermediate =>
    refine .pending hfinal (hopen fun _ => Handled.noConfusion) ?_
    show (line :: p.intermediates).reverse = _
    rw [reverse_cons, hinter, intermediatesOf_append]
    rfl
  | unsolicited | writeCtrlZ smsPdu | dropped =>
    refine .pending hfinal (hopen fun _ => Handled.noConfusion) ?_
    show p.intermediates.reverse = _
    rw [hinter, intermediatesOf_append]
    exact (append_nil _).symm

theorem Collects.unsolicited {lines more : List Turn} {p : AtResponse} (h : Collects lines p)
    (hmore : AllUnsolicited more) (hno' : p.finalResponse = none → NoFinal more) :
    Collects (lines ++ more) p := by
  cases h with
  | pending hfinal hno hinter =>
    refine .pending hfinal (hno.append (hno' hfinal)) ?_
    rw [hinter, intermediatesOf_append, intermediatesOf_unsolicited hmore, append_nil]
  | ended hfinal hans => exact .ended hfinal (hans.append hmore)

namespace Paired

variable {s : Pairing}

theorem start (id : Nat) (isNumericSet : Bool) : Paired (Pairing.start id isNumericSet) where
  idle := fun _ => rfl
  waiting := fun _ => rfl
  collects := fun p hp => by cases hp
  given := fun p hp => by cases hp
  quiet := List.Pairwise.nil

/-- Lines that go to the unsolicited handler, whatever else changes. -/
theorem unsolicited (h : Paired s) {more : List Turn} (hmore : AllUnsolicited more)
    (hno : ∀ p, s.ctx.response = some p → p.finalResponse = none → NoFinal more)
    {header : Option Line} : Paired { s with header := header, since := s.since ++ more } where
  idle := h.idle
  waiting := h.waiting
  collects := fun p hp => (h.collects p hp).unsolicited hmore (hno p hp)
  given := fun p hp => (h.given p hp).append hmore
  quiet := h.quiet.unsolicited hmore

theorem sendFailed (h : Paired s) (err : AtError) : Paired (sendFailed s err) where
  idle := fun _ => rfl
  waiting := fun hne => absurd rfl hne
  collects := fun p hp => by cases hp
  given := h.given
  quiet := h.quiet

theorem atSendCommand (h : Paired s) (type : AtCommandType) (smsPdu : Option Line)
    (wantsResponse written : Bool) :
    Paired (atSendCommand s type smsPdu wantsResponse written) := by
  unfold At.atSendCommand
  split
  · exact h.sendFailed .commandPending
  · split
    · next err _ => exact h.sendFailed err
    · refine ⟨fun hidle => ?_, fun _ => rfl, fun p hp => ?_, fun p hp => ?_, List.Pairwise.nil⟩
      · cases hidle
      · cases hp
        exact .new
      · cases hp

theorem atWake (h : Paired s) {wantsResponse : Bool} {p : AtResponse}
    (hissuer : s.issuer = .waiting wantsResponse) (hp : s.ctx.response = some p) :
    Paired (atWake s wantsResponse p) := by
  unfold At.atWake
  split
  · exact h
  · next hready =>
    split
    · exact h.sendFailed .channelClosed
    · next hopen =>
      refine ⟨fun _ => rfl, fun hne => absurd rfl hne, fun p hp => ?_, fun q hq => ?_, h.quiet⟩
      · cases hp
      · cases wantsResponse with
        | false => cases hq
        | true =>
          cases hq
          cases h.collects p hp with
          | pending hfinal _ _ =>
            rw [hfinal] at hready
            simp [hopen] at hready
          | ended _ hans => exact hans

/-- A line for `processLine`. -/
theorem processLine (h : Paired s) {simCount : Nat} {line : Line} (hheader : s.header = none)
    (hurc : isSmsUnsolicited line = false) (hcond : keepsApart simCount s (.line line)) :
    Paired { s with
      ctx := (processLine simCount s.isNumericSet line s.ctx).1
      since := s.since ++ [⟨line, isFinal simCount s.isNumericSet s.ctx line,
        (processLine simCount s.isNumericSet line s.ctx).2⟩] } := by
  unfold At.processLine
  dsimp only
  -- a line that is passed on leaves the channel as it is
  have hpassed : ∀ how, how = .unsolicited →
      (∀ p, s.ctx.response = some p → p.finalResponse ≠ none) → Paired { s with
        ctx := { s.ctx with response := s.ctx.response.map (At.record · line how) }
        since := s.since ++ [⟨line, isFinal simCount s.isNumericSet s.ctx line, how⟩] } := by
    rintro _ rfl hended
    have hsame : s.ctx.response.map (At.record · line .unsolicited) = s.ctx.response :=
      congrFun Option.map_id _
    rw [hsame]
    exact h.unsolicited (by simp [AllUnsolicited]) fun p hp hnone => absurd hnone (hended p hp)
  cases hresp : s.ctx.response with
  | none =>
    refine hresp ▸ hpassed _ ?_ fun p hp => by cases hresp.symm.trans hp
    rw [handled, hresp]
  | some p =>
    simp only [keepsApart, mixesUp, hheader, hurc, hresp, Option.isNone_none, Bool.not_false,
      Bool.true_and, Option.any_some] at hcond
    cases h.collects p hresp with
    | ended hfinal _ =>
      simp only [hfinal, if_true, Bool.or_eq_false_iff] at hcond
      obtain ⟨⟨⟨hselected, hnot⟩, htexts⟩, hprompt⟩ := hcond
      refine hresp ▸ hpassed _ ?_ fun q hq hnone => ?_
      · rw [htexts] at hselected hnot ⊢
        exact handled_unsolicited hresp hselected hnot hprompt
      · cases hresp.symm.trans hq
        rw [hnone] at hfinal
        cases hfinal
    | pending hfinal hno hinter =>
      simp only [hfinal, Option.isSome_none, Bool.false_eq_true, if_false,
        Bool.and_eq_false_imp] at hcond
      have hwaiting : s.issuer ≠ .idle := by
        intro hidle
        cases (h.idle hidle).symm.trans hresp
      refine ⟨fun hidle => absurd hidle hwaiting, h.waiting, fun q hq => ?_, fun q hq => ?_,
        hno.quiet _⟩
      · cases hq
        exact .record (e := ⟨line, _, _⟩) hfinal hno hinter (handled_final_iff hresp hcond)
      · cases (h.waiting hwaiting).symm.trans hq

theorem step (h : Paired s) {simCount : Nat} {a : PairAct} {s' : Pairing}
    (hcond : keepsApart simCount s a) (hstep : pairStep simCount s a = some s') : Paired s' := by
  cases a with
  | send type smsPdu wantsResponse written =>
    simp only [pairStep] at hstep
    split at hstep
    · cases hstep
      exact h.atSendCommand type smsPdu wantsResponse written
    · cases hstep
  | wake =>
    simp only [pairStep] at hstep
    split at hstep
    · next hissuer hp =>
      cases hstep
      exact h.atWake hissuer hp
    · cases hstep
  | line line =>
    cases hstep
    unfold readerTurn
    split
    · exact h.unsolicited (by simp [AllUnsolicited]) fun _ _ _ => by simp [NoFinal]
    · next hheader =>
      split
      · exact ⟨h.idle, h.waiting, h.collects, h.given, h.quiet⟩
      · next hurc => exact h.processLine hheader (Bool.eq_false_iff.mpr hurc) hcond
  | close | setNumeric isNumericSet =>
    cases hstep
    exact ⟨h.idle, h.waiting, h.collects, h.given, h.quiet⟩

end Paired

/-- **Pairing.** As long as the reader keeps the lines apart, the lines behind the
first final one all go to the unsolicited handler, and what the issuer gets are the
first final line and the intermediate results before it. -/
theorem response_pairing {simCount id : Nat} {isNumericSet : Bool} {acts : List PairAct}
    {s : Pairing}
    (hrun : Run (pairStep simCount) (keepsApart simCount) (Pairing.start id isNumericSet) acts s) :
    QuietAfterFinal s.since ∧ ∀ p, s.given = some p → Answers s.since p := by
  have hpaired : Paired s :=
    hrun.invariant (fun _ _ _ h hcond hstep => h.step hcond hstep) (.start id isNumericSet)
  exact ⟨hpaired.quiet, hpaired.given⟩

/-- `AT+CREG?` on the first command channel, with a URC behind the final
response. -/
theorem response_pairing_creg :
    ∃ s p, Run (pairStep 1) (keepsApart 1) (Pairing.start 1 false)
        [.send (.singleline (bytes "+CREG:")) none true true, .line (bytes "+CREG: 0,1"),
          .line (bytes "OK"), .line (bytes "+CREG: 2"), .wake] s ∧
      s.given = some p ∧ Answers s.since p ∧ p.intermediates = [bytes "+CREG: 0,1"] := by
  simp only [exists_and_left]
  refine Run.exists_of_exec (A := fun s => (s.given.any fun p =>
    p.intermediates == [bytes "+CREG: 0,1"]) = true) (by decide +kernel) ?_
  intro s hrun htest
  obtain ⟨p, hp, hinter⟩ := (Option.any_eq_true _ _).mp htest
  exact ⟨p, hp, (response_pairing hrun).2 p hp, eq_of_beq hinter⟩

/-- A call is set up and lost before the issuer has the mutex again: it gets
`NO CARRIER` as the answer to its command, not the `OK` that came first. -/
theorem late_line_overwrites :
    ∃ s p, Run (pairStep 1) anyStep (Pairing.start 2 false)
        [.send .noResult none true true, .line (bytes "OK"), .line (bytes "NO CARRIER"), .wake] s ∧
      s.since = [⟨bytes "OK", true, .final true⟩, ⟨bytes "NO CARRIER", true, .final false⟩] ∧
      s.given = some p ∧ p.finalResponse = some (bytes "NO CARRIER") ∧ p.success = false ∧
      ¬ QuietAfterFinal s.since ∧ ¬ Answers s.since p := by
  simp only [exists_and_left]
  refine Run.exists_of_exec
    (A := fun s => s.since
        = [⟨bytes "OK", true, .final true⟩, ⟨bytes "NO CARRIER", true, .final false⟩]
      ∧ s.given = some ⟨false, some (bytes "NO CARRIER"), []⟩) (by decide +kernel) ?_
  rintro s hrun ⟨hsince, hgiven⟩
  refine ⟨hsince, _, hgiven, rfl, rfl, ?_, ?_⟩
  · rw [hsince]
    intro hquiet
    cases (pairwise_pair.mp hquiet) rfl
  · rw [hsince]
    rintro ⟨before, e, after, hlines, hbefore, -, -, hfinal, -⟩
    cases before with
    | nil =>
      obtain ⟨rfl, -⟩ := List.cons.inj hlines
      cases hfinal
    | cons first before =>
      obtain ⟨rfl, -⟩ := List.cons.inj hlines
      cases hbefore _ mem_cons_self

end Arale.At
