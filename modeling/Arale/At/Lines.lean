import Arale.At.Pairing

/-!
# What becomes of a line

`processLine` sorts every line that is received while a command is pending: by
the type of the command into the response, by its text into the final response,
or to the unsolicited handler. Three results about whole sequences of lines:

> `intermediates_selected`: with only the last line final, the issuer gets the
> lines the type of its command selects, in order of arrival, and the
> unsolicited handler the others, if and only if the last is none of them.
> `lines_accounted`: each line is recorded, answered or passed on, if and only if
> none is `Lost`.
> `pdu_written_once`: an SMS is written at most once for a single prompt.

The type of a command is looked at before the final responses, so a final line
that begins with the prefix of the command does not end it (`final_selected`). In
numeric mode a line that is no result code is dropped (`line_dropped`).
`smsPDU = NULL` clears the local copy of the pointer, and the next prompt is
answered again (`pdu_written_twice`).
-/

namespace Arale.At

open List
open Arale.Lib (Run anyStep)

/-! ## What a command selects -/

/-- A final response on the channel `id`, in the texts of the modem. -/
def isFinalResponse (simCount id : Nat) (line : Line) : Bool :=
  isFinalResponseSuccess line || isFinalResponseErrorEx simCount id line

/-- The lines a type of command asks for. -/
def selected : AtCommandType → List Line → List Line
  | .noResult, _ => []
  | .numeric, lines => (lines.find? beginsWithDigit).toList
  | .singleline responsePrefix, lines => (lines.find? (strStartsWith · responsePrefix)).toList
  | .multiline responsePrefix, lines => lines.filter (strStartsWith · responsePrefix)
  | .raw, lines => lines

/-- The other lines. -/
def passedOn : AtCommandType → List Line → List Line
  | .noResult, lines => lines
  | .numeric, lines => lines.eraseP beginsWithDigit
  | .singleline responsePrefix, lines => lines.eraseP (strStartsWith · responsePrefix)
  | .multiline responsePrefix, lines => lines.filter fun line => !strStartsWith line responsePrefix
  | .raw, _ => []

/-- A line is selected behind the lines that were. -/
def selects (soFar : List Line) (line : Line) : AtCommandType → Bool
  | .noResult => false
  | .numeric => soFar.isEmpty && beginsWithDigit line
  | .singleline responsePrefix => soFar.isEmpty && strStartsWith line responsePrefix
  | .multiline responsePrefix => strStartsWith line responsePrefix
  | .raw => true

section Snoc

variable {α : Type} (p : α → Bool) (xs : List α) (x : α)

theorem find?_toList_snoc : ((xs ++ [x]).find? p).toList
    = (xs.find? p).toList ++ if (xs.find? p).toList.isEmpty && p x then [x] else [] := by
  rw [List.find?_append]
  cases xs.find? p with
  | some y => rfl
  | none =>
    rw [List.find?_singleton]
    cases p x <;> rfl

theorem eraseP_snoc : (xs ++ [x]).eraseP p
    = xs.eraseP p ++ if (xs.find? p).toList.isEmpty && p x then [] else [x] := by
  rw [eraseP_append]
  cases hfind : xs.find? p with
  | some y =>
    have hany : xs.any p = true :=
      any_eq_true.mpr ⟨y, mem_of_find?_eq_some hfind, List.find?_some hfind⟩
    rw [if_pos hany]
    rfl
  | none =>
    have hnone := List.find?_eq_none.mp hfind
    have hany : ¬ xs.any p = true := by simpa using hnone
    rw [if_neg hany, eraseP_of_forall_not hnone, eraseP_cons]
    cases p x <;> rfl

theorem filter_snoc : (xs ++ [x]).filter p = xs.filter p ++ if p x then [x] else [] := by
  rw [filter_append, filter_cons, filter_nil]

end Snoc

theorem selected_snoc (type : AtCommandType) (lines : List Line) (line : Line) :
    selected type (lines ++ [line])
      = selected type lines ++ if selects (selected type lines) line type then [line] else [] := by
  cases type with
  | noResult => rfl
  | numeric => exact find?_toList_snoc beginsWithDigit lines line
  | singleline responsePrefix =>
    exact find?_toList_snoc (strStartsWith · responsePrefix) lines line
  | multiline responsePrefix => exact filter_snoc (strStartsWith · responsePrefix) lines line
  | raw => rfl

theorem passedOn_snoc (type : AtCommandType) (lines : List Line) (line : Line) :
    passedOn type (lines ++ [line])
      = passedOn type lines ++ if selects (selected type lines) line type then [] else [line] := by
  cases type with
  | noResult => rfl
  | numeric => exact eraseP_snoc beginsWithDigit lines line
  | singleline responsePrefix => exact eraseP_snoc (strStartsWith · responsePrefix) lines line
  | multiline responsePrefix =>
    have hsnoc := filter_snoc (fun line => !strStartsWith line responsePrefix) lines line
    refine hsnoc.trans ?_
    show _ = _ ++ if strStartsWith line responsePrefix then [] else [line]
    cases strStartsWith line responsePrefix <;> rfl
  | raw => rfl

/-! ## One line -/

variable {c : CommandCtx}

/-- `processLine` and the type of the command agree on what is selected. -/
theorem isIntermediateResult_eq (hraw : c.type ≠ .raw) (simCount : Nat)
    (isNumericSet : Bool) (p : AtResponse) (line : Line) :
    isIntermediateResult simCount isNumericSet c p line
      = selects p.intermediates.reverse line c.type := by
  unfold isIntermediateResult
  cases htype : c.type with
  | noResult => rfl
  | numeric | singleline responsePrefix => simp [selects]
  | multiline responsePrefix => rfl
  | raw => exact absurd htype hraw

variable {p : AtResponse}

/-- A line that is selected, or neither final nor a prompt. -/
theorem handled_plain (simCount : Nat) (line : Line) (hp : c.response = some p)
    (hraw : c.type ≠ .raw) (hplain : selects p.intermediates.reverse line c.type = true ∨
      isFinalResponse simCount c.id line = false ∧ isIntermediatePattern line = false) :
    handled simCount false c line
      = if selects p.intermediates.reverse line c.type then .intermediate else .unsolicited := by
  unfold handled
  rw [hp]
  dsimp only
  rw [isIntermediateResult_eq hraw]
  by_cases hselects : selects p.intermediates.reverse line c.type = true
  · rw [if_pos hselects, if_pos hselects]
  · obtain ⟨hfinal, hprompt⟩ := hplain.resolve_left hselects
    obtain ⟨hsuccess, herror⟩ := Bool.or_eq_false_iff.mp hfinal
    have hline : (line == bytes "> ") = false := by
      simpa [isIntermediatePattern, intermediatePattern] using hprompt
    rw [if_neg hselects, if_neg hselects, hsuccess, herror, hline, hprompt]
    cases c.smsPdu <;> rfl

variable {simCount : Nat} {isNumericSet : Bool}

/-- A final line the command does not select. -/
theorem handled_final {line : Line} (hp : c.response = some p) (hraw : c.type ≠ .raw)
    (hfinal : isFinalResponse simCount c.id line = true)
    (hselects : selects p.intermediates.reverse line c.type = false) :
    handled simCount isNumericSet c line = .final (isFinalResponseSuccess line) := by
  unfold handled
  rw [hp]
  dsimp only
  rw [isIntermediateResult_eq hraw, hselects, if_neg Bool.false_ne_true]
  cases hsuccess : isFinalResponseSuccess line with
  | true => rfl
  | false =>
    have herror : isFinalResponseErrorEx simCount c.id line = true := by
      simpa [isFinalResponse, hsuccess] using hfinal
    rw [if_neg Bool.false_ne_true, if_pos herror]

/-- The reader has a line for `processLine`. -/
theorem readerTurn_eq {s : Pairing} {line : Line} {h : Handled}
    (hheader : s.header = none) (hurc : isSmsUnsolicited line = false)
    (hp : s.ctx.response = some p) (hhandled : handled simCount s.isNumericSet s.ctx line = h) :
    readerTurn simCount s line
      = { s with
          ctx := { s.ctx with response := some (record p line h) }
          since := s.since ++ [⟨line, isFinal simCount s.isNumericSet s.ctx line, h⟩] } := by
  unfold readerTurn processLine
  rw [hurc, if_neg Bool.false_ne_true, hhandled, hp, hheader]
  rfl

/-! ## A command and its lines -/

/-- The lines for the unsolicited handler. -/
def unsolicitedOf (lines : List Turn) : List Line :=
  (lines.filter (·.how == .unsolicited)).map (·.line)

theorem unsolicitedOf_append (lines more : List Turn) :
    unsolicitedOf (lines ++ more) = unsolicitedOf lines ++ unsolicitedOf more := by
  rw [unsolicitedOf, filter_append, map_append]
  rfl

/-- The lines among the steps of the reader and the issuer. -/
def linesOf : List PairAct → List Line
  | [] => []
  | .line line :: acts => line :: linesOf acts
  | _ :: acts => linesOf acts

/-- No command is pending on an open channel, and the results are texts. -/
structure Ready (s : Pairing) : Prop where
  issuer : s.issuer = .idle
  response : s.ctx.response = none
  readerOpen : s.ctx.readerClosed = false
  header : s.header = none
  texts : s.isNumericSet = false

/-- A command is pending, and these lines were received since. -/
structure Pending (id : Nat) (type : AtCommandType) (lines : List Line) (s : Pairing) : Prop where
  issuer : s.issuer = .waiting true
  readerOpen : s.ctx.readerClosed = false
  header : s.header = none
  texts : s.isNumericSet = false
  channel : s.ctx.id = id
  command : s.ctx.type = type
  response : s.ctx.response = some ⟨false, none, (selected type lines).reverse⟩
  given : s.given = none
  passed : unsolicitedOf s.since = passedOn type lines

namespace Pending

variable {id : Nat} {type : AtCommandType} {lines : List Line} {s : Pairing}

theorem send (simCount : Nat) (h : Ready s) (type : AtCommandType) (smsPdu : Option Line) :
    ∃ t, pairStep simCount s (.send type smsPdu true true) = some t ∧
      Pending s.ctx.id type [] t := by
  refine ⟨atSendCommand s type smsPdu true true, ?_, ?_⟩
  · unfold pairStep
    rw [h.issuer]
  · have hwrite : writeline s.ctx true = .ok () := by
      rw [writeline, h.readerOpen]
      rfl
    unfold atSendCommand
    rw [h.response, hwrite]
    refine ⟨rfl, h.readerOpen, h.header, h.texts, rfl, rfl, ?_, rfl, ?_⟩
    · cases type <;> rfl
    · cases type <;> rfl

/-- A thread that is woken without a final response waits on. -/
theorem wake (simCount : Nat) (h : Pending id type lines s) :
    pairStep simCount s .wake = some s := by
  unfold pairStep
  rw [h.issuer, h.response]
  show some (atWake s true _) = some s
  unfold atWake
  rw [h.readerOpen]
  rfl

theorem line (h : Pending id type lines s) (simCount : Nat) (hraw : type ≠ .raw) {line : Line}
    (hplain : selects (selected type lines) line type = true ∨
      isFinalResponse simCount id line = false ∧ isIntermediatePattern line = false)
    (hurc : isSmsUnsolicited line = false) :
    Pending id type (lines ++ [line]) (readerTurn simCount s line) := by
  have hhandled : handled simCount s.isNumericSet s.ctx line
      = if selects (selected type lines) line type then .intermediate else .unsolicited := by
    have hhow := handled_plain simCount line h.response (h.command ▸ hraw)
    rw [reverse_reverse, h.command, h.channel] at hhow
    rw [h.texts]
    exact hhow hplain
  rw [readerTurn_eq h.header hurc h.response hhandled]
  refine ⟨h.issuer, h.readerOpen, h.header, h.texts, h.channel, h.command, ?_, h.given, ?_⟩
  · rw [selected_snoc]
    cases selects (selected type lines) line type with
    | true =>
      rw [if_pos rfl, if_pos rfl, reverse_append]
      rfl
    | false =>
      rw [if_neg Bool.false_ne_true, if_neg Bool.false_ne_true, append_nil]
      rfl
  · rw [unsolicitedOf_append, h.passed, passedOn_snoc]
    cases selects (selected type lines) line type <;> rfl

/-- Any number of lines, with the issuer woken between them. -/
theorem run (simCount : Nat) (hraw : type ≠ .raw) {acts : List PairAct} :
    ∀ {lines : List Line} {s : Pairing}, Pending id type lines s →
      (∀ a ∈ acts, a = .wake ∨ ∃ line, a = .line line) →
      (∀ line ∈ linesOf acts, isFinalResponse simCount id line = false ∧
        isIntermediatePattern line = false ∧ isSmsUnsolicited line = false) →
      ∃ t, Run (pairStep simCount) anyStep s acts t ∧
        Pending id type (lines ++ linesOf acts) t := by
  induction acts with
  | nil =>
    intro lines s h _ _
    exact ⟨s, .nil s, by rwa [linesOf, append_nil]⟩
  | cons a acts ih =>
    intro lines s h hacts hlines
    have hrest : ∀ a ∈ acts, a = .wake ∨ ∃ line, a = .line line :=
      fun a ha => hacts a (mem_cons_of_mem _ ha)
    rcases hacts a mem_cons_self with rfl | ⟨line, rfl⟩
    · obtain ⟨t, hrun, hpending⟩ := ih h hrest hlines
      exact ⟨t, .cons trivial (h.wake simCount) hrun, hpending⟩
    · obtain ⟨hfinal, hprompt, hurc⟩ := hlines line mem_cons_self
      obtain ⟨t, hrun, hpending⟩ := ih (h.line simCount hraw (.inr ⟨hfinal, hprompt⟩) hurc) hrest
        (fun line hline => hlines line (mem_cons_of_mem _ hline))
      rw [append_assoc] at hpending
      exact ⟨t, .cons trivial rfl hrun, hpending⟩

/-- The final line and the issuer. -/
theorem finish (h : Pending id type lines s) {simCount : Nat} (hraw : type ≠ .raw)
    {last : Line} (hfinal : isFinalResponse simCount id last = true)
    (hurc : isSmsUnsolicited last = false)
    (hselects : selects (selected type lines) last type = false) :
    ∃ t, Run (pairStep simCount) anyStep s [.line last, .wake] t ∧
      t.given = some ⟨isFinalResponseSuccess last, some last, selected type lines⟩ ∧
      unsolicitedOf t.since = passedOn type lines := by
  have hhandled : handled simCount s.isNumericSet s.ctx last
      = .final (isFinalResponseSuccess last) := by
    refine handled_final h.response (h.command ▸ hraw) (h.channel ▸ hfinal) ?_
    rw [reverse_reverse, h.command]
    exact hselects
  let p : AtResponse := ⟨isFinalResponseSuccess last, some last, (selected type lines).reverse⟩
  let s₁ : Pairing := { s with
    ctx := { s.ctx with response := some p }
    since := s.since ++ [⟨last, isFinal simCount s.isNumericSet s.ctx last,
      .final (isFinalResponseSuccess last)⟩] }
  have hturn : readerTurn simCount s last = s₁ :=
    readerTurn_eq h.header hurc h.response hhandled
  have hwake : pairStep simCount s₁ .wake = some (atWake s₁ true p) := by
    have hissuer : s₁.issuer = .waiting true := h.issuer
    unfold pairStep
    rw [hissuer]
  have hreturn : atWake s₁ true p
      = { s₁ with
          ctx := clearPendingCommand { s₁.ctx with response := none }
          issuer := .idle
          given := some { p with intermediates := p.intermediates.reverse } } := by
    unfold atWake
    rw [show s₁.ctx.readerClosed = false from h.readerOpen]
    rfl
  refine ⟨atWake s₁ true p, .cons trivial (congrArg some hturn) (.single trivial hwake), ?_, ?_⟩
  · rw [hreturn]
    show some (AtResponse.mk _ _ (selected type lines).reverse.reverse) = _
    rw [reverse_reverse]
  · rw [hreturn]
    show unsolicitedOf (s.since ++ _) = _
    rw [unsolicitedOf_append, h.passed]
    exact append_nil _

end Pending

/-- **Intermediate responses.** A command of one of the four types is sent, and
lines are received of which only the last is a final response and none is a prompt
or the header of an SMS URC. The issuer returns with that line as the final
response and with exactly the lines the type selects, and the unsolicited handler
got the others, all in order of arrival, if and only if the type does not select
the last line. -/
theorem intermediates_selected {simCount : Nat} {s : Pairing} (hready : Ready s)
    {type : AtCommandType} (hraw : type ≠ .raw) (smsPdu : Option Line) {acts : List PairAct}
    (hacts : ∀ a ∈ acts, a = .wake ∨ ∃ line, a = .line line) {last : Line}
    (hlines : ∀ line ∈ linesOf acts, isFinalResponse simCount s.ctx.id line = false)
    (hlast : isFinalResponse simCount s.ctx.id last = true)
    (hplain : ∀ line ∈ linesOf acts ++ [last],
      isIntermediatePattern line = false ∧ isSmsUnsolicited line = false) :
    (∃ t, Run (pairStep simCount) anyStep s
        (.send type smsPdu true true :: (acts ++ [.line last, .wake])) t ∧
      t.given = some ⟨isFinalResponseSuccess last, some last, selected type (linesOf acts)⟩ ∧
      unsolicitedOf t.since = passedOn type (linesOf acts))
      ↔ selected type (linesOf acts ++ [last]) = selected type (linesOf acts) := by
  obtain ⟨s₁, hsend, hpending⟩ := Pending.send simCount hready type smsPdu
  obtain ⟨s₂, hrun, hpending⟩ := Pending.run simCount hraw hpending hacts
    (fun line hline => ⟨hlines line hline, hplain line (mem_append_left _ hline)⟩)
  have hurc := (hplain last (mem_append_right _ mem_cons_self)).2
  rw [selected_snoc]
  cases hselects : selects (selected type (linesOf acts)) last type with
  | false =>
    obtain ⟨t, hfinish, hgiven, hpassed⟩ := hpending.finish hraw hlast hurc hselects
    refine iff_of_true ⟨t, .cons trivial hsend (hrun.trans hfinish), hgiven, hpassed⟩ ?_
    exact append_nil _
  | true =>
    -- the issuer goes on waiting, and the run has no other end
    have hwaits := hpending.line simCount hraw (.inl hselects) hurc
    have hend : Run (pairStep simCount) anyStep s _ _ := .cons trivial hsend (hrun.trans
      (.cons (i := .line last) trivial rfl (.single trivial (hwaits.wake simCount))))
    refine iff_of_false ?_ (by simp)
    rintro ⟨t, ht, hgiven, -⟩
    rw [Option.some.inj (ht.exec_eq.symm.trans hend.exec_eq), hwaits.given] at hgiven
    cases hgiven

/-- `AT+CLCC` with a URC between the calls it lists. -/
theorem intermediates_selected_clcc :
    ∃ t, Run (pairStep 1) anyStep (Pairing.start 1 false)
        (.send (.multiline (bytes "+CLCC:")) none true true ::
          ([.line (bytes "+CLCC: 1"), .line (bytes "RING"), .wake, .line (bytes "+CLCC: 2")]
            ++ [.line (bytes "OK"), .wake])) t ∧
      t.given = some ⟨true, some (bytes "OK"), [bytes "+CLCC: 1", bytes "+CLCC: 2"]⟩ ∧
      unsolicitedOf t.since = [bytes "RING"] := by
  obtain ⟨t, hrun, hgiven, hpassed⟩ := (@intermediates_selected 1 (Pairing.start 1 false)
    ⟨rfl, rfl, rfl, rfl, rfl⟩ (.multiline (bytes "+CLCC:")) (by decide) none
    [.line (bytes "+CLCC: 1"), .line (bytes "RING"), .wake, .line (bytes "+CLCC: 2")]
    (by simp) (bytes "OK") (by decide +kernel) (by decide +kernel) (by decide +kernel)).mpr
    (by decide +kernel)
  exact ⟨t, hrun, hgiven.trans (by decide +kernel), hpassed.trans (by decide +kernel)⟩

/-- `AT+CHLD=1` is sent with `NO CARRIER` as its prefix. When that is the final
response the issuer goes on waiting for another one. -/
theorem final_selected :
    (¬ ∀ (simCount : Nat) (s : Pairing), Ready s → ∀ (type : AtCommandType), type ≠ .raw →
        ∀ (last : Line), isFinalResponse simCount s.ctx.id last = true →
          isIntermediatePattern last = false → isSmsUnsolicited last = false →
          ∃ t, Run (pairStep simCount) anyStep s
            [.send type none true true, .line last, .wake] t ∧ t.given.isSome = true) ∧
      ∃ t, Run (pairStep 1) anyStep (Pairing.start 2 false)
          [.send (.multiline (bytes "NO CARRIER")) none true true, .line (bytes "NO CARRIER"),
            .wake] t ∧
        t.since = [⟨bytes "NO CARRIER", true, .intermediate⟩] ∧ t.given = none ∧
        t.issuer = .waiting true := by
  rw [and_iff_right_of_imp]
  · exact Run.exists_of_exec (by decide +kernel) fun _ _ h => h
  · rintro ⟨t, hrun, -, hgiven, -⟩ h
    obtain ⟨t', hrun', hsome⟩ := h 1 (Pairing.start 2 false) ⟨rfl, rfl, rfl, rfl, rfl⟩
      (.multiline (bytes "NO CARRIER")) (by decide) (bytes "NO CARRIER") (by decide +kernel)
      (by decide +kernel) (by decide +kernel)
    have hsame : t = t' := Option.some.inj (hrun.exec_eq.symm.trans hrun'.exec_eq)
    rw [← hsame, hgiven] at hsome
    cases hsome

/-! ## No line is lost -/

/-- A line is recorded as an intermediate or as the final response, answered with
the SMS, or passed on. -/
def Accounted (simCount : Nat) (isNumericSet : Bool) (c : CommandCtx) (line : Line) : Prop :=
  let r := processLine simCount isNumericSet line c
  (∃ p p', c.response = some p ∧ r.1.response = some p' ∧
      p'.intermediates = line :: p.intermediates) ∨
    (∃ p', r.1.response = some p' ∧ p'.finalResponse = some line ∧ r.2 = .final p'.success) ∨
    (∃ smsPdu, c.smsPdu = some smsPdu ∧ line = bytes "> " ∧ r.2 = .writeCtrlZ smsPdu) ∨
    r.2 = .unsolicited

/-- Each of some lines, with the result format at the time. -/
def AllAccounted (simCount : Nat) : CommandCtx → List (Bool × Line) → Prop
  | _, [] => True
  | c, (isNumericSet, line) :: rest =>
    Accounted simCount isNumericSet c line ∧
      AllAccounted simCount (processLine simCount isNumericSet line c).1 rest

/-- In numeric mode with a command pending, a line that the command does not select
and that is no final response, prompt or result code. -/
def Lost (simCount : Nat) (isNumericSet : Bool) (c : CommandCtx) (line : Line) : Prop :=
  isNumericSet = true ∧
    (∃ p, c.response = some p ∧ isIntermediateResult simCount true c p line = false) ∧
    isFinalResponseSuccess line = false ∧ isFinalResponseErrorEx simCount c.id line = false ∧
    isIntermediatePattern line = false ∧
    isFinalResponseSuccessInNumeric line = false ∧ isFinalResponseErrorInNumeric line = false

/-- None of some lines is lost, each in the state of the channel it comes to. -/
def NoneLost (simCount : Nat) : CommandCtx → List (Bool × Line) → Prop
  | _, [] => True
  | c, (isNumericSet, line) :: rest =>
    ¬ Lost simCount isNumericSet c line ∧
      NoneLost simCount (processLine simCount isNumericSet line c).1 rest

theorem handled_dropped_iff {line : Line} :
    handled simCount isNumericSet c line = .dropped ↔ Lost simCount isNumericSet c line := by
  have hpattern : isIntermediatePattern line = (line == bytes "> ") := by
    simp [isIntermediatePattern, intermediatePattern]
  rw [handled, Lost, hpattern]
  cases c.response with
  | none => simp
  | some p =>
    cases isNumericSet with
    | false =>
      refine iff_of_false ?_ (by simp)
      repeat' split
      all_goals simp_all
    | true =>
      cases hselected : isIntermediateResult simCount true c p line <;>
        cases isFinalResponseSuccess line <;> cases isFinalResponseErrorEx simCount c.id line <;>
        cases line == bytes "> " <;> cases c.smsPdu <;>
        cases isFinalResponseSuccessInNumeric line <;>
        cases isFinalResponseErrorInNumeric line <;> simp [hselected]

/-- What can become of a line, and when. -/
inductive Sorted (c : CommandCtx) (line : Line) : Handled → Prop where
  | unsolicited : Sorted c line .unsolicited
  | intermediate {p : AtResponse} (hp : c.response = some p) : Sorted c line .intermediate
  | final {p : AtResponse} {success : Bool} (hp : c.response = some p) :
      Sorted c line (.final success)
  | prompt {smsPdu : Line} (hpdu : c.smsPdu = some smsPdu) (hline : line = bytes "> ") :
      Sorted c line (.writeCtrlZ smsPdu)
  | dropped {p : AtResponse} (hp : c.response = some p) : Sorted c line .dropped

theorem handled_sorted (simCount : Nat) (isNumericSet : Bool) (c : CommandCtx) (line : Line) :
    Sorted c line (handled simCount isNumericSet c line) := by
  unfold handled
  split
  · exact .unsolicited
  · next p hp =>
    split
    · exact .intermediate hp
    · split
      · exact .final hp
      · split
        · exact .final hp
        · split
          · next hpdu hline => exact .prompt hpdu (eq_of_beq hline)
          · split
            · exact .final hp
            · split
              · split
                · exact .final hp
                · split
                  · exact .final hp
                  · exact .dropped hp
              · exact .unsolicited

/-- Only a prompt is answered with the SMS, and with that of the command. -/
theorem handled_writeCtrlZ {line : Line}
    {smsPdu : Line} (h : handled simCount isNumericSet c line = .writeCtrlZ smsPdu) :
    c.smsPdu = some smsPdu ∧ line = bytes "> " := by
  have hsorted := handled_sorted simCount isNumericSet c line
  rw [h] at hsorted
  cases hsorted with
  | prompt hpdu hline => exact ⟨hpdu, hline⟩

/-- A line that is not lost is recorded, answered or passed on. -/
theorem accounted_iff {line : Line} :
    Accounted simCount isNumericSet c line ↔ ¬ Lost simCount isNumericSet c line := by
  have hsorted := handled_sorted simCount isNumericSet c line
  rw [← handled_dropped_iff]
  unfold Accounted processLine
  generalize handled simCount isNumericSet c line = how at hsorted ⊢
  cases hsorted with
  | unsolicited => exact iff_of_true (.inr (.inr (.inr rfl))) Handled.noConfusion
  | @intermediate p hp =>
    refine iff_of_true (.inl ⟨p, record p line .intermediate, hp, ?_, rfl⟩) Handled.noConfusion
    rw [hp]
    rfl
  | @final p success hp =>
    refine iff_of_true (.inr (.inl ⟨record p line (.final success), ?_, rfl, rfl⟩))
      Handled.noConfusion
    rw [hp]
    rfl
  | prompt hpdu hline =>
    exact iff_of_true (.inr (.inr (.inl ⟨_, hpdu, hline, rfl⟩))) Handled.noConfusion
  | dropped hp => simp [hp, record]

/-- **No line is lost.** Whatever the channel holds and whatever lines come, each
of them is recorded, answered or passed on, if and only if none is `Lost`. -/
theorem lines_accounted {simCount : Nat} {c : CommandCtx} {lines : List (Bool × Line)} :
    AllAccounted simCount c lines ↔ NoneLost simCount c lines := by
  induction lines generalizing c with
  | nil => exact Iff.rfl
  | cons e rest ih => exact and_congr accounted_iff ih

/-- In numeric mode a URC is lost while a command is pending. -/
theorem line_dropped :
    (¬ ∀ (simCount : Nat) (c : CommandCtx) (lines : List (Bool × Line)),
        AllAccounted simCount c lines) ∧
      processLine 1 true (bytes "RING") ⟨1, .noResult, none, some atResponseNew, false⟩
        = (⟨1, .noResult, none, some atResponseNew, false⟩, .dropped) := by
  refine ⟨fun h => ?_, by decide +kernel⟩
  refine accounted_iff.mp (h 1 ⟨1, .noResult, none, some atResponseNew, false⟩
    [(true, bytes "RING")]).1 ?_
  exact handled_dropped_iff.mp (by decide +kernel)

/-! ## The SMS of a command -/

def isWriteCtrlZ : Handled → Bool
  | .writeCtrlZ _ => true
  | _ => false

/-- The calls of `writeCtrlZ` among what was done with some lines. -/
def pduWrites (lines : List Turn) : Nat := lines.countP fun e => isWriteCtrlZ e.how

/-- The prompts among some lines. -/
def prompts (lines : List Turn) : Nat := lines.countP fun e => e.line == bytes "> "

/-- Each call of `writeCtrlZ` answers a prompt. -/
def WritesAtPrompts (s : Pairing) : Prop :=
  ∀ e ∈ s.since, isWriteCtrlZ e.how = true → e.line = bytes "> "

theorem writesAtPrompts_step {s s' : Pairing} {a : PairAct}
    (h : WritesAtPrompts s) (hstep : pairStep simCount s a = some s') : WritesAtPrompts s' := by
  -- most steps add no line
  have hsame : s'.since = s.since → WritesAtPrompts s' := by
    intro hsince e he
    exact h e (hsince ▸ he)
  cases a with
  | send type smsPdu wantsResponse written =>
    simp only [pairStep] at hstep
    split at hstep
    · cases hstep
      unfold atSendCommand
      split
      · exact h
      · split
        · exact h
        · intro e he
          cases he
    · cases hstep
  | wake =>
    simp only [pairStep] at hstep
    split at hstep
    · cases hstep
      refine hsame ?_
      unfold atWake
      split
      · rfl
      · split <;> rfl
    · cases hstep
  | line line =>
    cases hstep
    unfold readerTurn
    split
    · refine forall_mem_append.mpr ⟨h, ?_⟩
      simp [isWriteCtrlZ]
    · split
      · exact h
      · refine forall_mem_append.mpr ⟨h, ?_⟩
        intro e he hwrite
        obtain rfl := mem_singleton.mp he
        change isWriteCtrlZ (handled simCount s.isNumericSet s.ctx line) = true at hwrite
        cases hhandled : handled simCount s.isNumericSet s.ctx line with
        | writeCtrlZ smsPdu => exact (handled_writeCtrlZ hhandled).2
        | _ =>
          rw [hhandled] at hwrite
          cases hwrite
  | close | setNumeric isNumericSet => exact hsame (by obtain rfl := Option.some.inj hstep; rfl)

/-- **An SMS is written once.** Over every run, `writeCtrlZ` is called at most once
for a command if at most one prompt is received since it was sent. -/
theorem pdu_written_once {simCount id : Nat} {isNumericSet : Bool} {acts : List PairAct}
    {s : Pairing} (hrun : Run (pairStep simCount) anyStep (Pairing.start id isNumericSet) acts s)
    (hprompt : prompts s.since ≤ 1) : pduWrites s.since ≤ 1 := by
  have hstart : WritesAtPrompts (Pairing.start id isNumericSet) := fun e he => by cases he
  have hwrites : WritesAtPrompts s :=
    hrun.invariant (fun _ _ _ h _ hstep => writesAtPrompts_step h hstep) hstart
  have hle : pduWrites s.since ≤ prompts s.since := by
    refine countP_mono_left ?_
    intro e he hwrite
    exact beq_iff_eq.mpr (hwrites e he hwrite)
  exact Nat.le_trans hle hprompt

/-- A message that is sent at its prompt. -/
theorem pdu_written_once_cmgs :
    ∃ s, Run (pairStep 1) anyStep (Pairing.start 1 false)
        [.send (.singleline (bytes "+CMGS:")) (some (bytes "0011")) true true, .line (bytes "> "),
          .line (bytes "+CMGS: 7"), .line (bytes "OK"), .wake] s ∧
      s.since = [⟨bytes "> ", false, .writeCtrlZ (bytes "0011")⟩,
        ⟨bytes "+CMGS: 7", false, .intermediate⟩, ⟨bytes "OK", true, .final true⟩] ∧
      pduWrites s.since ≤ 1 := by
  refine Run.exists_of_exec (by decide +kernel) fun s hrun hsince =>
    ⟨hsince, pdu_written_once hrun ?_⟩
  rw [hsince]
  decide +kernel

/-- The second prompt of a command is answered too. -/
theorem pdu_written_twice :
    ¬ ∀ (simCount id : Nat) (isNumericSet : Bool) (acts : List PairAct) (s : Pairing),
      Run (pairStep simCount) anyStep (Pairing.start id isNumericSet) acts s →
        pduWrites s.since ≤ 1 := by
  intro h
  obtain ⟨s, hrun, hsince⟩ := Run.of_exec_any (pairStep 1) anyStep (Pairing.start 1 false)
    [.send (.singleline (bytes "+CMGS:")) (some (bytes "0011")) true true, .line (bytes "> "),
      .line (bytes "> ")]
    (fun s => s.since == [⟨bytes "> ", false, .writeCtrlZ (bytes "0011")⟩,
      ⟨bytes "> ", false, .writeCtrlZ (bytes "0011")⟩]) (by decide +kernel)
  have hle := h 1 1 false _ s hrun
  rw [eq_of_beq hsince] at hle
  exact absurd hle (by decide)

end Arale.At
