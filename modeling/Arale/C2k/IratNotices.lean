import Arale.At.Tok
import Arale.Lib.Trace

/-!
# Deactivation notices during a handover

The reader thread of the C2K data service, in `rilDataUnsolicited`, tests
`nIratAction` when it reads a deactivation notice. The variable is set by
`onIratEvent`, which the data proxy thread runs later. A notice that is ignored
is counted in `nIratDeactCount`, and ten seconds later `onResetIratStatus`
counts it back and ends the handover with the last one.

`Watching` goes through what can be queued and pending while the last handover
event read is the start in the source RAT. It needs a proxy thread that keeps up
with the reader, and no timer left of an earlier handover.
-/

namespace Arale.C2k.Irat

open Arale.At (Line bytes atTokStart atTokNextint)
open Arale.Lib

/-! ## The two threads -/

/-- `PDN_IRAT_TYPE`. -/
inductive IratType where
  | unknown | lteEhrpd | lteHrpd | ehrpdLte | hrpdLte | failed
deriving DecidableEq

/-- The RATs are 1XRTT 1, HRPD 2, EHRPD 3 and LTE 4. -/
def getIratType (sourceRat targetRat : Int) : IratType :=
  if sourceRat = 4 ∧ targetRat = 3 then .lteEhrpd
  else if sourceRat = 4 ∧ (targetRat = 2 ∨ targetRat = 1) then .lteHrpd
  else if sourceRat = 3 ∧ targetRat = 4 then .ehrpdLte
  else if (sourceRat = 2 ∨ sourceRat = 1) ∧ targetRat = 4 then .hrpdLte
  else if sourceRat = targetRat then .failed
  else .unknown

/-- `PDN_IRAT_ACTION`, as the modem numbers the events. -/
def actionUnknown : Int := 0
def sourceStarted : Int := 1
def sourceFinished : Int := 3
def targetFinished : Int := 4

/-- The parameters of `+EI3GPPIRAT`, as `onIratEvent` reads them. -/
structure IratEvent where
  action : Int
  sourceRat : Int
  targetRat : Int
deriving DecidableEq

def parseIratEvent (urc : Line) : Option IratEvent := do
  let line ← atTokStart urc
  let action := atTokNextint (some line)
  let sourceRat := atTokNextint action.2
  let targetRat := atTokNextint sourceRat.2
  return ⟨← action.1, ← sourceRat.1, ← targetRat.1⟩

/-- What is queued for the data proxy thread. The callbacks for the other lines
leave the handover state alone. -/
inductive Callback where
  | onIratEvent (urc : Line)
  | onUpdateIratStatus
  | onPdnDeactResult (urc : Line)
  | other
deriving DecidableEq

structure DataProxy where
  nIratAction : Int
  nIratDeactCount : Int
  queue : List Callback
  /-- When the calls of `onResetIratStatus` are due. -/
  timers : List Nat
  now : Nat
  /-- The last handover event read is the start in the source RAT. -/
  inSource : Bool
  /-- When the last deactivation notice of this handover was read. -/
  lastNotice : Option Nat

def DataProxy.start : DataProxy := ⟨actionUnknown, 0, [], [], 0, false, none⟩

def tolower (b : UInt8) : UInt8 := if 65 ≤ b && b ≤ 90 then b + 32 else b

/-- `strStartsWith` of `c2k-ril`, which ignores case. -/
def strStartsWith (line pre : Line) : Bool := (pre.map tolower).isPrefixOf (line.map tolower)

def isDeactNotice (s : Line) : Bool :=
  strStartsWith s (bytes "+CGEV: NW PDN DEACT") || strStartsWith s (bytes "+CGEV: ME PDN DEACT")

def isIratEvent (s : Line) : Bool := !isDeactNotice s && strStartsWith s (bytes "+EI3GPPIRAT:")

/-- The line is a handover event, the start in the source RAT. -/
def startsInSource (s : Line) : Bool :=
  isIratEvent s && (parseIratEvent s).any (·.action == sourceStarted)

/-- The states in which the source RAT deactivates its PDNs. -/
def ofSource (action : Int) : Bool := action == sourceStarted || action == sourceFinished

namespace DataProxy

/-- The callback `rilDataUnsolicited` asks for. -/
def callbackFor (d : DataProxy) (s : Line) : Callback :=
  if isDeactNotice s then
    if ofSource d.nIratAction then .onUpdateIratStatus else .onPdnDeactResult s
  else if isIratEvent s then .onIratEvent s
  else .other

/-- `rilDataUnsolicited`, with what was read. -/
def rilDataUnsolicited (d : DataProxy) (s : Line) : DataProxy :=
  { d with
    queue := d.queue ++ [d.callbackFor s]
    inSource := startsInSource s || (d.inSource && !(isIratEvent s && (parseIratEvent s).isSome))
    lastNotice := if isDeactNotice s then some d.now
      else if startsInSource s then none else d.lastNotice }

/-- `onIratEvent`. The handlers of the two finished events end the handover. -/
def onIratEvent (d : DataProxy) (e : IratEvent) : DataProxy :=
  { d with nIratAction :=
      if e.action = sourceFinished ∧ getIratType e.sourceRat e.targetRat = .failed then
        actionUnknown
      else if e.action = targetFinished then actionUnknown
      else e.action }

def onUpdateIratStatus (d : DataProxy) : DataProxy :=
  { d with nIratDeactCount := d.nIratDeactCount + 1, timers := d.timers ++ [d.now + 10] }

def onResetIratStatus (d : DataProxy) : DataProxy :=
  { d with
    nIratDeactCount := d.nIratDeactCount - 1
    nIratAction := if d.nIratDeactCount - 1 = 0 ∧ ofSource d.nIratAction then actionUnknown
      else d.nIratAction }

def runCallback (d : DataProxy) : Callback → DataProxy
  | .onIratEvent urc => ((parseIratEvent urc).map d.onIratEvent).getD d
  | .onUpdateIratStatus => d.onUpdateIratStatus
  | .onPdnDeactResult _ => d
  | .other => d

end DataProxy

inductive ProxyAct where
  /-- The reader thread reads a line. -/
  | read (s : Line)
  /-- The proxy thread runs the next callback of the queue. -/
  | run
  /-- The proxy thread runs a timer that is due. -/
  | timer
  | second

def proxyStep (d : DataProxy) : ProxyAct → Option DataProxy
  | .read s => some (d.rilDataUnsolicited s)
  | .run =>
    match d.queue with
    | [] => none
    | callback :: rest => some (({ d with queue := rest } : DataProxy).runCallback callback)
  | .timer =>
    match d.timers with
    | [] => none
    | due :: rest =>
      if due ≤ d.now then some (({ d with timers := rest } : DataProxy).onResetIratStatus) else none
  | .second => some { d with now := d.now + 1 }

/-- The notices of one handover are less than ten seconds apart. -/
def spaced (d : DataProxy) : ProxyAct → Prop
  | .read s => isDeactNotice s = true → ∀ t ∈ d.lastNotice, d.now < t + 10
  | .run | .timer | .second => True

/-- Besides, the queue is empty whenever a line is read or time passes, and no
timer is pending when a handover starts in the source RAT. -/
def prompt (d : DataProxy) : ProxyAct → Prop
  | .read s => spaced d (.read s) ∧ d.queue = [] ∧ (startsInSource s = true → d.timers = [])
  | .second => d.queue = []
  | .run | .timer => True

instance (d : DataProxy) : (act : ProxyAct) → Decidable (spaced d act)
  | .read s => inferInstanceAs
    (Decidable (isDeactNotice s = true → ∀ t ∈ d.lastNotice, d.now < t + 10))
  | .run | .timer | .second => .isTrue trivial

instance (d : DataProxy) : (act : ProxyAct) → Decidable (prompt d act)
  | .read s => inferInstanceAs (Decidable (spaced d (.read s) ∧ d.queue = []
      ∧ (startsInSource s = true → d.timers = [])))
  | .second => inferInstanceAs (Decidable (d.queue = []))
  | .run | .timer => .isTrue trivial

/-! ## While the source RAT is left -/

/-- Nothing is queued that has a say in the handover. -/
def idle (queue : List Callback) : Prop :=
  queue = [] ∨ ∃ callback, queue = [callback] ∧ ∀ d : DataProxy, d.runCallback callback = d

/-- Between the callbacks: no notice was read yet; or one was read at `t`, and its
timer is the last one; or that timer has ended the handover. -/
inductive Calm (d : DataProxy) : Prop where
  | quiet (haction : d.nIratAction = sourceStarted) (htimers : d.timers = [])
      (hlast : d.lastNotice = none)
  | counted (t : Nat) (haction : d.nIratAction = sourceStarted)
      (htimers : d.timers.getLast? = some (t + 10)) (hlast : d.lastNotice = some t)
  | ended (t : Nat) (htimers : d.timers = []) (hdue : t + 10 ≤ d.now)
      (hlast : d.lastNotice = some t)

theorem Calm.requeue {d : DataProxy} (h : Calm d) (queue : List Callback) :
    Calm { d with queue := queue } := by
  cases h with
  | quiet haction htimers hlast => exact .quiet haction htimers hlast
  | counted t haction htimers hlast => exact .counted t haction htimers hlast
  | ended t htimers hdue hlast => exact .ended t htimers hdue hlast

/-- What is queued and pending after the start in the source RAT was read. -/
inductive Watching (d : DataProxy) : Prop where
  | started (urc : Line) (e : IratEvent) (hqueue : d.queue = [.onIratEvent urc])
      (hparse : parseIratEvent urc = some e) (hstart : e.action = sourceStarted)
      (htimers : d.timers = []) (hlast : d.lastNotice = none)
  | noticed (hqueue : d.queue = [.onUpdateIratStatus]) (haction : d.nIratAction = sourceStarted)
      (htimers : ∀ due ∈ d.timers.getLast?, d.now < due) (hlast : d.lastNotice = some d.now)
  | calm (hqueue : idle d.queue) (hcalm : Calm d)

structure Guarded (d : DataProxy) : Prop where
  count : d.nIratDeactCount = d.timers.length
  watching : d.inSource = true → Watching d

theorem rilDataUnsolicited_notice {s : Line} (hs : isDeactNotice s = true) (d : DataProxy) :
    d.rilDataUnsolicited s = { d with
      queue := d.queue ++
        [if ofSource d.nIratAction then .onUpdateIratStatus else .onPdnDeactResult s]
      lastNotice := some d.now } := by
  simp [DataProxy.rilDataUnsolicited, DataProxy.callbackFor, startsInSource, isIratEvent, hs]

/-- A line that is neither a notice nor a handover event. -/
theorem rilDataUnsolicited_other {s : Line} (hs : isDeactNotice s = false)
    (hevent : (isIratEvent s && (parseIratEvent s).isSome) = false) (d : DataProxy) :
    ∃ callback, d.rilDataUnsolicited s = { d with queue := d.queue ++ [callback] }
      ∧ ∀ d : DataProxy, d.runCallback callback = d := by
  cases hirat : isIratEvent s with
  | false =>
    refine ⟨.other, ?_, fun _ => rfl⟩
    simp [DataProxy.rilDataUnsolicited, DataProxy.callbackFor, startsInSource, hs, hirat]
  | true =>
    have hparse : parseIratEvent s = none := by simpa [hirat] using hevent
    refine ⟨.onIratEvent s, ?_, fun d => by simp [DataProxy.runCallback, hparse]⟩
    simp [DataProxy.rilDataUnsolicited, DataProxy.callbackFor, startsInSource, hs, hirat, hparse]

namespace Watching

variable {d : DataProxy}

theorem calm_of_empty (h : Watching d) (hqueue : d.queue = []) : Calm d := by
  cases h with
  | started urc e hstarted => cases hqueue.symm.trans hstarted
  | noticed hnoticed => cases hqueue.symm.trans hnoticed
  | calm _ hcalm => exact hcalm

/-- A notice is read while nothing is queued: it is ignored, and waits to be
counted. -/
theorem read_notice (h : Watching d) {s : Line} (hs : isDeactNotice s = true)
    (hqueue : d.queue = []) (hspaced : spaced d (.read s)) :
    d.nIratAction = sourceStarted ∧ Watching (d.rilDataUnsolicited s) := by
  have hignored : d.nIratAction = sourceStarted → (∀ due ∈ d.timers.getLast?, d.now < due) →
      Watching (d.rilDataUnsolicited s) := by
    intro haction htimers
    rw [rilDataUnsolicited_notice hs]
    refine .noticed ?_ haction htimers rfl
    rw [haction, hqueue]
    rfl
  cases h.calm_of_empty hqueue with
  | quiet haction htimers => exact ⟨haction, hignored haction (by simp [htimers])⟩
  | counted t haction htimers hlast =>
    refine ⟨haction, hignored haction fun due hdue => ?_⟩
    rw [htimers] at hdue
    cases hdue
    exact hspaced hs t hlast
  | ended t _ hdue hlast => exact absurd (hspaced hs t hlast) (Nat.not_lt.mpr hdue)

theorem run (h : Watching d) {callback : Callback} {rest : List Callback}
    (hqueue : d.queue = callback :: rest) :
    Watching (({ d with queue := rest } : DataProxy).runCallback callback) := by
  cases h with
  | started urc e hstarted hparse hstart htimers hlast =>
    cases hqueue.symm.trans hstarted
    refine .calm (.inl ?_) (.quiet ?_ ?_ ?_)
    all_goals simp [DataProxy.runCallback, DataProxy.onIratEvent, hparse, hstart, htimers, hlast,
      sourceStarted, sourceFinished, targetFinished]
  | noticed hnoticed haction _ hlast =>
    cases hqueue.symm.trans hnoticed
    refine .calm (.inl rfl) (.counted d.now haction ?_ hlast)
    simp [DataProxy.runCallback, DataProxy.onUpdateIratStatus]
  | calm hidle hcalm =>
    obtain hnil | ⟨inert, hone, hinert⟩ := hidle
    · cases hqueue.symm.trans hnil
    · cases hqueue.symm.trans hone
      rw [hinert]
      exact .calm (.inl rfl) (hcalm.requeue [])

/-- A timer runs: if it is not the last one the count stays above 0. -/
theorem timer (h : Watching d) (hcount : d.nIratDeactCount = d.timers.length) {due : Nat}
    {rest : List Nat} (htimers : d.timers = due :: rest) (hdue : due ≤ d.now) :
    Watching (({ d with timers := rest } : DataProxy).onResetIratStatus) := by
  have hleft : rest ≠ [] → (({ d with timers := rest } : DataProxy).onResetIratStatus).nIratAction
      = d.nIratAction ∧ d.timers.getLast? = rest.getLast? := by
    intro hrest
    have hlength : 0 < rest.length := List.length_pos_iff.mpr hrest
    rw [htimers, List.length_cons] at hcount
    constructor
    · refine if_neg fun hzero => ?_
      have hnone : d.nIratDeactCount - 1 = 0 := hzero.1
      omega
    · rw [htimers, List.getLast?_cons_of_ne_nil hrest]
  cases h with
  | started _ _ _ _ _ hnone => cases htimers.symm.trans hnone
  | noticed hqueue haction hlate hlast =>
    by_cases hrest : rest = []
    · subst hrest
      exact absurd (hlate due (by rw [htimers]; rfl)) (Nat.not_lt.mpr hdue)
    · obtain ⟨hsame, hgetLast⟩ := hleft hrest
      exact .noticed hqueue (hsame.trans haction) (hgetLast ▸ hlate) hlast
  | calm hidle hcalm =>
    refine .calm hidle ?_
    cases hcalm with
    | quiet _ hnone => cases htimers.symm.trans hnone
    | ended _ hnone => cases htimers.symm.trans hnone
    | counted t haction hgetLast hlast =>
      by_cases hrest : rest = []
      · subst hrest
        rw [htimers] at hgetLast
        cases hgetLast
        exact .ended t rfl hdue hlast
      · obtain ⟨hsame, hlater⟩ := hleft hrest
        exact .counted t (hsame.trans haction) (hlater.symm.trans hgetLast) hlast

theorem second (h : Watching d) (hqueue : d.queue = []) : Watching { d with now := d.now + 1 } := by
  refine .calm (.inl hqueue) ?_
  cases h.calm_of_empty hqueue with
  | quiet haction htimers hlast => exact .quiet haction htimers hlast
  | counted t haction htimers hlast => exact .counted t haction htimers hlast
  | ended t htimers hdue hlast => exact .ended t htimers (Nat.le_succ_of_le hdue) hlast

end Watching

/-! ## Runs -/

theorem runCallback_kept {d : DataProxy} (hcount : d.nIratDeactCount = d.timers.length)
    (callback : Callback) : (d.runCallback callback).inSource = d.inSource
      ∧ (d.runCallback callback).nIratDeactCount = (d.runCallback callback).timers.length := by
  cases callback with
  | onIratEvent urc =>
    rw [DataProxy.runCallback]
    cases parseIratEvent urc with
    | none => exact ⟨rfl, hcount⟩
    | some e => exact ⟨rfl, hcount⟩
  | onUpdateIratStatus =>
    refine ⟨rfl, ?_⟩
    simp [DataProxy.runCallback, DataProxy.onUpdateIratStatus, hcount]
  | onPdnDeactResult urc => exact ⟨rfl, hcount⟩
  | other => exact ⟨rfl, hcount⟩

theorem guarded_start : Guarded .start := ⟨rfl, fun h => by cases h⟩

namespace Guarded

variable {d : DataProxy}

theorem read (h : Guarded d) {s : Line} (hprompt : prompt d (.read s)) :
    Guarded (d.rilDataUnsolicited s) := by
  obtain ⟨hspaced, hqueue, hfresh⟩ := hprompt
  refine ⟨h.count, fun hsource => ?_⟩
  cases hnotice : isDeactNotice s with
  | true =>
    rw [rilDataUnsolicited_notice hnotice] at hsource
    exact ((h.watching hsource).read_notice hnotice hqueue hspaced).2
  | false =>
    cases hevent : isIratEvent s && (parseIratEvent s).isSome with
    | false =>
      obtain ⟨callback, hread, hinert⟩ := rilDataUnsolicited_other hnotice hevent d
      rw [hread] at hsource ⊢
      have hidle : idle (d.queue ++ [callback]) := .inr ⟨callback, by rw [hqueue]; rfl, hinert⟩
      exact .calm hidle (((h.watching hsource).calm_of_empty hqueue).requeue _)
    | true =>
      -- Of the handover events only the start in the source RAT goes on from here.
      have hstart : startsInSource s = true := by
        simpa [DataProxy.rilDataUnsolicited, hevent] using hsource
      obtain ⟨hirat, hparsed⟩ := Bool.and_eq_true_iff.mp hstart
      obtain ⟨e, hparse, haction⟩ := (Option.any_eq_true _ _).mp hparsed
      refine .started s e ?_ hparse (eq_of_beq haction) (hfresh hstart) ?_
      · simp [DataProxy.rilDataUnsolicited, DataProxy.callbackFor, hqueue, hnotice, hirat]
      · simp [DataProxy.rilDataUnsolicited, hnotice, hstart]

theorem run (h : Guarded d) {callback : Callback} {rest : List Callback}
    (hqueue : d.queue = callback :: rest) :
    Guarded (({ d with queue := rest } : DataProxy).runCallback callback) := by
  obtain ⟨hkept, hcount⟩ := runCallback_kept (d := { d with queue := rest }) h.count callback
  refine ⟨hcount, fun hsource => ?_⟩
  rw [hkept] at hsource
  exact (h.watching hsource).run hqueue

theorem step (h : Guarded d) {act : ProxyAct} {d' : DataProxy} (hprompt : prompt d act)
    (hstep : proxyStep d act = some d') : Guarded d' := by
  cases act with
  | read s =>
    cases hstep
    exact h.read hprompt
  | second =>
    cases hstep
    exact ⟨h.count, fun hsource => (h.watching hsource).second hprompt⟩
  | run =>
    simp only [proxyStep] at hstep
    split at hstep
    · cases hstep
    · next callback rest hqueue =>
      cases hstep
      exact h.run hqueue
  | timer =>
    simp only [proxyStep] at hstep
    split at hstep
    · cases hstep
    · next due rest htimers =>
      split at hstep
      · next hdue =>
        cases hstep
        refine ⟨?_, fun hsource => (h.watching hsource).timer h.count htimers hdue⟩
        have hcount := h.count
        rw [htimers, List.length_cons] at hcount
        simp only [DataProxy.onResetIratStatus]
        omega
      · cases hstep

end Guarded

/-- **Notices of the source RAT.** In a run that meets `prompt`, a deactivation
notice that is read after the start in the source RAT and before another
handover event is ignored. -/
theorem source_notice_ignored {acts : List ProxyAct} {d : DataProxy} {s : Line}
    (hrun : Run proxyStep prompt .start acts d) (hsource : d.inSource = true)
    (hs : isDeactNotice s = true) (hprompt : prompt d (.read s)) :
    d.callbackFor s = .onUpdateIratStatus := by
  have hguarded : Guarded d :=
    hrun.invariant (fun _ _ _ h hcond hstep => h.step hcond hstep) guarded_start
  have haction := ((hguarded.watching hsource).read_notice hs hprompt.2.1 hprompt.1).1
  rw [DataProxy.callbackFor, if_pos hs, haction]
  rfl

def startLine : Line := bytes "+EI3GPPIRAT: 1,3,4"

def deactLine : Line := bytes "+CGEV: NW PDN DEACT 1"

/-- A second notice comes nine seconds after the first one. -/
theorem source_notice_ignored_second :
    ∃ d, Run proxyStep prompt .start
        ([.read startLine, .run, .read deactLine, .run] ++ List.replicate 9 .second) d
      ∧ d.callbackFor deactLine = .onUpdateIratStatus := by
  refine Run.exists_of_exec (A := fun d => d.inSource = true ∧ prompt d (.read deactLine))
    (by decide +kernel) ?_
  intro d hrun htest
  exact source_notice_ignored hrun htest.1 (by decide +kernel) htest.2

/-- A notice is read before the proxy thread runs the event; and a timer of the
handover that failed before ends the next one. -/
theorem source_notice_passed :
    (∃ d, Run proxyStep spaced .start [.read startLine] d
      ∧ d.inSource = true ∧ d.callbackFor deactLine = .onPdnDeactResult deactLine)
    ∧ ∃ d, Run proxyStep spaced .start ([.read startLine, .run, .read deactLine, .run,
          .read (bytes "+EI3GPPIRAT: 3,3,3"), .run] ++ List.replicate 9 .second
          ++ [.read startLine, .run, .second, .timer]) d
      ∧ d.inSource = true ∧ d.queue = [] ∧ d.callbackFor deactLine = .onPdnDeactResult deactLine :=
  ⟨Run.exists_of_exec (by decide +kernel) fun _ _ h => h,
    Run.exists_of_exec (by decide +kernel) fun _ _ h => h⟩

end Arale.C2k.Irat
