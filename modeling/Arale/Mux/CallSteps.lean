import Arale.Mux.AdvStream
import Arale.Mux.BaseGetFrame

/-!
# The decoders, one shared access at a time

`gsm0710_base_buffer_get_frame` and `gsm0710_advanced_buffer_get_frame` run
while the serial reader fills the same buffer. What the two threads share is
the ring's count of stored bytes: the reader adds to it, a decoder takes
from it under `datacount_lock`. `callStep` is one turn of the decoder loops,
with at most one such update; between two turns the reader may run.

The bytes under the read pointer do not change while they are stored, so a
turn may read them and take them off in one go. Only the analysis of a
basic-mode frame lies apart from the update it leads to: it is made on local
copies, and what it found is committed in a turn of its own.

> `baseCall_runs`, `advCall_runs`: with no other thread in between, the turns
> of a call give the result of the decoder function and leave its buffer.
-/

namespace Arale.Mux

open Arale.Lib (Ring)

/-- Where a thread is in `gsm0710_base_buffer_get_frame`, with the levels of
recursion left. `commit` holds what the analysis found: a frame, or nothing
if it is to be dropped, and how many bytes it had gone through. -/
inductive BasePc where
  | search (levels : Nat)
  | skip (levels : Nat)
  | analyze (levels : Nat)
  | commit (levels : Nat) (found : Option Frame) (used : Nat)
  deriving DecidableEq, Repr

/-- Where a thread is in `gsm0710_advanced_buffer_get_frame`. -/
inductive AdvPc where
  | search
  | skip
  | main
  deriving DecidableEq, Repr

inductive CallPc where
  | base (pc : BasePc)
  | adv (pc : AdvPc)
  deriving DecidableEq, Repr

/-- One turn: on to another one, or out of the call. `nullSignal` is the
exit that signals a sleeping reader before it returns `NULL`. -/
inductive CallStep where
  | goto (pc : CallPc) (buf : Gsm0710Buffer)
  | frame (f : Frame) (buf : Gsm0710Buffer)
  | null
  | nullSignal
  | assert (index : Nat)
  | outOfTable

def baseCallStep (channellist : List Channel) (buf : Gsm0710Buffer) : BasePc → CallStep
  | .search 0 => .assert 13
  | .search (levels + 1) =>
    if buf.flagFound then .goto (.base (.skip levels)) buf
    else if buf.ring.datacount = 0 then .nullSignal
    else if buf.ring.peek = gsm0710FrameFlag then
      .goto (.base (.search (levels + 1))) { buf with ring := buf.ring.inc, flagFound := true }
    else .goto (.base (.search (levels + 1))) { buf with ring := buf.ring.inc }
  | .skip levels =>
    if buf.ring.datacount ≠ 0 ∧ buf.ring.peek = gsm0710FrameFlag then
      .goto (.base (.skip levels)) { buf with ring := buf.ring.inc }
    else .goto (.base (.analyze levels)) buf
  | .analyze levels =>
    match baseAnalyze channellist buf.ring with
    | .short => .null
    | .incomplete => .null
    | .outOfTable => .outOfTable
    | .drop rest =>
      .goto (.base (.commit levels none (buf.ring.datacount - rest.datacount)))
        { buf with flagFound := false, droppedCount := buf.droppedCount + 1 }
    | .accept f rest =>
      .goto (.base (.commit levels (some f) (buf.ring.datacount - rest.datacount)))
        { buf with receivedCount := buf.receivedCount + 1 }
  | .commit levels none used =>
    .goto (.base (.search levels)) { buf with ring := buf.ring.skip used }
  | .commit _ (some f) used => .frame f { buf with ring := buf.ring.skip used, flagFound := false }

def advCallStep (buf : Gsm0710Buffer) : AdvPc → CallStep
  | .search =>
    if buf.flagFound then .goto (.adv .skip) buf
    else if buf.ring.datacount = 0 then .null
    else if buf.ring.peek = gsm0710FrameAdvFlag then
      .goto (.adv .search)
        { buf with
          ring := buf.ring.inc, flagFound := true, advData := [], advFoundEsc := false
          advData_le := Nat.zero_le _ }
    else .goto (.adv .search) { buf with ring := buf.ring.inc }
  | .skip =>
    if buf.advData = [] ∧ buf.ring.datacount ≠ 0 ∧ buf.ring.peek = gsm0710FrameAdvFlag then
      .goto (.adv .skip) { buf with ring := buf.ring.inc }
    else .goto (.adv .main) buf
  | .main =>
    if buf.ring.datacount = 0 then .null
    else if buf.advFoundEsc = false ∧ buf.ring.peek = gsm0710FrameAdvFlag then
      match closeFrame buf.advData with
      | .tooShort => .goto (.adv .search) { buf with ring := buf.ring.inc, flagFound := false }
      | .mismatch =>
        .goto (.adv .search)
          { buf with
            ring := buf.ring.inc, flagFound := false, droppedCount := buf.droppedCount + 1 }
      | .good f =>
        .frame f
          { buf with
            ring := buf.ring.inc, flagFound := false, receivedCount := buf.receivedCount + 1 }
    else if h : buf.advData.length < gsm0710BufferSize then
      if buf.advFoundEsc then
        .goto (.adv .main) (storeAdv buf (buf.ring.peek ^^^ gsm0710FrameAdvEscCopml) false h)
      else if buf.ring.peek = gsm0710FrameAdvEsc then
        .goto (.adv .main) { buf with ring := buf.ring.inc, advFoundEsc := true }
      else .goto (.adv .main) (storeAdv buf buf.ring.peek false h)
    else
      .goto (.adv .search) { buf with flagFound := false, droppedCount := buf.droppedCount + 1 }

def callStep (channellist : List Channel) (buf : Gsm0710Buffer) : CallPc → CallStep
  | .base pc => baseCallStep channellist buf pc
  | .adv pc => advCallStep buf pc

/-- The turns of a call with nothing in between, down to its result. -/
inductive CallRuns (channellist : List Channel) :
    CallPc → Gsm0710Buffer → GetFrame × Gsm0710Buffer → Prop where
  | goto {pc pc' : CallPc} {buf buf' : Gsm0710Buffer} {r : GetFrame × Gsm0710Buffer} :
      callStep channellist buf pc = .goto pc' buf' → CallRuns channellist pc' buf' r →
      CallRuns channellist pc buf r
  | frame {pc : CallPc} {buf buf' : Gsm0710Buffer} {f : Frame} :
      callStep channellist buf pc = .frame f buf' → CallRuns channellist pc buf (.frame f, buf')
  | null {pc : CallPc} {buf : Gsm0710Buffer} :
      callStep channellist buf pc = .null → CallRuns channellist pc buf (.null false, buf)
  | nullSignal {pc : CallPc} {buf : Gsm0710Buffer} :
      callStep channellist buf pc = .nullSignal →
      CallRuns channellist pc buf (.null buf.inputSleeping, buf)
  | assert {pc : CallPc} {buf : Gsm0710Buffer} {index : Nat} :
      callStep channellist buf pc = .assert index →
      CallRuns channellist pc buf (.assert index, buf)
  | outOfTable {pc : CallPc} {buf : Gsm0710Buffer} :
      callStep channellist buf pc = .outOfTable → CallRuns channellist pc buf (.outOfTable, buf)

section Loops

variable {channellist : List Channel} {pc pc' : CallPc} (flag : UInt8)

/-- The search loop of a call, whatever else it does on finding a flag. -/
theorem search_runs {exit : CallStep} (opened : Gsm0710Buffer → Gsm0710Buffer)
    (hstep : ∀ buf : Gsm0710Buffer, buf.flagFound = false → callStep channellist buf pc =
      if buf.ring.datacount = 0 then exit
      else if buf.ring.peek = flag then .goto pc (opened { buf with ring := buf.ring.inc })
      else .goto pc { buf with ring := buf.ring.inc }) (n : Nat) {buf : Gsm0710Buffer}
    {r : GetFrame × Gsm0710Buffer} (hflag : buf.flagFound = false) (h : CallRuns channellist pc
      (if (findStartFlag flag n buf.ring).1
        then opened { buf with ring := (findStartFlag flag n buf.ring).2 }
        else { buf with ring := (findStartFlag flag n buf.ring).2 }) r) :
    CallRuns channellist pc buf r := by
  induction n generalizing buf r with
  | zero => exact h
  | succ n ih =>
    have heq := hstep buf hflag
    unfold findStartFlag at h
    by_cases h0 : buf.ring.datacount = 0
    · simp only [if_pos h0] at h
      exact h
    · by_cases hpeek : buf.ring.peek = flag
      · simp only [if_neg h0, if_pos hpeek] at heq h
        exact CallRuns.goto heq h
      · simp only [if_neg h0, if_neg hpeek] at heq h
        exact CallRuns.goto heq (ih hflag h)

/-- The skip loop of a call, while the test in front of it holds. -/
theorem skip_runs (test : Gsm0710Buffer → Prop) [DecidablePred test]
    (htest : ∀ buf, test buf → test { buf with ring := buf.ring.inc })
    (hstep : ∀ buf : Gsm0710Buffer, callStep channellist buf pc =
      if test buf ∧ buf.ring.datacount ≠ 0 ∧ buf.ring.peek = flag
        then .goto pc { buf with ring := buf.ring.inc }
      else .goto pc' buf) (n : Nat) {buf : Gsm0710Buffer} {r : GetFrame × Gsm0710Buffer}
    (ht : test buf) (hn : buf.ring.datacount ≤ n)
    (h : CallRuns channellist pc' { buf with ring := skipFlags flag n buf.ring } r) :
    CallRuns channellist pc buf r := by
  have hstop : ¬ (buf.ring.datacount ≠ 0 ∧ buf.ring.peek = flag) →
      callStep channellist buf pc = .goto pc' buf := fun hno =>
    (hstep buf).trans (if_neg fun hc => hno hc.2)
  induction n generalizing buf r with
  | zero => exact CallRuns.goto (hstop fun hc => hc.1 (Nat.le_zero.mp hn)) h
  | succ n ih =>
    unfold skipFlags at h
    by_cases h0 : buf.ring.datacount = 0
    · simp only [if_pos h0] at h
      exact CallRuns.goto (hstop fun hc => hc.1 h0) h
    · by_cases hpeek : buf.ring.peek = flag
      · simp only [if_neg h0, if_pos hpeek] at h
        have hgo := (hstep buf).trans (if_pos ⟨ht, h0, hpeek⟩)
        refine CallRuns.goto hgo (ih (htest buf ht) ?_ h ?_)
        · simp only [Ring.inc_datacount]
          omega
        · exact fun hno => (hstep _).trans (if_neg fun hc => hno hc.2)
      · simp only [if_neg h0, if_neg hpeek] at h
        exact CallRuns.goto (hstop fun hc => hpeek hc.2) h

end Loops

/-! ## Basic mode -/

/-- Where the analysis had got to, if it came to an end. -/
def Verdict.rest {ρ : Type} : Verdict ρ → Option ρ
  | .drop rest => some rest
  | .accept _ rest => some rest
  | _ => none

variable {channellist : List Channel}

theorem baseBody_rest {channel control fcs : UInt8} {length : Nat}
    {r rest : Ring UInt8 gsm0710BufferSize}
    (h : (baseBody channellist channel control fcs length r).rest = some rest) :
    ∃ n, n ≤ r.datacount ∧ rest = r.skip n := by
  unfold baseBody at h
  split at h
  · exact absurd h (by simp [Verdict.rest])
  · split at h
    · refine ⟨0, Nat.zero_le _, ?_⟩
      rw [Ring.skip_zero]
      exact (Option.some.inj h).symm
    · split at h
      · exact absurd h (by simp [Verdict.rest])
      · next hlen =>
        have hs : r.inc.skip length = r.skip (1 + length) := by
          rw [Ring.inc_eq_skip (by omega), Ring.skip_skip (by omega)]
        have hs₁ : (r.inc.skip length).inc = r.skip (1 + length + 1) := by
          rw [hs, Ring.inc_skip (by omega)]
        have hs₂ : (r.inc.skip length).inc.inc = r.skip (1 + length + 1 + 1) := by
          rw [hs₁, Ring.inc_skip (by omega)]
        -- both ways to drop stop on the octet behind the check sequence
        simp only at h
        split at h
        · exact ⟨_, by omega, (Option.some.inj h).symm.trans hs₁⟩
        · split at h
          · exact ⟨_, by omega, (Option.some.inj h).symm.trans hs₁⟩
          · exact ⟨_, by omega, (Option.some.inj h).symm.trans hs₂⟩

/-- The local copies are ahead of the buffer by the bytes gone through. -/
theorem baseAnalyze_rest {r rest : Ring UInt8 gsm0710BufferSize}
    (h : (baseAnalyze channellist r).rest = some rest) :
    rest = r.skip (r.datacount - rest.datacount) := by
  have hn : ∃ n, n ≤ r.datacount ∧ rest = r.skip n := by
    unfold baseAnalyze at h
    split at h
    · exact absurd h (by simp [Verdict.rest])
    · next hlen =>
      have hs : r.inc.inc = r.skip 2 := by
        rw [show r.inc = r.skip 1 from Ring.inc_eq_skip (by omega), Ring.inc_skip (by omega)]
      have hs₁ : r.inc.inc.inc = r.skip 3 := by rw [hs, Ring.inc_skip (by omega)]
      simp only at h
      split at h
      · obtain ⟨n, hn, rfl⟩ := baseBody_rest h
        rw [hs₁, Ring.skip_datacount (by omega)] at hn
        exact ⟨3 + n, by omega, by rw [hs₁, Ring.skip_skip (by omega)]⟩
      · obtain ⟨n, hn, rfl⟩ := baseBody_rest h
        rw [hs, Ring.skip_datacount (by omega)] at hn
        exact ⟨2 + n, by omega, by rw [hs, Ring.skip_skip (by omega)]⟩
  obtain ⟨n, hn, rfl⟩ := hn
  rw [Ring.skip_datacount hn]
  congr 1
  omega

/-- From the skip on, given what the recursive call does. -/
theorem baseSkip_runs {channellist : List Channel} {levels : Nat} {buf : Gsm0710Buffer}
    (hopen : buf.flagFound = true)
    (hagain : ∀ buf, CallRuns channellist (.base (.search levels)) buf
      (getFrameAt channellist levels buf)) :
    CallRuns channellist (.base (.skip levels)) buf (getFrameAt channellist (levels + 1) buf) := by
  have hstep : ∀ buf : Gsm0710Buffer, callStep channellist buf (.base (.skip levels)) =
      if True ∧ buf.ring.datacount ≠ 0 ∧ buf.ring.peek = gsm0710FrameFlag
        then .goto (.base (.skip levels)) { buf with ring := buf.ring.inc }
      else .goto (.base (.analyze levels)) buf := by
    intro buf
    simp only [callStep, baseCallStep, true_and]
  refine skip_runs gsm0710FrameFlag (fun _ => True) (fun _ _ => trivial) hstep _ trivial
    (Nat.le_refl _) ?_
  unfold getFrameAt
  simp only [hopen, if_true, Bool.true_eq_false, if_false]
  generalize skipFlags gsm0710FrameFlag buf.ring.datacount buf.ring = r
  cases hv : baseAnalyze channellist r with
  | short | incomplete => exact CallRuns.null (by simp [callStep, baseCallStep, hv])
  | outOfTable => exact CallRuns.outOfTable (by simp [callStep, baseCallStep, hv])
  | drop rest =>
    have hrest : rest = r.skip (r.datacount - rest.datacount) :=
      baseAnalyze_rest (by rw [hv]; rfl)
    refine CallRuns.goto (by simp only [callStep, baseCallStep, hv]; rfl) ?_
    refine CallRuns.goto rfl ?_
    simp only [← hrest]
    exact hagain _
  | accept f rest =>
    have hrest : rest = r.skip (r.datacount - rest.datacount) :=
      baseAnalyze_rest (by rw [hv]; rfl)
    refine CallRuns.goto (by simp only [callStep, baseCallStep, hv]; rfl) ?_
    refine CallRuns.frame ?_
    simp only [callStep, baseCallStep, ← hrest]

theorem getFrameAt_runs (channellist : List Channel) (levels : Nat) (buf : Gsm0710Buffer) :
    CallRuns channellist (.base (.search levels)) buf (getFrameAt channellist levels buf) := by
  induction levels generalizing buf with
  | zero => exact CallRuns.assert rfl
  | succ levels ih =>
    cases hflag : buf.flagFound with
    | true =>
      refine CallRuns.goto (by simp [callStep, baseCallStep, hflag]; exact ⟨rfl, rfl⟩) ?_
      exact baseSkip_runs hflag ih
    | false =>
      have hstep : ∀ buf : Gsm0710Buffer, buf.flagFound = false →
          callStep channellist buf (.base (.search (levels + 1))) =
            if buf.ring.datacount = 0 then .nullSignal
            else if buf.ring.peek = gsm0710FrameFlag then
              .goto (.base (.search (levels + 1)))
                { buf with ring := buf.ring.inc, flagFound := true }
            else .goto (.base (.search (levels + 1))) { buf with ring := buf.ring.inc } := by
        intro buf h
        simp only [callStep, baseCallStep, h, Bool.false_eq_true, if_false]
      have hopened := fun ring => @baseSkip_runs channellist levels
        { buf with ring := ring, flagFound := true } rfl ih
      refine search_runs gsm0710FrameFlag (fun buf => { buf with flagFound := true }) hstep
        buf.ring.datacount hflag ?_
      obtain ⟨pre, -, hcase⟩ :=
        findStartFlag_contents gsm0710FrameFlag buf.ring.datacount buf.ring (Nat.le_refl _)
      simp only [getFrameAt, hflag, Bool.false_eq_true, if_false, if_true] at hopened ⊢
      generalize findStartFlag gsm0710FrameFlag buf.ring.datacount buf.ring = found at hcase ⊢
      obtain ⟨ok, ring⟩ := found
      rcases hcase with ⟨hok, -⟩ | ⟨hok, -, hnil⟩
      · obtain rfl : ok = true := hok
        exact CallRuns.goto (by simp only [callStep, baseCallStep, if_true]) (hopened ring)
      · obtain rfl : ok = false := hok
        have h0 : ring.datacount = 0 := Ring.contents_eq_nil.mp hnil
        exact CallRuns.nullSignal ((hstep { buf with ring := ring, flagFound := false } rfl).trans
          (if_pos h0))

/-- The turns of a basic-mode call are `gsm0710_base_buffer_get_frame`. -/
theorem baseCall_runs (channellist : List Channel) (buf : Gsm0710Buffer) (depth : Nat) :
    CallRuns channellist (.base (.search (maxResyncGetFrameCount - depth))) buf
      (gsm0710BaseBufferGetFrame channellist buf depth) :=
  getFrameAt_runs channellist _ buf

/-! ## Advanced mode -/

theorem advSkip_call_runs {buf : Gsm0710Buffer} {r : GetFrame × Gsm0710Buffer}
    (hopen : buf.flagFound = true) (h : CallRuns channellist (.adv .main) (advSkip buf) r) :
    CallRuns channellist (.adv .skip) buf r := by
  by_cases hdata : buf.advData = []
  · have hskip : advSkip buf = { buf with
        ring := skipFlags gsm0710FrameAdvFlag buf.ring.datacount buf.ring } := by
      simp [advSkip, hopen, hdata]
    rw [hskip] at h
    exact skip_runs gsm0710FrameAdvFlag (fun buf => buf.advData = []) (fun _ h => h)
      (fun _ => rfl) _ hdata (Nat.le_refl _) h
  · have hskip : advSkip buf = buf := by simp [advSkip, hdata]
    rw [hskip] at h
    exact CallRuns.goto (if_neg fun hc => hdata hc.1) h

/-- From `l_begin` on, given what the byte loop does. -/
theorem advResume_runs {loop : Gsm0710Buffer → GetFrame × Gsm0710Buffer} {buf : Gsm0710Buffer}
    (hloop : CallRuns channellist (.adv .main) (advBegin buf) (loop (advBegin buf))) :
    CallRuns channellist (.adv .search) buf (advResume loop buf) := by
  -- a call that finds, or already has, a start flag
  have hon : (advSearch buf).flagFound = true →
      CallRuns channellist (.adv .search) (advSearch buf) (advResume loop buf) := by
    intro hopen
    have hbegin : (advBegin buf).flagFound = true :=
      (@advSkip_runs (advSearch buf) true (.inl rfl)).2.2.1.trans hopen
    refine CallRuns.goto (by simp only [callStep, advCallStep, hopen, if_true]; exact rfl) ?_
    refine advSkip_call_runs hopen ?_
    unfold advResume
    rw [if_pos hbegin]
    exact hloop
  cases hflag : buf.flagFound with
  | true =>
    rw [show advSearch buf = buf from if_pos hflag] at hon
    exact hon hflag
  | false =>
    have hstep : ∀ buf : Gsm0710Buffer, buf.flagFound = false →
        callStep channellist buf (.adv .search) =
          if buf.ring.datacount = 0 then .null
          else if buf.ring.peek = gsm0710FrameAdvFlag then
            .goto (.adv .search)
              { buf with
                ring := buf.ring.inc, flagFound := true, advData := [], advFoundEsc := false
                advData_le := Nat.zero_le _ }
          else .goto (.adv .search) { buf with ring := buf.ring.inc } := by
      intro buf h
      simp only [callStep, advCallStep, h, Bool.false_eq_true, if_false]
    refine search_runs gsm0710FrameAdvFlag (fun buf =>
      { buf with
        flagFound := true, advData := [], advFoundEsc := false
        advData_le := Nat.zero_le _ }) hstep buf.ring.datacount hflag ?_
    have hsearch : advSearch buf = _ := if_neg (by rw [hflag]; simp)
    rw [← hsearch]
    rcases (advSearch_runs true buf).2.2.2 with ⟨hopen, -⟩ | ⟨hopen, -⟩ | ⟨hshut, hnil⟩
    · rw [hflag] at hopen
      cases hopen
    · exact hon hopen
    · have hbegin : advBegin buf = advSearch buf := by simp [advBegin, advSkip, hshut]
      unfold advResume
      rw [hbegin, if_neg (by rw [hshut]; simp)]
      exact CallRuns.null ((hstep _ hshut).trans (if_pos (Ring.contents_eq_nil.mp hnil)))

theorem advMain_runs (channellist : List Channel) (n : Nat) (buf : Gsm0710Buffer)
    (hn : buf.ring.datacount ≤ n) : CallRuns channellist (.adv .main) buf (advMain n buf) := by
  induction n generalizing buf with
  | zero => exact CallRuns.null (if_pos (Nat.le_zero.mp hn))
  | succ n ih =>
    unfold advMain
    by_cases h0 : buf.ring.datacount = 0
    · rw [if_pos h0]
      exact CallRuns.null (if_pos h0)
    have hinc : buf.ring.inc.datacount ≤ n := by rw [Ring.inc_datacount]; omega
    -- back at `l_begin` there is at most what was left, and less if the search ate something
    have hresume : ∀ mid : Gsm0710Buffer, mid.flagFound = false → mid.ring.datacount ≤ n + 1 →
        (mid.ring.datacount ≠ 0 ∨ mid.ring.datacount ≤ n) →
        CallRuns channellist (.adv .search) mid (advResume (advMain n) mid) := by
      intro mid hshut hle hsome
      obtain ⟨-, hle₁, hlt₁, -⟩ := advSearch_runs true mid
      obtain ⟨-, hle₂, -⟩ := @advSkip_runs (advSearch mid) true (.inl rfl)
      refine advResume_runs (ih _ ?_)
      show gsm0710BufferLength (advSkip (advSearch mid)) ≤ n
      unfold gsm0710BufferLength at hle₁ hlt₁ hle₂ ⊢
      by_cases hz : mid.ring.datacount = 0
      · omega
      · have := hlt₁ hshut fun hnil => hz (Ring.contents_eq_nil.mp hnil)
        omega
    rw [if_neg h0]
    by_cases hflag : buf.advFoundEsc = false ∧ buf.ring.peek = gsm0710FrameAdvFlag
    · rw [if_pos hflag]
      cases hclose : closeFrame buf.advData with
      | tooShort | mismatch =>
        refine CallRuns.goto ?_ (hresume _ rfl (Nat.le_succ_of_le hinc) (.inr hinc))
        simp only [callStep, advCallStep, if_neg h0, if_pos hflag, hclose]
      | good f =>
        refine CallRuns.frame ?_
        simp only [callStep, advCallStep, if_neg h0, if_pos hflag, hclose]
    · rw [if_neg hflag]
      by_cases hroom : buf.advData.length < gsm0710BufferSize
      · rw [dif_pos hroom]
        have hstep : callStep channellist buf (.adv .main) = _ :=
          ((if_neg h0).trans (if_neg hflag)).trans (dif_pos hroom)
        split
        · next hesc => exact CallRuns.goto (hstep.trans (if_pos hesc)) (ih _ hinc)
        · next hesc =>
          rw [if_neg hesc] at hstep
          split
          · next hpeek => exact CallRuns.goto (hstep.trans (if_pos hpeek)) (ih _ hinc)
          · next hpeek => exact CallRuns.goto (hstep.trans (if_neg hpeek)) (ih _ hinc)
      · rw [dif_neg hroom]
        refine CallRuns.goto ?_ (hresume _ rfl hn (.inl h0))
        simp only [callStep, advCallStep, if_neg h0, if_neg hflag, dif_neg hroom]

/-- The turns of an advanced-mode call are `gsm0710_advanced_buffer_get_frame`. -/
theorem advCall_runs (channellist : List Channel) (buf : Gsm0710Buffer) :
    CallRuns channellist (.adv .search) buf (gsm0710AdvancedBufferGetFrame buf) := by
  refine advResume_runs (advMain_runs channellist _ _ ?_)
  obtain ⟨-, hle₂, -⟩ := @advSkip_runs (advSearch buf) true (.inl rfl)
  exact Nat.le_trans hle₂ (advSearch_runs true buf).2.1

end Arale.Mux
