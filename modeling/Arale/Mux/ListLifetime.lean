import Arale.Mux.Delivery

/-!
# The life of the receive list

`_fc_closeContext` frees the list of a channel and leaves `rx_fl` as it is.
From then on the pointer is dangling, and only `logical_channel_init` resets it,
which is not called while the daemon runs. Three things follow `rx_fl`:
`extract_frames` when it caches a frame, a retry thread when it takes one, and
the next close.

What keeps them away after a close is the rest of the entry. The channel counts
as closed, so no frame closes it again; `rx_fc_off` is clear, so no frame is
appended; the descriptor is -1, so a write neither blocks nor gets through, and
a retry thread that still has a frame in hand never comes back for the next.

> `no_use_after_free`: as long as no retry thread is about to take a frame when
> the channel is closed, and nobody opens the channel again, nothing follows the
> pointer of a freed list.

Neither holds by itself: a peer that sends DISC, SABM and DISC has the list
freed twice (`freed_twice`).
-/

namespace Arale.Mux

open Arale.Lib (Run Nobody)

/-- A retry thread that takes a frame from the list next. -/
def RetryPc.popsNext : RetryPc → Bool
  | .start | .pop => true
  | _ => false

/-- The step pushes to the list, pops from it or destroys it. -/
def usesList (s : Line) : LineAct → Bool
  | .receiver =>
    match s.phase with
    | .control frame => closesChannel frame.frame s.channel
    | .check frame => s.channel.rxFcOff &&
        s.channel.rxFlTotal + frame.frame.data.length ≤ rxFlowCtrlHighWatermark
    | .cache _ _ => true
    | _ => false
  | .retry i => s.retry[i]?.any RetryPc.popsNext
  | _ => false

/-- The step follows the pointer of a list that was freed. -/
def usesFreed (s : Line) (act : LineAct) : Bool :=
  s.channel.rxFl == .freed && usesList s act

/-! ## Conditions -/

/-- `write` on the descriptor of a closed channel fails, with an error that
none of the callers expects. -/
def fdAnswers (s : Line) : LineAct → Bool
  | .write result | .retryWrite _ result => result == .other || decide (0 ≤ s.channel.fd)
  | _ => true

/-- The step opens the channel for the peer. -/
def opening (s : Line) (act : LineAct) : Bool :=
  match s.phase, act with
  | .control frame, .receiver => gsm0710FrameIs gsm0710TypeSabm frame.frame.control
  | _, _ => false

/-- What a PTY answers fits its descriptor. -/
def answersFd (s : Line) (act : LineAct) : Prop := fdAnswers s act = true

/-- The channel is closed while no retry thread is about to take a frame, and
a channel whose list was freed is not opened again. -/
def closedForGood (s : Line) (act : LineAct) : Prop :=
  answersFd s act ∧
    (closing s act = true → s.retry.any RetryPc.popsNext = false) ∧
    (s.channel.rxFl = .freed → opening s act = false)

instance (s : Line) (act : LineAct) : Decidable (answersFd s act) :=
  inferInstanceAs (Decidable (fdAnswers s act = true))

instance (s : Line) (act : LineAct) : Decidable (closedForGood s act) :=
  inferInstanceAs (Decidable (_ ∧ (_ → _) ∧ (_ → _)))

/-! ## A closed channel -/

/-- Where `extract_frames` can be with a frame of a closed channel. -/
def Phase.uncached : Phase → Prop
  | .write _ => True
  | phase => phase.resting

/-- What keeps everybody away from the list. -/
structure Abandoned (s : Line) : Prop where
  opened : s.channel.opened = false
  sabmUaPending : s.channel.sabmUaPending = false
  rxFcOff : s.channel.rxFcOff = false
  fd : s.channel.fd < 0
  retry : Nobody (fun pc => RetryPc.popsNext pc = true) s.retry
  phase : s.phase.uncached

theorem Abandoned.not_usesList {s : Line} (h : Abandoned s) (act : LineAct) :
    usesList s act = false := by
  cases act with
  | receiver =>
    have hphase := h.phase
    cases heq : s.phase with
    | control frame =>
      simp only [usesList, heq]
      refine Bool.eq_false_iff.mpr fun hcloses => ?_
      cases h.opened.symm.trans (opened_of_closesChannel hcloses)
    | check frame => simp only [usesList, heq, h.rxFcOff, Bool.false_and]
    | cache frame written => exact (heq ▸ hphase).elim
    | _ => simp only [usesList, heq]
  | retry i =>
    cases hi : s.retry[i]? with
    | none => simp only [usesList, hi, Option.any_none]
    | some pc =>
      simp only [usesList, hi, Option.any_some]
      exact Bool.eq_false_iff.mpr (h.retry.not_at hi)
  | _ => rfl

section Steps

variable {s s' : Line} {act : LineAct}

/-- A control frame that does not open the channel. -/
theorem Abandoned.control {frame : FramePtr} (h : Abandoned s)
    (hsabm : gsm0710FrameIs gsm0710TypeSabm frame.frame.control = false)
    (hstep : controlStep s frame = some s') : Abandoned s' := by
  have hkept : closesChannel frame.frame s.channel ≠ true := by
    intro hcloses
    cases h.opened.symm.trans (opened_of_closesChannel hcloses)
  unfold controlStep at hstep
  by_cases hinformation : isInformation frame.frame = true
  · rw [if_pos hinformation] at hstep
    cases hstep
    exact { h with phase := trivial }
  · rw [if_neg hinformation, if_neg hkept] at hstep
    cases hstep
    obtain ⟨disc, hchannel⟩ :=
      (controlChannel_handshake frame.frame s.channel).stays_closed h.opened h.sabmUaPending hsabm
    rw [hchannel]
    exact ⟨h.opened, h.sabmUaPending, h.rxFcOff, h.fd, h.retry, trivial⟩

/-- Nothing but an error comes from the PTY. -/
theorem Abandoned.not_answered {result : PtyWrite} (h : Abandoned s) (hresult : result ≠ .other) :
    fdAnswers s (.write result) = false ∧ ∀ i, fdAnswers s (.retryWrite i result) = false := by
  have hfd : decide (0 ≤ s.channel.fd) = false := by
    have hneg := h.fd
    exact decide_eq_false (by omega)
  have hne : (result == .other) = false := beq_eq_false_iff_ne.mpr hresult
  constructor
  · show (result == .other || decide (0 ≤ s.channel.fd)) = false
    rw [hne, hfd]
    rfl
  · intro i
    show (result == .other || decide (0 ≤ s.channel.fd)) = false
    rw [hne, hfd]
    rfl

/-- An abandoned list stays so. -/
theorem Abandoned.step (h : Abandoned s) (hfreed : s.channel.rxFl = .freed)
    (hcond : closedForGood s act) (hstep : lineStep s act = some s') : Abandoned s' := by
  obtain ⟨hanswers, -, hopening⟩ := hcond
  have hphase := h.phase
  have hmove : ∀ {i : Nat} {pc : RetryPc}, ¬ RetryPc.popsNext pc = true →
      Nobody (fun pc => RetryPc.popsNext pc = true) (s.retry.set i pc) := fun hpc => h.retry.set hpc
  -- a write that gets through has a descriptor
  have hwrite : ∀ {result : PtyWrite}, result ≠ .other → fdAnswers s (.write result) ≠ true :=
    fun hne => Bool.eq_false_iff.mp (h.not_answered hne).1
  have hretryWrite : ∀ {i : Nat} {result : PtyWrite}, result ≠ .other →
      fdAnswers s (.retryWrite i result) ≠ true :=
    fun hne => Bool.eq_false_iff.mp ((h.not_answered hne).2 _)
  by_cases hcontrol : ∃ frame, s.phase = .control frame ∧ act = .receiver
  · obtain ⟨frame, hcontrol, rfl⟩ := hcontrol
    have hsabm := hopening hfreed
    simp only [opening, hcontrol] at hsabm
    have hstep' : receiverStep s = some s' := hstep
    simp only [receiverStep, hcontrol] at hstep'
    exact h.control hsabm hstep'
  cases lineStep_inv hstep with
  | receiveData | receiveControl | pass | finish => exact { h with phase := trivial }
  | command hat | handshake _ _ _ hat | close hat => exact absurd ⟨_, hat, rfl⟩ hcontrol
  | enqueue _ hoff | refuse _ hoff => cases h.rxFcOff.symm.trans hoff
  | writeAll | writePart | discardVt | writeNothing => exact absurd hanswers (hwrite (by simp))
  | writeAgain => exact h
  | cacheRemaining hat | sendOff hat | offFails hat | wait hat | create hat | createFails hat
  | wakeup hat | retrySignal _ hat =>
    exact (hat ▸ hphase).elim
  | block hat => rcases hat with hat | hat <;> exact (hat ▸ hphase).elim
  | retryStart hi | retryPop hi | retryEmpty hi => exact absurd rfl (h.retry.not_at hi)
  | retrySendOn | onFails | retryEnd => exact { h with retry := hmove (by simp [RetryPc.popsNext]) }
  | retryClear =>
    exact ⟨h.opened, h.sabmUaPending, h.rxFcOff, h.fd, hmove (by simp [RetryPc.popsNext]), h.phase⟩
  | retryWrite | retryWritten => exact absurd hanswers (hretryWrite (by simp))
  | retryAgain => exact h

/-- A close with nobody about to take a frame. -/
theorem Abandoned.of_close {frame : FramePtr} {destroyed : List Nat}
    (hretry : s.retry.any RetryPc.popsNext = false) :
    Abandoned { s with
      channel := logicalChannelClose s.channel, phase := .finish frame
      destroyed := destroyed } where
  opened := rfl
  sabmUaPending := rfl
  rxFcOff := rfl
  fd := by
    show (if s.channel.fd ≥ 0 then -1 else s.channel.fd) < 0
    split <;> omega
  retry := by
    intro pc hpc hpops
    have hany : s.retry.any RetryPc.popsNext = true := List.any_eq_true.mpr ⟨pc, hpc, hpops⟩
    cases hretry.symm.trans hany
  phase := trivial

/-- A freed list is abandoned. -/
def FreedAbandoned (s : Line) : Prop := s.channel.rxFl = .freed → Abandoned s

/-- Only a close frees the list. -/
theorem freedAbandoned_step (h : FreedAbandoned s) (hcond : closedForGood s act)
    (hstep : lineStep s act = some s') : FreedAbandoned s' := by
  by_cases hfreed : s.channel.rxFl = .freed
  · exact fun _ => (h hfreed).step hfreed hcond hstep
  intro hfreed'
  cases lineStep_inv hstep with
  | close hcontrol hcloses _ =>
    exact .of_close (hcond.2.1 ((closing_control hcontrol).trans hcloses))
  | enqueue | cacheRemaining | retryStart | retryPop => cases hfreed'
  | _ => exact absurd hfreed' hfreed

end Steps

/-! ## All runs -/

/-- **No use after free.** As long as a channel is closed only while no retry
thread is about to take a frame, and is not opened again after its list was
freed, no thread pushes to a freed list, pops from it or destroys it. -/
theorem no_use_after_free {b : Build} {channels : Nat → Channel} {c : Nat} {acts : List FlowAct}
    {t : Flow} (hrun : Run (flowStep b) (onChannel c closedForGood) (Flow.start channels) acts t)
    (act : LineAct) : usesFreed (t.line c) act = false := by
  obtain ⟨lineActs, hline⟩ := line_run c hrun
  have hinv : FreedAbandoned (t.line c) := by
    refine hline.invariant ?_ ?_
    · intro s act s' h hcond hstep
      exact freedAbandoned_step h hcond.1 hstep
    · intro hfreed
      cases hfreed
  by_cases hfreed : (t.line c).channel.rxFl = .freed
  · rw [usesFreed, (hinv hfreed).not_usesList, Bool.and_false]
  · rw [usesFreed, beq_eq_false_iff_ne.mpr hfreed, Bool.false_and]

/-- A frame is cached and written, then the channel is closed and another
frame comes. -/
def closedOnce : List FlowAct :=
  [.getFrame (uihFrame 1 [1, 2]), .on 1 .receiver, .on 1 (.write .eagain), .on 1 .receiver,
    .on 1 .receiver, .on 1 .receiver, .on 1 .receiver, .on 1 (.retry 0),
    .on 1 (.retryWrite 0 (.wrote 2)), .on 1 (.retry 0), .on 1 (.retry 0), .on 1 (.retry 0),
    .on 1 (.retry 0), .getFrame ⟨1, gsm0710TypeDisc, []⟩, .on 1 .receiver, .on 1 .receiver]

theorem no_use_after_free_once :
    ∃ t, Run (flowStep .plain) (onChannel 1 closedForGood) (Flow.start openChannels)
        (closedOnce ++ [.getFrame (uihFrame 1 [3]), .on 1 .receiver, .on 1 (.write .other)]) t ∧
      (t.line 1).channel.rxFl = .freed ∧ ∀ act, usesFreed (t.line 1) act = false := by
  exact Run.exists_of_exec (by decide +kernel) fun t hrun hfreed =>
    ⟨hfreed, no_use_after_free hrun⟩

/-- After the close the peer sends SABM and DISC: the channel counts as open
again, so it is closed again, and the list is freed a second time. -/
theorem freed_twice :
    ¬ ∀ (b : Build) (channels : Nat → Channel) (c : Nat) (acts : List FlowAct) (t : Flow),
      Run (flowStep b) (onChannel c answersFd) (Flow.start channels) acts t →
        ∀ act, usesFreed (t.line c) act = false := by
  intro h
  obtain ⟨t, hrun, ht⟩ := Run.of_exec_any (flowStep .plain) (onChannel 1 answersFd)
    (Flow.start openChannels)
    (closedOnce ++ [.getFrame ⟨1, gsm0710TypeSabm, []⟩, .on 1 .receiver, .on 1 .receiver,
      .getFrame ⟨1, gsm0710TypeDisc, []⟩])
    (fun t => usesFreed (t.line 1) .receiver) (by decide +kernel)
  cases (h _ _ _ _ t hrun .receiver).symm.trans ht

end Arale.Mux
