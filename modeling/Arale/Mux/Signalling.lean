import Arale.Mux.Delivery

/-!
# What the modem is told

When the PTY of a channel blocks, `start_retry_write_thread` sends an MSC
command with the FC bit set; the retry thread, once the list is empty, sends
one with the bit clear. The commands are sent outside `rx_fc_lock`. A retry
thread clears `rx_fc_off` first and sends its command later, and in between
the receiving thread may find the PTY blocked again and send its own command
first. It then waits for the old thread to end, but by that time the old
thread has sent its command too: `rx_fc_off` is set and the modem believes it
may send.

> `told_to_stop`: if the commands of the receiving thread get to the modem, and
> no retry thread is about to send one then, with `rx_fc_off` set the last
> command has the FC bit set.
> `told_to_send`: otherwise not.
-/

namespace Arale.Mux

open Arale.Lib (Run anyStep Nobody)

/-- The FC bit of an MSC command. -/
def fcBit (cmd : List UInt8) : Bool := cmd.getD 3 0 &&& 0x02 != 0

/-- The last MSC command told the modem to stop. -/
def ToldToStop (s : Line) : Prop := ∃ cmd, s.msc.getLast? = some cmd ∧ fcBit cmd = true

theorem fcBit_mscCmd (id : Nat) (fcOff : Bool) : fcBit (mscCmd id fcOff) = fcOff := by
  cases fcOff with
  | false =>
    show ((0x8D : UInt8) &&& 0x02 != 0) = false
    decide
  | true =>
    show ((0x8D : UInt8) ||| 0x02) &&& 0x02 != 0
    decide

/-- A retry thread has cleared `rx_fc_off` and not told the modem yet, and
the receiving thread sends its command. -/
def overtakes (s : Line) (act : LineAct) : Bool :=
  match s.phase, act with
  | .sendOff, .receiver => s.retry.contains .sendOn
  | _, _ => false

/-- The command of the receiving thread gets to the modem, and not ahead of
that of a retry thread. -/
def inTurn (s : Line) (act : LineAct) : Prop := overtakes s act = false ∧ act ≠ .offFails

instance (s : Line) (act : LineAct) : Decidable (inTurn s act) :=
  inferInstanceAs (Decidable (_ ∧ _))

theorem inTurn_sendOff {s : Line} (hphase : s.phase = .sendOff) (h : inTurn s .receiver) :
    Nobody (· = RetryPc.sendOn) s.retry := by
  have hcontains : s.retry.contains .sendOn = false := by
    simpa only [overtakes, hphase] using h.1
  rintro pc hmem rfl
  rw [List.contains_iff_mem.mpr hmem] at hcontains
  cases hcontains

/-- The command is sent and `rx_fc_off` is about to be set. -/
def Phase.stopping : Phase → Prop
  | .lock | .waiting _ | .create => True
  | _ => False

/-- From the MSC command on until `rx_fc_off` is cleared. -/
def Line.stopped (s : Line) : Prop := s.channel.rxFcOff = true ∨ s.phase.stopping

/-- While the modem is to be stopped it was told so, and nobody is about to
tell it otherwise. -/
def Told (s : Line) : Prop := s.stopped → ToldToStop s ∧ Nobody (· = RetryPc.sendOn) s.retry

/-- A channel closed while it had a list. The list is freed, so nothing can
be cached again. -/
structure Shut (s : Line) : Prop where
  rxFl : s.channel.rxFl = .freed
  rxFcOff : s.channel.rxFcOff = false
  phase : s.phase.direct

/-! ## One step -/

section Steps

variable {s s' : Line} {act : LineAct} {rest : List UInt8}

/-- A step that sends nothing and does not bring the line to a stop. -/
theorem Told.same (h : Told s) (hstopped : s'.stopped → s.stopped) (hmsc : s'.msc = s.msc)
    (hretry : Nobody (· = RetryPc.sendOn) s.retry → Nobody (· = RetryPc.sendOn) s'.retry) :
    Told s' := by
  intro hstopped'
  obtain ⟨⟨cmd, hlast, hbit⟩, hnobody⟩ := h (hstopped hstopped')
  exact ⟨⟨cmd, by rw [hmsc]; exact hlast, hbit⟩, hretry hnobody⟩

/-- A step of the receiving thread outside `start_retry_write_thread`. -/
theorem Told.pass (h : Told s) (hoff : s'.channel.rxFcOff = s.channel.rxFcOff)
    (hphase : ¬ s'.phase.stopping) (hmsc : s'.msc = s.msc) (hretry : s'.retry = s.retry) :
    Told s' := by
  refine h.same ?_ hmsc (fun hn => by rw [hretry]; exact hn)
  intro hstopped
  rcases hstopped with hon | hstopping
  · exact .inl (hoff.symm.trans hon)
  · exact absurd hstopping hphase

/-- A step of a retry thread that does not lead to its command. -/
theorem Told.move {channel : Channel} {pty : List UInt8} {i : Nat} {pc : RetryPc} (h : Told s)
    (hoff : channel.rxFcOff = s.channel.rxFcOff) (hpc : pc ≠ .sendOn) :
    Told { s with channel := channel, pty := pty, retry := s.retry.set i pc } := by
  refine h.same ?_ rfl (fun hn => hn.set hpc)
  intro hstopped
  rcases hstopped with hon | hstopping
  · exact .inl (hoff.symm.trans hon)
  · exact .inr hstopping

/-- **One step** that does not close the channel. The receiving thread sends
its command with no other one under way; the only step towards a command of a
retry thread clears `rx_fc_off`, and no other retry thread drains then. -/
theorem Told.step (h : Told s) (hmode : s.mode rest) (hturn : inTurn s act)
    (hopen : keepsOpen s act) (hstep : LineStep s act s') : Told s' := by
  cases hstep with
  | receiveData | receiveControl | command | handshake | enqueue | refuse | pass | writeAll
  | writePart | discardVt | writeNothing | cacheRemaining | finish =>
    exact h.pass rfl (fun h => h) rfl rfl
  | close hcontrol hcloses _ =>
    rw [keepsOpen, closing_control hcontrol, hcloses] at hopen
    cases hopen
  | writeAgain => exact h
  | sendOff hphase =>
    have hnobody := inTurn_sendOff hphase hturn
    intro _
    exact ⟨⟨mscCmd s.channel.id true, by simp, fcBit_mscCmd _ _⟩, hnobody⟩
  | offFails => exact absurd rfl hturn.2
  | wait hphase | createFails hphase | wakeup hphase =>
    exact h.same (fun _ => .inr (by rw [hphase]; trivial)) rfl (fun hn => hn)
  | block hphase =>
    refine h.same (fun _ => .inr ?_) rfl (fun hn => hn)
    rcases hphase with hphase | hphase <;> rw [hphase] <;> trivial
  | create hphase =>
    refine h.same (fun _ => .inr (by rw [hphase]; trivial)) rfl ?_
    intro hn pc hmem
    rcases List.mem_append.mp hmem with hold | hnew
    · exact hn pc hold
    · cases List.mem_singleton.mp hnew
      intro heq
      cases heq
  | retryStart | retryPop | onFails | retryClear | retryEnd | retryWrite | retryWritten =>
    exact h.move rfl (by simp)
  | retryEmpty hi _ =>
    obtain ⟨-, hresting, -⟩ := hmode.draining_inv hi trivial
    intro hstopped
    rcases hstopped with hon | hstopping
    · cases hon
    · cases hphase : s.phase <;> rw [hphase] at hresting hstopping <;>
        first | exact hresting.elim | exact hstopping.elim
  | retrySendOn hi =>
    intro hstopped
    exact absurd rfl ((h hstopped).2.not_at hi)
  | retrySignal hi hphase =>
    exact h.same (fun _ => .inr (by rw [hphase]; trivial)) rfl (fun hn => hn.set (by simp))
  | retryAgain => exact h

/-- Once the list is freed the line does not block any more. -/
theorem Shut.step (h : Shut s) (hstep : LineStep s act s') : Shut s' := by
  obtain ⟨hlist, hoff, hphase⟩ := h
  have hempty : ¬ (s.channel.rxFl = .null ∨ s.channel.rxFl = .list []) := by simp [hlist]
  have hfull : ∀ {frames : List FramePtr}, s.channel.rxFl ≠ .list frames := by simp [hlist]
  cases hstep with
  | receiveData | receiveControl | command | handshake | pass | writeAll | writePart | discardVt
  | writeNothing | finish =>
    exact ⟨hlist, hoff, trivial⟩
  | close _ _ hcached =>
    rw [hlist] at hcached
    cases hcached
  | enqueue _ hon _ | refuse _ hon => cases hoff.symm.trans hon
  | writeAgain | retrySendOn | onFails | retryClear | retryEnd | retryWrite | retryWritten
  | retryAgain =>
    exact ⟨hlist, hoff, hphase⟩
  | cacheRemaining _ h => exact absurd hlist h
  | sendOff h | offFails h | wait h | create h | createFails h | wakeup h | retrySignal _ h =>
    exact (h ▸ hphase).elim
  | block h => rcases h with h | h <;> exact (h ▸ hphase).elim
  | retryStart _ h | retryPop _ h => exact absurd h hfull
  | retryEmpty _ h => exact absurd h hempty

/-- The state of a line: told what it should be, or shut for good. -/
def Signalled (s : Line) : Prop := (∃ rest, s.mode rest ∧ Told s) ∨ Shut s

/-- A close leaves a channel without a list as it was at the start. -/
theorem signalled_close {frame : FramePtr} {destroyed : List Nat} (hmode : s.mode rest)
    {cached : List FramePtr} (hcached : flDestroy s.channel.rxFl = some cached) :
    Signalled
      { s with
        channel := logicalChannelClose s.channel, phase := .finish frame
        destroyed := destroyed } := by
  cases hlist : s.channel.rxFl with
  | null =>
    refine .inl ⟨[], .free rfl (hmode.null_inv hlist) (.inl (rxFl_close_null hlist)) trivial, ?_⟩
    rintro (hon | hstopping)
    · cases hon
    · exact hstopping.elim
  | list frames =>
    have hmade : s.channel.rxFl ≠ .null := by
      rw [hlist]
      simp
    exact .inr ⟨rxFl_close_freed hmade, rfl, trivial⟩
  | freed =>
    rw [hlist] at hcached
    cases hcached

/-- A step at a frame that closes the channel is the one that closes it. -/
theorem closing_step (hclosing : closing s act = true) (hstep : LineStep s act s') :
    ∃ frame cached, flDestroy s.channel.rxFl = some cached ∧
      s' = { s with
        channel := logicalChannelClose s.channel, phase := .finish frame
        destroyed := s.destroyed ++ cached.map (·.addr) } := by
  unfold closing at hclosing
  split at hclosing
  · next frame hcontrol =>
    cases hstep with
    | command hphase hinformation =>
      cases hcontrol.symm.trans hphase
      rw [closesChannel_information hinformation] at hclosing
      cases hclosing
    | handshake _ _ _ hphase hkept =>
      cases hcontrol.symm.trans hphase
      rw [hkept] at hclosing
      cases hclosing
    | close _ _ hcached => exact ⟨_, _, hcached, rfl⟩
    | block hphase => rcases hphase with hphase | hphase <;> cases hcontrol.symm.trans hphase
    | enqueue hphase | refuse hphase | pass hphase | cacheRemaining hphase | sendOff hphase
    | wait hphase | create hphase | finish hphase =>
      cases hcontrol.symm.trans hphase
  · cases hclosing

theorem Signalled.step (h : Signalled s) (hturn : inTurn s act) (hstep : LineStep s act s') :
    Signalled s' := by
  rcases h with ⟨rest, hmode, htold⟩ | hshut
  · by_cases hopen : keepsOpen s act
    · obtain ⟨rest', hmode', -⟩ := @mode_step 0 s s' act rest hmode hstep hopen
      exact .inl ⟨rest', hmode', htold.step hmode hturn hopen hstep⟩
    · obtain ⟨frame, cached, hcached, rfl⟩ := closing_step (by simpa [keepsOpen] using hopen) hstep
      exact signalled_close hmode hcached
  · exact .inr (hshut.step hstep)

end Steps

/-! ## Whole runs -/

theorem signalled_start (channel : Channel) : Signalled (Line.start channel) := by
  refine .inl ⟨[], mode_start channel, ?_⟩
  rintro (hon | hstopping)
  · cases hon
  · exact hstopping.elim

/-- **Signalling.** As long as the receiving thread gets its commands for a
channel to the modem, and only while no retry thread of the channel is about to
send one, with `rx_fc_off` set the modem was last told to stop. -/
theorem told_to_stop {b : Build} {channels : Nat → Channel} {c : Nat} {acts : List FlowAct}
    {t : Flow} (hrun : Run (flowStep b) (onChannel c inTurn) (Flow.start channels) acts t)
    (hoff : (t.line c).channel.rxFcOff = true) : ToldToStop (t.line c) := by
  obtain ⟨lineActs, hline⟩ := line_run c hrun
  have hsignalled : Signalled (t.line c) :=
    hline.invariant (fun _ _ _ h hcond hstep => h.step hcond.1 (lineStep_inv hstep))
      (signalled_start (channels c))
  rcases hsignalled with ⟨rest, -, htold⟩ | hshut
  · exact (htold (.inl hoff)).1
  · cases hshut.rxFcOff.symm.trans hoff

/-- A frame the PTY does not take, a retry thread that writes it and clears
`rx_fc_off`, and a second frame the PTY does not take. -/
def blockedTwice (between : List FlowAct) : List FlowAct :=
  [.getFrame (uihFrame 1 [1, 2, 3]), .on 1 .receiver, .on 1 (.write .eagain), .on 1 .receiver,
    .on 1 .receiver, .on 1 .receiver, .on 1 .receiver, .on 1 (.retry 0),
    .on 1 (.retryWrite 0 (.wrote 3)), .on 1 (.retry 0)] ++ between ++
  [.getFrame (uihFrame 1 [4]), .on 1 .receiver, .on 1 (.write .eagain), .on 1 .receiver,
    .on 1 .receiver, .on 1 .receiver, .on 1 (.retry 0), .on 1 (.retry 0)]

/-- The retry thread sends its command before the second frame comes. -/
theorem told_to_stop_again :
    ∃ acts t, Run (flowStep .plain) (onChannel 1 inTurn) (Flow.start openChannels) acts t ∧
      (t.line 1).channel.rxFcOff = true ∧ ToldToStop (t.line 1) ∧ (t.line 1).msc.length = 3 := by
  refine ⟨blockedTwice [.on 1 (.retry 0)] ++ [.on 1 .receiver], Run.exists_of_exec
    (A := fun t => (t.line 1).channel.rxFcOff = true ∧ (t.line 1).msc.length = 3)
    (by decide +kernel) ?_⟩
  rintro t hrun ⟨hoff, hlength⟩
  exact ⟨hoff, told_to_stop hrun hoff, hlength⟩

/-- The retry thread sends its command after the receiving thread has sent
its own for the second frame. -/
theorem told_to_send :
    ¬ ∀ (b : Build) (channels : Nat → Channel) (c : Nat) (acts : List FlowAct) (t : Flow),
      Run (flowStep b) anyStep (Flow.start channels) acts t →
        (t.line c).channel.rxFcOff = true → ToldToStop (t.line c) := by
  intro h
  obtain ⟨t, hrun, ht⟩ := Run.of_exec_any (flowStep .plain) anyStep
    (Flow.start openChannels)
    (blockedTwice [] ++ [.on 1 (.retry 0), .on 1 .receiver])
    (fun t => decide ((t.line 1).channel.rxFcOff = true ∧
      (t.line 1).msc.getLast? = some (mscCmd 1 false))) (by decide +kernel)
  obtain ⟨hoff, hlast⟩ := of_decide_eq_true ht
  obtain ⟨cmd, hcmd, hbit⟩ := h .plain _ 1 _ t hrun hoff
  cases hlast.symm.trans hcmd
  rw [fcBit_mscCmd] at hbit
  cases hbit

end Arale.Mux
