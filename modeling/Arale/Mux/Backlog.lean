import Arale.Mux.Delivery

/-!
# The backlog of a blocked channel

Two things about the list of frames that wait for a blocked PTY.

The flow control asserts that the list is empty when the rest of a frame is
cached, and that a retry thread finds a frame when it starts. Both follow from
the modes of `Delivery`: the rest of a frame is cached only on a free line, and a
thread is started only behind a list with a frame in it. An old thread that is
about to end, or a signal that comes late, does not touch the list.

> `no_flow_assert`: neither assertion is reached as long as the channel is not
> closed.

`_fc_cacheFrameData` refuses a frame when `rx_fl_total` and its length go beyond
the high watermark. `rx_fl_total` is set when the PTY blocks and grows with every
frame that is queued, but nothing lowers it when the retry thread writes. A
`Meter` counts beside the line what the retry threads have written since it was
set.

> `rxFlTotal_eq`: `rx_fl_total` is the backlog and what was written since.

So a frame is refused for a reason as long as nothing was written
(`refused_over_watermark`), and without one after that: `refused_early`.
-/

namespace Arale.Mux

open List
open Arale.Lib (Run Nobody Only anyStep)

/-! ## Assertions -/

/-- The two assertions of the flow control. -/
inductive FlowAssert where
  /-- `GSM0710MUXD_FRAMELIST_INIT_ERR`, in `_fc_cacheRemainingFrameData` -/
  | framelistInitErr
  /-- `GSM0710MUXD_RXTHREAD_ERR`, in `retry_write_pty_thread` -/
  | rxthreadErr
  deriving DecidableEq, Repr

/-- The assertion that a step executes. -/
def flowAssert (s : Line) : LineAct → Option FlowAssert
  | .receiver =>
    match s.phase with
    | .cache _ _ => if flIsEmpty s.channel.rxFl = some true then none else some .framelistInitErr
    | _ => none
  | .retry i =>
    match s.retry[i]? with
    | some .start =>
      match flPopFrame s.channel.rxFl with
      | some (some _, _) => none
      | _ => some .rxthreadErr
    | _ => none
  | _ => none

/-- In every mode the list is as the two assertions want it. -/
theorem flowAssert_of_mode {s : Line} {rest : List UInt8} (hmode : s.mode rest) (act : LineAct) :
    flowAssert s act = none := by
  cases act with
  | receiver =>
    cases hphase : s.phase with
    | cache frame written =>
      obtain ⟨-, -, hempty, -⟩ := hmode.direct_inv (by rw [hphase]; trivial)
        (by rw [hphase]; exact id)
      have htrue : flIsEmpty s.channel.rxFl = some true := by
        rcases hempty with hlist | hlist <;> rw [hlist] <;> rfl
      simp only [flowAssert, hphase, htrue, if_true]
    | _ => simp only [flowAssert, hphase]
  | retry i =>
    cases hi : s.retry[i]? with
    | none => simp only [flowAssert, hi]
    | some pc =>
      cases pc with
      | start =>
        obtain ⟨-, -, -, hleft⟩ := hmode.draining_inv hi trivial
        cases hleft with
        | start hlist => simp only [flowAssert, hi, hlist, flPopFrame]
      | _ => simp only [flowAssert, hi]
  | _ => rfl

/-- **The assertions are not reached.** In every interleaving of `extract_frames`
with the retry threads of a channel that is not closed, whatever the PTYs answer,
also when a wait ends early or a thread cannot be created. -/
theorem no_flow_assert {b : Build} {channels : Nat → Channel} {c : Nat} {acts : List FlowAct}
    {t : Flow} (hrun : Run (flowStep b) (onChannel c keepsOpen) (Flow.start channels) acts t)
    (act : LineAct) : flowAssert (t.line c) act = none := by
  obtain ⟨lineActs, hline⟩ := line_run c hrun
  obtain ⟨rest, hmode, -⟩ := inOrder_run (inOrder_start c (channels c)) hline
  exact flowAssert_of_mode hmode act

/-- A second retry thread is started by the signal of the first one. -/
theorem no_flow_assert_second :
    ∃ acts t, Run (flowStep .plain) (onChannel 1 keepsOpen) (Flow.start openChannels) acts t ∧
      (t.line 1).retry = [.done, .start] ∧ flowAssert (t.line 1) (.retry 1) = none := by
  refine ⟨[.getFrame (uihFrame 1 [1, 2, 3]), .on 1 .receiver, .on 1 (.write (.wrote 1)),
    .on 1 .receiver, .on 1 .receiver, .on 1 .receiver, .on 1 .receiver,
    .on 1 (.retry 0), .on 1 (.retryWrite 0 (.wrote 2)), .on 1 (.retry 0), .on 1 (.retry 0),
    .getFrame (uihFrame 1 [4]), .on 1 .receiver, .on 1 (.write .eagain),
    .on 1 .receiver, .on 1 .receiver, .on 1 .receiver,
    .on 1 (.retry 0), .on 1 (.retry 0), .on 1 .receiver, .on 1 .receiver], ?_⟩
  exact Run.exists_of_exec (by decide +kernel) fun t hrun hretry =>
    ⟨hretry, no_flow_assert hrun (.retry 1)⟩

/-! ## What waits to be written -/

/-- What a retry thread has taken from the list and not written. -/
def RetryPc.unwritten : RetryPc → List UInt8
  | .write frame written => frame.frame.data.drop written
  | _ => []

/-- The octets of the channel that are queued and not yet written to the PTY:
those in the list, without what was written of its first frame before it was
cached, and those a retry thread has in hand. -/
def Line.backlog (s : Line) : Nat :=
  ((payloads s.channel.rxFl.frames).drop s.channel.rxFlWritten).length
    + (s.retry.flatMap RetryPc.unwritten).length

/-- A line, and what the retry threads have written to the PTY since
`rx_fl_total` was set. -/
structure Meter where
  line : Line
  drained : Nat

def Phase.caching : Phase → Bool
  | .cache _ _ => true
  | _ => false

/-- `_fc_cacheRemainingFrameData` sets `rx_fl_total` anew. -/
def Meter.count (s : Meter) (act : LineAct) (line : Line) : Nat :=
  match act with
  | .receiver => if s.line.phase.caching then 0 else s.drained
  | .retryWrite _ _ => s.drained + (line.pty.length - s.line.pty.length)
  | _ => s.drained

def meterStep (s : Meter) (act : LineAct) : Option Meter :=
  (lineStep s.line act).map fun line => ⟨line, s.count act line⟩

def Meter.start (channel : Channel) : Meter := ⟨Line.start channel, 0⟩

/-- The channel is not closed. -/
def meterOpen (s : Meter) (act : LineAct) : Prop := keepsOpen s.line act

instance (s : Meter) (act : LineAct) : Decidable (meterOpen s act) :=
  inferInstanceAs (Decidable (keepsOpen s.line act))

/-- The next step of `extract_frames` refuses the frame. -/
def refuses (s : Line) (frame : FramePtr) : Prop :=
  s.phase = .check frame ∧ s.channel.rxFcOff = true ∧
    (fcCacheFrameData s.channel frame).map (·.2) = some true

instance (s : Line) (frame : FramePtr) : Decidable (refuses s frame) :=
  inferInstanceAs (Decidable (_ ∧ _ ∧ _))

/-! ## `rx_fl_written` -/

/-- A retry thread that has taken a frame from the list. -/
def RetryPc.taking : RetryPc → Prop
  | .write _ _ | .pop => True
  | _ => False

theorem RetryPc.taking.draining {pc : RetryPc} (h : pc.taking) : pc.draining := by
  cases pc with
  | write | pop => trivial
  | start | sendOn | clear | signal | done => exact h.elim

/-- `rx_fl_written` is about the first frame of the list, and 0 once a retry
thread has taken that. -/
structure Tidy (s : Line) : Prop where
  caching : ∀ frame written, s.phase = .cache frame written → written ≤ frame.frame.data.length
  first : s.channel.rxFlWritten ≤ (payloads (s.channel.rxFl.frames.take 1)).length
  taken : (∃ pc ∈ s.retry, pc.taking) → s.channel.rxFlWritten = 0

/-- The meter shows what is left of `rx_fl_total`. -/
structure Metered (s : Meter) : Prop where
  mode : ∃ rest, s.line.mode rest
  tidy : Tidy s.line
  total : s.line.channel.rxFlTotal = s.line.backlog + s.drained

/-- Outside the phase that caches there is nothing to say of it. -/
theorem uncached {phase : Phase} (h : phase.caching = false) (frame : FramePtr) (written : Nat)
    (hcache : phase = .cache frame written) : written ≤ frame.frame.data.length := by
  rw [hcache] at h
  cases h

theorem payloads_cons (p : FramePtr) (ps : List FramePtr) :
    payloads (p :: ps) = p.frame.data ++ payloads ps := flatMap_cons

theorem payloads_one (p : FramePtr) : payloads [p] = p.frame.data := append_nil _

section

variable {retry : List RetryPc} {i : Nat} {pc pc' : RetryPc}

/-- A thread moves: what it has in hand is replaced. -/
theorem unwritten_set (hi : retry[i]? = some pc) (pc' : RetryPc) :
    ((retry.set i pc').flatMap RetryPc.unwritten).length + pc.unwritten.length
      = (retry.flatMap RetryPc.unwritten).length + pc'.unwritten.length := by
  induction retry generalizing i with
  | nil => cases hi
  | cons d retry ih =>
    cases i with
    | zero =>
      cases hi
      simp only [set_cons_zero, flatMap_cons, length_append]
      omega
    | succ i =>
      have hrest := ih hi
      simp only [set_cons_succ, flatMap_cons, length_append]
      omega

theorem unwritten_of_nobody (h : Nobody RetryPc.draining retry) :
    retry.flatMap RetryPc.unwritten = [] := by
  rw [flatMap_eq_nil_iff]
  intro pc hpc
  cases pc with
  | write => exact absurd trivial (h _ hpc)
  | _ => rfl

theorem taking_set (hpc' : ¬ pc'.taking) (h : ∃ pc ∈ retry.set i pc', pc.taking) :
    ∃ pc ∈ retry, pc.taking := by
  obtain ⟨pc, hmem, htaking⟩ := h
  rcases mem_or_eq_of_mem_set hmem with hold | rfl
  · exact ⟨pc, hold, htaking⟩
  · exact absurd htaking hpc'

end

/-! ## One step -/

section

variable {s : Meter} {line : Line} {i : Nat} (h : Metered s) (hmode : ∃ rest, line.mode rest)
include h hmode

section Keep

variable (hlist : line.channel.rxFl = s.line.channel.rxFl)
  (hwritten : line.channel.rxFlWritten = s.line.channel.rxFlWritten)
  (htotal : line.channel.rxFlTotal = s.line.channel.rxFlTotal)
include hlist hwritten htotal

/-- Steps that leave the list and the counters of the channel alone. -/
theorem Metered.keep (hcaching : ∀ frame written, line.phase = .cache frame written →
      written ≤ frame.frame.data.length)
    (hunwritten : (line.retry.flatMap RetryPc.unwritten).length
      = (s.line.retry.flatMap RetryPc.unwritten).length)
    (htaking : (∃ pc ∈ line.retry, pc.taking) → ∃ pc ∈ s.line.retry, pc.taking) :
    Metered ⟨line, s.drained⟩ where
  mode := hmode
  tidy := by
    refine ⟨hcaching, ?_, ?_⟩
    · rw [hwritten, hlist]
      exact h.tidy.first
    · intro htaken
      rw [hwritten]
      exact h.tidy.taken (htaking htaken)
  total := by
    have htotal' := h.total
    unfold Line.backlog at htotal' ⊢
    rw [htotal, hlist, hwritten, hunwritten]
    exact htotal'

/-- Steps of the receiving thread among them. -/
theorem Metered.keep_phase (hretry : line.retry = s.line.retry)
    (hcaching : ∀ frame written, line.phase = .cache frame written →
      written ≤ frame.frame.data.length) : Metered ⟨line, s.drained⟩ := by
  refine h.keep hmode hlist hwritten htotal hcaching ?_ ?_
  · rw [hretry]
  · rw [hretry]
    exact id

/-- Steps of a retry thread behind its last frame among them. -/
theorem Metered.keep_retry {pc pc' : RetryPc}
    (hphase : line.phase.caching = true → line.phase = s.line.phase)
    (hi : s.line.retry[i]? = some pc) (hretry : line.retry = s.line.retry.set i pc')
    (hpc : pc.unwritten = []) (hpc' : pc'.unwritten = []) (htaking : ¬ pc'.taking) :
    Metered ⟨line, s.drained⟩ := by
  refine h.keep hmode hlist hwritten htotal ?_ ?_ ?_
  · intro frame written hcache
    have hsame := hphase (by rw [hcache]; rfl)
    exact h.tidy.caching frame written (hsame.symm.trans hcache)
  · have hset := unwritten_set hi pc'
    rw [hpc, hpc'] at hset
    rw [hretry]
    exact hset
  · rw [hretry]
    exact taking_set htaking

end Keep

variable {frame : FramePtr} {frames : List FramePtr}

/-- A frame is queued: the total and the backlog grow by its length. -/
theorem Metered.enqueue {destroyed : List Nat} (hlist : s.line.channel.rxFl = .list frames)
    (hline : line = { s.line with
      channel := { s.line.channel with
        rxFl := .list (frames ++ [frame])
        rxFlTotal := s.line.channel.rxFlTotal + frame.frame.data.length }
      destroyed := destroyed, phase := .idle }) : Metered ⟨line, s.drained⟩ := by
  subst hline
  have hfirst := h.tidy.first
  have htotal := h.total
  unfold Line.backlog at htotal
  rw [hlist] at hfirst htotal
  simp only [RxList.frames, length_drop] at hfirst htotal
  -- the frame behind the others leaves the first one where it is
  have hle : (payloads (frames.take 1)).length ≤ (payloads frames).length := by
    cases frames with
    | nil => exact Nat.le_refl _
    | cons p ps =>
      rw [take_succ_cons, take_zero, payloads_one, payloads_cons, length_append]
      omega
  refine ⟨hmode, ⟨uncached rfl, ?_, h.tidy.taken⟩, ?_⟩
  · refine Nat.le_trans hfirst ?_
    show _ ≤ (payloads ((frames ++ [frame]).take 1)).length
    cases frames with
    | nil => exact Nat.zero_le _
    | cons p ps => exact Nat.le_refl _
  · unfold Line.backlog
    simp only [RxList.frames, payloads_append, payloads_one, length_drop,
      length_append]
    omega

/-- The rest of a frame is cached on a free line: it is the whole backlog. -/
theorem Metered.cacheRemaining {written : Nat} {destroyed : List Nat}
    (hcache : s.line.phase = .cache frame written) (hline : line = { s.line with
      channel := { s.line.channel with
        rxFl := .list [frame], rxFlTotal := frame.frame.data.length - written
        rxFlWritten := written }
      phase := .sendOff, destroyed := destroyed }) : Metered ⟨line, 0⟩ := by
  subst hline
  obtain ⟨rest, hfree⟩ := h.mode
  obtain ⟨-, hnobody, -, -⟩ := hfree.direct_inv (by rw [hcache]; trivial)
    (by rw [hcache]; exact id)
  refine ⟨hmode, ⟨uncached rfl, ?_, ?_⟩, ?_⟩
  · show written ≤ (payloads [frame]).length
    rw [payloads_one]
    exact h.tidy.caching frame written hcache
  · rintro ⟨pc, hpc, htaking⟩
    exact absurd htaking.draining (hnobody pc hpc)
  · unfold Line.backlog
    simp only [RxList.frames, payloads_one, length_drop, unwritten_of_nobody hnobody,
      length_nil, Nat.add_zero]

/-- A retry thread takes the first frame, with what was written of it. -/
theorem Metered.take {pc : RetryPc} {written : Nat} (hi : s.line.retry[i]? = some pc)
    (hpc : pc.unwritten = [])
    (hlist : s.line.channel.rxFl = .list (frame :: frames))
    (hwritten : s.line.channel.rxFlWritten = written) (hframes : line.channel.rxFl = .list frames)
    (hzero : line.channel.rxFlWritten = 0)
    (hsame : line.channel.rxFlTotal = s.line.channel.rxFlTotal) (hphase : line.phase = s.line.phase)
    (hretry : line.retry = s.line.retry.set i (.write frame written)) :
    Metered ⟨line, s.drained⟩ := by
  have hfirst := h.tidy.first
  have htotal := h.total
  have hset := unwritten_set hi (.write frame written)
  unfold Line.backlog at htotal
  rw [hlist, hwritten] at hfirst htotal
  simp only [RxList.frames, take_succ_cons, take_zero, payloads_one] at hfirst
  simp only [RxList.frames, payloads_cons, length_drop, length_append] at htotal
  rw [hpc] at hset
  simp only [RetryPc.unwritten, length_nil, length_drop] at hset
  refine ⟨hmode, ⟨hphase ▸ h.tidy.caching, hzero ▸ Nat.zero_le _, fun _ => hzero⟩, ?_⟩
  unfold Line.backlog
  simp only [hframes, hzero, hsame, hretry, RxList.frames, length_drop]
  omega

/-- A retry thread writes: what leaves the backlog is drained. -/
theorem Metered.retryWrite {pc pc' : RetryPc} {written : List UInt8}
    (hi : s.line.retry[i]? = some pc) (hpc : pc.taking)
    (hsplit : pc.unwritten = written ++ pc'.unwritten)
    (hline : line = { s.line with pty := s.line.pty ++ written, retry := s.line.retry.set i pc' }) :
    Metered ⟨line, s.drained + (line.pty.length - s.line.pty.length)⟩ := by
  subst hline
  have hzero : s.line.channel.rxFlWritten = 0 :=
    h.tidy.taken ⟨pc, mem_of_getElem? hi, hpc⟩
  have htotal := h.total
  have hset := unwritten_set hi pc'
  rw [hsplit, length_append] at hset
  unfold Line.backlog at htotal
  refine ⟨hmode, ⟨h.tidy.caching, h.tidy.first, fun _ => hzero⟩, ?_⟩
  unfold Line.backlog
  rw [length_append]
  simp only
  omega

end

/-- **One step** of a line that is not closed. -/
theorem Metered.step {s : Meter} {line : Line} {act : LineAct} (h : Metered s)
    (hstep : LineStep s.line act line)
    (hopen : keepsOpen s.line act) : Metered ⟨line, s.count act line⟩ := by
  have hmode : ∃ rest, line.mode rest := by
    obtain ⟨rest, hmode⟩ := h.mode
    obtain ⟨rest', hmode', -⟩ := @mode_step 0 s.line line act rest hmode hstep hopen
    exact ⟨rest', hmode'⟩
  -- `rx_fl_total` is only set from the phase that caches
  have hcount : ∀ {phase : Phase}, s.line.phase = phase → phase.caching = false →
      s.count .receiver line = s.drained := by
    intro phase hphase hcaching
    simp only [Meter.count, hphase, hcaching, Bool.false_eq_true, if_false]
  cases hstep with
  | receiveData | receiveControl | writeAll | discardVt | offFails | createFails | wakeup =>
    exact h.keep_phase hmode rfl rfl rfl rfl (uncached rfl)
  | command hphase | handshake _ _ _ hphase | refuse hphase | pass hphase | finish hphase
  | sendOff hphase | wait hphase =>
    rw [hcount hphase rfl]
    exact h.keep_phase hmode rfl rfl rfl rfl (uncached rfl)
  | close hphase hcloses =>
    rw [keepsOpen, closing_control hphase, hcloses] at hopen
    cases hopen
  | enqueue hphase _ hlist =>
    rw [hcount hphase rfl]
    exact h.enqueue hmode hlist rfl
  | writePart _ hlt =>
    refine h.keep_phase hmode rfl rfl rfl rfl ?_
    intro frame written hcache
    cases hcache
    exact Nat.le_of_lt hlt
  | writeAgain => exact h
  | writeNothing =>
    refine h.keep_phase hmode rfl rfl rfl rfl ?_
    intro frame written hcache
    cases hcache
    exact Nat.zero_le _
  | cacheRemaining hphase =>
    have hzero : s.count .receiver = fun _ => 0 := by
      funext line'
      simp only [Meter.count, hphase, Phase.caching, if_true]
    rw [hzero]
    exact h.cacheRemaining hmode hphase rfl
  | block hphase =>
    rw [hphase.elim (fun hlock => hcount hlock rfl) fun hwait => hcount hwait rfl]
    exact h.keep_phase hmode rfl rfl rfl rfl (uncached rfl)
  | create hphase =>
    rw [hcount hphase rfl]
    refine h.keep hmode rfl rfl rfl (uncached rfl) ?_ ?_
    · simp only [flatMap_append, flatMap_singleton, RetryPc.unwritten, append_nil]
    · rintro ⟨pc, hpc, htaking⟩
      rcases mem_append.mp hpc with hold | hnew
      · exact ⟨pc, hold, htaking⟩
      · rw [mem_singleton.mp hnew] at htaking
        exact htaking.elim
  | retryStart hi hlist => exact h.take hmode hi rfl hlist rfl rfl rfl rfl rfl rfl
  | retryPop hi hlist =>
    have hzero := h.tidy.taken ⟨.pop, mem_of_getElem? hi, trivial⟩
    exact h.take hmode hi rfl hlist hzero rfl hzero rfl rfl rfl
  | retryEmpty hi | retrySendOn hi | onFails hi | retryClear hi | retryEnd hi =>
    exact h.keep_retry hmode rfl rfl rfl (fun _ => rfl) hi rfl rfl rfl id
  | retrySignal hi =>
    refine h.keep_retry hmode rfl rfl rfl ?_ hi rfl rfl rfl id
    intro hcaching
    cases hcaching
  | @retryWrite i n frame written hi =>
    refine h.retryWrite hmode hi trivial ?_ rfl
    show frame.frame.data.drop written = _ ++ frame.frame.data.drop (written + n)
    rw [← drop_drop, take_append_drop]
  | retryWritten hi => exact h.retryWrite hmode hi trivial (append_nil _).symm rfl
  | @retryAgain i result =>
    have hsame : s.count (.retryWrite i result) s.line = s.drained := by
      simp only [Meter.count, Nat.sub_self, Nat.add_zero]
    rw [hsame]
    exact h

/-! ## Whole runs -/

theorem metered_start (channel : Channel) : Metered (Meter.start channel) where
  mode := ⟨[], mode_start channel⟩
  tidy := ⟨uncached rfl, Nat.zero_le _, fun _ => rfl⟩
  total := rfl

/-- **What `rx_fl_total` counts**: the backlog, and what the retry threads have
written since it was set. -/
theorem rxFlTotal_eq {channel : Channel} {acts : List LineAct} {t : Meter}
    (hrun : Run meterStep meterOpen (Meter.start channel) acts t) :
    t.line.channel.rxFlTotal = t.line.backlog + t.drained := by
  have hmetered : Metered t := by
    refine hrun.invariant ?_ (metered_start channel)
    intro s act s' hs hopen hstep
    obtain ⟨line, hline, rfl⟩ := Option.map_eq_some_iff.mp hstep
    exact hs.step (lineStep_inv hline) hopen
  exact hmetered.total

/-- **Refused frames.** As long as the retry threads have written nothing since
the PTY blocked, a frame is refused only if it does not fit under the watermark
together with the backlog. -/
theorem refused_over_watermark {channel : Channel} {acts : List LineAct} {t : Meter}
    {frame : FramePtr} (hrun : Run meterStep meterOpen (Meter.start channel) acts t)
    (hundrained : t.drained = 0) (hrefused : refuses t.line frame) :
    t.line.backlog + frame.frame.data.length > rxFlowCtrlHighWatermark := by
  have htotal := rxFlTotal_eq hrun
  obtain ⟨-, -, hcache⟩ := hrefused
  unfold fcCacheFrameData at hcache
  split at hcache
  · next hover =>
    rw [htotal, hundrained] at hover
    exact hover
  · obtain ⟨r, hpush, hr⟩ := Option.map_eq_some_iff.mp hcache
    obtain ⟨rxFl, -, rfl⟩ := Option.map_eq_some_iff.mp hpush
    cases hr

/-- Frames of 512 octets on channel 1, the first of which the PTY does not take.
The retry thread is started and the others are queued. -/
def blockedActs (queued : Nat) : List LineAct :=
  [.receive ⟨0, uihFrame 1 (replicate 512 0)⟩, .receiver, .write .eagain, .receiver,
    .receiver, .receiver, .receiver]
  ++ (replicate queued
    [.receive ⟨1, uihFrame 1 (replicate 512 0)⟩, .receiver]).flatten

/-- The next frame, of one octet. -/
def oneOctet : FramePtr := ⟨2, uihFrame 1 [0]⟩

/-- Eight frames of 512 octets are in the list: the watermark. -/
theorem refused_over_watermark_full :
    ∃ t, Run meterStep meterOpen (Meter.start (openChannels 1))
        (blockedActs 7 ++ [.receive oneOctet]) t ∧ t.drained = 0 ∧ refuses t.line oneOctet ∧
      t.line.backlog + oneOctet.frame.data.length > rxFlowCtrlHighWatermark := by
  refine Run.exists_of_exec (A := fun t => t.drained = 0 ∧ refuses t.line oneOctet)
    (by decide +kernel) ?_
  rintro t hrun ⟨hdrained, hrefused⟩
  exact ⟨hdrained, hrefused, refused_over_watermark hrun hdrained hrefused⟩

/-- The retry thread has written seven of the eight frames. 512 octets are left,
and a frame of one octet is refused. -/
theorem refused_early :
    ∃ t, Run meterStep anyStep (Meter.start (openChannels 1))
        (blockedActs 7 ++ [.retry 0]
          ++ (replicate 7 [.retryWrite 0 (.wrote 512), .retry 0]).flatten
          ++ [.receive oneOctet]) t ∧
      refuses t.line oneOctet ∧ t.line.backlog = 512 :=
  Run.exists_of_exec (by decide +kernel) fun _ _ h => h

end Arale.Mux
