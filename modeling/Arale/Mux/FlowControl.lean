import Arale.Mux.Session

/-!
# Receive flow control

`extract_frames` writes the payload of a data frame to the PTY of its
channel. When the PTY does not take all of it, the rest is cached in the
channel's frame list, the modem is told to stop (an MSC command with the FC
bit set), `rx_fc_off` is set and a thread is started that writes the cached
frames. Until that thread finds the list empty and clears `rx_fc_off`,
further frames of the channel are only appended to the list.

`Line` is one channel with the threads that work on it: where
`extract_frames` is with a frame of this channel, the retry threads started
so far, what reached the PTY and the modem, and which frames were passed to
`destroy_frame`. `lineStep` is one step of one of the threads. Every section
under `rx_fc_lock` is one step, and so is `_fc_cacheRemainingFrameData`,
which takes no lock. What `write` answers is part of the label, so the
descriptor is not looked at, and so is whether `write_frame` gets an MSC command
to the modem, which neither thread looks at.

A failed `Gsm0710Muxd_Assert` is not an exit. The production build only asks
the main thread to end the process and goes on; in the other build the
process ends, and its runs are those up to that point.

Several retry threads may be alive at a time: one that has cleared
`rx_fc_off` still has to tell the modem and to signal `rx_fc_on_signal`.

> `lineStep_inv`: what a step of a line can do, one case per branch of the
> source.
-/

namespace Arale.Mux

/-! ## Frame lists

`none` is a `NULL` or a freed pointer that is followed. -/

def flIsEmpty : RxList → Option Bool
  | .null => some true
  | .list frames => some frames.isEmpty
  | .freed => none

/-- `_fl_init`; frames left in the list are destroyed. -/
def flInit : RxList → Option (RxList × List FramePtr)
  | .null => some (.list [], [])
  | .list frames => some (.list [], frames)
  | .freed => none

/-- `_fl_destroy`: the frames that are destroyed with the list. -/
def flDestroy : RxList → Option (List FramePtr)
  | .null => some []
  | .list frames => some frames
  | .freed => none

def flPushFrame (frame : FramePtr) : RxList → Option RxList
  | .list frames => some (.list (frames ++ [frame]))
  | _ => none

/-- The frames of a list. -/
def RxList.frames : RxList → List FramePtr
  | .list frames => frames
  | _ => []

def flPopFrame : RxList → Option (Option FramePtr × RxList)
  | .null => some (none, .null)
  | .list [] => some (none, .list [])
  | .list (frame :: frames) => some (some frame, .list frames)
  | .freed => none

/-! ## Caching frames -/

def rxFlowCtrlHighWatermark : Nat := 4096

/-- `_fc_cacheFrameData`, up to its `destroy_frame`: the channel, and whether
the frame was refused. The frame is destroyed in either case. -/
def fcCacheFrameData (channel : Channel) (frame : FramePtr) : Option (Channel × Bool) :=
  if channel.rxFlTotal + frame.frame.data.length > rxFlowCtrlHighWatermark then
    some (channel, true)
  else
    (flPushFrame frame channel.rxFl).map fun rxFl =>
      ({ channel with rxFl := rxFl, rxFlTotal := channel.rxFlTotal + frame.frame.data.length },
        false)

/-- `_fc_cacheRemainingFrameData`, with the frames that are destroyed. The
list should be empty, which is only asserted. -/
def fcCacheRemainingFrameData (channel : Channel) (frame : FramePtr) (written : Nat) :
    Option (Channel × List FramePtr) := do
  let _ ← flIsEmpty channel.rxFl
  let (rxFl, cleaned) ← flInit channel.rxFl
  let rxFl ← flPushFrame frame rxFl
  some ({ channel with
    rxFl := rxFl, rxFlTotal := frame.frame.data.length - written, rxFlWritten := written }, cleaned)

/-- The MSC command for a channel, built from `msc_channel_cmd`. -/
def mscCmd (id : Nat) (fcOff : Bool) : List UInt8 :=
  [gsm0710ControlMsc ||| gsm0710Cr, gsm0710Ea ||| ((2 : UInt8) <<< 1),
    (0x03 : UInt8) ||| UInt8.ofNat (id <<< 2), if fcOff then 0x8D ||| 0x02 else 0x8D]

/-! ## One channel -/

/-- Where `extract_frames` is with a frame of the channel. A data frame is
at `check`, any other one at `control`; `sendOff` to `create` are
`start_retry_write_thread`. -/
inductive Phase where
  | idle
  | control (frame : FramePtr)
  | check (frame : FramePtr)
  | write (frame : FramePtr)
  | cache (frame : FramePtr) (written : Nat)
  | sendOff
  | lock
  | waiting (signalled : Bool)
  | create
  | finish (frame : FramePtr)
  deriving DecidableEq, Repr

/-- Where a `retry_write_pty_thread` is. -/
inductive RetryPc where
  | start
  | write (frame : FramePtr) (written : Nat)
  | pop
  | sendOn
  | clear
  | signal
  | done
  deriving DecidableEq, Repr

/-- The answer of the PTY to a `write`. -/
inductive PtyWrite where
  | wrote (n : Nat)
  | eintr
  | eagain
  | eio
  | other
  deriving DecidableEq, Repr

/-- A frame that was received, and if `_fc_cacheFrameData` refused it, the
`rx_fl_total` it did so at. -/
structure Received where
  frame : FramePtr
  refused : Option Nat
  deriving DecidableEq, Repr

/-- Data frames are information frames on a channel other than the control
channel. -/
def isData (frame : Frame) : Bool := isInformation frame && frame.channel != 0

structure Line where
  channel : Channel
  phase : Phase
  retry : List RetryPc
  /-- the bytes written to the PTY -/
  pty : List UInt8
  /-- the MSC commands written to the modem for this channel -/
  msc : List (List UInt8)
  received : List Received
  /-- the addresses passed to `destroy_frame` -/
  destroyed : List Nat

/-- The line of a channel that was just initialised. -/
def Line.start (channel : Channel) : Line where
  channel := fcInitContext channel
  phase := .idle
  retry := []
  pty := []
  msc := []
  received := []
  destroyed := []

/-- The last frame received is the one refused. -/
def refuseLast (rxFlTotal : Nat) (received : List Received) : List Received :=
  received.dropLast ++ received.getLast?.toList.map fun r => { r with refused := some rxFlTotal }

/-- What moves next on a line. `createFails` is a `pthread_create` that
fails, `wakeup` a `pthread_cond_wait` that returns without a signal, `offFails`
and `onFails` are MSC commands that `write_frame` does not get to the modem. -/
inductive LineAct where
  | receive (frame : FramePtr)
  | receiver
  | write (result : PtyWrite)
  | offFails
  | createFails
  | wakeup
  | retry (i : Nat)
  | onFails (i : Nat)
  | retryWrite (i : Nat) (result : PtyWrite)
  deriving DecidableEq, Repr

/-- A frame that is not a data frame. `handle_command` does not touch what is
modelled here. -/
def controlStep (s : Line) (frame : FramePtr) : Option Line :=
  if isInformation frame.frame then some { s with phase := .finish frame }
  else if closesChannel frame.frame s.channel then
    (flDestroy s.channel.rxFl).map fun cached =>
      { s with
        channel := controlChannel frame.frame s.channel, phase := .finish frame
        destroyed := s.destroyed ++ cached.map (·.addr) }
  else some { s with channel := controlChannel frame.frame s.channel, phase := .finish frame }

/-- `extract_frames` and what it calls, between the writes to the PTY. -/
def receiverStep (s : Line) : Option Line :=
  match s.phase with
  | .control frame => controlStep s frame
  | .check frame =>
    if s.channel.rxFcOff then
      (fcCacheFrameData s.channel frame).map fun (channel, refused) =>
        { s with
          channel := channel
          received := if refused then refuseLast s.channel.rxFlTotal s.received else s.received
          destroyed := s.destroyed ++ [frame.addr]
          phase := .idle }
    else some { s with phase := .write frame }
  | .cache frame written =>
    (fcCacheRemainingFrameData s.channel frame written).map fun (channel, cleaned) =>
      { s with
        channel := channel, phase := .sendOff
        destroyed := s.destroyed ++ cleaned.map (·.addr) }
  | .sendOff => some { s with msc := s.msc ++ [mscCmd s.channel.id true], phase := .lock }
  | .lock =>
    if s.channel.rxThread then some { s with phase := .waiting false }
    else some { s with channel := { s.channel with rxFcOff := true }, phase := .create }
  | .waiting signalled =>
    if signalled then
      some { s with channel := { s.channel with rxFcOff := true }, phase := .create }
    else none
  | .create => some { s with retry := s.retry ++ [.start], phase := .idle }
  | .finish frame => some { s with destroyed := s.destroyed ++ [frame.addr], phase := .idle }
  | _ => none

/-- The direct write of a frame. After any other error it is tried again, by
way of `watchdog` if the channel is to be reopened, else of an assertion. -/
def receiverWrite (s : Line) (result : PtyWrite) : Option Line :=
  match s.phase with
  | .write frame =>
    match result with
    | .wrote n =>
      if n ≤ frame.frame.data.length then
        some { s with
          pty := s.pty ++ frame.frame.data.take n
          phase := if frame.frame.data.length - n > 0 then .cache frame n else .finish frame }
      else none
    | .eintr => some s
    | .eio => some s
    | .eagain =>
      -- the frame of a VT call is dropped without being destroyed
      if frame.frame.channel.toNat = muxdVtChNum then some { s with phase := .idle }
      else some { s with phase := .cache frame 0 }
    | .other => some s
  | _ => none

/-- A retry thread outside its writes, with the line and where it goes. -/
def retryStep (s : Line) : RetryPc → Option (Line × RetryPc)
  | .start =>
    match flPopFrame s.channel.rxFl with
    | some (some frame, rxFl) =>
      some (
        { s with channel := { s.channel with rxThread := true, rxFl := rxFl, rxFlWritten := 0 } },
        .write frame s.channel.rxFlWritten)
    -- a missing frame is only asserted against and then followed
    | _ => none
  | .pop =>
    match flPopFrame s.channel.rxFl with
    | some (some frame, rxFl) =>
      some ({ s with channel := { s.channel with rxFl := rxFl } }, .write frame 0)
    | some (none, rxFl) =>
      some ({ s with channel := { s.channel with rxFl := rxFl, rxFcOff := false } }, .sendOn)
    | none => none
  | .sendOn => some ({ s with msc := s.msc ++ [mscCmd s.channel.id false] }, .clear)
  | .clear => some ({ s with channel := { s.channel with rxThread := false } }, .signal)
  | .signal =>
    some ({ s with phase := match s.phase with
      | .waiting _ => .waiting true
      | phase => phase }, .done)
  | _ => none

/-- A write of a retry thread. -/
def retryWrite (s : Line) (result : PtyWrite) : RetryPc → Option (Line × RetryPc)
  | .write frame written =>
    match result with
    | .wrote n =>
      if n ≤ frame.frame.data.length - written then
        some ({ s with pty := s.pty ++ (frame.frame.data.drop written).take n },
          if written + n < frame.frame.data.length then .write frame (written + n) else .pop)
      else none
    | _ => some (s, .write frame written)
  | _ => none

/-- Thread `i` has moved. -/
def Line.moved (i : Nat) (r : Line × RetryPc) : Line := { r.1 with retry := r.1.retry.set i r.2 }

def lineStep (s : Line) : LineAct → Option Line
  | .receive frame =>
    if s.phase = .idle then
      some { s with
        phase := if isData frame.frame then .check frame else .control frame
        received := s.received ++ [⟨frame, none⟩] }
    else none
  | .receiver => receiverStep s
  | .write result => receiverWrite s result
  | .offFails => if s.phase = .sendOff then some { s with phase := .lock } else none
  | .createFails => if s.phase = .create then some { s with phase := .idle } else none
  | .wakeup =>
    match s.phase with
    | .waiting _ => some { s with phase := .waiting true }
    | _ => none
  | .retry i => (s.retry[i]?.bind (retryStep s)).map (Line.moved i)
  | .onFails i => if s.retry[i]? = some .sendOn then some (Line.moved i (s, .clear)) else none
  | .retryWrite i result => (s.retry[i]?.bind (retryWrite s result)).map (Line.moved i)

/-! ## What a step can do -/

/-- The branches of `lineStep`. -/
inductive LineStep (s : Line) : LineAct → Line → Prop where
  | receiveData {frame : FramePtr} : s.phase = .idle → isData frame.frame = true →
      LineStep s (.receive frame)
        { s with phase := .check frame, received := s.received ++ [⟨frame, none⟩] }
  | receiveControl {frame : FramePtr} : s.phase = .idle → isData frame.frame = false →
      LineStep s (.receive frame)
        { s with phase := .control frame, received := s.received ++ [⟨frame, none⟩] }
  | command {frame : FramePtr} : s.phase = .control frame →
      isInformation frame.frame = true →
      LineStep s .receiver { s with phase := .finish frame }
  | handshake {frame : FramePtr} (opened sabmUaPending discUaPending : Bool) :
      s.phase = .control frame → closesChannel frame.frame s.channel = false →
      LineStep s .receiver
        { s with
          channel := { s.channel with
            opened := opened, sabmUaPending := sabmUaPending, discUaPending := discUaPending }
          phase := .finish frame }
  | close {frame : FramePtr} {cached : List FramePtr} : s.phase = .control frame →
      closesChannel frame.frame s.channel = true → flDestroy s.channel.rxFl = some cached →
      LineStep s .receiver
        { s with
          channel := logicalChannelClose s.channel, phase := .finish frame
          destroyed := s.destroyed ++ cached.map (·.addr) }
  | enqueue {frame : FramePtr} {frames : List FramePtr} : s.phase = .check frame →
      s.channel.rxFcOff = true → s.channel.rxFl = .list frames →
      LineStep s .receiver
        { s with
          channel := { s.channel with
            rxFl := .list (frames ++ [frame])
            rxFlTotal := s.channel.rxFlTotal + frame.frame.data.length }
          destroyed := s.destroyed ++ [frame.addr], phase := .idle }
  | refuse {frame : FramePtr} : s.phase = .check frame → s.channel.rxFcOff = true →
      s.channel.rxFlTotal + frame.frame.data.length > rxFlowCtrlHighWatermark →
      LineStep s .receiver
        { s with
          received := refuseLast s.channel.rxFlTotal s.received
          destroyed := s.destroyed ++ [frame.addr], phase := .idle }
  | pass {frame : FramePtr} : s.phase = .check frame → s.channel.rxFcOff = false →
      LineStep s .receiver { s with phase := .write frame }
  | writeAll {frame : FramePtr} {n : Nat} : s.phase = .write frame →
      n = frame.frame.data.length →
      LineStep s (.write (.wrote n))
        { s with pty := s.pty ++ frame.frame.data, phase := .finish frame }
  | writePart {frame : FramePtr} {n : Nat} : s.phase = .write frame →
      n < frame.frame.data.length →
      LineStep s (.write (.wrote n))
        { s with pty := s.pty ++ frame.frame.data.take n, phase := .cache frame n }
  | writeAgain {result : PtyWrite} : LineStep s (.write result) s
  | discardVt {frame : FramePtr} : s.phase = .write frame →
      frame.frame.channel.toNat = muxdVtChNum →
      LineStep s (.write .eagain) { s with phase := .idle }
  | writeNothing {frame : FramePtr} : s.phase = .write frame →
      frame.frame.channel.toNat ≠ muxdVtChNum →
      LineStep s (.write .eagain) { s with phase := .cache frame 0 }
  | cacheRemaining {frame : FramePtr} {written : Nat} : s.phase = .cache frame written →
      s.channel.rxFl ≠ .freed →
      LineStep s .receiver
        { s with
          channel := { s.channel with
            rxFl := .list [frame], rxFlTotal := frame.frame.data.length - written
            rxFlWritten := written }
          phase := .sendOff
          destroyed := s.destroyed ++ s.channel.rxFl.frames.map (·.addr) }
  | sendOff : s.phase = .sendOff →
      LineStep s .receiver { s with msc := s.msc ++ [mscCmd s.channel.id true], phase := .lock }
  | offFails : s.phase = .sendOff → LineStep s .offFails { s with phase := .lock }
  | wait : s.phase = .lock → LineStep s .receiver { s with phase := .waiting false }
  | block : s.phase = .lock ∨ s.phase = .waiting true →
      LineStep s .receiver
        { s with channel := { s.channel with rxFcOff := true }, phase := .create }
  | create : s.phase = .create →
      LineStep s .receiver { s with retry := s.retry ++ [.start], phase := .idle }
  | createFails : s.phase = .create → LineStep s .createFails { s with phase := .idle }
  | finish {frame : FramePtr} : s.phase = .finish frame →
      LineStep s .receiver { s with destroyed := s.destroyed ++ [frame.addr], phase := .idle }
  | wakeup {signalled : Bool} : s.phase = .waiting signalled →
      LineStep s .wakeup { s with phase := .waiting true }
  | retryStart {i : Nat} {frame : FramePtr} {frames : List FramePtr} :
      s.retry[i]? = some .start → s.channel.rxFl = .list (frame :: frames) →
      LineStep s (.retry i)
        { s with
          channel := { s.channel with rxThread := true, rxFl := .list frames, rxFlWritten := 0 }
          retry := s.retry.set i (.write frame s.channel.rxFlWritten) }
  | retryPop {i : Nat} {frame : FramePtr} {frames : List FramePtr} :
      s.retry[i]? = some .pop → s.channel.rxFl = .list (frame :: frames) →
      LineStep s (.retry i)
        { s with
          channel := { s.channel with rxFl := .list frames }
          retry := s.retry.set i (.write frame 0) }
  | retryEmpty {i : Nat} : s.retry[i]? = some .pop →
      s.channel.rxFl = .null ∨ s.channel.rxFl = .list [] →
      LineStep s (.retry i)
        { s with
          channel := { s.channel with rxFcOff := false }, retry := s.retry.set i .sendOn }
  | retrySendOn {i : Nat} : s.retry[i]? = some .sendOn →
      LineStep s (.retry i)
        { s with msc := s.msc ++ [mscCmd s.channel.id false], retry := s.retry.set i .clear }
  | onFails {i : Nat} : s.retry[i]? = some .sendOn →
      LineStep s (.onFails i) { s with retry := s.retry.set i .clear }
  | retryClear {i : Nat} : s.retry[i]? = some .clear →
      LineStep s (.retry i)
        { s with channel := { s.channel with rxThread := false }, retry := s.retry.set i .signal }
  | retrySignal {i : Nat} {signalled : Bool} : s.retry[i]? = some .signal →
      s.phase = .waiting signalled →
      LineStep s (.retry i) { s with phase := .waiting true, retry := s.retry.set i .done }
  | retryEnd {i : Nat} : s.retry[i]? = some .signal →
      LineStep s (.retry i) { s with retry := s.retry.set i .done }
  | retryWrite {i n : Nat} {frame : FramePtr} {written : Nat} :
      s.retry[i]? = some (.write frame written) → written + n < frame.frame.data.length →
      LineStep s (.retryWrite i (.wrote n))
        { s with
          pty := s.pty ++ (frame.frame.data.drop written).take n
          retry := s.retry.set i (.write frame (written + n)) }
  | retryWritten {i n : Nat} {frame : FramePtr} {written : Nat} :
      s.retry[i]? = some (.write frame written) →
      n = frame.frame.data.length - written →
      LineStep s (.retryWrite i (.wrote n))
        { s with
          pty := s.pty ++ frame.frame.data.drop written, retry := s.retry.set i .pop }
  | retryAgain {i : Nat} {result : PtyWrite} : LineStep s (.retryWrite i result) s

variable {frame : FramePtr}

theorem fcCacheFrameData_inv {channel channel' : Channel} {refused : Bool}
    (h : fcCacheFrameData channel frame = some (channel', refused)) :
    (refused = true ∧ channel' = channel ∧
        channel.rxFlTotal + frame.frame.data.length > rxFlowCtrlHighWatermark) ∨
      (refused = false ∧ ∃ frames, channel.rxFl = .list frames ∧
        channel' = { channel with
          rxFl := .list (frames ++ [frame])
          rxFlTotal := channel.rxFlTotal + frame.frame.data.length }) := by
  unfold fcCacheFrameData at h
  split at h
  · next hfull =>
    cases h
    exact .inl ⟨rfl, rfl, hfull⟩
  · obtain ⟨rxFl, hpush, heq⟩ := Option.map_eq_some_iff.mp h
    cases hlist : channel.rxFl with
    | null | freed => simp [hlist, flPushFrame] at hpush
    | list frames =>
      rw [hlist] at hpush
      cases hpush
      cases heq
      exact .inr ⟨rfl, frames, rfl, rfl⟩

theorem fcCacheRemainingFrameData_inv {channel channel' : Channel}
    {written : Nat} {cleaned : List FramePtr}
    (h : fcCacheRemainingFrameData channel frame written = some (channel', cleaned)) :
    channel.rxFl ≠ .freed ∧ cleaned = channel.rxFl.frames ∧
      channel' = { channel with
        rxFl := .list [frame], rxFlTotal := frame.frame.data.length - written
        rxFlWritten := written } := by
  unfold fcCacheRemainingFrameData at h
  cases hlist : channel.rxFl with
  | freed => simp [hlist, flIsEmpty] at h
  | null | list frames =>
    rw [hlist] at h
    cases h
    exact ⟨by simp, rfl, rfl⟩

variable {s s' : Line}

theorem controlStep_inv (hphase : s.phase = .control frame)
    (h : controlStep s frame = some s') : LineStep s .receiver s' := by
  unfold controlStep at h
  split at h
  · next hinformation =>
    cases h
    exact .command hphase hinformation
  · have hshake := controlChannel_handshake frame.frame s.channel
    generalize controlChannel frame.frame s.channel = channel at h hshake
    split at h
    · next hcloses =>
      obtain ⟨cached, hcached, rfl⟩ := Option.map_eq_some_iff.mp h
      cases hshake with
      | close => exact .close hphase hcloses hcached
      | flags _ _ _ hkept => simp [hcloses] at hkept
    · next hcloses =>
      cases h
      cases hshake with
      | close hcloses' => exact absurd hcloses' hcloses
      | flags opened sabm disc hkept => exact .handshake opened sabm disc hphase hkept

theorem receiverStep_inv (h : receiverStep s = some s') : LineStep s .receiver s' := by
  unfold receiverStep at h
  split at h
  · next frame hphase => exact controlStep_inv hphase h
  · next frame hphase =>
    by_cases hoff : s.channel.rxFcOff = true
    · rw [if_pos hoff] at h
      obtain ⟨⟨channel, refused⟩, hcache, h⟩ := Option.map_eq_some_iff.mp h
      rcases fcCacheFrameData_inv hcache with ⟨rfl, rfl, hfull⟩ | ⟨rfl, frames, hlist, rfl⟩
      · cases h
        exact .refuse hphase hoff hfull
      · cases h
        exact .enqueue hphase hoff hlist
    · rw [if_neg hoff] at h
      cases h
      exact .pass hphase (by simpa using hoff)
  · next frame written hphase =>
    obtain ⟨⟨channel, cleaned⟩, hcache, h⟩ := Option.map_eq_some_iff.mp h
    obtain ⟨hlist, rfl, rfl⟩ := fcCacheRemainingFrameData_inv hcache
    cases h
    exact .cacheRemaining hphase hlist
  · next hphase =>
    cases h
    exact .sendOff hphase
  · next hphase =>
    split at h
    · cases h
      exact .wait hphase
    · cases h
      exact .block (.inl hphase)
  · next signalled hphase =>
    split at h
    · next hsignalled =>
      cases h
      exact .block (.inr (hphase.trans (by rw [hsignalled])))
    · cases h
  · next hphase =>
    cases h
    exact .create hphase
  · next frame hphase =>
    cases h
    exact .finish hphase
  · cases h

theorem receiverWrite_inv {result : PtyWrite}
    (h : receiverWrite s result = some s') : LineStep s (.write result) s' := by
  unfold receiverWrite at h
  split at h
  · next frame hphase =>
    cases result with
    | wrote n =>
      dsimp only at h
      split at h
      · next hle =>
        cases h
        by_cases hshort : frame.frame.data.length - n > 0
        · rw [if_pos hshort]
          exact .writePart hphase (by omega)
        · rw [if_neg hshort, List.take_of_length_le (by omega)]
          exact .writeAll hphase (by omega)
      · cases h
    | eintr | eio | other =>
      cases h
      exact .writeAgain
    | eagain =>
      dsimp only at h
      split at h
      · next hvt =>
        cases h
        exact .discardVt hphase hvt
      · next hvt =>
        cases h
        exact .writeNothing hphase hvt
  · cases h

variable {i : Nat} {pc : RetryPc}

/-- An entry that is replaced by itself. -/
theorem Line.moved_self (hi : s.retry[i]? = some pc) : Line.moved i (s, pc) = s := by
  obtain ⟨hlt, hget⟩ := List.getElem?_eq_some_iff.mp hi
  show { s with retry := s.retry.set i pc } = s
  rw [← hget, List.set_getElem_self]

theorem retryStep_inv {r : Line × RetryPc} (hi : s.retry[i]? = some pc)
    (h : retryStep s pc = some r) : LineStep s (.retry i) (Line.moved i r) := by
  cases pc with
  | start =>
    cases hlist : s.channel.rxFl with
    | null | freed => simp [retryStep, flPopFrame, hlist] at h
    | list frames =>
      cases frames with
      | nil => simp [retryStep, flPopFrame, hlist] at h
      | cons frame frames =>
        simp only [retryStep, flPopFrame, hlist] at h
        cases h
        exact .retryStart hi hlist
  | pop =>
    -- popping an empty list leaves `rx_fl` as it is
    have hempty : s.channel.rxFl = .null ∨ s.channel.rxFl = .list [] →
        r = ({ s with channel := { s.channel with rxFcOff := false } }, .sendOn) := by
      rintro (hlist | hlist)
      · simp only [retryStep, flPopFrame, hlist] at h
        rw [← Option.some.inj h, ← hlist]
      · simp only [retryStep, flPopFrame, hlist] at h
        rw [← Option.some.inj h, ← hlist]
    cases hlist : s.channel.rxFl with
    | null =>
      rw [hempty (.inl hlist)]
      exact .retryEmpty hi (.inl hlist)
    | freed => simp [retryStep, flPopFrame, hlist] at h
    | list frames =>
      cases frames with
      | nil =>
        rw [hempty (.inr hlist)]
        exact .retryEmpty hi (.inr hlist)
      | cons frame frames =>
        simp only [retryStep, flPopFrame, hlist] at h
        cases h
        exact .retryPop hi hlist
  | sendOn =>
    cases h
    exact .retrySendOn hi
  | clear =>
    cases h
    exact .retryClear hi
  | signal =>
    simp only [retryStep] at h
    split at h
    · next signalled hphase =>
      cases h
      exact .retrySignal hi hphase
    · cases h
      exact .retryEnd hi
  | write frame written => cases h
  | done => cases h

theorem retryWrite_inv {result : PtyWrite} {r : Line × RetryPc} (hi : s.retry[i]? = some pc)
    (h : retryWrite s result pc = some r) : LineStep s (.retryWrite i result) (Line.moved i r) := by
  have hagain : r = (s, pc) → LineStep s (.retryWrite i result) (Line.moved i r) := by
    intro hr
    rw [hr, Line.moved_self hi]
    exact .retryAgain
  cases pc with
  | write frame written =>
    cases result with
    | wrote n =>
      simp only [retryWrite] at h
      split at h
      · next hle =>
        cases h
        by_cases hmore : written + n < frame.frame.data.length
        · rw [if_pos hmore]
          exact .retryWrite hi hmore
        · rw [if_neg hmore, List.take_of_length_le (by rw [List.length_drop]; omega)]
          exact .retryWritten hi (by omega)
      · cases h
    | eintr | eagain | eio | other => exact hagain (Option.some.inj h).symm
  | _ => cases h

/-- Every step is one of the branches. -/
theorem lineStep_inv {act : LineAct} (h : lineStep s act = some s') : LineStep s act s' := by
  cases act with
  | receive frame =>
    simp only [lineStep] at h
    split at h
    · next hidle =>
      cases h
      by_cases hdata : isData frame.frame = true
      · rw [if_pos hdata]
        exact .receiveData hidle hdata
      · rw [if_neg hdata]
        exact .receiveControl hidle (by simpa using hdata)
    · cases h
  | receiver => exact receiverStep_inv h
  | write result => exact receiverWrite_inv h
  | offFails =>
    obtain ⟨hphase, h⟩ := Option.ite_none_right_eq_some.mp h
    cases h
    exact .offFails hphase
  | createFails =>
    obtain ⟨hphase, h⟩ := Option.ite_none_right_eq_some.mp h
    cases h
    exact .createFails hphase
  | wakeup =>
    simp only [lineStep] at h
    split at h
    · next signalled hphase =>
      cases h
      exact .wakeup hphase
    · cases h
  | retry i =>
    obtain ⟨r, hr, rfl⟩ := Option.map_eq_some_iff.mp h
    obtain ⟨pc, hi, hr⟩ := Option.bind_eq_some_iff.mp hr
    exact retryStep_inv hi hr
  | onFails i =>
    obtain ⟨hi, h⟩ := Option.ite_none_right_eq_some.mp h
    cases h
    exact .onFails hi
  | retryWrite i result =>
    obtain ⟨r, hr, rfl⟩ := Option.map_eq_some_iff.mp h
    obtain ⟨pc, hi, hr⟩ := Option.bind_eq_some_iff.mp hr
    exact retryWrite_inv hi hr

end Arale.Mux
