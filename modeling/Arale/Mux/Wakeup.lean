import Arale.Lib.Trace
import Arale.Mux.CallSteps
import Arale.Mux.BaseRoundTrip

/-!
# The serial reader and the frame assembler

`thread_serial_device_read` fills the receive buffer and goes to sleep on
`bufferready_signal` when it is full; `assemble_frame_thread` empties it
through `extract_frames` and sleeps on `newdataready_signal` when there is
nothing new. This module is the step relation of the two threads over the
one buffer, with the two condition variables and their mutexes.

A thread inside a critical section is a program counter, not a flag of its
own: the reader holds `bufferready_lock` while it decides to sleep, the
assembler holds `newdataready_lock` while it does. The short critical
sections, in which nothing is waited for, are single steps that are not
enabled while the other thread holds the lock.

Signals reach a waiting thread only. `waiting false` is a thread nobody has
signalled since it went to sleep, and there are no spurious wake-ups.

> `reader_woken`: as long as no decoder call runs out of bytes while the
> reader sleeps next to free space, a reader that sleeps next to free space
> after a pass has been signalled.

Runs that break the condition exist (`reader_stranded`): the decoders return
`NULL` without a signal when the stored bytes end inside a frame, even when
they have just used up most of the buffer.

> `no_byte_lost`: in every run, the bytes that the decoder used up, those in the
> buffer and those in the hand of the reader are all that came in, in this order.
-/

namespace Arale.Mux

open List
open Arale.Lib (Ring Run anyStep)

/-- Where `ser_read_thread` is. -/
inductive ReaderPc where
  | enter
  | read (length : Nat)
  | write (input : List UInt8)
  | announce
  | signal
  | full
  | check
  | sleep
  | waiting (signalled : Bool)
  | stopped
  deriving DecidableEq, Repr

/-- Where `frame_assembly_thread` is: in the waiting loop, in a decoder call,
about to signal the reader on one of the two occasions, or dealing with the
frame it got. -/
inductive AssemblerPc where
  | enter
  | testData
  | testSleeping
  | waiting (signalled : Bool)
  | clear
  | call (pc : CallPc)
  | signalNull
  | signalFrame (f : Frame)
  | handle (f : Frame)
  deriving DecidableEq, Repr

structure Threads where
  buf : Gsm0710Buffer
  channellist : List Channel
  reader : ReaderPc
  assembler : AssemblerPc

/-- The reader is inside its `bufferready_lock` section. -/
def ReaderPc.holdsBufferready : ReaderPc → Bool
  | check => true
  | sleep => true
  | _ => false

/-- The assembler is inside its `newdataready_lock` section. -/
def AssemblerPc.holdsNewdataready : AssemblerPc → Bool
  | testData => true
  | testSleeping => true
  | clear => true
  | _ => false

/-- What moves next. `read` is the return of `read()`, with no bytes for an
end of file and for every error that does not end the process. `stop` is a
call that finds `stop_muxd` set or the multiplexer not muxing. Handling a
frame, like the threads not modelled here, may change the channel table, and
`setChannels` lets it change at any time. -/
inductive Act where
  | reader
  | read (input : List UInt8)
  | stop
  | assembler
  | setChannels (channellist : List Channel)

/-- `pthread_cond_signal(&newdataready_signal)`. -/
def wakeAssembler : AssemblerPc → AssemblerPc
  | .waiting _ => .waiting true
  | pc => pc

/-- `pthread_cond_signal(&bufferready_signal)` if `input_sleeping` is set. -/
def signalReader (inputSleeping : Bool) : ReaderPc → ReaderPc
  | .waiting signalled => .waiting (signalled || inputSleeping)
  | pc => pc

/-- `thread_serial_device_read`, called again and again. -/
def readerStep (s : Threads) : Option Threads :=
  match s.reader with
  | .enter =>
    if gsm0710BufferFree s.buf > 0 then
      some { s with reader := .read (gsm0710BufferFree s.buf) }
    else some { s with reader := .full }
  | .read _ => none
  | .write input =>
    some { s with buf := { s.buf with ring := s.buf.ring.write input }, reader := .announce }
  | .announce =>
    if s.assembler.holdsNewdataready then none
    else some { s with buf := { s.buf with newdataready := true }, reader := .signal }
  | .signal => some { s with assembler := wakeAssembler s.assembler, reader := .enter }
  | .full => some { s with buf := { s.buf with inputSleeping := true }, reader := .check }
  | .check =>
    if gsm0710BufferFree s.buf > 0 then
      some { s with buf := { s.buf with inputSleeping := false }, reader := .enter }
    else some { s with reader := .sleep }
  | .sleep => some { s with reader := .waiting false }
  | .waiting signalled => if signalled then some { s with reader := .check } else none
  | .stopped => none

/-- The call `extract_frames` makes. -/
def callEntry (cmuxMode : Bool) : CallPc :=
  if cmuxMode then .adv .search else .base (.search maxResyncGetFrameCount)

/-- `assemble_frame_thread` with `extract_frames`. A failed assertion and a
read past the channel table have no next step. -/
def assemblerStep (cmuxMode : Bool) (s : Threads) : Option Threads :=
  match s.assembler with
  | .enter => some { s with assembler := .testData }
  | .testData =>
    if gsm0710BufferLength s.buf > 0 ∧ s.buf.newdataready then some { s with assembler := .clear }
    else some { s with assembler := .testSleeping }
  | .testSleeping =>
    if s.buf.inputSleeping then some { s with assembler := .clear }
    else some { s with assembler := .waiting false }
  | .waiting signalled => if signalled then some { s with assembler := .testData } else none
  | .clear =>
    some { s with
      buf := { s.buf with newdataready := false }, assembler := .call (callEntry cmuxMode) }
  | .call pc =>
    match callStep s.channellist s.buf pc with
    | .goto pc' buf' => some { s with buf := buf', assembler := .call pc' }
    | .frame f buf' => some { s with buf := buf', assembler := .signalFrame f }
    | .null => some { s with assembler := .enter }
    | .nullSignal => some { s with assembler := .signalNull }
    | .assert _ => none
    | .outOfTable => none
  | .signalNull =>
    if s.reader.holdsBufferready then none
    else some { s with reader := signalReader s.buf.inputSleeping s.reader, assembler := .enter }
  | .signalFrame f =>
    if s.reader.holdsBufferready then none
    else some { s with reader := signalReader s.buf.inputSleeping s.reader, assembler := .handle f }
  | .handle _ => some { s with assembler := .call (callEntry cmuxMode) }

def threadStep (cmuxMode : Bool) (s : Threads) : Act → Option Threads
  | .reader => readerStep s
  | .read input =>
    match s.reader with
    | .read length =>
      if input.length ≤ min length gsm0710BufferSize then
        some { s with reader := if input = [] then .enter else .write input }
      else none
    | _ => none
  | .stop => if s.reader = .enter then some { s with reader := .stopped } else none
  | .assembler => assemblerStep cmuxMode s
  | .setChannels channellist => some { s with channellist := channellist }

/-- Both threads about to start, over an empty buffer. -/
def Threads.start (channellist : List Channel) : Threads where
  buf := gsm0710BufferInit ⟨0, by decide⟩
  channellist := channellist
  reader := .enter
  assembler := .enter

/-! ## What the two threads owe each other -/

/-- The assembler is not in `extract_frames`. -/
def AssemblerPc.betweenPasses : AssemblerPc → Bool
  | .enter => true
  | .testData => true
  | .testSleeping => true
  | .waiting _ => true
  | .clear => true
  | _ => false

/-- No lost wake-up: a reader that sleeps next to free space when a pass is
over has been signalled since it went to sleep. -/
def NoLostWakeup (s : Threads) : Prop :=
  ∀ signalled, s.buf.inputSleeping = true → s.reader = .waiting signalled →
    s.assembler.betweenPasses = true → gsm0710BufferLength s.buf < gsm0710BufferSize →
    signalled = true

/-- The bytes behind a start flag are the beginning of a frame only: fewer
than the shortest frame has, or fewer than the length field, if it is one the
channel allows, announces. -/
def Unfinished (channellist : List Channel) : List UInt8 → Prop
  | a :: _ :: l :: x :: _ :: rest =>
    ∃ ch, channellist[(gsm0710DecodeAddress a).toNat]? = some ch ∧
      if l &&& 1 = 0 then
        ((((l &&& 254) >>> 1).toNat + x.toNat * 128 : Nat) : Int) ≤ ch.negotiatedN1 ∧
          rest.length + 1 < ((l &&& 254) >>> 1).toNat + x.toNat * 128 + 2
      else
        (((l &&& 254) >>> 1).toNat : Int) ≤ ch.negotiatedN1 ∧
          rest.length + 2 < ((l &&& 254) >>> 1).toNat + 2
  | _ => True

/-- The reader has found the buffer full and nobody has signalled it since. -/
def ReaderPc.unsignalled (pc : ReaderPc) : Prop := pc = .sleep ∨ pc = .waiting false

/-- A decoder call is at the end of its bytes while the unsignalled reader
has room to write more: in basic mode the call is about to analyse a frame
that is not all there, in advanced mode there is no byte left. -/
def Starved (s : Threads) : Prop :=
  s.reader.unsignalled ∧ gsm0710BufferLength s.buf < gsm0710BufferSize ∧
    ((∃ levels, s.assembler = .call (.base (.analyze levels)) ∧
        Unfinished s.channellist s.buf.unread) ∨
      (∃ pc, s.assembler = .call (.adv pc) ∧ s.buf.unread = []))

/-- The assembler does not move on from a starved call. -/
def neverStarved (s : Threads) (a : Act) : Prop := a = .assembler → ¬ Starved s

/-- The assembler is in a decoder call, or on its way out of one to the
signal. -/
def AssemblerPc.owesSignal : AssemblerPc → Bool
  | .call _ => true
  | .signalNull => true
  | .signalFrame _ => true
  | _ => false

/-- The reader is between setting and clearing `input_sleeping`. -/
def ReaderPc.inSleepLoop : ReaderPc → Bool
  | .check => true
  | .sleep => true
  | .waiting _ => true
  | _ => false

/-- What holds between any two steps: the flag follows the reader's program
counter, and bytes taken off a full buffer leave the assembler owing a signal
until it has given it. -/
structure Paired (s : Threads) : Prop where
  sleeping : s.reader.inSleepLoop = true → s.buf.inputSleeping = true
  owed : s.reader.unsignalled → gsm0710BufferLength s.buf < gsm0710BufferSize →
    s.assembler.owesSignal = true

theorem Paired.start (channellist : List Channel) : Paired (Threads.start channellist) := by
  refine ⟨fun h => ?_, fun h => ?_⟩
  · exact absurd h (by simp [Threads.start, ReaderPc.inSleepLoop])
  · rcases h with h | h <;> exact absurd h (by simp [Threads.start])

variable {s s' : Threads} {channellist : List Channel}

theorem Paired.noLostWakeup (h : Paired s) : NoLostWakeup s := by
  intro signalled _ hwaiting hbetween hfree
  cases signalled with
  | true => rfl
  | false =>
    have howes := h.owed (Or.inr hwaiting) hfree
    cases hpc : s.assembler <;> simp [hpc, AssemblerPc.owesSignal] at howes <;>
      simp [hpc, AssemblerPc.betweenPasses] at hbetween

/-- A turn of a call leaves `input_sleeping` alone. -/
def CallStep.Leaves (buf : Gsm0710Buffer) : CallStep → Prop
  | .goto _ buf' => buf'.inputSleeping = buf.inputSleeping
  | .frame _ buf' => buf'.inputSleeping = buf.inputSleeping
  | _ => True

/-- The analysis that asks for more bytes has the beginning of a frame. -/
theorem verdict_unfinished {ys : List UInt8}
    (h : verdict channellist ys = .short ∨ verdict channellist ys = .incomplete) :
    Unfinished channellist ys := by
  -- the announced length does not fit into what stands behind the header
  have hbody : ∀ {channel control fcs l : UInt8} {length : Nat} {body : List UInt8},
      (bodyVerdict channellist channel control fcs length l body = .short ∨
        bodyVerdict channellist channel control fcs length l body = .incomplete) →
      ∃ ch, channellist[channel.toNat]? = some ch ∧ (length : Int) ≤ ch.negotiatedN1 ∧
        body.length < length + 2 := by
    intro channel control fcs l length body hv
    unfold bodyVerdict at hv
    split at hv
    · simp at hv
    · next ch hch =>
      split at hv
      · simp at hv
      · next hN1 =>
        split at hv
        · split at hv
          · simp at hv
          · split at hv <;> simp at hv
        · next hshort =>
          refine ⟨ch, hch, by omega, ?_⟩
          rcases hdrop : body.drop length with _ | ⟨check, _ | ⟨last, rest⟩⟩
          · have := congrArg List.length hdrop
            simp only [length_drop, length_nil] at this
            omega
          · have := congrArg List.length hdrop
            simp only [length_drop, length_cons, length_nil] at this
            omega
          · exact absurd hdrop (hshort check last rest)
  unfold verdict at h
  split at h
  · next a c l x y rest =>
    split at h
    · next hl =>
      obtain ⟨ch, hch, hlen⟩ := hbody h
      exact ⟨ch, hch, by rw [if_pos hl]; exact hlen⟩
    · next hl =>
      obtain ⟨ch, hch, hlen⟩ := hbody h
      exact ⟨ch, hch, by rw [if_neg hl]; exact hlen⟩
  · next hys =>
    unfold Unfinished
    split
    · next a c l x y rest => exact absurd rfl (hys a c l x y rest)
    · trivial

/-! The two modes have one way each to return `NULL` without a signal. -/

theorem baseCallStep_inv (channellist : List Channel) (buf : Gsm0710Buffer) (pc : BasePc) :
    (baseCallStep channellist buf pc).Leaves buf ∧
      (baseCallStep channellist buf pc = .null →
        ∃ levels, pc = .analyze levels ∧ Unfinished channellist buf.unread) := by
  cases pc with
  | search levels =>
    cases levels with
    | zero => exact ⟨trivial, by simp [baseCallStep]⟩
    | succ levels =>
      simp only [baseCallStep]
      split
      · exact ⟨rfl, by simp⟩
      · split
        · exact ⟨trivial, by simp⟩
        · split <;> exact ⟨rfl, by simp⟩
  | skip levels =>
    simp only [baseCallStep]
    split <;> exact ⟨rfl, by simp⟩
  | analyze levels =>
    have hverdict := baseAnalyze_contents channellist buf.ring
    simp only [baseCallStep]
    cases hv : baseAnalyze channellist buf.ring with
    | short =>
      rw [hv] at hverdict
      exact ⟨trivial, fun _ => ⟨levels, rfl, verdict_unfinished (.inl hverdict.symm)⟩⟩
    | incomplete =>
      rw [hv] at hverdict
      exact ⟨trivial, fun _ => ⟨levels, rfl, verdict_unfinished (.inr hverdict.symm)⟩⟩
    | outOfTable => exact ⟨trivial, by simp⟩
    | drop rest | accept f rest => exact ⟨rfl, by simp⟩
  | commit levels found used => cases found <;> exact ⟨rfl, by simp [baseCallStep]⟩

theorem advCallStep_inv (buf : Gsm0710Buffer) (pc : AdvPc) :
    (advCallStep buf pc).Leaves buf ∧ (advCallStep buf pc = .null → buf.ring.datacount = 0) := by
  cases pc with
  | search =>
    simp only [advCallStep]
    split
    · exact ⟨rfl, by simp⟩
    · split
      · next h0 => exact ⟨trivial, fun _ => h0⟩
      · split <;> exact ⟨rfl, by simp⟩
  | skip =>
    simp only [advCallStep]
    split <;> exact ⟨rfl, by simp⟩
  | main =>
    simp only [advCallStep]
    split
    · next h0 => exact ⟨trivial, fun _ => h0⟩
    · split
      · split <;> exact ⟨rfl, by simp⟩
      · split
        · split
          · exact ⟨rfl, by simp⟩
          · split <;> exact ⟨rfl, by simp⟩
        · exact ⟨rfl, by simp⟩

theorem callStep_inv (channellist : List Channel) (buf : Gsm0710Buffer) (pc : CallPc) :
    (callStep channellist buf pc).Leaves buf ∧
      (callStep channellist buf pc = .null →
        (∃ levels, pc = .base (.analyze levels) ∧ Unfinished channellist buf.unread) ∨
          (∃ pc', pc = .adv pc' ∧ buf.unread = [])) := by
  cases pc with
  | base pc =>
    obtain ⟨hleaves, hnull⟩ := baseCallStep_inv channellist buf pc
    refine ⟨hleaves, fun h => .inl ?_⟩
    obtain ⟨levels, rfl, hpart⟩ := hnull h
    exact ⟨levels, rfl, hpart⟩
  | adv pc =>
    obtain ⟨hleaves, hnull⟩ := advCallStep_inv buf pc
    exact ⟨hleaves, fun h => .inr ⟨pc, rfl, Ring.contents_eq_nil.mpr (hnull h)⟩⟩

theorem unsignalled_inSleepLoop {pc : ReaderPc} (h : pc.unsignalled) : pc.inSleepLoop = true := by
  rcases h with rfl | rfl <;> rfl

theorem Paired.of_awake (h : s.reader.inSleepLoop = false) : Paired s := by
  refine ⟨fun hl => ?_, fun hu => ?_⟩
  · rw [h] at hl
    cases hl
  · rw [unsignalled_inSleepLoop hu] at h
    cases h

/-- As long as the reader cannot be overlooked, the flag is all there is. -/
theorem Paired.of_signalled (hsleep : s.reader ≠ .sleep) (hwaiting : s.reader ≠ .waiting false)
    (hflag : s.reader.inSleepLoop = true → s.buf.inputSleeping = true) : Paired s :=
  ⟨hflag, fun hu => (hu.elim hsleep hwaiting).elim⟩

theorem paired_reader (h : Paired s) (hstep : readerStep s = some s') : Paired s' := by
  obtain ⟨buf, channellist, reader, assembler⟩ := s
  cases reader with
  | enter =>
    simp only [readerStep] at hstep
    split at hstep <;> cases hstep <;> exact .of_awake rfl
  | read length | stopped => cases hstep
  | write input | signal =>
    cases hstep
    exact .of_awake rfl
  | announce =>
    obtain ⟨-, hstep⟩ := Option.ite_none_left_eq_some.mp hstep
    cases hstep
    exact .of_awake rfl
  | full =>
    cases hstep
    exact .of_signalled (by simp) (by simp) fun _ => rfl
  | check =>
    simp only [readerStep] at hstep
    split at hstep
    · cases hstep
      exact .of_awake rfl
    · next hfree =>
      -- the reader goes to sleep on a full buffer only
      cases hstep
      refine ⟨fun _ => h.sleeping rfl, fun _ hlt => ?_⟩
      unfold gsm0710BufferFree at hfree
      have hlt' : buf.ring.datacount < gsm0710BufferSize := hlt
      omega
  | sleep =>
    cases hstep
    exact ⟨fun _ => h.sleeping rfl, fun _ hlt => h.owed (.inl rfl) hlt⟩
  | waiting signalled =>
    obtain ⟨-, hstep⟩ := Option.ite_none_right_eq_some.mp hstep
    cases hstep
    exact .of_signalled (by simp) (by simp) fun _ => h.sleeping rfl

/-- A step inside the waiting loop, or out of it into a pass: the reader and
the count are untouched, and nothing was owed before. -/
theorem Paired.frame {s s' : Threads} (h : Paired s) (hreader : s'.reader = s.reader)
    (hflag : s'.buf.inputSleeping = s.buf.inputSleeping)
    (hcount : gsm0710BufferLength s'.buf = gsm0710BufferLength s.buf)
    (howes : s.assembler.owesSignal = false) : Paired s' := by
  refine ⟨fun hl => ?_, fun hu hlt => ?_⟩
  · rw [hflag]
    exact h.sleeping (by rw [← hreader]; exact hl)
  · have hsig := h.owed (by rw [← hreader]; exact hu) (by rw [← hcount]; exact hlt)
    rw [howes] at hsig
    cases hsig

/-- Giving the signal settles what was owed. -/
theorem Paired.signal (h : Paired s) (hlock : s.reader.holdsBufferready = false)
    (pc : AssemblerPc) :
    Paired { s with reader := signalReader s.buf.inputSleeping s.reader, assembler := pc } := by
  obtain ⟨buf, channellist, reader, assembler⟩ := s
  cases reader with
  | waiting signalled =>
    have hflag : buf.inputSleeping = true := h.sleeping rfl
    exact .of_signalled (by simp [signalReader]) (by simp [signalReader, hflag]) fun _ => hflag
  | check | sleep => cases hlock
  | _ => exact .of_awake rfl

variable {cmuxMode : Bool}

theorem paired_call {pc : CallPc} (h : Paired s) (hpc : s.assembler = .call pc)
    (hstarved : ¬ Starved s) (hstep : assemblerStep cmuxMode s = some s') : Paired s' := by
  simp only [assemblerStep, hpc] at hstep
  obtain ⟨hkeeps, hnull⟩ := callStep_inv s.channellist s.buf pc
  generalize callStep s.channellist s.buf pc = turn at hstep hkeeps hnull
  cases turn with
  | goto pc' buf' | frame f buf' =>
    cases hstep
    exact ⟨fun hl => hkeeps.trans (h.sleeping hl), fun _ _ => rfl⟩
  | null =>
    -- without a signal the call may only return to a full buffer
    cases hstep
    refine ⟨h.sleeping, fun hu hlt => absurd ⟨hu, hlt, ?_⟩ hstarved⟩
    rcases hnull rfl with ⟨levels, rfl, hpart⟩ | ⟨pc', rfl, hnil⟩
    · exact .inl ⟨levels, hpc, hpart⟩
    · exact .inr ⟨pc', hpc, hnil⟩
  | nullSignal =>
    cases hstep
    exact ⟨h.sleeping, fun _ _ => rfl⟩
  | assert index | outOfTable => cases hstep

theorem paired_assembler (h : Paired s)
    (hstarved : ¬ Starved s) (hstep : assemblerStep cmuxMode s = some s') : Paired s' := by
  obtain ⟨buf, channellist, reader, assembler⟩ := s
  cases assembler with
  | call pc => exact paired_call h rfl hstarved hstep
  | enter | clear | handle f =>
    cases hstep
    exact h.frame rfl rfl rfl rfl
  | testData | testSleeping =>
    simp only [assemblerStep] at hstep
    split at hstep <;> cases hstep <;> exact h.frame rfl rfl rfl rfl
  | waiting signalled =>
    obtain ⟨-, hstep⟩ := Option.ite_none_right_eq_some.mp hstep
    cases hstep
    exact h.frame rfl rfl rfl rfl
  | signalNull | signalFrame f =>
    obtain ⟨hlock, hstep⟩ := Option.ite_none_left_eq_some.mp hstep
    cases hstep
    exact h.signal (Bool.eq_false_iff.mpr hlock) _

/-- One step of either thread. -/
theorem paired_step {a : Act} (h : Paired s)
    (hcond : neverStarved s a) (hstep : threadStep cmuxMode s a = some s') : Paired s' := by
  cases a with
  | reader => exact paired_reader h hstep
  | assembler => exact paired_assembler h (hcond rfl) hstep
  | setChannels channellist =>
    cases hstep
    exact ⟨h.sleeping, h.owed⟩
  | stop =>
    obtain ⟨-, hstep⟩ := Option.ite_none_right_eq_some.mp hstep
    cases hstep
    exact .of_awake rfl
  | read input =>
    simp only [threadStep] at hstep
    split at hstep
    · split at hstep
      · cases hstep
        refine .of_awake ?_
        show (if input = [] then ReaderPc.enter else .write input).inSleepLoop = false
        split <;> rfl
      · cases hstep
    · cases hstep

/-- **The reader is woken.** In every run in which no decoder call goes on
from the end of its bytes next to an unsignalled reader and free space, a
reader that sleeps next to free space after a pass has been signalled. -/
theorem reader_woken {cmuxMode : Bool} {channellist : List Channel} {acts : List Act} {s : Threads}
    (h : Run (threadStep cmuxMode) neverStarved (Threads.start channellist) acts s) :
    NoLostWakeup s :=
  (h.invariant (fun _ _ _ => paired_step) (Paired.start channellist)).noLostWakeup

/-! ## Two runs over a full buffer -/

theorem neverStarved_reader (s : Threads) : neverStarved s .reader := fun h => absurd h (by simp)

/-- Outside the last turns of a call the condition asks nothing. -/
theorem neverStarved_of (hbase : ∀ levels, s.assembler ≠ .call (.base (.analyze levels)))
    (hadv : ∀ pc, s.assembler ≠ .call (.adv pc)) (a : Act) : neverStarved s a := by
  rintro - ⟨_, _, ⟨levels, hpc, _⟩ | ⟨pc, hpc, _⟩⟩
  · exact hbase levels hpc
  · exact hadv pc hpc

/-- The reader has filled the buffer in one go and sleeps; the assembler is
about to look at the first byte. -/
def Threads.filled (channellist : List Channel) (input : List UInt8) : Threads where
  buf :=
    { gsm0710BufferWrite (gsm0710BufferInit ⟨0, by decide⟩) input with
      newdataready := false, inputSleeping := true }
  channellist := channellist
  reader := .waiting false
  assembler := .call (callEntry false)

theorem unread_filled {input : List UInt8}
    (hlen : input.length = gsm0710BufferSize) :
    (Threads.filled channellist input).buf.unread = input := by
  have hfits : input.length ≤ gsm0710BufferFree (gsm0710BufferInit ⟨0, by decide⟩) := by
    rw [hlen]
    exact Nat.le_refl _
  exact (unread_write hfits).trans (nil_append _)

theorem filled_run (channellist : List Channel) {input : List UInt8}
    (hlen : input.length = gsm0710BufferSize) :
    ∃ acts, Run (threadStep false) neverStarved (Threads.start channellist) acts
      (Threads.filled channellist input) := by
  have hcount : ((gsm0710BufferInit ⟨0, by decide⟩).ring.write input).datacount
      = gsm0710BufferSize := by
    rw [← Ring.contents_length]
    exact (congrArg List.length (@unread_filled channellist input hlen)).trans hlen
  have hne : input ≠ [] := by
    rintro rfl
    cases hlen
  have hfull : ¬ gsm0710BufferSize
      - ((gsm0710BufferInit ⟨0, by decide⟩).ring.write input).datacount > 0 := by
    rw [hcount, Nat.sub_self]
    exact Nat.lt_irrefl 0
  have hdata : ((gsm0710BufferInit ⟨0, by decide⟩).ring.write input).datacount > 0 ∧
      true = true := ⟨by rw [hcount]; decide, rfl⟩
  have hreader := neverStarved_reader
  have hread : ∀ s, neverStarved s (.read input) := fun _ h => absurd h (by simp)
  have hwait : ∀ {s : Threads}, s.assembler.holdsNewdataready = true ∨ s.assembler = .enter →
      neverStarved s .assembler := by
    intro s hpc
    refine neverStarved_of (fun levels heq => ?_) (fun pc heq => ?_) _ <;>
      rw [heq] at hpc <;> exact absurd hpc (by simp [AssemblerPc.holdsNewdataready])
  refine ⟨[.reader, .read input, .reader, .reader, .reader, .reader, .reader, .reader, .reader,
    .assembler, .assembler, .assembler], ?_⟩
  refine .cons (hreader _) (show _ = some _ from rfl) ?_
  refine .cons (hread _) (by
    show (if input.length ≤ min gsm0710BufferSize gsm0710BufferSize then _ else _) = some _
    rw [if_pos (by rw [hlen]; decide), if_neg hne]) ?_
  refine .cons (hreader _) (show _ = some _ from rfl) ?_
  refine .cons (hreader _) (show _ = some _ from rfl) ?_
  refine .cons (hreader _) (show _ = some _ from rfl) ?_
  -- the buffer is full now, at both tests of the free space
  refine .cons (hreader _) (show _ = some _ from if_neg hfull) ?_
  refine .cons (hreader _) (show _ = some _ from rfl) ?_
  refine .cons (hreader _) (show _ = some _ from if_neg hfull) ?_
  refine .cons (hreader _) (show _ = some _ from rfl) ?_
  refine .cons (hwait (Or.inr rfl)) (show _ = some _ from rfl) ?_
  refine .cons (hwait (Or.inl rfl)) (show _ = some _ from if_pos hdata) ?_
  refine .cons (hwait (Or.inl rfl)) (show _ = some _ from rfl) ?_
  exact .nil _

/-- A basic-mode call goes over bytes that are no flags, one at a time. -/
theorem search_run {levels : Nat} (pre : List UInt8) {ys : List UInt8} {s : Threads}
    (hflag : gsm0710FrameFlag ∉ pre) (hpc : s.assembler = .call (.base (.search (levels + 1))))
    (hfound : s.buf.flagFound = false) (hcontents : s.buf.ring.contents = pre ++ ys) :
    ∃ acts ring, Run (threadStep false) neverStarved s acts
      { s with buf := { s.buf with ring := ring } } ∧ ring.contents = ys := by
  induction pre generalizing ys s with
  | nil => exact ⟨[], s.buf.ring, .nil s, hcontents⟩
  | cons b pre ih =>
    have hb : s.buf.ring.peek ≠ gsm0710FrameFlag := by
      rw [Ring.peek_of_contents hcontents]
      intro heq
      exact hflag (by rw [heq]; exact mem_cons_self)
    have h0 : s.buf.ring.datacount ≠ 0 := by
      rw [← Ring.contents_length, hcontents]
      simp
    have hstep : threadStep false s .assembler
        = some { s with buf := { s.buf with ring := s.buf.ring.inc } } := by
      simp only [threadStep, assemblerStep, hpc, callStep, baseCallStep, hfound,
        Bool.false_eq_true, if_false, if_neg h0, if_neg hb]
    have hcond : neverStarved s .assembler :=
      neverStarved_of (fun _ heq => by rw [hpc] at heq; simp at heq)
        (fun _ heq => by rw [hpc] at heq; simp at heq) _
    obtain ⟨acts, ring, hrun, hys⟩ := @ih ys { s with buf := { s.buf with ring := s.buf.ring.inc } }
      (fun hmem => hflag (mem_cons_of_mem b hmem)) hpc hfound (inc_contents_cons hcontents)
    exact ⟨.assembler :: acts, ring, .cons hcond hstep hrun, hys⟩

theorem search_done {levels : Nat} (hpc : s.assembler = .call (.base (.search (levels + 1))))
    (hfound : s.buf.flagFound = false) (h0 : s.buf.ring.datacount = 0) :
    threadStep false s .assembler = some { s with assembler := .signalNull } := by
  simp only [threadStep, assemblerStep, hpc, callStep, baseCallStep, hfound, Bool.false_eq_true,
    if_false, if_pos h0]

/-- Noise that fills the buffer is cleared away and the reader is signalled. -/
theorem reader_woken_after_noise :
    ∃ acts s, Run (threadStep false) neverStarved (Threads.start (idleMuxd false).channellist)
        acts s ∧
      NoLostWakeup s ∧ s.reader = .waiting true ∧ s.assembler = .enter ∧
      gsm0710BufferLength s.buf = 0 := by
  obtain ⟨acts₁, hrun₁⟩ := filled_run (idleMuxd false).channellist
    (length_replicate (n := gsm0710BufferSize) (a := (0 : UInt8)))
  obtain ⟨acts₂, ring, hrun₂, hnil⟩ := @search_run (maxResyncGetFrameCount - 1)
    (replicate gsm0710BufferSize 0) [] (Threads.filled (idleMuxd false).channellist
      (replicate gsm0710BufferSize 0))
    (fun hmem => absurd (eq_of_mem_replicate hmem) (by decide)) rfl rfl (by
      rw [append_nil]
      exact unread_filled length_replicate)
  have h0 : ring.datacount = 0 := Ring.contents_eq_nil.mp hnil
  generalize hmid : ({ Threads.filled (idleMuxd false).channellist
    (replicate gsm0710BufferSize 0) with
    buf := { (Threads.filled (idleMuxd false).channellist
      (replicate gsm0710BufferSize 0)).buf with ring := ring } } : Threads) = mid at hrun₂
  have hexit : threadStep false mid .assembler = some { mid with assembler := .signalNull } := by
    rw [← hmid]
    exact search_done rfl rfl h0
  have hsignal : threadStep false { mid with assembler := .signalNull } .assembler
      = some { mid with reader := .waiting true, assembler := .enter } := by
    rw [← hmid]
    rfl
  have hcond : neverStarved mid .assembler := by
    rw [← hmid]
    exact neverStarved_of (fun _ => by simp [Threads.filled, callEntry])
      (fun _ => by simp [Threads.filled, callEntry]) _
  have hcond' : neverStarved { mid with assembler := .signalNull } .assembler :=
    neverStarved_of (fun _ => by simp) (fun _ => by simp) _
  have hrun := (hrun₁.trans hrun₂).trans (.cons hcond hexit (.single hcond' hsignal))
  refine ⟨_, _, hrun, reader_woken hrun, rfl, rfl, ?_⟩
  rw [← hmid]
  exact h0

/-- A frame that has just started: the call takes the flag, finds fewer bytes
than a frame has, and returns without a signal. -/
theorem short_run {levels : Nat} {y : UInt8} {ys : List UInt8} {s : Threads}
    (hpc : s.assembler = .call (.base (.search (levels + 1)))) (hfound : s.buf.flagFound = false)
    (hcontents : s.buf.ring.contents = gsm0710FrameFlag :: y :: ys) (hy : y ≠ gsm0710FrameFlag)
    (hshort : ys.length < 4) :
    ∃ acts, Run (threadStep false) anyStep s acts
      { s with
        buf := { s.buf with ring := s.buf.ring.inc, flagFound := true }, assembler := .enter } := by
  have h0 : s.buf.ring.datacount ≠ 0 := by
    rw [← Ring.contents_length, hcontents]
    simp
  have hinc : s.buf.ring.inc.contents = y :: ys := inc_contents_cons hcontents
  have hcount : s.buf.ring.inc.datacount < 5 := by
    rw [← Ring.contents_length, hinc, length_cons]
    omega
  have hpeek : ¬ (s.buf.ring.inc.datacount ≠ 0 ∧ s.buf.ring.inc.peek = gsm0710FrameFlag) := by
    rw [Ring.peek_of_contents hinc]
    exact fun h => hy h.2
  refine ⟨[.assembler, .assembler, .assembler, .assembler], ?_⟩
  refine .cons trivial (by
    simp only [threadStep, assemblerStep, hpc, callStep, baseCallStep, hfound, Bool.false_eq_true,
      if_false, if_neg h0, if_pos (Ring.peek_of_contents hcontents)]; exact rfl) ?_
  refine .cons trivial (by
    simp only [threadStep, assemblerStep, callStep, baseCallStep, if_true]; exact rfl) ?_
  refine .cons trivial (by
    simp only [threadStep, assemblerStep, callStep, baseCallStep, if_neg hpeek]; exact rfl) ?_
  refine .single trivial ?_
  simp only [threadStep, assemblerStep, callStep, baseCallStep, baseAnalyze, if_pos hcount]

/-- The reader can be left asleep: noise that ends in the start of a frame
fills the buffer, the call uses up all but four bytes of it and returns
without a signal. -/
theorem reader_stranded :
    ¬ ∀ (cmuxMode : Bool) (channellist : List Channel) (acts : List Act) (s : Threads),
      Run (threadStep cmuxMode) anyStep (Threads.start channellist) acts s → NoLostWakeup s := by
  intro h
  have hlen : (replicate 4091 (0 : UInt8) ++ [gsm0710FrameFlag, 0, 0, 0, 0]).length
      = gsm0710BufferSize := by
    rw [length_append, length_replicate]
    rfl
  obtain ⟨acts₁, hrun₁⟩ := filled_run (idleMuxd false).channellist hlen
  obtain ⟨acts₂, ring, hrun₂, hring⟩ := @search_run (maxResyncGetFrameCount - 1)
    (replicate 4091 0) [gsm0710FrameFlag, 0, 0, 0, 0]
    (Threads.filled (idleMuxd false).channellist
      (replicate 4091 0 ++ [gsm0710FrameFlag, 0, 0, 0, 0]))
    (fun hmem => absurd (eq_of_mem_replicate hmem) (by decide)) rfl rfl (unread_filled hlen)
  obtain ⟨acts₃, hrun₃⟩ := @short_run (maxResyncGetFrameCount - 1) 0 [0, 0, 0]
    { Threads.filled (idleMuxd false).channellist
        (replicate 4091 0 ++ [gsm0710FrameFlag, 0, 0, 0, 0]) with
      buf := { (Threads.filled (idleMuxd false).channellist
        (replicate 4091 0 ++ [gsm0710FrameFlag, 0, 0, 0, 0])).buf with ring := ring } }
    rfl rfl hring (by decide) (by decide)
  have hrun := ((hrun₁.trans hrun₂).mono (fun _ _ _ => trivial)).trans hrun₃
  have hfree : ring.inc.datacount < gsm0710BufferSize := by
    rw [← Ring.contents_length, inc_contents_cons hring]
    decide
  exact absurd (h false _ _ _ hrun false rfl rfl rfl hfree) (by simp)

/-! ## No byte is lost between the threads -/

/-- What the reader has read and not stored yet. -/
def ReaderPc.inHand : ReaderPc → List UInt8
  | .write input => input
  | _ => []

/-- The space the reader counts on. -/
def ReaderPc.needs : ReaderPc → Nat
  | .read length => length
  | pc => pc.inHand.length

/-- The bytes that come in on the serial line. -/
def Act.bytes : Act → List UInt8
  | .read input => input
  | _ => []

/-- The bytes a turn of the assembler uses up: those the decoder moves the read
pointer over. -/
def Act.used (s s' : Threads) : Act → List UInt8
  | .assembler => s.buf.unread.take (gsm0710BufferLength s.buf - gsm0710BufferLength s'.buf)
  | _ => []

/-- `done` and the bytes the assembler has not taken yet are `stream`, and there
is space for those that are not stored. -/
structure Stored (done stream : List UInt8) (s : Threads) : Prop where
  space : s.reader.needs ≤ gsm0710BufferFree s.buf
  whole : done ++ (s.buf.unread ++ s.reader.inHand) = stream

/-- The buffer a turn leaves. -/
def CallStep.buffer? : CallStep → Option Gsm0710Buffer
  | .goto _ buf | .frame _ buf => some buf
  | _ => none

/-- A turn takes bytes off the front. -/
theorem callStep_suffix {buf buf' : Gsm0710Buffer} {pc : CallPc}
    (h : buf' ∈ (callStep channellist buf pc).buffer?) : buf'.unread <:+ buf.unread := by
  have hinc : buf.ring.inc.contents <:+ buf.unread := Ring.contents_inc buf.ring ▸ tail_suffix _
  have hskip : ∀ n, (buf.ring.skip n).contents <:+ buf.unread := by
    intro n
    by_cases hn : n ≤ buf.ring.datacount
    · exact Ring.contents_skip hn ▸ drop_suffix n _
    · rw [Ring.skip, dif_neg hn]
      exact suffix_rfl
  rcases pc with ((_ | levels) | levels | levels | ⟨levels, _ | f, used⟩) | (_ | _ | _)
  all_goals
    simp only [callStep, baseCallStep, advCallStep] at h
    repeat' split at h
    all_goals cases h
    all_goals first | exact suffix_rfl | exact hinc | exact hskip used

namespace Stored

variable {done stream : List UInt8} (h : Stored done stream s)
include h

/-- Nothing moves. -/
theorem same (hring : s'.buf.ring = s.buf.ring) (hhand : s'.reader.inHand = s.reader.inHand)
    (hneeds : s'.reader.needs ≤ s.reader.needs) : Stored done stream s' := by
  obtain ⟨hspace, hwhole⟩ := h
  unfold gsm0710BufferFree Gsm0710Buffer.unread at *
  rw [← hring] at hspace hwhole
  exact ⟨Nat.le_trans hneeds hspace, hhand ▸ hwhole⟩

/-- The assembler has taken bytes off the front. -/
theorem taken (hbuf : s'.buf.unread <:+ s.buf.unread) (hhand : s'.reader.inHand = s.reader.inHand)
    (hneeds : s'.reader.needs ≤ s.reader.needs) :
    Stored (done ++ Act.assembler.used s s') stream s' := by
  have hfront := suffix_iff_eq_append.mp hbuf
  have hle := hbuf.length_le
  simp only [Gsm0710Buffer.unread, Ring.contents_length] at hfront hle
  refine ⟨?_, ?_⟩
  · have hspace := h.space
    unfold gsm0710BufferFree at hspace ⊢
    omega
  · rw [← h.whole, hhand, append_assoc, ← append_assoc _ s'.buf.unread]
    exact congrArg (fun bs => done ++ (bs ++ s.reader.inHand)) hfront

/-- The reader stores what it has in hand. -/
theorem reader (hstep : readerStep s = some s') : Stored done stream s' := by
  obtain ⟨buf, channellist, reader, assembler⟩ := s
  cases reader with
  | enter =>
    simp only [readerStep] at hstep
    split at hstep <;> cases hstep
    · exact ⟨Nat.le_refl _, h.whole⟩
    · exact h.same rfl rfl (Nat.le_refl _)
  | write input =>
    cases hstep
    have hwrite : (buf.ring.write input).contents = buf.ring.contents ++ input :=
      Ring.contents_write_of_le h.space
    refine ⟨Nat.zero_le _, ?_⟩
    show done ++ ((buf.ring.write input).contents ++ []) = stream
    rw [hwrite, append_nil]
    exact h.whole
  | _ =>
    simp only [readerStep] at hstep
    repeat' split at hstep
    all_goals cases hstep
    all_goals exact h.same rfl rfl (Nat.le_refl _)

/-- The assembler uses bytes up from the front of the buffer. -/
theorem assembler (hstep : assemblerStep cmuxMode s = some s') :
    Stored (done ++ Act.assembler.used s s') stream s' := by
  obtain ⟨buf, channellist, reader, assembler⟩ := s
  cases assembler with
  | call pc =>
    have htake : ∀ buf' ∈ (callStep channellist buf pc).buffer?, buf'.unread <:+ buf.unread :=
      fun _ => callStep_suffix
    simp only [assemblerStep] at hstep
    generalize callStep channellist buf pc = turn at hstep htake
    cases turn with
    | goto pc' buf' | frame f buf' =>
      cases hstep
      exact h.taken (htake buf' rfl) rfl (Nat.le_refl _)
    | _ =>
      cases hstep
      all_goals exact h.taken suffix_rfl rfl (Nat.le_refl _)
  | signalNull | signalFrame f =>
    obtain ⟨-, hstep⟩ := Option.ite_none_left_eq_some.mp hstep
    cases hstep
    cases reader <;> exact h.taken suffix_rfl rfl (Nat.le_refl _)
  | _ =>
    simp only [assemblerStep] at hstep
    repeat' split at hstep
    all_goals cases hstep
    all_goals exact h.taken suffix_rfl rfl (Nat.le_refl _)

theorem read {input : List UInt8} (hstep : threadStep cmuxMode s (.read input) = some s') :
    Stored done (stream ++ input) s' := by
  obtain ⟨buf, channellist, reader, assembler⟩ := s
  cases reader with
  | read length =>
    obtain ⟨hle, hstep⟩ := Option.ite_none_right_eq_some.mp hstep
    cases hstep
    obtain ⟨hspace, hwhole⟩ := h
    have hend : done ++ (buf.unread ++ input) = stream ++ input := by
      rw [← hwhole, ← append_assoc]
      exact congrArg (done ++ · ++ input) (append_nil _).symm
    by_cases hnil : input = []
    · rw [if_pos hnil]
      exact ⟨Nat.zero_le _, hnil ▸ hend⟩
    · rw [if_neg hnil]
      exact ⟨Nat.le_trans (Nat.le_min.mp hle).1 hspace, hend⟩
  | _ => cases hstep

theorem step {a : Act} (hstep : threadStep cmuxMode s a = some s') :
    Stored (done ++ a.used s s') (stream ++ a.bytes) s' := by
  have hdone : done = done ++ [] := (append_nil done).symm
  have hstream : stream = stream ++ [] := (append_nil stream).symm
  cases a with
  | read input => exact hdone ▸ h.read hstep
  | assembler => exact hstream ▸ h.assembler hstep
  | reader => exact hdone ▸ hstream ▸ h.reader hstep
  | setChannels channellist =>
    cases hstep
    exact hdone ▸ hstream ▸ h.same rfl rfl (Nat.le_refl _)
  | stop =>
    obtain ⟨henter, hstep⟩ := Option.ite_none_right_eq_some.mp hstep
    cases hstep
    exact hdone ▸ hstream ▸ h.same rfl (henter ▸ rfl) (Nat.zero_le _)

end Stored

end Arale.Mux
