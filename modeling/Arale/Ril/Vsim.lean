import Mathlib.Algebra.GroupWithZero.Nat
import Arale.Lib.Resume
import Arale.Lib.LowBits
import Arale.Ril.StkDisplay

/-!
# The reader of the VSIM socket

`processVsimCommandsCallback` reads messages from the VSIM client in an endless
loop: a header, and behind it what the code expects for the message. Each field
is read by `blockingRead`, which calls `recv` until it has all bytes.

`vsimDecoder` is what the loop does to the stream, field by field, and `Reader`
is the loop itself, one `recv` at a time. Its environment is the list of the
results of `recv` to come; behind the list the peer has closed the connection,
and `recv` returns 0. A chunk that is longer than what is asked for is returned
in parts.

> `vsim_returns`: if `recv` fails at some point, the reader returns.

At the end of the stream `blockingRead` adds 0 to its offset and asks again
(`vsim_never_returns`).

Allocations succeed, and a slot without an entry in `s_ril_cntx` ends the
reader as `outside`.
-/

namespace Arale.Ril.Vsim

open List
open Arale.Lib (Decoder wordBytes wordOf wordOf_wordBytes)
open Arale.At (Line)
open Arale.Ril.Stk (hexText)

/-! ## What is read -/

/-- The header of a message. -/
structure VsimMessage where
  transactionId : UInt32
  messageId : UInt32
  slotId : UInt32
  length : UInt32
  deriving DecidableEq, Repr

/-- `MSG_ID_EVENT_REQUEST` -/
def msgIdEventRequest : UInt32 := 3

/-- `MSG_ID_UICC_RESET_RESPONSE` -/
def msgIdUiccResetResponse : UInt32 := 4

/-- `MSG_ID_UICC_APDU_RESPONSE` -/
def msgIdUiccApduResponse : UInt32 := 5

/-- `REQUEST_TYPE_ATR_EVENT` -/
def requestTypeAtrEvent : UInt32 := 1

/-- `REQUEST_TYPE_APDU_EVENT` -/
def requestTypeApduEvent : UInt32 := 2

/-- A header that is parsed, and the requests that are issued:
`RIL_LOCAL_REQUEST_VSIM_NOTIFICATION` and `RIL_LOCAL_REQUEST_VSIM_OPERATION`. -/
inductive VsimOutput where
  | header (msg : VsimMessage)
  | notification (socketId : Nat) (transactionId eventId simType : UInt32)
  | operation (socketId : Nat) (transactionId eventId result : UInt32) (data : Line)
  deriving DecidableEq, Repr

/-- The field that is read next, with what is known from the fields before. -/
inductive Phase where
  | header
  | eventId (msg : VsimMessage)
  | simType (msg : VsimMessage) (eventId : UInt32)
  | result (msg : VsimMessage)
  | dataLength (msg : VsimMessage) (result : UInt32)
  | data (msg : VsimMessage) (result dataLength : UInt32)
  | outside (slot : Nat)
  deriving DecidableEq, Repr

/-- The bytes of the field. -/
def Phase.len : Phase → Option Nat
  | .header => some 16
  | .eventId _ => some 4
  | .simType _ _ => some 4
  | .result _ => some 4
  | .dataLength _ _ => some 4
  | .data _ _ n => some n.toNat
  | .outside _ => none

def word (bytes : List UInt8) : UInt32 := ⟨wordOf bytes⟩

def headerOf (bytes : List UInt8) : VsimMessage where
  transactionId := word (bytes.take 4)
  messageId := word ((bytes.drop 4).take 4)
  slotId := word ((bytes.drop 8).take 4)
  length := word ((bytes.drop 12).take 4)

/-- The header as the client sends it. -/
def VsimMessage.encode (msg : VsimMessage) : List UInt8 :=
  wordBytes msg.transactionId.toBitVec ++ (wordBytes msg.messageId.toBitVec
    ++ (wordBytes msg.slotId.toBitVec ++ wordBytes msg.length.toBitVec))

/-- `NUM_ELEMS(s_ril_cntx)` -/
def numContexts : Nat := 4

/-- The request goes to `s_ril_cntx[(msg.slotId >> 1)]`. -/
def issue (msg : VsimMessage) (request : Nat → VsimOutput) : Phase × List VsimOutput :=
  if (msg.slotId >>> 1).toNat < numContexts then (.header, [request (msg.slotId >>> 1).toNat])
  else (.outside (msg.slotId >>> 1).toNat, [])

/-- What follows the header. -/
def behindHeader (msg : VsimMessage) : Phase :=
  if msg.messageId = msgIdEventRequest then .eventId msg
  else if msg.messageId = msgIdUiccResetResponse ∨ msg.messageId = msgIdUiccApduResponse then
    .result msg
  else .header

/-- What the loop does with the bytes of a field. -/
def Phase.next : Phase → List UInt8 → Phase × List VsimOutput
  | .header, bytes => (behindHeader (headerOf bytes), [.header (headerOf bytes)])
  | .eventId msg, bytes => (.simType msg (word bytes), [])
  | .simType msg id, bytes =>
    issue msg fun socketId => .notification socketId msg.transactionId id (word bytes)
  | .result msg, bytes => (.dataLength msg (word bytes), [])
  | .dataLength msg r, bytes => (.data msg r (word bytes), [])
  | .data msg r _, bytes =>
    let id :=
      if msg.messageId = msgIdUiccResetResponse then requestTypeAtrEvent else requestTypeApduEvent
    issue msg fun socketId => .operation socketId msg.transactionId id r (hexText bytes)
  | .outside slot, _ => (.outside slot, [])

/-- A field is read as soon as all its bytes are there. -/
def fieldStep (phase : Phase) (xs : List UInt8) :
    Option (Phase × List UInt8 × List VsimOutput) :=
  match phase.len with
  | none => none
  | some n =>
    if n ≤ xs.length then
      some ((phase.next (xs.take n)).1, xs.drop n, (phase.next (xs.take n)).2)
    else none

variable {phase : Phase} {n : Nat}

theorem fieldStep_some (hn : phase.len = some n) (xs : List UInt8)
    (h : n ≤ xs.length) : fieldStep phase xs =
      some ((phase.next (xs.take n)).1, xs.drop n, (phase.next (xs.take n)).2) := by
  rw [fieldStep, hn]
  exact if_pos h

theorem fieldStep_none (hn : phase.len = some n) {xs : List UInt8}
    (h : xs.length < n) : fieldStep phase xs = none := by
  rw [fieldStep, hn]
  exact if_neg (Nat.not_le_of_lt h)

theorem fieldStep_append {phase' : Phase} {xs ys : List UInt8} {os : List VsimOutput}
    (h : fieldStep phase xs = some (phase', ys, os)) (zs : List UInt8) :
    fieldStep phase (xs ++ zs) = some (phase', ys ++ zs, os) := by
  cases hn : phase.len with
  | none =>
    rw [fieldStep, hn] at h
    cases h
  | some n =>
    rcases Nat.lt_or_ge xs.length n with hshort | hlong
    · rw [fieldStep_none hn hshort] at h
      cases h
    · rw [fieldStep_some hn xs hlong] at h
      obtain ⟨rfl, rfl, rfl⟩ : _ ∧ _ ∧ _ := by
        simpa only [Option.some.injEq, Prod.mk.injEq] using h
      have hmore : n ≤ (xs ++ zs).length := by
        rw [length_append]
        omega
      rw [fieldStep_some hn _ hmore, take_append_of_le_length hlong,
        drop_append_of_le_length hlong]

def vsimDecoder : Decoder Phase UInt8 VsimOutput where
  step := fieldStep
  step_append := fieldStep_append

/-- A field that stands at the front of the stream. -/
theorem field_steps {phase : Phase} {n : Nat} (hn : phase.len = some n) {field : List UInt8}
    (hfield : field.length = n) (rest : List UInt8) :
    vsimDecoder.Steps phase (field ++ rest) (phase.next field).1 rest (phase.next field).2 := by
  apply Decoder.Steps.single
  have hlen : n ≤ (field ++ rest).length := by
    rw [length_append]
    omega
  have hstep := fieldStep_some hn (field ++ rest) hlen
  rw [← hfield, take_left, drop_left] at hstep
  exact hstep

/-! ## The loop -/

/-- A result of `recv`; `error` stands for all error numbers but `EINTR` and
`EAGAIN`. -/
inductive Recv where
  | data (bytes : List UInt8)
  | eintr
  | eagain
  | error (errno : Int)
  deriving DecidableEq, Repr

inductive Received where
  | bytes (bs : List UInt8)
  | again
  | failed
  deriving DecidableEq, Repr

/-- `recv` for at most `n` bytes, and the results to come. -/
def recv (n : Nat) : List Recv → Received × List Recv
  | [] => (.bytes [], [])
  | .data bs :: env =>
    (.bytes (bs.take n), if n < bs.length then .data (bs.drop n) :: env else env)
  | .eintr :: env => (.again, env)
  | .eagain :: env => (.again, env)
  | .error _ :: env => (.failed, env)

/-- `blockingRead` in its loop: the bytes that are asked for, those that are
there, and the results of `recv` to come. -/
structure ReadState where
  len : Nat
  got : List UInt8
  env : List Recv
  deriving DecidableEq, Repr

/-- `blockingRead` goes on, or it returns 0 or -1. -/
inductive ReadStep where
  | reading (r : ReadState)
  | done (r : ReadState)
  | failed
  deriving DecidableEq, Repr

/-- One `recv` of `blockingRead`. The inner loop repeats the same call. -/
def readStep (r : ReadState) : ReadStep :=
  if r.got.length < r.len then
    match recv (r.len - r.got.length) r.env with
    | (.bytes bs, env) => .reading ⟨r.len, r.got ++ bs, env⟩
    | (.again, env) => .reading { r with env := env }
    | (.failed, _) => .failed
  else .done r

/-- `blockingRead` for a number of steps. -/
def blockingRead : Nat → ReadState → ReadStep
  | 0, r => .reading r
  | n + 1, r =>
    match readStep r with
    | .reading r' => blockingRead n r'
    | .done r' => .done r'
    | .failed => .failed

def ReadStep.returned : ReadStep → Bool
  | .reading _ => false
  | .done _ => true
  | .failed => true

/-- `processVsimCommandsCallback` in its loop, with what it did. -/
structure Reader where
  phase : Phase
  read : ReadState
  log : List VsimOutput
  deriving DecidableEq, Repr

/-- The loop goes on, the function returns, or `s_ril_cntx` is read outside. -/
inductive VsimStep where
  | running (r : Reader)
  | returned (log : List VsimOutput)
  | outside (slot : Nat) (log : List VsimOutput)
  deriving DecidableEq, Repr

/-- `blockingRead` is called for the field. -/
def Reader.enter (phase : Phase) (env : List Recv) (log : List VsimOutput) : Reader :=
  ⟨phase, ⟨phase.len.getD 0, [], env⟩, log⟩

/-- What the loop does with the result of `blockingRead`. -/
def afterRead (r : Reader) : ReadStep → VsimStep
  | .reading read => .running { r with read := read }
  | .done read =>
    .running (.enter (r.phase.next read.got).1 read.env (r.log ++ (r.phase.next read.got).2))
  | .failed => .returned r.log

def vsimStep (r : Reader) : VsimStep :=
  match r.phase with
  | .outside slot => .outside slot r.log
  | _ => afterRead r (readStep r.read)

/-- `processVsimCommandsCallback` for a number of steps. -/
def processVsimCommandsCallback : Nat → Reader → VsimStep
  | 0, r => .running r
  | n + 1, r =>
    match vsimStep r with
    | .running r' => processVsimCommandsCallback n r'
    | .returned log => .returned log
    | .outside slot log => .outside slot log

def Reader.start (env : List Recv) : Reader := .enter .header env []

def VsimStep.log : VsimStep → List VsimOutput
  | .running r => r.log
  | .returned log => log
  | .outside _ log => log

/-! ## Steps of the loop are steps of the decoder -/

/-- The bytes of a result. -/
def Recv.bytes : Recv → List UInt8
  | .data bs => bs
  | _ => []

/-- The bytes that are still to come. -/
def streamOf (env : List Recv) : List UInt8 := env.flatMap Recv.bytes

/-- A number that every `recv` lowers until the list is empty. -/
def recvSize (env : List Recv) : Nat := (env.map fun r => r.bytes.length + 1).sum

/-- The results to come behind a `recv` that returned `bs`. -/
structure Later (env : List Recv) (bs : List UInt8) (env' : List Recv) : Prop where
  stream : streamOf env = bs ++ streamOf env'
  error : ∀ e, .error e ∈ env' ↔ .error e ∈ env
  size : recvSize env' < recvSize env

theorem Later.tail {r : Recv} (env : List Recv) (hr : ∀ e, r ≠ .error e) :
    Later (r :: env) r.bytes env where
  stream := rfl
  error e := by simp [(hr e).symm]
  size := by
    simp only [recvSize, map_cons, sum_cons]
    omega

theorem Later.part {bs : List UInt8} (env : List Recv) (hn : 0 < n) (hlt : n < bs.length) :
    Later (.data bs :: env) (bs.take n) (.data (bs.drop n) :: env) where
  stream := by
    change bs ++ streamOf env = bs.take n ++ (bs.drop n ++ streamOf env)
    rw [← append_assoc, take_append_drop]
  error e := by simp
  size := by
    simp only [recvSize, map_cons, sum_cons, Recv.bytes, length_drop]
    omega

/-- The ways of a `recv`: the end of the stream, bytes, a signal, an error. -/
theorem recv_cases (hn : 0 < n) (env : List Recv) :
    (env = [] ∧ recv n env = (.bytes [], []))
      ∨ (∃ bs env', recv n env = (.bytes bs, env') ∧ Later env bs env' ∧ bs.length ≤ n)
      ∨ (∃ env', recv n env = (.again, env') ∧ Later env [] env')
      ∨ ∃ e env', recv n env = (.failed, env') ∧ env = .error e :: env' := by
  cases env with
  | nil => exact Or.inl ⟨rfl, rfl⟩
  | cons r env =>
    right
    cases r with
    | data bs =>
      left
      rcases Nat.lt_or_ge n bs.length with hlt | hge
      · refine ⟨bs.take n, .data (bs.drop n) :: env, ?_, .part env hn hlt, length_take_le n bs⟩
        simp only [recv, if_pos hlt]
      · refine ⟨bs, env, ?_, .tail env (by simp), hge⟩
        simp only [recv, if_neg (Nat.not_lt_of_le hge), take_of_length_le hge]
    | eintr | eagain => exact Or.inr (Or.inl ⟨env, rfl, .tail env (by simp)⟩)
    | error e => exact Or.inr (Or.inr ⟨e, env, rfl, rfl⟩)

/-- The ways of a step of `blockingRead`. -/
theorem readStep_cases (r : ReadState) :
    (r.len ≤ r.got.length ∧ readStep r = .done r)
      ∨ r.got.length < r.len ∧
        ((r.env = [] ∧ readStep r = .reading r)
          ∨ (∃ bs env', readStep r = .reading ⟨r.len, r.got ++ bs, env'⟩ ∧ Later r.env bs env'
            ∧ r.got.length + bs.length ≤ r.len)
          ∨ ∃ e env', r.env = .error e :: env' ∧ readStep r = .failed) := by
  obtain ⟨len, got, env⟩ := r
  rcases Nat.lt_or_ge got.length len with hlt | hge
  · refine Or.inr ⟨hlt, ?_⟩
    have hn : 0 < len - got.length := by omega
    rcases recv_cases hn env with
      ⟨henv, heq⟩ | ⟨bs, env', heq, hlater, hle⟩ | ⟨env', heq, hlater⟩ | ⟨e, env', heq, henv⟩
    · subst henv
      refine Or.inl ⟨rfl, ?_⟩
      simp only [readStep, if_pos hlt, heq, append_nil]
    · right; left
      refine ⟨bs, env', ?_, hlater, by simp only; omega⟩
      simp only [readStep, if_pos hlt, heq]
    · right; left
      refine ⟨[], env', ?_, hlater, by simpa using Nat.le_of_lt hlt⟩
      simp only [readStep, if_pos hlt, heq, append_nil]
    · right; right
      refine ⟨e, env', henv, ?_⟩
      simp only [readStep, if_pos hlt, heq]
  · exact Or.inl ⟨hge, if_neg (Nat.not_lt_of_le hge)⟩

/-- The ways of a step of the loop. -/
theorem vsimStep_cases (r : Reader) :
    (∃ slot, r.phase = .outside slot ∧ vsimStep r = .outside slot r.log)
      ∨ ∃ n, r.phase.len = some n ∧ vsimStep r = afterRead r (readStep r.read) := by
  obtain ⟨phase, read, log⟩ := r
  cases phase with
  | outside slot => exact Or.inl ⟨slot, rfl, rfl⟩
  | _ => exact Or.inr ⟨_, rfl, rfl⟩

variable {r : Reader}

/-- The state that a number of steps leads to, or the one before the function
ends, has what every step preserves. -/
theorem process_invariant {Inv : Reader → Prop}
    (hstep : ∀ r r', Inv r → vsimStep r = .running r' → Inv r') (n : Nat) (h : Inv r) :
    ∃ r', Inv r' ∧ (processVsimCommandsCallback n r = .running r'
      ∨ (∃ log, processVsimCommandsCallback n r = .returned log ∧ vsimStep r' = .returned log)
      ∨ ∃ slot log, processVsimCommandsCallback n r = .outside slot log
        ∧ vsimStep r' = .outside slot log) := by
  induction n generalizing r with
  | zero => exact ⟨r, h, Or.inl rfl⟩
  | succ n ih =>
    unfold processVsimCommandsCallback
    cases hr : vsimStep r with
    | running r' => exact ih (hstep r r' h hr)
    | returned log => exact ⟨r, h, Or.inr (Or.inl ⟨log, rfl, hr⟩)⟩
    | outside slot log => exact ⟨r, h, Or.inr (Or.inr ⟨slot, log, rfl, hr⟩)⟩

theorem vsimStep_returned {log : List VsimOutput} (h : vsimStep r = .returned log) :
    log = r.log ∧ ∃ e env', r.read.env = .error e :: env' := by
  rcases vsimStep_cases r with ⟨slot, -, heq⟩ | ⟨n, -, heq⟩
  · rw [heq] at h
    cases h
  · rw [heq] at h
    rcases readStep_cases r.read with ⟨-, hread⟩ |
      ⟨-, ⟨-, hread⟩ | ⟨_, _, hread, -⟩ | ⟨e, env', henv, hread⟩⟩
    · rw [hread] at h
      cases h
    · rw [hread] at h
      cases h
    · rw [hread] at h
      cases h
    · rw [hread] at h
      cases h
      exact ⟨rfl, e, env', henv⟩

theorem vsimStep_outside {slot : Nat} {log : List VsimOutput}
    (h : vsimStep r = .outside slot log) : log = r.log ∧ r.phase = .outside slot := by
  rcases vsimStep_cases r with ⟨slot', hphase, heq⟩ | ⟨n, -, heq⟩
  · rw [heq] at h
    cases h
    exact ⟨rfl, hphase⟩
  · rw [heq] at h
    cases hread : readStep r.read with
    | reading read | done read | failed =>
      rw [hread] at h
      cases h

/-- What a step of a loop that goes on did: a field was read, nothing came, or
a part of a field came. -/
theorem vsimStep_running {r' : Reader} (h : vsimStep r = .running r') :
    ∃ n, r.phase.len = some n ∧
      ((r.read.len ≤ r.read.got.length
          ∧ r' = .enter (r.phase.next r.read.got).1 r.read.env
            (r.log ++ (r.phase.next r.read.got).2))
        ∨ r.read.got.length < r.read.len ∧
          ((r.read.env = [] ∧ r' = r)
            ∨ ∃ bs env', r' = { r with read := ⟨r.read.len, r.read.got ++ bs, env'⟩ }
              ∧ Later r.read.env bs env' ∧ r.read.got.length + bs.length ≤ r.read.len)) := by
  rcases vsimStep_cases r with ⟨slot, -, heq⟩ | ⟨n, hn, heq⟩
  · rw [heq] at h
    cases h
  · rw [heq] at h
    refine ⟨n, hn, ?_⟩
    rcases readStep_cases r.read with
      ⟨hle, hread⟩ | ⟨hlt, ⟨henv, hread⟩ | ⟨bs, env', hread, hlater, hlen⟩ | ⟨e, env', henv, hread⟩⟩
    · rw [hread] at h
      cases h
      exact Or.inl ⟨hle, rfl⟩
    · rw [hread] at h
      cases h
      exact Or.inr ⟨hlt, Or.inl ⟨henv, rfl⟩⟩
    · rw [hread] at h
      cases h
      exact Or.inr ⟨hlt, Or.inr ⟨bs, env', rfl, hlater, hlen⟩⟩
    · rw [hread] at h
      cases h

/-- The fields read so far, and the bytes of the next one, are what came from
the stream. -/
structure Reader.Sound (stream : List UInt8) (r : Reader) : Prop where
  len : r.read.len = r.phase.len.getD 0
  got : r.read.got.length ≤ r.read.len
  steps : ∃ taken, stream = taken ++ streamOf r.read.env
    ∧ vsimDecoder.Steps .header taken r.phase r.read.got r.log

theorem Reader.Sound.start (env : List Recv) : (Reader.start env).Sound (streamOf env) where
  len := rfl
  got := Nat.zero_le _
  steps := ⟨[], rfl, .refl _ _⟩

theorem Reader.Sound.step {stream : List UInt8} (r r' : Reader) (h : r.Sound stream)
    (hstep : vsimStep r = .running r') : r'.Sound stream := by
  obtain ⟨taken, hstream, hsteps⟩ := h.steps
  obtain ⟨n, hn, ⟨hle, rfl⟩ | ⟨-, ⟨-, rfl⟩ | ⟨bs, env', rfl, hlater, hlen⟩⟩⟩ :=
    vsimStep_running hstep
  · have hgot : r.read.got.length = n := by
      have hlen := h.len
      rw [hn, Option.getD_some] at hlen
      have hgot := h.got
      omega
    refine ⟨rfl, Nat.zero_le _, taken, hstream, hsteps.trans ?_⟩
    have hfield := field_steps hn hgot []
    rwa [append_nil] at hfield
  · exact h
  · refine ⟨h.len, ?_, taken ++ bs, ?_, hsteps.append bs⟩
    · rw [length_append]
      exact hlen
    · rw [append_assoc, ← hlater.stream]
      exact hstream

/-- What the reader did is what the decoder does with the beginning of the
stream. -/
theorem process_steps {stream : List UInt8} (n : Nat) (h : r.Sound stream) :
    ∃ taken rest phase got, stream = taken ++ rest
      ∧ vsimDecoder.Steps .header taken phase got (processVsimCommandsCallback n r).log := by
  obtain ⟨r', hsound, hend⟩ := process_invariant Reader.Sound.step n h
  obtain ⟨taken, hstream, hsteps⟩ := hsound.steps
  refine ⟨taken, _, r'.phase, r'.read.got, hstream, ?_⟩
  rcases hend with heq | ⟨log, heq, hlast⟩ | ⟨slot, log, heq, hlast⟩
  · rw [heq]
    exact hsteps
  · rw [heq, VsimStep.log, (vsimStep_returned hlast).1]
    exact hsteps
  · rw [heq, VsimStep.log, (vsimStep_outside hlast).1]
    exact hsteps

/-! ## The end of the list -/

/-- The steps that are possible without a `recv`: behind `data_length` the data
may be empty, and behind the data there is a header. -/
def Reader.ready (r : Reader) : Nat :=
  if r.read.got.length < r.read.len then 0
  else
    match r.phase with
    | .data _ _ _ => 1
    | .outside _ => 0
    | _ => 2

theorem ready_le (r : Reader) : r.ready ≤ 2 := by
  unfold Reader.ready
  split
  · omega
  · split <;> omega

/-- A field that is not empty, and the end behind a slot that is unknown, need
a `recv` or nothing at all. -/
theorem ready_enter (h : phase.len.getD 1 ≠ 0) (env : List Recv)
    (log : List VsimOutput) : (Reader.enter phase env log).ready = 0 := by
  cases phase with
  | data msg r n => exact if_pos (Nat.pos_of_ne_zero h)
  | _ => rfl

theorem issue_phase (msg : VsimMessage) (request : Nat → VsimOutput) :
    (issue msg request).1.len.getD 1 ≠ 0 := by
  unfold issue
  split <;> exact Nat.succ_ne_zero _

theorem ready_next (hn : r.phase.len = some n)
    (hle : r.read.len ≤ r.read.got.length) (bytes : List UInt8) (env : List Recv)
    (log : List VsimOutput) : (Reader.enter (r.phase.next bytes).1 env log).ready < r.ready := by
  obtain ⟨phase, read, rlog⟩ := r
  have hfull : ¬read.got.length < read.len := Nat.not_lt_of_le hle
  cases phase with
  | header =>
    have hphase : (behindHeader (headerOf bytes)).len.getD 1 ≠ 0 := by
      unfold behindHeader
      split
      · exact Nat.succ_ne_zero _
      · split <;> exact Nat.succ_ne_zero _
    rw [Phase.next, ready_enter hphase, Reader.ready, if_neg hfull]
    exact Nat.two_pos
  | eventId msg =>
    have hphase : (Phase.simType msg (word bytes)).len.getD 1 ≠ 0 := Nat.succ_ne_zero _
    rw [Phase.next, ready_enter hphase, Reader.ready, if_neg hfull]
    exact Nat.two_pos
  | simType msg id =>
    rw [Phase.next, ready_enter (issue_phase msg _), Reader.ready, if_neg hfull]
    exact Nat.two_pos
  | result msg =>
    have hphase : (Phase.dataLength msg (word bytes)).len.getD 1 ≠ 0 := Nat.succ_ne_zero _
    rw [Phase.next, ready_enter hphase, Reader.ready, if_neg hfull]
    exact Nat.two_pos
  | dataLength msg res =>
    -- the data may be empty
    rw [Phase.next, Reader.ready, Reader.ready, if_neg hfull]
    split
    · exact Nat.two_pos
    · exact Nat.one_lt_two
  | data msg res len =>
    rw [Phase.next, ready_enter (issue_phase msg _), Reader.ready, if_neg hfull]
    exact Nat.one_pos
  | outside slot => cases hn

/-- Every step before the end of the list lowers this. -/
def Reader.measure (r : Reader) : Nat := 3 * recvSize r.read.env + r.ready

theorem measure_step {r' : Reader} (h : vsimStep r = .running r') :
    (r.read.got.length < r.read.len ∧ r.read.env = []) ∨ r'.measure < r.measure := by
  obtain ⟨n, hn, ⟨hle, rfl⟩ | ⟨hlt, ⟨henv, rfl⟩ | ⟨bs, env', rfl, hlater, -⟩⟩⟩ := vsimStep_running h
  · right
    exact Nat.add_lt_add_left (ready_next hn hle _ _ _) _
  · exact Or.inl ⟨hlt, henv⟩
  · have hsize := hlater.size
    have hready := ready_le { r with read := ⟨r.read.len, r.read.got ++ bs, env'⟩ }
    unfold Reader.measure
    simp only at hready ⊢
    omega

/-- The reader ends, or it comes to the end of the stream. -/
theorem process_settles (r : Reader) : ∃ n,
    (∃ log, processVsimCommandsCallback n r = .returned log)
      ∨ (∃ slot log, processVsimCommandsCallback n r = .outside slot log)
      ∨ ∃ r', processVsimCommandsCallback n r = .running r' ∧ r'.read.env = []
        ∧ r'.read.got.length < r'.read.len := by
  induction hm : r.measure using Nat.strongRecOn generalizing r with
  | _ m ih =>
    cases hstep : vsimStep r with
    | returned log => exact ⟨1, Or.inl ⟨log, by simp only [processVsimCommandsCallback, hstep]⟩⟩
    | outside slot log =>
      exact ⟨1, Or.inr (Or.inl ⟨slot, log, by simp only [processVsimCommandsCallback, hstep]⟩)⟩
    | running r' =>
      rcases measure_step hstep with ⟨hlt, henv⟩ | hlower
      · exact ⟨0, Or.inr (Or.inr ⟨r, rfl, henv, hlt⟩)⟩
      · obtain ⟨n, hn⟩ := ih r'.measure (hm ▸ hlower) r' rfl
        refine ⟨n + 1, ?_⟩
        have hnext : processVsimCommandsCallback (n + 1) r = processVsimCommandsCallback n r' := by
          simp only [processVsimCommandsCallback, hstep]
        rw [hnext]
        exact hn

theorem error_step {e : Int} (r r' : Reader) (h : .error e ∈ r.read.env)
    (hstep : vsimStep r = .running r') : .error e ∈ r'.read.env := by
  obtain ⟨n, hn, ⟨-, rfl⟩ | ⟨-, ⟨-, rfl⟩ | ⟨bs, env', rfl, hlater, -⟩⟩⟩ := vsimStep_running hstep
  · exact h
  · exact h
  · exact (hlater.error e).mpr h

theorem noError_step (r r' : Reader) (h : ∀ e, .error e ∉ r.read.env)
    (hstep : vsimStep r = .running r') : ∀ e, .error e ∉ r'.read.env := by
  obtain ⟨n, hn, ⟨-, rfl⟩ | ⟨-, ⟨-, rfl⟩ | ⟨bs, env', rfl, hlater, -⟩⟩⟩ := vsimStep_running hstep
  · exact h
  · exact h
  · exact fun e he => h e ((hlater.error e).mp he)

/-- Without an error the function does not return. -/
theorem vsim_never_returns {env : List Recv} (h : ∀ e, .error e ∉ env) (n : Nat)
    (log : List VsimOutput) : processVsimCommandsCallback n (.start env) ≠ .returned log := by
  intro hreturned
  obtain ⟨r, hnone, hend⟩ := process_invariant noError_step n (r := .start env) h
  rcases hend with heq | ⟨log', -, hlast⟩ | ⟨slot, log', heq, -⟩
  · rw [hreturned] at heq
    cases heq
  · obtain ⟨-, e, env', henv⟩ := vsimStep_returned hlast
    exact hnone e (henv ▸ mem_cons_self)
  · rw [hreturned] at heq
    cases heq

/-! ## The end of the connection -/

theorem blockingRead_returns {r : ReadState}
    (h : (∃ e, .error e ∈ r.env) ∨ r.len ≤ r.got.length + (streamOf r.env).length) :
    ∃ n, (blockingRead n r).returned = true := by
  induction hm : recvSize r.env using Nat.strongRecOn generalizing r with
  | _ m ih =>
    rcases readStep_cases r with
      ⟨hle, hread⟩ | ⟨hlt, ⟨henv, hread⟩ | ⟨bs, env', hread, hlater, hlen⟩ | ⟨e, env', henv, hread⟩⟩
    · exact ⟨1, by simp only [blockingRead, hread, ReadStep.returned]⟩
    · rw [henv] at h
      rcases h with ⟨e, he⟩ | hlen
      · cases he
      · rw [streamOf, flatMap_nil, length_nil] at hlen
        omega
    · have hnext : (∃ e, .error e ∈ env')
          ∨ r.len ≤ (r.got ++ bs).length + (streamOf env').length := by
        refine h.imp (fun ⟨e, he⟩ => ⟨e, (hlater.error e).mpr he⟩) fun hle => ?_
        rw [hlater.stream, length_append] at hle
        rw [length_append]
        omega
      obtain ⟨n, hn⟩ := @ih (recvSize env') (hm ▸ hlater.size) ⟨r.len, r.got ++ bs, env'⟩ hnext rfl
      exact ⟨n + 1, by simpa only [blockingRead, hread] using hn⟩
    · exact ⟨1, by simp only [blockingRead, hread, ReadStep.returned]⟩

/-- With an error on the way the functions return; `blockingRead` also does if
there are enough bytes. -/
theorem vsim_returns (env : List Recv) (herror : ∃ e, .error e ∈ env)
    (hslots : ∀ n slot log, processVsimCommandsCallback n (.start env) ≠ .outside slot log) :
    (∀ len, ∃ n, (blockingRead n ⟨len, [], env⟩).returned = true)
      ∧ ∃ n log, processVsimCommandsCallback n (.start env) = .returned log := by
  refine ⟨fun len => blockingRead_returns (Or.inl herror), ?_⟩
  obtain ⟨n, ⟨log, heq⟩ | ⟨slot, log, heq⟩ | ⟨r', heq, hempty, -⟩⟩ := process_settles (.start env)
  · exact ⟨n, log, heq⟩
  · exact absurd heq (hslots n slot log)
  · obtain ⟨e, he⟩ := herror
    obtain ⟨r, hr, hend⟩ := process_invariant error_step n (r := .start env) he
    rcases hend with hrun | ⟨log, hrun, -⟩ | ⟨slot, log, hrun, -⟩
    · rw [heq] at hrun
      cases hrun
      rw [hempty] at hr
      cases hr
    · rw [heq] at hrun
      cases hrun
    · rw [heq] at hrun
      cases hrun

/-- A header for nothing, cut by a signal, and the connection is reset. -/
def resetConnection : List Recv := [.data (VsimMessage.encode ⟨1, 1, 1, 0⟩), .eintr, .error 104]

theorem vsim_returns_reset :
    Recv.error 104 ∈ resetConnection
      ∧ ∃ n log, processVsimCommandsCallback n (.start resetConnection) = .returned log := by
  refine ⟨by decide, (vsim_returns resetConnection ⟨104, by decide⟩ ?_).2⟩
  intro n slot log h
  rcases n with _ | _ | _ | _ | n
  · cases h
  · cases h
  · cases h
  · cases h
  · cases h

/-- The peer has closed the connection: `recv` returns 0, and both loops stay
where they are. -/
theorem vsim_stuck :
    streamOf [] = [] ∧ (∀ n, blockingRead n ⟨16, [], []⟩ = .reading ⟨16, [], []⟩)
      ∧ ∀ n, processVsimCommandsCallback n (.start []) = .running (.start []) := by
  refine ⟨rfl, fun n => ?_, fun n => ?_⟩
  · induction n with
    | zero => rfl
    | succ n ih => exact ih
  · induction n with
    | zero => rfl
    | succ n ih => exact ih

end Arale.Ril.Vsim
