import Arale.Lib.Pool
import Arale.Mux.Flow

/-!
# Data reaches the PTY in order

The payload of a data frame takes one of two routes: written at once, or
cached and written by a retry thread. They do not overtake each other
because at any moment only one of them is open. `Mode` lists the situations
a line can be in, by who may touch the list:

- `free`: nothing is cached and no thread drains the list; the receiving
  thread writes at once;
- `cached`: the receiving thread has put the rest of a frame into the list
  and is about to set `rx_fc_off`;
- `parked`: `rx_fc_off` is set and no thread drains the list, either because
  the thread is about to be created or because that failed;
- `started`, `writing`, `popping`: `rx_fc_off` is set and one retry thread
  drains the list.

A retry thread that has cleared `rx_fc_off` no longer drains, so it does not
matter how many of those are still alive, nor that one of them may wake the
receiving thread early.

`Mode … rest` also says what is held back: `rest` comes after what was
written and before what the receiving thread has in hand (`Balanced`).

> `mode_step`: a step that does not close the channel goes from one mode to
> another and keeps the balance.
> `pty_in_order`: the PTY has got a prefix of what the channel received, and
> all of it when `rx_fc_off` is clear and no frame is in hand, without the frames
> refused at the high watermark.
-/

namespace Arale.Mux

open List
open Arale.Lib (Run Nobody Only)

/-- A retry thread that may still take frames from the list. -/
def RetryPc.draining : RetryPc → Prop
  | .start | .write _ _ | .pop => True
  | _ => False

/-- Between two writes: what the receiving thread does there does not depend
on the mode. -/
def Phase.resting : Phase → Prop
  | .idle | .control _ | .check _ | .finish _ => True
  | _ => False

/-- The receiving thread has not cached anything. -/
def Phase.direct : Phase → Prop
  | .write _ | .cache _ _ => True
  | phase => phase.resting

/-- In `start_retry_write_thread`, before `rx_fc_off` is set. -/
def Phase.blocking : Phase → Prop
  | .sendOff | .lock | .waiting _ => True
  | _ => False

/-- What the receiving thread has in hand and has not written. -/
def Phase.pending : Phase → List UInt8
  | .check frame | .write frame => frame.frame.data
  | .cache frame written => frame.frame.data.drop written
  | _ => []

def payloads (frames : List FramePtr) : List UInt8 := frames.flatMap (·.frame.data)

theorem payloads_append (xs ys : List FramePtr) :
    payloads (xs ++ ys) = payloads xs ++ payloads ys := flatMap_append

theorem Phase.resting.direct {phase : Phase} (h : phase.resting) : phase.direct := by
  cases phase <;> first | exact h | trivial

theorem Phase.blocking.not_direct {phase : Phase} (h : phase.blocking) : ¬ phase.direct := by
  intro hdirect
  cases phase <;> first | exact h.elim | exact hdirect.elim

inductive Mode (rxFcOff : Bool) (rxFl : RxList) (rxFlWritten : Nat) (retry : List RetryPc)
    (phase : Phase) : List UInt8 → Prop where
  | free : rxFcOff = false → Nobody RetryPc.draining retry →
      rxFl = .null ∨ rxFl = .list [] → phase.direct →
      Mode rxFcOff rxFl rxFlWritten retry phase []
  | cached {p : FramePtr} : rxFcOff = false → Nobody RetryPc.draining retry →
      rxFl = .list [p] → phase.blocking →
      Mode rxFcOff rxFl rxFlWritten retry phase (p.frame.data.drop rxFlWritten)
  | parked {p : FramePtr} {ps : List FramePtr} : rxFcOff = true →
      Nobody RetryPc.draining retry → rxFl = .list (p :: ps) →
      phase = .create ∨ phase.resting →
      Mode rxFcOff rxFl rxFlWritten retry phase (p.frame.data.drop rxFlWritten ++ payloads ps)
  | started {i : Nat} {p : FramePtr} {ps : List FramePtr} : rxFcOff = true →
      Only RetryPc.draining retry i .start → rxFl = .list (p :: ps) → phase.resting →
      Mode rxFcOff rxFl rxFlWritten retry phase (p.frame.data.drop rxFlWritten ++ payloads ps)
  | writing {i written : Nat} {p : FramePtr} {ps : List FramePtr} : rxFcOff = true →
      Only RetryPc.draining retry i (.write p written) → rxFl = .list ps → phase.resting →
      Mode rxFcOff rxFl rxFlWritten retry phase (p.frame.data.drop written ++ payloads ps)
  | popping {i : Nat} {ps : List FramePtr} : rxFcOff = true →
      Only RetryPc.draining retry i .pop → rxFl = .list ps → phase.resting →
      Mode rxFcOff rxFl rxFlWritten retry phase (payloads ps)

/-- What a thread that drains has left to write, by the place where it is. -/
inductive Left (rxFl : RxList) (rxFlWritten : Nat) : RetryPc → List UInt8 → Prop where
  | start {p : FramePtr} {ps : List FramePtr} : rxFl = .list (p :: ps) →
      Left rxFl rxFlWritten .start (p.frame.data.drop rxFlWritten ++ payloads ps)
  | write {p : FramePtr} {ps : List FramePtr} {written : Nat} : rxFl = .list ps →
      Left rxFl rxFlWritten (.write p written) (p.frame.data.drop written ++ payloads ps)
  | pop {ps : List FramePtr} : rxFl = .list ps → Left rxFl rxFlWritten .pop (payloads ps)

def Line.mode (s : Line) : List UInt8 → Prop :=
  Mode s.channel.rxFcOff s.channel.rxFl s.channel.rxFlWritten s.retry s.phase

namespace Mode

variable {rxFcOff : Bool} {rxFl : RxList} {rxFlWritten : Nat} {retry : List RetryPc}
  {phase phase' : Phase} {rest : List UInt8} {i : Nat} {pc pc' : RetryPc}
  (h : Mode rxFcOff rxFl rxFlWritten retry phase rest)
include h

/-! ### Moves of the receiving thread -/

theorem rest_phase (hphase : phase.resting)
    (hphase' : phase'.resting) : Mode rxFcOff rxFl rxFlWritten retry phase' rest := by
  cases h with
  | free hoff hnobody hempty _ => exact .free hoff hnobody hempty hphase'.direct
  | cached _ _ _ hblocking => exact absurd hphase.direct hblocking.not_direct
  | parked hoff hnobody hlist _ => exact .parked hoff hnobody hlist (.inr hphase')
  | started hoff honly hlist _ => exact .started hoff honly hlist hphase'
  | writing hoff honly hlist _ => exact .writing hoff honly hlist hphase'
  | popping hoff honly hlist _ => exact .popping hoff honly hlist hphase'

/-- With `rx_fc_off` clear and nothing cached, nothing is held back. -/
theorem free_inv (hoff : rxFcOff = false) (hphase : phase.direct) :
    Nobody RetryPc.draining retry ∧ (rxFl = .null ∨ rxFl = .list []) ∧ rest = [] := by
  cases h with
  | free _ hnobody hempty _ => exact ⟨hnobody, hempty, rfl⟩
  | cached _ _ _ hblocking => exact absurd hphase hblocking.not_direct
  | parked hon | started hon | writing hon | popping hon => simp [hoff] at hon

/-- Writing and caching happen only when the line is free. -/
theorem busy_inv (hcreate : phase ≠ .create) (hnot : ¬ phase.resting) : rxFcOff = false := by
  cases h with
  | free hoff _ _ _ | cached hoff _ _ _ => exact hoff
  | parked _ _ _ hphase => exact (hphase.elim hcreate hnot).elim
  | started _ _ _ hresting | writing _ _ _ hresting | popping _ _ _ hresting =>
    exact absurd hresting hnot

theorem direct_inv (hphase : phase.direct) (hnot : ¬ phase.resting) :
    rxFcOff = false ∧ Nobody RetryPc.draining retry ∧ (rxFl = .null ∨ rxFl = .list []) ∧
      rest = [] := by
  have hoff := h.busy_inv (by rintro rfl; exact hphase) hnot
  exact ⟨hoff, h.free_inv hoff hphase⟩

theorem blocking_inv (hphase : phase.blocking) :
    rxFcOff = false ∧ Nobody RetryPc.draining retry ∧
      ∃ p, rxFl = .list [p] ∧ rest = p.frame.data.drop rxFlWritten := by
  have hoff := h.busy_inv (by rintro rfl; exact hphase)
    fun hresting => hphase.not_direct hresting.direct
  cases h with
  | free _ _ _ hdirect => exact absurd hdirect hphase.not_direct
  | cached _ hnobody hlist _ => exact ⟨hoff, hnobody, _, hlist, rfl⟩
  | parked hon | started hon | writing hon | popping hon => simp [hoff] at hon

theorem create_inv (hcreate : phase = .create) :
    rxFcOff = true ∧ Nobody RetryPc.draining retry ∧
      ∃ p ps, rxFl = .list (p :: ps) ∧ rest = p.frame.data.drop rxFlWritten ++ payloads ps := by
  subst hcreate
  cases h with
  | free _ _ _ hdirect => exact hdirect.elim
  | cached _ _ _ hblocking => exact hblocking.elim
  | parked hoff hnobody hlist _ => exact ⟨hoff, hnobody, _, _, hlist, rfl⟩
  | started _ _ _ hresting | writing _ _ _ hresting | popping _ _ _ hresting => exact hresting.elim

/-- Without a list there is nothing to drain. -/
theorem null_inv (hnull : rxFl = .null) : Nobody RetryPc.draining retry := by
  cases h with
  | free _ hnobody | cached _ hnobody | parked _ hnobody => exact hnobody
  | started _ _ hlist | writing _ _ hlist | popping _ _ hlist => cases hnull.symm.trans hlist

/-- A frame appended to the list is the last to be written. -/
theorem enqueue {frames : List FramePtr} {p : FramePtr} (hoff : rxFcOff = true)
    (hframes : rxFl = .list frames) (hphase' : phase'.resting) :
    Mode rxFcOff (.list (frames ++ [p])) rxFlWritten retry phase' (rest ++ p.frame.data) := by
  have hone : payloads [p] = p.frame.data := append_nil _
  cases h with
  | free hclear | cached hclear => simp [hoff] at hclear
  | parked _ hnobody hlist _ =>
    cases hframes.symm.trans hlist
    rw [append_assoc, ← hone, ← payloads_append]
    exact .parked hoff hnobody rfl (.inr hphase')
  | started _ honly hlist _ =>
    cases hframes.symm.trans hlist
    rw [append_assoc, ← hone, ← payloads_append]
    exact .started hoff honly rfl hphase'
  | writing _ honly hlist _ =>
    cases hframes.symm.trans hlist
    rw [append_assoc, ← hone, ← payloads_append]
    exact .writing hoff honly rfl hphase'
  | popping _ honly hlist _ =>
    cases hframes.symm.trans hlist
    rw [← hone, ← payloads_append]
    exact .popping hoff honly rfl hphase'

/-! ### Moves of the retry threads -/

/-- A thread that does not drain moves on without getting back to the list. -/
theorem move_done (hi : retry[i]? = some pc) (hpc : ¬ pc.draining) (hpc' : ¬ pc'.draining) :
    Mode rxFcOff rxFl rxFlWritten (retry.set i pc') phase rest := by
  have hne : ∀ {j : Nat} {pc₁ : RetryPc}, Only RetryPc.draining retry j pc₁ → pc₁.draining →
      i ≠ j := by
    rintro j pc₁ honly hdraining rfl
    rw [Option.some.inj (hi.symm.trans honly.1)] at hpc
    exact hpc hdraining
  cases h with
  | free hoff hnobody hempty hphase => exact .free hoff (hnobody.set hpc') hempty hphase
  | cached hoff hnobody hlist hphase => exact .cached hoff (hnobody.set hpc') hlist hphase
  | parked hoff hnobody hlist hphase => exact .parked hoff (hnobody.set hpc') hlist hphase
  | started hoff honly hlist hphase =>
    exact .started hoff (honly.set_other (hne honly trivial) hpc') hlist hphase
  | writing hoff honly hlist hphase =>
    exact .writing hoff (honly.set_other (hne honly trivial) hpc') hlist hphase
  | popping hoff honly hlist hphase =>
    exact .popping hoff (honly.set_other (hne honly trivial) hpc') hlist hphase

/-- While a thread drains, it is the only one, `rx_fc_off` is set, and what is
left is what it has to write. -/
theorem draining_inv (hi : retry[i]? = some pc) (hpc : pc.draining) :
    rxFcOff = true ∧ phase.resting ∧ Only RetryPc.draining retry i pc
      ∧ Left rxFl rxFlWritten pc rest := by
  cases h with
  | free _ hnobody | cached _ hnobody | parked _ hnobody => exact absurd hpc (hnobody.not_at hi)
  | started hoff honly hlist hphase =>
    obtain ⟨rfl, rfl⟩ := honly.at_eq hi hpc
    exact ⟨hoff, hphase, honly, .start hlist⟩
  | writing hoff honly hlist hphase =>
    obtain ⟨rfl, rfl⟩ := honly.at_eq hi hpc
    exact ⟨hoff, hphase, honly, .write hlist⟩
  | popping hoff honly hlist hphase =>
    obtain ⟨rfl, rfl⟩ := honly.at_eq hi hpc
    exact ⟨hoff, hphase, honly, .pop hlist⟩

end Mode

/-! ## What was received and what was written -/

/-- What the channel received, without the frames that were refused. -/
def delivered (received : List Received) : List UInt8 :=
  (received.filter fun r => isData r.frame.frame && r.refused.isNone).flatMap (·.frame.frame.data)

theorem delivered_append (xs ys : List Received) :
    delivered (xs ++ ys) = delivered xs ++ delivered ys := by
  simp [delivered, filter_append]

variable {frame : FramePtr}

theorem delivered_data (h : isData frame.frame = true) (received : List Received) :
    delivered (received ++ [⟨frame, none⟩]) = delivered received ++ frame.frame.data := by
  simp [delivered, h]

theorem delivered_control (h : isData frame.frame = false)
    (received : List Received) : delivered (received ++ [⟨frame, none⟩]) = delivered received := by
  simp [delivered, h]

theorem refuseLast_concat (total : Nat) (front : List Received) :
    refuseLast total (front ++ [⟨frame, none⟩]) = front ++ [⟨frame, some total⟩] := by
  simp [refuseLast]

/-- A refused frame is taken off the account. -/
theorem delivered_refuseLast {received : List Received} (total : Nat)
    (hlast : received.getLast? = some ⟨frame, none⟩) (hdata : isData frame.frame = true) :
    delivered received = delivered (refuseLast total received) ++ frame.frame.data := by
  obtain ⟨front, rfl⟩ := List.getLast?_eq_some_iff.mp hlast
  have hnone : delivered [⟨frame, some total⟩] = [] := by simp [delivered]
  rw [refuseLast_concat, delivered_data hdata, delivered_append, hnone, append_nil]

/-- Written, held back and in hand make up what was received. -/
structure Balanced (c : Nat) (s : Line) (rest : List UInt8) : Prop where
  bytes : s.pty ++ rest ++ s.phase.pending = delivered s.received
  last : ∀ frame, s.phase = .check frame →
    s.received.getLast? = some ⟨frame, none⟩ ∧ isData frame.frame = true
  own : ∀ frame, s.phase = .check frame ∨ s.phase = .write frame →
    frame.frame.channel.toNat = c

/-- The receiving thread handles a frame that closes the channel. -/
def closing (s : Line) (act : LineAct) : Bool :=
  match s.phase, act with
  | .control frame, .receiver => closesChannel frame.frame s.channel
  | _, _ => false

def keepsOpen (s : Line) (act : LineAct) : Prop := closing s act = false

theorem closing_control {s : Line} (h : s.phase = .control frame) :
    closing s .receiver = closesChannel frame.frame s.channel := by
  simp only [closing, h]

instance (s : Line) (act : LineAct) : Decidable (keepsOpen s act) :=
  inferInstanceAs (Decidable (closing s act = false))

/-- What a step has to keep: a mode, and the balance on a channel that is not
the one for video telephony. -/
def Kept (c : Nat) (s : Line) (rest : List UInt8) (act : LineAct) (s' : Line) : Prop :=
  ∃ rest', s'.mode rest' ∧
    (c ≠ muxdVtChNum → (∀ frame, act = .receive frame → frame.frame.channel.toNat = c) →
      Balanced c s rest → Balanced c s' rest')

section Steps

variable {c : Nat} {s s' : Line} {act : LineAct} {rest : List UInt8}

/-- Outside `check` and `write` the balance is the account alone. -/
theorem Balanced.of_bytes (hbytes : s.pty ++ rest ++ s.phase.pending = delivered s.received)
    (hphase : ∀ frame, s.phase ≠ .check frame ∧ s.phase ≠ .write frame) : Balanced c s rest where
  bytes := hbytes
  last frame h := absurd h (hphase frame).1
  own frame h := h.elim (fun h => absurd h (hphase frame).1) (fun h => absurd h (hphase frame).2)

/-- Nothing is written, and what is in hand stays in hand. -/
theorem Balanced.same_pending (h : Balanced c s rest) (hpty : s'.pty = s.pty)
    (hreceived : delivered s'.received = delivered s.received)
    (hpending : s'.phase.pending = s.phase.pending)
    (hphase : ∀ frame, s'.phase ≠ .check frame ∧ s'.phase ≠ .write frame) : Balanced c s' rest := by
  refine .of_bytes ?_ hphase
  rw [hpty, hreceived, hpending]
  exact h.bytes

/-- Steps of retry threads leave what the receiving thread has in hand. -/
theorem Balanced.retry {channel : Channel} {retry' : List RetryPc} {msc : List (List UInt8)}
    {written rest' : List UInt8} (h : Balanced c s rest) (hrest : rest = written ++ rest') :
    Balanced c { s with channel := channel, retry := retry', msc := msc, pty := s.pty ++ written }
      rest' where
  bytes := by
    show s.pty ++ written ++ rest' ++ s.phase.pending = delivered s.received
    rw [append_assoc s.pty, ← hrest]
    exact h.bytes
  last := h.last
  own := h.own

variable (hmode : s.mode rest)
include hmode

/-- The receiving thread at a frame it does not write: the mode and what is in
hand stay. -/
theorem kept_rest (hphase : s.phase.resting) (hphase' : s'.phase.resting)
    (hmove : s'.mode = Mode s.channel.rxFcOff s.channel.rxFl s.channel.rxFlWritten s.retry s'.phase)
    (hpty : s'.pty = s.pty) (hreceived : delivered s'.received = delivered s.received)
    (hpending : s.phase.pending = []) (hpending' : s'.phase.pending = [])
    (hcheck : ∀ frame, s'.phase ≠ .check frame) : Kept c s rest act s' := by
  refine ⟨rest, by rw [hmove]; exact hmode.rest_phase hphase hphase', ?_⟩
  intro _ _ hbalanced
  refine hbalanced.same_pending hpty hreceived (hpending'.trans hpending.symm) ?_
  intro frame
  refine ⟨hcheck frame, ?_⟩
  intro hwrite
  rw [hwrite] at hphase'
  exact hphase'

variable {frame : FramePtr}

theorem kept_receiveData (hidle : s.phase = .idle) (hdata : isData frame.frame = true) :
    Kept c s rest (.receive frame)
      { s with phase := .check frame, received := s.received ++ [⟨frame, none⟩] } := by
  refine ⟨rest, hmode.rest_phase (by rw [hidle]; trivial) trivial, ?_⟩
  intro _ hown hbalanced
  refine ⟨?_, ?_, ?_⟩
  · have hbytes := hbalanced.bytes
    rw [hidle] at hbytes
    show s.pty ++ rest ++ frame.frame.data = delivered (s.received ++ [⟨frame, none⟩])
    rw [delivered_data hdata, ← hbytes]
    simp [Phase.pending]
  · intro frame' heq
    cases heq
    exact ⟨by simp, hdata⟩
  · rintro frame' (heq | heq)
    · cases heq
      exact hown frame rfl
    · cases heq

variable {frames : List FramePtr} {destroyed : List Nat}

theorem kept_enqueue {total : Nat} (hcheck : s.phase = .check frame)
    (hoff : s.channel.rxFcOff = true) (hlist : s.channel.rxFl = .list frames) :
    Kept c s rest act
      { s with
        channel := { s.channel with rxFl := .list (frames ++ [frame]), rxFlTotal := total }
        destroyed := destroyed, phase := .idle } := by
  refine ⟨rest ++ frame.frame.data, hmode.enqueue hoff hlist trivial, ?_⟩
  intro _ _ hbalanced
  refine .of_bytes ?_ (by simp)
  have hbytes := hbalanced.bytes
  rw [hcheck] at hbytes
  show s.pty ++ (rest ++ frame.frame.data) ++ [] = delivered s.received
  rw [← hbytes]
  simp [Phase.pending]

theorem kept_refuse {total : Nat} (hcheck : s.phase = .check frame) :
    Kept c s rest act
      { s with
        received := refuseLast total s.received, destroyed := destroyed, phase := .idle } := by
  refine ⟨rest, hmode.rest_phase (by rw [hcheck]; trivial) trivial, ?_⟩
  intro _ _ hbalanced
  refine .of_bytes ?_ (by simp)
  obtain ⟨hlast, hdata⟩ := hbalanced.last frame hcheck
  have hbytes := hbalanced.bytes
  rw [hcheck, delivered_refuseLast total hlast hdata] at hbytes
  show s.pty ++ rest ++ [] = delivered (refuseLast total s.received)
  rw [append_nil]
  exact append_cancel_right hbytes

theorem kept_pass (hcheck : s.phase = .check frame)
    (hoff : s.channel.rxFcOff = false) : Kept c s rest act { s with phase := .write frame } := by
  have hdirect : s.phase.direct := by rw [hcheck]; trivial
  obtain ⟨hnobody, hempty, rfl⟩ := hmode.free_inv hoff hdirect
  refine ⟨[], .free hoff hnobody hempty trivial, ?_⟩
  intro _ _ hbalanced
  have hbytes := hbalanced.bytes
  rw [hcheck] at hbytes
  refine ⟨hbytes, by simp, ?_⟩
  rintro frame' (heq | heq)
  · cases heq
  · cases heq
    exact hbalanced.own frame (.inl hcheck)

/-- A write of the receiving thread finds nothing held back, and what it does
not write stays in hand. -/
theorem kept_write {frame : FramePtr} {written : List UInt8} {phase' : Phase}
    (hwrite : s.phase = .write frame) (hphase' : phase'.direct)
    (hsplit : frame.frame.data = written ++ phase'.pending)
    (hno : ∀ frame, phase' ≠ .check frame ∧ phase' ≠ .write frame) :
    Kept c s rest act { s with pty := s.pty ++ written, phase := phase' } := by
  obtain ⟨hoff, hnobody, hempty, rfl⟩ := hmode.direct_inv (by rw [hwrite]; trivial)
    (by simp [hwrite, Phase.resting])
  refine ⟨[], .free hoff hnobody hempty hphase', ?_⟩
  intro _ _ hbalanced
  refine .of_bytes ?_ hno
  have hbytes := hbalanced.bytes
  rw [hwrite] at hbytes
  show s.pty ++ written ++ [] ++ phase'.pending = delivered s.received
  rw [← hbytes]
  show _ = s.pty ++ [] ++ frame.frame.data
  rw [hsplit]
  simp

theorem kept_discardVt (hwrite : s.phase = .write frame)
    (hvt : frame.frame.channel.toNat = muxdVtChNum) :
    Kept c s rest act { s with phase := .idle } := by
  obtain ⟨hoff, hnobody, hempty, rfl⟩ := hmode.direct_inv (by rw [hwrite]; trivial)
    (by simp [hwrite, Phase.resting])
  refine ⟨[], .free hoff hnobody hempty trivial, ?_⟩
  intro hc _ hbalanced
  exact absurd ((hbalanced.own frame (.inr hwrite)).symm.trans hvt) hc

variable {written i : Nat}

theorem kept_cacheRemaining {total : Nat} (hcache : s.phase = .cache frame written) :
    Kept c s rest act
      { s with
        channel := { s.channel with
          rxFl := .list [frame], rxFlTotal := total, rxFlWritten := written }
        phase := .sendOff, destroyed := destroyed } := by
  obtain ⟨hoff, hnobody, -, rfl⟩ := hmode.direct_inv (by rw [hcache]; trivial)
    (by simp [hcache, Phase.resting])
  refine ⟨frame.frame.data.drop written, .cached hoff hnobody rfl trivial, ?_⟩
  intro _ _ hbalanced
  refine .of_bytes ?_ (by simp)
  have hbytes := hbalanced.bytes
  rw [hcache] at hbytes
  show s.pty ++ frame.frame.data.drop written ++ [] = delivered s.received
  rw [← hbytes]
  simp [Phase.pending]

/-- In `start_retry_write_thread` before `rx_fc_off` is set. -/
theorem kept_blocking {phase' : Phase} {msc : List (List UInt8)}
    (hblocking : s.phase.blocking) (hblocking' : phase'.blocking) :
    Kept c s rest act { s with phase := phase', msc := msc } := by
  obtain ⟨hoff, hnobody, p, hlist, rfl⟩ := hmode.blocking_inv hblocking
  have hquiet : ∀ phase : Phase, phase.blocking → phase.pending = [] ∧
      ∀ frame, phase ≠ .check frame ∧ phase ≠ .write frame := by
    intro phase h
    cases phase <;> first | exact h.elim | simp [Phase.pending]
  refine ⟨_, .cached hoff hnobody hlist hblocking', ?_⟩
  intro _ _ hbalanced
  exact hbalanced.same_pending rfl rfl
    ((hquiet phase' hblocking').1.trans (hquiet s.phase hblocking).1.symm)
    (hquiet phase' hblocking').2

theorem kept_block (hphase : s.phase = .lock ∨ s.phase = .waiting true) :
    Kept c s rest act
      { s with channel := { s.channel with rxFcOff := true }, phase := .create } := by
  have hblocking : s.phase.blocking := by rcases hphase with h | h <;> rw [h] <;> trivial
  have hpending : s.phase.pending = [] := by rcases hphase with h | h <;> rw [h] <;> rfl
  obtain ⟨-, hnobody, p, hlist, rfl⟩ := hmode.blocking_inv hblocking
  refine ⟨p.frame.data.drop s.channel.rxFlWritten ++ payloads [],
    .parked rfl hnobody hlist (.inl rfl), ?_⟩
  intro _ _ hbalanced
  rw [show payloads [] = [] from rfl, append_nil]
  exact hbalanced.same_pending rfl rfl (by rw [hpending]; rfl) (by simp)

/-- The new thread, or the lack of one, finds the list as it was left. -/
theorem kept_create {retry' : List RetryPc} (hcreate : s.phase = .create)
    (hretry : retry' = s.retry ∨ retry' = s.retry ++ [.start]) :
    Kept c s rest act { s with retry := retry', phase := .idle } := by
  obtain ⟨hoff, hnobody, p, ps, hlist, rfl⟩ := hmode.create_inv hcreate
  refine ⟨p.frame.data.drop s.channel.rxFlWritten ++ payloads ps, ?_, ?_⟩
  · rcases hretry with rfl | rfl
    · exact .parked hoff hnobody hlist (.inr trivial)
    · exact .started hoff (hnobody.append .start) hlist trivial
  · intro _ _ hbalanced
    exact hbalanced.same_pending rfl rfl (by rw [hcreate]; rfl) (by simp)

/-- The list is taken over: its first frame is written from where the
receiving thread stopped. -/
theorem kept_retryStart (hi : s.retry[i]? = some .start)
    (hlist : s.channel.rxFl = .list (frame :: frames)) :
    Kept c s rest act
      { s with
        channel := { s.channel with rxThread := true, rxFl := .list frames, rxFlWritten := 0 }
        retry := s.retry.set i (.write frame s.channel.rxFlWritten) } := by
  obtain ⟨hoff, hphase, honly, hleft⟩ := hmode.draining_inv hi trivial
  cases hleft with
  | start hps =>
    cases hlist.symm.trans hps
    refine ⟨_, ?_, fun _ _ h => ⟨h.bytes, h.last, h.own⟩⟩
    exact .writing hoff (honly.set_self _) rfl hphase

theorem kept_retryPop (hi : s.retry[i]? = some .pop)
    (hlist : s.channel.rxFl = .list (frame :: frames)) :
    Kept c s rest act
      { s with
        channel := { s.channel with rxFl := .list frames }
        retry := s.retry.set i (.write frame 0) } := by
  obtain ⟨hoff, hphase, honly, hleft⟩ := hmode.draining_inv hi trivial
  cases hleft with
  | @pop ps hps =>
    cases hlist.symm.trans hps
    refine ⟨frame.frame.data.drop 0 ++ payloads frames, ?_, fun _ _ h => ⟨h.bytes, h.last, h.own⟩⟩
    exact .writing hoff (honly.set_self _) rfl hphase

/-- The last frame is written: `rx_fc_off` is cleared with the list empty. -/
theorem kept_retryEmpty (hi : s.retry[i]? = some .pop)
    (hempty : s.channel.rxFl = .null ∨ s.channel.rxFl = .list []) :
    Kept c s rest act
      { s with
        channel := { s.channel with rxFcOff := false }, retry := s.retry.set i .sendOn } := by
  obtain ⟨hoff, hphase, honly, hleft⟩ := hmode.draining_inv hi trivial
  cases hleft with
  | @pop ps hps =>
    have hnil : payloads ps = [] := by
      rcases hempty with h | h
      · cases h.symm.trans hps
      · cases h.symm.trans hps
        rfl
    refine ⟨[], .free rfl (honly.set_leave (fun h => h)) hempty hphase.direct, ?_⟩
    intro _ _ h
    rw [hnil] at h
    exact ⟨h.bytes, h.last, h.own⟩

theorem kept_retryWrite {n : Nat} (hi : s.retry[i]? = some (.write frame written)) :
    Kept c s rest act
      { s with
        pty := s.pty ++ (frame.frame.data.drop written).take n
        retry := s.retry.set i (.write frame (written + n)) } := by
  obtain ⟨hoff, hphase, honly, hleft⟩ := hmode.draining_inv hi trivial
  cases hleft with
  | @write _ ps _ hps =>
    refine ⟨frame.frame.data.drop (written + n) ++ payloads ps,
      .writing hoff (honly.set_self _) hps hphase, ?_⟩
    intro _ _ h
    refine h.retry ?_
    rw [← append_assoc, ← drop_drop, take_append_drop]

theorem kept_retryWritten (hi : s.retry[i]? = some (.write frame written)) :
    Kept c s rest act
      { s with pty := s.pty ++ frame.frame.data.drop written, retry := s.retry.set i .pop } := by
  obtain ⟨hoff, hphase, honly, hleft⟩ := hmode.draining_inv hi trivial
  cases hleft with
  | @write _ ps _ hps =>
    exact ⟨payloads ps, .popping hoff (honly.set_self _) hps hphase, fun _ _ h => h.retry rfl⟩

/-- A retry thread behind its last frame. -/
theorem kept_retryDone {pc pc' : RetryPc} {msc : List (List UInt8)} {rxThread : Bool}
    (hi : s.retry[i]? = some pc) (hpc : ¬ pc.draining) (hpc' : ¬ pc'.draining) :
    Kept c s rest act
      { s with
        channel := { s.channel with rxThread := rxThread }, msc := msc
        retry := s.retry.set i pc' } :=
  ⟨rest, hmode.move_done hi hpc hpc', fun _ _ h => ⟨h.bytes, h.last, h.own⟩⟩

theorem kept_retrySignal {signalled : Bool} (hi : s.retry[i]? = some .signal)
    (hphase : s.phase = .waiting signalled) :
    Kept c s rest act { s with phase := .waiting true, retry := s.retry.set i .done } := by
  have hblocking : s.phase.blocking := by rw [hphase]; trivial
  obtain ⟨rest', hmode', hkept⟩ := @kept_blocking c { s with retry := s.retry.set i .done } act
    rest (hmode.move_done hi (fun h => h) (fun h => h)) (.waiting true) s.msc hblocking trivial
  exact ⟨rest', hmode', fun hc hown h => hkept hc hown ⟨h.bytes, h.last, h.own⟩⟩

/-- **One step.** A step that does not close the channel leads from a mode to
a mode and keeps the balance. -/
theorem mode_step (hstep : LineStep s act s') (hopen : keepsOpen s act) :
    Kept c s rest act s' := by
  cases hstep with
  | receiveData hidle hdata => exact kept_receiveData hmode hidle hdata
  | receiveControl hidle hdata =>
    exact kept_rest hmode (by rw [hidle]; trivial) trivial rfl rfl (delivered_control hdata _)
      (by rw [hidle]; rfl) rfl (by simp)
  | command hcontrol _ | handshake _ _ _ hcontrol _ =>
    exact kept_rest hmode (by rw [hcontrol]; trivial) trivial rfl rfl rfl (by rw [hcontrol]; rfl)
      rfl (by simp)
  | close hcontrol hcloses _ =>
    rw [keepsOpen, closing_control hcontrol, hcloses] at hopen
    cases hopen
  | enqueue hcheck hoff hlist => exact kept_enqueue hmode hcheck hoff hlist
  | refuse hcheck _ => exact kept_refuse hmode hcheck
  | pass hcheck hoff => exact kept_pass hmode hcheck hoff
  | writeAll hwrite _ => exact kept_write hmode hwrite trivial (append_nil _).symm (by simp)
  | @writePart frame n hwrite _ =>
    exact kept_write hmode hwrite trivial (take_append_drop n _).symm (by simp)
  | writeAgain | retryAgain => exact ⟨rest, hmode, fun _ _ h => h⟩
  | discardVt hwrite hvt => exact kept_discardVt hmode hwrite hvt
  | @writeNothing frame hwrite _ =>
    have hkept := @kept_write c s (.write .eagain) rest hmode frame [] (.cache frame 0) hwrite
      trivial rfl (by simp)
    rwa [append_nil] at hkept
  | cacheRemaining hcache _ => exact kept_cacheRemaining hmode hcache
  | sendOff hphase | offFails hphase | wait hphase | wakeup hphase =>
    exact kept_blocking hmode (by rw [hphase]; trivial) trivial
  | block hphase => exact kept_block hmode hphase
  | create hphase => exact kept_create hmode hphase (.inr rfl)
  | createFails hphase => exact kept_create hmode hphase (.inl rfl)
  | finish hfinish =>
    exact kept_rest hmode (by rw [hfinish]; trivial) trivial rfl rfl rfl (by rw [hfinish]; rfl)
      rfl (by simp)
  | retryStart hi hlist => exact kept_retryStart hmode hi hlist
  | retryPop hi hlist => exact kept_retryPop hmode hi hlist
  | retryEmpty hi hempty => exact kept_retryEmpty hmode hi hempty
  | retrySendOn hi | onFails hi | retryClear hi | retryEnd hi =>
    exact kept_retryDone hmode hi (fun h => h) (fun h => h)
  | retrySignal hi hphase => exact kept_retrySignal hmode hi hphase
  | retryWrite hi _ => exact kept_retryWrite hmode hi
  | retryWritten hi _ => exact kept_retryWritten hmode hi

end Steps

/-! ## Refused frames -/

/-- Frames are refused only where they would take `rx_fl_total` over the high
watermark; the frame to be looked at is the last one received. -/
structure Refusals (s : Line) : Prop where
  full : ∀ r ∈ s.received, ∀ total, r.refused = some total →
    total + r.frame.frame.data.length > rxFlowCtrlHighWatermark
  last : ∀ frame, s.phase = .check frame → s.received.getLast? = some ⟨frame, none⟩

theorem Refusals.step {s s' : Line} {act : LineAct} (h : Refusals s) (hstep : LineStep s act s') :
    Refusals s' := by
  have hreceive : ∀ frame, ∀ r ∈ s.received ++ [⟨frame, none⟩], ∀ total, r.refused = some total →
      total + r.frame.frame.data.length > rxFlowCtrlHighWatermark := by
    intro frame r hr total hrefused
    rcases mem_append.mp hr with hold | hnew
    · exact h.full r hold total hrefused
    · cases mem_singleton.mp hnew
      cases hrefused
  cases hstep with
  | @receiveData frame =>
    refine ⟨hreceive frame, fun frame' heq => ?_⟩
    cases heq
    exact getLast?_concat
  | @receiveControl frame => exact ⟨hreceive frame, by simp⟩
  | @refuse frame hcheck _ hfull =>
    obtain ⟨front, hfront⟩ := List.getLast?_eq_some_iff.mp (h.last frame hcheck)
    refine ⟨fun r hr total hrefused => ?_, by simp⟩
    rw [hfront, refuseLast_concat] at hr
    rcases mem_append.mp hr with hold | hnew
    · exact h.full r (hfront ▸ mem_append_left _ hold) total hrefused
    · cases mem_singleton.mp hnew
      cases hrefused
      exact hfull
  | _ => first | exact ⟨h.full, h.last⟩ | exact ⟨h.full, by simp⟩

/-! ## Whole runs -/

theorem mode_start (channel : Channel) : (Line.start channel).mode [] :=
  .free rfl Nobody.nil (.inl rfl) trivial

theorem balanced_start (c : Nat) (channel : Channel) : Balanced c (Line.start channel) [] :=
  .of_bytes rfl (by simp [Line.start])

theorem refusals_start (channel : Channel) : Refusals (Line.start channel) :=
  ⟨by simp [Line.start], by simp [Line.start]⟩

/-- The line is in some mode, with the balance unless data may be discarded. -/
def InOrder (c : Nat) (s : Line) : Prop :=
  ∃ rest, s.mode rest ∧ (c ≠ muxdVtChNum → Balanced c s rest)

theorem inOrder_start (c : Nat) (channel : Channel) : InOrder c (Line.start channel) :=
  ⟨[], mode_start channel, fun _ => balanced_start c channel⟩

theorem inOrder_run {c : Nat} {s t : Line} {acts : List LineAct} (hs : InOrder c s)
    (h : Run lineStep (ofChannel c keepsOpen) s acts t) : InOrder c t := by
  refine h.invariant ?_ hs
  rintro s act s' ⟨rest, hmode, hbalanced⟩ ⟨hopen, hown⟩ hstep
  obtain ⟨rest', hmode', hkept⟩ := @mode_step c s s' act rest hmode (lineStep_inv hstep) hopen
  exact ⟨rest', hmode', fun hc => hkept hc hown (hbalanced hc)⟩

/-- **Ordered delivery.** Whatever the PTYs answer and however the threads
interleave, as long as the channel is not closed its PTY has got a prefix of
what was received on it, refused frames left out, and all of that when
`rx_fc_off` is clear and no frame of the channel is in hand; and every frame that
was refused would have taken `rx_fl_total` over the high watermark. -/
theorem pty_in_order {b : Build} {channels : Nat → Channel} {c : Nat} (hc : c ≠ muxdVtChNum)
    {acts : List FlowAct} {t : Flow}
    (hrun : Run (flowStep b) (onChannel c keepsOpen) (Flow.start channels) acts t) :
    (t.line c).pty <+: delivered (t.line c).received ∧
      ((t.line c).channel.rxFcOff = false → (t.line c).phase = .idle →
        (t.line c).pty = delivered (t.line c).received) ∧
      ∀ r ∈ (t.line c).received, ∀ total, r.refused = some total →
        total + r.frame.frame.data.length > rxFlowCtrlHighWatermark := by
  obtain ⟨lineActs, hline⟩ := line_run c hrun
  have hrefusals : Refusals (t.line c) :=
    hline.invariant (fun _ _ _ h _ hstep => h.step (lineStep_inv hstep))
      (refusals_start (channels c))
  obtain ⟨rest, hmode, hbalanced⟩ := inOrder_run (inOrder_start c (channels c)) hline
  have hbytes := (hbalanced hc).bytes
  refine ⟨?_, ?_, hrefusals.full⟩
  · rw [← hbytes, append_assoc]
    exact prefix_append _ _
  · intro hoff hidle
    obtain ⟨-, -, rfl⟩ := hmode.free_inv hoff (by rw [hidle]; trivial)
    rw [← hbytes, hidle]
    simp [Phase.pending]

/-- The PTY takes one byte of the first frame and blocks, the second frame is
queued, and the retry thread writes the rest. -/
theorem pty_in_order_blocked :
    ∃ acts t, Run (flowStep .plain) (onChannel 1 keepsOpen)
        (Flow.start openChannels) acts t ∧
      (t.line 1).pty = delivered (t.line 1).received ∧ (t.line 1).pty = [1, 2, 3, 4] := by
  refine ⟨[.getFrame (uihFrame 1 [1, 2, 3]), .on 1 .receiver, .on 1 (.write (.wrote 1)),
    .on 1 .receiver, .on 1 .receiver, .on 1 .receiver, .on 1 .receiver,
    .getFrame (uihFrame 1 [4]), .on 1 (.retry 0), .on 1 .receiver,
    .on 1 (.retryWrite 0 .eagain), .on 1 (.retryWrite 0 (.wrote 2)), .on 1 (.retry 0),
    .on 1 (.retryWrite 0 (.wrote 1)), .on 1 (.retry 0)], Run.exists_of_exec
    (A := fun t => (t.line 1).channel.rxFcOff = false ∧ (t.line 1).phase = .idle ∧
      (t.line 1).pty = [1, 2, 3, 4]) (by decide +kernel) ?_⟩
  rintro t hrun ⟨hoff, hidle, hpty⟩
  exact ⟨(pty_in_order (by decide) hrun).2.1 hoff hidle, hpty⟩

end Arale.Mux
