import Arale.Lib.Trace
import Arale.Immvibe.Protocol

/-!
# The main loop of the vibrator daemon

`main` sleeps in `epoll_wait` and is told about a descriptor once for each
change (`EPOLLET`). For the listening socket it accepts everything there is; a
new connection is read at once, because its request may be there already, and
only then registered. For a connection it calls `process_client`. A connection
that is reported with `EPOLLHUP` is closed without reading it.

The model has one step for each system call of the daemon, and clients that
connect, send their request and hang up at any time in between. Each request is
read in one piece; `Protocol.lean` is about how it may be cut. A descriptor is on
the ready list of the epoll instance (`ready`) from a change on, or from its
registration if something is there by then, until `epoll_wait` collects it, and
what is reported is the state at that time. The number of a descriptor is used
again only after `close`, and no descriptor is collected twice by one
`epoll_wait`, so an event is about the connection it was reported for.

> `commands_enqueued`: no request is put into the queue twice, and when the
> daemon sleeps with nothing ready, every request that was sent is in the queue.
> The daemon gets there by finitely many steps of its own.

For this a client must not hang up between an early read that found nothing and
the `epoll_wait` that reports its request: `hung_up_lost` does just that, and the
request is closed away with its connection.
-/

namespace Arale.Immvibe

open List

/-- `MAXEVENTS` -/
def maxEvents : Nat := 64

/-! ## Clients and their connections -/

/-- What the daemon has of a connection. -/
inductive Fd where
  | backlog
  | accepted
  | registered
  | closed
  deriving DecidableEq, Repr

structure Client where
  msg : Msg
  sent : Bool
  hungUp : Bool
  /-- The request, from when it is sent until the daemon reads it. -/
  inbox : Option Bytes
  fd : Fd
  /-- On the ready list of the epoll instance. -/
  ready : Bool
  /-- What was put into the work queue for this connection, for the statement. -/
  enqueued : List Msg
  deriving DecidableEq, Repr

/-- A client that has connected. -/
def Client.connected (msg : Msg) : Client where
  msg := msg
  sent := false
  hungUp := false
  inbox := none
  fd := .backlog
  ready := false
  enqueued := []

structure Mask where
  epollin : Bool
  epollhup : Bool
  epollerr : Bool
  deriving DecidableEq, Repr

namespace Client

/-- What is to be reported of a connection. The end of the stream is readable
too; the daemon sends nothing, so there is no error. -/
def poll (c : Client) : Mask where
  epollin := c.inbox.isSome || c.hungUp
  epollhup := c.hungUp
  epollerr := false

/-- What `read` returns. -/
def nextRead (c : Client) : Read :=
  if c.fd = .closed then .failed
  else
    match c.inbox with
    | some bytes => .data bytes
    | none => if c.hungUp then .eof else .eagain

/-- A change of the connection, which epoll sees once it is registered. -/
def notify (c : Client) : Client := { c with ready := c.ready || c.fd == .registered }

def send (c : Client) : Client :=
  if c.fd = .closed then { c with sent := true }
  else notify { c with sent := true, inbox := some (text c.msg) }

def hangUp (c : Client) : Client := notify { c with hungUp := true }

/-- `epoll_ctl(.., EPOLL_CTL_ADD, ..)` -/
def register (c : Client) : Client :=
  { c with fd := .registered, ready := c.poll.epollin }

/-- `close` -/
def close (c : Client) : Client := { c with fd := .closed, inbox := none, ready := false }

/-- The daemon has read what there was, and put something into the queue. -/
def receive (c : Client) (msg : Option Msg) : Client :=
  { c with inbox := none, enqueued := c.enqueued ++ msg.toList }

end Client

/-! ## The daemon -/

inductive Target where
  | listener
  | client (i : Nat)
  deriving DecidableEq, Repr

/-- An entry of `events`. The listening socket is only ever readable. -/
inductive Event where
  | listener
  | client (i : Nat) (mask : Mask)
  deriving DecidableEq, Repr

def Event.target : Event → Target
  | .listener => .listener
  | .client i _ => .client i

/-- Where `main` is: in `epoll_wait`, in the loop over the events, in the accept
loop before `accept`, in the early `process_client`, before `epoll_ctl`; in the
`process_client` of an event, or before `close`. -/
inductive DaemonPc where
  | wait
  | events
  | accept
  | early (i : Nat) (call : Call)
  | add (i : Nat)
  | client (i : Nat) (call : Call)
  | close (i : Nat)
  deriving DecidableEq, Repr

/-- The state; `events` are those collected, then those still to be handled. -/
structure Daemon where
  pc : DaemonPc
  events : List Event
  clients : List Client
  listenerReady : Bool
  calls : Nat
  deriving DecidableEq, Repr

inductive DaemonAct where
  | connect (msg : Msg)
  | send (i : Nat)
  | hangUp (i : Nat)
  /-- `epoll_wait` takes a descriptor from the ready list. -/
  | collect (t : Target)
  /-- The next system call of the daemon, or the return of `epoll_wait`. -/
  | run
  deriving DecidableEq, Repr

/-- The steps of the daemon itself. -/
def DaemonAct.own : DaemonAct → Bool
  | .collect _ | .run => true
  | _ => false

namespace Daemon

def start : Daemon := ⟨.wait, [], [], false, 0⟩

def setClient (s : Daemon) (i : Nat) (c : Client) : Daemon :=
  { s with clients := s.clients.set i c }

/-- The connection that `accept` takes: the oldest one. -/
def pending (s : Daemon) : Option Nat := s.clients.findIdx? (·.fd == .backlog)

/-- One descriptor in `epoll_wait`; one with nothing to report is dropped. -/
def collect (s : Daemon) (t : Target) : Option Daemon :=
  if s.pc = .wait ∧ s.events.length < maxEvents ∧ t ∉ s.events.map (·.target) then
    match t with
    | .listener =>
      if s.listenerReady then
        some { s with
          listenerReady := false
          events := if s.pending.isSome then s.events ++ [.listener] else s.events }
      else none
    | .client i =>
      match s.clients[i]? with
      | some c =>
        if c.ready then
          some { s.setClient i { c with ready := false } with
            events := if c.poll.epollin then s.events ++ [.client i c.poll] else s.events }
        else none
      | none => none
  else none

/-- The body of the loop over the events. -/
def handle (stack : Nat → Stack) (s : Daemon) : Event → Daemon
  | .listener => { s with pc := .accept }
  | .client i mask =>
    if mask.epollhup then { s with pc := .close i }
    else if mask.epollerr || !mask.epollin then { s with pc := .close i }
    else { s with pc := .client i ⟨stack s.calls, 0⟩, calls := s.calls + 1 }

/-- The next step of `main`. -/
def run (stack : Nat → Stack) (s : Daemon) : Option Daemon :=
  match s.pc with
  | .wait => if s.events = [] then none else some { s with pc := .events }
  | .events =>
    match s.events with
    | [] => some { s with pc := .wait }
    | e :: rest => some (handle stack { s with events := rest } e)
  | .accept =>
    match s.pending with
    | none => some { s with pc := .events }
    | some i =>
      (s.clients[i]?).map fun c =>
        { s.setClient i { c with fd := .accepted } with
          pc := .early i ⟨stack s.calls, 0⟩
          calls := s.calls + 1 }
  | .early i call =>
    (s.clients[i]?).map fun c =>
      match processRead call c.nextRead with
      | .again call => { s.setClient i (c.receive none) with pc := .early i call }
      -- the result of this call is not looked at
      | .ret _ msg => { s.setClient i (c.receive msg) with pc := .add i }
  | .add i => (s.clients[i]?).map fun c => { s.setClient i c.register with pc := .accept }
  | .client i call =>
    (s.clients[i]?).map fun c =>
      match processRead call c.nextRead with
      | .again call => { s.setClient i (c.receive none) with pc := .client i call }
      | .ret done msg =>
        { s.setClient i (c.receive msg) with pc := if done then .close i else .events }
  | .close i => (s.clients[i]?).map fun c => { s.setClient i c.close with pc := .events }

end Daemon

/-- What can happen next. `stack` is what the calls of `process_client` find on
the stack. -/
def daemonStep (stack : Nat → Stack) (s : Daemon) : DaemonAct → Option Daemon
  | .connect msg =>
    some { s with clients := s.clients ++ [.connected msg], listenerReady := true }
  | .send i =>
    (s.clients[i]?).bind fun c => if c.sent then none else some (s.setClient i c.send)
  | .hangUp i =>
    (s.clients[i]?).bind fun c =>
      if c.sent && !c.hungUp then some (s.setClient i c.hangUp) else none
  | .collect t => s.collect t
  | .run => s.run stack

/-- The daemon sleeps in `epoll_wait`. -/
def Daemon.asleep (s : Daemon) : Bool :=
  s.pc == .wait && s.events.isEmpty && !s.listenerReady && s.clients.all (!·.ready)

/-! ## When a client hangs up -/

/-- The daemon is in a `process_client` for this connection. -/
def DaemonPc.reading (i : Nat) : DaemonPc → Bool
  | .early j _ | .client j _ => j == i
  | _ => false

/-- A request that is still there when its client hangs up is about to be read:
its connection is not accepted yet, is being read, or was reported without a
hang-up. -/
def hangsUpLateStep (s : Daemon) : DaemonAct → Bool
  | .hangUp i =>
    (s.clients[i]?).all fun c =>
      c.inbox.isNone || c.fd == .backlog || s.pc.reading i
        || s.events.contains (.client i ⟨true, false, false⟩)
  | _ => true

def hangsUpLate (s : Daemon) (a : DaemonAct) : Prop := hangsUpLateStep s a = true

instance (s : Daemon) (a : DaemonAct) : Decidable (hangsUpLate s a) :=
  inferInstanceAs (Decidable (_ = true))

/-! ## The invariant -/

/-- The way of a request: not sent, waiting to be read, in the queue. -/
inductive Progress (c : Client) : Prop where
  | unsent : c.sent = false → c.hungUp = false → c.inbox = none → c.enqueued = [] → Progress c
  | waiting : c.sent = true → c.inbox = some (text c.msg) → c.enqueued = [] → Progress c
  | queued : c.sent = true → c.inbox = none → c.enqueued = [c.msg] → Progress c

/-- What makes sure that a waiting request is read. -/
inductive WillRead (pc : DaemonPc) (events : List Event) (i : Nat) (c : Client) : Prop where
  | backlog : c.fd = .backlog → WillRead pc events i c
  | reading : pc.reading i = true → WillRead pc events i c
  | reported : .client i ⟨true, false, false⟩ ∈ events → WillRead pc events i c
  | adding : pc = .add i → c.hungUp = false → WillRead pc events i c
  | ready : c.ready = true → c.hungUp = false → WillRead pc events i c

/-- A connection in a state of the daemon. Nothing is reported, handled or closed
before the request was sent, and a hang-up is reported only behind it. -/
structure Served (pc : DaemonPc) (events : List Event) (i : Nat) (c : Client) : Prop where
  progress : Progress c
  willRead : c.inbox.isSome = true → WillRead pc events i c
  accepted : c.fd = .accepted ↔ pc = .add i ∨ ∃ call, pc = .early i call
  ready : c.ready = true → c.fd = .registered ∧ c.sent = true
  reported : ∀ mask, .client i mask ∈ events →
    c.sent = true ∧ mask.epollin = true ∧ mask.epollerr = false
      ∧ (mask.epollhup = true → c.inbox = none)
  handled : ∀ call, pc = .client i call → c.sent = true
  fresh : ∀ call, pc = .client i call ∨ pc = .early i call → call.totalSize = 0
  closing : pc = .close i ∨ c.fd = .closed → c.sent = true ∧ c.inbox = none

/-- The accept loop is running. -/
def DaemonPc.accepting : DaemonPc → Bool
  | .accept | .early .. | .add _ => true
  | _ => false

/-- The connection that the daemon is busy with. -/
def DaemonPc.about : DaemonPc → Option Nat
  | .early i _ | .add i | .client i _ | .close i => some i
  | _ => none

/-- The backlog is going to be looked at. -/
def Daemon.listens (s : Daemon) : Prop :=
  s.listenerReady = true ∨ .listener ∈ s.events ∨ s.pc.accepting = true

structure Serving (s : Daemon) : Prop where
  served : ∀ i c, s.clients[i]? = some c → Served s.pc s.events i c
  listening : ∀ (i : Nat) c, s.clients[i]? = some c → c.fd = .backlog →
    s.listenerReady = true ∨ .listener ∈ s.events ∨ s.pc.accepting = true
  about : ∀ i, s.pc.about = some i → i < s.clients.length
  known : ∀ i mask, .client i mask ∈ s.events → i < s.clients.length

variable {pc : DaemonPc} {i : Nat}

theorem reading_about (h : pc.reading i = true) : pc.about = some i := by
  cases pc with
  | early j _ | client j _ => exact congrArg some (eq_of_beq h)
  | _ => cases h

theorem about_ne (h : pc.about = none) : pc.about ≠ some i := by
  rw [h]
  simp

theorem about_other {j : Nat} (h : pc.about = none ∨ pc.about = some i)
    (hj : j ≠ i) : pc.about ≠ some j := by
  rcases h with h | h <;> rw [h]
  · simp
  · simpa using hj.symm

theorem not_accepted_about (h : pc.about ≠ some i) :
    ¬ (pc = .add i ∨ ∃ call, pc = .early i call) := by
  rintro (rfl | ⟨call, rfl⟩) <;> exact h rfl

/-! ## One connection -/

section OneConnection

variable {pc pc' : DaemonPc} {events events' : List Event} {i : Nat} {c : Client}

/-- The place of a connection has no say in the way of its request. -/
theorem Progress.moved (h : Progress c) (fd : Fd) (ready : Bool) :
    Progress { c with fd := fd, ready := ready } := by
  cases h with
  | unsent hsent hopen hinbox hqueue => exact .unsent hsent hopen hinbox hqueue
  | waiting hsent hinbox hqueue => exact .waiting hsent hinbox hqueue
  | queued hsent hinbox hqueue => exact .queued hsent hinbox hqueue

/-- A connection that the daemon is not busy with. -/
theorem Served.aside (hpc : pc.about ≠ some i) (hprogress : Progress c)
    (hwillRead : c.inbox.isSome = true → WillRead pc events i c) (hfd : c.fd ≠ .accepted)
    (hready : c.ready = true → c.fd = .registered ∧ c.sent = true)
    (hreported : ∀ mask, .client i mask ∈ events →
      c.sent = true ∧ mask.epollin = true ∧ mask.epollerr = false
        ∧ (mask.epollhup = true → c.inbox = none))
    (hclosed : c.fd = .closed → c.sent = true ∧ c.inbox = none) : Served pc events i c where
  progress := hprogress
  willRead := hwillRead
  accepted := iff_of_false hfd (not_accepted_about hpc)
  ready := hready
  reported := hreported
  handled call heq := absurd (by rw [heq]; rfl) hpc
  fresh call hcall := by
    rcases hcall with rfl | rfl <;> exact absurd rfl hpc
  closing hclose := by
    rcases hclose with rfl | hclose
    · exact absurd rfl hpc
    · exact hclosed hclose

/-- What happens to another connection changes nothing. -/
theorem Served.frame (h : Served pc events i c) (hpc : pc.about ≠ some i)
    (hpc' : pc'.about ≠ some i)
    (hevents : ∀ mask, .client i mask ∈ events' ↔ .client i mask ∈ events) :
    Served pc' events' i c := by
  refine .aside hpc' h.progress ?_ (fun hfd => not_accepted_about hpc (h.accepted.mp hfd)) h.ready
    (fun mask hmem => h.reported mask ((hevents mask).mp hmem))
    fun hclosed => h.closing (.inr hclosed)
  intro hinbox
  cases h.willRead hinbox with
  | backlog hfd => exact .backlog hfd
  | reading hreading => exact absurd (reading_about hreading) hpc
  | reported hmem => exact .reported ((hevents _).mpr hmem)
  | adding hadd _ => exact absurd (by rw [hadd]; rfl) hpc
  | ready hready hopen => exact .ready hready hopen

theorem Served.connected (msg : Msg) (hpc : pc.about ≠ some i)
    (hevents : ∀ mask, .client i mask ∉ events) : Served pc events i (.connected msg) := by
  refine .aside hpc (.unsent rfl rfl rfl rfl) ?_ ?_ ?_
    (fun mask hmem => absurd hmem (hevents mask)) ?_ <;> intro hfalse <;> cases hfalse

/-- Before the request is sent, the connection is not closed, and nothing is
there to be reported. -/
theorem Served.unsent (h : Served pc events i c) (hsent : c.sent = false) :
    c.hungUp = false ∧ c.enqueued = [] ∧ c.fd ≠ .closed ∧ pc ≠ .close i
      ∧ (∀ mask, .client i mask ∉ events) ∧ ∀ call, pc ≠ .client i call := by
  have hnot : c.sent ≠ true := by
    rw [hsent]
    decide
  refine ⟨?_, ?_, fun hclosed => hnot (h.closing (.inr hclosed)).1,
    fun hclose => hnot (h.closing (.inl hclose)).1,
    fun mask hmem => hnot (h.reported mask hmem).1, fun call heq => hnot (h.handled call heq)⟩
  all_goals cases h.progress with
    | unsent _ hopen _ hqueue => assumption
    | waiting hsent' _ _ | queued hsent' _ _ => exact absurd hsent' hnot

theorem Served.send (h : Served pc events i c) (hsent : c.sent = false) :
    Served pc events i c.send := by
  obtain ⟨hopen, hqueue, hfd, hclose, hevents, hclient⟩ := h.unsent hsent
  have hsend : c.send = Client.notify { c with sent := true, inbox := some (text c.msg) } :=
    if_neg hfd
  rw [hsend]
  exact {
    progress := .waiting rfl rfl hqueue
    willRead := by
      intro _
      cases hstate : c.fd with
      | backlog => exact .backlog rfl
      | accepted =>
        rcases h.accepted.mp hstate with hadd | ⟨call, hearly⟩
        · exact .adding hadd hopen
        · refine .reading ?_
          rw [hearly]
          exact beq_self_eq_true i
      | registered =>
        refine .ready ?_ hopen
        simp [Client.notify]
      | closed => exact absurd hstate hfd
    accepted := h.accepted
    ready := by
      intro hready
      refine ⟨?_, rfl⟩
      rcases (Bool.or_eq_true _ _).mp hready with hready | hregistered
      · exact (h.ready hready).1
      · exact eq_of_beq hregistered
    reported := fun mask hmem => absurd hmem (hevents mask)
    handled := fun call heq => absurd heq (hclient call)
    fresh := h.fresh
    closing := by
      rintro (heq | hclosed)
      · exact absurd heq hclose
      · exact absurd hclosed hfd }

theorem Served.hangUp (h : Served pc events i c) (hsent : c.sent = true)
    (hlate : c.inbox.isSome = true →
      c.fd = .backlog ∨ pc.reading i = true ∨ .client i ⟨true, false, false⟩ ∈ events) :
    Served pc events i c.hangUp where
  progress := by
    cases h.progress with
    | unsent hunsent _ _ _ => cases hunsent.symm.trans hsent
    | waiting _ hinbox hqueue => exact .waiting hsent hinbox hqueue
    | queued _ hinbox hqueue => exact .queued hsent hinbox hqueue
  willRead hinbox := by
    rcases hlate hinbox with hfd | hreading | hmem
    · exact .backlog hfd
    · exact .reading hreading
    · exact .reported hmem
  accepted := h.accepted
  ready hready := by
    refine ⟨?_, hsent⟩
    rcases (Bool.or_eq_true _ _).mp hready with hready | hregistered
    · exact (h.ready hready).1
    · exact eq_of_beq hregistered
  reported := h.reported
  handled := h.handled
  fresh := h.fresh
  closing := h.closing

/-- `epoll_wait` takes the connection from the ready list. A hang-up is reported
only if the request was read, since the connection of a waiting request would
have been ready before it. -/
theorem Served.collect (h : Served .wait events i c) (hready : c.ready = true)
    (hnew : Target.client i ∉ events.map (·.target)) :
    Served .wait (if c.poll.epollin then events ++ [.client i c.poll] else events) i
      { c with ready := false } := by
  obtain ⟨hfd, hsent⟩ := h.ready hready
  have hopen : c.inbox.isSome = true → c.hungUp = false := by
    intro hinbox
    cases h.willRead hinbox with
    | backlog hbacklog => cases hbacklog.symm.trans hfd
    | reading hreading => cases hreading
    | reported hmem => exact absurd (mem_map_of_mem hmem) hnew
    | adding hadd _ => cases hadd
    | ready _ hopen => exact hopen
  have hold : ∀ mask, .client i mask ∉ events := by
    intro mask hmem
    exact hnew (mem_map_of_mem hmem)
  have hmem : ∀ mask, .client i mask
      ∈ (if c.poll.epollin then events ++ [.client i c.poll] else events) →
      mask = c.poll ∧ c.poll.epollin = true := by
    intro mask hmem
    split at hmem
    · next hin =>
      rcases mem_append.mp hmem with hmem | hmem
      · exact absurd hmem (hold mask)
      · cases mem_singleton.mp hmem
        exact ⟨rfl, hin⟩
    · exact absurd hmem (hold mask)
  exact {
    progress := h.progress.moved c.fd false
    willRead := by
      intro hinbox
      have hpoll : c.poll = ⟨true, false, false⟩ := by
        have hisSome : c.inbox.isSome = true := hinbox
        simp [Client.poll, hisSome, hopen hinbox]
      refine .reported ?_
      rw [hpoll]
      exact mem_append_right _ mem_cons_self
    accepted := h.accepted
    ready := fun hfalse => by cases hfalse
    reported := by
      intro mask hmask
      obtain ⟨rfl, hin⟩ := hmem mask hmask
      refine ⟨hsent, hin, rfl, ?_⟩
      intro hhup
      cases hinbox : c.inbox with
      | none => rfl
      | some bytes =>
        have hclosed : c.hungUp = false := hopen (by rw [hinbox]; rfl)
        cases hhup.symm.trans hclosed
    handled := h.handled
    fresh := h.fresh
    closing := h.closing }

theorem nextRead_none (hfd : c.fd ≠ .closed) (hinbox : c.inbox = none) :
    c.nextRead = if c.hungUp then .eof else .eagain := by
  rw [Client.nextRead, if_neg hfd, hinbox]

/-- The daemon reads what there is: nothing, a whole request, or the end. -/
theorem Served.receive (h : Served pc events i c) {call : Call} (hcall : call.totalSize = 0) :
    ∃ done msg, processRead call c.nextRead = .ret done msg ∧ Progress (c.receive msg)
      ∧ (done = true → c.sent = true) := by
  have hnone : c.inbox = none → Progress (c.receive none) := by
    intro hinbox
    have hsame : c.receive none = c := by
      cases c
      simp only [Client.receive, Option.toList_none, append_nil] at hinbox ⊢
      rw [hinbox]
    rw [hsame]
    exact h.progress
  by_cases hclosed : c.fd = .closed
  · obtain ⟨hsent, hinbox⟩ := h.closing (.inr hclosed)
    have hread : c.nextRead = .failed := if_pos hclosed
    rw [hread]
    exact ⟨true, none, rfl, hnone hinbox, fun _ => hsent⟩
  cases h.progress with
  | unsent hunsent hopen hinbox _ =>
    rw [nextRead_none hclosed hinbox, hopen]
    exact ⟨false, none, rfl, hnone hinbox, fun hdone => by cases hdone⟩
  | waiting hsent hinbox hqueue =>
    have hread : c.nextRead = .data (text c.msg) := by
      simp [Client.nextRead, hclosed, hinbox]
    have hlong := length_text c.msg
    rw [hread, processRead, if_pos (by omega), processBuf_text]
    refine ⟨true, some c.msg, rfl, .queued hsent rfl ?_, fun _ => hsent⟩
    show c.enqueued ++ [c.msg] = [c.msg]
    rw [hqueue]
    rfl
  | queued hsent hinbox _ =>
    refine ⟨c.hungUp, none, ?_, hnone hinbox, fun _ => hsent⟩
    rw [nextRead_none hclosed hinbox]
    cases c.hungUp <;> rfl

/-- A connection that was read, whatever the daemon does with it next. -/
theorem Served.of_receive (h : Served pc events i c) {msg : Option Msg}
    (hprogress : Progress (c.receive msg))
    (haccepted : c.fd = .accepted ↔ pc' = .add i ∨ ∃ call, pc' = .early i call)
    (hpc : ∀ call, pc' ≠ .client i call ∧ pc' ≠ .early i call)
    (hclose : pc' = .close i → c.sent = true) : Served pc' events i (c.receive msg) where
  progress := hprogress
  willRead hsome := by cases hsome
  accepted := haccepted
  ready := h.ready
  reported mask hmem := by
    obtain ⟨hsent, hin, herr, -⟩ := h.reported mask hmem
    exact ⟨hsent, hin, herr, fun _ => rfl⟩
  handled call heq := absurd heq (hpc call).1
  fresh call hcall := by
    rcases hcall with heq | heq
    · exact absurd heq (hpc call).1
    · exact absurd heq (hpc call).2
  closing hclosing := by
    rcases hclosing with heq | hclosed
    · exact ⟨hclose heq, rfl⟩
    · exact ⟨(h.closing (.inr hclosed)).1, rfl⟩

/-- The event of a connection is next. -/
theorem Served.handle {mask : Mask} {rest : List Event}
    (h : Served .events (.client i mask :: rest) i c) (hpc : (pc' = .close i ∧ mask.epollhup = true)
      ∨ ∃ call, pc' = .client i call ∧ call.totalSize = 0) : Served pc' rest i c := by
  obtain ⟨hsent, -, -, hhup⟩ := h.reported mask mem_cons_self
  have hfd : c.fd ≠ .accepted := by
    intro hfd
    rcases h.accepted.mp hfd with heq | ⟨call, heq⟩ <;> cases heq
  exact {
    progress := h.progress
    willRead := by
      intro hinbox
      rcases hpc with ⟨-, hmask⟩ | ⟨call, rfl, -⟩
      · rw [hhup hmask] at hinbox
        cases hinbox
      · exact .reading (beq_self_eq_true i)
    accepted := by
      refine ⟨fun heq => absurd heq hfd, ?_⟩
      rcases hpc with ⟨rfl, -⟩ | ⟨call, rfl, -⟩ <;> rintro (heq | ⟨call, heq⟩) <;> cases heq
    ready := h.ready
    reported := fun m hmem => h.reported m (mem_cons_of_mem _ hmem)
    handled := fun _ _ => hsent
    fresh := by
      intro call hcall
      rcases hpc with ⟨rfl, -⟩ | ⟨call', rfl, hsize⟩ <;> rcases hcall with heq | heq <;> cases heq
      exact hsize
    closing := by
      rintro (rfl | hclosed)
      · rcases hpc with ⟨-, hmask⟩ | ⟨call, heq, -⟩
        · exact ⟨hsent, hhup hmask⟩
        · cases heq
      · exact h.closing (.inr hclosed) }

theorem Served.accept (h : Served .accept events i c) (hfd : c.fd = .backlog) {call : Call}
    (hcall : call.totalSize = 0) : Served (.early i call) events i { c with fd := .accepted } where
  progress := h.progress.moved .accepted c.ready
  willRead _ := .reading (beq_self_eq_true i)
  accepted := ⟨fun _ => .inr ⟨call, rfl⟩, fun _ => rfl⟩
  ready hready := by cases hfd.symm.trans (h.ready hready).1
  reported := h.reported
  handled call' heq := by cases heq
  fresh call' heq := by
    rcases heq with heq | heq <;> cases heq
    exact hcall
  closing hclose := by rcases hclose with heq | heq <;> cases heq

theorem Served.register (h : Served (.add i) events i c) : Served .accept events i c.register := by
  refine .aside (about_ne rfl) (h.progress.moved _ _) ?_ Fd.noConfusion ?_ h.reported
    fun hclosed => by cases hclosed
  · intro hinbox
    have hfd : c.fd = .accepted := h.accepted.mpr (.inl rfl)
    cases h.willRead hinbox with
    | backlog hbacklog => cases hbacklog.symm.trans hfd
    | reading hreading => cases hreading
    | reported hmem => exact .reported hmem
    | adding _ hopen =>
      refine .ready ?_ hopen
      exact Bool.or_eq_true_iff.mpr (.inl hinbox)
    | ready hready _ => cases hfd.symm.trans (h.ready hready).1
  · intro hready
    refine ⟨rfl, ?_⟩
    cases h.progress with
    | unsent _ hopen hinbox _ =>
      have hnothing : c.poll.epollin = false := by simp [Client.poll, hopen, hinbox]
      cases hready.symm.trans hnothing
    | waiting hsent _ _ | queued hsent _ _ => exact hsent

theorem Served.close (h : Served (.close i) events i c) : Served .events events i c.close := by
  obtain ⟨hsent, hinbox⟩ := h.closing (.inl rfl)
  refine .aside (about_ne rfl) ?_ (fun hsome => by cases hsome) Fd.noConfusion
    (fun hready => by cases hready) ?_ fun _ => ⟨hsent, rfl⟩
  · cases h.progress with
    | unsent hunsent _ _ _ => cases hunsent.symm.trans hsent
    | waiting _ hwaiting _ => cases hwaiting.symm.trans hinbox
    | queued _ _ hqueue => exact .queued hsent rfl hqueue
  · intro mask hmem
    obtain ⟨_, hin, herr, -⟩ := h.reported mask hmem
    exact ⟨hsent, hin, herr, fun _ => rfl⟩

end OneConnection

/-! ## The whole daemon -/

section WholeDaemon

variable {s s' : Daemon} {i : Nat} {c c' : Client}

/-- One connection changes, and the others can be left as they are. -/
theorem Serving.update (h : Serving s) (hi : s.clients[i]? = some c)
    (hi' : s'.clients = s.clients.set i c') (hserved : Served s'.pc s'.events i c')
    (hothers : ∀ j d, j ≠ i → Served s.pc s.events j d → Served s'.pc s'.events j d)
    (habout : ∀ j, s'.pc.about = some j → j = i ∨ s.pc.about = some j)
    (hknown : ∀ j mask, .client j mask ∈ s'.events → j = i ∨ .client j mask ∈ s.events)
    (hbacklog : c'.fd = .backlog → c.fd = .backlog)
    (hlisten : s.listens → s'.listens) : Serving s' := by
  have hlt : i < s.clients.length := (List.getElem?_eq_some_iff.mp hi).1
  have hlength : s'.clients.length = s.clients.length := by rw [hi', length_set]
  have hself : s'.clients[i]? = some c' := by rw [hi', List.getElem?_set_self hlt]
  have hother : ∀ j, j ≠ i → s'.clients[j]? = s.clients[j]? := by
    intro j hji
    rw [hi', List.getElem?_set_ne (Ne.symm hji)]
  refine ⟨?_, ?_, ?_, ?_⟩
  · intro j d hj
    by_cases hji : j = i
    · subst hji
      cases hself.symm.trans hj
      exact hserved
    · exact hothers j d hji (h.served j d ((hother j hji).symm.trans hj))
  · intro j d hj hfd
    refine hlisten ?_
    by_cases hji : j = i
    · subst hji
      cases hself.symm.trans hj
      exact h.listening j c hi (hbacklog hfd)
    · exact h.listening j d ((hother j hji).symm.trans hj) hfd
  · intro j hj
    rw [hlength]
    rcases habout j hj with rfl | hold
    · exact hlt
    · exact h.about j hold
  · intro j mask hmem
    rw [hlength]
    rcases hknown j mask hmem with rfl | hold
    · exact hlt
    · exact h.known j mask hold

/-- A step of the daemon that concerns one connection. -/
theorem Serving.set (h : Serving s) (hi : s.clients[i]? = some c)
    (hi' : s'.clients = s.clients.set i c') (hserved : Served s'.pc s'.events i c')
    (hpc : s.pc.about = none ∨ s.pc.about = some i)
    (hpc' : s'.pc.about = none ∨ s'.pc.about = some i)
    (hevents : ∀ j, j ≠ i → ∀ mask, .client j mask ∈ s'.events ↔ .client j mask ∈ s.events)
    (hbacklog : c'.fd = .backlog → c.fd = .backlog)
    (hlisten : s.listens → s'.listens) : Serving s' := by
  refine h.update hi hi' hserved ?_ ?_ ?_ hbacklog hlisten
  · intro j d hji hj
    exact hj.frame (about_other hpc hji) (about_other hpc' hji) (hevents j hji)
  · intro j hj
    by_cases hji : j = i
    · exact .inl hji
    · exact absurd hj (about_other hpc' hji)
  · intro j mask hmem
    by_cases hji : j = i
    · exact .inl hji
    · exact .inr ((hevents j hji mask).mp hmem)

/-- A step of the daemon that concerns no connection. -/
theorem Serving.move (h : Serving s) (hclients : s'.clients = s.clients)
    (hpc : s.pc.about = none) (hpc' : s'.pc.about = none)
    (hevents : ∀ j mask, .client j mask ∈ s'.events ↔ .client j mask ∈ s.events)
    (hlisten : ∀ (j : Nat) d, s.clients[j]? = some d → d.fd = .backlog → s'.listens) :
    Serving s' := by
  refine ⟨?_, ?_, ?_, ?_⟩
  · intro j d hj
    rw [hclients] at hj
    exact (h.served j d hj).frame (about_ne hpc) (about_ne hpc') (hevents j)
  · intro j d hj hfd
    rw [hclients] at hj
    exact hlisten j d hj hfd
  · intro j hj
    exact absurd hj (about_ne hpc')
  · intro j mask hmem
    rw [hclients]
    exact h.known j mask ((hevents j mask).mp hmem)

theorem Serving.start : Serving .start where
  served i c hi := by cases hi
  listening i c hi := by cases hi
  about i hi := by cases hi
  known i mask hmem := by cases hmem

theorem Serving.connect (h : Serving s) (msg : Msg) :
    Serving { s with clients := s.clients ++ [.connected msg], listenerReady := true } := by
  refine ⟨?_, fun _ _ _ _ => .inl rfl, ?_, ?_⟩
  · intro j d hj
    rcases Nat.lt_or_ge j s.clients.length with hlt | hge
    · rw [List.getElem?_append_left hlt] at hj
      exact h.served j d hj
    · rw [List.getElem?_append_right hge, List.getElem?_singleton] at hj
      split at hj
      · cases hj
        refine .connected msg ?_ ?_
        · intro habout
          have hlt := h.about j habout
          omega
        · intro mask hmem
          have hlt := h.known j mask hmem
          omega
      · cases hj
  · intro j hj
    have hlt := h.about j hj
    rw [length_append]
    omega
  · intro j mask hmem
    have hlt := h.known j mask hmem
    rw [length_append]
    omega

/-- A client of its own accord. -/
theorem Serving.client (h : Serving s) (hi : s.clients[i]? = some c)
    (hserved : Served s.pc s.events i c') (hfd : c'.fd = c.fd) : Serving (s.setClient i c') := by
  refine h.update hi rfl hserved (fun j d _ hj => hj) (fun j hj => .inr hj)
    (fun j mask hmem => .inr hmem) ?_ (fun hlisten => hlisten)
  intro hbacklog
  rw [← hfd]
  exact hbacklog

theorem Client.send_fd (c : Client) : c.send.fd = c.fd := by
  rw [Client.send]
  split <;> rfl

theorem pending_of_backlog (hi : s.clients[i]? = some c) (hfd : c.fd = .backlog) :
    s.pending.isSome = true := by
  rw [Daemon.pending, List.findIdx?_isSome]
  exact any_eq_true.mpr ⟨c, mem_of_getElem? hi, beq_iff_eq.mpr hfd⟩

theorem Serving.collect (h : Serving s) {t : Target} (hstep : s.collect t = some s') :
    Serving s' := by
  obtain ⟨⟨hpc, -, hnew⟩, hstep⟩ := Option.ite_none_right_eq_some.mp hstep
  cases t with
  | listener =>
    obtain ⟨-, hstep⟩ := Option.ite_none_right_eq_some.mp hstep
    cases hstep
    refine h.move rfl (by rw [hpc]; rfl) (by rw [hpc]; rfl) ?_ ?_
    · intro j mask
      show .client j mask ∈ (if s.pending.isSome then s.events ++ [.listener] else s.events) ↔ _
      split <;> simp
    · intro j d hj hfd
      refine .inr (.inl ?_)
      show .listener ∈ (if s.pending.isSome then s.events ++ [.listener] else s.events)
      rw [if_pos (pending_of_backlog hj hfd)]
      exact mem_append_right _ mem_cons_self
  | client i =>
    dsimp only at hstep
    split at hstep
    · next c hi =>
      obtain ⟨hready, hstep⟩ := Option.ite_none_right_eq_some.mp hstep
      cases hstep
      have hserved := h.served i c hi
      rw [hpc] at hserved
      have hidle : s.pc.about = none := by rw [hpc]; rfl
      refine h.set hi rfl ?_ (.inl hidle) (.inl hidle) ?_ (fun hfd => hfd) ?_
      · show Served s.pc _ i _
        rw [hpc]
        exact hserved.collect hready hnew
      · intro j hji mask
        show .client j mask ∈
          (if c.poll.epollin then s.events ++ [.client i c.poll] else s.events) ↔ _
        split
        · simp [hji]
        · exact Iff.rfl
      · rintro (hlistener | hmem | haccepting)
        · exact .inl hlistener
        · refine .inr (.inl ?_)
          show .listener ∈ (if c.poll.epollin then s.events ++ [.client i c.poll] else s.events)
          split
          · exact mem_append_left _ hmem
          · exact hmem
        · rw [hpc] at haccepting
          cases haccepting
    · cases hstep

/-- An event of a connection has it closed, on a hang-up, an error or for want of
data, or read. -/
theorem handle_client (stack : Nat → Stack) (s : Daemon) (i : Nat) (mask : Mask) :
    ∃ pc calls, Daemon.handle stack s (.client i mask) = { s with pc := pc, calls := calls } ∧
      ((pc = .close i ∧
          (mask.epollhup = true ∨ mask.epollerr = true ∨ mask.epollin = false)) ∨
        ∃ call, pc = .client i call ∧ call.totalSize = 0) := by
  rw [Daemon.handle]
  split
  · next hhup => exact ⟨_, _, rfl, .inl ⟨rfl, .inl hhup⟩⟩
  · split
    · next hmask =>
      rw [Bool.or_eq_true, Bool.not_eq_true'] at hmask
      exact ⟨_, _, rfl, .inl ⟨rfl, .inr hmask⟩⟩
    · exact ⟨_, _, rfl, .inr ⟨_, rfl, rfl⟩⟩

theorem Serving.handle (h : Serving s) (hpc : s.pc = .events) {e : Event} {rest : List Event}
    (hevents : s.events = e :: rest) (stack : Nat → Stack) :
    Serving (Daemon.handle stack { s with events := rest } e) := by
  cases e with
  | listener =>
    refine h.move rfl (by rw [hpc]; rfl) rfl ?_ (fun _ _ _ _ => .inr (.inr rfl))
    intro j mask
    rw [hevents]
    simp [Daemon.handle]
  | client i mask =>
    obtain ⟨c, hi⟩ : ∃ c, s.clients[i]? = some c := by
      have hlt := h.known i mask (by rw [hevents]; exact mem_cons_self)
      exact ⟨_, List.getElem?_eq_getElem hlt⟩
    have hserved := h.served i c hi
    rw [hpc, hevents] at hserved
    obtain ⟨-, hin, herr, -⟩ := hserved.reported mask mem_cons_self
    obtain ⟨pc', calls, heq, hcase⟩ := handle_client stack { s with events := rest } i mask
    have hpc' : (pc' = .close i ∧ mask.epollhup = true)
        ∨ ∃ call, pc' = .client i call ∧ call.totalSize = 0 := by
      rcases hcase with ⟨hclose, hhup | herr' | hin'⟩ | hread
      · exact .inl ⟨hclose, hhup⟩
      · cases herr.symm.trans herr'
      · cases hin.symm.trans hin'
      · exact .inr hread
    rw [heq]
    refine h.set hi ?_ (hserved.handle hpc') (.inl (by rw [hpc]; rfl)) (.inr ?_) ?_
      (fun hfd => hfd) ?_
    · obtain ⟨hlt, rfl⟩ := List.getElem?_eq_some_iff.mp hi
      exact (set_getElem_self hlt).symm
    · rcases hpc' with ⟨rfl, -⟩ | ⟨call, rfl, -⟩ <;> rfl
    · intro j hji m
      rw [hevents]
      simp [hji]
    · rw [Daemon.listens, hevents, hpc]
      rintro (hlistener | hmem | haccepting)
      · exact .inl hlistener
      · rcases mem_cons.mp hmem with heq' | hmem
        · cases heq'
        · exact .inr (.inl hmem)
      · cases haccepting

/-- What `accept` takes is in the backlog. -/
theorem pending_backlog (h : s.pending = some i) :
    ∃ c, s.clients[i]? = some c ∧ c.fd = .backlog := by
  obtain ⟨hlt, hfd, -⟩ := List.findIdx?_eq_some_iff_getElem.mp h
  exact ⟨_, List.getElem?_eq_getElem hlt, eq_of_beq hfd⟩

theorem Serving.accept (h : Serving s) (hpc : s.pc = .accept) {stack : Nat → Stack}
    (hstep : s.run stack = some s') : Serving s' := by
  simp only [Daemon.run, hpc] at hstep
  split at hstep
  · next hnone =>
    cases hstep
    refine h.move rfl (by rw [hpc]; rfl) rfl (fun _ _ => Iff.rfl) ?_
    intro j d hj hfd
    have hfound := pending_of_backlog hj hfd
    rw [hnone] at hfound
    cases hfound
  · next i hpending =>
    obtain ⟨c, hi, hfd⟩ := pending_backlog hpending
    rw [hi] at hstep
    cases hstep
    have hserved := h.served i c hi
    rw [hpc] at hserved
    exact h.set hi rfl (hserved.accept hfd rfl) (.inl (by rw [hpc]; rfl)) (.inr rfl)
      (fun _ _ _ => Iff.rfl) Fd.noConfusion fun _ => .inr (.inr rfl)

/-- The daemon is done with a read on a connection. -/
theorem Serving.receive (h : Serving s) (hi : s.clients[i]? = some c) (habout : s.pc.about = some i)
    {msg : Option Msg} {pc' : DaemonPc} (hprogress : Progress (c.receive msg))
    (haccepted : c.fd = .accepted ↔ pc' = .add i ∨ ∃ call, pc' = .early i call)
    (hpc : ∀ call, pc' ≠ .client i call ∧ pc' ≠ .early i call)
    (hclose : pc' = .close i → c.sent = true) (habout' : pc'.about = none ∨ pc'.about = some i)
    (hlisten : s.pc.accepting = true → pc'.accepting = true) :
    Serving { s.setClient i (c.receive msg) with pc := pc' } := by
  refine h.set hi rfl ((h.served i c hi).of_receive hprogress haccepted hpc hclose) (.inr habout)
    habout' (fun _ _ _ => Iff.rfl) (fun hfd => hfd) ?_
  rintro (hlistener | hmem | haccepting)
  · exact .inl hlistener
  · exact .inr (.inl hmem)
  · exact .inr (.inr (hlisten haccepting))

variable {stack : Nat → Stack} {call : Call}

theorem Serving.early (h : Serving s) (hpc : s.pc = .early i call)
    (hstep : s.run stack = some s') : Serving s' := by
  simp only [Daemon.run, hpc] at hstep
  obtain ⟨c, hi, rfl⟩ := Option.map_eq_some_iff.mp hstep
  have hserved := h.served i c hi
  obtain ⟨done, msg, hread, hprogress, -⟩ := hserved.receive (hserved.fresh call (.inr hpc))
  have hfd : c.fd = .accepted := hserved.accepted.mpr (.inr ⟨call, hpc⟩)
  rw [hread]
  exact h.receive hi (by rw [hpc]; rfl) hprogress (iff_of_true hfd (.inl rfl))
    (fun _ => ⟨DaemonPc.noConfusion, DaemonPc.noConfusion⟩) DaemonPc.noConfusion (.inr rfl)
    fun _ => rfl

theorem Serving.process (h : Serving s) (hpc : s.pc = .client i call)
    (hstep : s.run stack = some s') : Serving s' := by
  simp only [Daemon.run, hpc] at hstep
  obtain ⟨c, hi, rfl⟩ := Option.map_eq_some_iff.mp hstep
  have hserved := h.served i c hi
  obtain ⟨done, msg, hread, hprogress, hdone⟩ := hserved.receive (hserved.fresh call (.inl hpc))
  have hfd : c.fd ≠ .accepted := by
    intro hfd
    rcases hserved.accepted.mp hfd with heq | ⟨call', heq⟩ <;> cases hpc.symm.trans heq
  have haccepting : s.pc.accepting = true → False := by
    rw [hpc]
    exact Bool.noConfusion
  rw [hread]
  cases done with
  | true =>
    refine h.receive hi (by rw [hpc]; rfl) hprogress (iff_of_false hfd ?_)
      (fun _ => ⟨DaemonPc.noConfusion, DaemonPc.noConfusion⟩) (fun _ => hdone rfl) (.inr rfl)
      fun hacc => (haccepting hacc).elim
    rintro (heq | ⟨call', heq⟩) <;> cases heq
  | false =>
    exact h.receive hi (by rw [hpc]; rfl) hprogress
      (iff_of_false hfd (not_accepted_about (about_ne rfl)))
      (fun _ => ⟨DaemonPc.noConfusion, DaemonPc.noConfusion⟩) DaemonPc.noConfusion (.inl rfl)
      fun hacc => (haccepting hacc).elim

theorem Serving.run (h : Serving s) (hstep : s.run stack = some s') : Serving s' := by
  cases hpc : s.pc with
  | wait =>
    simp only [Daemon.run, hpc] at hstep
    obtain ⟨-, hstep⟩ := Option.ite_none_left_eq_some.mp hstep
    cases hstep
    refine h.move rfl (by rw [hpc]; rfl) rfl (fun _ _ => Iff.rfl) ?_
    intro j d hj hfd
    have hlisten := h.listening j d hj hfd
    rw [hpc] at hlisten
    exact hlisten
  | events =>
    simp only [Daemon.run, hpc] at hstep
    split at hstep
    · cases hstep
      refine h.move rfl (by rw [hpc]; rfl) rfl (fun _ _ => Iff.rfl) ?_
      intro j d hj hfd
      have hlisten := h.listening j d hj hfd
      rw [hpc] at hlisten
      exact hlisten
    · next e rest hevents =>
      cases hstep
      exact h.handle hpc hevents stack
  | accept => exact h.accept hpc hstep
  | early i call => exact h.early hpc hstep
  | add i =>
    simp only [Daemon.run, hpc] at hstep
    obtain ⟨c, hi, rfl⟩ := Option.map_eq_some_iff.mp hstep
    have hserved := h.served i c hi
    rw [hpc] at hserved
    exact h.set hi rfl hserved.register (.inr (by rw [hpc]; rfl)) (.inl rfl)
      (fun _ _ _ => Iff.rfl) Fd.noConfusion fun _ => .inr (.inr rfl)
  | client i call => exact h.process hpc hstep
  | close i =>
    simp only [Daemon.run, hpc] at hstep
    obtain ⟨c, hi, rfl⟩ := Option.map_eq_some_iff.mp hstep
    have hserved := h.served i c hi
    rw [hpc] at hserved
    refine h.set hi rfl hserved.close (.inr (by rw [hpc]; rfl)) (.inl rfl)
      (fun _ _ _ => Iff.rfl) Fd.noConfusion ?_
    rw [Daemon.listens, hpc]
    exact fun hlisten => hlisten

/-- Every step keeps the invariant. -/
theorem Serving.step (h : Serving s) {stack : Nat → Stack} {a : DaemonAct}
    (hlate : hangsUpLate s a) (hstep : daemonStep stack s a = some s') : Serving s' := by
  cases a with
  | connect msg =>
    cases hstep
    exact h.connect msg
  | send i =>
    obtain ⟨c, hi, hstep⟩ := Option.bind_eq_some_iff.mp hstep
    obtain ⟨hsent, hstep⟩ := Option.ite_none_left_eq_some.mp hstep
    cases hstep
    exact h.client hi ((h.served i c hi).send (Bool.eq_false_iff.mpr hsent)) c.send_fd
  | hangUp i =>
    obtain ⟨c, hi, hstep⟩ := Option.bind_eq_some_iff.mp hstep
    obtain ⟨hsent, hstep⟩ := Option.ite_none_right_eq_some.mp hstep
    cases hstep
    refine h.client hi ((h.served i c hi).hangUp (Bool.and_eq_true_iff.mp hsent).1 ?_) rfl
    intro hinbox
    have hnone : c.inbox.isNone = false := by
      rw [← Option.not_isSome, hinbox]
      rfl
    simp only [hangsUpLate, hangsUpLateStep, hi, Option.all_some, hnone, Bool.false_or,
      Bool.or_eq_true, beq_iff_eq, contains_iff_mem] at hlate
    exact or_assoc.mp hlate
  | collect t => exact h.collect hstep
  | run => exact h.run hstep

end WholeDaemon

/-! ## The work that is left -/

/-- What a connection can still cost: to accept, read and register it, to
collect and handle its events, to read a piece. -/
def Client.work (c : Client) : Nat :=
  11 * (c.fd == .backlog).toNat + 8 * c.ready.toNat + c.inbox.isSome.toNat

def clientsWork : List Client → Nat
  | [] => 0
  | c :: clients => c.work + clientsWork clients

/-- The costs of the place where the daemon is, of its events, and of a ready
listening socket. The first event ends the sleep. -/
def Daemon.loopWork (s : Daemon) : Nat :=
  let pc :=
    match s.pc with
    | .wait => 2 * (!s.events.isEmpty).toNat
    | .events => 1
    | .accept => 2
    | .early .. => 12
    | .add _ => 11
    | .client .. => 3
    | .close _ => 2
  pc + 5 * s.events.length + 8 * s.listenerReady.toNat

/-- A bound for the steps the daemon can make by itself. -/
def Daemon.work (s : Daemon) : Nat := s.loopWork + clientsWork s.clients

/-- Only the daemon moves. -/
def ownStep (_ : Daemon) (a : DaemonAct) : Prop := a.own = true

theorem clientsWork_set {clients : List Client} {c : Client} (hi : clients[i]? = some c)
    (c' : Client) : clientsWork (clients.set i c') + c.work = clientsWork clients + c'.work := by
  induction clients generalizing i with
  | nil => cases hi
  | cons d clients ih =>
    cases i with
    | zero =>
      cases hi
      simp only [set_cons_zero, clientsWork]
      omega
    | succ i =>
      have hrest := ih hi
      simp only [set_cons_succ, clientsWork]
      omega

section Work

variable {s s' : Daemon} {i : Nat} {c c' : Client}

/-- A step that concerns one connection. -/
theorem work_set (hi : s.clients[i]? = some c) (hclients : s'.clients = s.clients.set i c')
    (hless : s'.loopWork + c'.work < s.loopWork + c.work) : s'.work < s.work := by
  have hsum := clientsWork_set hi c'
  rw [← hclients] at hsum
  rw [Daemon.work, Daemon.work]
  omega

/-- One more event costs less than a descriptor that is ready. -/
theorem loopWork_wait (hpc : s.pc = .wait) (e : Event) :
    (2 * (!(s.events ++ [e]).isEmpty).toNat) + 5 * (s.events ++ [e]).length
      + 8 * s.listenerReady.toNat < s.loopWork + 8 := by
  simp only [Daemon.loopWork, hpc, length_append, length_singleton]
  cases s.events with
  | nil =>
    show 2 + 5 + _ < 0 + 0 + _ + 8
    omega
  | cons d rest =>
    show 2 + _ + _ < 2 + _ + _ + 8
    omega

theorem work_collect {t : Target} (hstep : s.collect t = some s') : s'.work < s.work := by
  obtain ⟨⟨hpc, -, -⟩, hstep⟩ := Option.ite_none_right_eq_some.mp hstep
  cases t with
  | listener =>
    obtain ⟨hready, hstep⟩ := Option.ite_none_right_eq_some.mp hstep
    cases hstep
    have hadded := loopWork_wait hpc .listener
    simp only [Daemon.work, Daemon.loopWork, hpc, hready, Bool.toNat_true, Bool.toNat_false]
      at hadded ⊢
    split <;> omega
  | client i =>
    dsimp only at hstep
    split at hstep
    · next c hi =>
      obtain ⟨hready, hstep⟩ := Option.ite_none_right_eq_some.mp hstep
      cases hstep
      have hadded := loopWork_wait hpc (.client i c.poll)
      refine work_set hi rfl ?_
      simp only [Client.work, Daemon.loopWork, Daemon.setClient, hpc, hready, Bool.toNat_true,
        Bool.toNat_false] at hadded ⊢
      split <;> omega
    · cases hstep

/-- What was read is not there any more. -/
theorem work_receive (c : Client) (msg : Option Msg) : (c.receive msg).work ≤ c.work := by
  show 11 * _ + 8 * _ + 0 ≤ 11 * _ + 8 * _ + _
  exact Nat.add_le_add_left (Nat.zero_le _) _

/-- Only data let `process_client` read once more. -/
theorem work_again {call call' : Call} (h : processRead call c.nextRead = .again call') :
    (c.receive none).work < c.work := by
  have hsome : c.inbox.isSome = true := by
    cases hinbox : c.inbox with
    | some bytes => rfl
    | none =>
      rw [Client.nextRead, hinbox] at h
      split at h
      · cases h
      · dsimp only at h
        split at h <;> cases h
  show 11 * _ + 8 * _ + 0 < 11 * _ + 8 * _ + c.inbox.isSome.toNat
  rw [hsome]
  exact Nat.lt_succ_self _

/-- A read is followed by another one, or the daemon gets out of `process_client`. -/
theorem work_read (hi : s.clients[i]? = some c) {call : Call} {again : Call → DaemonPc}
    {ret : Bool → DaemonPc}
    (hagain : ∀ call', ({ s with pc := again call' } : Daemon).loopWork = s.loopWork)
    (hret : ∀ done, ({ s with pc := ret done } : Daemon).loopWork < s.loopWork) :
    (match processRead call c.nextRead with
      | .again call => { s.setClient i (c.receive none) with pc := again call }
      | .ret done msg => { s.setClient i (c.receive msg) with pc := ret done } : Daemon).work
      < s.work := by
  split
  · next call' heq =>
    refine work_set hi rfl ?_
    have hless := work_again heq
    have hsame := hagain call'
    simp only [Daemon.loopWork, Daemon.setClient] at hsame ⊢
    omega
  · next done msg _ =>
    refine work_set hi rfl ?_
    have hless := work_receive c msg
    have hout := hret done
    simp only [Daemon.loopWork, Daemon.setClient] at hout ⊢
    omega

/-- To go where an event leads costs less than the event. -/
theorem work_handle (stack : Nat → Stack) {e : Event} {rest : List Event} (hpc : s.pc = .events)
    (hevents : s.events = e :: rest) :
    (Daemon.handle stack { s with events := rest } e).work < s.work := by
  cases e with
  | listener =>
    simp only [Daemon.handle, Daemon.work, Daemon.loopWork, hpc, hevents, length_cons]
    omega
  | client i mask =>
    obtain ⟨pc, calls, heq, hcase⟩ := handle_client stack { s with events := rest } i mask
    rw [heq]
    simp only [Daemon.work, Daemon.loopWork, hpc, hevents, length_cons]
    rcases hcase with ⟨rfl, -⟩ | ⟨call, rfl, -⟩ <;> dsimp only <;> omega

theorem work_run {stack : Nat → Stack} (hstep : s.run stack = some s') : s'.work < s.work := by
  cases hpc : s.pc with
  | wait =>
    simp only [Daemon.run, hpc] at hstep
    obtain ⟨hne, hstep⟩ := Option.ite_none_left_eq_some.mp hstep
    cases hstep
    have hsome : s.events.isEmpty = false := by
      rw [isEmpty_eq_false_iff]
      exact hne
    simp only [Daemon.work, Daemon.loopWork, hpc, hsome, Bool.not_false, Bool.toNat_true]
    omega
  | events =>
    simp only [Daemon.run, hpc] at hstep
    split at hstep
    · next hnil =>
      cases hstep
      simp only [Daemon.work, Daemon.loopWork, hpc, hnil, isEmpty_nil, Bool.not_true,
        Bool.toNat_false]
      omega
    · next e rest hevents =>
      cases hstep
      exact work_handle stack hpc hevents
  | accept =>
    simp only [Daemon.run, hpc] at hstep
    split at hstep
    · cases hstep
      simp only [Daemon.work, Daemon.loopWork, hpc]
      omega
    · next i hpending =>
      obtain ⟨c, hi, hfd⟩ := pending_backlog hpending
      rw [hi] at hstep
      cases hstep
      refine work_set hi rfl ?_
      have hbacklog : (c.fd == .backlog) = true := beq_iff_eq.mpr hfd
      have haccepted : (Fd.accepted == Fd.backlog) = false := rfl
      simp only [Client.work, Daemon.loopWork, Daemon.setClient, hpc, hbacklog, haccepted,
        Bool.toNat_true, Bool.toNat_false]
      omega
  | early i call =>
    simp only [Daemon.run, hpc] at hstep
    obtain ⟨c, hi, rfl⟩ := Option.map_eq_some_iff.mp hstep
    refine work_read hi ?_ fun done => ?_ <;> simp [Daemon.loopWork, hpc]
  | add i =>
    simp only [Daemon.run, hpc] at hstep
    obtain ⟨c, hi, rfl⟩ := Option.map_eq_some_iff.mp hstep
    refine work_set hi rfl ?_
    have hready : c.poll.epollin.toNat ≤ 1 := Bool.toNat_le _
    have hregistered : (Fd.registered == Fd.backlog) = false := rfl
    simp only [Client.work, Client.register, Daemon.loopWork, Daemon.setClient, hpc, hregistered,
      Bool.toNat_false]
    omega
  | client i call =>
    simp only [Daemon.run, hpc] at hstep
    obtain ⟨c, hi, rfl⟩ := Option.map_eq_some_iff.mp hstep
    refine work_read hi ?_ fun done => ?_
    · simp [Daemon.loopWork, hpc]
    · cases done <;> simp [Daemon.loopWork, hpc]
  | close i =>
    simp only [Daemon.run, hpc] at hstep
    obtain ⟨c, hi, rfl⟩ := Option.map_eq_some_iff.mp hstep
    refine work_set hi rfl ?_
    have hclosed : (Fd.closed == Fd.backlog) = false := rfl
    simp only [Client.work, Client.close, Daemon.loopWork, Daemon.setClient, hpc, hclosed,
      Bool.toNat_false, Option.isSome_none]
    omega

end Work

/-! ## No request is lost -/

section Enqueued

variable {s : Daemon} {stack : Nat → Stack}

/-- The daemon stops only in `epoll_wait`. -/
theorem Serving.run_isSome (h : Serving s) (stack : Nat → Stack) (hpc : s.pc ≠ .wait) :
    (s.run stack).isSome = true := by
  have hsome : ∀ (i : Nat) (f : Client → Daemon), s.pc.about = some i →
      ((s.clients[i]?).map f).isSome = true := by
    intro i f hi
    rw [Option.isSome_map, List.getElem?_eq_getElem (h.about i hi)]
    rfl
  cases hwhere : s.pc with
  | wait => exact absurd hwhere hpc
  | events =>
    simp only [Daemon.run, hwhere]
    split <;> rfl
  | accept =>
    simp only [Daemon.run, hwhere]
    split
    · rfl
    · next i hpending =>
      obtain ⟨c, hi, -⟩ := pending_backlog hpending
      rw [hi]
      rfl
  | early i call | add i | client i call | close i =>
    simp only [Daemon.run, hwhere]
    exact hsome i _ (by rw [hwhere]; rfl)

/-- A daemon that does not sleep can go on. -/
theorem Serving.own_step (h : Serving s) (hawake : s.asleep = false) :
    ∃ a s', ownStep s a ∧ daemonStep stack s a = some s' := by
  by_cases hpc : s.pc = .wait
  · by_cases hevents : s.events = []
    · have hguard : ∀ t : Target, s.pc = .wait ∧ s.events.length < maxEvents
          ∧ t ∉ s.events.map (·.target) := by
        intro t
        rw [hevents]
        exact ⟨hpc, by decide, not_mem_nil⟩
      have hsome : ∃ t, (s.collect t).isSome = true := by
        by_cases hlistener : s.listenerReady = true
        · refine ⟨.listener, ?_⟩
          rw [Daemon.collect, if_pos (hguard .listener)]
          simp only [hlistener, if_true, Option.isSome_some]
        · obtain ⟨c, hmem, hready⟩ : ∃ c ∈ s.clients, c.ready = true := by
            simpa [Daemon.asleep, hpc, hevents, hlistener] using hawake
          obtain ⟨i, hi⟩ := List.getElem?_of_mem hmem
          refine ⟨.client i, ?_⟩
          rw [Daemon.collect, if_pos (hguard (.client i))]
          simp only [hi, hready, if_true, Option.isSome_some]
      obtain ⟨t, ht⟩ := hsome
      obtain ⟨s', hstep⟩ := Option.isSome_iff_exists.mp ht
      exact ⟨.collect t, s', rfl, hstep⟩
    · refine ⟨.run, { s with pc := .events }, rfl, ?_⟩
      show s.run stack = _
      simp only [Daemon.run, hpc]
      exact if_neg hevents
  · obtain ⟨s', hrun⟩ := Option.isSome_iff_exists.mp (h.run_isSome stack hpc)
    exact ⟨.run, s', rfl, hrun⟩

/-- While the daemon sleeps no request waits. -/
theorem Serving.queued (h : Serving s) (hasleep : s.asleep = true) {i : Nat} {c : Client}
    (hi : s.clients[i]? = some c) (hsent : c.sent = true) : c.enqueued = [c.msg] := by
  simp only [Daemon.asleep, Bool.and_eq_true, beq_iff_eq, List.isEmpty_iff, Bool.not_eq_true',
    all_eq_true] at hasleep
  obtain ⟨⟨⟨hpc, hevents⟩, hlistener⟩, hready⟩ := hasleep
  cases (h.served i c hi).progress with
  | unsent hunsent _ _ _ => cases hunsent.symm.trans hsent
  | queued _ _ hqueue => exact hqueue
  | waiting _ hinbox _ =>
    have hwill := (h.served i c hi).willRead (by rw [hinbox]; rfl)
    rw [hpc, hevents] at hwill
    cases hwill with
    | backlog hfd =>
      have hlisten := h.listening i c hi hfd
      rw [hpc, hevents, hlistener] at hlisten
      rcases hlisten with hfalse | hmem | hfalse
      · cases hfalse
      · cases hmem
      · cases hfalse
    | reading hreading => cases hreading
    | reported hmem => cases hmem
    | adding hadd _ => cases hadd
    | ready htrue _ => cases htrue.symm.trans (hready c (mem_of_getElem? hi))

end Enqueued

/-- Over every interleaving of the daemon with any number of clients that hang up
late enough: each request is in the queue at most once, and it is there, once,
when the daemon sleeps; until then the daemon can go on, for at most `work` steps
of its own. -/
theorem commands_enqueued (stack : Nat → Stack) {s : Daemon} {acts : List DaemonAct}
    (hrun : Lib.Run (daemonStep stack) hangsUpLate .start acts s) :
    (∀ (i : Nat) c, s.clients[i]? = some c → c.enqueued = [] ∨ c.enqueued = [c.msg])
      ∧ (s.asleep = true → ∀ (i : Nat) c, s.clients[i]? = some c → c.sent = true →
        c.enqueued = [c.msg])
      ∧ (s.asleep = false → ∃ a s', ownStep s a ∧ daemonStep stack s a = some s')
      ∧ ∀ own t, Lib.Run (daemonStep stack) ownStep s own t → own.length ≤ s.work := by
  have h : Serving s :=
    hrun.invariant (fun _ _ _ hs hlate hstep => hs.step hlate hstep) Serving.start
  refine ⟨?_, fun hasleep i c hi hsent => h.queued hasleep hi hsent,
    fun hawake => h.own_step hawake, ?_⟩
  · intro i c hi
    cases (h.served i c hi).progress with
    | unsent _ _ _ hqueue | waiting _ _ hqueue => exact .inl hqueue
    | queued _ _ hqueue => exact .inr hqueue
  · intro own t hown
    refine hown.length_le (μ := Daemon.work) ?_
    intro u a u' hownStep hstep
    cases a with
    | connect msg | send i | hangUp i => cases hownStep
    | collect target => exact work_collect hstep
    | run => exact work_run hstep

/-- The daemon accepts one connection, finds nothing to read and sleeps. -/
def acceptActs : List DaemonAct := .collect .listener :: replicate 7 .run

/-- One client is done before it is accepted; another one sends later, and hangs
up when its request was reported. -/
theorem commands_enqueued_two :
    ∃ s, Lib.Run (daemonStep (filledStack 57)) hangsUpLate .start
        ([.connect .stop, .send 0, .hangUp 0] ++ acceptActs ++ [.connect (.vibrate 500)]
          ++ acceptActs ++ [.send 1, .collect (.client 1), .hangUp 1, .collect (.client 0)]
          ++ replicate 7 .run) s ∧
      s.asleep = true ∧ s.clients.length = 2 ∧
      ∀ (i : Nat) c, s.clients[i]? = some c → c.sent = true → c.enqueued = [c.msg] := by
  refine Lib.Run.exists_of_exec (A := fun s => s.asleep = true ∧ s.clients.length = 2)
    (by decide +kernel) ?_
  rintro s hrun ⟨hasleep, hlength⟩
  exact ⟨hasleep, hlength, (commands_enqueued (filledStack 57) hrun).2.1 hasleep⟩

/-- A client sends its request and hangs up while the daemon sleeps: both are
reported at once, and the connection is closed unread. -/
theorem hung_up_lost :
    ∃ s, Lib.Run (daemonStep (filledStack 0)) Lib.anyStep .start
        ([.connect (.vibrate 500)] ++ acceptActs ++ [.send 0, .hangUp 0, .collect (.client 0)]
          ++ replicate 4 .run) s ∧
      s.asleep = true ∧
      s.clients = [
        { Client.connected (.vibrate 500) with sent := true, hungUp := true, fd := .closed }] :=
  Lib.Run.exists_of_exec (by decide +kernel) fun _ _ h => h

end Arale.Immvibe
