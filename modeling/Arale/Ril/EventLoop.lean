import Mathlib.Data.Fintype.Card
import Arale.Lib.Links
import Arale.Lib.Trace

/-!
# The event loop of rild

`ril_event.cpp` watches descriptors and timers. Events that wait for a
descriptor are in `watch_table`, timers are in the ring `timer_list`, and what is
ready is moved to the ring `pending_list`, which `firePending` empties one event
at a time, calling back.

The rings are the `next` and `prev` fields of the events, as `Lib.Links`. An
operation that follows a null pointer has no result, and neither has a walk
around a ring that does not come back to its head. There are `n` events.

`EventAct` is one step of the loop, or a call of `ril_event_set`,
`ril_event_add`, `ril_timer_add` or `ril_event_del`, which may come at any time:
from a callback, while the loop is in `firePending`, or from another thread.
-/

namespace Arale.Ril.EventLoop

open Arale.Lib (Links)

/-- `MAX_FD_EVENTS` -/
def maxFdEvents : Nat := 16

/-- The nodes of the rings: the two heads and the events. -/
inductive Node (n : Nat) where
  | timerList
  | pendingList
  | event (ev : Fin n)
  deriving DecidableEq, Repr

/-- `ril_event` without its links, `func` and `param`. Times are in
microseconds. -/
structure RilEvent where
  fd : Int
  index : Int
  persist : Bool
  timeout : Nat
  deriving DecidableEq, Repr

/-- Where `ril_event_loop` is: before `select`, in it with the copy of `readFds`,
before `processTimeouts`, before `processReadReadies`, in `firePending` with the
event to be fired, or it returned. -/
inductive LoopPc (n : Nat) where
  | idle
  | selecting (fds : List Int)
  | timeouts (ready : List Int)
  | readies (ready : List Int)
  | firing (ev : Node n)
  | stopped
  deriving DecidableEq, Repr

/-- The static variables, the events, the loop, and what was called back. -/
structure EventState (n : Nat) where
  links : Links (Node n)
  events : Fin n → RilEvent
  watchTable : List (Option (Fin n))
  readFds : List Int
  nfds : Int
  pc : LoopPc n
  fired : List (Fin n)

variable {n : Nat}

/-! ## Lists and table -/

/-- `addToList` -/
def addToList (s : EventState n) (ev : Fin n) (list : Node n) : Option (EventState n) :=
  (s.links.insertBefore (.event ev) list).map fun links => { s with links := links }

/-- `removeFromList` -/
def removeFromList (s : EventState n) (ev : Fin n) : Option (EventState n) :=
  (s.links.remove (.event ev)).map fun links => { s with links := links }

def modifyEvent (s : EventState n) (ev : Fin n) (f : RilEvent → RilEvent) : EventState n :=
  { s with events := fun e => if e = ev then f (s.events e) else s.events e }

/-- The highest descriptor in the table. -/
def highestFd (s : EventState n) : Int :=
  s.watchTable.foldl (fun highest slot =>
    match slot with
    | some rev => if highest < (s.events rev).fd then (s.events rev).fd else highest
    | none => highest) 0

/-- `removeWatch` -/
def removeWatch (s : EventState n) (ev : Fin n) (index : Nat) : EventState n :=
  let s := { s with watchTable := s.watchTable.set index none }
  let s := modifyEvent s ev fun e => { e with index := -1 }
  let s := { s with readFds := s.readFds.filter (· != (s.events ev).fd) }
  if (s.events ev).fd + 1 = s.nfds then { s with nfds := highestFd s + 1 } else s

/-! ## The functions for others -/

/-- `ril_event_set` -/
def rilEventSet (s : EventState n) (ev : Fin n) (fd : Int) (persist : Bool) : EventState n :=
  { modifyEvent s ev fun _ => ⟨fd, -1, persist, 0⟩ with
    links := (s.links.setNext (.event ev) none).setPrev (.event ev) none }

/-- `ril_event_add` -/
def rilEventAdd (s : EventState n) (ev : Fin n) : EventState n :=
  match s.watchTable.findIdx? (·.isNone) with
  | none => s
  | some i =>
    let s := { s with watchTable := s.watchTable.set i (some ev) }
    let s := modifyEvent s ev fun e => { e with index := i }
    { s with
      readFds := if (s.events ev).fd ∈ s.readFds then s.readFds else (s.events ev).fd :: s.readFds
      nfds := if s.nfds ≤ (s.events ev).fd then (s.events ev).fd + 1 else s.nfds }

def timeoutOf (s : EventState n) : Node n → Nat
  | .event ev => (s.events ev).timeout
  | _ => 0

/-- The first timer that is not before `timeout`, or the head; `fuel` bounds the
walk. -/
def findTimer (s : EventState n) (timeout : Nat) : Nat → Node n → Option (Node n)
  | 0, _ => none
  | fuel + 1, list =>
    if timeoutOf s list < timeout ∧ list ≠ .timerList then
      (s.links.next list).bind fun next => findTimer s timeout fuel next
    else some list

/-- `ril_timer_add` at the time `now` -/
def rilTimerAdd (s : EventState n) (ev : Fin n) (tv : Option Nat) (now : Nat) :
    Option (EventState n) :=
  match tv with
  | none => some s
  | some tv => do
    let first ← s.links.next .timerList
    let s := modifyEvent s ev fun e => { e with fd := -1, timeout := now + tv }
    let list ← findTimer s (now + tv) (n + 1) first
    addToList s ev list

/-- `ril_event_del` -/
def rilEventDel (s : EventState n) (ev : Fin n) : EventState n :=
  let index := (s.events ev).index
  if index < 0 ∨ maxFdEvents ≤ index then s else removeWatch s ev index.toNat

/-! ## The loop -/

/-- The loop of `processTimeouts` -/
def timeoutLoop (now : Nat) : Nat → Node n → EventState n → Option (EventState n)
  | 0, _, _ => none
  | fuel + 1, tev, s =>
    match tev with
    | .event ev =>
      if (s.events ev).timeout < now then do
        let next ← s.links.next tev
        let s ← removeFromList s ev
        let s ← addToList s ev .pendingList
        timeoutLoop now fuel next s
      else some s
    | _ => some s

/-- `processTimeouts` -/
def processTimeouts (s : EventState n) (now : Nat) : Option (EventState n) := do
  let tev ← s.links.next .timerList
  timeoutLoop now (n + 1) tev s

/-- The loop of `processReadReadies` over the slots; `count` is `n` of the
source. -/
def readyLoop (ready : List Int) : List Nat → Nat → EventState n → Option (EventState n)
  | [], _, s => some s
  | i :: is, count, s =>
    if count = 0 then some s
    else
      match s.watchTable.getD i none with
      | none => readyLoop ready is count s
      | some rev =>
        if (s.events rev).fd ∈ ready then do
          let s ← addToList s rev .pendingList
          let s := if (s.events rev).persist then s else removeWatch s rev i
          readyLoop ready is (count - 1) s
        else readyLoop ready is count s

/-- `processReadReadies` -/
def processReadReadies (s : EventState n) (ready : List Int) : Option (EventState n) :=
  readyLoop ready (List.range maxFdEvents) ready.length s

/-- A turn of the loop of `firePending` -/
def fireNext (s : EventState n) (ev : Fin n) : Option (EventState n) := do
  let next ← s.links.next (.event ev)
  let s ← removeFromList s ev
  return { s with pc := .firing next, fired := s.fired ++ [ev] }

/-! ## Steps -/

/-- A step of the loop, or a call from somewhere. -/
inductive EventAct (n : Nat) where
  | copyFds
  | selected (ready : List Int)
  | interrupted
  | failed
  | timeouts (now : Nat)
  | readies
  | fire
  | set (ev : Fin n) (fd : Int) (persist : Bool)
  | add (ev : Fin n)
  | timerAdd (ev : Fin n) (tv : Option Nat) (now : Nat)
  | del (ev : Fin n)
  deriving DecidableEq, Repr

/-- A step of `ril_event_loop` -/
def loopStep (s : EventState n) : EventAct n → Option (EventState n)
  | .copyFds => if s.pc = .idle then some { s with pc := .selecting s.readFds } else none
  | .selected ready =>
    match s.pc with
    | .selecting fds =>
      if ready.Nodup ∧ ∀ fd ∈ ready, fd ∈ fds then some { s with pc := .timeouts ready } else none
    | _ => none
  | .interrupted =>
    match s.pc with
    | .selecting _ => some { s with pc := .idle }
    | _ => none
  | .failed =>
    match s.pc with
    | .selecting _ => some { s with pc := .stopped }
    | _ => none
  | .timeouts now =>
    match s.pc with
    | .timeouts ready => (processTimeouts s now).map fun s => { s with pc := .readies ready }
    | _ => none
  | .readies =>
    match s.pc with
    | .readies ready => do
      let s ← processReadReadies s ready
      let first ← s.links.next .pendingList
      return { s with pc := .firing first }
    | _ => none
  | .fire =>
    match s.pc with
    | .firing .pendingList => some { s with pc := .idle }
    | .firing (.event ev) => fireNext s ev
    | _ => none
  | _ => none

def eventStep (s : EventState n) : EventAct n → Option (EventState n)
  | .set ev fd persist => some (rilEventSet s ev fd persist)
  | .add ev => some (rilEventAdd s ev)
  | .timerAdd ev tv now => rilTimerAdd s ev tv now
  | .del ev => some (rilEventDel s ev)
  | act => loopStep s act

/-- After `ril_event_init`; the events hold anything. -/
def EventState.start (events : Fin n → RilEvent) : EventState n where
  links :=
    { next := fun node =>
        match node with
        | .event _ => none
        | head => some head
      prev := fun node =>
        match node with
        | .event _ => none
        | head => some head }
  events := events
  watchTable := List.replicate maxFdEvents none
  readFds := []
  nfds := 0
  pc := .idle
  fired := []

end Arale.Ril.EventLoop
