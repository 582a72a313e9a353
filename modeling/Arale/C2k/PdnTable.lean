import Mathlib.Logic.Function.Basic
import Arale.C2k.IratNotices
import Arale.Lib.Events

/-!
# The PDN table across a handover

The table `pPdnInfo` of the C2K data service has one record for each cid. What
the functions here ask of the modem and of the network interfaces is kept in a
log, so that statements can speak of what was done since. A record's own cid is
within the table, as every function that sets it has used it as an index before.

The answer to `AT+CGACT=0` is `none` for `OK`, and otherwise the code of the
`+CME ERROR`. A command that cannot be sent is left out, as `at_get_cme_error`
then reads through a null pointer.
-/

namespace Arale.C2k.Irat

open Arale.Lib

/-- Calls of the data service, and in `refused` the answer to a request. -/
inductive NetCall (n : Nat) where
  | suspend (interfaceId : Int)
  | resume (interfaceId : Int)
  | disable (interfaceId : Int)
  /-- `updateNetworkInterface` sets the interface up with a new address. -/
  | reset (interfaceId : Int)
  /-- `AT+CGACT=0`. -/
  | deactivate (cid : Fin n)
  /-- A request to deactivate ends with the cause that a retry is needed. -/
  | refused (cid : Fin n)
deriving DecidableEq

/-- The states of a data connection. -/
def stateInactive : Int := 0
def stateLinkdown : Int := 1
def stateActive : Int := 2
def stateNeedDeact : Int := 3

/-- `PS_CMD_CONFLICT_C2K_AP_DEACT_RETRY_NEEDED` -/
def deactRetryNeeded : Int := 0x80e2

/-- `INVALID_CID`, which is also used for interfaces. -/
def invalidCid : Int := -1

/-- The fields of `PdnInfo` that say which PDN runs on which interface. -/
structure PdnInfo (n : Nat) where
  interfaceId : Int
  primaryCid : Int
  cid : Option (Fin n)
  isDedicateBearer : Bool
  active : Int
deriving DecidableEq

/-- `clearPdnInfo`. -/
def clearPdnInfo (n : Nat) : PdnInfo n := ⟨invalidCid, invalidCid, none, false, stateInactive⟩

structure Pdns (n : Nat) where
  info : Fin n → PdnInfo n
  log : List (NetCall n)

namespace Pdns

variable {n : Nat}

def call (p : Pdns n) (calls : List (NetCall n)) : Pdns n := { p with log := p.log ++ calls }

def set (p : Pdns n) (i : Fin n) (info : PdnInfo n) : Pdns n :=
  { p with info := Function.update p.info i info }

def setActive (p : Pdns n) (i : Fin n) (state : Int) : Pdns n :=
  p.set i { p.info i with active := state }

/-- One call for each record that meets the test. -/
def forRecords (info : Fin n → PdnInfo n) (test : PdnInfo n → Bool) (f : PdnInfo n → NetCall n) :
    List (NetCall n) :=
  ((List.finRange n).map info).filter test |>.map f

/-- `setNetworkTransmitState` for all active PDNs. -/
def suspendAllDataTransmit (p : Pdns n) : Pdns n :=
  p.call (forRecords p.info (·.active == stateActive) (.suspend ·.interfaceId))

def resumeAllDataTransmit (p : Pdns n) : Pdns n :=
  p.call (forRecords p.info (·.active == stateActive) (.resume ·.interfaceId))

def disables (info : Fin n → PdnInfo n) (interfaceId : Int) : List (NetCall n) :=
  if interfaceId = invalidCid then []
  else forRecords info (·.interfaceId == interfaceId) fun _ => .disable interfaceId

/-- `configureNetworkInterface` with `DISABLE_CCMNI`. -/
def disableInterface (p : Pdns n) (interfaceId : Int) : Pdns n :=
  p.call (disables p.info interfaceId)

/-- The loop of `requestDeactiveDataCall` over the records, up to the first error. -/
def deactivateLoop (interfaceId : Int) (reply : Fin n → Option Int) :
    List (Fin n) → Pdns n → Pdns n × Bool
  | [], p => (p, true)
  | i :: is, p =>
    if (p.info i).interfaceId = interfaceId then
      match reply i with
      | none => deactivateLoop interfaceId reply is (p.call [.deactivate i])
      | some errCode =>
        if errCode = deactRetryNeeded then
          ((p.call [.deactivate i, .refused i]).setActive i stateNeedDeact, false)
        else (p.call [.deactivate i], false)
    else deactivateLoop interfaceId reply is p

def requestDeactiveDataCall (p : Pdns n) (interfaceId : Int) (reply : Fin n → Option Int) :
    Pdns n :=
  let r := deactivateLoop interfaceId reply (List.finRange n) p
  let q := r.1.disableInterface interfaceId
  if r.2 then
    { q with info := fun i =>
        if (q.info i).interfaceId = interfaceId then clearPdnInfo n else q.info i }
  else q

/-- A line of `AT+CGACT?` in `updateActiveStatus`. The rest of a refresh of the
data call list only sets addresses and the MTU. -/
def updateActiveStatus (p : Pdns n) (responseCid : Fin n) (state : Int) : Pdns n :=
  p.setActive responseCid
    (if state > 0 then
      if (p.info responseCid).interfaceId = invalidCid then stateLinkdown else stateActive
    else state)

def deactivatePdnByCid (p : Pdns n) (cid : Fin n) (reply : Option Int) : Pdns n :=
  match reply with
  | none =>
    ((p.call [.deactivate cid]).disableInterface (p.info cid).interfaceId).set cid (clearPdnInfo n)
  | some errCode =>
    if errCode = deactRetryNeeded then (p.call [.deactivate cid]).setActive cid stateNeedDeact
    else p.call [.deactivate cid]

/-- `cleanupPdnByCid`, with the dedicated bearers of the PDN. -/
def cleanupPdnByCid (p : Pdns n) (cid : Fin n) : Pdns n :=
  let q := (p.call [.resume (p.info cid).interfaceId]).disableInterface (p.info cid).interfaceId
  { q with info := fun i =>
      if ((q.info i).isDedicateBearer && (q.info i).primaryCid == cid.val) || i = cid then
        clearPdnInfo n
      else q.info i }

/-- `onIratSourceStarted`. -/
def onIratSourceStarted (p : Pdns n) : Pdns n := p.suspendAllDataTransmit

/-- A PDN that could not be deactivated is tried again. -/
def retryDeactivate (reply : Fin n → Option Int) (p : Pdns n) (i : Fin n) : Pdns n :=
  match (p.info i).cid with
  | some cid => if (p.info i).active = stateNeedDeact then p.deactivatePdnByCid cid (reply i) else p
  | none => p

/-- `onIratSourceFinished`. -/
def onIratSourceFinished (p : Pdns n) (type : IratType) (reply : Fin n → Option Int) : Pdns n :=
  match type with
  | .failed => (List.finRange n).foldl (retryDeactivate reply) p.resumeAllDataTransmit
  | .ehrpdLte => { p with info := fun _ => clearPdnInfo n }
  | .hrpdLte => (List.finRange n).foldl
      (fun p i => ((p.info i).cid.map p.cleanupPdnByCid).getD p) p.resumeAllDataTransmit
  | .unknown | .lteEhrpd | .lteHrpd => p

section Calls

variable {info : Fin n → PdnInfo n} {c : NetCall n} {f : Int}

theorem mem_forRecords {test : PdnInfo n → Bool} {g : PdnInfo n → NetCall n} :
    c ∈ forRecords info test g ↔ ∃ i, test (info i) = true ∧ g (info i) = c := by
  simp [forRecords, and_assoc]

theorem mem_disables :
    c ∈ disables info f
      ↔ f ≠ invalidCid ∧ (∃ i, (info i).interfaceId = f) ∧ .disable f = c := by
  unfold disables
  split <;> simp [mem_forRecords, *]

end Calls

/-- `deactivatePdnByCid` sends the command, and leaves the other records alone. -/
theorem deactivatePdnByCid_eq (p : Pdns n) (i : Fin n) (reply : Option Int) :
    ∃ calls info, p.deactivatePdnByCid i reply = (p.call (.deactivate i :: calls)).set i info
      ∧ ∀ c ∈ calls, ∃ f, c = .disable f := by
  cases reply with
  | none =>
    refine ⟨disables p.info (p.info i).interfaceId, clearPdnInfo n, ?_, fun c hc => ?_⟩
    · simp [deactivatePdnByCid, disableInterface, call]
    · exact ⟨_, (mem_disables.mp hc).2.2.symm⟩
  | some errCode =>
    unfold deactivatePdnByCid
    dsimp only
    split
    · exact ⟨[], { p.info i with active := stateNeedDeact }, rfl, by simp⟩
    · exact ⟨[], p.info i, by simp [set, call], by simp⟩

end Pdns

end Arale.C2k.Irat
