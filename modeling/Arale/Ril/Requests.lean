import Arale.Lib.Trace

/-!
# Requests and responses of rild

`librilmtk` takes requests from the phone process (one socket for each SIM),
from socket clients, from ATCI and from itself. Every request becomes a
`RequestInfo` in the list of its SIM until the vendor code calls
`RIL_onRequestComplete`, which decides from the request number, some global
descriptors and the `RequestInfo` where the answer goes. When a connection is
closed, its requests are marked as cancelled.

`rildStep` takes one of these events at a time. The lists
`s_pendingRequests[i]` are one list here, `socketId` says which. Connections
are numbered in the order in which they are accepted, and a request keeps the
number of the one it came from; a `RequestInfo` is named by `rid` instead of
its address.

> `answered_once`: in runs that meet `routed`, every completed request of a
> phone socket or a client that was not cancelled has been answered once, with
> its token, on the connection it came from.

`routed` excludes the completions whose answer goes elsewhere or nowhere:
`RIL_REQUEST_OEM_HOOK_RAW` while ATCI is connected, clients that get no
responses, packets that are too large; and the request codes that index
outside the command tables. Backup data of `RIL_REQUEST_RESUME_REGISTRATION`
and the debug port are not in the model.
-/

namespace Arale.Ril

open List
open Arale.Lib (Run anyStep)

/-! ## Request codes -/

/-- `NUM_ELEMS(s_commands)` -/
def numCommands : Int := 136

/-- `RIL_REQUEST_VENDOR_BASE` -/
def requestVendorBase : Int := 2000

/-- `NUM_ELEMS(s_mtk_commands)` -/
def numMtkCommands : Int := 139

/-- `RIL_LOCAL_REQUEST_VENDOR_BASE` -/
def localRequestVendorBase : Int := 2500

/-- `NUM_ELEMS(s_mtk_local_commands)` -/
def numMtkLocalCommands : Int := 12

/-- `MAX_COMMAND_BYTES` -/
def maxCommandBytes : Nat := 20 * 1024

/-- `RIL_REQUEST_OEM_HOOK_RAW` -/
def requestOemHookRaw : Int := 59

/-- `RIL_REQUEST_HANGUP_ALL` -/
def requestHangupAll : Int := requestVendorBase + 84

/-- `RIL_E_GENERIC_FAILURE` -/
def genericFailure : Int := 2

/-- What `processCommandBuffer` answers as unsupported. -/
def unsupported (request : Int) : Bool :=
  (request < 1 || numCommands ≤ request)
    && (requestVendorBase + numMtkCommands < request
      || (numCommands ≤ request && request < requestVendorBase))

/-- The codes that have an entry in a command table; its `requestNumber` is the
code itself. -/
def inTables (request : Int) : Bool :=
  (1 ≤ request && request < numCommands)
    || (requestVendorBase ≤ request && request < requestVendorBase + numMtkCommands)

/-! ## The state -/

/-- The socket clients; only MAL gets responses. -/
inductive Client where
  | mal
  | malAt
  deriving DecidableEq, Repr

/-- Where a connection can be made. -/
inductive Port where
  | phone (socketId : Nat)
  | client (client : Client)
  deriving DecidableEq, Repr

/-- `s_THERMAL_fd`, `s_EAPSIMAKA_fd`, `s_SIMLOCK_fd`, `s_fdVsim_command` and
`s_fdATCI_command` -/
inductive Descriptor where
  | thermal
  | eapSimAka
  | simLock
  | vsim
  | atci
  deriving DecidableEq, Repr

/-- `RequestInfo`, with its name and the connection that the request came from
on. -/
structure RequestInfo where
  rid : Nat
  client : Option Client
  token : Int
  requestNumber : Int
  cancelled : Bool
  isLocal : Bool
  socketId : Nat
  origin : Option Nat
  deriving DecidableEq, Repr

/-- Where the responses for a client, or else for the phone process, go. -/
def answerPort (client : Option Client) (socketId : Nat) : Port :=
  match client with
  | some c => .client c
  | none => .phone socketId

def RequestInfo.port (r : RequestInfo) : Port := answerPort r.client r.socketId

/-- What is written for a request: a response on a connection, or text to one
of the descriptors. -/
inductive Message where
  | response (connection : Nat) (token : Int) (error : Int)
  | text (descriptor : Descriptor)
  deriving DecidableEq, Repr

structure Sent where
  rid : Nat
  message : Message
  deriving DecidableEq, Repr

/-- The build: the number of SIMs, `MTK_MD_SHUT_DOWN_NT` and
`MTK_EAP_SIM_AKA`. -/
structure RildBuild where
  simCount : Nat
  mdShutDownNt : Bool
  eapSimAka : Bool
  deriving DecidableEq, Repr

/-- Connections and descriptors, the requests that are pending and those that
are completed, and what was written. -/
structure Rild where
  connections : Port → Option Nat
  descriptors : Descriptor → Bool
  pending : List RequestInfo
  completed : List RequestInfo
  sent : List Sent
  nextConnection : Nat
  nextRid : Nat

def Rild.start : Rild where
  connections := fun _ => none
  descriptors := fun _ => false
  pending := []
  completed := []
  sent := []
  nextConnection := 0
  nextRid := 0

/-- The function with one value replaced. -/
def update {α β : Type} [DecidableEq α] (f : α → β) (a : α) (b : β) : α → β :=
  fun x => if x = a then b else f x

/-! ## Requests -/

/-- A new `RequestInfo` at the head of its list. -/
def addRequest (s : Rild) (client : Option Client) (token requestNumber : Int) (isLocal : Bool)
    (socketId : Nat) (origin : Option Nat) : Rild :=
  { s with
    pending := ⟨s.nextRid, client, token, requestNumber, false, isLocal, socketId, origin⟩
      :: s.pending
    nextRid := s.nextRid + 1 }

/-- `sendResponse` and `sendClientResponse`, for a packet of `size` bytes. -/
def sendTo (s : Rild) (port : Port) (rid : Nat) (token error : Int) (size : Nat) : Rild :=
  match s.connections port with
  | none => s
  | some connection =>
    -- `sendClientResponse` limits the responses to MAL
    if port = .client .malAt || maxCommandBytes < size then s
    else { s with sent := s.sent ++ [⟨rid, .response connection token error⟩] }

/-- The common part of `processCommandBuffer` and
`processClientCommandBuffer`. An unsupported code is answered at once and
counts as completed. For codes that are accepted without an entry in the
tables there is no state. -/
def processBuffer (s : Rild) (client : Option Client) (socketId : Nat) (port : Port)
    (request token : Int) : Option Rild :=
  match s.connections port with
  | none => none
  | some connection =>
    if unsupported request then
      let r : RequestInfo :=
        ⟨s.nextRid, client, token, request, false, false, socketId, some connection⟩
      some (sendTo { s with completed := s.completed ++ [r], nextRid := s.nextRid + 1 } port
        s.nextRid token genericFailure 12)
    else if inTables request then
      some (addRequest s client token request false socketId (some connection))
    else none

/-- `processCommandBuffer` -/
def processCommandBuffer (s : Rild) (socketId : Nat) (request token : Int) : Option Rild :=
  processBuffer s none socketId (.phone socketId) request token

/-- `processClientCommandBuffer`; requests of MAL go to the 3G SIM, and those
of the other client to `RIL_SOCKET_1`. -/
def processClientCommandBuffer (s : Rild) (client : Client) (simInfo3g : Nat)
    (request token : Int) : Option Rild :=
  processBuffer s (some client) (if client = .mal then simInfo3g else 0) (.client client) request
    token

/-- `processAtciCommandsCallback`, for a command to the SIM `socketId` -/
def processAtciCommand (s : Rild) (socketId : Nat) : Rild :=
  addRequest s none (-1) requestOemHookRaw false socketId none

/-- `issueLocalRequest` -/
def issueLocalRequest (s : Rild) (request : Int) (socketId : Nat) : Rild :=
  if (request < 1 || numCommands < request) && requestVendorBase + numMtkCommands ≤ request then s
  else addRequest s none (-1) request true socketId none

/-- `issueLocalRequestForResponse` -/
def issueLocalRequestForResponse (s : Rild) (request : Int) (socketId : Nat) : Rild :=
  if (request < 1 || numCommands < request)
      && (request < requestVendorBase || requestVendorBase + numMtkCommands ≤ request)
      && (request < localRequestVendorBase
        || localRequestVendorBase + numMtkLocalCommands ≤ request) then s
  else addRequest s none 0 request false socketId none

/-! ## Connections -/

/-- Marks requests as cancelled. -/
def cancel (s : Rild) (which : RequestInfo → Bool) : Rild :=
  { s with pending := s.pending.map fun r => if which r then { r with cancelled := true } else r }

/-- `onCommandsSocketClosed` -/
def onCommandsSocketClosed (b : RildBuild) (s : Rild) (socketId : Nat) : Rild :=
  let s := cancel s (·.socketId == socketId)
  if b.mdShutDownNt then addRequest s none (-1) requestHangupAll true socketId none else s

/-- `onCommandsClinetClosed` -/
def onCommandsClientClosed (b : RildBuild) (s : Rild) (client : Client) : Rild :=
  cancel s fun r => r.socketId < b.simCount && r.client == some client

/-- The end of a stream in `processCommandsCallback` and
`processClientCommandsCallback`. -/
def closePort (b : RildBuild) (s : Rild) (port : Port) : Rild :=
  let s := { s with connections := update s.connections port none }
  match port with
  | .phone socketId => onCommandsSocketClosed b s socketId
  | .client client => onCommandsClientClosed b s client

/-! ## Completion -/

/-- Text for one of the descriptors, if it is open. -/
def sendText (s : Rild) (rid : Nat) (d : Descriptor) : Rild :=
  if s.descriptors d then { s with sent := s.sent ++ [⟨rid, .text d⟩] } else s

/-- The request was for one of the local services: where its answer goes, if
anywhere. -/
def localService (b : RildBuild) (s : Rild) (requestNumber : Int) : Option (Option Descriptor) :=
  if requestNumber = localRequestVendorBase + 3 then some none -- `RILD_READ_IMSI`
  else if requestNumber = localRequestVendorBase + 2 then some (some .thermal)
  else if requestNumber = localRequestVendorBase + 9 then some none -- `SET_MODEM_THERMAL`
  else if b.eapSimAka && (requestNumber == localRequestVendorBase
      || requestNumber == localRequestVendorBase + 1) && s.descriptors .eapSimAka then
    some (some .eapSimAka)
  else if localRequestVendorBase + 4 ≤ requestNumber &&
      requestNumber ≤ localRequestVendorBase + 8 then
    some (some .simLock)
  else if requestNumber = localRequestVendorBase + 10 then some (some .vsim)
  else if requestNumber = localRequestVendorBase + 11 then some none -- `VSIM_OPERATION`
  else none

/-- The descriptors that are closed with the answer. -/
def closesAfter (d : Descriptor) : Bool := d == .eapSimAka || d == .simLock

/-- A response of the vendor code: the bytes that `responseFunction` writes,
and what it returns. -/
structure Payload where
  size : Nat
  ret : Int
  deriving DecidableEq, Repr

/-- The error code in the packet, and the size of the packet. -/
def packet (e : Int) (response : Option Payload) : Int × Nat :=
  match response with
  | some payload => (if payload.ret = 0 then e else payload.ret, 12 + payload.size)
  | none => (e, 12)

/-- `RIL_onRequestComplete`, for a request that is pending -/
def onRequestComplete (b : RildBuild) (s : Rild) (r : RequestInfo) (e : Int)
    (response : Option Payload) : Rild :=
  -- `checkAndDequeueRequestInfo`
  let s := { s with
    pending := s.pending.filter (·.rid != r.rid), completed := s.completed ++ [r] }
  if r.isLocal then s
  else
    match localService b s r.requestNumber with
    | some none => s
    | some (some d) =>
      let s := sendText s r.rid d
      if closesAfter d then { s with descriptors := update s.descriptors d false } else s
    | none =>
      if s.descriptors .atci && r.requestNumber == requestOemHookRaw then sendText s r.rid .atci
      else if r.cancelled then s
      else
        let p := packet e response
        sendTo s r.port r.rid r.token p.1 p.2

/-! ## Runs -/

/-- A connection is accepted, refused because it is not the phone process, or
closed; a request comes; a descriptor is opened or closed; the vendor code
completes a request. -/
inductive RildAct where
  | accept (port : Port)
  | refuse (socketId : Nat)
  | close (port : Port)
  | phoneRequest (socketId : Nat) (request token : Int)
  | clientRequest (client : Client) (simInfo3g : Nat) (request token : Int)
  | atciRequest (socketId : Nat)
  | localRequest (request : Int) (socketId : Nat)
  | localRequestForResponse (request : Int) (socketId : Nat)
  | descriptor (d : Descriptor) (isOpen : Bool)
  | complete (rid : Nat) (e : Int) (response : Option Payload)
  deriving DecidableEq, Repr

def rildStep (b : RildBuild) (s : Rild) : RildAct → Option Rild
  | .accept port =>
    if (s.connections port).isNone then
      some { s with
        connections := update s.connections port (some s.nextConnection)
        nextConnection := s.nextConnection + 1 }
    else none
  | .refuse socketId =>
    if (s.connections (.phone socketId)).isNone then some (onCommandsSocketClosed b s socketId)
    else none
  | .close port => if (s.connections port).isSome then some (closePort b s port) else none
  | .phoneRequest socketId request token => processCommandBuffer s socketId request token
  | .clientRequest client simInfo3g request token =>
    if simInfo3g < b.simCount then processClientCommandBuffer s client simInfo3g request token
    else none
  | .atciRequest socketId =>
    if s.descriptors .atci then some (processAtciCommand s socketId) else none
  | .localRequest request socketId => some (issueLocalRequest s request socketId)
  | .localRequestForResponse request socketId =>
    some (issueLocalRequestForResponse s request socketId)
  | .descriptor d isOpen => some { s with descriptors := update s.descriptors d isOpen }
  | .complete rid e response =>
    (s.pending.find? (·.rid == rid)).map fun r => onRequestComplete b s r e response

/-- A completion whose answer goes where the request came from: the request is
not `RIL_REQUEST_OEM_HOOK_RAW` while ATCI is connected, its client gets
responses, and the packet is not too large. -/
def routable (s : Rild) (r : RequestInfo) (e : Int) (response : Option Payload) : Bool :=
  !(s.descriptors .atci && r.requestNumber == requestOemHookRaw) && r.client != some .malAt
    && (packet e response).2 ≤ maxCommandBytes

def routedStep (s : Rild) : RildAct → Bool
  | .clientRequest client _ request _ => client == .mal || !unsupported request
  | .complete rid e response =>
    (s.pending.find? (·.rid == rid)).all fun r =>
      r.origin.isNone || r.cancelled || routable s r e response
  | _ => true

def routed (s : Rild) (a : RildAct) : Prop := routedStep s a = true

instance (s : Rild) (a : RildAct) : Decidable (routed s a) := inferInstanceAs (Decidable (_ = true))

/-! ## What a completion writes -/

/-- Requests with an entry in the tables are not for a local service. -/
theorem localService_inTables (b : RildBuild) (s : Rild) {requestNumber : Int}
    (h : inTables requestNumber = true) : localService b s requestNumber = none := by
  have hlt : requestNumber < localRequestVendorBase := by
    simp only [inTables, Bool.or_eq_true, Bool.and_eq_true, decide_eq_true_eq] at h
    unfold numCommands requestVendorBase numMtkCommands at h
    unfold localRequestVendorBase
    omega
  have hne : ∀ k : Int, 0 ≤ k → requestNumber ≠ localRequestVendorBase + k := fun k _ => by omega
  have hzero : requestNumber ≠ localRequestVendorBase := by omega
  have hlock : ¬ localRequestVendorBase + 4 ≤ requestNumber := by omega
  simp [localService, hne, hzero, hlock]

theorem answerPort_ne {client : Option Client} (h : client ≠ some .malAt) (socketId : Nat) :
    answerPort client socketId ≠ .client .malAt := by
  cases client with
  | none => simp [answerPort]
  | some c => simpa [answerPort] using h

/-- At most one message is written, for the request `rid`. -/
def SendsFor (rid : Nat) (s s' : Rild) : Prop :=
  ∃ sent descriptors, s' = { s with sent := sent, descriptors := descriptors } ∧
    (sent = s.sent ∨ ∃ m, sent = s.sent ++ [⟨rid, m⟩])

theorem SendsFor.refl (rid : Nat) (s : Rild) : SendsFor rid s s := ⟨_, _, rfl, .inl rfl⟩

theorem sendText_sendsFor (s : Rild) (rid : Nat) (d : Descriptor) :
    SendsFor rid s (sendText s rid d) := by
  unfold sendText
  split
  · exact ⟨_, _, rfl, .inr ⟨_, rfl⟩⟩
  · exact .refl rid s

theorem sendTo_sendsFor (s : Rild) (port : Port) (rid : Nat) (token error : Int) (size : Nat) :
    SendsFor rid s (sendTo s port rid token error size) := by
  unfold sendTo
  split
  · exact .refl rid s
  · split
    · exact .refl rid s
    · exact ⟨_, _, rfl, .inr ⟨_, rfl⟩⟩

/-- On an open connection of a phone socket or of MAL. -/
theorem sendTo_connected {s : Rild} {port : Port} {connection : Nat}
    (hconnected : s.connections port = some connection) (hport : port ≠ .client .malAt)
    {size : Nat} (hsize : size ≤ maxCommandBytes) (rid : Nat) (token error : Int) :
    sendTo s port rid token error size
      = { s with sent := s.sent ++ [⟨rid, .response connection token error⟩] } := by
  unfold sendTo
  rw [hconnected]
  dsimp only
  rw [if_neg]
  simp only [hport, decide_false, Bool.false_or, decide_eq_true_eq]
  omega

/-- A completion takes the request from the list and writes for it. -/
theorem onRequestComplete_sendsFor (b : RildBuild) (s : Rild) (r : RequestInfo) (e : Int)
    (response : Option Payload) :
    SendsFor r.rid
      { s with pending := s.pending.filter (·.rid != r.rid), completed := s.completed ++ [r] }
      (onRequestComplete b s r e response) := by
  unfold onRequestComplete
  dsimp only
  split
  · exact .refl _ _
  · split
    · exact .refl _ _
    · split
      · obtain ⟨sent, _, heq, hsent⟩ := sendText_sendsFor _ _ _
        rw [heq]
        exact ⟨sent, _, rfl, hsent⟩
      · exact sendText_sendsFor _ _ _
    · split
      · exact sendText_sendsFor _ _ _
      · split
        · exact .refl _ _
        · exact sendTo_sendsFor _ _ _ _ _ _

/-- The answer of a request that is not excluded. -/
theorem onRequestComplete_answer {b : RildBuild} {s : Rild} {r : RequestInfo} {connection : Nat}
    (hlocal : r.isLocal = false) (hnumber : inTables r.requestNumber = true)
    (hcancelled : r.cancelled = false) (hconnected : s.connections r.port = some connection)
    {e : Int} {response : Option Payload} (hroutable : routable s r e response = true) :
    (onRequestComplete b s r e response).sent
      = s.sent ++ [⟨r.rid, .response connection r.token (packet e response).1⟩] := by
  unfold routable at hroutable
  simp only [Bool.and_eq_true, Bool.not_eq_true', bne_iff_ne, decide_eq_true_eq] at hroutable
  obtain ⟨⟨hatci, hclient⟩, hsize⟩ := hroutable
  have hsend := sendTo_connected (s := { s with
    pending := s.pending.filter (·.rid != r.rid), completed := s.completed ++ [r] }) hconnected
    (answerPort_ne hclient r.socketId) hsize r.rid r.token (packet e response).1
  unfold onRequestComplete
  rw [if_neg (by simp [hlocal]), localService_inTables b _ hnumber]
  rw [if_neg (by simp [hatci]), if_neg (by simp [hcancelled]), hsend]

/-! ## What the events preserve -/

/-- A completed request of a connection that was not cancelled has one answer. -/
def Answered (sent : List Sent) (r : RequestInfo) : Prop :=
  ∀ connection, r.origin = some connection → r.cancelled = false →
    ∃ e, sent.filter (·.rid == r.rid) = [⟨r.rid, .response connection r.token e⟩]

/-- What is known about a request that is pending. -/
structure Waiting (b : RildBuild) (s : Rild) (r : RequestInfo) : Prop where
  fresh : r.rid < s.nextRid
  unsent : ∀ m ∈ s.sent, m.rid ≠ r.rid
  uncompleted : ∀ q ∈ s.completed, q.rid ≠ r.rid
  connected : ∀ connection, r.origin = some connection → r.cancelled = false →
    s.connections r.port = some connection
  remote : r.origin.isSome → r.isLocal = false ∧ inTables r.requestNumber = true
  listed : r.client.isSome → r.socketId < b.simCount

structure Routes (b : RildBuild) (s : Rild) : Prop where
  pending : ∀ r ∈ s.pending, Waiting b s r
  completed : ∀ r ∈ s.completed, r.rid < s.nextRid ∧ Answered s.sent r
  sent : ∀ m ∈ s.sent, m.rid < s.nextRid

namespace Routes

variable {b : RildBuild} {s : Rild}

theorem start : Routes b .start where
  pending := fun _ hr => absurd hr not_mem_nil
  completed := fun _ hr => absurd hr not_mem_nil
  sent := fun _ hm => absurd hm not_mem_nil

variable (h : Routes b s)
include h

/-- A new request is not named by anything yet. -/
theorem addRequest {client : Option Client} {token requestNumber : Int}
    {isLocal : Bool} {socketId : Nat} {origin : Option Nat}
    (hconnected : ∀ connection, origin = some connection →
      s.connections (RequestInfo.port ⟨s.nextRid, client, token, requestNumber, false, isLocal,
        socketId, origin⟩) = some connection)
    (hremote : origin.isSome → isLocal = false ∧ inTables requestNumber = true)
    (hlisted : client.isSome → socketId < b.simCount) :
    Routes b (addRequest s client token requestNumber isLocal socketId origin) where
  pending := by
    intro r hr
    rcases mem_cons.mp hr with rfl | hr
    · exact
        { fresh := Nat.lt_succ_self _
          unsent := fun m hm => Nat.ne_of_lt (h.sent m hm)
          uncompleted := fun q hq => Nat.ne_of_lt (h.completed q hq).1
          connected := fun connection horigin _ => hconnected connection horigin
          remote := hremote
          listed := hlisted }
    · have hw := h.pending r hr
      exact { hw with fresh := Nat.lt_succ_of_lt hw.fresh }
  completed := fun r hr => ⟨Nat.lt_succ_of_lt (h.completed r hr).1, (h.completed r hr).2⟩
  sent := fun m hm => Nat.lt_succ_of_lt (h.sent m hm)

/-- A request that does not come from a connection. -/
theorem addOwn (token requestNumber : Int) (isLocal : Bool) (socketId : Nat) :
    Routes b (Ril.addRequest s none token requestNumber isLocal socketId none) :=
  h.addRequest (fun _ horigin => by cases horigin) (fun hsome => by cases hsome)
    (fun hsome => by cases hsome)

/-- Connections change, and the requests that this concerns are cancelled. -/
theorem cancel (which : RequestInfo → Bool) {connections : Port → Option Nat}
    (hkeep : ∀ r ∈ s.pending, which r = false → r.cancelled = false → r.origin.isSome →
      connections r.port = s.connections r.port) :
    Routes b (cancel { s with connections := connections } which) where
  pending := by
    intro r hr
    obtain ⟨q, hq, rfl⟩ := mem_map.mp hr
    have hw := h.pending q hq
    cases hwhich : which q with
    | true =>
      exact
        { fresh := hw.fresh
          unsent := hw.unsent
          uncompleted := hw.uncompleted
          connected := fun _ _ hcancelled => by cases hcancelled
          remote := hw.remote
          listed := hw.listed }
    | false =>
      refine { hw with connected := fun connection horigin hcancelled => ?_ }
      have hsome : q.origin.isSome := by
        rw [show q.origin = some connection from horigin]
        rfl
      exact (hkeep q hq hwhich hcancelled hsome).trans (hw.connected connection horigin hcancelled)
  completed := h.completed
  sent := h.sent

/-- A request is taken from the list, with what was written for it. -/
theorem complete {r : RequestInfo} {pending : List RequestInfo}
    {sent : List Sent} {descriptors : Descriptor → Bool} {nextRid : Nat}
    (hpending : ∀ q ∈ pending, q ∈ s.pending ∧ q.rid ≠ r.rid) (hnext : s.nextRid ≤ nextRid)
    (hfresh : r.rid < nextRid) (hunsent : ∀ m ∈ s.sent, m.rid ≠ r.rid)
    (huncompleted : ∀ q ∈ s.completed, q.rid ≠ r.rid)
    (hsent : sent = s.sent ∨ ∃ m, sent = s.sent ++ [⟨r.rid, m⟩])
    (hanswer : ∀ connection, r.origin = some connection → r.cancelled = false →
      ∃ e, sent = s.sent ++ [⟨r.rid, .response connection r.token e⟩]) :
    Routes b { s with
      pending := pending, completed := s.completed ++ [r], sent := sent
      descriptors := descriptors, nextRid := nextRid } := by
  have hmem : ∀ m ∈ sent, m ∈ s.sent ∨ m.rid = r.rid := by
    intro m hm
    rcases hsent with rfl | ⟨msg, rfl⟩
    · exact .inl hm
    · exact (mem_append.mp hm).imp_right fun hm => congrArg Sent.rid (mem_singleton.mp hm)
  have hnone : s.sent.filter (·.rid == r.rid) = [] := by
    refine filter_eq_nil_iff.mpr fun m hm => ?_
    simpa using hunsent m hm
  -- what is written for this request is not written for another one
  have hothers : ∀ q : RequestInfo, q.rid ≠ r.rid →
      sent.filter (·.rid == q.rid) = s.sent.filter (·.rid == q.rid) := by
    intro q hq
    rcases hsent with rfl | ⟨msg, rfl⟩
    · rfl
    · simp [Ne.symm hq]
  refine ⟨fun q hq => ?_, fun q hq => ?_, fun m hm => ?_⟩
  · obtain ⟨hold, hne⟩ := hpending q hq
    have hw := h.pending q hold
    exact
      { fresh := Nat.lt_of_lt_of_le hw.fresh hnext
        unsent := fun m hm => (hmem m hm).elim (hw.unsent m) fun heq => heq ▸ Ne.symm hne
        uncompleted := fun c hc => (mem_append.mp hc).elim (hw.uncompleted c)
          fun hc => (mem_singleton.mp hc) ▸ Ne.symm hne
        connected := hw.connected
        remote := hw.remote
        listed := hw.listed }
  · rcases mem_append.mp hq with hq | hq
    · obtain ⟨hlt, hans⟩ := h.completed q hq
      refine ⟨Nat.lt_of_lt_of_le hlt hnext, fun connection horigin hcancelled => ?_⟩
      rw [hothers q (huncompleted q hq)]
      exact hans connection horigin hcancelled
    · obtain rfl := mem_singleton.mp hq
      refine ⟨hfresh, fun connection horigin hcancelled => ?_⟩
      obtain ⟨e, heq⟩ := hanswer connection horigin hcancelled
      refine ⟨e, ?_⟩
      rw [heq, filter_append, hnone]
      simp
  · rcases hmem m hm with hm | heq
    · exact Nat.lt_of_lt_of_le (h.sent m hm) hnext
    · exact heq ▸ hfresh

theorem onRequestComplete {r : RequestInfo} (hr : r ∈ s.pending) {e : Int}
    {response : Option Payload}
    (hcond : r.origin.isNone = true ∨ r.cancelled = true ∨ routable s r e response = true) :
    Routes b (onRequestComplete b s r e response) := by
  have hw := h.pending r hr
  obtain ⟨sent, descriptors, heq, hsent⟩ := onRequestComplete_sendsFor b s r e response
  have hanswer : ∀ connection, r.origin = some connection → r.cancelled = false →
      ∃ e, sent = s.sent ++ [⟨r.rid, .response connection r.token e⟩] := by
    intro connection horigin hcancelled
    obtain ⟨hlocal, hnumber⟩ := hw.remote (by rw [horigin]; rfl)
    have hroutable : routable s r e response = true := by
      rcases hcond with hnone | hcan | hroutable
      · rw [horigin] at hnone
        cases hnone
      · cases hcancelled.symm.trans hcan
      · exact hroutable
    have hans := onRequestComplete_answer (b := b) hlocal hnumber hcancelled
      (hw.connected connection horigin hcancelled) hroutable
    rw [heq] at hans
    exact ⟨_, hans⟩
  rw [heq]
  refine h.complete (fun q hq => ?_) (Nat.le_refl _) hw.fresh hw.unsent hw.uncompleted hsent hanswer
  obtain ⟨hq, hne⟩ := mem_filter.mp hq
  exact ⟨hq, by simpa using hne⟩

/-- A request from a connection. -/
theorem processBuffer (client : Option Client) (socketId : Nat)
    (hlisted : client.isSome → socketId < b.simCount) {request token : Int}
    (hclient : client ≠ some .malAt ∨ unsupported request = false) {s' : Rild}
    (hstep : processBuffer s client socketId (answerPort client socketId) request token = some s') :
    Routes b s' := by
  unfold Ril.processBuffer at hstep
  split at hstep
  · cases hstep
  · next connection hconnected =>
    split at hstep
    · next hunsupported =>
      cases hstep
      have hne : answerPort client socketId ≠ .client .malAt := by
        rcases hclient with hclient | hfalse
        · exact answerPort_ne hclient socketId
        · cases hfalse.symm.trans hunsupported
      rw [sendTo_connected (s := { s with
        completed := s.completed ++ [⟨s.nextRid, client, token, request, false, false, socketId,
          some connection⟩], nextRid := s.nextRid + 1 }) hconnected hne (by decide)]
      refine h.complete (r := ⟨s.nextRid, client, token, request, false, false, socketId,
        some connection⟩) (fun q hq => ⟨hq, Nat.ne_of_lt (h.pending q hq).fresh⟩)
        (Nat.le_succ _) (Nat.lt_succ_self _) (fun m hm => Nat.ne_of_lt (h.sent m hm))
        (fun q hq => Nat.ne_of_lt (h.completed q hq).1) (.inr ⟨_, rfl⟩) ?_
      intro c horigin _
      cases horigin
      exact ⟨_, rfl⟩
    · split at hstep
      · next hin =>
        cases hstep
        refine h.addRequest (fun c horigin => ?_) (fun _ => ⟨rfl, hin⟩) hlisted
        cases horigin
        exact hconnected
      · cases hstep

theorem onCommandsSocketClosed {connections : Port → Option Nat} (socketId : Nat)
    (hkeep : ∀ port, port ≠ .phone socketId → connections port = s.connections port) :
    Routes b (onCommandsSocketClosed b { s with connections := connections } socketId) := by
  have hcancel : Routes b
      (Ril.cancel { s with connections := connections } (·.socketId == socketId)) := by
    refine h.cancel _ fun r _ hother _ _ => hkeep _ ?_
    unfold RequestInfo.port answerPort
    cases r.client with
    | none => simpa using hother
    | some c => simp
  unfold Ril.onCommandsSocketClosed
  dsimp only
  split
  · exact hcancel.addOwn _ _ _ _
  · exact hcancel

theorem closePort (port : Port) : Routes b (closePort b s port) := by
  have hkeep : ∀ other, other ≠ port → update s.connections port none other = s.connections other :=
    fun other hne => if_neg hne
  unfold Ril.closePort
  cases port with
  | phone socketId => exact h.onCommandsSocketClosed socketId hkeep
  | client client =>
    refine h.cancel _ fun r hr hother _ _ => hkeep _ ?_
    unfold RequestInfo.port answerPort
    cases hc : r.client with
    | none => simp
    | some c =>
      have hlt := (h.pending r hr).listed (by rw [hc]; rfl)
      simpa [hlt, hc] using hother

theorem accept {port : Port} (hnone : s.connections port = none) :
    Routes b { s with
      connections := update s.connections port (some s.nextConnection)
      nextConnection := s.nextConnection + 1 } where
  pending := by
    intro r hr
    have hw := h.pending r hr
    refine { hw with connected := fun connection horigin hcancelled => ?_ }
    have hconnected := hw.connected connection horigin hcancelled
    have hne : r.port ≠ port := by
      intro heq
      rw [heq, hnone] at hconnected
      cases hconnected
    exact (if_neg hne).trans hconnected
  completed := h.completed
  sent := h.sent

theorem step {a : RildAct} {s' : Rild} (hcond : routed s a)
    (hstep : rildStep b s a = some s') : Routes b s' := by
  cases a with
  | accept port =>
    obtain ⟨hnone, haccept⟩ := Option.ite_none_right_eq_some.mp hstep
    cases haccept
    exact h.accept (Option.isNone_iff_eq_none.mp hnone)
  | refuse socketId =>
    obtain ⟨-, hrefuse⟩ := Option.ite_none_right_eq_some.mp hstep
    cases hrefuse
    exact h.onCommandsSocketClosed socketId fun _ _ => rfl
  | close port =>
    obtain ⟨-, hclose⟩ := Option.ite_none_right_eq_some.mp hstep
    cases hclose
    exact h.closePort port
  | phoneRequest socketId request token =>
    exact h.processBuffer none socketId (fun hsome => by cases hsome) (.inl (by simp)) hstep
  | clientRequest client simInfo3g request token =>
    obtain ⟨hlt, hrequest⟩ := Option.ite_none_right_eq_some.mp hstep
    refine h.processBuffer (some client) _ (fun _ => ?_) ?_ hrequest
    · split <;> omega
    · have hcond' : client = .mal ∨ unsupported request = false := by
        simpa [routed, routedStep] using hcond
      exact hcond'.imp_left (by rintro rfl; simp)
  | atciRequest socketId =>
    obtain ⟨-, hrequest⟩ := Option.ite_none_right_eq_some.mp hstep
    cases hrequest
    exact h.addOwn _ _ _ _
  | localRequest request socketId | localRequestForResponse request socketId =>
    cases hstep
    show Routes b (if _ then s else Ril.addRequest s none _ _ _ _ none)
    split
    · exact h
    · exact h.addOwn _ _ _ _
  | descriptor d isOpen =>
    cases hstep
    exact ⟨fun r hr => { h.pending r hr with }, h.completed, h.sent⟩
  | complete rid e response =>
    obtain ⟨r, hfind, rfl⟩ := Option.map_eq_some_iff.mp hstep
    refine h.onRequestComplete (mem_of_find?_eq_some hfind) ?_
    simpa [routed, routedStep, hfind, or_assoc] using hcond

end Routes

/-- **Requests and responses.** In a run that meets `routed`, every completed
request of a phone socket or a client that was not cancelled has exactly one
answer: a response with its token on the connection it came from. -/
theorem answered_once {b : RildBuild} {acts : List RildAct} {s : Rild}
    (hrun : Run (rildStep b) routed .start acts s) :
    ∀ r ∈ s.completed, ∀ connection, r.origin = some connection → r.cancelled = false →
      ∃ e, s.sent.filter (·.rid == r.rid) = [⟨r.rid, .response connection r.token e⟩] := by
  have hroutes : Routes b s :=
    hrun.invariant (fun _ _ _ h hcond hstep => h.step hcond hstep) .start
  exact fun r hr => (hroutes.completed r hr).2

/-- Two SIMs: a request of the phone and one of MAL, completed out of order,
and one that is cancelled when the phone process goes away. -/
theorem answered_once_two_sims :
    ∃ s, Run (rildStep ⟨2, true, true⟩) routed .start
        [.accept (.phone 1), .accept (.client .mal), .phoneRequest 1 59 7,
          .clientRequest .mal 0 2001 7, .phoneRequest 1 10 8, .complete 1 0 (some ⟨4, 0⟩),
          .complete 0 0 none, .close (.phone 1), .complete 2 0 none] s ∧
      s.sent = [⟨1, .response 1 7 0⟩, ⟨0, .response 0 7 0⟩] ∧
      ∀ r ∈ s.completed, ∀ connection, r.origin = some connection → r.cancelled = false →
        ∃ e, s.sent.filter (·.rid == r.rid) = [⟨r.rid, .response connection r.token e⟩] := by
  exact Run.exists_of_exec (by decide +kernel) fun s hrun hsent => ⟨hsent, answered_once hrun⟩

/-- The phone sends `RIL_REQUEST_OEM_HOOK_RAW` while ATCI is connected: the
answer is written to ATCI, and the phone gets none. -/
theorem oem_hook_to_atci :
    ∃ s r, Run (rildStep ⟨1, false, false⟩) anyStep .start
        [.accept (.phone 0), .descriptor .atci true, .phoneRequest 0 59 7, .complete 0 0 none] s ∧
      s.completed = [r] ∧ r.origin = some 0 ∧ r.cancelled = false ∧ r.token = 7 ∧
      s.sent = [⟨0, .text .atci⟩] := by
  simp only [exists_and_left]
  refine Run.exists_of_exec (A := fun s => s.completed = [⟨0, none, 7, 59, false, false, 0, some 0⟩]
    ∧ s.sent = [⟨0, .text .atci⟩]) (by decide +kernel) ?_
  rintro s hrun ⟨hcompleted, hsent⟩
  exact ⟨_, hcompleted, rfl, rfl, rfl, hsent⟩

end Arale.Ril
