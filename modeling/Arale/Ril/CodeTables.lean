import Arale.Lib.LowBits
import Arale.Ril.Requests

/-!
# The tables behind the RIL codes

A request code picks an entry of `s_commands` or, from `RIL_REQUEST_VENDOR_BASE`
on, of `s_mtk_commands`; the code of an unsolicited response picks one of
`s_unsolResponses` or `s_mtk_unsolResponses`. Here these four tables have a
size, and an access outside of one ends the function with `OutsideTable`.

The guards of the two functions on requests are one nested comparison,
`unsupported`. It lets pass what is below the first table, and the one code
behind the second (`>` where `≥` was meant). The guard of
`RIL_onUnsolicitedResponseSocket` has the same slip, and nothing rejects the
codes between its two tables.

Mirroring notes:
- `Parcel` is not part of the repository. What is used of it is that an `int`
  that was written is read back.
- The queues behind `enqueue` and the payload of the responses are not here.

> `codes_read_inside`: which request codes read an entry inside their table or
> are answered with `RIL_E_GENERIC_FAILURE`, and in which states which codes of
> unsolicited responses read no entry outside.
> `processBuffer_error_iff`: the request codes that read outside.
-/

namespace Arale.Ril.CodeTables

open List
open Arale.Lib (wordBytes wordOf wordOf_wordBytes)

inductive CodeTable where
  | commands
  | mtkCommands
  | unsolResponses
  | mtkUnsolResponses
  deriving DecidableEq, Repr

/-- An access to an entry that is not there. -/
structure OutsideTable where
  table : CodeTable
  index : Int
  deriving DecidableEq, Repr

/-- `entries[index]`, for an index of the type `int` -/
def entryAt {α : Type} (table : CodeTable) (entries : List α) (index : Int) :
    Except OutsideTable α :=
  if 0 ≤ index then
    match entries[index.toNat]? with
    | some e => .ok e
    | none => .error ⟨table, index⟩
  else .error ⟨table, index⟩

section EntryAt

variable {α : Type} {table : CodeTable} {index : Int}

theorem entryAt_inside (n : Nat) (f : Nat → α) (h0 : 0 ≤ index) (hn : index < n) :
    entryAt table ((List.range n).map f) index = .ok (f index.toNat) := by
  have hlt : index.toNat < n := by omega
  rw [entryAt, if_pos h0, List.getElem?_map, List.getElem?_range hlt]
  rfl

theorem entryAt_outside (entries : List α) (h : index < 0 ∨ entries.length ≤ index) :
    entryAt table entries index = .error ⟨table, index⟩ := by
  unfold entryAt
  split
  · have hlen : entries.length ≤ index.toNat := by omega
    rw [List.getElem?_eq_none hlen]
  · rfl

end EntryAt

/-! ## Requests -/

/-- The codes of `s_commands`; the first entry is for no request. -/
def commands : List Int := (List.range 136).map fun i : Nat => (i : Int)

/-- The codes of `s_mtk_commands` -/
def mtkCommands : List Int := (List.range 139).map fun i : Nat => requestVendorBase + (i : Int)

/-- `pRI->pCI`, as the `requestNumber` of the entry -/
def commandInfo (request : Int32) : Except OutsideTable Int :=
  if requestVendorBase ≤ request.toInt then
    entryAt .mtkCommands mtkCommands (request.toInt - requestVendorBase)
  else entryAt .commands commands request.toInt

/-- The code has an entry in one of the two tables. -/
def inCommandTables (request : Int32) : Prop :=
  (0 ≤ request.toInt ∧ request.toInt < numCommands)
    ∨ (requestVendorBase ≤ request.toInt ∧ request.toInt < requestVendorBase + numMtkCommands)

instance (request : Int32) : Decidable (inCommandTables request) :=
  inferInstanceAs (Decidable (_ ∨ _))

variable {request unsolResponse : Int32}

theorem commandInfo_eq (h : inCommandTables request) : commandInfo request = .ok request.toInt := by
  unfold inCommandTables numCommands requestVendorBase numMtkCommands at h
  unfold commandInfo requestVendorBase
  split
  · have hindex : (((request.toInt - 2000).toNat : Nat) : Int) = request.toInt - 2000 := by omega
    rw [mtkCommands, entryAt_inside 139 _ (by omega) (by omega), hindex, requestVendorBase]
    congr 1
    omega
  · rw [commands, entryAt_inside 136 _ (by omega) (by omega), Int.toNat_of_nonneg (by omega)]

theorem unsupported_iff (request : Int) :
    unsupported request = true ↔ 2139 < request ∨ 136 ≤ request ∧ request < 2000 := by
  simp only [unsupported, Bool.and_eq_true, Bool.or_eq_true, decide_eq_true_eq]
  simp only [numCommands, requestVendorBase, numMtkCommands]
  omega

theorem commandInfo_outside (h : ¬inCommandTables request) :
    ∃ f, commandInfo request = .error f := by
  unfold inCommandTables numCommands requestVendorBase numMtkCommands at h
  unfold commandInfo requestVendorBase
  split
  · refine ⟨_, entryAt_outside _ (Or.inr ?_)⟩
    rw [mtkCommands, length_map, length_range]
    omega
  · refine ⟨_, entryAt_outside _ ?_⟩
    rw [commands, length_map, length_range]
    omega

/-- The codes that are let pass without an entry. -/
theorem accepted_outside_iff (request : Int32) :
    ¬unsupported request.toInt = true ∧ ¬inCommandTables request ↔
      request.toInt < 0 ∨ request.toInt = requestVendorBase + numMtkCommands := by
  rw [unsupported_iff]
  simp only [inCommandTables, numCommands, requestVendorBase, numMtkCommands]
  omega

/-- The two functions of `Parcel` that are called: `readInt32` gives the value
and what is behind it. -/
structure Parcel where
  readInt32 : List UInt8 → Option (Int32 × List UInt8)
  writeInt32 : Int32 → List UInt8
  read_written : ∀ n rest, readInt32 (writeInt32 n ++ rest) = some (n, rest)

/-- Words in memory order, as on the device. -/
def Parcel.words : Parcel where
  readInt32
    | a :: b :: c :: d :: rest => some (Int32.ofBitVec (wordOf [a, b, c, d]), rest)
    | _ => none
  writeInt32 n := wordBytes n.toBitVec
  read_written n rest := by
    show some (Int32.ofBitVec (wordOf (wordBytes n.toBitVec)), rest) = _
    rw [wordOf_wordBytes, Int32.ofBitVec_toBitVec]

variable (p : Parcel)

/-- The common part of `processCommandBuffer` and `processClientCommandBuffer`.
Only the status of the second read is looked at; it fails whenever the first
one does. -/
def processBuffer (s : Rild) (client : Option Client) (socketId : Nat) (port : Port)
    (buffer : List UInt8) : Except OutsideTable Rild :=
  match p.readInt32 buffer with
  | none => .ok s
  | some (request, behind) =>
    match p.readInt32 behind with
    | none => .ok s
    | some (token, _) =>
      if unsupported request.toInt then
        .ok (sendTo s port s.nextRid token.toInt genericFailure 12)
      else do
        let requestNumber ← commandInfo request
        return addRequest s client token.toInt requestNumber false socketId (s.connections port)

/-- `processCommandBuffer` -/
def processCommandBuffer (s : Rild) (socketId : Nat) (buffer : List UInt8) :
    Except OutsideTable Rild :=
  processBuffer p s none socketId (.phone socketId) buffer

/-- `processClientCommandBuffer` -/
def processClientCommandBuffer (s : Rild) (client : Client) (simInfo3g : Nat)
    (buffer : List UInt8) : Except OutsideTable Rild :=
  processBuffer p s (some client) (if client = .mal then simInfo3g else 0) (.client client) buffer

/-- A request as the peer writes it. -/
def requestParcel (request token : Int32) (arguments : List UInt8) : List UInt8 :=
  p.writeInt32 request ++ (p.writeInt32 token ++ arguments)

theorem processBuffer_parcel (s : Rild) (client : Option Client) (socketId : Nat) (port : Port)
    (request token : Int32) (arguments : List UInt8) :
    processBuffer p s client socketId port (requestParcel p request token arguments) =
      if unsupported request.toInt then
        .ok (sendTo s port s.nextRid token.toInt genericFailure 12)
      else do
        let requestNumber ← commandInfo request
        return addRequest s client token.toInt requestNumber false socketId
          (s.connections port) := by
  simp only [processBuffer, requestParcel, p.read_written]

theorem processBuffer_listed (s : Rild) (client : Option Client) (socketId : Nat) (port : Port)
    (hin : inCommandTables request) {token : Int32} {arguments : List UInt8} :
    processBuffer p s client socketId port (requestParcel p request token arguments)
      = .ok (addRequest s client token.toInt request.toInt false socketId
          (s.connections port)) := by
  have hsupported : ¬ unsupported request.toInt = true := by
    rw [unsupported_iff]
    simp only [inCommandTables, numCommands, requestVendorBase, numMtkCommands] at hin
    omega
  rw [processBuffer_parcel, if_neg hsupported, commandInfo_eq hin]
  rfl

theorem processBuffer_outside (s : Rild) (client : Option Client) (socketId : Nat) (port : Port)
    (hsupported : ¬ unsupported request.toInt = true) (hout : ¬ inCommandTables request)
    (token : Int32) (arguments : List UInt8) :
    ∃ f, processBuffer p s client socketId port (requestParcel p request token arguments)
      = .error f := by
  obtain ⟨f, hf⟩ := commandInfo_outside hout
  rw [processBuffer_parcel, if_neg hsupported, hf]
  exact ⟨f, rfl⟩

/-- The codes that read outside of the tables are the ones that are let pass
without an entry. -/
theorem processBuffer_error_iff (s : Rild) (client : Option Client) (socketId : Nat) (port : Port)
    (request token : Int32) (arguments : List UInt8) :
    (∃ f, processBuffer p s client socketId port (requestParcel p request token arguments)
      = .error f) ↔
      request.toInt < 0 ∨ request.toInt = requestVendorBase + numMtkCommands := by
  rw [← accepted_outside_iff]
  constructor
  · rintro ⟨f, hf⟩
    refine ⟨fun hunsupported => ?_, fun hin => ?_⟩
    · rw [processBuffer_parcel, if_pos hunsupported] at hf
      cases hf
    · rw [processBuffer_listed p s client socketId port hin] at hf
      cases hf
  · rintro ⟨hsupported, hout⟩
    exact processBuffer_outside p s client socketId port hsupported hout token arguments

/-- Where the model without tables has a state, this one has the same requests
and the same responses. -/
theorem processBuffer_of_state {s t : Rild} {client : Option Client} {socketId : Nat} {port : Port}
    {token : Int32}
    (h : Ril.processBuffer s client socketId port request.toInt token.toInt = some t)
    (arguments : List UInt8) :
    ∃ t', processBuffer p s client socketId port (requestParcel p request token arguments) = .ok t'
      ∧ t'.connections = t.connections ∧ t'.pending = t.pending ∧ t'.sent = t.sent := by
  rw [processBuffer_parcel]
  unfold Ril.processBuffer at h
  cases hconnection : s.connections port with
  | none => simp [hconnection] at h
  | some connection =>
    simp only [hconnection] at h
    split at h
    · rename_i hunsupported
      cases h
      rw [if_pos hunsupported]
      refine ⟨_, rfl, ?_⟩
      simp only [sendTo, hconnection]
      split <;> exact ⟨rfl, rfl, rfl⟩
    · rename_i hsupported
      split at h
      · rename_i htables
        cases h
        have hin : inCommandTables request := by
          simp only [inTables, Bool.or_eq_true, Bool.and_eq_true, decide_eq_true_eq] at htables
          simp only [numCommands, requestVendorBase, numMtkCommands] at htables
          simp only [inCommandTables, numCommands, requestVendorBase, numMtkCommands]
          omega
        rw [if_neg hsupported, commandInfo_eq hin]
        exact ⟨_, rfl, rfl, rfl, rfl⟩
      · cases h

theorem processBuffer_of_state_ten :
    ∃ t, Ril.processBuffer { Rild.start with connections := fun _ => some 0 } none 0 (.phone 0) 10 7
        = some t
      ∧ ∃ t', processBuffer .words { Rild.start with connections := fun _ => some 0 } none 0
          (.phone 0) (requestParcel .words 10 7 []) = .ok t'
        ∧ t'.connections = t.connections ∧ t'.pending = t.pending ∧ t'.sent = t.sent :=
  ⟨_, rfl, processBuffer_of_state .words rfl []⟩

/-- The request was answered with `RIL_E_GENERIC_FAILURE` and its token, and
there is no new `RequestInfo`. -/
def refused (s t : Rild) (port : Port) (token : Int32) : Prop :=
  (∀ connection, s.connections port = some connection →
      t.sent = s.sent ++ [⟨s.nextRid, .response connection token.toInt genericFailure⟩])
    ∧ t.pending = s.pending ∧ t.nextRid = s.nextRid

theorem sendTo_refused (s : Rild) {port : Port} (hport : port ≠ .client .malAt) (token : Int32) :
    refused s (sendTo s port s.nextRid token.toInt genericFailure 12) port token := by
  have hsmall : ¬(port = .client .malAt || maxCommandBytes < 12) = true := by
    simp [hport, maxCommandBytes]
  unfold sendTo
  cases hconnection : s.connections port with
  | none =>
    refine ⟨fun c hc => ?_, rfl, rfl⟩
    rw [hconnection] at hc
    cases hc
  | some connection =>
    simp only [if_neg hsmall]
    refine ⟨fun c hc => ?_, rfl, rfl⟩
    rw [hconnection] at hc
    cases hc
    rfl

/-- MAL_AT gets no responses at all. -/
theorem not_refused_malAt {s : Rild} {connection : Nat}
    (hconnection : s.connections (.client .malAt) = some connection) (token : Int32) :
    ¬ refused s (sendTo s (.client .malAt) s.nextRid token.toInt genericFailure 12)
      (.client .malAt) token := by
  intro h
  have hsent := h.1 connection hconnection
  simp [sendTo, hconnection] at hsent

/-- **Requests.** -/
theorem processBuffer_served_iff (s : Rild) (client : Option Client) (socketId : Nat)
    (port : Port) (request token : Int32) (arguments : List UInt8) :
    (∃ t, processBuffer p s client socketId port (requestParcel p request token arguments) = .ok t
        ∧ (¬inCommandTables request → refused s t port token)) ↔
      inCommandTables request ∨ unsupported request.toInt = true
        ∧ (port = .client .malAt → s.connections port = none) := by
  by_cases hin : inCommandTables request
  · rw [processBuffer_listed p s client socketId port hin]
    exact ⟨fun _ => .inl hin, fun _ => ⟨_, rfl, fun hout => absurd hin hout⟩⟩
  by_cases hunsupported : unsupported request.toInt = true
  · rw [processBuffer_parcel, if_pos hunsupported]
    constructor
    · rintro ⟨t, ht, hrefused⟩
      cases ht
      refine .inr ⟨hunsupported, ?_⟩
      rintro rfl
      cases hconnection : s.connections (.client .malAt) with
      | none => rfl
      | some connection => exact absurd (hrefused hin) (not_refused_malAt hconnection token)
    · intro h
      refine ⟨_, rfl, fun _ => ?_⟩
      by_cases hport : port = .client .malAt
      · have hnone := (h.resolve_left hin).2 hport
        have hstill : sendTo s port s.nextRid token.toInt genericFailure 12 = s := by
          simp [sendTo, hnone]
        rw [hstill]
        exact ⟨fun connection hsome => by simp [hnone] at hsome, rfl, rfl⟩
      · exact sendTo_refused s hport token
  · obtain ⟨f, hf⟩ :=
      processBuffer_outside p s client socketId port hunsupported hin token arguments
    constructor
    · rintro ⟨t, ht, -⟩
      rw [hf] at ht
      cases ht
    · rintro (h | h)
      · exact absurd h hin
      · exact absurd h.1 hunsupported

/-! ## Unsolicited responses -/

inductive WakeType where
  | dontWake
  | wakePartial
  deriving DecidableEq, Repr

/-- `UnsolResponseInfo`, without its `responseFunction` -/
structure UnsolResponseInfo where
  requestNumber : Int
  wakeType : WakeType
  deriving DecidableEq, Repr

/-- `RIL_UNSOL_RESPONSE_BASE` -/
def unsolResponseBase : Int32 := 1000

/-- `RIL_UNSOL_VENDOR_BASE` -/
def unsolVendorBase : Int := 3000

/-- `NUM_ELEMS(s_unsolResponses)` -/
def numUnsolResponses : Int := 46

/-- `NUM_ELEMS(s_mtk_unsolResponses)` -/
def numMtkUnsolResponses : Int := 81

/-- `RIL_UNSOL_RESPONSE_PLMN_CHANGED` -/
def unsolResponsePlmnChanged : Int32 := 3023

/-- `RIL_UNSOL_VSIM_OPERATION_INDICATION` -/
def unsolVsimOperationIndication : Int32 := 3072

/-- `RIL_UNSOL_MAL_AT_INFO` -/
def unsolMalAtInfo : Int32 := 3074

/-- `RIL_UNSOL_MAIN_SIM_INFO` -/
def unsolMainSimInfo : Int32 := 3075

/-- `s_unsolResponses`; `RIL_UNSOL_ON_USSD_REQUEST` and
`RIL_UNSOL_SIGNAL_STRENGTH` do not wake the phone. -/
def unsolResponses : List UnsolResponseInfo :=
  (List.range 46).map fun i : Nat =>
    ⟨1000 + (i : Int), if i = 7 ∨ i = 9 then .dontWake else .wakePartial⟩

/-- `s_mtk_unsolResponses` -/
def mtkUnsolResponses : List UnsolResponseInfo :=
  (List.range 81).map fun i : Nat => ⟨unsolVendorBase + (i : Int), .wakePartial⟩

/-- What `RIL_onUnsolicitedResponseSocket` looks at: the descriptors (negative
if closed), whether MAL is used and how, and whether `socket_id` is the 3G
SIM. -/
structure UnsolState where
  registerCalled : Bool
  fdCommand : Int
  malFd : Int
  malAtFd : Int
  vsimFd : Int
  atciFd : Int
  malSupported : Bool
  malDongleMode : Bool
  on3gSim : Bool
  deriving DecidableEq, Repr

/-- What happens to the response: there is nobody to send it to, it only
updates the 3G SIM, its code is unsupported, it is kept for later, it goes to
the VSIM client, or it is packed with the entry of its table. -/
inductive UnsolResult where
  | ignored
  | mainSim
  | unsupported
  | cachedEcops
  | cached
  | cachedVsim
  | vsim
  | packed (info : UnsolResponseInfo)
  deriving DecidableEq, Repr

/-- `cacheEcopsUrc` for the one code that it keeps, `cacheUrc` for the others -/
def cacheUrc (unsolResponse : Int32) : Except OutsideTable UnsolResult :=
  if unsolResponse = unsolResponsePlmnChanged then do
    let _ ← entryAt .mtkUnsolResponses mtkUnsolResponses (unsolResponse.toInt - unsolVendorBase)
    return .cachedEcops
  else .ok .cached

/-- The entry whose `wakeType` and `responseFunction` are read -/
def unsolResponseInfo (unsolResponse : Int32) : Except OutsideTable UnsolResponseInfo :=
  if unsolVendorBase ≤ unsolResponse.toInt then
    entryAt .mtkUnsolResponses mtkUnsolResponses (unsolResponse.toInt - unsolVendorBase)
  else entryAt .unsolResponses unsolResponses (unsolResponse - unsolResponseBase).toInt

/-- The part of `RIL_onUnsolicitedResponseSocket` behind the one that keeps
responses for a phone process that is not connected -/
def sendUnsolicited (s : UnsolState) (unsolResponse : Int32) : Except OutsideTable UnsolResult :=
  if s.vsimFd = -1 ∧ unsolResponse = unsolVsimOperationIndication then .ok .cachedVsim
  else if 0 < s.vsimFd ∧ unsolResponse = unsolVsimOperationIndication then .ok .vsim
  else if s.fdCommand < 0 ∧ s.malFd < 0 ∧ s.malAtFd < 0 ∧ s.atciFd < 0 then .ok .ignored
  else do
    let info ← unsolResponseInfo unsolResponse
    return .packed info

/-- What is rejected as unsupported. The difference is one of the type `int`. -/
def unsolUnsupported (unsolResponse : Int32) : Bool :=
  ((unsolResponse - unsolResponseBase).toInt < 0
      || numUnsolResponses ≤ (unsolResponse - unsolResponseBase).toInt)
    && unsolVendorBase + numMtkUnsolResponses < unsolResponse.toInt

/-- `RIL_onUnsolicitedResponseSocket` -/
def onUnsolicitedResponseSocket (s : UnsolState) (unsolResponse : Int32) :
    Except OutsideTable UnsolResult :=
  if s.registerCalled = false then .ok .ignored
  else if unsolResponse = unsolMalAtInfo ∧ s.malAtFd < 0 then .ok .ignored
  else if unsolResponse = unsolMainSimInfo then .ok .mainSim
  else if unsolUnsupported unsolResponse then .ok .unsupported
  else if s.fdCommand = -1 ∧ unsolResponse ≠ unsolVsimOperationIndication then
    if s.malSupported && s.malDongleMode then
      if s.malFd < 0 ∨ s.malAtFd < 0 ∨ s.on3gSim = false then .ok .ignored
      else sendUnsolicited s unsolResponse
    else cacheUrc unsolResponse
  else sendUnsolicited s unsolResponse

/-- The code has an entry in one of the two tables. -/
def inUnsolTables (unsolResponse : Int32) : Prop :=
  (unsolResponseBase.toInt ≤ unsolResponse.toInt
      ∧ unsolResponse.toInt < unsolResponseBase.toInt + numUnsolResponses)
    ∨ (unsolVendorBase ≤ unsolResponse.toInt
      ∧ unsolResponse.toInt < unsolVendorBase + numMtkUnsolResponses)

instance (unsolResponse : Int32) : Decidable (inUnsolTables unsolResponse) :=
  inferInstanceAs (Decidable (_ ∨ _))

theorem unsolResponseBase_toInt : unsolResponseBase.toInt = 1000 := by decide

/-- The difference, for the codes where it does not overflow. -/
theorem index_toInt (h : -2147482648 ≤ unsolResponse.toInt) :
    (unsolResponse - unsolResponseBase).toInt = unsolResponse.toInt - 1000 := by
  have hlt := unsolResponse.toInt_lt
  rw [Int32.toInt_sub, unsolResponseBase_toInt]
  apply Int.bmod_eq_of_le <;> omega

theorem unsolResponseInfo_eq (h : inUnsolTables unsolResponse) :
    ∃ wakeType, unsolResponseInfo unsolResponse = .ok ⟨unsolResponse.toInt, wakeType⟩ := by
  simp only [inUnsolTables, unsolResponseBase_toInt, numUnsolResponses, unsolVendorBase,
    numMtkUnsolResponses] at h
  unfold unsolResponseInfo unsolVendorBase
  split
  · have hcode : (3000 : Int) + ((unsolResponse.toInt - 3000).toNat : Int)
        = unsolResponse.toInt := by omega
    refine ⟨.wakePartial, ?_⟩
    rw [mtkUnsolResponses, entryAt_inside 81 _ (by omega) (by omega), unsolVendorBase, hcode]
  · have hcode : (1000 : Int) + ((unsolResponse.toInt - 1000).toNat : Int)
        = unsolResponse.toInt := by omega
    rw [index_toInt (by omega), unsolResponses, entryAt_inside 46 _ (by omega) (by omega), hcode]
    exact ⟨_, rfl⟩

theorem cacheUrc_ok (unsolResponse : Int32) : ∃ r, cacheUrc unsolResponse = .ok r := by
  unfold cacheUrc
  split
  · rename_i hplmn
    subst hplmn
    exact ⟨_, rfl⟩
  · exact ⟨_, rfl⟩

theorem sendUnsolicited_inside (s : UnsolState)
    (h : inUnsolTables unsolResponse) : ∃ r, sendUnsolicited s unsolResponse = .ok r := by
  obtain ⟨wakeType, hok⟩ := unsolResponseInfo_eq h
  unfold sendUnsolicited
  rw [hok]
  split
  · exact ⟨_, rfl⟩
  · split
    · exact ⟨_, rfl⟩
    · split
      · exact ⟨_, rfl⟩
      · exact ⟨_, rfl⟩

theorem unsolResponseInfo_outside (h : ¬ inUnsolTables unsolResponse) :
    ∃ f, unsolResponseInfo unsolResponse = .error f := by
  have hlow := unsolResponse.le_toInt
  simp only [inUnsolTables, unsolResponseBase_toInt, numUnsolResponses, unsolVendorBase,
    numMtkUnsolResponses] at h
  unfold unsolResponseInfo unsolVendorBase
  split
  · refine ⟨_, entryAt_outside _ (.inr ?_)⟩
    rw [mtkUnsolResponses, length_map, length_range]
    omega
  · refine ⟨_, entryAt_outside _ ?_⟩
    rw [unsolResponses, length_map, length_range]
    by_cases hfar : -2147482648 ≤ unsolResponse.toInt
    · rw [index_toInt hfar]
      omega
    · -- the difference wraps to a large one
      have hwrap : (unsolResponse - unsolResponseBase).toInt
          = unsolResponse.toInt - 1000 + 4294967296 := by
        rw [Int32.toInt_sub, unsolResponseBase_toInt, ← Int.add_bmod_right]
        exact Int.bmod_eq_of_le (by omega) (by omega)
      rw [hwrap]
      omega

/-- Only codes more than one behind the vendor table are rejected. -/
theorem unsolUnsupported_iff (unsolResponse : Int32) :
    unsolUnsupported unsolResponse = true ↔
      unsolVendorBase + numMtkUnsolResponses < unsolResponse.toInt := by
  simp only [unsolUnsupported, Bool.and_eq_true, Bool.or_eq_true, decide_eq_true_eq]
  refine ⟨And.right, fun h => ⟨?_, h⟩⟩
  simp only [unsolVendorBase, numMtkUnsolResponses, numUnsolResponses] at h ⊢
  rw [index_toInt (by omega)]
  omega

/-- Nobody is there to send a response to, or it is kept for later. -/
def UnsolState.silent (s : UnsolState) : Prop :=
  s.registerCalled = false ∨
    if s.fdCommand = -1 then
      (s.malSupported && s.malDongleMode) = false ∨ s.malFd < 0 ∨ s.malAtFd < 0
        ∨ s.on3gSim = false
    else s.fdCommand < 0 ∧ s.malFd < 0 ∧ s.malAtFd < 0 ∧ s.atciFd < 0

/-- A code outside of the tables that somebody would get is looked up. -/
theorem onUnsolicitedResponseSocket_outside {s : UnsolState}
    (hout : ¬ inUnsolTables unsolResponse)
    (hsupported : ¬ unsolVendorBase + numMtkUnsolResponses < unsolResponse.toInt)
    (hheard : ¬ s.silent) : ∃ f, onUnsolicitedResponseSocket s unsolResponse = .error f := by
  have hcode : ∀ code, inUnsolTables code → unsolResponse ≠ code := by
    rintro code hin rfl
    exact hout hin
  obtain ⟨f, hf⟩ := unsolResponseInfo_outside hout
  have hvsim := hcode unsolVsimOperationIndication (by decide)
  have hsend : ¬ (s.fdCommand < 0 ∧ s.malFd < 0 ∧ s.malAtFd < 0 ∧ s.atciFd < 0) →
      sendUnsolicited s unsolResponse = .error f := by
    intro hsome
    rw [sendUnsolicited, if_neg fun h => hvsim h.2, if_neg fun h => hvsim h.2, if_neg hsome, hf]
    rfl
  rw [UnsolState.silent, not_or] at hheard
  obtain ⟨hregister, hheard⟩ := hheard
  refine ⟨f, ?_⟩
  rw [onUnsolicitedResponseSocket, if_neg hregister,
    if_neg fun h => hcode unsolMalAtInfo (by decide) h.1,
    if_neg (hcode unsolMainSimInfo (by decide)),
    if_neg (mt (unsolUnsupported_iff _).mp hsupported)]
  split at hheard
  · next hclosed =>
    simp only [not_or, Bool.not_eq_false] at hheard
    obtain ⟨hdongle, hmal, hmalAt, h3g⟩ := hheard
    rw [if_pos ⟨hclosed, hvsim⟩, if_pos hdongle, if_neg (by simp [hmal, hmalAt, h3g])]
    exact hsend fun h => hmal h.2.1
  · next hopen =>
    rw [if_neg fun h => hopen h.1]
    exact hsend hheard

theorem onUnsolicitedResponseSocket_silent {s : UnsolState} (hsilent : s.silent)
    (hout : ¬ inUnsolTables unsolResponse) :
    ∃ r, onUnsolicitedResponseSocket s unsolResponse = .ok r := by
  have hvsim : unsolResponse ≠ unsolVsimOperationIndication := by
    rintro rfl
    exact hout (by decide)
  unfold onUnsolicitedResponseSocket
  rcases hsilent with hregister | hnobody
  · rw [if_pos hregister]
    exact ⟨_, rfl⟩
  iterate 4 (split; · exact ⟨_, rfl⟩)
  split at hnobody
  · next hclosed =>
    rw [if_pos ⟨hclosed, hvsim⟩]
    split
    · next hdongle =>
      rw [if_pos (hnobody.resolve_left (by simp [hdongle]))]
      exact ⟨_, rfl⟩
    · exact cacheUrc_ok unsolResponse
  · next hopen =>
    rw [if_neg fun h => hopen h.1, sendUnsolicited, if_neg fun h => hvsim h.2,
      if_neg fun h => hvsim h.2, if_pos hnobody]
    exact ⟨_, rfl⟩

theorem onUnsolicitedResponseSocket_inside (s : UnsolState) (hin : inUnsolTables unsolResponse) :
    ∃ r, onUnsolicitedResponseSocket s unsolResponse = .ok r := by
  unfold onUnsolicitedResponseSocket
  iterate 4 (split; · exact ⟨_, rfl⟩)
  split
  · split
    · split
      · exact ⟨_, rfl⟩
      · exact sendUnsolicited_inside s hin
    · exact cacheUrc_ok unsolResponse
  · exact sendUnsolicited_inside s hin

theorem onUnsolicitedResponseSocket_ok_iff (s : UnsolState) (unsolResponse : Int32) :
    (∃ r, onUnsolicitedResponseSocket s unsolResponse = .ok r) ↔
      inUnsolTables unsolResponse
        ∨ unsolVendorBase + numMtkUnsolResponses < unsolResponse.toInt ∨ s.silent := by
  constructor
  · rintro ⟨r, hr⟩
    refine Classical.byContradiction fun hbad => ?_
    simp only [not_or] at hbad
    obtain ⟨f, hf⟩ := onUnsolicitedResponseSocket_outside hbad.1 hbad.2.1 hbad.2.2
    rw [hf] at hr
    cases hr
  · intro h
    by_cases hin : inUnsolTables unsolResponse
    · exact onUnsolicitedResponseSocket_inside s hin
    rcases h.resolve_left hin with hbehind | hsilent
    · unfold onUnsolicitedResponseSocket
      rw [if_pos ((unsolUnsupported_iff _).mpr hbehind)]
      repeat' split
      all_goals exact ⟨_, rfl⟩
    · exact onUnsolicitedResponseSocket_silent hsilent hin

/-! ## All codes -/

theorem served_code_iff (request : Int32) :
    inCommandTables request ∨ unsupported request.toInt = true ↔
      0 ≤ request.toInt ∧ request.toInt ≠ requestVendorBase + numMtkCommands := by
  rw [unsupported_iff]
  simp only [inCommandTables, numCommands, requestVendorBase, numMtkCommands]
  omega

/-- **The codes and their tables.** A request on a socket of a phone process or
of a client, and an unsolicited response, read their tables inside, and a
request without an entry is refused, exactly in these cases. -/
theorem codes_read_inside (s : Rild) (socketId simInfo3g : Nat) (client : Client)
    (request token : Int32) (arguments : List UInt8) (u : UnsolState) (unsolResponse : Int32) :
    ((∃ t, processCommandBuffer p s socketId (requestParcel p request token arguments) = .ok t
        ∧ (¬inCommandTables request → refused s t (.phone socketId) token)) ↔
      0 ≤ request.toInt ∧ request.toInt ≠ requestVendorBase + numMtkCommands)
    ∧ ((∃ t, processClientCommandBuffer p s client simInfo3g
          (requestParcel p request token arguments) = .ok t
        ∧ (¬inCommandTables request → refused s t (.client client) token)) ↔
      0 ≤ request.toInt ∧ request.toInt ≠ requestVendorBase + numMtkCommands
        ∧ (inCommandTables request ∨ client = .mal ∨ s.connections (.client client) = none))
    ∧ ((∃ r, onUnsolicitedResponseSocket u unsolResponse = .ok r) ↔
      inUnsolTables unsolResponse
        ∨ unsolVendorBase + numMtkUnsolResponses < unsolResponse.toInt ∨ u.silent) := by
  refine ⟨?_, ?_, onUnsolicitedResponseSocket_ok_iff u unsolResponse⟩
  · rw [processCommandBuffer, processBuffer_served_iff, ← served_code_iff]
    simp
  · rw [processClientCommandBuffer, processBuffer_served_iff, ← and_assoc, ← served_code_iff]
    cases client with
    | mal => simp
    | malAt => simp [or_and_left]

/-- `rild` with a phone process on the first SIM. -/
def connected : Rild :=
  { Rild.start with connections := update Rild.start.connections (.phone 0) (some 0) }

/-- All descriptors but those for VSIM and ATCI are open. -/
def listening : UnsolState := ⟨true, 7, 8, 9, -1, -1, false, false, true⟩

/-- A negative request code, the one behind the vendor table, and two codes of
unsolicited responses: the first between the tables and the one behind the
vendor table. -/
theorem codes_read_outside :
    processCommandBuffer .words connected 0 (requestParcel .words (-1) 5 [])
      = .error ⟨.commands, -1⟩
      ∧ processCommandBuffer .words connected 0 (requestParcel .words 2139 5 [])
        = .error ⟨.mtkCommands, 139⟩
      ∧ processClientCommandBuffer .words connected .mal 0 (requestParcel .words 2139 5 []) =
        .error ⟨.mtkCommands, 139⟩
      ∧ onUnsolicitedResponseSocket listening 1046 = .error ⟨.unsolResponses, 46⟩
      ∧ onUnsolicitedResponseSocket listening 3081 = .error ⟨.mtkUnsolResponses, 81⟩ :=
  ⟨rfl, rfl, rfl, rfl, rfl⟩

end Arale.Ril.CodeTables
