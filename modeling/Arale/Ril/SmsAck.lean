import Arale.Lib.Trace
import Arale.At.Tok

/-!
# Acknowledging received short messages

The modem delivers a message or a status report with a URC and waits for
`AT+CNMA` or, if it came over IMS, `AT+EIMSCNMA`. `sms_type` is what
`ril_sms.c` remembers about it: `SMS_NONE`, or the domain of the message that
is on its way to the framework. While it is set, further messages are refused,
by a callback that runs two seconds later. A message whose PDU does not pass
the check is acknowledged by such a callback too, which then resets
`sms_type`.

`smsStep` takes one URC, one acknowledge request or one callback at a time, in
any order. Beside `sms_type` the state keeps the messages that were accepted
and that the modem has not got an acknowledgement for.

> `acknowledgements_match`: in orderly runs `sms_type` names the domain of the
> one message that is outstanding, every acknowledgement goes where its
> message came from, and nothing is refused while nothing is outstanding.

`orderly` excludes what breaks this: `+CMTI`, which sets `sms_type` whatever
it was; acknowledgements that the framework sends for a message that it never
got; and commands that fail, after which `sms_type` is reset all the same.
-/

namespace Arale.Ril

open List
open Arale.Lib (Run anyStep)
open Arale.At (Line bytes strStartsWith atTokStart nextTok atTokNextint)

/-! ## `ril_sms.c` -/

/-- `SMS_TYPE` -/
inductive SmsType where
  | smsNone
  | smsIms
  | sms3g
  deriving DecidableEq, Repr

/-- Where a message comes from. -/
inductive Domain where
  | threeG
  | ims
  deriving DecidableEq, Repr

/-- The value of `sms_type` for a domain. -/
def Domain.smsType : Domain → SmsType
  | .threeG => .sms3g
  | .ims => .smsIms

/-- The domain that a value of `sms_type` names. -/
def SmsType.domain : SmsType → Option Domain
  | .smsNone => none
  | .smsIms => some .ims
  | .sms3g => some .threeG

@[simp] theorem Domain.smsType_domain (d : Domain) : d.smsType.domain = some d := by
  cases d <;> rfl

/-- The command that acknowledges a message of a domain. -/
def Domain.cnma : Domain → Line
  | .threeG => bytes "AT+CNMA"
  | .ims => bytes "AT+EIMSCNMA"

/-- A deferred error acknowledgement: one of `sendNewSmsErrorAck`,
`sendNewSmsErrorAckAndReset` and the two for IMS. -/
structure ErrorAck where
  domain : Domain
  reset : Bool
  deriving DecidableEq, Repr

/-- What the framework is told. -/
inductive Notice where
  | newSms (pdu : Line)
  | newSmsStatusReport (pdu : Line)
  | newSmsOnSim (index : Int)
  | newBroadcastSms (pdu : Line)
  deriving DecidableEq, Repr

/-- An acknowledgement that was given to the modem: the command, the domain it
is for, and the domain of the message that it acknowledges, if there is one. -/
structure Acked where
  command : Line
  domain : Domain
  message : Option Domain
  deriving DecidableEq, Repr

/-- The globals and the queue of callbacks, and beside them the messages that
are accepted and not acknowledged, and the acknowledgements. -/
structure SmsState where
  smsType : SmsType
  callbacks : List ErrorAck
  notices : List Notice
  outstanding : List Domain
  acked : List Acked
  deriving DecidableEq, Repr

def SmsState.start : SmsState := ⟨.smsNone, [], [], [], []⟩

/-- The value of a hexadecimal digit. -/
def hexDigit (b : UInt8) : Option Nat :=
  if 48 ≤ b && b ≤ 57 then some (b.toNat - 48)
  else if 65 ≤ b && b ≤ 70 then some (b.toNat - 65 + 10)
  else if 97 ≤ b && b ≤ 102 then some (b.toNat - 97 + 10)
  else none

/-- `rild_sms_hexCharToDecInt`, with `none` for `-1` -/
def hexCharToDecInt (hex : Line) (length : Nat) : Option Nat :=
  (hex.take length).foldl
    (fun value b => value.bind fun v => (hexDigit b).map fun digit => v * 16 + digit) (some 0)

/-- `sendNewSmsErroAckWithTimerCallback` -/
def sendNewSmsErroAckWithTimerCallback (s : SmsState) (newSmsDomain : SmsType) (reset : Bool) :
    SmsState :=
  match newSmsDomain.domain with
  | some d => { s with callbacks := s.callbacks ++ [⟨d, reset⟩] }
  | none => s

/-- The branches of `rilSmsUnsolicited`; the others do not touch `sms_type`. -/
inductive UrcKind where
  | newSms (domain : Domain)
  | newSmsStatusReport (domain : Domain)
  | newSmsOnSim
  | newBroadcastSms
  | other
  deriving DecidableEq, Repr

/-- The tests of `rilSmsUnsolicited`. -/
def urcKind (urc : Line) : UrcKind :=
  if strStartsWith urc (bytes "+CIEV: 7") then .other
  else if strStartsWith urc (bytes "+CMT:") then .newSms .threeG
  else if strStartsWith urc (bytes "+EIMSCMT:") then .newSms .ims
  else if strStartsWith urc (bytes "+CMTI:") then .newSmsOnSim
  else if strStartsWith urc (bytes "+CDS:") then .newSmsStatusReport .threeG
  else if strStartsWith urc (bytes "+EIMSCDS:") then .newSmsStatusReport .ims
  else if strStartsWith urc (bytes "+CBM:") then .newBroadcastSms
  else .other

/-- The domain of the message or status report that a URC brings. -/
def UrcKind.brings : UrcKind → Option Domain
  | .newSms domain | .newSmsStatusReport domain => some domain
  | .newSmsOnSim | .newBroadcastSms | .other => none

section Handlers

-- `rild_sms_deliver_pdu_check`: which PDUs are well-formed messages
variable (deliverPduCheck : Line → Bool)

/-- `rild_sms_checkReceivedPDU` returns 0. The length that the URC gives is
only logged. -/
def checkReceivedPdu (pdu : Line) (check : Bool) : Bool :=
  if pdu.length < 2 then false
  else if hexCharToDecInt pdu 2 = none then false
  else if check then deliverPduCheck pdu
  else true

/-- `onNewSms` -/
def onNewSms (smsPdu : Line) (s : SmsState) : SmsState :=
  if checkReceivedPdu deliverPduCheck smsPdu true then
    { s with notices := s.notices ++ [.newSms smsPdu] }
  else sendNewSmsErroAckWithTimerCallback s s.smsType true

/-- `onNewSmsStatusReport` -/
def onNewSmsStatusReport (smsPdu : Line) (s : SmsState) : SmsState :=
  if checkReceivedPdu deliverPduCheck smsPdu false then
    { s with notices := s.notices ++ [.newSmsStatusReport smsPdu] }
  else sendNewSmsErroAckWithTimerCallback s s.smsType true

/-- The index in a `+CMTI` URC, if it is about the SIM. -/
def newSmsOnSimIndex (urc : Line) : Option Int :=
  (atTokStart urc).bind fun cur =>
    let mem := nextTok (some cur)
    if mem.1.any (strStartsWith · (bytes "SM")) then (atTokNextint mem.2).1 else none

/-- `onNewSmsOnSim` -/
def onNewSmsOnSim (urc : Line) (s : SmsState) : SmsState :=
  match newSmsOnSimIndex urc with
  | some index =>
    { s with smsType := .sms3g, notices := s.notices ++ [.newSmsOnSim index] }
  | none => s

/-- `onNewBroadcastSms` -/
def onNewBroadcastSms (smsPdu : Line) (s : SmsState) : SmsState :=
  if checkReceivedPdu deliverPduCheck (bytes "00" ++ smsPdu) false then
    { s with notices := s.notices ++ [.newBroadcastSms smsPdu] }
  else { s with smsType := .smsNone }

/-- The four URCs that bring a message or a status report: it is accepted if
`sms_type` is `SMS_NONE`, and refused otherwise. -/
def receive (domain : Domain) (handler : SmsState → SmsState) (s : SmsState) : SmsState :=
  if s.smsType = .smsNone then
    handler { s with smsType := domain.smsType, outstanding := s.outstanding ++ [domain] }
  else sendNewSmsErroAckWithTimerCallback s domain.smsType false

/-- `rilSmsUnsolicited`, for a URC and the PDU behind it -/
def rilSmsUnsolicited (urc smsPdu : Line) (s : SmsState) : SmsState :=
  match urcKind urc with
  | .newSms domain => receive domain (onNewSms deliverPduCheck smsPdu) s
  | .newSmsStatusReport domain => receive domain (onNewSmsStatusReport deliverPduCheck smsPdu) s
  | .newSmsOnSim => onNewSmsOnSim urc s
  | .newBroadcastSms => onNewBroadcastSms deliverPduCheck smsPdu s
  | .other => s

end Handlers

/-- `at_send_command` with an acknowledgement; `ok` says that the modem took
it. It is meant for the first message that is outstanding, and the modem takes
it for one of the domain of the command. -/
def sendAck (s : SmsState) (domain : Domain) (text : Line) (ok : Bool) : SmsState :=
  if ok then
    { s with
      outstanding := s.outstanding.erase domain
      acked := s.acked ++ [⟨domain.cnma ++ text, domain, s.outstanding.head?⟩] }
  else s

/-- A digit of `%02X`. -/
def upperHex (n : Nat) : UInt8 := UInt8.ofNat (if n < 10 then 48 + n else 55 + n)

/-- What follows the name of the command in `requestSMSAcknowledge`; `none` for
an argument that is not supported. -/
def ackText (ackSuccess : Int) (cause : Nat) : Option Line :=
  if ackSuccess = 1 then some (bytes "=1, 2, \"0000\"")
  else if ackSuccess = 0 then
    some (bytes "=2, 3, \"00" ++ [upperHex (cause / 16 % 16), upperHex (cause % 16)]
      ++ bytes "00\"")
  else none

/-- `requestSMSAcknowledge` -/
def requestSmsAcknowledge (ackSuccess : Int) (cause : Nat) (ok : Bool) (s : SmsState) : SmsState :=
  match ackText ackSuccess cause, s.smsType.domain with
  | some text, some d => { sendAck s d text ok with smsType := .smsNone }
  | _, _ => { s with smsType := .smsNone }

/-- What follows the name of the command in `requestSMSAcknowledgeWithPdu`. -/
def ackTextWithPdu (ackSuccess : UInt8) (pdu : Line) : Option Line :=
  if ackSuccess = 49 then some (bytes "=1, 2, \"" ++ pdu ++ bytes "\"")
  else if ackSuccess = 48 then some (bytes "=2, 3, \"" ++ pdu ++ bytes "\"")
  else none

/-- `requestSMSAcknowledgeWithPdu`. With `SMS_NONE` the command is a null
pointer, and there is no state after it. -/
def requestSmsAcknowledgeWithPdu (ackSuccess : UInt8) (pdu : Line) (ok : Bool) (s : SmsState) :
    Option SmsState :=
  match ackTextWithPdu ackSuccess pdu, s.smsType.domain with
  | some text, some d => some { sendAck s d text ok with smsType := .smsNone }
  | some _, none => none
  | none, _ => some { s with smsType := .smsNone }

/-- The four callbacks; what they send is for the message they were made for. -/
def runErrorAck (cb : ErrorAck) (ok : Bool) (s : SmsState) : SmsState :=
  let text := bytes "=2, 3, \"00FF00\""
  if cb.reset then { sendAck s cb.domain text ok with smsType := .smsNone }
  else if ok then
    -- the message was refused, so it is not outstanding
    { s with acked := s.acked ++ [⟨cb.domain.cnma ++ text, cb.domain, some cb.domain⟩] }
  else s

/-! ## Runs -/

/-- A URC, a request of the framework, or a callback whose time has come; the
last three with what becomes of the command. -/
inductive SmsAct where
  | urc (urc smsPdu : Line)
  | acknowledge (ackSuccess : Int) (cause : Nat) (ok : Bool)
  | acknowledgeWithPdu (ackSuccess : UInt8) (pdu : Line) (ok : Bool)
  | callback (cb : ErrorAck) (ok : Bool)
  deriving DecidableEq, Repr

def smsStep (deliverPduCheck : Line → Bool) (s : SmsState) : SmsAct → Option SmsState
  | .urc urc smsPdu => some (rilSmsUnsolicited deliverPduCheck urc smsPdu s)
  | .acknowledge ackSuccess cause ok => some (requestSmsAcknowledge ackSuccess cause ok s)
  | .acknowledgeWithPdu ackSuccess pdu ok => requestSmsAcknowledgeWithPdu ackSuccess pdu ok s
  | .callback cb ok =>
    if cb ∈ s.callbacks then
      some (runErrorAck cb ok { s with callbacks := s.callbacks.erase cb })
    else none

/-- No callback that resets `sms_type` is waiting. -/
def SmsState.noReset (s : SmsState) : Bool := s.callbacks.all (!·.reset)

/-- What a step must not do: set `sms_type` for a message on the SIM;
acknowledge for the framework what is not the framework's to acknowledge, or
with an argument that is not supported; and reset `sms_type` after a command
that failed. -/
def orderlyStep (s : SmsState) : SmsAct → Bool
  | .urc urc _ => urcKind urc != .newSmsOnSim || (newSmsOnSimIndex urc).isNone
  | .acknowledge ackSuccess cause ok =>
    s.smsType == .smsNone || (s.noReset && (ackText ackSuccess cause).isSome && ok)
  | .acknowledgeWithPdu ackSuccess pdu ok =>
    s.smsType == .smsNone || (s.noReset && (ackTextWithPdu ackSuccess pdu).isSome && ok)
  | .callback cb ok => !cb.reset || ok

def orderly (s : SmsState) (a : SmsAct) : Prop := orderlyStep s a = true

instance (s : SmsState) (a : SmsAct) : Decidable (orderly s a) :=
  inferInstanceAs (Decidable (_ = true))

/-! ## What the handlers preserve -/

/-- `sms_type` names what is outstanding, at most one callback will reset it,
for that message, and acknowledgements went where their messages came from. -/
structure Acknowledged (s : SmsState) : Prop where
  outstanding : s.outstanding = s.smsType.domain.toList
  resets : ∀ d, s.callbacks.count ⟨d, true⟩ ≤ s.outstanding.count d
  acked : ∀ a ∈ s.acked, a.message = some a.domain

/-- The check of a broadcast message never fails: it looks at `00`. -/
theorem checkReceivedPdu_broadcast (deliverPduCheck : Line → Bool) (smsPdu : Line) :
    checkReceivedPdu deliverPduCheck (bytes "00" ++ smsPdu) false = true := by
  rfl

namespace Acknowledged

variable {s : SmsState} {deliverPduCheck : Line → Bool}

theorem none_iff (h : Acknowledged s) : s.outstanding = [] ↔ s.smsType = .smsNone := by
  rw [h.outstanding]
  cases s.smsType <;> simp [SmsType.domain]

/-- Telling the framework something changes nothing here. -/
theorem notify (h : Acknowledged s) (notices : List Notice) :
    Acknowledged { s with notices := notices } :=
  ⟨h.outstanding, h.resets, h.acked⟩

/-- A message is accepted: nothing was outstanding, so no reset is waiting. -/
theorem accept (h : Acknowledged s) (hnone : s.smsType = .smsNone) (d : Domain) :
    Acknowledged { s with smsType := d.smsType, outstanding := s.outstanding ++ [d] } where
  outstanding := by
    show s.outstanding ++ [d] = d.smsType.domain.toList
    rw [h.none_iff.mpr hnone, d.smsType_domain]
    rfl
  resets := fun d' => Nat.le_trans (h.resets d') (by simp)
  acked := h.acked

/-- The error acknowledgement of a message that was just accepted. -/
theorem rejectAccepted (h : Acknowledged s) (hnone : s.smsType = .smsNone) (d : Domain) :
    Acknowledged (sendNewSmsErroAckWithTimerCallback
      { s with smsType := d.smsType, outstanding := s.outstanding ++ [d] } d.smsType true) := by
  have haccept := h.accept hnone d
  unfold sendNewSmsErroAckWithTimerCallback
  rw [d.smsType_domain]
  refine ⟨haccept.outstanding, fun d' => ?_, haccept.acked⟩
  have hold := h.resets d'
  show (s.callbacks ++ [ErrorAck.mk d true]).count ⟨d', true⟩ ≤ (s.outstanding ++ [d]).count d'
  rw [count_append, count_append]
  by_cases hd : d = d'
  · subst hd
    simpa using hold
  · simp [hd, hold]

/-- A message is refused. -/
theorem refuse (h : Acknowledged s) (d : Domain) :
    Acknowledged (sendNewSmsErroAckWithTimerCallback s d.smsType false) := by
  unfold sendNewSmsErroAckWithTimerCallback
  rw [d.smsType_domain]
  refine ⟨h.outstanding, fun d' => ?_, h.acked⟩
  have hold := h.resets d'
  simpa [count_append] using hold

/-- One of the four URCs with a message, for the two handlers that check the
PDU in their own way. -/
theorem receive (h : Acknowledged s) (d : Domain) {passes : Bool} {notice : Notice}
    {handler : SmsState → SmsState}
    (hhandler : ∀ t, handler t = if passes then { t with notices := t.notices ++ [notice] }
      else sendNewSmsErroAckWithTimerCallback t t.smsType true) :
    Acknowledged (receive d handler s) := by
  unfold Ril.receive
  split
  · next hnone =>
    rw [hhandler]
    split
    · exact (h.accept hnone d).notify _
    · exact h.rejectAccepted hnone d
  · exact h.refuse d

theorem rilSmsUnsolicited (h : Acknowledged s) (urc smsPdu : Line)
    (hcond : orderly s (.urc urc smsPdu)) :
    Acknowledged (rilSmsUnsolicited deliverPduCheck urc smsPdu s) := by
  unfold Ril.rilSmsUnsolicited
  split
  · exact h.receive _ fun _ => rfl
  · exact h.receive _ fun _ => rfl
  · next hkind =>
    have hindex : newSmsOnSimIndex urc = none := by
      simpa [orderly, orderlyStep, hkind] using hcond
    rw [onNewSmsOnSim, hindex]
    exact h
  · rw [onNewBroadcastSms, if_pos (checkReceivedPdu_broadcast deliverPduCheck smsPdu)]
    exact h.notify _
  · exact h

/-- The message that `sms_type` names is acknowledged. -/
theorem acknowledge (h : Acknowledged s) {d : Domain} (hd : s.smsType.domain = some d)
    (hresets : ∀ d', s.callbacks.count ⟨d', true⟩ = 0) (text : Line) :
    Acknowledged { sendAck s d text true with smsType := .smsNone } := by
  have hout : s.outstanding = [d] := by
    rw [h.outstanding, hd]
    rfl
  refine ⟨?_, fun d' => ?_, fun a ha => ?_⟩
  · show s.outstanding.erase d = []
    rw [hout, erase_cons_head]
  · exact Nat.le_trans (Nat.le_of_eq (hresets d')) (Nat.zero_le _)
  · rcases mem_append.mp ha with ha | ha
    · exact h.acked a ha
    · rw [mem_singleton.mp ha, hout]
      rfl

theorem idle (h : Acknowledged s) (hnone : s.smsType = .smsNone) :
    Acknowledged { s with smsType := .smsNone } := by
  rwa [← hnone]

theorem noReset_count (hno : s.noReset = true) (d : Domain) : s.callbacks.count ⟨d, true⟩ = 0 := by
  refine count_eq_zero.mpr fun hmem => ?_
  cases all_eq_true.mp hno _ hmem

/-- A request of the framework, with a command or an argument that is not
supported. -/
theorem request (h : Acknowledged s) (text : Option Line) (ok : Bool)
    (hcond : s.smsType = .smsNone ∨ (s.noReset = true ∧ text.isSome = true ∧ ok = true)) :
    (s.smsType = .smsNone ∧ s.smsType.domain = none) ∨
      ∃ t d, text = some t ∧ s.smsType.domain = some d ∧
        Acknowledged { sendAck s d t ok with smsType := .smsNone } := by
  cases hd : s.smsType.domain with
  | none =>
    refine .inl ⟨?_, rfl⟩
    cases htype : s.smsType <;> rw [htype] at hd <;> first | rfl | cases hd
  | some d =>
    rcases hcond with hnone | ⟨hno, htext, rfl⟩
    · rw [hnone] at hd
      cases hd
    · obtain ⟨t, rfl⟩ := Option.isSome_iff_exists.mp htext
      exact .inr ⟨t, d, rfl, rfl, h.acknowledge hd (noReset_count hno) t⟩

/-- A callback that was waiting. -/
theorem callback (h : Acknowledged s) {cb : ErrorAck} {ok : Bool} (hmem : cb ∈ s.callbacks)
    (hcond : orderly s (.callback cb ok)) :
    Acknowledged (runErrorAck cb ok { s with callbacks := s.callbacks.erase cb }) := by
  obtain ⟨d, reset⟩ := cb
  have herase : ∀ d', (s.callbacks.erase ⟨d, reset⟩).count ⟨d', true⟩
      ≤ s.callbacks.count ⟨d', true⟩ :=
    fun d' => erase_sublist.count_le _
  cases reset with
  | false =>
    have hkeep : Acknowledged { s with callbacks := s.callbacks.erase ⟨d, false⟩ } :=
      ⟨h.outstanding, fun d' => Nat.le_trans (herase d') (h.resets d'), h.acked⟩
    cases ok with
    | false => exact hkeep
    | true =>
      refine ⟨hkeep.outstanding, hkeep.resets, fun a ha => ?_⟩
      rcases mem_append.mp ha with ha | ha
      · exact h.acked a ha
      · rw [mem_singleton.mp ha]
  | true =>
    obtain rfl : ok = true := hcond
    -- the message it was made for is the one that is outstanding
    have hpos : 0 < s.outstanding.count d :=
      Nat.lt_of_lt_of_le (count_pos_iff.mpr hmem) (h.resets d)
    have hd : s.smsType.domain = some d := by
      have hin := count_pos_iff.mp hpos
      rw [h.outstanding] at hin
      exact Option.mem_toList.mp hin
    have hlast : ∀ d', (s.callbacks.erase ⟨d, true⟩).count ⟨d', true⟩ = 0 := by
      intro d'
      have hle := h.resets d'
      rw [h.outstanding, hd] at hle
      by_cases heq : d = d'
      · subst heq
        rw [count_erase_self]
        simp only [Option.toList, count_singleton_self] at hle
        omega
      · have hzero : [d].count d' = 0 := by simp [heq]
        have := herase d'
        simp only [Option.toList] at hle
        omega
    have hkeep : Acknowledged { s with callbacks := s.callbacks.erase ⟨d, true⟩ } :=
      ⟨h.outstanding, fun d' => Nat.le_trans (herase d') (h.resets d'), h.acked⟩
    exact hkeep.acknowledge hd hlast _

theorem step (h : Acknowledged s) {a : SmsAct} {s' : SmsState} (hcond : orderly s a)
    (hstep : smsStep deliverPduCheck s a = some s') : Acknowledged s' := by
  cases a with
  | urc urc smsPdu =>
    cases hstep
    exact h.rilSmsUnsolicited urc smsPdu hcond
  | acknowledge ackSuccess cause ok =>
    cases hstep
    unfold requestSmsAcknowledge
    rcases h.request (ackText ackSuccess cause) ok
      (by simpa [orderly, orderlyStep, and_assoc] using hcond)
      with ⟨hnone, hd⟩ | ⟨t, d, ht, hd, hacked⟩
    · rw [hd]
      cases ackText ackSuccess cause <;> exact h.idle hnone
    · rw [ht, hd]
      exact hacked
  | acknowledgeWithPdu ackSuccess pdu ok =>
    simp only [smsStep, requestSmsAcknowledgeWithPdu] at hstep
    rcases h.request (ackTextWithPdu ackSuccess pdu) ok
      (by simpa [orderly, orderlyStep, and_assoc] using hcond)
      with ⟨hnone, hd⟩ | ⟨t, d, ht, hd, hacked⟩
    · rw [hd] at hstep
      split at hstep
      · next heq => cases heq
      · cases hstep
      · cases hstep
        exact h.idle hnone
    · rw [ht, hd] at hstep
      cases hstep
      exact hacked
  | callback cb ok =>
    simp only [smsStep] at hstep
    split at hstep
    · next hmem =>
      cases hstep
      exact h.callback hmem hcond
    · cases hstep

/-- A message that comes while nothing is outstanding is accepted. -/
theorem accepts (h : Acknowledged s) {urc : Line} {d : Domain}
    (hurc : (urcKind urc).brings = some d)
    (hout : s.outstanding = []) (smsPdu : Line) :
    (Ril.rilSmsUnsolicited deliverPduCheck urc smsPdu s).outstanding = [d] := by
  have hnone := h.none_iff.mp hout
  have hcallback : ∀ (t : SmsState) (newSmsDomain : SmsType) (reset : Bool),
      (sendNewSmsErroAckWithTimerCallback t newSmsDomain reset).outstanding = t.outstanding := by
    intro t newSmsDomain reset
    unfold sendNewSmsErroAckWithTimerCallback
    split <;> rfl
  unfold Ril.rilSmsUnsolicited
  cases hkind : urcKind urc <;> rw [hkind] at hurc <;> cases hurc <;> dsimp only <;>
    rw [Ril.receive, if_pos hnone]
  · unfold onNewSms
    split <;> simp [hout, hcallback]
  · unfold onNewSmsStatusReport
    split <;> simp [hout, hcallback]

end Acknowledged

/-- **Acknowledgements.** In an orderly run `sms_type` is the domain of the one
message that is accepted and not acknowledged, and `SMS_NONE` if there is none;
every acknowledgement went to the domain of its message; and a message that
comes while none is outstanding is accepted. -/
theorem acknowledgements_match {deliverPduCheck : Line → Bool} {acts : List SmsAct} {s : SmsState}
    (hrun : Run (smsStep deliverPduCheck) orderly .start acts s) :
    s.outstanding = s.smsType.domain.toList ∧ (∀ a ∈ s.acked, a.message = some a.domain) ∧
      ∀ urc smsPdu d, (urcKind urc).brings = some d → s.outstanding = [] →
        (rilSmsUnsolicited deliverPduCheck urc smsPdu s).outstanding = [d] := by
  have hstart : Acknowledged .start :=
    ⟨rfl, fun _ => Nat.zero_le _, fun a ha => absurd ha not_mem_nil⟩
  have hack : Acknowledged s :=
    hrun.invariant (fun _ _ _ h hcond hstep => h.step hcond hstep) hstart
  exact ⟨hack.outstanding, hack.acked, fun urc smsPdu d hurc hout => hack.accepts hurc hout smsPdu⟩

/-- A message over IMS whose PDU is too short, and a status report that is
refused while the error acknowledgement waits. -/
theorem acknowledgements_match_refused :
    ∃ s, Run (smsStep fun _ => true) orderly .start
        [.urc (bytes "+EIMSCMT: ,1") (bytes "0"), .urc (bytes "+CDS: 2") (bytes "0006"),
          .callback ⟨.threeG, false⟩ true, .callback ⟨.ims, true⟩ true,
          .urc (bytes "+CDS: 2") (bytes "0006")] s ∧
      s.smsType = .sms3g ∧ s.outstanding = [.threeG] ∧ s.acked.length = 2 ∧
      ∀ a ∈ s.acked, a.message = some a.domain := by
  refine Run.exists_of_exec (A := fun s => s.smsType = .sms3g ∧ s.acked.length = 2)
    (by decide +kernel) ?_
  intro s hrun htest
  obtain ⟨hout, hacked, -⟩ := acknowledgements_match hrun
  rw [htest.1] at hout
  exact ⟨htest.1, hout, htest.2, hacked⟩

/-- A status report over IMS, a message that the modem stored on the SIM, and
the acknowledgement of the framework: it goes to the 3G domain, and the report
stays unacknowledged. -/
theorem acknowledged_wrong_domain :
    ∃ s, Run (smsStep fun _ => true) anyStep .start
        [.urc (bytes "+EIMSCDS: 2") (bytes "0006"), .urc (bytes "+CMTI: \"SM\",3") [],
          .acknowledge 1 0 true] s ∧
      s.acked = [⟨bytes "AT+CNMA=1, 2, \"0000\"", .threeG, some .ims⟩] ∧
      s.outstanding = [.ims] ∧ s.smsType = .smsNone := by
  refine ⟨_, .cons trivial rfl (.cons trivial rfl (.cons trivial rfl (.nil _))), ?_⟩
  refine ⟨?_, ?_, ?_⟩ <;> rfl

end Arale.Ril
