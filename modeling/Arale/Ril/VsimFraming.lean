import Arale.Ril.Vsim

/-!
# Framing on the VSIM socket

A message of the VSIM client is a header, whose `length` counts the payload, and
the payload. `processVsimCommandsCallback` does not look at `length`. It knows
the payload of event requests and of the two UICC responses; behind any other
header it expects the next one, so a payload there is taken for a header.

> `vsim_framed`: if the messages that the code does not know have no payload,
> the headers that are parsed are the headers that were sent, in order.

`Reader.Sound` says that the loop makes steps of `vsimDecoder`. What is left is
the decoder on the stream of the messages, and since it is a `Lib.Decoder` the
cuts do not matter: `message_steps` is one message, and the two inductions over
the messages are for a reader that is somewhere in the stream and for one that
has come to its end.
-/

namespace Arale.Ril.Vsim

open List
open Arale.Lib (Decoder wordBytes wordOf wordOf_wordBytes)

/-! ## Messages -/

/-- What the client sends: event requests, the responses to a reset or an APDU,
and other messages. -/
inductive Message where
  | event (transactionId slotId eventId simType : UInt32)
  | response (reset : Bool) (transactionId slotId result : UInt32) (data : List UInt8)
  | other (transactionId messageId slotId : UInt32) (payload : List UInt8)
  deriving DecidableEq, Repr

def Message.payload : Message → List UInt8
  | .event _ _ eventId simType => wordBytes eventId.toBitVec ++ wordBytes simType.toBitVec
  | .response _ _ _ result data =>
    wordBytes result.toBitVec ++ (wordBytes (UInt32.ofNat data.length).toBitVec ++ data)
  | .other _ _ _ payload => payload

/-- The header, whose `length` counts the payload. -/
def Message.header (m : Message) : VsimMessage :=
  match m with
  | .event transactionId slotId _ _ =>
    ⟨transactionId, msgIdEventRequest, slotId, UInt32.ofNat m.payload.length⟩
  | .response reset transactionId slotId _ _ =>
    ⟨transactionId, if reset then msgIdUiccResetResponse else msgIdUiccApduResponse, slotId,
      UInt32.ofNat m.payload.length⟩
  | .other transactionId messageId slotId _ =>
    ⟨transactionId, messageId, slotId, UInt32.ofNat m.payload.length⟩

def Message.encode (m : Message) : List UInt8 := m.header.encode ++ m.payload

/-- The payload can be counted, and the other messages are other messages. -/
def Message.wellFormed : Message → Prop
  | .event _ _ _ _ => True
  | .response _ _ _ _ data => 8 + data.length < 2 ^ 32
  | .other _ messageId _ payload => payload.length < 2 ^ 32 ∧ messageId ≠ msgIdEventRequest
    ∧ messageId ≠ msgIdUiccResetResponse ∧ messageId ≠ msgIdUiccApduResponse

/-- Other messages consist of their header. -/
def Message.bare : Message → Prop
  | .other _ _ _ payload => payload = []
  | _ => True

/-- The slot of a request has an entry in `s_ril_cntx`. -/
def Message.slotKnown : Message → Prop
  | .event _ slotId _ _ => (slotId >>> 1).toNat < numContexts
  | .response _ _ slotId _ _ => (slotId >>> 1).toNat < numContexts
  | .other _ _ _ _ => True

theorem word_wordBytes (n : UInt32) : word (wordBytes n.toBitVec) = n := by
  rw [word, wordOf_wordBytes]

theorem headerOf_encode (msg : VsimMessage) : headerOf msg.encode = msg := by
  have h : headerOf msg.encode = ⟨word (wordBytes msg.transactionId.toBitVec),
    word (wordBytes msg.messageId.toBitVec), word (wordBytes msg.slotId.toBitVec),
    word (wordBytes msg.length.toBitVec)⟩ := rfl
  simp only [h, word_wordBytes]

theorem header_steps (msg : VsimMessage) (rest : List UInt8) :
    vsimDecoder.Steps .header (msg.encode ++ rest) (behindHeader msg) rest [.header msg] := by
  have hsteps := @field_steps .header 16 rfl msg.encode rfl rest
  rwa [Phase.next, headerOf_encode] at hsteps

/-- The header that an output stands for. -/
def VsimOutput.parsed : VsimOutput → Option VsimMessage
  | .header msg => some msg
  | _ => none

/-- The headers that were parsed. -/
def headers (os : List VsimOutput) : List VsimMessage := os.filterMap VsimOutput.parsed

theorem headers_append (os ps : List VsimOutput) : headers (os ++ ps) = headers os ++ headers ps :=
  filterMap_append

/-- Behind the payload: the next header, or the end if the slot is unknown. -/
structure Settled (m : Message) (phase : Phase) (os : List VsimOutput) : Prop where
  parsed : headers os = []
  known : m.slotKnown → phase = .header
  unknown : phase = .header ∨ ∃ slot, phase = .outside slot

theorem Settled.headers_eq {m : Message} {phase : Phase} {os : List VsimOutput}
    (h : Settled m phase os) : headers (.header m.header :: os) = [m.header] :=
  congrArg (m.header :: ·) h.parsed

theorem Settled.issue {m : Message} {msg : VsimMessage} {request : Nat → VsimOutput}
    (hslot : m.slotKnown → (msg.slotId >>> 1).toNat < numContexts)
    (hrequest : ∀ socketId, (request socketId).parsed = none) :
    Settled m (Vsim.issue msg request).1 (Vsim.issue msg request).2 := by
  unfold Vsim.issue
  split
  · refine ⟨?_, fun _ => rfl, Or.inl rfl⟩
    rw [headers, filterMap_cons_none (hrequest _), filterMap_nil]
  · rename_i hunknown
    exact ⟨rfl, fun h => absurd (hslot h) hunknown, Or.inr ⟨_, rfl⟩⟩

/-- A field of four bytes. -/
theorem word_steps {phase : Phase} (hphase : phase.len = some 4) (n : UInt32) (rest : List UInt8) :
    vsimDecoder.Steps phase (wordBytes n.toBitVec ++ rest)
      (phase.next (wordBytes n.toBitVec)).1 rest
      (phase.next (wordBytes n.toBitVec)).2 :=
  field_steps hphase rfl rest

theorem event_steps (transactionId slotId eventId simType : UInt32) (rest : List UInt8) :
    ∃ phase os, vsimDecoder.Steps
      (behindHeader (Message.event transactionId slotId eventId simType).header)
        ((Message.event transactionId slotId eventId simType).payload ++ rest) phase rest os
      ∧ Settled (.event transactionId slotId eventId simType) phase os := by
  let msg := (Message.event transactionId slotId eventId simType).header
  have hevent := @word_steps (.eventId msg) rfl eventId (wordBytes simType.toBitVec ++ rest)
  have htype := @word_steps (.simType msg eventId) rfl simType rest
  simp only [Phase.next, word_wordBytes] at hevent htype
  have hsteps := hevent.trans htype
  exact ⟨_, _, hsteps, .issue (fun h => h) fun _ => rfl⟩

theorem response_steps (reset : Bool) (transactionId slotId result : UInt32) {data : List UInt8}
    (hdata : 8 + data.length < 2 ^ 32) (rest : List UInt8) :
    ∃ phase os, vsimDecoder.Steps
        (behindHeader (Message.response reset transactionId slotId result data).header)
        ((Message.response reset transactionId slotId result data).payload ++ rest) phase rest os
      ∧ Settled (.response reset transactionId slotId result data) phase os := by
  let msg := (Message.response reset transactionId slotId result data).header
  have hbehind : behindHeader msg = .result msg := by
    cases reset <;> rfl
  have hlen : (UInt32.ofNat data.length).toNat = data.length :=
    UInt32.toNat_ofNat_of_lt' (Nat.lt_of_le_of_lt (Nat.le_add_left _ 8) hdata)
  have hresult := @word_steps (.result msg) rfl result
    (wordBytes (UInt32.ofNat data.length).toBitVec ++ (data ++ rest))
  have hlength := @word_steps (.dataLength msg result) rfl (UInt32.ofNat data.length) (data ++ rest)
  have hbytes := @field_steps (.data msg result (UInt32.ofNat data.length)) data.length
    (congrArg some hlen) data rfl rest
  simp only [Phase.next, word_wordBytes] at hresult hlength hbytes
  have hsteps := hresult.trans (hlength.trans hbytes)
  rw [← append_assoc, ← append_assoc, append_assoc (wordBytes result.toBitVec),
    ← hbehind] at hsteps
  exact ⟨_, _, hsteps, .issue (fun h => h) fun _ => rfl⟩

/-- The decoder goes through a message. -/
theorem message_steps {m : Message} (hformed : m.wellFormed) (hbare : m.bare) (rest : List UInt8) :
    ∃ phase os, vsimDecoder.Steps .header (m.encode ++ rest) phase rest (.header m.header :: os)
      ∧ Settled m phase os := by
  obtain ⟨phase, os, hsteps, hsettled⟩ : ∃ phase os,
      vsimDecoder.Steps (behindHeader m.header) (m.payload ++ rest) phase rest os
        ∧ Settled m phase os := by
    cases m with
    | event transactionId slotId eventId simType => exact event_steps _ _ _ _ rest
    | response reset transactionId slotId result data => exact response_steps _ _ _ _ hformed rest
    | other transactionId messageId slotId payload =>
      obtain ⟨-, hevent, hreset, hapdu⟩ := hformed
      have hbehind : behindHeader (Message.other transactionId messageId slotId payload).header =
          .header := (if_neg hevent).trans (if_neg (not_or.mpr ⟨hreset, hapdu⟩))
      have hnil : payload = [] := hbare
      subst hnil
      rw [hbehind]
      exact ⟨_, _, .refl _ _, rfl, fun _ => rfl, Or.inl rfl⟩
  refine ⟨phase, os, ?_, hsettled⟩
  have hall := (header_steps m.header (m.payload ++ rest)).trans hsteps
  rwa [← append_assoc] at hall

/-- What the client sends. -/
def wire (messages : List Message) : List UInt8 := messages.flatMap Message.encode

/-- The headers that the decoder parses are the first ones that were sent. -/
theorem headers_isPrefix {messages : List Message} (hformed : ∀ m ∈ messages, m.wellFormed)
    (hbare : ∀ m ∈ messages, m.bare) {phase : Phase} {rest : List UInt8} {os : List VsimOutput}
    (h : vsimDecoder.Steps .header (wire messages) phase rest os) :
    headers os <+: messages.map Message.header := by
  induction messages generalizing os with
  | nil =>
    obtain ⟨-, -, rfl⟩ := h.of_stuck rfl
    exact prefix_rfl
  | cons m messages ih =>
    obtain ⟨phase', ps, hsteps, hsettled⟩ := message_steps (hformed m mem_cons_self)
      (hbare m mem_cons_self) (wire messages)
    have hps := hsettled.headers_eq
    have hbegin : ∀ qs, .header m.header :: ps = os ++ qs →
        headers os <+: (m :: messages).map Message.header := by
      intro qs hqs
      have happ := headers_append os qs
      rw [← hqs, hps] at happ
      exact ⟨headers qs ++ messages.map Message.header, by
        rw [← append_assoc, ← happ]; rfl⟩
    rcases hsettled.unknown with rfl | ⟨slot, rfl⟩
    · rcases hsteps.linear h with ⟨qs, hqs, rfl⟩ | ⟨qs, -, hqs⟩
      · rw [headers_append, hps]
        obtain ⟨tail, htail⟩ := ih (fun m' hm' => hformed m' (mem_cons_of_mem m hm'))
          (fun m' hm' => hbare m' (mem_cons_of_mem m hm')) hqs
        exact ⟨tail, by rw [append_assoc, htail]; rfl⟩
      · exact hbegin qs hqs
    · obtain ⟨qs, -, hqs⟩ := h.rest hsteps rfl
      exact hbegin qs hqs

/-- All messages for known slots are parsed. -/
theorem wire_steps {messages : List Message} (hformed : ∀ m ∈ messages, m.wellFormed)
    (hbare : ∀ m ∈ messages, m.bare) (hslots : ∀ m ∈ messages, m.slotKnown) :
    ∃ os, vsimDecoder.Steps .header (wire messages) .header [] os
      ∧ headers os = messages.map Message.header := by
  induction messages with
  | nil => exact ⟨[], .refl _ _, rfl⟩
  | cons m messages ih =>
    obtain ⟨phase, ps, hsteps, hsettled⟩ := message_steps (hformed m mem_cons_self)
      (hbare m mem_cons_self) (wire messages)
    obtain ⟨qs, hqs, hheaders⟩ := ih (fun m' hm' => hformed m' (mem_cons_of_mem m hm'))
      (fun m' hm' => hbare m' (mem_cons_of_mem m hm'))
      (fun m' hm' => hslots m' (mem_cons_of_mem m hm'))
    rw [hsettled.known (hslots m mem_cons_self)] at hsteps
    refine ⟨_, hsteps.trans hqs, ?_⟩
    rw [headers_append, hheaders, hsettled.headers_eq]
    rfl

/-! ## Framing -/

/-- The headers that are parsed are the headers that were sent, whatever the
cuts, the signals and the errors; without errors all of them are. -/
theorem vsim_framed (messages : List Message) (hformed : ∀ m ∈ messages, m.wellFormed)
    (hbare : ∀ m ∈ messages, m.bare) (env : List Recv) (henv : streamOf env = wire messages) :
    (∀ n, headers (processVsimCommandsCallback n (.start env)).log <+:
        messages.map Message.header)
      ∧ ((∀ m ∈ messages, m.slotKnown) → (∀ e, .error e ∉ env) →
        ∃ n, headers (processVsimCommandsCallback n (.start env)).log =
          messages.map Message.header) := by
  have hstart := Reader.Sound.start env
  rw [henv] at hstart
  constructor
  · intro n
    obtain ⟨taken, rest, phase, got, hwire, hsteps⟩ := process_steps n hstart
    have hall := hsteps.append rest
    rw [← hwire] at hall
    exact headers_isPrefix hformed hbare hall
  · intro hslots hnone
    obtain ⟨os, hwire, hheaders⟩ := wire_steps hformed hbare hslots
    obtain ⟨n, hend⟩ := process_settles (.start env)
    obtain ⟨r, hsound, hr⟩ := process_invariant Reader.Sound.step n hstart
    obtain ⟨taken, hstream, hsteps⟩ := hsound.steps
    have hall := hsteps.append (streamOf r.read.env)
    rw [← hstream] at hall
    rcases hend with ⟨log, heq⟩ | ⟨slot, log, heq⟩ | ⟨r', heq, hempty, hlt⟩
    · exact absurd heq (vsim_never_returns hnone n log)
    · -- the decoder does not stop at a slot
      rcases hr with hr | ⟨log', hr, -⟩ | ⟨slot', log', -, hlast⟩
      · rw [heq] at hr
        cases hr
      · rw [heq] at hr
        cases hr
      · rw [(vsimStep_outside hlast).2] at hall
        obtain ⟨hphase, -⟩ := hall.unique rfl hwire rfl
        cases hphase
    · rcases hr with hr | ⟨log', hr, -⟩ | ⟨slot', log', hr, -⟩
      · obtain rfl : r' = r := by
          rw [heq] at hr
          exact VsimStep.running.inj hr
        have hstuck : vsimDecoder.Stuck r'.phase (r'.read.got ++ streamOf r'.read.env) := by
          rw [hempty]
          have hlen := hsound.len
          cases hn : r'.phase.len with
          | none =>
            rw [hn, Option.getD_none] at hlen
            omega
          | some n =>
            rw [hn, Option.getD_some] at hlen
            refine fieldStep_none hn ?_
            rw [streamOf, flatMap_nil, append_nil]
            omega
        obtain ⟨-, -, hlog⟩ := hall.unique hstuck hwire rfl
        refine ⟨n, ?_⟩
        rw [heq, VsimStep.log, hlog, hheaders]
      · rw [heq] at hr
        cases hr
      · rw [heq] at hr
        cases hr

/-- An initialization message, an event and an APDU response. -/
def session : List Message :=
  [.other 1 1 1 [], .event 2 1 1 0, .response false 3 2 0 [0x90, 0x00]]

/-- The session byte by byte, with signals. -/
theorem vsim_framed_bytes :
    streamOf ((wire session).flatMap fun b => [Recv.eintr, Recv.data [b]]) = wire session
      ∧ ∃ n, headers (processVsimCommandsCallback n
          (.start ((wire session).flatMap fun b => [Recv.eintr, Recv.data [b]]))).log =
        session.map Message.header :=
  ⟨by decide, (vsim_framed session
    (by simp [session, Message.wellFormed, msgIdEventRequest, msgIdUiccResetResponse,
      msgIdUiccApduResponse])
    (by simp [session, Message.bare]) _ (by decide)).2
    (by simp [session, Message.slotKnown, numContexts]) (by simp)⟩

/-- The answer to a power-down request has four bytes of payload; they are taken
for the start of the next header. -/
theorem vsim_unframed :
    headers (processVsimCommandsCallback 6
        (.start [.data (wire [.other 7 6 1 [0, 0, 0, 0], .event 8 1 1 0])])).log =
      [⟨7, 6, 1, 4⟩, ⟨0, 8, 3, 1⟩]
      ∧ [Message.other 7 6 1 [0, 0, 0, 0], .event 8 1 1 0].map Message.header =
        [⟨7, 6, 1, 4⟩, ⟨8, 3, 1, 8⟩] := by
  decide

end Arale.Ril.Vsim
