import Arale.Mux.Receive

/-!
# The P/F bit of an MSC response

The response to an MSC command has to carry the P/F bit of the command. The bit
travels in one global: `extract_frames` sets `uih_pf_bit_received` at any
information frame with the bit, and `write_frame` adds the bit to, and clears
the flag at, the next UIH or UI frame whose first octet reads as MSC.

A run of `pfStep` is any interleaving of the receiving thread with the calls of
`write_frame` from other threads. The receiving thread notes the bit of a frame
(`receive`) and answers it in a later step (`handle`), and the log keeps for each
call what it was meant to send and the octets it put on the line.

Mirroring notes:
- `handle_command` has no access to the control field of its frame; it is kept in
  `handling` to say which command the response in the log is for.
- The frames the receiving thread sends in a handshake are `send` steps too.
- Other threads change everything but the flag and the line. A signal handler
  sets `stop_muxd` and nothing clears it.

The flag does not say who set it. It is the command's own as long as only MSC
commands come with the bit and no other thread sends what reads as MSC before
the response is out.

> `pf_mirrored`: under these two conditions each response has the bit of its
> command and every other frame the control octet it was sent with.
> `pf_stray`: the acknowledgement of an MSC command of the daemon, which carries
> the bit, leaves the flag to the next response, or to data.
-/

namespace Arale.Mux

open List
open Arale.Lib (Run anyStep)

/-! ## The system -/

/-- `frame->control & GSM0710_PF` -/
def pfSet (frame : Frame) : Bool := frame.control &&& gsm0710Pf != 0

/-- An MSC command, as `handle_command` tells it. -/
def isMscCommand (data : List UInt8) : Bool :=
  data.head?.any fun type => type &&& gsm0710Cr == gsm0710Cr && commandOf type == .msc

/-- What `write_frame` takes for the response to an MSC command. -/
def readsAsMsc (input : List UInt8) (type : UInt8) : Bool :=
  (type == gsm0710TypeUih || type == gsm0710TypeUi)
    && input.head?.any fun b => gsm0710CommandIs b gsm0710ControlMsc

/-- A call of `write_frame`: the response to an MSC command with this control
field, or any other with the type it was given. -/
inductive PfCall where
  | mscResponse (command : UInt8)
  | other (type : UInt8)
  deriving DecidableEq, Repr

/-- The control octet that is meant. -/
def PfCall.control : PfCall → UInt8
  | .mscResponse command => gsm0710TypeUih ||| (command &&& gsm0710Pf)
  | .other type => type

structure PfSent where
  call : PfCall
  octets : List UInt8
  deriving DecidableEq, Repr

/-- `handling` is the frame of the control channel between the note of its bit
and the answer. -/
structure PfState where
  muxd : Muxd
  handling : Option Frame
  log : List PfSent

def PfState.start (m : Muxd) : PfState := ⟨{ m with uihPfBitReceived := false }, none, []⟩

inductive PfAct where
  | receive (frame : Frame)
  | handle (calloc : Bool)
  | send (channel : Nat) (input : List UInt8) (type : UInt8)
  | others (muxd : Muxd)

/-- A call ends with these globals. -/
def PfState.sent (s : PfState) (call : PfCall) (handling : Option Frame) (m : Muxd) : PfState :=
  ⟨m, handling, s.log ++ [⟨call, m.sent.drop s.muxd.sent.length⟩]⟩

/-- The call that answers a frame of the control channel. -/
def answerOf (frame : Frame) : PfCall :=
  if isMscCommand frame.data then .mscResponse frame.control else .other gsm0710TypeUih

def pfStep (s : PfState) : PfAct → Option PfState
  | .receive frame =>
    if s.handling.isSome then none
    else if isInformation frame then
      some { s with
        muxd := notePf s.muxd frame
        handling := if frame.channel > 0 then none else some frame }
    else some s
  | .handle calloc =>
    match s.handling with
    | none => none
    | some frame =>
      match handleCommand s.muxd frame.data calloc with
      | .ok m => some (s.sent (answerOf frame) none m)
      | .error _ => none
  | .send channel input type =>
    (writeFrame s.muxd channel input type).map fun r => s.sent (.other type) s.handling r.2
  | .others m =>
    if m.uihPfBitReceived = s.muxd.uihPfBitReceived ∧ m.sent = s.muxd.sent ∧
        (s.muxd.stopMuxd = true → m.stopMuxd = true) then some { s with muxd := m }
    else none

/-- Only MSC commands come with the P/F bit, and until the response to one is out
no other thread sends what reads as MSC. -/
def keepsPf (s : PfState) : PfAct → Bool
  | .receive frame =>
    !(isInformation frame && pfSet frame) || (frame.channel == 0 && isMscCommand frame.data)
  | .send _ input type => !(s.handling.any pfSet && readsAsMsc input type)
  | .handle _ | .others _ => true

/-- The octets are the beginning of a frame with this control field. -/
def Carries (octets : List UInt8) (control : UInt8) : Prop :=
  ∃ (channel : Nat) (length : Int) (data : List UInt8),
    octets <+: gsm0710FrameFlag :: (basicHeader channel control length ++ data
        ++ [frameCalcCrc (basicHeader channel control length), gsm0710FrameFlag]) ∨
      octets <+: advFrame channel control data

variable {m m' : Muxd} {s : PfState}
variable {frame : Frame} {calloc : Bool}

/-! ## What a call puts on the line -/

theorem carries_nil (control : UInt8) : Carries [] control :=
  ⟨0, 0, [], .inr nil_prefix⟩

theorem serialWrite_octets (m : Muxd) (bytes : List UInt8) :
    ∃ octets, (serialWrite m bytes).2.sent = m.sent ++ octets ∧ octets <+: bytes ∧
      ((serialWrite m bytes).1 = bytes.length → octets = bytes) := by
  unfold serialWrite
  cases m.writes with
  | nil => exact ⟨bytes, rfl, prefix_rfl, fun _ => rfl⟩
  | cons write rest =>
    cases write with
    | wrote n =>
      refine ⟨bytes.take n, rfl, take_prefix n bytes, ?_⟩
      intro hall
      have hn : bytes.length ≤ n := by
        dsimp only at hall
        omega
      exact take_of_length_le hn
    | failed errno =>
      refine ⟨[], (append_nil _).symm, nil_prefix, ?_⟩
      intro hall
      dsimp only at hall
      omega

theorem serialWrite_uihPfBitReceived (m : Muxd) (bytes : List UInt8) :
    (serialWrite m bytes).2.uihPfBitReceived = m.uihPfBitReceived := by
  unfold serialWrite
  split <;> rfl

theorem writeBasic_uihPfBitReceived (m : Muxd) (channel : Nat) (control : UInt8) (length : Int)
    (data : List UInt8) :
    (writeBasic m channel control length data).2.uihPfBitReceived = m.uihPfBitReceived := by
  simp only [writeBasic, apply_ite Prod.snd, apply_ite Muxd.uihPfBitReceived,
    serialWrite_uihPfBitReceived, ite_self]

/-- Up to three writes, each going on where the one before ended. -/
theorem writeBasic_octets (m : Muxd) (channel : Nat) (control : UInt8) (length : Int)
    (data : List UInt8) (hdata : 0 < length → (data.length : Int) = length)
    (hnone : ¬ 0 < length → data = []) :
    ∃ octets, (writeBasic m channel control length data).2.sent = m.sent ++ octets ∧
      Carries octets control := by
  have hcarries : ∀ octets, octets <+: (gsm0710FrameFlag :: basicHeader channel control length)
      ++ data ++ [frameCalcCrc (basicHeader channel control length), gsm0710FrameFlag] →
      Carries octets control := by
    intro octets hbegins
    exact ⟨channel, length, data, .inl hbegins⟩
  unfold writeBasic
  dsimp only
  obtain ⟨head, hsent, hbegins, hwhole⟩ :=
    serialWrite_octets m (gsm0710FrameFlag :: basicHeader channel control length)
  generalize serialWrite m (gsm0710FrameFlag :: basicHeader channel control length) = w at *
  split
  · refine ⟨head, ?_, hcarries head ?_⟩
    · simp only [apply_ite Prod.snd, apply_ite Muxd.sent, ite_self, hsent]
    · exact hbegins.trans ((prefix_append _ _).trans (prefix_append _ _))
  · next hw =>
    obtain rfl := hwhole (Decidable.not_not.mp hw)
    -- the information field, which is not written when it is empty
    have hinfo : ∃ octets,
        (if length > 0 then serialWrite w.2 data else (length, w.2)).2.sent
          = w.2.sent ++ octets ∧ octets <+: data ∧
        ((if length > 0 then serialWrite w.2 data else (length, w.2)).1 = length →
          octets = data) := by
      split
      · next hpos =>
        rw [← hdata hpos]
        exact serialWrite_octets w.2 data
      · next hpos =>
        exact ⟨[], (append_nil _).symm, nil_prefix, fun _ => (hnone hpos).symm⟩
    obtain ⟨info, hsentInfo, hbeginsInfo, hwholeInfo⟩ := hinfo
    generalize (if length > 0 then serialWrite w.2 data else (length, w.2)) = v at *
    rw [hsent, append_assoc] at hsentInfo
    split
    · refine ⟨gsm0710FrameFlag :: basicHeader channel control length ++ info, ?_, hcarries _ ?_⟩
      · simp only [apply_ite Prod.snd, apply_ite Muxd.sent, ite_self, hsentInfo]
      · exact ((prefix_append_right_inj _).mpr hbeginsInfo).trans (prefix_append _ _)
    · next hv =>
      obtain rfl := hwholeInfo (Decidable.not_not.mp hv)
      obtain ⟨last, hsentLast, hbeginsLast, -⟩ := serialWrite_octets v.2
        [frameCalcCrc (basicHeader channel control length), gsm0710FrameFlag]
      rw [hsentInfo, append_assoc] at hsentLast
      refine ⟨_, ?_, hcarries _ ((prefix_append_right_inj _).mpr hbeginsLast)⟩
      simp only [apply_ite Prod.snd, apply_ite Muxd.sent, ite_self, hsentLast]

variable {channel : Nat} {data : List UInt8} {r : Int × Muxd}

theorem writeAdvanced_octets {control : UInt8} {length : Int}
    (h : writeAdvanced m channel control length data = some r) :
    (∃ octets, r.2.sent = m.sent ++ octets ∧ Carries octets control) ∧
      r.2.uihPfBitReceived = m.uihPfBitReceived := by
  have hr : r.2 = (serialWrite m (advFrame channel control data)).2 := by
    unfold writeAdvanced at h
    dsimp only at h
    split at h
    · cases h
    · split at h <;> cases h <;> rfl
  obtain ⟨octets, hsent, hbegins, -⟩ := serialWrite_octets m (advFrame channel control data)
  rw [hr, serialWrite_uihPfBitReceived]
  exact ⟨⟨octets, hsent, channel, length, data, .inr hbegins⟩, rfl⟩

/-- What a call does to the flag and the line. -/
structure PfWritten (m : Muxd) (control : UInt8) (mirrors : Bool) (m' : Muxd) : Prop where
  octets : ∃ octets, m'.sent = m.sent ++ octets ∧ Carries octets control
  flag : m'.uihPfBitReceived = (m.uihPfBitReceived && !mirrors)

theorem mirrorsPf_eq (m : Muxd) (input : List UInt8) (type : UInt8) :
    mirrorsPf m input type = (readsAsMsc input type && m.uihPfBitReceived) := by
  unfold mirrorsPf answersPf readsAsMsc
  rw [Bool.and_right_comm]

/-- **A call of `write_frame`.** Once `stop_muxd` is set it does nothing. Before,
what reaches the line is the beginning of a frame with the control octet of the
call, and the flag is cleared if the bit was added. -/
theorem writeFrame_written {input : List UInt8} {type : UInt8}
    (h : writeFrame m channel input type = some r) :
    (m.stopMuxd = true ∧ r.2 = m) ∨
      (m.stopMuxd = false ∧
        PfWritten m (controlField m input type) (mirrorsPf m input type) r.2) := by
  unfold writeFrame at h
  split at h
  · next hstop =>
    cases h
    exact .inl ⟨hstop, rfl⟩
  · next hstop =>
    refine .inr ⟨by simpa using hstop, ?_⟩
    split at h
    · cases h
    · split at h
      · cases h
      · next ch _ =>
        -- clearing the flag is not seen on the line
        have hflag : (if mirrorsPf m input type then { m with uihPfBitReceived := false }
            else m).uihPfBitReceived = (m.uihPfBitReceived && !mirrorsPf m input type) := by
          cases mirrorsPf m input type <;> simp
        have hsent : (if mirrorsPf m input type then { m with uihPfBitReceived := false }
            else m).sent = m.sent := by
          split <;> rfl
        by_cases hmode : m.cmuxMode = true
        · rw [if_pos hmode] at h
          obtain ⟨⟨octets, hoctets, hcarries⟩, hkept⟩ := writeAdvanced_octets h
          exact ⟨⟨octets, hoctets.trans (by rw [hsent]), hcarries⟩, hkept.trans hflag⟩
        · rw [if_neg hmode] at h
          rw [← Option.some.inj h]
          refine ⟨?_, (writeBasic_uihPfBitReceived _ _ _ _ _).trans hflag⟩
          have hlength : (if ch.negotiatedN1 < input.length then ch.negotiatedN1
              else input.length) ≤ (input.length : Int) := by
            split <;> omega
          generalize (if ch.negotiatedN1 < input.length then ch.negotiatedN1
            else (input.length : Int)) = length at hlength ⊢
          have hdata : 0 < length → ((input.take length.toNat).length : Int) = length := by
            intro hpos
            rw [length_take]
            omega
          have hnone : ¬ 0 < length → input.take length.toNat = [] := by
            intro hpos
            rw [Int.toNat_of_nonpos (by omega), take_zero]
          obtain ⟨octets, hoctets, hcarries⟩ := writeBasic_octets
            (if mirrorsPf m input type then { m with uihPfBitReceived := false } else m)
            channel (controlField m input type) length (input.take length.toNat) hdata hnone
          exact ⟨octets, hoctets.trans (by rw [hsent]), hcarries⟩

/-! ## What `handle_command` sends -/

/-- The globals a call looks at are the same. -/
def SameLine (m m' : Muxd) : Prop :=
  m'.sent = m.sent ∧ m'.uihPfBitReceived = m.uihPfBitReceived ∧ m'.stopMuxd = m.stopMuxd

theorem respond_ok {response : List UInt8} (h : respond m response = .ok m') :
    ∃ r, writeFrame m 0 response gsm0710TypeUih = some r ∧ r.2 = m' := by
  unfold respond at h
  split at h
  · next m₁ hwrite =>
    cases h
    exact Option.map_eq_some_iff.mp hwrite
  · cases h

theorem modemStatus_sameLine {i : Nat} (h : modemStatus m data i = .ok m') : SameLine m m' := by
  unfold modemStatus at h
  by_cases hlt : i + 1 < data.length
  · have hi : i < data.length := by omega
    rw [if_pos hlt, readData_of_drop (drop_eq_getElem_cons hi),
      readData_of_drop (drop_eq_getElem_cons hlt)] at h
    change modemSignals m _ _ = _ at h
    unfold modemSignals at h
    split at h
    · cases h
    · split at h
      · cases h
        exact ⟨rfl, rfl, rfl⟩
      · cases h
        exact ⟨rfl, rfl, rfl⟩
  · rw [if_neg hlt] at h
    cases h
    exact ⟨rfl, rfl, rfl⟩

/-- What goes back with the C/R bit clear reads as MSC if the command is one. -/
theorem commandIs_msc : ∀ type : UInt8,
    gsm0710CommandIs (type &&& ~~~gsm0710Cr) gsm0710ControlMsc = (commandOf type == .msc) :=
  forall_octet (by decide +kernel)

/-- **`handle_command`** sends nothing, or one UIH frame, which reads as MSC
exactly if it answers an MSC command. -/
theorem handleCommand_answer (h : handleCommand m data calloc = .ok m') :
    (m' = m ∧ isMscCommand data = false) ∨
      ∃ m₁ response r, SameLine m m₁ ∧
        readsAsMsc response gsm0710TypeUih = isMscCommand data ∧
        writeFrame m₁ 0 response gsm0710TypeUih = some r ∧ r.2 = m' := by
  cases data with
  | nil =>
    cases h
    exact .inl ⟨rfl, rfl⟩
  | cons type rest =>
    rw [handleCommand_cons] at h
    by_cases hcr : type &&& gsm0710Cr = gsm0710Cr
    · have hmsc : isMscCommand (type :: rest) = (commandOf type == .msc) := by
        simp [isMscCommand, hcr]
      have hback : ∀ m₁, SameLine m m₁ → acknowledge m₁ (type :: rest) = .ok m' →
          ∃ m₁ response r, SameLine m m₁ ∧
            readsAsMsc response gsm0710TypeUih = isMscCommand (type :: rest) ∧
            writeFrame m₁ 0 response gsm0710TypeUih = some r ∧ r.2 = m' := by
        intro m₁ hsame hack
        obtain ⟨r, hwrite, hr⟩ := respond_ok hack
        refine ⟨m₁, _, r, hsame, ?_, hwrite, hr⟩
        rw [hmsc, ← commandIs_msc]
        rfl
      rw [if_pos hcr] at h
      refine .inr ?_
      cases hcommand : commandOf type with
      | cld =>
        rw [hcommand] at h
        exact hback { m with serialState := .peerClosing } ⟨rfl, rfl, rfl⟩ h
      | psc | test | pn =>
        rw [hcommand] at h
        exact hback m ⟨rfl, rfl, rfl⟩ h
      | msc =>
        rw [hcommand] at h
        unfold runCommand at h
        cases hstatus : modemStatus m (type :: rest)
            (lengthEnd (type :: rest) ((type :: rest).findIdx endsField + 1) + 1) with
        | error fault =>
          rw [hstatus] at h
          cases h
        | ok m₁ =>
          rw [hstatus] at h
          exact hback m₁ (modemStatus_sameLine hstatus) h
      | unknown =>
        rw [hcommand] at h
        unfold runCommand at h
        cases calloc with
        | false => exact hback m ⟨rfl, rfl, rfl⟩ h
        | true =>
          unfold nscResponse at h
          cases hcopy : copyType (type :: rest)
              (((type :: rest).findIdx endsField + 1) &&& 127) 0 with
          | error fault =>
            rw [hcopy] at h
            cases h
          | ok octets =>
            rw [hcopy] at h
            obtain ⟨r, hwrite, hr⟩ := respond_ok h
            refine ⟨m, _, r, ⟨rfl, rfl, rfl⟩, ?_, hwrite, hr⟩
            rw [hmsc, hcommand]
            rfl
    · rw [if_neg hcr] at h
      cases h
      refine .inl ⟨rfl, ?_⟩
      simp [isMscCommand, hcr]

/-! ## The invariant -/

/-- The flag is set for the command that is handled, and for no other reason as
long as frames are sent. -/
structure Mirroring (s : PfState) : Prop where
  noted : ∀ frame, s.handling = some frame → pfSet frame = true →
    isMscCommand frame.data = true ∧ s.muxd.uihPfBitReceived = true
  clear : s.handling.any pfSet = false → s.muxd.uihPfBitReceived = true →
    s.muxd.stopMuxd = true
  carried : ∀ e ∈ s.log, Carries e.octets e.call.control

theorem Mirroring.idle (hidle : s.handling = none)
    (hclear : s.muxd.uihPfBitReceived = true → s.muxd.stopMuxd = true)
    (hcarried : ∀ e ∈ s.log, Carries e.octets e.call.control) : Mirroring s := by
  refine ⟨?_, fun _ => hclear, hcarried⟩
  intro frame hframe
  rw [hidle] at hframe
  cases hframe

theorem notePf_uihPfBitReceived (m : Muxd) (frame : Frame) :
    (notePf m frame).uihPfBitReceived = (pfSet frame || m.uihPfBitReceived) := by
  unfold notePf pfSet
  split
  · next hpf => simp [hpf]
  · next hpf => simp [hpf]

theorem notePf_stopMuxd (m : Muxd) (frame : Frame) : (notePf m frame).stopMuxd = m.stopMuxd := by
  unfold notePf
  split <;> rfl

/-- The new entry of the log. -/
theorem carried_sent (h : ∀ e ∈ s.log, Carries e.octets e.call.control)
    {call : PfCall} {handling : Option Frame} {octets : List UInt8}
    (hsent : m.sent = s.muxd.sent ++ octets) (hcarries : Carries octets call.control) :
    ∀ e ∈ (s.sent call handling m).log, Carries e.octets e.call.control := by
  intro e he
  rcases mem_append.mp he with hold | hnew
  · exact h e hold
  · obtain rfl := mem_singleton.mp hnew
    show Carries (m.sent.drop s.muxd.sent.length) call.control
    rw [hsent, drop_left]
    exact hcarries

theorem mirroring_receive (hs : Mirroring s) (hidle : s.handling = none)
    (hkeeps : pfSet frame = true → frame.channel = 0 ∧ isMscCommand frame.data = true) :
    Mirroring { s with
      muxd := notePf s.muxd frame
      handling := if frame.channel > 0 then none else some frame } := by
  refine ⟨?_, ?_, hs.carried⟩
  · intro f hf hpf
    split at hf
    · cases hf
    · cases hf
      refine ⟨(hkeeps hpf).2, ?_⟩
      rw [notePf_uihPfBitReceived, hpf, Bool.true_or]
  · intro hnone hflag
    rw [notePf_stopMuxd]
    -- a frame with the bit is the one that is handled now
    have hpf : pfSet frame = false := by
      rw [Bool.eq_false_iff]
      intro hpf
      rw [(hkeeps hpf).1, if_neg (by decide)] at hnone
      exact absurd hpf (by simpa using hnone)
    rw [notePf_uihPfBitReceived, hpf, Bool.false_or] at hflag
    exact hs.clear (by rw [hidle]; rfl) hflag

/-- A response takes the flag of its own command with it. -/
theorem mirroring_handle (hs : Mirroring s) (hhandling : s.handling = some frame)
    (h : handleCommand s.muxd frame.data calloc = .ok m) :
    Mirroring (s.sent (answerOf frame) none m) := by
  have hclear : pfSet frame = false → s.muxd.uihPfBitReceived = true →
      s.muxd.stopMuxd = true := by
    intro hpf
    refine hs.clear ?_
    rw [hhandling]
    exact hpf
  rcases handleCommand_answer h with ⟨rfl, hother⟩ | ⟨m₁, response, r, hsame, hreads, hwrite, rfl⟩
  · have hpf : pfSet frame = false := by
      rw [Bool.eq_false_iff]
      intro hpf
      have hmsc := (hs.noted frame hhandling hpf).1
      rw [hother] at hmsc
      cases hmsc
    refine .idle rfl (hclear hpf) ?_
    exact carried_sent hs.carried (append_nil _).symm (carries_nil _)
  · obtain ⟨hsent, hflag, hstop⟩ := hsame
    rcases writeFrame_written hwrite with ⟨hstopped, hr⟩ | ⟨hgoing, hwritten⟩
    · rw [hr]
      refine .idle rfl (fun _ => hstopped) ?_
      have hnothing : m₁.sent = s.muxd.sent ++ [] := by rw [hsent, append_nil]
      exact carried_sent hs.carried hnothing (carries_nil _)
    · obtain ⟨octets, hoctets, hcarries⟩ := hwritten.octets
      have hcontrol : controlField m₁ response gsm0710TypeUih = (answerOf frame).control ∧
          r.2.uihPfBitReceived = false := by
        rw [hwritten.flag]
        unfold controlField answerOf
        rw [mirrorsPf_eq, hreads, hflag]
        cases hpf : pfSet frame with
        | false =>
          -- the flag would be left from another frame
          have hnone : s.muxd.uihPfBitReceived = false := by
            rw [Bool.eq_false_iff]
            intro hset
            have hstopped := hclear hpf hset
            rw [← hstop, hgoing] at hstopped
            cases hstopped
          have hzero : frame.control &&& gsm0710Pf = 0 := by simpa [pfSet] using hpf
          rw [hnone]
          cases isMscCommand frame.data <;> simp [PfCall.control, hzero]
        | true =>
          obtain ⟨hmsc, hset⟩ := hs.noted frame hhandling hpf
          have hbit : ∀ c : UInt8, (c &&& gsm0710Pf != 0) = true → c &&& gsm0710Pf = gsm0710Pf :=
            forall_octet (by decide +kernel)
          rw [hmsc, hset]
          simp [PfCall.control, hbit frame.control hpf]
      refine .idle rfl ?_ ?_
      · intro hset
        exact absurd hset (by simp [PfState.sent, hcontrol.2])
      · refine carried_sent hs.carried (hoctets.trans (by rw [hsent])) ?_
        rw [← hcontrol.1]
        exact hcarries

/-- The call of another thread leaves the flag alone. -/
theorem mirroring_send {input : List UInt8} {type : UInt8} (hs : Mirroring s)
    (hkeeps : s.handling.any pfSet = true → readsAsMsc input type = false)
    (h : writeFrame s.muxd channel input type = some r) :
    Mirroring (s.sent (.other type) s.handling r.2) := by
  rcases writeFrame_written h with ⟨_, hr⟩ | ⟨hgoing, hwritten⟩
  · rw [hr]
    refine ⟨hs.noted, hs.clear, ?_⟩
    exact carried_sent hs.carried (append_nil _).symm (carries_nil _)
  · have hmirrors : mirrorsPf s.muxd input type = false := by
      rw [mirrorsPf_eq]
      cases hpf : s.handling.any pfSet with
      | true => rw [hkeeps hpf, Bool.false_and]
      | false =>
        have hnone : s.muxd.uihPfBitReceived = false := by
          rw [Bool.eq_false_iff]
          intro hset
          rw [hs.clear hpf hset] at hgoing
          cases hgoing
        rw [hnone, Bool.and_false]
    have hstop : r.2.stopMuxd = s.muxd.stopMuxd :=
      rxThreadWriteFrame_blind (f := Muxd.stopMuxd) (fun _ _ _ _ _ _ => rfl)
        (Option.map_eq_some_iff.mpr ⟨r, h, rfl⟩)
    have hflag : r.2.uihPfBitReceived = s.muxd.uihPfBitReceived := by
      rw [hwritten.flag, hmirrors, Bool.not_false, Bool.and_true]
    obtain ⟨octets, hoctets, hcarries⟩ := hwritten.octets
    refine ⟨?_, ?_, carried_sent hs.carried hoctets ?_⟩
    · intro frame hframe hpf
      exact ⟨(hs.noted frame hframe hpf).1, hflag.trans (hs.noted frame hframe hpf).2⟩
    · intro hnone hset
      exact hstop.trans (hs.clear hnone (hflag.symm.trans hset))
    · unfold controlField at hcarries
      rw [hmirrors, if_neg Bool.false_ne_true] at hcarries
      exact hcarries

/-- **One step.** -/
theorem mirroring_step {t : PfState} {act : PfAct} (hs : Mirroring s)
    (hkeeps : keepsPf s act = true) (h : pfStep s act = some t) : Mirroring t := by
  cases act with
  | receive frame =>
    unfold pfStep at h
    dsimp only at h
    split at h
    · cases h
    · next hidle =>
      split at h
      · next hinformation =>
        cases h
        refine mirroring_receive hs (by simpa using hidle) ?_
        intro hpf
        simpa [keepsPf, hinformation, hpf] using hkeeps
      · cases h
        exact hs
  | handle calloc =>
    unfold pfStep at h
    dsimp only at h
    split at h
    · cases h
    · next frame hhandling =>
      split at h
      · next m hm =>
        cases h
        exact mirroring_handle hs hhandling hm
      · cases h
  | send channel input type =>
    obtain ⟨r, hr, rfl⟩ := Option.map_eq_some_iff.mp h
    refine mirroring_send hs ?_ hr
    intro hpf
    simpa [keepsPf, hpf] using hkeeps
  | others m =>
    unfold pfStep at h
    dsimp only at h
    split at h
    · next hothers =>
      cases h
      obtain ⟨hflag, -, hstop⟩ := hothers
      refine ⟨?_, ?_, hs.carried⟩
      · intro frame hframe hpf
        exact ⟨(hs.noted frame hframe hpf).1, hflag.trans (hs.noted frame hframe hpf).2⟩
      · intro hnone hset
        exact hstop (hs.clear hnone (hflag.symm.trans hset))
    · cases h

/-- **The P/F bit is mirrored.** Over every interleaving of received frames and
frames sent by other threads in which only MSC commands come with the P/F bit, and
no other thread sends what reads as MSC between such a command and its response:
each MSC response has the P/F bit of the command it answers, and every other frame
has the control octet it was sent with. -/
theorem pf_mirrored {m : Muxd} {acts : List PfAct} {t : PfState}
    (h : Run pfStep (fun s act => keepsPf s act = true) (.start m) acts t) :
    ∀ e ∈ t.log, Carries e.octets e.call.control := by
  have hstart : Mirroring (.start m) :=
    .idle rfl (fun hset => by cases hset) (fun e he => by cases he)
  have hend : Mirroring t := h.invariant (fun _ _ _ hs hcond hstep => mirroring_step hs hcond hstep)
    hstart
  exact hend.carried

/-- The frame of an MSC command for the first channel. -/
def mscFrame (control : UInt8) : Frame := ⟨0, control, [0xE3, 0x05, 0x07, 0x0D]⟩

/-- Its response. -/
def mscResponseFrame (control : UInt8) : Frame := ⟨0, control, [0xE1, 0x05, 0x07, 0x0D]⟩

/-- A command with the bit, data that is sent before its response, and a command
without the bit. -/
theorem pf_mirrored_two :
    ∃ t, Run pfStep (fun s act => keepsPf s act = true) (.start (idleMuxd false))
        [.receive (mscFrame 0xFF), .send 1 [0x41] gsm0710TypeUih, .handle true,
          .receive (mscFrame 0xEF), .handle true] t ∧
      (t.log = [⟨.other 0xEF, basicFrame ⟨1, 0xEF, [0x41]⟩⟩,
          ⟨.mscResponse 0xFF, basicFrame (mscResponseFrame 0xFF)⟩,
          ⟨.mscResponse 0xEF, basicFrame (mscResponseFrame 0xEF)⟩]) ∧
      ∀ e ∈ t.log, Carries e.octets e.call.control := by
  exact Run.exists_of_exec (by decide +kernel) fun t hrun hlog => ⟨hlog, pf_mirrored hrun⟩

theorem not_carries_basic {address octet control : UInt8} (rest : List UInt8)
    (h : octet ≠ control) : ¬ Carries (gsm0710FrameFlag :: address :: octet :: rest) control := by
  rintro ⟨channel, length, data, hbasic | hadvanced⟩
  · obtain ⟨-, hheader⟩ := cons_prefix_cons.mp hbasic
    obtain ⟨-, hcontrol⟩ := cons_prefix_cons.mp hheader
    exact h (cons_prefix_cons.mp hcontrol).1
  · exact absurd (cons_prefix_cons.mp hadvanced).1 (by decide)

/-- The modem acknowledges an MSC command of the daemon, with the P/F bit the
command was sent with, and the flag stays set. The response to a command without
the bit then goes out with it, and so does data that begins with the octet of
MSC. -/
theorem pf_stray :
    (¬ ∀ (m : Muxd) (acts : List PfAct) (t : PfState), Run pfStep anyStep (.start m) acts t →
        ∀ (command : UInt8) (octets : List UInt8), ⟨.mscResponse command, octets⟩ ∈ t.log →
          Carries octets (gsm0710TypeUih ||| (command &&& gsm0710Pf))) ∧
      ¬ ∀ (m : Muxd) (acts : List PfAct) (t : PfState), Run pfStep anyStep (.start m) acts t →
        ∀ (type : UInt8) (octets : List UInt8), ⟨.other type, octets⟩ ∈ t.log →
          Carries octets type := by
  constructor
  · intro h
    obtain ⟨t, hrun, hlog⟩ := Run.of_exec_any pfStep anyStep (.start (idleMuxd false))
      [.receive (mscResponseFrame 0xFF), .handle true, .receive (mscFrame 0xEF), .handle true]
      (fun t => t.log.contains ⟨.mscResponse 0xEF, basicFrame (mscResponseFrame 0xFF)⟩)
      (by decide +kernel)
    exact not_carries_basic _ (by decide) (h _ _ t hrun 0xEF _ (contains_iff_mem.mp hlog))
  · intro h
    obtain ⟨t, hrun, hlog⟩ := Run.of_exec_any pfStep anyStep (.start (idleMuxd false))
      [.receive (mscResponseFrame 0xFF), .handle true, .send 1 [0xE1] gsm0710TypeUih]
      (fun t => t.log.contains ⟨.other gsm0710TypeUih, basicFrame ⟨1, 0xFF, [0xE1]⟩⟩)
      (by decide +kernel)
    exact not_carries_basic _ (by decide)
      (h _ _ t hrun gsm0710TypeUih _ (contains_iff_mem.mp hlog))

end Arale.Mux
