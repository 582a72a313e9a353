import Arale.Mux.Channel

/-!
# `write_frame`: putting a frame on the serial line

`write_frame` builds the header, clips the payload to the channel's
negotiated frame size and writes the frame to the serial device: in basic
mode as three writes (prefix, data, postfix), in advanced mode as one write
of the escaped frame from `serial.adv_frame_buf`.

The device is modelled by the bytes that reached it (`sent`) and the
results its next writes will have (`writes`; an exhausted list means that
writes complete). A store outside `adv_frame_buf`, a read outside
`channellist[]` and the look at `input[0]` of an empty input have no defined
result, so `writeFrame` is `none` there.

`wireFrame` is the frame a call puts on the line — the P/F bit as sent, the
payload as clipped — and `writeFrame_basic`, `writeFrame_advanced` say
that a call whose writes complete emits exactly its encoding.
-/

namespace Arale.Mux

inductive MuxerState where
  | opening | initilizing | parmNeg | sabmChnl | muxing | closing | peerClosing | off
  deriving DecidableEq, Repr

/-- The error codes `write_frame` tells apart. -/
inductive Errno where
  | etxtbsy | enodev | other
  deriving DecidableEq, Repr

/-- The result of one `write` on the serial device. -/
inductive SerialWrite where
  | wrote (n : Nat)
  | failed (errno : Errno)
  deriving DecidableEq, Repr

/-- The globals of `gsm0710muxd.c` that sending and the channel handshake
use. `modemEe` is the property `PROPERTY_MODEM_EE`. -/
structure Muxd where
  channellist : List Channel
  cmuxMode : Bool
  stopMuxd : Bool
  uihPfBitReceived : Bool
  advFrameBufSize : Nat
  sent : List UInt8
  writes : List SerialWrite
  errno : Errno
  modemEe : Bool
  serialState : MuxerState
  muxSetupChnlComplete : Bool
  sabmUaReceived : Nat
  closeDownSendDiscForAllChnl : Bool
  lackofAtciChannel : Bool

/-- Bytes reach the device. -/
def Muxd.emit (m : Muxd) (bytes : List UInt8) : Muxd := { m with sent := m.sent ++ bytes }

@[simp] theorem Muxd.emit_writes (m : Muxd) (bytes : List UInt8) :
    (m.emit bytes).writes = m.writes := rfl

@[simp] theorem Muxd.emit_nil (m : Muxd) : m.emit [] = m := by simp [emit]

@[simp] theorem Muxd.emit_emit (m : Muxd) (xs ys : List UInt8) :
    (m.emit xs).emit ys = m.emit (xs ++ ys) := by simp [emit]

/-- `write(serial.fd, bytes, ...)`: the return value and the new globals. -/
def serialWrite (m : Muxd) (bytes : List UInt8) : Int × Muxd :=
  match m.writes with
  | [] => (bytes.length, m.emit bytes)
  | .wrote n :: rest => (min n bytes.length, { m.emit (bytes.take n) with writes := rest })
  | .failed e :: rest => (-1, { m with writes := rest, errno := e })

/-- The modem is in an exception: the data is dropped and counted as sent. -/
def modemDown (e : Errno) : Bool := e == .etxtbsy || e == .enodev

/-! ## Fields of a frame -/

/-- Address field: E/A and C/R set, then the DLCI. -/
def addressField (channel : Nat) : UInt8 :=
  (gsm0710Ea ||| gsm0710Cr) ||| ((63 &&& UInt8.ofNat channel) <<< 2)

/-- One length octet with the E/A bit set up to 127, two octets beyond. -/
def lengthField (length : Int) : List UInt8 :=
  if length > 127 then
    [UInt8.ofNat ((0x007F &&& length.toNat) <<< 1), UInt8.ofNat ((0x7F80 &&& length.toNat) >>> 7)]
  else [1 ||| UInt8.ofInt (2 * length)]

/-- Escapes `GSM0710_FRAME_ADV_ESCAPED_SYMS` characters. -/
def fillAdvFrameBuf (data : List UInt8) : List UInt8 :=
  data.flatMap fun b =>
    if b ∈ gsm0710FrameAdvEscapedSyms then [gsm0710FrameAdvEsc, b ^^^ gsm0710FrameAdvEscCopml]
    else [b]

/-- The octets covered by the check sequence in basic mode. -/
def basicHeader (channel : Nat) (control : UInt8) (length : Int) : List UInt8 :=
  addressField channel :: control :: lengthField length

/-- The octets of `serial.adv_frame_buf`. -/
def advFrame (channel : Nat) (control : UInt8) (data : List UInt8) : List UInt8 :=
  gsm0710FrameAdvFlag ::
    (fillAdvFrameBuf [addressField channel, control] ++ fillAdvFrameBuf data
      ++ fillAdvFrameBuf [frameCalcCrc [addressField channel, control]]
      ++ [gsm0710FrameAdvFlag])

/-! ## Sending -/

/-- Basic mode: prefix, information field and postfix are written one by
one, and a short or failed write ends the call. -/
def writeBasic (m : Muxd) (channel : Nat) (control : UInt8) (length : Int)
    (data : List UInt8) : Int × Muxd :=
  let header := basicHeader channel control length
  let head := gsm0710FrameFlag :: header
  let w := serialWrite m head
  if w.1 ≠ head.length then
    if w.1 < 0 && modemDown w.2.errno then (length, { w.2 with modemEe := true }) else (0, w.2)
  else
    let v := if length > 0 then serialWrite w.2 data else (length, w.2)
    if v.1 ≠ length then
      if v.1 < 0 && modemDown v.2.errno then (length, { v.2 with modemEe := true }) else (0, v.2)
    else
      let u := serialWrite v.2 [frameCalcCrc header, gsm0710FrameFlag]
      -- `errno` is looked at after a short write too, when it is an old one
      if u.1 ≠ 2 then
        if modemDown u.2.errno then (length, { u.2 with modemEe := true }) else (0, u.2)
      else (length, u.2)

/-- Advanced mode: the whole frame in one write. -/
def writeAdvanced (m : Muxd) (channel : Nat) (control : UInt8) (length : Int)
    (data : List UInt8) : Option (Int × Muxd) :=
  let frame := advFrame channel control data
  if frame.length > m.advFrameBufSize then none
  else
    let w := serialWrite m frame
    if w.1 ≠ frame.length then some (0, w.2) else some (length, w.2)

/-- The test that guards the look at `input[0]`. -/
def answersPf (m : Muxd) (type : UInt8) : Bool :=
  (type == gsm0710TypeUih || type == gsm0710TypeUi) && m.uihPfBitReceived

/-- The P/F bit is set in the response to a command that had it set. -/
def mirrorsPf (m : Muxd) (input : List UInt8) (type : UInt8) : Bool :=
  answersPf m type && input.head?.any fun b => gsm0710CommandIs b gsm0710ControlMsc

/-- Writes a frame to a logical channel. -/
def writeFrame (m : Muxd) (channel : Nat) (input : List UInt8) (type : UInt8) :
    Option (Int × Muxd) :=
  if m.stopMuxd then some (1, m)
  else if answersPf m type && input.isEmpty then none
  else
    match m.channellist[channel]? with
    | none => none
    | some ch =>
      let control := if mirrorsPf m input type then type ||| gsm0710Pf else type
      let m' := if mirrorsPf m input type then { m with uihPfBitReceived := false } else m
      let length := if ch.negotiatedN1 < input.length then ch.negotiatedN1 else input.length
      let data := input.take length.toNat
      if m.cmuxMode then writeAdvanced m' channel control length data
      else some (writeBasic m' channel control length data)

def rxThreadWriteFrame (m : Muxd) (channel : Nat) (input : List UInt8) (type : UInt8) :
    Option Muxd :=
  (writeFrame m channel input type).map (·.2)

/-- A sequence of frames, each sent with one call. -/
def sendFrames (m : Muxd) (frames : List Frame) : Option Muxd :=
  frames.foldlM (fun m f => rxThreadWriteFrame m f.channel.toNat f.data f.control) m

/-! ## What a call emits -/

/-- `prefix[2]`, the control octet of a call. -/
def controlField (m : Muxd) (input : List UInt8) (type : UInt8) : UInt8 :=
  if mirrorsPf m input type then type ||| gsm0710Pf else type

/-- How much of a frame's payload goes on the line. -/
def wireLength (m : Muxd) (f : Frame) : Int :=
  match m.channellist[f.channel.toNat]? with
  | none => 0
  | some ch => if ch.negotiatedN1 < f.data.length then ch.negotiatedN1 else f.data.length

/-- The frame a call to `write_frame` puts on the line. -/
def wireFrame (m : Muxd) (f : Frame) : Frame where
  channel := 63 &&& f.channel
  control := if mirrorsPf m f.data f.control then f.control ||| gsm0710Pf else f.control
  data := f.data.take (wireLength m f).toNat

/-- The globals after a call whose writes completed. -/
def afterWrite (m : Muxd) (f : Frame) (bytes : List UInt8) : Muxd :=
  { m with
    uihPfBitReceived := if mirrorsPf m f.data f.control then false else m.uihPfBitReceived
    sent := m.sent ++ bytes }

/-- A frame in basic mode. -/
def basicFrame (f : Frame) : List UInt8 :=
  gsm0710FrameFlag :: (basicHeader f.channel.toNat f.control f.data.length ++ f.data
    ++ [frameCalcCrc (basicHeader f.channel.toNat f.control f.data.length), gsm0710FrameFlag])

variable {m : Muxd} {channel : Nat}

theorem serialWrite_complete (h : m.writes = []) (bytes : List UInt8) :
    serialWrite m bytes = ((bytes.length : Int), m.emit bytes) := by
  unfold serialWrite
  rw [h]

/-- The address field holds six bits of the channel number. -/
theorem addressField_toNat (c : UInt8) : addressField c.toNat = addressField (63 &&& c).toNat := by
  have hmask : ∀ c : UInt8, (63 &&& c : UInt8) = 63 &&& (63 &&& c) :=
    forall_octet (by decide +kernel)
  unfold addressField
  rw [UInt8.ofNat_toNat, UInt8.ofNat_toNat, ← hmask]

/-- Three complete writes put the frame on the line. -/
theorem writeBasic_complete (h : m.writes = []) (f : Frame) :
    writeBasic m f.channel.toNat f.control f.data.length f.data
      = ((f.data.length : Int), m.emit (basicFrame f)) := by
  -- an empty information field is not written at all
  have hinfo : ∀ m' : Muxd, m'.writes = [] →
      (if (f.data.length : Int) > 0 then serialWrite m' f.data else ((f.data.length : Int), m'))
        = ((f.data.length : Int), m'.emit f.data) := by
    intro m' hm'
    split
    · exact serialWrite_complete hm' f.data
    · next hd =>
      have hnil : f.data = [] := List.eq_nil_of_length_eq_zero (by omega)
      simp [hnil]
  unfold writeBasic
  simp only [serialWrite_complete h]
  simp only [hinfo _ ((m.emit_writes _).trans h)]
  rw [if_neg (by simp), serialWrite_complete (by simpa using h)]
  simp [basicFrame]

/-- A frame that fits `adv_frame_buf` reaches the line in one write. -/
theorem writeAdvanced_complete (h : m.writes = []) {control : UInt8}
    {length : Int} {data : List UInt8} {r : Int × Muxd}
    (hr : writeAdvanced m channel control length data = some r) :
    r = (length, m.emit (advFrame channel control data)) := by
  simp only [writeAdvanced, serialWrite_complete h] at hr
  split at hr
  · cases hr
  · rw [if_neg (by simp)] at hr
    exact (Option.some.inj hr).symm

theorem mirrorsPf_of_clear (h : m.uihPfBitReceived = false) (input : List UInt8)
    (type : UInt8) : answersPf m type = false ∧ mirrorsPf m input type = false := by
  simp [mirrorsPf, answersPf, h]

/-- **Basic mode.** A call with room for the whole payload and complete
writes emits the frame as it was given. -/
theorem writeFrame_basic {f : Frame} {ch : Channel} (hstop : m.stopMuxd = false)
    (hmode : m.cmuxMode = false) (hpf : m.uihPfBitReceived = false) (hw : m.writes = [])
    (hch : m.channellist[f.channel.toNat]? = some ch) (hn : f.data.length ≤ ch.negotiatedN1) :
    rxThreadWriteFrame m f.channel.toNat f.data f.control
      = some (m.emit (basicFrame f)) := by
  obtain ⟨hans, hmirror⟩ := mirrorsPf_of_clear hpf f.data f.control
  have hlen : ¬ ch.negotiatedN1 < (f.data.length : Int) := by omega
  have hwrite : writeFrame m f.channel.toNat f.data f.control
      = some (writeBasic m f.channel.toNat f.control f.data.length f.data) := by
    simp [writeFrame, hstop, hans, hch, hmirror, hmode, hlen]
  rw [rxThreadWriteFrame, hwrite, writeBasic_complete hw]
  rfl

/-- **Advanced mode.** A call with room for the whole payload and for its
encoding emits the frame as it was given. -/
theorem writeFrame_advanced_whole {f : Frame} {ch : Channel} (hstop : m.stopMuxd = false)
    (hmode : m.cmuxMode = true) (hpf : m.uihPfBitReceived = false) (hw : m.writes = [])
    (hch : m.channellist[f.channel.toNat]? = some ch) (hn : f.data.length ≤ ch.negotiatedN1)
    (hfit : (advFrame f.channel.toNat f.control f.data).length ≤ m.advFrameBufSize) :
    rxThreadWriteFrame m f.channel.toNat f.data f.control
      = some (m.emit (advFrame f.channel.toNat f.control f.data)) := by
  obtain ⟨hans, hmirror⟩ := mirrorsPf_of_clear hpf f.data f.control
  have hlen : ¬ ch.negotiatedN1 < (f.data.length : Int) := by omega
  have hwrite : writeFrame m f.channel.toNat f.data f.control
      = writeAdvanced m f.channel.toNat f.control f.data.length f.data := by
    simp [writeFrame, hstop, hans, hch, hmirror, hmode, hlen]
  have hadv : writeAdvanced m f.channel.toNat f.control f.data.length f.data
      = some ((f.data.length : Int), m.emit (advFrame f.channel.toNat f.control f.data)) := by
    simp only [writeAdvanced, serialWrite_complete hw]
    rw [if_neg (by omega), if_neg (by simp)]
  rw [rxThreadWriteFrame, hwrite, hadv]
  rfl

/-- **Advanced mode.** Any call that has a defined result, on a line that
takes whole writes, emits the encoding of its wire frame. -/
theorem writeFrame_advanced {m' : Muxd} {f : Frame} (hstop : m.stopMuxd = false)
    (hmode : m.cmuxMode = true) (hw : m.writes = [])
    (h : rxThreadWriteFrame m f.channel.toNat f.data f.control = some m') :
    m' = afterWrite m f (advFrame (wireFrame m f).channel.toNat (wireFrame m f).control
      (wireFrame m f).data) := by
  obtain ⟨r, hr, hm'⟩ := Option.map_eq_some_iff.mp h
  unfold writeFrame at hr
  rw [if_neg (by simp [hstop])] at hr
  split at hr
  · cases hr
  · cases hch : m.channellist[f.channel.toNat]? with
    | none => simp [hch] at hr
    | some ch =>
      have haddr : ∀ control data, advFrame f.channel.toNat control data
          = advFrame (63 &&& f.channel).toNat control data := by
        intro control data
        unfold advFrame
        rw [addressField_toNat]
      have hwl : wireLength m f
          = if ch.negotiatedN1 < f.data.length then ch.negotiatedN1 else f.data.length := by
        simp [wireLength, hch]
      simp only [hch, ← hwl] at hr
      -- the two settings of the P/F bit differ in the control octet and in the flag cleared
      cases hp : mirrorsPf m f.data f.control with
      | false =>
        simp only [hp, Bool.false_eq_true, if_false] at hr
        rw [← hm', writeAdvanced_complete hw hr, afterWrite, wireFrame, hp, haddr]
        simp [Muxd.emit]
      | true =>
        simp only [hp, if_true] at hr
        have hcleared : { m with uihPfBitReceived := false }.writes = [] := hw
        rw [← hm', writeAdvanced_complete hcleared hr, afterWrite, wireFrame, hp, haddr]
        simp [Muxd.emit]

/-! ## Sending leaves everything but the line alone -/

/-- A reading of the globals that does not look at the line. -/
def LineBlind {α : Type} (f : Muxd → α) : Prop :=
  ∀ (m : Muxd) (sent : List UInt8) (writes : List SerialWrite) (errno : Errno)
    (modemEe uihPfBitReceived : Bool),
    f { m with
      sent := sent, writes := writes, errno := errno, modemEe := modemEe
      uihPfBitReceived := uihPfBitReceived } = f m

section LineBlind

variable {α : Type} {f : Muxd → α}

theorem serialWrite_blind (hf : LineBlind f) (m : Muxd) (bytes : List UInt8) :
    f (serialWrite m bytes).2 = f m := by
  unfold serialWrite
  split <;> exact hf m _ _ _ _ _

theorem writeBasic_blind (hf : LineBlind f) (m : Muxd) (channel : Nat) (control : UInt8)
    (length : Int) (data : List UInt8) : f (writeBasic m channel control length data).2 = f m := by
  have hee : ∀ m : Muxd, f { m with modemEe := true } = f m := fun m => hf m _ _ _ _ _
  simp only [writeBasic, apply_ite Prod.snd, apply_ite f, hee, serialWrite_blind hf, ite_self]

theorem writeAdvanced_blind (hf : LineBlind f) {control : UInt8} {length : Int} {data : List UInt8}
    {r : Int × Muxd} (h : writeAdvanced m channel control length data = some r) : f r.2 = f m := by
  unfold writeAdvanced at h
  dsimp only at h
  split at h
  · cases h
  · split at h
    · cases h
      exact serialWrite_blind hf m _
    · cases h
      exact serialWrite_blind hf m _

theorem rxThreadWriteFrame_blind (hf : LineBlind f) {m' : Muxd} {input : List UInt8} {type : UInt8}
    (h : rxThreadWriteFrame m channel input type = some m') : f m' = f m := by
  have hpf : f (if mirrorsPf m input type then { m with uihPfBitReceived := false } else m)
      = f m := by
    split
    · exact hf m _ _ _ _ _
    · rfl
  obtain ⟨r, hr, rfl⟩ := Option.map_eq_some_iff.mp h
  unfold writeFrame at hr
  split at hr
  · cases hr
    rfl
  · split at hr
    · cases hr
    · split at hr
      · cases hr
      · by_cases hmode : m.cmuxMode = true
        · rw [if_pos hmode] at hr
          exact (writeAdvanced_blind hf hr).trans hpf
        · rw [if_neg hmode] at hr
          rw [← Option.some.inj hr, writeBasic_blind hf, hpf]

end LineBlind

theorem rxThreadWriteFrame_channellist {m' : Muxd} {input : List UInt8} {type : UInt8}
    (h : rxThreadWriteFrame m channel input type = some m') : m'.channellist = m.channellist :=
  rxThreadWriteFrame_blind (f := Muxd.channellist) (fun _ _ _ _ _ _ => rfl) h

/-- A table of 32 entries that take 512 octets a frame, on an idle line. -/
def idleMuxd (cmuxMode : Bool) : Muxd where
  channellist := List.replicate 32 { Channel.zero with negotiatedN1 := 512 }
  cmuxMode := cmuxMode
  stopMuxd := false
  uihPfBitReceived := false
  advFrameBufSize := (512 + 3) * 2 + 2
  sent := []
  writes := []
  errno := .other
  modemEe := false
  serialState := .muxing
  muxSetupChnlComplete := true
  sabmUaReceived := 0
  closeDownSendDiscForAllChnl := false
  lackofAtciChannel := false

end Arale.Mux
