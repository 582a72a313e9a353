import Mathlib.Logic.Basic
import Arale.Mux.AdvStream
import Arale.Mux.Command
import Arale.Mux.Resync

/-!
# The receive path and the channel table

A byte from the modem can become an index into `channellist[]` in three ways:
the address of a frame is one in `gsm0710_base_buffer_get_frame` (the length is
compared with `negotiated_N1`), the channel of a frame either decoder returns is
one in `extract_frames` and in the answers it sends, and the DLCI of an MSC
command is one in `handle_command`. None of the three is compared with
`GSM0710_MAX_CHANNELS`.

`assemble` is one turn of the loop of `extract_frames`, in either mode. What a
data frame does to the entry of its channel is the subject of `FlowControl` and
is here part of the label, and so is what the other threads do to the globals
between two turns: the statements are about any of it.

An address or a DLCI has six bits. So with 64 entries every index is in the
table, and with 32 it is as long as the modem keeps to them. What that asks of
the stored octets is `Addressed`: wherever a frame header stands in them behind a
flag, or a frame between two flags in advanced mode, its address is that of an
entry, and so is the DLCI if it is an MSC command.

> `indices_in_table`: no turn indexes outside the table if it has 64 entries, or
> if the stored octets keep to the entries.
> `indices_outside_table`: with 32 entries, three streams that do.
-/

namespace Arale.Mux

open List
open Arale.Lib (Ring Run anyStep)

/-! ## One turn of `extract_frames` -/

/-- `frame->control & GSM0710_PF` is remembered for the answer. -/
def notePf (m : Muxd) (frame : Frame) : Muxd :=
  if frame.control &&& gsm0710Pf != 0 then { m with uihPfBitReceived := true } else m

/-- The cases of the switch for frames that are not information frames. -/
def isHandshake (frame : Frame) : Bool :=
  gsm0710FrameIs gsm0710TypeUa frame.control || gsm0710FrameIs gsm0710TypeDm frame.control ||
    gsm0710FrameIs gsm0710TypeDisc frame.control || gsm0710FrameIs gsm0710TypeSabm frame.control

/-- The body of the loop, for a frame that was returned. `entry` is what a data
frame leaves in the entry of its channel. -/
def extractFrame (b : Build) (m : Muxd) (frame : Frame) (calloc : Bool) (entry : Channel) :
    Except ReceiveFault Muxd :=
  if isInformation frame then
    if frame.channel > 0 then
      match m.channellist[frame.channel.toNat]? with
      | none => .error .outOfTable
      | some _ => .ok ((notePf m frame).setChannel frame.channel.toNat entry)
    else handleCommand (notePf m frame) frame.data calloc
  else if isHandshake frame then
    match m.channellist[frame.channel.toNat]? with
    | none => .error .outOfTable
    | some _ =>
      match controlFrame b m frame with
      | some m' => .ok m'
      | none => .error .writeFrame
  else .ok m

structure Receiver where
  muxd : Muxd
  buf : Gsm0710Buffer

/-- The decoder of the mode. -/
def getFrame (s : Receiver) : GetFrame × Gsm0710Buffer :=
  if s.muxd.cmuxMode then gsm0710AdvancedBufferGetFrame s.buf
  else gsm0710BaseBufferGetFrame s.muxd.channellist s.buf 0

def assemble (b : Build) (s : Receiver) (calloc : Bool) (entry : Channel) :
    Except ReceiveFault Receiver :=
  match getFrame s with
  | (.frame frame, buf) => (extractFrame b s.muxd frame calloc entry).map fun m => ⟨m, buf⟩
  | (.null _, buf) => .ok { s with buf := buf }
  | (.assert index, _) => .error (.assert index)
  | (.outOfTable, _) => .error .outOfTable

/-- Bytes are read from the modem, the receiving thread takes a turn, or other
threads change the globals. -/
inductive ReceiveAct where
  | read (bytes : List UInt8)
  | assemble (calloc : Bool) (entry : Channel)
  | others (muxd : Muxd)

def receiveStep (b : Build) (s : Receiver) : ReceiveAct → Option Receiver
  | .read bytes => some { s with buf := gsm0710BufferWrite s.buf bytes }
  | .assemble calloc entry => (assemble b s calloc entry).toOption
  -- the table is an array
  | .others muxd =>
    if muxd.channellist.length = s.muxd.channellist.length then some { s with muxd := muxd }
    else none

/-! ## Commands -/

/-- The octet of an MSC command that is decoded as a DLCI. -/
def mscDlci : List UInt8 → Option UInt8
  | [] => none
  | type :: rest =>
    let i := lengthEnd (type :: rest) ((type :: rest).findIdx endsField + 1) + 1
    if type &&& gsm0710Cr = gsm0710Cr ∧ commandOf type = .msc ∧ i + 1 < (type :: rest).length then
      (type :: rest)[i]?
    else none

/-- What `handle_command` can come to. -/
inductive Handled (m : Muxd) (data : List UInt8) : Except ReceiveFault Muxd → Prop where
  | ignored : Handled m data (.ok m)
  | answered {m' : Muxd} {response : List UInt8} :
      m'.channellist.length = m.channellist.length → Handled m data (respond m' response)
  | stray {dlci : UInt8} : mscDlci data = some dlci →
      m.channellist.length ≤ (gsm0710DecodeAddress dlci).toNat →
      Handled m data (.error .outOfTable)
  | overrun {i : Nat} : Handled m data (.error (.readOutside i))

theorem readData_cases (data : List UInt8) (i : Nat) :
    (∃ b, readData data i = .ok b) ∨ readData data i = .error (.readOutside i) := by
  unfold readData
  cases data[i]? with
  | some b => exact .inl ⟨b, rfl⟩
  | none => exact .inr rfl

theorem copyType_cases (data : List UInt8) (n i : Nat) :
    (∃ bs, copyType data n i = .ok bs) ∨ ∃ j, copyType data n i = .error (.readOutside j) := by
  induction n generalizing i with
  | zero => exact .inl ⟨[], rfl⟩
  | succ n ih =>
    unfold copyType
    rcases readData_cases data i with ⟨b, hread⟩ | hread
    · rw [hread]
      rcases ih (i + 1) with ⟨bs, hcopy⟩ | ⟨j, hcopy⟩
      · rw [hcopy]
        exact .inl ⟨b :: bs, rfl⟩
      · rw [hcopy]
        exact .inr ⟨j, rfl⟩
    · rw [hread]
      exact .inr ⟨i, rfl⟩

theorem nscResponse_cases (data : List UInt8) (count : Nat) :
    (∃ response, nscResponse data count = .ok response) ∨
      ∃ i, nscResponse data count = .error (.readOutside i) := by
  unfold nscResponse
  rcases copyType_cases data count 0 with ⟨bs, hcopy⟩ | ⟨i, hcopy⟩
  · rw [hcopy]
    exact .inl ⟨_, rfl⟩
  · rw [hcopy]
    exact .inr ⟨i, rfl⟩

theorem handleCommand_handled (m : Muxd) (data : List UInt8) (calloc : Bool) :
    Handled m data (handleCommand m data calloc) := by
  cases data with
  | nil => exact .ignored
  | cons type rest =>
    rw [handleCommand_cons]
    split
    · next hcr =>
      cases hcommand : commandOf type with
      | cld | psc | test | pn => exact .answered rfl
      | msc =>
        unfold runCommand
        rcases modemStatus_cases m (type :: rest)
            (lengthEnd (type :: rest) ((type :: rest).findIdx endsField + 1) + 1) with
          ⟨m', hstatus, hlength⟩ | ⟨hstatus, hlt, dlci, hdlci, hstray⟩
        · rw [hstatus]
          exact .answered hlength
        · rw [hstatus]
          refine .stray ?_ hstray
          show (if _ then _ else _) = _
          rw [if_pos ⟨hcr, hcommand, hlt⟩]
          exact hdlci
      | unknown =>
        unfold runCommand
        cases calloc with
        | false => exact .answered rfl
        | true =>
          rcases nscResponse_cases (type :: rest)
              (((type :: rest).findIdx endsField + 1) &&& 127) with
            ⟨response, hresponse⟩ | ⟨i, hresponse⟩
          · rw [hresponse]
            exact .answered rfl
          · rw [hresponse]
            exact .overrun
    · exact .ignored

variable {m : Muxd}

theorem respond_length {m' : Muxd} {response : List UInt8} (h : respond m response = .ok m') :
    m'.channellist.length = m.channellist.length := by
  unfold respond at h
  split at h
  · next m₁ hwrite =>
    cases h
    rw [rxThreadWriteFrame_channellist hwrite]
  · cases h

theorem respond_inTable (response : List UInt8) (h : 0 < m.channellist.length) :
    respond m response ≠ .error .outOfTable := by
  unfold respond
  split
  · simp
  · rw [if_neg (by simpa using ne_nil_of_length_pos h)]
    simp

/-! ## Any frame -/

theorem notePf_channellist (m : Muxd) (frame : Frame) :
    (notePf m frame).channellist = m.channellist := by
  unfold notePf
  split <;> rfl

variable {b : Build}

/-- The table keeps its length. -/
theorem extractFrame_length {m' : Muxd} {frame : Frame} {calloc : Bool}
    {entry : Channel} (h : extractFrame b m frame calloc entry = .ok m') :
    m'.channellist.length = m.channellist.length := by
  unfold extractFrame at h
  split at h
  · split at h
    · split at h
      · cases h
      · cases h
        rw [Muxd.setChannel_length, notePf_channellist]
    · have hhandled := handleCommand_handled (notePf m frame) frame.data calloc
      rw [h] at hhandled
      rw [← notePf_channellist m frame]
      generalize hr : Except.ok m' = r at hhandled
      cases hhandled with
      | ignored =>
        cases hr
        rfl
      | answered hlength => exact (respond_length hr.symm).trans hlength
      | stray => cases hr
      | overrun => cases hr
  · split at h
    · split at h
      · cases h
      · split at h
        · next hcontrol =>
          cases h
          obtain ⟨channel, -, hset⟩ := controlFrame_channellist hcontrol
          rw [hset, length_set]
        · cases h
    · cases h
      rfl

/-- The DLCI that `handle_command` decodes from a frame. -/
def commandDlci (frame : Frame) : Option UInt8 :=
  if isInformation frame = true ∧ frame.channel = 0 then mscDlci frame.data else none

/-- A frame of a channel in the table, whose DLCI is in the table too if it is
an MSC command, is handled without an index outside. -/
theorem extractFrame_inTable {frame : Frame} (calloc : Bool)
    (entry : Channel) (hchannel : frame.channel.toNat < m.channellist.length)
    (hdlci : ∀ dlci, commandDlci frame = some dlci →
      (gsm0710DecodeAddress dlci).toNat < m.channellist.length) :
    extractFrame b m frame calloc entry ≠ .error .outOfTable := by
  have hentry : m.channellist[frame.channel.toNat]? = some m.channellist[frame.channel.toNat] :=
    List.getElem?_eq_getElem hchannel
  unfold extractFrame
  rw [hentry]
  split
  · next hinformation =>
    split
    · simp
    · next hcontrol =>
      have hzero : frame.channel = 0 := UInt8.le_zero_iff.mp (UInt8.not_lt.mp hcontrol)
      have hhandled := handleCommand_handled (notePf m frame) frame.data calloc
      generalize handleCommand (notePf m frame) frame.data calloc = r at hhandled
      cases hhandled with
      | ignored => simp
      | answered hlength =>
        rw [notePf_channellist] at hlength
        exact respond_inTable _ (by omega)
      | stray hmsc hstray =>
        rw [notePf_channellist] at hstray
        have hcommand : commandDlci frame = mscDlci frame.data :=
          if_pos ⟨hinformation, hzero⟩
        exact absurd (hdlci _ (hcommand.trans hmsc)) (by omega)
      | overrun => simp
  · split
    · dsimp only
      split <;> simp
    · simp

/-! ## What the octets say -/

theorem decodeAddress_lt : ∀ a : UInt8, (gsm0710DecodeAddress a).toNat < 64 :=
  forall_octet (by decide +kernel)

/-- The frame is on one of the first `n` channels, and as an MSC command it names
one of them. -/
def FrameBelow (n : Nat) (frame : Frame) : Prop :=
  frame.channel.toNat < n ∧ ∀ dlci ∈ commandDlci frame, (gsm0710DecodeAddress dlci).toNat < n

instance (n : Nat) (frame : Frame) : Decidable (FrameBelow n frame) :=
  inferInstanceAs (Decidable (_ ∧ _))

/-- The frame that a flag, an address, a control and the length octets announce
in basic mode. -/
def announced : List UInt8 → Option Frame
  | flag :: a :: control :: l :: x :: y :: rest =>
    let length := ((l &&& 254) >>> 1).toNat
    if flag = gsm0710FrameFlag ∧ a ≠ gsm0710FrameFlag then
      some ⟨gsm0710DecodeAddress a, control,
        if l &&& 1 = 0 then (y :: rest).take (length + x.toNat * 128)
        else (x :: y :: rest).take length⟩
    else none
  | _ => none

theorem announced_behind {a control l x y : UInt8} {rest : List UInt8}
    (ha : a ≠ gsm0710FrameFlag) :
    announced (gsm0710FrameFlag :: a :: control :: l :: x :: y :: rest)
      = some ⟨gsm0710DecodeAddress a, control,
        if l &&& 1 = 0 then
          (y :: rest).take (((l &&& 254) >>> 1).toNat + x.toNat * 128)
        else (x :: y :: rest).take ((l &&& 254) >>> 1).toNat⟩ :=
  if_pos ⟨rfl, ha⟩

theorem channel_of_announced {xs : List UInt8} {f : Frame} (h : announced xs = some f) :
    ∃ a, f.channel = gsm0710DecodeAddress a := by
  unfold announced at h
  split at h
  · split at h
    · cases h
      exact ⟨_, rfl⟩
    · cases h
  · cases h

/-- The unescaped octets up to the flag that ends them. -/
def unescapeTo : Bool → List UInt8 → Option (List UInt8)
  | _, [] => none
  | true, b :: bs => (unescapeTo false bs).map ((b ^^^ gsm0710FrameAdvEscCopml) :: ·)
  | false, b :: bs =>
    if b = gsm0710FrameAdvFlag then some []
    else if b = gsm0710FrameAdvEsc then unescapeTo true bs
    else (unescapeTo false bs).map (b :: ·)

/-- What a flag can close: the rest of the frame that is open, or what stands
behind a flag. -/
inductive AdvField : AdvState → List UInt8 → List UInt8 → Prop where
  | opened {data xs rest : List UInt8} {esc : Bool} : unescapeTo esc xs = some rest →
      AdvField (.reading data esc) xs (data ++ rest)
  | behind {s : AdvState} {xs ys data : List UInt8} : gsm0710FrameAdvFlag :: ys <:+ xs →
      unescapeTo false ys = some data → AdvField s xs data

/-- The octets of a call in advanced mode, which first skips the flags in front
of a frame of which nothing is stored. -/
def callOctets (buf : Gsm0710Buffer) : List UInt8 :=
  if buf.flagFound && buf.advData.isEmpty then buf.unread.dropWhile (· == gsm0710FrameAdvFlag)
  else buf.unread

/-- The stored octets keep to the entries of the table. -/
structure Addressed (b : Build) (s : Receiver) : Prop where
  base : s.muxd.cmuxMode = false → ∀ xs f, xs <:+ marked s.buf.flagFound s.buf.unread →
    announced xs = some f → FrameBelow (gsm0710MaxChannels b) f
  advanced : s.muxd.cmuxMode = true → ∀ data f, AdvField (advAbs s.buf) (callOctets s.buf) data →
    closeFrame data = .good f → FrameBelow (gsm0710MaxChannels b) f

/-- `channellist[]` has its declared length. -/
def FullTable (b : Build) (s : Receiver) : Prop :=
  s.muxd.channellist.length = gsm0710MaxChannels b

variable {f : Frame}

/-- The address octet of a frame has six bits for the channel. -/
theorem closeFrame_channel {data : List UInt8} (h : closeFrame data = .good f) :
    f.channel.toNat < 64 := by
  unfold closeFrame at h
  obtain ⟨-, h⟩ | ⟨-, h⟩ := ite_eq_iff.mp h
  · cases h
  · obtain ⟨-, h⟩ | ⟨-, h⟩ := ite_eq_iff.mp h
    · cases h
    · rw [← Closing.good.inj h]
      exact decodeAddress_lt _

/-- With 64 entries they always do. -/
theorem addressed_of_volte (hvolte : b.tc1Volte = true) (s : Receiver) : Addressed b s := by
  have hmax : gsm0710MaxChannels b = 64 := by
    rw [gsm0710MaxChannels, if_pos hvolte]
  refine ⟨fun _ xs f _ hframe => ?_, fun _ data f _ hclose => ?_⟩ <;> rw [hmax]
  · obtain ⟨a, ha⟩ := channel_of_announced hframe
    exact ⟨ha ▸ decodeAddress_lt a, fun dlci _ => decodeAddress_lt dlci⟩
  · exact ⟨closeFrame_channel hclose, fun dlci _ => decodeAddress_lt dlci⟩

/-! ## The decoders -/

variable {channellist : List Channel} {buf buf' : Gsm0710Buffer}

/-- What is accepted is the frame the header announces. -/
theorem frame_of_accept {channel control fcs l : UInt8} {length : Nat} {body rest : List UInt8}
    (h : bodyVerdict channellist channel control fcs length l body = .accept f rest) :
    f = ⟨channel, control, body.take length⟩ := by
  unfold bodyVerdict at h
  split at h
  · cases h
  · split at h
    · cases h
    · split at h
      · split at h
        · cases h
        · split at h
          · cases h
          · cases h
            rfl
      · cases h

/-- A frame that is taken was announced. -/
theorem announced_of_accept {a : UInt8} {ys rest : List UInt8} (ha : a ≠ gsm0710FrameFlag)
    (h : verdict channellist (a :: ys) = .accept f rest) :
    announced (gsm0710FrameFlag :: a :: ys) = some f := by
  rcases ys with _ | ⟨c, _ | ⟨l, _ | ⟨x, _ | ⟨y, ys⟩⟩⟩⟩
  iterate 4 cases h
  rw [announced_behind ha]
  simp only [verdict] at h
  split at h
  · next htwo => rw [if_pos htwo, frame_of_accept h]
  · next hone => rw [if_neg hone, frame_of_accept h]

/-- Each frame of the decoder was announced behind a flag. -/
theorem baseSteps_announced {s s' : Bool} {xs ys : List UInt8} {os : List Event}
    (h : (baseDecoder channellist).Steps s xs s' ys os) (hf : Event.frame f ∈ os) :
    ∃ zs, zs <:+ marked s xs ∧ announced zs = some f := by
  induction h with
  | refl => cases hf
  | @head s _ _ xs _ _ _ _ hstep _ ih =>
    rcases mem_append.mp hf with hnow | hlater
    · rcases baseStep_inv hstep with ⟨b, -, -, rfl, -⟩ | ⟨rfl, hsettle⟩
      · cases hnow
      · cases xs with
        | nil => cases hsettle
        | cons a xs =>
          refine ⟨gsm0710FrameFlag :: a :: xs, suffix_refl _, ?_⟩
          have ha : a ≠ gsm0710FrameFlag := by
            intro hflag
            rw [show (baseDecoder channellist).step = baseStep channellist from rfl, hflag,
              baseStep_flag] at hstep
            cases hstep
            cases hnow
          cases hv : verdict channellist (a :: xs) with
          | short | incomplete | outOfTable =>
            rw [hv] at hsettle
            cases hsettle
          | drop rest =>
            rw [hv] at hsettle
            cases hsettle
            cases mem_singleton.mp hnow
          | accept g rest =>
            rw [hv] at hsettle
            cases hsettle
            cases mem_singleton.mp hnow
            exact announced_of_accept ha hv
    · obtain ⟨zs, hzs, hframe⟩ := ih hlater
      exact ⟨zs, hzs.trans (baseStep_marked hstep), hframe⟩

theorem baseGetFrame_announced
    (h : gsm0710BaseBufferGetFrame channellist buf 0 = (.frame f, buf')) :
    ∃ zs, zs <:+ marked buf.flagFound buf.unread ∧ announced zs = some f := by
  have hcall := getFrameAt_spec channellist maxResyncGetFrameCount buf
  rw [show getFrameAt channellist maxResyncGetFrameCount buf = _ from h] at hcall
  cases hcall with
  | frame hruns hos _ =>
    refine baseSteps_announced hruns.run (mem_of_framesOf ?_)
    rw [hos]
    exact mem_singleton_self f

variable {b₀ : UInt8} {bs data : List UInt8}

/-- A byte in front of a field that starts behind a flag. -/
theorem AdvField.later {s : AdvState} (h : AdvField .hunting bs data) :
    AdvField s (b₀ :: bs) data := by
  cases h with
  | behind hsuffix hdata => exact .behind (hsuffix.trans (suffix_cons _ _)) hdata

/-- The flag that opens a frame. -/
theorem AdvField.flag {s : AdvState} (h : AdvField (.reading [] false) bs data) :
    AdvField s (gsm0710FrameAdvFlag :: bs) data := by
  cases h with
  | opened hdata => exact .behind (suffix_refl _) hdata
  | behind hsuffix hdata => exact .later (.behind hsuffix hdata)

/-- A byte of the frame that is open. -/
theorem AdvField.byte {stored : List UInt8} {esc : Bool}
    (hclose : ¬ (esc = false ∧ b₀ = gsm0710FrameAdvFlag))
    (h : AdvField (advByte stored esc b₀) bs data) :
    AdvField (.reading stored esc) (b₀ :: bs) data := by
  cases esc with
  | true =>
    cases h with
    | @opened _ _ rest _ hrest =>
      rw [append_assoc]
      exact .opened (by rw [unescapeTo, hrest]; rfl)
    | behind hsuffix hdata => exact .later (.behind hsuffix hdata)
  | false =>
    have hflag : b₀ ≠ gsm0710FrameAdvFlag := fun heq => hclose ⟨rfl, heq⟩
    by_cases hesc : b₀ = gsm0710FrameAdvEsc
    · rw [advByte, if_neg Bool.false_ne_true, if_pos hesc] at h
      cases h with
      | opened hrest => exact .opened (by rw [unescapeTo, if_neg hflag, if_pos hesc, hrest])
      | behind hsuffix hdata => exact .later (.behind hsuffix hdata)
    · rw [advByte, if_neg Bool.false_ne_true, if_neg hesc] at h
      cases h with
      | @opened _ _ rest _ hrest =>
        rw [append_assoc]
        exact .opened (by rw [unescapeTo, if_neg hflag, if_neg hesc, hrest]; rfl)
      | behind hsuffix hdata => exact .later (.behind hsuffix hdata)

/-- A step closes nothing but one of the fields, and leaves no others. -/
theorem advStep_field {s s' : AdvState} {xs ys : List UInt8} {os : List Event}
    (h : advStep s xs = some (s', ys, os)) :
    (∀ data, AdvField s' ys data → AdvField s xs data) ∧
      ∀ f, Event.frame f ∈ os → ∃ data, AdvField s xs data ∧ closeFrame data = .good f := by
  have hnone : ∀ {p : Frame → Prop}, ∀ f, Event.frame f ∈ ([] : List Event) → p f := by
    intro p f hf
    cases hf
  rcases xs with _ | ⟨b, bs⟩
  · rw [advStep_nil] at h
    cases h
  cases s with
  | hunting =>
    rw [advStep] at h
    split at h
    · next hb =>
      cases h
      exact ⟨fun data hdata => hb ▸ hdata.flag, hnone⟩
    · cases h
      exact ⟨fun data hdata => hdata.later, hnone⟩
  | reading stored esc =>
    rw [advStep] at h
    split at h
    · next hclose =>
      obtain ⟨rfl, rfl⟩ := hclose
      split at h
      · cases h
        exact ⟨fun data hdata => hdata.flag, hnone⟩
      · have hfield : AdvField (.reading stored false) (gsm0710FrameAdvFlag :: bs) (stored ++ []) :=
          .opened (by rw [unescapeTo, if_pos rfl])
        rw [append_nil] at hfield
        cases h
        refine ⟨fun data hdata => hdata.later, fun f hf => ?_⟩
        refine ⟨stored, hfield, ?_⟩
        cases hc : closeFrame stored with
        | tooShort =>
          rw [hc] at hf
          cases hf
        | mismatch =>
          rw [hc] at hf
          cases mem_singleton.mp hf
        | good g =>
          rw [hc] at hf
          cases mem_singleton.mp hf
          rfl
    · next hclose =>
      split at h
      · cases h
        exact ⟨fun data hdata => hdata.byte hclose, hnone⟩
      · cases h
        refine ⟨fun data hdata => ?_, fun f hf => by cases mem_singleton.mp hf⟩
        cases hdata with
        | behind hsuffix hrest => exact .behind hsuffix hrest

/-- Each frame of the decoder stood between two flags. -/
theorem advSteps_field {s s' : AdvState} {xs ys : List UInt8} {os : List Event}
    (h : advDecoder.Steps s xs s' ys os) (hf : Event.frame f ∈ os) :
    ∃ data, AdvField s xs data ∧ closeFrame data = .good f := by
  induction h with
  | refl => cases hf
  | head hstep _ ih =>
    obtain ⟨hkeeps, hnow⟩ := advStep_field hstep
    rcases mem_append.mp hf with hf | hf
    · exact hnow f hf
    · obtain ⟨data, hdata, hclose⟩ := ih hf
      exact ⟨data, hkeeps data hdata, hclose⟩

/-- A call in advanced mode is a run over its octets. -/
theorem advGetFrame_call (buf : Gsm0710Buffer) :
    ∃ mid, advAbs mid = advAbs buf ∧ mid.unread = callOctets buf ∧
      AdvCall false mid (gsm0710AdvancedBufferGetFrame buf) := by
  unfold callOctets
  split
  · next hskip =>
    obtain ⟨hflag, hdata⟩ := Bool.and_eq_true_iff.mp hskip
    obtain ⟨⟨k, hk⟩, hhead⟩ :=
      skipFlags_contents gsm0710FrameAdvFlag buf.ring.datacount buf.ring (Nat.le_refl _)
    have hbegin : advBegin buf = { buf with
        ring := skipFlags gsm0710FrameAdvFlag buf.ring.datacount buf.ring } := by
      rw [advBegin, advSearch, if_pos hflag, advSkip, if_pos hskip]
    rw [gsm0710AdvancedBufferGetFrame, advResume, hbegin, if_pos hflag]
    generalize skipFlags gsm0710FrameAdvFlag buf.ring.datacount buf.ring = r at hk hhead
    refine ⟨{ buf with ring := r }, rfl, ?_, advMain_spec _ ⟨hflag, fun _ _ => hhead⟩ ?_⟩
    · have hflags : ∀ c ∈ replicate k gsm0710FrameAdvFlag, (c == gsm0710FrameAdvFlag) = true :=
        fun c hc => beq_iff_eq.mpr (eq_of_mem_replicate hc)
      show r.contents = dropWhile _ buf.ring.contents
      rw [hk, dropWhile_append_of_pos hflags]
      cases hr : r.contents with
      | nil => rfl
      | cons c cs =>
        rw [hr] at hhead
        exact (dropWhile_cons_of_neg (by simpa using hhead)).symm
    · have hlength := congrArg length hk
      rw [length_append, Ring.contents_length, Ring.contents_length] at hlength
      show r.datacount ≤ _
      omega
  · next hskip =>
    refine ⟨buf, rfl, rfl, (advFollows false).call buf ?_⟩
    by_cases hflag : buf.flagFound = true
    · refine .inr (.inr fun hpending => hskip ?_)
      rw [hflag, hpending.2.1]
      rfl
    · exact .inl (Bool.eq_false_iff.mpr hflag)

theorem advGetFrame_field
    (h : gsm0710AdvancedBufferGetFrame buf = (.frame f, buf')) :
    ∃ data, AdvField (advAbs buf) (callOctets buf) data ∧ closeFrame data = .good f := by
  obtain ⟨mid, habs, hunread, hcall⟩ := advGetFrame_call buf
  rw [h] at hcall
  rw [← habs, ← hunread]
  cases hcall with
  | frame hruns hos _ =>
    refine advSteps_field hruns.run.steps (mem_of_framesOf ?_)
    rw [hos]
    exact mem_singleton_self f

/-- The advanced decoder does not look into the table. -/
theorem advGetFrame_inTable :
    gsm0710AdvancedBufferGetFrame buf ≠ (.outOfTable, buf') := by
  intro h
  obtain ⟨mid, -, -, hcall⟩ := advGetFrame_call buf
  rw [h] at hcall
  cases hcall with
  | outOfTable _ hbad => exact hbad

/-- The frame that a call returns keeps to the entries. -/
theorem Addressed.frame {s : Receiver} (h : Addressed b s)
    (hget : getFrame s = (.frame f, buf)) : FrameBelow (gsm0710MaxChannels b) f := by
  unfold getFrame at hget
  split at hget
  · next hmode =>
    obtain ⟨data, hfield, hclose⟩ := advGetFrame_field hget
    exact h.advanced hmode data f hfield hclose
  · next hmode =>
    obtain ⟨zs, hzs, hframe⟩ := baseGetFrame_announced hget
    exact h.base (by simpa using hmode) zs f hzs hframe

theorem Addressed.addressesBelow {s : Receiver} (h : Addressed b s)
    (hmode : s.muxd.cmuxMode = false) :
    AddressesBelow s.muxd.channellist (gsm0710MaxChannels b) s.buf := by
  intro a ys os hsteps hflag hlength
  rcases ys with _ | ⟨c, _ | ⟨l, _ | ⟨x, _ | ⟨y, rest⟩⟩⟩⟩
  iterate 4 simp at hlength
  exact (h.base hmode _ _ (baseSteps_marked hsteps) (announced_behind hflag)).1

/-! ## The whole path -/

/-- The table keeps its length. -/
theorem receiveStep_length {s t : Receiver} {act : ReceiveAct} (h : receiveStep b s act = some t) :
    t.muxd.channellist.length = s.muxd.channellist.length := by
  cases act with
  | read bytes =>
    cases h
    rfl
  | others muxd =>
    simp only [receiveStep] at h
    split at h
    · next heq =>
      cases h
      exact heq
    · cases h
  | assemble calloc entry =>
    have hok : assemble b s calloc entry = .ok t := by
      cases hr : assemble b s calloc entry with
      | error fault =>
        simp only [receiveStep, hr] at h
        cases h
      | ok t' =>
        simp only [receiveStep, hr] at h
        cases h
        rfl
    unfold assemble at hok
    split at hok
    · next frame buf hget =>
      cases hextract : extractFrame b s.muxd frame calloc entry with
      | error fault =>
        rw [hextract] at hok
        cases hok
      | ok m' =>
        rw [hextract] at hok
        cases hok
        exact extractFrame_length hextract
    · cases hok
      rfl
    · cases hok
    · cases hok

/-- The basic decoder has no other index than the addresses it decodes. -/
theorem baseGetFrame_inTable {n : Nat}
    (htable : channellist.length = n) (haddresses : AddressesBelow channellist n buf) :
    gsm0710BaseBufferGetFrame channellist buf 0 ≠ (.outOfTable, buf') := by
  intro h
  have hresult : (getFrameAt channellist maxResyncGetFrameCount buf).1 = .outOfTable :=
    congrArg Prod.fst h
  rcases getFrameAt_result channellist maxResyncGetFrameCount buf with
    ⟨f, hframe⟩ | ⟨signalled, hnull⟩ | hassert | ⟨a, ys, os, hsteps, hflag, hlength, hoff⟩
  · cases hresult.symm.trans hframe
  · cases hresult.symm.trans hnull
  · cases hresult.symm.trans hassert
  · have hlt := haddresses a ys os hsteps hflag hlength
    omega

/-- One turn: the frame the decoder takes, and the command in it. -/
theorem assemble_inTable {s : Receiver} (calloc : Bool) (entry : Channel) (htable : FullTable b s)
    (h : Addressed b s) : assemble b s calloc entry ≠ .error .outOfTable := by
  have hlength : s.muxd.channellist.length = gsm0710MaxChannels b := htable
  unfold assemble
  split
  · next frame buf hget =>
    have hbelow : FrameBelow s.muxd.channellist.length frame := hlength ▸ h.frame hget
    have hextract := @extractFrame_inTable _ b _ calloc entry hbelow.1 hbelow.2
    cases hr : extractFrame b s.muxd frame calloc entry with
    | ok m' => simp [Except.map]
    | error fault =>
      rw [hr] at hextract
      simpa [Except.map] using hextract
  · simp
  · simp
  · next buf hget =>
    unfold getFrame at hget
    split at hget
    · exact absurd hget advGetFrame_inTable
    · next hmode =>
      exact absurd hget (baseGetFrame_inTable htable (h.addressesBelow (by simpa using hmode)))

/-- **Indices into the channel table.** Whatever bytes arrive, in either mode,
and whatever the other threads do meanwhile: a turn of `extract_frames` indexes
inside the table if the table has 64 entries, or if the octets that are stored
keep to its entries. -/
theorem indices_in_table {b : Build} {s t : Receiver} {acts : List ReceiveAct}
    (htable : FullTable b s)
    (hrun : Run (receiveStep b) anyStep s acts t) (hnext : b.tc1Volte = true ∨ Addressed b t)
    (calloc : Bool) (entry : Channel) : assemble b t calloc entry ≠ .error .outOfTable := by
  have htable' : FullTable b t :=
    hrun.invariant (fun u act u' hu _ hstep => (receiveStep_length hstep).trans hu) htable
  rcases hnext with hvolte | haddressed
  · exact assemble_inTable calloc entry htable' (addressed_of_volte hvolte t)
  · exact assemble_inTable calloc entry htable' haddressed

/-! ## Three streams -/

/-- A line on which these bytes have arrived. -/
def arrived (m : Muxd) (bytes : List UInt8) : Receiver :=
  ⟨m, gsm0710BufferWrite (gsm0710BufferInit ⟨0, gsm0710BufferSize_pos⟩) bytes⟩

theorem run_arrived (b : Build) (m : Muxd) (bytes : List UInt8) :
    Run (receiveStep b) anyStep ⟨m, gsm0710BufferInit ⟨0, gsm0710BufferSize_pos⟩⟩ [.read bytes]
      (arrived m bytes) :=
  .single trivial rfl

theorem fullTable_idle (cmuxMode : Bool) (buf : Gsm0710Buffer) :
    FullTable .plain ⟨idleMuxd cmuxMode, buf⟩ := length_replicate

/-- The modem stops channel 5, in a table of 32 entries. -/
theorem indices_in_table_msc :
    Addressed .plain (arrived (idleMuxd false)
        (basicFrame ⟨0, gsm0710TypeUih, [0xE3, 0x05, 0x17, 0x8F]⟩)) ∧
      assemble .plain (arrived (idleMuxd false)
        (basicFrame ⟨0, gsm0710TypeUih, [0xE3, 0x05, 0x17, 0x8F]⟩)) true .zero
          ≠ .error .outOfTable := by
  have hbelow : ∀ k < 11, ∀ f ∈ announced ((arrived (idleMuxd false)
      (basicFrame ⟨0, gsm0710TypeUih, [0xE3, 0x05, 0x17, 0x8F]⟩)).buf.unread.drop k),
        FrameBelow 32 f := by decide +kernel
  have haddressed : Addressed .plain (arrived (idleMuxd false)
      (basicFrame ⟨0, gsm0710TypeUih, [0xE3, 0x05, 0x17, 0x8F]⟩)) := by
    refine ⟨fun _ xs f hxs hframe => ?_, ?_⟩
    · rw [suffix_iff_eq_drop.mp hxs] at hframe
      exact hbelow _ (Nat.lt_succ_of_le (Nat.sub_le 10 _)) f hframe
    · intro hmode
      cases hmode
  exact ⟨haddressed, indices_in_table (fullTable_idle _ _) (run_arrived .plain _ _)
    (.inr haddressed) true .zero⟩

/-- The turn indexes outside the table. -/
def strays {α : Type} : Except ReceiveFault α → Bool
  | .error .outOfTable => true
  | _ => false

theorem eq_of_strays {α : Type} {r : Except ReceiveFault α} (h : strays r = true) :
    r = .error .outOfTable := by
  cases r with
  | ok a => cases h
  | error fault =>
    cases fault with
    | outOfTable => rfl
    | assert index => cases h
    | readOutside i => cases h
    | writeFrame => cases h

/-- Six octets with the address of channel 32 stop the basic decoder. In
advanced mode its SABM gets to `extract_frames`. An MSC command on channel 0
that names it gets to `handle_command`. -/
theorem indices_outside_table :
    (¬ ∀ (b : Build) (s t : Receiver) (acts : List ReceiveAct) (calloc : Bool) (entry : Channel),
        FullTable b s → Run (receiveStep b) anyStep s acts t →
          assemble b t calloc entry ≠ .error .outOfTable) ∧
      (∃ bytes, assemble .plain (arrived (idleMuxd true) bytes) true .zero
        = .error .outOfTable) ∧
      ∃ data, assemble .plain (arrived (idleMuxd false) (basicFrame ⟨0, gsm0710TypeUih, data⟩))
        true .zero = .error .outOfTable := by
  refine ⟨?_, ?_, ?_⟩
  · intro h
    refine h .plain _ _ _ true .zero (fullTable_idle _ _)
      (run_arrived .plain (idleMuxd false) [0xF9, 0x83, 0x3F, 0x01, 0x00, 0xF9]) ?_
    exact eq_of_strays (by decide +kernel)
  · refine ⟨advFrame 32 gsm0710TypeSabm [], ?_⟩
    exact eq_of_strays (by decide +kernel)
  · refine ⟨[0xE3, 0x05, 0x83, 0x8F], ?_⟩
    exact eq_of_strays (by decide +kernel)

end Arale.Mux
