import Mathlib.Algebra.Group.Nat.Defs
import Arale.Lib.Trace
import Arale.Mux.WriteFrame

/-!
# Opening and closing channels

Both sides may open a channel with SABM and close it with DISC; the other
side answers UA, or DM if it refuses. `extract_frames` handles the four
kinds of frame in one switch, the daemon's own requests are sent by
`logical_channel_establish`, `watchdog` and `close_devices`.

Each branch touches one entry of `channellist[]`, the one of the frame's
channel. `controlChannel` is that part of the switch; `controlFrame` is the
whole of it, with the answer that is sent and the globals that are set. The
condition variables it signals are left out: nothing here waits on them.

> `controlFrame_channellist`: the table after a control frame is the table
> before with `controlChannel` applied to one entry.

`logical_channel_close` resets `negotiated_N1`, and only
`logical_channel_init` sets it again, at start-up. So the frame size of an
open channel is the configured one only as long as nobody opens a channel
that was closed before.

> `opened_configured`: if no channel is opened again after a close, every
> open channel has its configured frame size.
-/

namespace Arale.Mux

open Arale.Lib (Run anyStep)

/-- UI and UIH frames carry information; all others control the channel. -/
def isInformation (frame : Frame) : Bool :=
  gsm0710FrameIs gsm0710TypeUi frame.control || gsm0710FrameIs gsm0710TypeUih frame.control

/-! ## The entry of the channel -/

/-- UA: an open channel was waiting for it if a DISC was sent, a closed one
if a SABM or a DISC was. The assertion against a close of the control channel
does not stop the production build, so it is not an exit here. -/
def uaChannel (channel : Channel) : Channel :=
  if channel.opened then
    if channel.discUaPending then { logicalChannelClose channel with discUaPending := false }
    else channel
  else if channel.sabmUaPending then { channel with opened := true, sabmUaPending := false }
  else if channel.discUaPending then { channel with discUaPending := false }
  else channel

def dmChannel (channel : Channel) : Channel :=
  if channel.opened then logicalChannelClose channel else channel

def discChannel (id : Nat) (channel : Channel) : Channel :=
  if channel.opened then
    if id = 0 then { channel with opened := false }
    else logicalChannelClose { channel with opened := false }
  else channel

/-- SABM: the channel counts as open, whatever state it is in. -/
def sabmChannel (channel : Channel) : Channel := { channel with opened := true }

/-- The switch over the control octet, on the entry of the frame's channel. -/
def controlChannel (frame : Frame) (channel : Channel) : Channel :=
  if gsm0710FrameIs gsm0710TypeUa frame.control then uaChannel channel
  else if gsm0710FrameIs gsm0710TypeDm frame.control then dmChannel channel
  else if gsm0710FrameIs gsm0710TypeDisc frame.control then
    discChannel frame.channel.toNat channel
  else if gsm0710FrameIs gsm0710TypeSabm frame.control then sabmChannel channel
  else channel

/-- The switch gets to a `logical_channel_close`. -/
def closesChannel (frame : Frame) (channel : Channel) : Bool :=
  if gsm0710FrameIs gsm0710TypeUa frame.control then
    channel.opened && channel.discUaPending
  else if gsm0710FrameIs gsm0710TypeDm frame.control then channel.opened
  else if gsm0710FrameIs gsm0710TypeDisc frame.control then
    channel.opened && frame.channel != 0
  else false

variable {frame : Frame}

theorem closesChannel_information (h : isInformation frame = true)
    (channel : Channel) : closesChannel frame channel = false := by
  have hother : ∀ {type : UInt8}, type ≠ gsm0710TypeUi → type ≠ gsm0710TypeUih →
      ¬ gsm0710FrameIs type frame.control = true := by
    intro type hui huih htype
    have heq := eq_of_beq htype
    rcases Bool.or_eq_true_iff.mp h with h | h
    · exact hui (heq.symm.trans (eq_of_beq h))
    · exact huih (heq.symm.trans (eq_of_beq h))
  rw [closesChannel, if_neg (hother (by decide) (by decide)),
    if_neg (hother (by decide) (by decide)), if_neg (hother (by decide) (by decide))]

/-! ## The whole switch -/

def Muxd.setChannel (m : Muxd) (id : Nat) (channel : Channel) : Muxd :=
  { m with channellist := m.channellist.set id channel }

/-- The setup is complete when all channels but the one for video telephony
are open. -/
def uaFrame (b : Build) (m : Muxd) (id : Nat) (channel : Channel) : Muxd :=
  let m' := m.setChannel id (uaChannel channel)
  if channel.opened = false ∧ channel.sabmUaPending = true then
    let received := (m.sabmUaReceived + 1) % 2 ^ 32
    let expected := if b.androidVtSupport then muxdChNumAll b - 1 else muxdChNumAll b
    { m' with
      sabmUaReceived := received
      muxSetupChnlComplete := m.muxSetupChnlComplete || received == expected }
  else m'

/-- A refused channel 26 ends the setup as well. -/
def dmFrame (m : Muxd) (id : Nat) (channel : Channel) : Muxd :=
  let m' := m.setChannel id (dmChannel channel)
  if channel.opened then m'
  else if id = 0 then { m' with serialState := .closing }
  else if id = 26 then { m' with muxSetupChnlComplete := true, lackofAtciChannel := true }
  else m'

/-- The answer goes out before the channel is closed. -/
def discFrame (m : Muxd) (id : Nat) (channel : Channel) : Option Muxd :=
  if channel.opened then
    (rxThreadWriteFrame (m.setChannel id { channel with opened := false }) id []
      (gsm0710TypeUa ||| gsm0710Pf)).map fun m' =>
        if id = 0 then { m' with serialState := .peerClosing }
        else m'.setChannel id (logicalChannelClose { channel with opened := false })
  else rxThreadWriteFrame m id [] (gsm0710TypeDm ||| gsm0710Pf)

def sabmFrame (m : Muxd) (id : Nat) (channel : Channel) : Option Muxd :=
  rxThreadWriteFrame (m.setChannel id (sabmChannel channel)) id [] (gsm0710TypeUa ||| gsm0710Pf)

/-- A frame that is not an information frame; `none` if its channel is
outside the table or the answer cannot be sent as `write_frame` defines it. -/
def controlFrame (b : Build) (m : Muxd) (frame : Frame) : Option Muxd :=
  match m.channellist[frame.channel.toNat]? with
  | none => none
  | some channel =>
    if gsm0710FrameIs gsm0710TypeUa frame.control then
      some (uaFrame b m frame.channel.toNat channel)
    else if gsm0710FrameIs gsm0710TypeDm frame.control then
      some (dmFrame m frame.channel.toNat channel)
    else if gsm0710FrameIs gsm0710TypeDisc frame.control then
      discFrame m frame.channel.toNat channel
    else if gsm0710FrameIs gsm0710TypeSabm frame.control then
      sabmFrame m frame.channel.toNat channel
    else some m

/-! ## The daemon's own requests -/

/-- `logical_channel_establish` with the descriptor and the name of the PTY
it got; the control channel has no PTY and its SABM is sent by `watchdog`. -/
def logicalChannelEstablish (m : Muxd) (id : Nat) (fd : Nat) (ptsname : String) : Option Muxd :=
  match m.channellist[id]? with
  | none => none
  | some channel =>
    let channel' := if id = 0 then { channel with sabmUaPending := true }
      else { channel with
        fd := fd, ptsname := some ptsname, v24Signals := 0x80 ||| 0x08 ||| 0x04 ||| gsm0710Ea
        sabmUaPending := true }
    rxThreadWriteFrame (m.setChannel id channel') id [] (gsm0710TypeSabm ||| gsm0710Pf)

/-- `close_devices` at one open channel. In advanced mode no UA is waited
for. -/
def closeDevice (m : Muxd) (id : Nat) : Option Muxd :=
  match m.channellist[id]? with
  | none => none
  | some channel =>
    if channel.fd ≥ 0 ∧ channel.opened = true ∧ id ≠ 0 then
      if m.cmuxMode then rxThreadWriteFrame m id [] (gsm0710ControlCld ||| gsm0710Cr)
      else rxThreadWriteFrame (m.setChannel id { channel with discUaPending := true }) id []
        (gsm0710TypeDisc ||| gsm0710Pf)
    else some m

/-! ## What a control frame does to the entry of its channel -/

variable {frame : Frame} {channel : Channel}

/-- The entry is closed, or it keeps everything but the three flags of the
handshake. A channel that becomes open was asked for by either side. -/
inductive Handshake (frame : Frame) (channel : Channel) : Channel → Prop where
  | close : closesChannel frame channel = true →
      Handshake frame channel (logicalChannelClose channel)
  | flags (opened sabmUaPending discUaPending : Bool) :
      closesChannel frame channel = false →
      (opened = true → channel.opened = true ∨ channel.sabmUaPending = true ∨
        gsm0710FrameIs gsm0710TypeSabm frame.control = true) →
      (sabmUaPending = true → channel.sabmUaPending = true) →
      Handshake frame channel
        { channel with
          opened := opened, sabmUaPending := sabmUaPending, discUaPending := discUaPending }

theorem Handshake.unchanged
    (h : closesChannel frame channel = false) : Handshake frame channel channel :=
  .flags channel.opened channel.sabmUaPending channel.discUaPending h .inl id

theorem uaChannel_handshake
    (hcloses : closesChannel frame channel = (channel.opened && channel.discUaPending)) :
    Handshake frame channel (uaChannel channel) := by
  unfold uaChannel
  by_cases hopened : channel.opened = true
  · rw [if_pos hopened]
    by_cases hdisc : channel.discUaPending = true
    · rw [if_pos hdisc]
      exact .close (by simp [hcloses, hopened, hdisc])
    · rw [if_neg hdisc]
      exact .unchanged (by simp [hcloses, hdisc])
  · have hkept : closesChannel frame channel = false := by simp [hcloses, hopened]
    rw [if_neg hopened]
    split
    · next hsabm =>
      exact .flags true false channel.discUaPending hkept (fun _ => .inr (.inl hsabm)) (by simp)
    · split
      · exact .flags channel.opened channel.sabmUaPending false hkept .inl id
      · exact .unchanged hkept

theorem discChannel_handshake
    (hcloses : closesChannel frame channel = (channel.opened && frame.channel != 0)) :
    Handshake frame channel (discChannel frame.channel.toNat channel) := by
  unfold discChannel
  by_cases hopened : channel.opened = true
  · rw [if_pos hopened]
    split
    · next hid =>
      have hid' : frame.channel = 0 := UInt8.toNat_inj.mp hid
      exact .flags false channel.sabmUaPending channel.discUaPending
        (by simp [hcloses, hid']) (by simp) id
    · next hid =>
      have hid' : frame.channel ≠ 0 := fun h0 => hid (by simp [h0])
      exact .close (by simp [hcloses, hopened, hid'])
  · rw [if_neg hopened]
    exact .unchanged (by simp [hcloses, hopened])

theorem controlChannel_handshake (frame : Frame) (channel : Channel) :
    Handshake frame channel (controlChannel frame channel) := by
  unfold controlChannel
  by_cases hua : gsm0710FrameIs gsm0710TypeUa frame.control = true
  · rw [if_pos hua]
    exact uaChannel_handshake (by rw [closesChannel, if_pos hua])
  rw [if_neg hua]
  by_cases hdm : gsm0710FrameIs gsm0710TypeDm frame.control = true
  · rw [if_pos hdm, dmChannel]
    have hcloses : closesChannel frame channel = channel.opened := by
      rw [closesChannel, if_neg hua, if_pos hdm]
    by_cases hopened : channel.opened = true
    · rw [if_pos hopened]
      exact .close (hcloses.trans hopened)
    · rw [if_neg hopened]
      exact .unchanged (by simpa [hcloses] using hopened)
  rw [if_neg hdm]
  by_cases hdisc : gsm0710FrameIs gsm0710TypeDisc frame.control = true
  · rw [if_pos hdisc]
    exact discChannel_handshake (by rw [closesChannel, if_neg hua, if_neg hdm, if_pos hdisc])
  rw [if_neg hdisc]
  have hkept : closesChannel frame channel = false := by
    rw [closesChannel, if_neg hua, if_neg hdm, if_neg hdisc]
  by_cases hsabm : gsm0710FrameIs gsm0710TypeSabm frame.control = true
  · rw [if_pos hsabm]
    exact .flags true channel.sabmUaPending channel.discUaPending hkept
      (fun _ => .inr (.inr hsabm)) id
  · rw [if_neg hsabm]
    exact .unchanged hkept

theorem opened_of_closesChannel
    (h : closesChannel frame channel = true) : channel.opened = true := by
  unfold closesChannel at h
  split at h
  · exact (Bool.and_eq_true_iff.mp h).1
  split at h
  · exact h
  split at h
  · exact (Bool.and_eq_true_iff.mp h).1
  · cases h

variable {channel' : Channel}

/-- A closed channel nobody asks for stays as it is. -/
theorem Handshake.stays_closed (h : Handshake frame channel channel')
    (hopened : channel.opened = false) (hpending : channel.sabmUaPending = false)
    (hsabm : gsm0710FrameIs gsm0710TypeSabm frame.control = false) :
    ∃ discUaPending, channel' = { channel with discUaPending := discUaPending } := by
  cases h with
  | close hcloses => cases hopened.symm.trans (opened_of_closesChannel hcloses)
  | flags opened sabm disc _ hnew hnewPending =>
    have hstays : opened = false := by
      refine Bool.eq_false_iff.mpr fun htrue => ?_
      rcases hnew htrue with hold | hold | hold
      · cases hopened.symm.trans hold
      · cases hpending.symm.trans hold
      · cases hsabm.symm.trans hold
    have hstays' : sabm = false :=
      Bool.eq_false_iff.mpr fun htrue => by cases hpending.symm.trans (hnewPending htrue)
    refine ⟨disc, ?_⟩
    rw [hstays.trans hopened.symm, hstays'.trans hpending.symm]

/-! ## What a control frame does to the table -/

variable {m : Muxd} {id : Nat}

theorem Muxd.setChannel_self
    (h : m.channellist[id]? = some channel) : m.channellist.set id channel = m.channellist := by
  obtain ⟨hlt, hget⟩ := List.getElem?_eq_some_iff.mp h
  rw [← hget, List.set_getElem_self]

/-- What holds of the other entries and of the new one holds of the table. -/
theorem forall_entry_set {p : Nat → Channel → Prop} {table : List Channel}
    (hother : ∀ id' channel', id' ≠ id → table[id']? = some channel' → p id' channel')
    (hid : p id channel) (id' : Nat) (channel' : Channel)
    (hget : (table.set id channel)[id']? = some channel') : p id' channel' := by
  rw [List.getElem?_set] at hget
  split at hget
  · next heq =>
    split at hget
    · cases hget
      exact heq ▸ hid
    · cases hget
  · next hne => exact hother id' channel' (Ne.symm hne) hget

theorem uaFrame_channellist (b : Build) (m : Muxd) (id : Nat) (channel : Channel) :
    (uaFrame b m id channel).channellist = m.channellist.set id (uaChannel channel) := by
  unfold uaFrame
  split <;> rfl

theorem dmFrame_channellist (m : Muxd) (id : Nat) (channel : Channel) :
    (dmFrame m id channel).channellist = m.channellist.set id (dmChannel channel) := by
  unfold dmFrame
  split
  · rfl
  · split
    · rfl
    · split <;> rfl

theorem discFrame_channellist {m' : Muxd}
    (hget : m.channellist[id]? = some channel) (h : discFrame m id channel = some m') :
    m'.channellist = m.channellist.set id (discChannel id channel) := by
  unfold discFrame at h
  unfold discChannel
  by_cases hopened : channel.opened = true
  · rw [if_pos hopened] at h ⊢
    obtain ⟨m₁, hsent, rfl⟩ := Option.map_eq_some_iff.mp h
    have hlist := rxThreadWriteFrame_channellist hsent
    by_cases hid : id = 0
    · rw [if_pos hid, if_pos hid]
      exact hlist
    · rw [if_neg hid, if_neg hid]
      show m₁.channellist.set id _ = _
      rw [hlist]
      exact List.set_set ..
  · rw [if_neg hopened] at h ⊢
    rw [rxThreadWriteFrame_channellist h, Muxd.setChannel_self hget]

variable {b : Build}

/-- One entry changes, and it changes by `controlChannel`. -/
theorem controlFrame_channellist {m' : Muxd} (h : controlFrame b m frame = some m') :
    ∃ channel, m.channellist[frame.channel.toNat]? = some channel ∧
      m'.channellist
        = m.channellist.set frame.channel.toNat (controlChannel frame channel) := by
  unfold controlFrame at h
  split at h
  · cases h
  · next channel hget =>
    refine ⟨channel, hget, ?_⟩
    unfold controlChannel
    by_cases hua : gsm0710FrameIs gsm0710TypeUa frame.control = true
    · rw [if_pos hua] at h ⊢
      rw [← Option.some.inj h, uaFrame_channellist]
    rw [if_neg hua] at h ⊢
    by_cases hdm : gsm0710FrameIs gsm0710TypeDm frame.control = true
    · rw [if_pos hdm] at h ⊢
      rw [← Option.some.inj h, dmFrame_channellist]
    rw [if_neg hdm] at h ⊢
    by_cases hdisc : gsm0710FrameIs gsm0710TypeDisc frame.control = true
    · rw [if_pos hdisc] at h ⊢
      exact discFrame_channellist hget h
    rw [if_neg hdisc] at h ⊢
    by_cases hsabm : gsm0710FrameIs gsm0710TypeSabm frame.control = true
    · rw [if_pos hsabm] at h ⊢
      exact rxThreadWriteFrame_channellist h
    rw [if_neg hsabm] at h ⊢
    rw [← Option.some.inj h, Muxd.setChannel_self hget]

/-! ## Sessions -/

/-- The channels passed to `logical_channel_close` since start-up are kept
beside the globals. -/
structure Session where
  muxd : Muxd
  closed : List Nat

/-- `open_serial_device` sets up every channel. -/
def openSerialDevice (b : Build) (cmuxN1 : Int) (m : Muxd) : Muxd :=
  { m with
    channellist := m.channellist.mapIdx fun id channel => logicalChannelInit b cmuxN1 channel id }

def Session.start (b : Build) (cmuxN1 : Int) (m : Muxd) : Session where
  muxd := openSerialDevice b cmuxN1 m
  closed := []

inductive SessionAct where
  | receive (frame : Frame)
  | establish (id fd : Nat) (ptsname : String)
  | closeDevice (id : Nat)
  deriving DecidableEq, Repr

/-- The frame gets to a `logical_channel_close` of its channel. -/
def Muxd.closes (m : Muxd) (frame : Frame) : Bool :=
  m.channellist[frame.channel.toNat]?.any (closesChannel frame)

def sessionStep (b : Build) (s : Session) : SessionAct → Option Session
  | .receive frame =>
    if isInformation frame then none
    else (controlFrame b s.muxd frame).map fun m =>
      { muxd := m
        closed := if s.muxd.closes frame then frame.channel.toNat :: s.closed else s.closed }
  | .establish id fd ptsname =>
    (logicalChannelEstablish s.muxd id fd ptsname).map fun m => { s with muxd := m }
  | .closeDevice id => (closeDevice s.muxd id).map fun m => { s with muxd := m }

/-- The channel is opened, by either side, after it was closed. -/
def reopens (s : Session) : SessionAct → Bool
  | .receive frame =>
    gsm0710FrameIs gsm0710TypeSabm frame.control && s.closed.contains frame.channel.toNat
  | .establish id _ _ => s.closed.contains id
  | .closeDevice _ => false

def opensOnce (s : Session) (act : SessionAct) : Prop := reopens s act = false

instance (s : Session) (act : SessionAct) : Decidable (opensOnce s act) :=
  inferInstanceAs (Decidable (reopens s act = false))

/-- What an entry must satisfy: the configured frame size, or no way to
become open. -/
def Configured (n1 : Int) (closed : Prop) (channel : Channel) : Prop :=
  (¬ closed → channel.negotiatedN1 = n1) ∧
    (closed → channel.opened = false ∧ channel.sabmUaPending = false)

/-- Every entry of the table does. -/
def ConfiguredTable (b : Build) (cmuxN1 : Int) (s : Session) : Prop :=
  ∀ id channel, s.muxd.channellist[id]? = some channel →
    Configured (configuredN1 b cmuxN1 id) (id ∈ s.closed) channel

theorem configured_close {n1 : Int} {closed : Prop} (h : closed) (channel : Channel) :
    Configured n1 closed (logicalChannelClose channel) :=
  ⟨fun hnot => absurd h hnot, fun _ => ⟨rfl, rfl⟩⟩

/-- A frame on a channel that is not opened again keeps its entry right. -/
theorem configured_handshake {n1 : Int} {closed : Prop}
    {channel : Channel} (h : Configured n1 closed channel)
    (hsabm : closed → gsm0710FrameIs gsm0710TypeSabm frame.control = false)
    (hshake : Handshake frame channel channel') :
    Configured n1 (closed ∨ closesChannel frame channel = true) channel' := by
  have hstays := hshake.stays_closed
  cases hshake with
  | close hcloses => exact configured_close (.inr hcloses) channel
  | flags opened sabm disc hkept =>
    refine ⟨fun hnot => h.1 (fun hclosed => hnot (.inl hclosed)), ?_⟩
    intro hclosed
    rcases hclosed with hclosed | hcloses
    · obtain ⟨hnotOpen, hnotPending⟩ := h.2 hclosed
      obtain ⟨disc', hchannel⟩ := hstays hnotOpen hnotPending (hsabm hclosed)
      rw [hchannel]
      exact ⟨hnotOpen, hnotPending⟩
    · cases hkept.symm.trans hcloses

variable {cmuxN1 : Int} {s s' : Session}

/-- One entry is replaced, and its channel may have been closed. -/
theorem ConfiguredTable.set (h : ConfiguredTable b cmuxN1 s)
    (hlist : s'.muxd.channellist = s.muxd.channellist.set id channel')
    (hclosed : ∀ id', id' ≠ id → (id' ∈ s'.closed ↔ id' ∈ s.closed))
    (hentry : Configured (configuredN1 b cmuxN1 id) (id ∈ s'.closed) channel') :
    ConfiguredTable b cmuxN1 s' := by
  unfold ConfiguredTable
  rw [hlist]
  refine forall_entry_set ?_ hentry
  intro id' channel₁ hid hget'
  obtain ⟨hn1, hshut⟩ := h id' channel₁ hget'
  have hiff := hclosed id' hid
  exact ⟨fun hnot => hn1 (fun hmem => hnot (hiff.mpr hmem)), fun hmem => hshut (hiff.mp hmem)⟩

theorem ConfiguredTable.receive
    (h : ConfiguredTable b cmuxN1 s) (honce : opensOnce s (.receive frame))
    (hstep : sessionStep b s (.receive frame) = some s') : ConfiguredTable b cmuxN1 s' := by
  simp only [sessionStep] at hstep
  split at hstep
  · cases hstep
  · obtain ⟨m, hframe, rfl⟩ := Option.map_eq_some_iff.mp hstep
    obtain ⟨channel, hget, hlist⟩ := controlFrame_channellist hframe
    have hcloses : s.muxd.closes frame = closesChannel frame channel := by
      rw [Muxd.closes, hget]
      rfl
    have hmem : ∀ id, id ∈ (if s.muxd.closes frame then frame.channel.toNat :: s.closed
        else s.closed) ↔ id ∈ s.closed ∨ (id = frame.channel.toNat ∧
          closesChannel frame channel = true) := by
      intro id
      rw [hcloses]
      split
      · next hc => simp [hc, or_comm]
      · next hc => simp [hc]
    have hsabm : frame.channel.toNat ∈ s.closed →
        gsm0710FrameIs gsm0710TypeSabm frame.control = false := by
      intro hin
      have hreopen : (gsm0710FrameIs gsm0710TypeSabm frame.control &&
        s.closed.contains frame.channel.toNat) = false := honce
      rw [List.contains_iff_mem.mpr hin, Bool.and_true] at hreopen
      exact hreopen
    refine h.set hlist ?_ ?_
    · intro id hid
      rw [hmem id]
      simp [hid]
    · obtain ⟨hn1, hshut⟩ :=
        configured_handshake (h _ _ hget) hsabm (controlChannel_handshake frame channel)
      have hiff := hmem frame.channel.toNat
      simp only [true_and] at hiff
      exact ⟨fun hnot => hn1 (fun hin => hnot (hiff.mpr hin)), fun hin => hshut (hiff.mp hin)⟩

theorem ConfiguredTable.establish {fd : Nat} {ptsname : String} (h : ConfiguredTable b cmuxN1 s)
    (honce : opensOnce s (.establish id fd ptsname))
    (hstep : sessionStep b s (.establish id fd ptsname) = some s') :
    ConfiguredTable b cmuxN1 s' := by
  obtain ⟨m, hestablish, rfl⟩ := Option.map_eq_some_iff.mp hstep
  have hnot : id ∉ s.closed := by
    intro hin
    have hreopen : s.closed.contains id = false := honce
    rw [List.contains_iff_mem.mpr hin] at hreopen
    cases hreopen
  unfold logicalChannelEstablish at hestablish
  split at hestablish
  · cases hestablish
  · next channel hget =>
    refine h.set (rxThreadWriteFrame_channellist hestablish) (fun _ _ => Iff.rfl) ?_
    refine ⟨fun _ => ?_, fun hin => absurd hin hnot⟩
    split <;> exact (h id channel hget).1 hnot

theorem ConfiguredTable.closeDevice (h : ConfiguredTable b cmuxN1 s)
    (hstep : sessionStep b s (.closeDevice id) = some s') : ConfiguredTable b cmuxN1 s' := by
  obtain ⟨m, hclose, rfl⟩ := Option.map_eq_some_iff.mp hstep
  unfold Arale.Mux.closeDevice at hclose
  split at hclose
  · cases hclose
  · next channel hget =>
    split at hclose
    · split at hclose
      · refine h.set ?_ (fun _ _ => Iff.rfl) (h id channel hget)
        rw [Muxd.setChannel_self hget]
        exact rxThreadWriteFrame_channellist hclose
      · exact h.set (rxThreadWriteFrame_channellist hclose) (fun _ _ => Iff.rfl)
          (h id channel hget)
    · cases hclose
      exact h

theorem configuredTable_start (b : Build) (cmuxN1 : Int) (m : Muxd) :
    ConfiguredTable b cmuxN1 (Session.start b cmuxN1 m) := by
  intro id channel hget
  have hget : (m.channellist.mapIdx fun id channel =>
      logicalChannelInit b cmuxN1 channel id)[id]? = some channel := hget
  rw [List.getElem?_mapIdx] at hget
  obtain ⟨old, -, rfl⟩ := Option.map_eq_some_iff.mp hget
  exact ⟨fun _ => rfl, fun hin => absurd hin (List.not_mem_nil)⟩

/-- **Frame size of open channels.** In a run that opens no channel again
after it was closed, every open channel has its configured frame size. -/
theorem opened_configured {b : Build} {cmuxN1 : Int} {m : Muxd} {acts : List SessionAct}
    {t : Session} (hrun : Run (sessionStep b) opensOnce (Session.start b cmuxN1 m) acts t)
    {id : Nat} {channel : Channel} (hget : t.muxd.channellist[id]? = some channel)
    (hopened : channel.opened = true) :
    channel.negotiatedN1 = configuredN1 b cmuxN1 id ∧
      (0 < cmuxN1 → 0 < channel.negotiatedN1) := by
  have htable : ConfiguredTable b cmuxN1 t := by
    refine hrun.invariant ?_ (configuredTable_start b cmuxN1 m)
    intro s act s' h honce hstep
    cases act with
    | receive frame => exact h.receive honce hstep
    | establish id fd ptsname => exact h.establish honce hstep
    | closeDevice id => exact h.closeDevice hstep
  obtain ⟨hn1, hshut⟩ := htable id channel hget
  have hnot : id ∉ t.closed := by
    intro hin
    cases (hshut hin).1.symm.trans hopened
  have hsize := hn1 hnot
  refine ⟨hsize, fun hpos => ?_⟩
  rw [hsize]
  exact configuredN1_pos b hpos id

/-- The daemon asks for channel 1, the modem agrees, and asks to close
channel 2, which is not open. -/
theorem opened_configured_agreed :
    ∃ acts t channel, Run (sessionStep .plain) opensOnce
        (Session.start .plain 1509 (idleMuxd false)) acts t ∧
      t.muxd.channellist[1]? = some channel ∧ channel.negotiatedN1 = configuredN1 .plain 1509 1 ∧
      0 < channel.negotiatedN1 := by
  simp only [exists_and_left]
  refine ⟨[.establish 1 3 "/dev/pts/0", .receive ⟨1, gsm0710TypeUa ||| gsm0710Pf, []⟩,
    .receive ⟨2, gsm0710TypeDisc ||| gsm0710Pf, []⟩], Run.exists_of_exec
    (A := fun t => t.muxd.channellist[1]?.any (·.opened) = true) (by decide +kernel) ?_⟩
  intro t hrun ht
  obtain ⟨channel, hget, hopened⟩ := (Option.any_eq_true _ _).mp ht
  obtain ⟨hsize, hpos⟩ := opened_configured hrun hget hopened
  exact ⟨channel, hget, hsize, hpos (by decide)⟩

/-- The modem closes channel 1 and opens it again: it is open with frame
size 0. -/
theorem reopened_unconfigured :
    ¬ ∀ (b : Build) (cmuxN1 : Int) (m : Muxd) (acts : List SessionAct) (t : Session), 0 < cmuxN1 →
      Run (sessionStep b) anyStep (Session.start b cmuxN1 m) acts t →
      ∀ (id : Nat) (channel : Channel), t.muxd.channellist[id]? = some channel →
        channel.opened = true →
        channel.negotiatedN1 = configuredN1 b cmuxN1 id ∧ 0 < channel.negotiatedN1 := by
  intro h
  obtain ⟨t, hrun, ht⟩ := Run.of_exec_any (sessionStep .plain) anyStep
    (Session.start .plain 1509 (idleMuxd false))
    [.establish 1 3 "/dev/pts/0", .receive ⟨1, gsm0710TypeUa ||| gsm0710Pf, []⟩,
      .receive ⟨1, gsm0710TypeDisc ||| gsm0710Pf, []⟩,
      .receive ⟨1, gsm0710TypeSabm ||| gsm0710Pf, []⟩]
    (fun t => t.muxd.channellist[1]?.any fun channel =>
      channel.opened && channel.negotiatedN1 == 0) (by decide +kernel)
  obtain ⟨channel, hget, htest⟩ := (Option.any_eq_true _ _).mp ht
  obtain ⟨hopened, hzero⟩ := Bool.and_eq_true_iff.mp htest
  have hpos := (h .plain 1509 (idleMuxd false) _ t (by decide) hrun 1 channel hget hopened).2
  rw [eq_of_beq hzero] at hpos
  cases hpos

end Arale.Mux
