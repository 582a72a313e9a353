import Mathlib.Data.List.Perm.Subperm
import Mathlib.Order.Lattice
import Arale.Mux.Session

/-!
# Completion of the channel set-up

At the start of a session `watchdog` sends a SABM on the control channel and,
through `c_alloc_channel`, on the configured channels, and then waits for
`mux_setup_chnl_complete`. The flag is set by `extract_frames`, which counts
in `sabm_ua_received` the UAs that answered a SABM and compares the count
with the number of configured channels.

`watchStep` is `watchdog` from one point to the next at which another thread
may run; the thread inside it holds `watch_lock`, so there is one such thread.
`setupStep` puts it beside the frames of the modem and the applications that
drop their PTYs. The channels that were asked for and that were acknowledged
since are kept beside the globals.

The count stands for the set of acknowledged channels only as long as every
channel is counted once and nothing else is counted:

> `setup_complete`: in a run that counts every channel once, the flag is set
> by the step that acknowledges the last required channel and by no other.
-/

namespace Arale.Mux

open List
open Arale.Lib (Run anyStep)

/-! ## The configured channels -/

/-- The DLCIs of the first `MUXD_CH_NUM_ALL` entries of `ch_cfg[]`. -/
def configuredChannels (b : Build) : List Nat :=
  ((chCfg b).take (muxdChNumAll b)).map (·.pnDlci)

/-- The channels that the set-up has to open: the configured ones, without
the one for video telephony. -/
def requiredChannels (b : Build) : List Nat :=
  if b.androidVtSupport then (configuredChannels b).filter (· != muxdVtChNum)
  else configuredChannels b

/-- The count of UAs at which the set-up is complete. -/
def expectedUas (b : Build) : Nat :=
  if b.androidVtSupport then muxdChNumAll b - 1 else muxdChNumAll b

/-- The channel `c_alloc_channel` establishes: the first configured one
without a PTY. If there is none but some other entry is free, the second loop
passes `channellist[id]` where it means `channellist[i]`, and `id` is the last
configured channel. -/
def cAllocChannel (b : Build) (m : Muxd) : Option Nat :=
  if m.serialState = .muxing then
    match (configuredChannels b).tail.find? fun id => m.channellist[id]?.any (·.fd < 0) with
    | some id => some id
    | none =>
      if m.channellist.tail.any (·.fd < 0) then (configuredChannels b).tail.getLast? else none
  else none

/-! ## The watchdog -/

/-- Where the thread is that holds `watch_lock`. -/
inductive Watch where
  | idle
  /-- before `start_muxer` -/
  | starting
  /-- before the SABM on the control channel -/
  | control
  /-- with this many calls of `c_alloc_channel` to make -/
  | alloc (left : Nat)
  /-- for `setup_chnl_complete_signal` -/
  | waiting
  /-- looking for PTYs to set up again, at this channel -/
  | reopening (id : Nat)
  /-- in `close_devices` at this channel, after this many DISCs -/
  | closing (id discSent : Nat)
  /-- in `shutdown_devices` at this channel -/
  | shutting (id : Nat)
  deriving DecidableEq, Repr

/-- What the outside answers to the next step of the watchdog: whether it
succeeds, and the PTY it gets. -/
structure Answer where
  ok : Bool
  fd : Int
  ptsname : String
  deriving DecidableEq, Repr

structure Setup where
  muxd : Muxd
  serialOpen : Bool
  watch : Watch
  /-- the channels a SABM was sent for in this session -/
  asked : List Nat
  /-- those of them a UA was received for since -/
  acked : List Nat

/-- `main` begins with empty tables and counters. -/
def Setup.start (b : Build) (m : Muxd) : Setup where
  muxd := { m with
    channellist := List.replicate (gsm0710MaxChannels b) Channel.zero
    serialState := .opening
    muxSetupChnlComplete := false
    sabmUaReceived := 0 }
  serialOpen := false
  watch := .idle
  asked := []
  acked := []

def closeChannelCmd : List UInt8 := [gsm0710ControlCld ||| gsm0710Cr, gsm0710Ea]

/-- The end of `close_devices`: the multiplexer is closed down, and the next
call of `watchdog` opens it again. -/
def closeDown (s : Setup) (discSent : Nat) : Option Setup :=
  if s.serialOpen then
    let m := { s.muxd with
      closeDownSendDiscForAllChnl := s.muxd.closeDownSendDiscForAllChnl && discSent == 0 }
    (if m.cmuxMode then rxThreadWriteFrame m 0 [] (gsm0710ControlCld ||| gsm0710Cr)
      else rxThreadWriteFrame m 0 closeChannelCmd gsm0710TypeUih).map fun m' =>
        { s with muxd := { m' with serialState := .opening }, serialOpen := false, watch := .idle }
  else some { s with muxd := { s.muxd with serialState := .opening }, watch := .idle }

/-- The end of `shutdown_devices`, which answers the modem's close down. -/
def shutDown (s : Setup) : Option Setup :=
  if s.serialOpen then
    (rxThreadWriteFrame s.muxd 0 [gsm0710ControlCld, gsm0710Ea] gsm0710TypeUih).map fun m' =>
      { s with muxd := { m' with serialState := .opening }, serialOpen := false, watch := .idle }
  else some { s with muxd := { s.muxd with serialState := .opening }, watch := .idle }

/-- `setup_pty_interface`; it may fail before or after the PTY is open. -/
def setupPtyInterface (channel : Channel) (ans : Answer) : Channel :=
  { channel with
    fd := ans.fd, ptsname := if ans.fd ≥ 0 then some ans.ptsname else channel.ptsname }

/-- `logical_channel_establish` when the PTY could not be set up: no SABM is
sent, and the assertion does not stop the production build. -/
def establishFailed (m : Muxd) (id : Nat) (ans : Answer) : Option Muxd :=
  m.channellist[id]?.map fun channel => m.setChannel id (setupPtyInterface channel ans)

/-- A call of `watchdog` between two steps of it: what the state asks for. -/
def watchIdle (b : Build) (cmuxN1 : Int) (s : Setup) (ans : Answer) : Setup :=
  match s.muxd.serialState with
  | .opening =>
    -- every channel is reset before the device is opened
    let m := openSerialDevice b cmuxN1 s.muxd
    if ans.ok then
      { s with
        muxd := { m with serialState := .initilizing }, serialOpen := true, watch := .starting
        asked := [], acked := [] }
    else { s with muxd := m, serialOpen := ans.fd ≥ 0, asked := [], acked := [] }
  | .initilizing => { s with watch := .starting }
  | .muxing => { s with watch := .reopening 1 }
  | .closing =>
    { s with muxd := { s.muxd with closeDownSendDiscForAllChnl := true }, watch := .closing 1 0 }
  | .peerClosing => { s with watch := .shutting 1 }
  | _ => s

/-- One step of `watchdog`. -/
def watchStep (b : Build) (cmuxN1 : Int) (virPorts : Nat) (s : Setup) (ans : Answer) :
    Option Setup :=
  match s.watch with
  | .idle => some (watchIdle b cmuxN1 s ans)
  | .starting =>
    if ans.ok then
      some { s with muxd := { s.muxd with serialState := .muxing }, watch := .control }
    else some { s with watch := .idle }
  | .control =>
    if ans.ok then
      (logicalChannelEstablish s.muxd 0 0 "").map fun m =>
        { s with muxd := m, watch := .alloc virPorts, asked := 0 :: s.asked }
    else some { s with watch := .idle }
  | .alloc 0 => some { s with watch := if s.muxd.muxSetupChnlComplete then .idle else .waiting }
  | .alloc (left + 1) =>
    match cAllocChannel b s.muxd with
    | none => some { s with watch := .idle }
    | some id =>
      if ans.ok then
        (logicalChannelEstablish s.muxd id ans.fd.toNat ans.ptsname).map fun m =>
          { s with muxd := m, watch := .alloc left, asked := id :: s.asked }
      else (establishFailed s.muxd id ans).map fun m => { s with muxd := m, watch := .alloc left }
  | .waiting => some { s with watch := .idle }
  | .reopening id =>
    match s.muxd.channellist[id]? with
    | some channel =>
      let channel' := if channel.reopen then
          { setupPtyInterface channel ans with reopen := !ans.ok }
        else channel
      some { s with muxd := s.muxd.setChannel id channel', watch := .reopening (id + 1) }
    | none =>
      -- no reply to pings, or silence for too long
      some { s with
        muxd := if ans.ok then s.muxd else { s.muxd with serialState := .closing }
        watch := .idle }
  | .closing id discSent =>
    match s.muxd.channellist[id]? with
    | some channel =>
      let discSent' := if channel.fd ≥ 0 ∧ channel.opened = true ∧ s.muxd.cmuxMode = false then
        discSent + 1 else discSent
      (closeDevice s.muxd id).map fun m =>
        { s with muxd := m, watch := .closing (id + 1) discSent' }
    | none => closeDown s discSent
  | .shutting id =>
    match s.muxd.channellist[id]? with
    | some channel =>
      let channel' := if channel.fd ≥ 0 ∧ channel.opened = true then logicalChannelClose channel
        else channel
      some { s with muxd := s.muxd.setChannel id channel', watch := .shutting (id + 1) }
    | none => shutDown s

/-! ## The system -/

inductive SetupAct where
  /-- `extract_frames` handles a frame that is not an information frame -/
  | receive (frame : Frame)
  /-- `handle_command`: the modem closes the multiplexer down -/
  | closeDown
  /-- `pseudo_device_read`: the application dropped its connection -/
  | dropPty (id : Nat)
  | watchdog (ans : Answer)
  deriving DecidableEq, Repr

/-- The frame acknowledges a SABM of this session. -/
def acknowledges (s : Setup) (frame : Frame) : Bool :=
  gsm0710FrameIs gsm0710TypeUa frame.control && s.asked.contains frame.channel.toNat
    && !s.acked.contains frame.channel.toNat

/-- The channels acknowledged so far, with the one a frame adds. -/
def ackedAfter (s : Setup) (frame : Frame) : List Nat :=
  if acknowledges s frame then frame.channel.toNat :: s.acked else s.acked

def setupStep (b : Build) (cmuxN1 : Int) (virPorts : Nat) (s : Setup) : SetupAct → Option Setup
  | .receive frame =>
    if isInformation frame then none
    else (controlFrame b s.muxd frame).map fun m =>
      { s with
        muxd := m
        acked := ackedAfter s frame }
  | .closeDown => some { s with muxd := { s.muxd with serialState := .peerClosing } }
  | .dropPty id =>
    s.muxd.channellist[id]?.map fun channel =>
      { s with
        muxd := s.muxd.setChannel id { channel with fd := -1, ptsname := none, reopen := true } }
  | .watchdog ans => watchStep b cmuxN1 virPorts s ans

/-! ## When the flag is set -/

/-- Every channel the set-up has to open is acknowledged. -/
def allAcknowledged (b : Build) (s : Setup) : Bool :=
  (requiredChannels b).all s.acked.contains

/-- `extract_frames` gets to `++sabm_ua_received`. -/
def countsUa (m : Muxd) (frame : Frame) : Bool :=
  gsm0710FrameIs gsm0710TypeUa frame.control &&
    m.channellist[frame.channel.toNat]?.any fun channel => !channel.opened && channel.sabmUaPending

/-- The step counts a UA and gets to `mux_setup_chnl_complete = 1`. -/
def setsComplete (b : Build) (s : Setup) : SetupAct → Bool
  | .receive frame =>
    countsUa s.muxd frame && (s.muxd.sabmUaReceived + 1) % 2 ^ 32 == expectedUas b
  | _ => false

/-- The workaround for a missing ATCI channel sets the flag. -/
def refusesAtci (s : Setup) : SetupAct → Bool
  | .receive frame =>
    gsm0710FrameIs gsm0710TypeDm frame.control &&
      s.muxd.channellist[frame.channel.toNat]?.any fun channel =>
        frame.channel.toNat == 26 && !channel.opened
  | _ => false

/-! ## Counting every channel once -/

/-- The channel a step sends a SABM for. -/
def asks (b : Build) (s : Setup) : SetupAct → Option Nat
  | .watchdog ans =>
    match s.watch with
    | .control => if ans.ok then some 0 else none
    | .alloc (_ + 1) => if ans.ok then cAllocChannel b s.muxd else none
    | _ => none
  | _ => none

/-- A SABM is sent for a channel that was acknowledged already. -/
def asksAgain (b : Build) (s : Setup) (act : SetupAct) : Bool :=
  (asks b s act).any s.acked.contains

/-- A session begins after UAs of another one were counted. -/
def restartsCounted (s : Setup) : SetupAct → Bool
  | .watchdog _ => s.watch == .idle && s.muxd.serialState == .opening && !s.acked.isEmpty
  | _ => false

/-- The modem opens a channel itself before it has acknowledged it. -/
def opensFirst (s : Setup) : SetupAct → Bool
  | .receive frame =>
    gsm0710FrameIs gsm0710TypeSabm frame.control && !s.acked.contains frame.channel.toNat
  | _ => false

/-- The channel for video telephony is acknowledged before another one. -/
def countsVt (b : Build) (s : Setup) : SetupAct → Bool
  | .receive frame =>
    b.androidVtSupport && acknowledges s frame && frame.channel.toNat == muxdVtChNum &&
      !allAcknowledged b s
  | _ => false

def countsOnce (b : Build) (s : Setup) (act : SetupAct) : Prop :=
  asksAgain b s act = false ∧ restartsCounted s act = false ∧ opensFirst s act = false ∧
    countsVt b s act = false

instance (b : Build) (s : Setup) (act : SetupAct) : Decidable (countsOnce b s act) :=
  inferInstanceAs (Decidable (_ ∧ _ ∧ _ ∧ _))

/-! ## The configuration table -/

/-- The switches see at most four SIMs. -/
theorem chCfg_clip (b : Build) : chCfg { b with simCount := min b.simCount 4 } = chCfg b := by
  simp [chCfg]

theorem muxdChNumAll_clip (b : Build) :
    muxdChNumAll { b with simCount := min b.simCount 4 } = muxdChNumAll b := by
  have hone : min b.simCount 4 < 2 ↔ b.simCount < 2 := by omega
  simp [muxdChNumAll, hone]

/-- What is checked for up to four SIMs holds for every build. -/
theorem forall_build {p : Build → Prop}
    (hclip : ∀ b, p { b with simCount := min b.simCount 4 } → p b)
    (h : ∀ (sims : Fin 5) (md2 vt md5 csd volte : Bool), p ⟨sims, md2, vt, md5, csd, volte⟩)
    (b : Build) : p b :=
  hclip b (h ⟨min b.simCount 4, by omega⟩ b.rilMd2 b.androidVtSupport b.enableMd5
    b.csdDialerSupport b.tc1Volte)

theorem configuredChannels_clip (b : Build) :
    configuredChannels { b with simCount := min b.simCount 4 } = configuredChannels b := by
  rw [configuredChannels, configuredChannels, chCfg_clip, muxdChNumAll_clip]

/-- The DLCIs of `ch_cfg[]` in the order in which every build lists its own. -/
def dlciOrder : List Nat :=
  [0, 1, 2, 3, 4, 5, 25, 26, 6, 7, 8, 9, 10, 27, 11, 12, 13, 14, 15, 28, 16, 17, 18, 19, 20, 29,
    24, 30, 31, 32, 33, 34]

theorem configuredChannels_sublist (b : Build) : (configuredChannels b).Sublist dlciOrder :=
  forall_build (p := fun b => (configuredChannels b).Sublist dlciOrder)
    (fun b h => by rwa [configuredChannels_clip] at h) (by decide +kernel) b

theorem configuredChannels_nodup (b : Build) : (configuredChannels b).Nodup := by
  have hnodup : dlciOrder.Nodup := by decide +kernel
  exact hnodup.sublist (configuredChannels_sublist b)

theorem zero_mem_configuredChannels (b : Build) : 0 ∈ configuredChannels b := by
  -- the control channel is the first entry, and at least one is looked at
  have hpos : muxdChNumAll b = muxdChNumAll b - 1 + 1 := by
    simp only [muxdChNumAll]
    omega
  rw [configuredChannels, hpos, chCfg, take_succ_cons, map_cons]
  exact mem_cons_self

theorem configuredChannels_length (b : Build) : (configuredChannels b).length < 2 ^ 32 - 1 := by
  have hle : (configuredChannels b).length ≤ 32 := (configuredChannels_sublist b).length_le
  omega

/-- As many UAs are expected as channels are required, except on the second
modem with video telephony or more than two SIMs. -/
theorem requiredChannels_length {b : Build}
    (h : b.rilMd2 = true → b.androidVtSupport = false ∧ b.simCount < 3) :
    (requiredChannels b).length = expectedUas b := by
  revert h
  refine forall_build (p := fun b => (b.rilMd2 = true → b.androidVtSupport = false ∧
    b.simCount < 3) → (requiredChannels b).length = expectedUas b) ?_ (by decide +kernel) b
  intro b hclip h
  have hlen := hclip fun hmd2 => ⟨(h hmd2).1, by have := (h hmd2).2; dsimp only; omega⟩
  rwa [requiredChannels, configuredChannels_clip, expectedUas, muxdChNumAll_clip] at hlen

/-! ## What a step of the watchdog can do -/

variable {b : Build} {cmuxN1 : Int} {virPorts id : Nat} {s s' : Setup} {act : SetupAct}
  {ans : Answer} {m m' : Muxd} {frame : Frame}

/-- Only a received frame counts and completes. -/
structure Unmoved (m m' : Muxd) : Prop where
  count : m'.sabmUaReceived = m.sabmUaReceived
  complete : m'.muxSetupChnlComplete = m.muxSetupChnlComplete

/-- The table is left alone, one entry changes without its handshake or is
closed, one channel is asked for, or everything begins again. -/
inductive Effect (b : Build) (s : Setup) (act : SetupAct) (s' : Setup) : Prop where
  | keep : s'.muxd.channellist = s.muxd.channellist → s'.asked = s.asked → s'.acked = s.acked →
      Unmoved s.muxd s'.muxd → Effect b s act s'
  | entry (id : Nat) (channel channel' : Channel) :
      s.muxd.channellist[id]? = some channel →
      s'.muxd.channellist = s.muxd.channellist.set id channel' →
      (channel'.opened = channel.opened ∧ channel'.sabmUaPending = channel.sabmUaPending) ∨
        (channel.opened = true ∧ channel' = logicalChannelClose channel) →
      s'.asked = s.asked → s'.acked = s.acked → Unmoved s.muxd s'.muxd → Effect b s act s'
  | ask (id : Nat) (channel channel' : Channel) :
      asks b s act = some id → s.muxd.channellist[id]? = some channel →
      s'.muxd.channellist = s.muxd.channellist.set id channel' →
      channel'.opened = channel.opened → channel'.sabmUaPending = true →
      s'.asked = id :: s.asked → s'.acked = s.acked → Unmoved s.muxd s'.muxd → Effect b s act s'
  | restart (cmuxN1 : Int) (ans : Answer) :
      act = .watchdog ans → s.watch = .idle → s.muxd.serialState = .opening →
      s'.muxd.channellist = (openSerialDevice b cmuxN1 s.muxd).channellist →
      s'.asked = [] → s'.acked = [] → Unmoved s.muxd s'.muxd → Effect b s act s'

/-- Sending a frame counts nothing. -/
theorem rxThreadWriteFrame_unmoved {channel : Nat} {input : List UInt8} {type : UInt8}
    (h : rxThreadWriteFrame m channel input type = some m') : Unmoved m m' where
  count := rxThreadWriteFrame_blind (f := Muxd.sabmUaReceived) (fun _ _ _ _ _ _ => rfl) h
  complete := rxThreadWriteFrame_blind (f := Muxd.muxSetupChnlComplete) (fun _ _ _ _ _ _ => rfl) h

/-- `logical_channel_establish` leaves a SABM pending on its channel. -/
theorem logicalChannelEstablish_inv {fd : Nat} {ptsname : String}
    (h : logicalChannelEstablish m id fd ptsname = some m') :
    ∃ channel channel', m.channellist[id]? = some channel ∧
      m'.channellist = m.channellist.set id channel' ∧ channel'.opened = channel.opened ∧
      channel'.sabmUaPending = true ∧ Unmoved m m' := by
  unfold logicalChannelEstablish at h
  split at h
  · cases h
  · next channel hget =>
    have hun := rxThreadWriteFrame_unmoved h
    refine ⟨channel, _, hget, rxThreadWriteFrame_channellist h, ?_, ?_, hun.count, hun.complete⟩
    · split <;> rfl
    · split <;> rfl

theorem watchIdle_effect (b : Build) (cmuxN1 : Int) (ans : Answer) (hidle : s.watch = .idle) :
    Effect b s (.watchdog ans) (watchIdle b cmuxN1 s ans) := by
  unfold watchIdle
  split
  · next hopening =>
    split
    · exact .restart cmuxN1 ans rfl hidle hopening rfl rfl rfl ⟨rfl, rfl⟩
    · exact .restart cmuxN1 ans rfl hidle hopening rfl rfl rfl ⟨rfl, rfl⟩
  all_goals exact .keep rfl rfl rfl ⟨rfl, rfl⟩

/-- `close_devices` sends its DISC or its close down and keeps the handshake. -/
theorem closeDevice_effect (h : closeDevice s.muxd id = some m) (watch : Watch) :
    Effect b s act { s with muxd := m, watch := watch } := by
  unfold closeDevice at h
  split at h
  · cases h
  · next channel hget =>
    split at h
    · split at h
      · exact .keep (rxThreadWriteFrame_channellist h) rfl rfl (rxThreadWriteFrame_unmoved h)
      · have hun := rxThreadWriteFrame_unmoved h
        exact .entry id channel _ hget (rxThreadWriteFrame_channellist h) (.inl ⟨rfl, rfl⟩) rfl rfl
          ⟨hun.count, hun.complete⟩
    · cases h
      exact .keep rfl rfl rfl ⟨rfl, rfl⟩

theorem closeDown_effect {discSent : Nat}
    (h : closeDown s discSent = some s') : Effect b s act s' := by
  unfold closeDown at h
  split at h
  · obtain ⟨m, hsent, rfl⟩ := Option.map_eq_some_iff.mp h
    split at hsent
    all_goals
      have hlist := rxThreadWriteFrame_channellist hsent
      have hun := rxThreadWriteFrame_unmoved hsent
      exact .keep hlist rfl rfl ⟨hun.count, hun.complete⟩
  · cases h
    exact .keep rfl rfl rfl ⟨rfl, rfl⟩

theorem shutDown_effect (h : shutDown s = some s') : Effect b s act s' := by
  unfold shutDown at h
  split at h
  · obtain ⟨m, hsent, rfl⟩ := Option.map_eq_some_iff.mp h
    have hlist := rxThreadWriteFrame_channellist hsent
    have hun := rxThreadWriteFrame_unmoved hsent
    exact .keep hlist rfl rfl ⟨hun.count, hun.complete⟩
  · cases h
    exact .keep rfl rfl rfl ⟨rfl, rfl⟩

/-- A PTY changes, the handshake does not. -/
theorem effect_pty {channel : Channel} (hget : s.muxd.channellist[id]? = some channel)
    (channel' : Channel) (hopened : channel'.opened = channel.opened)
    (hpending : channel'.sabmUaPending = channel.sabmUaPending) (watch : Watch) :
    Effect b s act { s with muxd := s.muxd.setChannel id channel', watch := watch } :=
  .entry id channel channel' hget rfl (.inl ⟨hopened, hpending⟩) rfl rfl ⟨rfl, rfl⟩

theorem effect_establish {fd : Nat} {ptsname : String} (hasks : asks b s act = some id)
    (h : logicalChannelEstablish s.muxd id fd ptsname = some m) (watch : Watch) :
    Effect b s act { s with muxd := m, watch := watch, asked := id :: s.asked } := by
  obtain ⟨channel, channel', hget, hlist, hopened, hpending, hun⟩ :=
    logicalChannelEstablish_inv h
  exact .ask id channel channel' hasks hget hlist hopened hpending rfl rfl hun

theorem watchStep_effect
    (h : watchStep b cmuxN1 virPorts s ans = some s') : Effect b s (.watchdog ans) s' := by
  unfold watchStep at h
  split at h
  · next hidle =>
    cases h
    exact watchIdle_effect b cmuxN1 ans hidle
  · split at h <;> cases h <;> exact .keep rfl rfl rfl ⟨rfl, rfl⟩
  · next hwatch =>
    split at h
    · next hok =>
      obtain ⟨m, hm, rfl⟩ := Option.map_eq_some_iff.mp h
      exact effect_establish (by simp [asks, hwatch, hok]) hm _
    · cases h
      exact .keep rfl rfl rfl ⟨rfl, rfl⟩
  · cases h
    exact .keep rfl rfl rfl ⟨rfl, rfl⟩
  · next left hwatch =>
    split at h
    · cases h
      exact .keep rfl rfl rfl ⟨rfl, rfl⟩
    · next id hid =>
      split at h
      · next hok =>
        obtain ⟨m, hm, rfl⟩ := Option.map_eq_some_iff.mp h
        exact effect_establish (by simp [asks, hwatch, hok, hid]) hm _
      · obtain ⟨m, hm, rfl⟩ := Option.map_eq_some_iff.mp h
        obtain ⟨channel, hget, rfl⟩ := Option.map_eq_some_iff.mp hm
        exact effect_pty hget (setupPtyInterface channel ans) rfl rfl _
  · cases h
    exact .keep rfl rfl rfl ⟨rfl, rfl⟩
  · next id _ =>
    split at h
    · next channel hget =>
      cases h
      refine effect_pty hget _ ?_ ?_ _
      · split <;> rfl
      · split <;> rfl
    · cases h
      refine .keep ?_ rfl rfl ⟨?_, ?_⟩ <;> dsimp only <;> split <;> rfl
  · next id discSent _ =>
    split at h
    · obtain ⟨m, hm, rfl⟩ := Option.map_eq_some_iff.mp h
      exact closeDevice_effect hm _
    · exact closeDown_effect h
  · next id _ =>
    split at h
    · next channel hget =>
      cases h
      refine .entry id channel _ hget rfl ?_ rfl rfl ⟨rfl, rfl⟩
      split
      · next hopen => exact .inr ⟨hopen.2, rfl⟩
      · exact .inl ⟨rfl, rfl⟩
    · exact shutDown_effect h

theorem setupStep_effect (hact : ∀ frame, act ≠ .receive frame)
    (h : setupStep b cmuxN1 virPorts s act = some s') : Effect b s act s' := by
  cases act with
  | receive frame => exact absurd rfl (hact frame)
  | closeDown =>
    cases h
    exact .keep rfl rfl rfl ⟨rfl, rfl⟩
  | dropPty id =>
    obtain ⟨channel, hget, rfl⟩ := Option.map_eq_some_iff.mp h
    exact .entry id channel _ hget rfl (.inl ⟨rfl, rfl⟩) rfl rfl ⟨rfl, rfl⟩
  | watchdog ans => exact watchStep_effect h

/-! ## What a received frame counts -/

theorem uaFrame_count (b : Build) (m : Muxd) (id : Nat) (channel : Channel) :
    (uaFrame b m id channel).sabmUaReceived
        = (if channel.opened = false ∧ channel.sabmUaPending = true then
            (m.sabmUaReceived + 1) % 2 ^ 32 else m.sabmUaReceived) ∧
      (uaFrame b m id channel).muxSetupChnlComplete
        = (m.muxSetupChnlComplete || (decide (channel.opened = false ∧
            channel.sabmUaPending = true) &&
              (m.sabmUaReceived + 1) % 2 ^ 32 == expectedUas b)) := by
  unfold uaFrame expectedUas
  by_cases hcounts : channel.opened = false ∧ channel.sabmUaPending = true
  · simp [hcounts]
  · simp only [if_neg hcounts, decide_eq_false hcounts, Bool.false_and, Bool.or_false]
    exact ⟨rfl, rfl⟩

theorem dmFrame_count (m : Muxd) (id : Nat) (channel : Channel) :
    (dmFrame m id channel).sabmUaReceived = m.sabmUaReceived ∧
      (dmFrame m id channel).muxSetupChnlComplete
        = (m.muxSetupChnlComplete || (id == 26 && !channel.opened)) := by
  unfold dmFrame
  split
  · next hopened => simp [hopened, Muxd.setChannel]
  · split
    · next hid => simp [hid, Muxd.setChannel]
    · split
      · next hopened _ hid => simp [hid, hopened, Muxd.setChannel]
      · next hid => simp [hid, Muxd.setChannel]

theorem discFrame_unmoved {channel : Channel} (h : discFrame m id channel = some m') :
    Unmoved m m' := by
  unfold discFrame at h
  split at h
  · obtain ⟨m₁, hsent, rfl⟩ := Option.map_eq_some_iff.mp h
    have hun := rxThreadWriteFrame_unmoved hsent
    split
    · exact ⟨hun.count, hun.complete⟩
    · exact ⟨hun.count, hun.complete⟩
  · exact rxThreadWriteFrame_unmoved h

/-- A control octet is of one type. -/
theorem gsm0710FrameIs_unique {type type' control : UInt8} (h : gsm0710FrameIs type control = true)
    (hne : type ≠ type') : gsm0710FrameIs type' control = false := by
  refine Bool.eq_false_iff.mpr fun h' => hne ?_
  exact (eq_of_beq h).symm.trans (eq_of_beq h')

theorem controlFrame_count (h : controlFrame b s.muxd frame = some m') :
    m'.sabmUaReceived = (if countsUa s.muxd frame then (s.muxd.sabmUaReceived + 1) % 2 ^ 32
        else s.muxd.sabmUaReceived) ∧
      m'.muxSetupChnlComplete = (s.muxd.muxSetupChnlComplete || setsComplete b s (.receive frame) ||
        refusesAtci s (.receive frame)) := by
  unfold controlFrame at h
  split at h
  · cases h
  · next channel hget =>
    by_cases hua : gsm0710FrameIs gsm0710TypeUa frame.control = true
    · have hdm := gsm0710FrameIs_unique hua (by decide : gsm0710TypeUa ≠ gsm0710TypeDm)
      rw [if_pos hua] at h
      obtain ⟨hcount, hcomplete⟩ := uaFrame_count b s.muxd frame.channel.toNat channel
      rw [← Option.some.inj h, hcount, hcomplete]
      simp [setsComplete, refusesAtci, countsUa, hua, hdm, hget]
    have hnot : countsUa s.muxd frame = false := by simp [countsUa, hua]
    rw [if_neg (by simp [hua])] at h
    by_cases hdm : gsm0710FrameIs gsm0710TypeDm frame.control = true
    · rw [if_pos hdm] at h
      obtain ⟨hcount, hcomplete⟩ := dmFrame_count s.muxd frame.channel.toNat channel
      rw [← Option.some.inj h, hcount, hcomplete]
      simp [setsComplete, refusesAtci, hnot, hdm, hget]
    rw [if_neg (by simp [hdm])] at h
    have hun : Unmoved s.muxd m' := by
      split at h
      · exact discFrame_unmoved h
      · split at h
        · have hun := rxThreadWriteFrame_unmoved h
          exact ⟨hun.count, hun.complete⟩
        · cases h
          exact ⟨rfl, rfl⟩
    rw [hun.count, hun.complete]
    simp [setsComplete, refusesAtci, hnot, hdm]

/-! ## The count and the acknowledged channels -/

/-- The handshake of a channel says whether it was asked for and
acknowledged. -/
structure Entry (asked acked : Prop) (channel : Channel) : Prop where
  opened : channel.opened = true → acked
  pending : channel.sabmUaPending = true ↔ asked ∧ ¬ acked

section Entry

variable {asked acked : Prop} {channel channel' : Channel}

theorem Entry.of_same (h : Entry asked acked channel) (hopened : channel'.opened = channel.opened)
    (hpending : channel'.sabmUaPending = channel.sabmUaPending) : Entry asked acked channel' where
  opened := by rw [hopened]; exact h.opened
  pending := by rw [hpending]; exact h.pending

/-- Only acknowledged channels are open, so only those are closed. -/
theorem Entry.close (h : Entry asked acked channel) (hopened : channel.opened = true) :
    Entry asked acked (logicalChannelClose channel) where
  opened := fun hfalse => by cases hfalse
  pending := ⟨fun hfalse => (by cases hfalse), fun hasked => absurd (h.opened hopened) hasked.2⟩

theorem Entry.ask (h : Entry asked acked channel) (hopened : channel'.opened = channel.opened)
    (hpending : channel'.sabmUaPending = true) (hacked : ¬ acked) : Entry True acked channel' where
  opened := by rw [hopened]; exact h.opened
  pending := by simp [hpending, hacked]

theorem Entry.pending_false (h : Entry asked acked channel) (hacked : acked) :
    channel.sabmUaPending = false :=
  Bool.eq_false_iff.mpr fun hpending => (h.pending.mp hpending).2 hacked

/-- A UA acknowledges the channel if it was asked for. -/
theorem Entry.ua (h : Entry asked acked channel) :
    Entry asked (acked ∨ asked) (uaChannel channel) := by
  -- nothing is pending behind a UA
  have hdone : ∀ {channel' : Channel}, (channel'.opened = true → acked ∨ asked) →
      channel'.sabmUaPending = false → Entry asked (acked ∨ asked) channel' := by
    intro channel' hopened hpending
    refine ⟨hopened, fun htrue => ?_, fun hand => absurd (.inr hand.1) hand.2⟩
    cases hpending.symm.trans htrue
  unfold uaChannel
  split
  · next hopened =>
    have hacked := h.opened hopened
    split
    · exact hdone (fun hfalse => by cases hfalse) rfl
    · exact hdone (fun _ => .inl hacked) (h.pending_false hacked)
  · next hopened =>
    split
    · next hpending => exact hdone (fun _ => .inr (h.pending.mp hpending).1) rfl
    · next hpending =>
      split
      · exact hdone (fun hopen => absurd hopen hopened) (by simpa using hpending)
      · exact hdone (fun hopen => absurd hopen hopened) (by simpa using hpending)

/-- Any other frame keeps the handshake, if the modem opens no channel
before it has acknowledged it. -/
theorem Entry.control (h : Entry asked acked channel)
    (hua : gsm0710FrameIs gsm0710TypeUa frame.control = false)
    (hsabm : gsm0710FrameIs gsm0710TypeSabm frame.control = true → acked) :
    Entry asked acked (controlChannel frame channel) := by
  unfold controlChannel
  rw [if_neg (by simp [hua])]
  split
  · unfold dmChannel
    split
    · next hopened => exact h.close hopened
    · exact h
  · split
    · unfold discChannel
      split
      · next hopened =>
        split
        · exact ⟨fun hfalse => (by cases hfalse), h.pending⟩
        · exact h.close hopened
      · exact h
    · split
      · next hsabm' => exact ⟨fun _ => hsabm hsabm', h.pending⟩
      · exact h

end Entry

/-- The count is the number of acknowledged channels. -/
structure Counted (b : Build) (s : Setup) : Prop where
  count : s.muxd.sabmUaReceived = s.acked.length
  nodup : s.acked.Nodup
  asked : s.asked ⊆ configuredChannels b
  acked : s.acked ⊆ s.asked
  vt : b.androidVtSupport = true → muxdVtChNum ∈ s.acked → allAcknowledged b s = true
  entry : ∀ id channel, s.muxd.channellist[id]? = some channel →
    Entry (id ∈ s.asked) (id ∈ s.acked) channel

theorem counted_start (b : Build) (m : Muxd) : Counted b (Setup.start b m) where
  count := rfl
  nodup := nodup_nil
  asked := nil_subset _
  acked := nil_subset _
  vt := fun _ hmem => absurd hmem not_mem_nil
  entry := by
    intro id channel hget
    have hzero : channel = Channel.zero :=
      eq_of_mem_replicate (mem_of_getElem? hget)
    subst hzero
    exact ⟨fun hfalse => (by cases hfalse), by simp [Channel.zero, Setup.start]⟩

/-- SABMs go to configured channels only. -/
theorem asks_configured (h : asks b s act = some id) : id ∈ configuredChannels b := by
  unfold asks at h
  split at h
  · split at h
    · split at h
      · cases h
        exact zero_mem_configuredChannels b
      · cases h
    · split at h
      · unfold cAllocChannel at h
        split at h
        · split at h
          · next hfind =>
            cases h
            exact mem_of_mem_tail (mem_of_find?_eq_some hfind)
          · split at h
            · exact mem_of_mem_tail (mem_of_getLast? h)
            · cases h
        · cases h
      · cases h
    · cases h
  · cases h

theorem Counted.effect (h : Counted b s) (honce : asksAgain b s act = false)
    (hrestart : restartsCounted s act = false) (heffect : Effect b s act s') : Counted b s' := by
  -- with the channels kept, the entries are left
  have hkeep : s'.asked = s.asked → s'.acked = s.acked → Unmoved s.muxd s'.muxd →
      (∀ id channel, s'.muxd.channellist[id]? = some channel →
        Entry (id ∈ s.asked) (id ∈ s.acked) channel) → Counted b s' := by
    intro hasked hacked hun hentry
    refine ⟨?_, ?_, ?_, ?_, ?_, ?_⟩
    · rw [hun.count, hacked, h.count]
    · rw [hacked]; exact h.nodup
    · rw [hasked]; exact h.asked
    · rw [hasked, hacked]; exact h.acked
    · unfold allAcknowledged
      rw [hacked]
      exact h.vt
    · rw [hasked, hacked]; exact hentry
  cases heffect with
  | keep hlist hasked hacked hun => exact hkeep hasked hacked hun (by rw [hlist]; exact h.entry)
  | entry id channel channel' hget hlist hchange hasked hacked hun =>
    refine hkeep hasked hacked hun ?_
    rw [hlist]
    refine forall_entry_set (fun id' channel₁ _ hget' => h.entry id' channel₁ hget') ?_
    have hold := h.entry id channel hget
    rcases hchange with ⟨hopened, hpending⟩ | ⟨hopened, rfl⟩
    · exact hold.of_same hopened hpending
    · exact hold.close hopened
  | ask id channel channel' hasks hget hlist hopened hpending hasked hacked hun =>
    have hnot : id ∉ s.acked := by
      intro hmem
      simp [asksAgain, hasks, hmem] at honce
    refine ⟨?_, ?_, ?_, ?_, ?_, ?_⟩
    · rw [hun.count, hacked, h.count]
    · rw [hacked]; exact h.nodup
    · rw [hasked]
      exact cons_subset.mpr ⟨asks_configured hasks, h.asked⟩
    · rw [hasked, hacked]
      exact subset_cons_of_subset id h.acked
    · unfold allAcknowledged
      rw [hacked]
      exact h.vt
    · rw [hlist, hasked, hacked]
      refine forall_entry_set ?_ ?_
      · intro id' channel₁ hne hget'
        simpa [hne] using h.entry id' channel₁ hget'
      · simpa using (h.entry id channel hget).ask hopened hpending hnot
  | restart cmuxN1 ans hact hidle hopening hlist hasked hacked hun =>
    have hnil : s.acked = [] := by simpa [restartsCounted, hact, hidle, hopening] using hrestart
    refine ⟨?_, ?_, ?_, ?_, ?_, ?_⟩
    · rw [hun.count, hacked, h.count, hnil]
    · rw [hacked]; exact nodup_nil
    · rw [hasked]; exact nil_subset _
    · rw [hacked]; exact nil_subset _
    · rw [hacked]; exact fun _ hmem => absurd hmem not_mem_nil
    · intro id channel hget
      rw [hlist, openSerialDevice, List.getElem?_mapIdx] at hget
      obtain ⟨old, -, rfl⟩ := Option.map_eq_some_iff.mp hget
      rw [hasked, hacked]
      exact ⟨fun hfalse => (by cases hfalse),
        by simp [logicalChannelInit, fcInitContext, logicalChannelClose, fcCloseContext]⟩

/-- What is counted is what is acknowledged. -/
theorem Counted.countsUa_eq {channel : Channel}
    (h : Counted b s) (hget : s.muxd.channellist[frame.channel.toNat]? = some channel) :
    countsUa s.muxd frame = acknowledges s frame := by
  have hentry := h.entry _ _ hget
  have hiff : (!channel.opened && channel.sabmUaPending) = true ↔
      frame.channel.toNat ∈ s.asked ∧ frame.channel.toNat ∉ s.acked := by
    rw [Bool.and_eq_true_iff, hentry.pending]
    refine ⟨And.right, fun hand => ⟨?_, hand⟩⟩
    rw [Bool.not_eq_true']
    exact Bool.eq_false_iff.mpr fun hopened => hand.2 (hentry.opened hopened)
  rw [Bool.eq_iff_iff, countsUa, hget, Option.any_some, Bool.and_eq_true_iff, hiff]
  simp [acknowledges, and_assoc]

theorem ackedAfter_nodup (h : s.acked.Nodup) (frame : Frame) : (ackedAfter s frame).Nodup := by
  unfold ackedAfter
  split
  · next hack =>
    simp only [acknowledges, Bool.and_eq_true_iff, Bool.not_eq_true', contains_eq_mem,
      decide_eq_false_iff_not] at hack
    exact nodup_cons.mpr ⟨hack.2, h⟩
  · exact h

theorem ackedAfter_subset (h : s.acked ⊆ s.asked) (frame : Frame) :
    ackedAfter s frame ⊆ s.asked := by
  unfold ackedAfter
  split
  · next hack =>
    simp only [acknowledges, Bool.and_eq_true_iff, contains_eq_mem, decide_eq_true_eq] at hack
    exact cons_subset.mpr ⟨hack.1.2, h⟩
  · exact h

/-- A UA acknowledges its channel if that was asked for; nothing else does. -/
theorem mem_ackedAfter (s : Setup) (frame : Frame) (id : Nat) :
    id ∈ ackedAfter s frame ↔ id ∈ s.acked ∨
      (id = frame.channel.toNat ∧ gsm0710FrameIs gsm0710TypeUa frame.control = true ∧
        id ∈ s.asked) := by
  unfold ackedAfter
  by_cases hmem : frame.channel.toNat ∈ s.acked
  · rw [if_neg (by simp [acknowledges, hmem])]
    refine ⟨.inl, fun h => h.elim (fun hin => hin) ?_⟩
    rintro ⟨rfl, -⟩
    exact hmem
  · by_cases hack : acknowledges s frame = true
    · rw [if_pos hack]
      simp only [acknowledges, Bool.and_eq_true_iff, contains_eq_mem,
        decide_eq_true_eq] at hack
      rw [mem_cons, or_comm]
      refine or_congr_right ⟨?_, And.left⟩
      rintro rfl
      exact ⟨rfl, hack.1.1, hack.1.2⟩
    · rw [if_neg hack]
      refine ⟨.inl, fun h => h.elim (fun hin => hin) ?_⟩
      rintro ⟨rfl, hua, hasked⟩
      exact absurd (by simp [acknowledges, hua, hasked, hmem]) hack

/-- A received frame that is no information goes to `controlFrame`. -/
theorem setupStep_receive (hstep : setupStep b cmuxN1 virPorts s (.receive frame) = some s') :
    ∃ m, controlFrame b s.muxd frame = some m
      ∧ { s with muxd := m, acked := ackedAfter s frame } = s' := by
  obtain ⟨-, hframe⟩ := Option.ite_none_left_eq_some.mp hstep
  exact Option.map_eq_some_iff.mp hframe

theorem Counted.receive (h : Counted b s) (hopens : opensFirst s (.receive frame) = false)
    (hvt : countsVt b s (.receive frame) = false)
    (hstep : setupStep b cmuxN1 virPorts s (.receive frame) = some s') : Counted b s' := by
  obtain ⟨m, hframe, rfl⟩ := setupStep_receive hstep
  obtain ⟨channel, hget, hlist⟩ := controlFrame_channellist hframe
  obtain ⟨hcount, -⟩ := controlFrame_count hframe
  have hnodup := ackedAfter_nodup h.nodup frame
  have hsub := ackedAfter_subset h.acked frame
  refine ⟨?_, hnodup, h.asked, hsub, ?_, ?_⟩
  · -- one more than the channels acknowledged before, and far below the wrap
    have hlen : (ackedAfter s frame).length ≤ (configuredChannels b).length :=
      (hnodup.subperm (List.Subset.trans hsub h.asked)).length_le
    have hbound := configuredChannels_length b
    show m.sabmUaReceived = (ackedAfter s frame).length
    rw [hcount, h.countsUa_eq hget, h.count]
    unfold ackedAfter at hlen ⊢
    split
    · next hack =>
      rw [if_pos hack, length_cons] at hlen
      rw [length_cons]
      omega
    · rfl
  · intro hsupport hmem
    have hall : ∀ {s' : Setup}, s.acked ⊆ s'.acked → allAcknowledged b s = true →
        allAcknowledged b s' = true := by
      intro s' hle hold
      simp only [allAcknowledged, all_eq_true, contains_eq_mem,
        decide_eq_true_eq] at hold ⊢
      exact fun id hid => hle (hold id hid)
    refine hall (fun id hid => (mem_ackedAfter s frame id).mpr (.inl hid)) ?_
    by_cases hbefore : muxdVtChNum ∈ s.acked
    · exact h.vt hsupport hbefore
    · by_cases hack : acknowledges s frame = true
      · have hmem : muxdVtChNum ∈ frame.channel.toNat :: s.acked := by
          rwa [show ackedAfter s frame = _ from if_pos hack] at hmem
        have hid : frame.channel.toNat = muxdVtChNum :=
          ((mem_cons.mp hmem).resolve_right hbefore).symm
        simpa [countsVt, hsupport, hack, hid] using hvt
      · exact absurd (by rwa [show ackedAfter s frame = _ from if_neg hack] at hmem) hbefore
  · show ∀ id channel, m.channellist[id]? = some channel →
      Entry (id ∈ s.asked) (id ∈ ackedAfter s frame) channel
    rw [hlist]
    refine forall_entry_set ?_ ?_
    · intro id channel' hne hget'
      have hiff : id ∈ ackedAfter s frame ↔ id ∈ s.acked := by
        rw [mem_ackedAfter]
        simp [hne]
      rw [hiff]
      exact h.entry id channel' hget'
    · have hold := h.entry _ _ hget
      by_cases hua : gsm0710FrameIs gsm0710TypeUa frame.control = true
      · have hiff : frame.channel.toNat ∈ ackedAfter s frame ↔
            frame.channel.toNat ∈ s.acked ∨ frame.channel.toNat ∈ s.asked := by
          rw [mem_ackedAfter]
          simp [hua]
        rw [hiff, controlChannel, if_pos hua]
        exact hold.ua
      · have hiff : frame.channel.toNat ∈ ackedAfter s frame ↔ frame.channel.toNat ∈ s.acked := by
          rw [mem_ackedAfter]
          simp [hua]
        rw [hiff]
        refine hold.control (by simpa using hua) fun hsabm => ?_
        simpa [opensFirst, hsabm] using hopens

theorem allAcknowledged_iff : allAcknowledged b s = true ↔ requiredChannels b ⊆ s.acked := by
  simp [allAcknowledged, subset_def]

theorem requiredChannels_nodup (b : Build) : (requiredChannels b).Nodup := by
  unfold requiredChannels
  split
  · exact (configuredChannels_nodup b).filter _
  · exact configuredChannels_nodup b

/-- Without the channel for video telephony only required channels are
acknowledged. -/
theorem Counted.acked_required (h : Counted b s)
    (hvt : b.androidVtSupport = true → muxdVtChNum ∉ s.acked) : s.acked ⊆ requiredChannels b := by
  intro id hid
  have hconf : id ∈ configuredChannels b := h.asked (h.acked hid)
  unfold requiredChannels
  split
  · next hsupport =>
    have hne : id ≠ muxdVtChNum := fun heq => hvt hsupport (heq ▸ hid)
    exact mem_filter.mpr ⟨hconf, by simpa using hne⟩
  · exact hconf

/-- When as many UAs are counted as channels are required, those channels are
acknowledged. -/
theorem Counted.all_of_length (h : Counted b s)
    (hlen : (requiredChannels b).length ≤ s.acked.length) : allAcknowledged b s = true := by
  by_cases hvt : b.androidVtSupport = true ∧ muxdVtChNum ∈ s.acked
  · exact h.vt hvt.1 hvt.2
  · have hsub := h.acked_required fun hsupport hmem => hvt ⟨hsupport, hmem⟩
    exact allAcknowledged_iff.mpr ((h.nodup.subperm hsub).perm_of_length_le hlen).symm.subset

theorem Counted.length_of_all (h : Counted b s)
    (hvt : b.androidVtSupport = true → muxdVtChNum ∉ s.acked) (hall : allAcknowledged b s = true) :
    s.acked.length = (requiredChannels b).length :=
  Nat.le_antisymm (h.nodup.subperm (h.acked_required hvt)).length_le
    ((requiredChannels_nodup b).subperm (allAcknowledged_iff.mp hall)).length_le

theorem Counted.step (h : Counted b s) (honce : countsOnce b s act)
    (hstep : setupStep b cmuxN1 virPorts s act = some s') : Counted b s' := by
  obtain ⟨hasks, hrestart, hopens, hvt⟩ := honce
  by_cases hact : ∃ frame, act = .receive frame
  · obtain ⟨frame, rfl⟩ := hact
    exact h.receive hopens hvt hstep
  · exact h.effect hasks hrestart (setupStep_effect (fun frame heq => hact ⟨frame, heq⟩) hstep)

/-! ## The step that completes the set-up -/

/-- The UA that is counted last is the one that acknowledges the last
channel. -/
theorem Counted.completes (hlen : (requiredChannels b).length = expectedUas b) (h : Counted b s)
    (hvt : countsVt b s (.receive frame) = false) (h' : Counted b s')
    (hstep : setupStep b cmuxN1 virPorts s (.receive frame) = some s') :
    setsComplete b s (.receive frame) = true ↔
      allAcknowledged b s = false ∧ allAcknowledged b s' = true := by
  obtain ⟨m, hframe, rfl⟩ := setupStep_receive hstep
  obtain ⟨channel, hget, -⟩ := controlFrame_channellist hframe
  have hcounts := h.countsUa_eq hget
  have hcount := (controlFrame_count hframe).1
  have hlength := h'.count
  by_cases hack : acknowledges s frame = true
  · have hafter : ackedAfter s frame = frame.channel.toNat :: s.acked := if_pos hack
    have hsets : setsComplete b s (.receive frame) = true ↔
        s.acked.length + 1 = expectedUas b := by
      rw [hcounts, if_pos hack, hlength, hafter, length_cons] at hcount
      simp only [setsComplete, hcounts, hack, Bool.true_and, beq_iff_eq, ← hcount]
    rw [hsets]
    constructor
    · intro heq
      refine ⟨Bool.eq_false_iff.mpr fun hall => ?_, h'.all_of_length ?_⟩
      · have := ((requiredChannels_nodup b).subperm (allAcknowledged_iff.mp hall)).length_le
        omega
      · show _ ≤ (ackedAfter s frame).length
        rw [hafter, length_cons]
        omega
    · rintro ⟨hbefore, hall⟩
      have hnot : b.androidVtSupport = true → muxdVtChNum ∉ ackedAfter s frame := by
        intro hsupport hmem
        rw [hafter] at hmem
        rcases mem_cons.mp hmem with heq | hmem
        · simp [countsVt, hsupport, hack, ← heq, hbefore] at hvt
        · cases hbefore.symm.trans (h.vt hsupport hmem)
      have hall' := h'.length_of_all hnot hall
      rw [← hlen, ← hall']
      show _ = (ackedAfter s frame).length
      rw [hafter, length_cons]
  · have hafter : ackedAfter s frame = s.acked := if_neg hack
    have hsets : setsComplete b s (.receive frame) = false := by simp [setsComplete, hcounts, hack]
    rw [hsets]
    refine ⟨fun hfalse => (by cases hfalse), fun hand => ?_⟩
    have hall : allAcknowledged b s = true := by
      have hall := allAcknowledged_iff.mp hand.2
      rw [allAcknowledged_iff]
      exact fun id hid => hafter ▸ hall hid
    cases hand.1.symm.trans hall

/-- Nothing but a received frame acknowledges a channel or sets the flag. -/
theorem Effect.completes (h : Effect b s act s') :
    s'.muxd.muxSetupChnlComplete = s.muxd.muxSetupChnlComplete ∧
      (allAcknowledged b s' = true → allAcknowledged b s = true) := by
  have hsub : s'.acked ⊆ s.acked → allAcknowledged b s' = true → allAcknowledged b s = true :=
    fun hle hall => allAcknowledged_iff.mpr (List.Subset.trans (allAcknowledged_iff.mp hall) hle)
  cases h with
  | keep _ _ hacked hun => exact ⟨hun.complete, hsub (by rw [hacked]; exact List.Subset.refl _)⟩
  | entry _ _ _ _ _ _ _ hacked hun | ask _ _ _ _ _ _ _ _ _ hacked hun =>
    exact ⟨hun.complete, hsub (by rw [hacked]; exact List.Subset.refl _)⟩
  | restart _ _ _ _ _ _ _ hacked hun =>
    exact ⟨hun.complete, hsub (by rw [hacked]; exact nil_subset _)⟩

/-- **Completion of the set-up.** In a run that counts every channel once,
a step sets the flag, the workaround for the ATCI channel apart, exactly if it
acknowledges the last of the required channels. -/
theorem setup_complete {b : Build} {cmuxN1 : Int} {virPorts : Nat} {m : Muxd}
    (hbuild : b.rilMd2 = true → b.androidVtSupport = false ∧ b.simCount < 3)
    {acts : List SetupAct} {s s' : Setup} {act : SetupAct}
    (hrun : Run (setupStep b cmuxN1 virPorts) (countsOnce b) (Setup.start b m) acts s)
    (honce : countsOnce b s act) (hstep : setupStep b cmuxN1 virPorts s act = some s') :
    s'.muxd.muxSetupChnlComplete
        = (s.muxd.muxSetupChnlComplete || setsComplete b s act || refusesAtci s act) ∧
      (setsComplete b s act = true ↔ allAcknowledged b s = false ∧
        allAcknowledged b s' = true) := by
  have h : Counted b s :=
    hrun.invariant (fun _ _ _ h honce hstep => h.step honce hstep) (counted_start b m)
  by_cases hact : ∃ frame, act = .receive frame
  · obtain ⟨frame, rfl⟩ := hact
    refine ⟨?_, h.completes (requiredChannels_length hbuild) honce.2.2.2 (h.step honce hstep) hstep⟩
    obtain ⟨m', hframe, rfl⟩ := setupStep_receive hstep
    exact (controlFrame_count hframe).2
  · have hact : ∀ frame, act ≠ .receive frame := fun frame heq => hact ⟨frame, heq⟩
    obtain ⟨hflag, hall⟩ := (setupStep_effect hact hstep).completes
    have hsets : setsComplete b s act = false ∧ refusesAtci s act = false := by
      cases act with
      | receive frame => exact absurd rfl (hact frame)
      | closeDown | dropPty id | watchdog ans => exact ⟨rfl, rfl⟩
    rw [hsets.1, hsets.2, hflag]
    refine ⟨by simp, fun hfalse => (by cases hfalse), fun hand => ?_⟩
    cases hand.1.symm.trans (hall hand.2)

/-- A session in which everything the watchdog tries succeeds, and the modem
answers on these channels. -/
def sessionActs (virPorts : Nat) (uas : List Nat) : List SetupAct :=
  List.replicate (3 + virPorts) (.watchdog ⟨true, 3, "/dev/pts/0"⟩) ++
    uas.map fun id => .receive ⟨UInt8.ofNat id, gsm0710TypeUa ||| gsm0710Pf, []⟩

/-- One SIM: the modem answers on all channels, on channel 26 last. -/
theorem setup_complete_last :
    ∃ acts s s', Run (setupStep .plain 1509 6) (countsOnce .plain)
        (Setup.start .plain (idleMuxd false)) acts s ∧
      setupStep .plain 1509 6 s (.receive ⟨26, gsm0710TypeUa ||| gsm0710Pf, []⟩) = some s' ∧
      s'.muxd.muxSetupChnlComplete = true ∧
      setsComplete .plain s (.receive ⟨26, gsm0710TypeUa ||| gsm0710Pf, []⟩) = true := by
  simp only [exists_and_left]
  refine ⟨sessionActs 6 [0, 1, 2, 3, 4, 5], Run.exists_of_exec
    (A := fun s => countsOnce .plain s (.receive ⟨26, gsm0710TypeUa ||| gsm0710Pf, []⟩) ∧
      allAcknowledged .plain s = false ∧
      (setupStep .plain 1509 6 s (.receive ⟨26, gsm0710TypeUa ||| gsm0710Pf, []⟩)).any
        (allAcknowledged .plain) = true) (by decide +kernel) ?_⟩
  rintro s hrun ⟨honce, hbefore, hafter⟩
  obtain ⟨s', hstep, hall⟩ := (Option.any_eq_true _ _).mp hafter
  obtain ⟨hflag, hlast⟩ := setup_complete (by decide) hrun honce hstep
  have hsets := hlast.mpr ⟨hbefore, hall⟩
  refine ⟨s', hstep, ?_, hsets⟩
  rw [hflag, hsets]
  simp

def vtBuild : Build := { Build.plain with androidVtSupport := true }

/-- One SIM and video telephony: the UA on channel 24 is counted, so the flag
is set although channel 26 was not acknowledged. -/
theorem completed_unacknowledged :
    ¬ ∀ (b : Build) (cmuxN1 : Int) (virPorts : Nat) (m : Muxd) (acts : List SetupAct)
      (s s' : Setup) (act : SetupAct),
      Run (setupStep b cmuxN1 virPorts) anyStep (Setup.start b m) acts s →
      setupStep b cmuxN1 virPorts s act = some s' →
      (setsComplete b s act = true ↔
        allAcknowledged b s = false ∧ allAcknowledged b s' = true) := by
  intro h
  obtain ⟨s, hrun, hs⟩ := Run.of_exec_any (setupStep vtBuild 1509 7) anyStep
    (Setup.start vtBuild (idleMuxd false)) (sessionActs 7 [0, 1, 2, 3, 4, 5])
    (fun s => setsComplete vtBuild s (.receive ⟨24, gsm0710TypeUa ||| gsm0710Pf, []⟩) &&
      (setupStep vtBuild 1509 7 s (.receive ⟨24, gsm0710TypeUa ||| gsm0710Pf, []⟩)).any fun s' =>
        !allAcknowledged vtBuild s') (by decide +kernel)
  obtain ⟨hsets, hafter⟩ := Bool.and_eq_true_iff.mp hs
  obtain ⟨s', hstep, hnot⟩ := (Option.any_eq_true _ _).mp hafter
  have hall := ((h _ _ _ _ _ _ _ _ hrun hstep).mp hsets).2
  rw [hall] at hnot
  cases hnot

end Arale.Mux
