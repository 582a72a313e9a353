import Arale.Mux.Frame

/-!
# Logical channels: the configuration table, opening and closing

`channellist[]` holds one `Channel` per DLCI. `logical_channel_init` fills
an entry from the compile-time table `ch_cfg[]`, `logical_channel_close`
wipes it. Both go through the flow-control context of `gsm0710muxd_fc.c`,
whose receive list is here `RxList`: `NULL`, a list of frames, or the
dangling pointer `_fc_closeContext` leaves behind after it freed the list.

The compile-time switches that decide the table are the fields of `Build`;
the unit-test build (`__MUX_UT__`) is left out.
-/

namespace Arale.Mux

/-- The preprocessor switches that select the channel table. -/
structure Build where
  /-- `SIM_COUNT` -/
  simCount : Nat
  /-- `MTK_RIL_MD2`; the other build is `MTK_RIL_MD1` -/
  rilMd2 : Bool
  /-- `__ANDROID_VT_SUPPORT__` -/
  androidVtSupport : Bool
  /-- `MTK_ENABLE_MD5` -/
  enableMd5 : Bool
  /-- `MTK_CSD_DIALER_SUPPORT` -/
  csdDialerSupport : Bool
  /-- `MTK_TC1_FEATURE` together with `MTK_VOLTE_SUPPORT` -/
  tc1Volte : Bool
  deriving DecidableEq, Repr

/-- One SIM, none of the optional channels. -/
def Build.plain : Build where
  simCount := 1
  rilMd2 := false
  androidVtSupport := false
  enableMd5 := false
  csdDialerSupport := false
  tc1Volte := false

def gsm0710MaxChannels (b : Build) : Nat := if b.tc1Volte then 64 else 32

def muxdVtChNum : Nat := 24

structure ChannelConfig where
  pnDlci : Nat
  pnN1 : Int
  sPath : Option String
  deriving DecidableEq, Repr

/-- Entries of `ch_cfg[]`; all of them ask for 512-octet frames. -/
def cfg (pnDlci : Nat) (sPath : String) : ChannelConfig := ⟨pnDlci, 512, some sPath⟩

/-- `ch_cfg[]`. -/
def chCfg (b : Build) : List ChannelConfig :=
  ⟨0, 512, none⟩ ::
  ((if b.rilMd2 then
      [cfg 1 "/dev/radio/pttycmd4-md2", cfg 2 "/dev/radio/pttynoti-md2",
        cfg 3 "/dev/radio/pttycmd1-md2", cfg 4 "/dev/radio/pttycmd2-md2",
        cfg 5 "/dev/radio/pttycmd3-md2"]
      ++ (if b.enableMd5 then [cfg 25 "/dev/radio/pttyaudio-md2"] else [])
      ++ [cfg 26 "/dev/radio/atci1-md2"]
      ++ (if b.simCount ≥ 2 then
          [cfg 6 "/dev/radio/ptty2cmd4-md2", cfg 7 "/dev/radio/ptty2noti-md2",
            cfg 8 "/dev/radio/ptty2cmd1-md2", cfg 9 "/dev/radio/ptty2cmd2-md2",
            cfg 10 "/dev/radio/ptty2cmd3-md2", cfg 27 "/dev/radio/atci2-md2"]
        else [])
    else
      [cfg 1 "/dev/radio/pttycmd4", cfg 2 "/dev/radio/pttynoti", cfg 3 "/dev/radio/pttycmd1",
        cfg 4 "/dev/radio/pttycmd2", cfg 5 "/dev/radio/pttycmd3", cfg 26 "/dev/radio/atci1"]
      ++ (if b.simCount ≥ 2 then
          [cfg 6 "/dev/radio/ptty2cmd4", cfg 7 "/dev/radio/ptty2noti",
            cfg 8 "/dev/radio/ptty2cmd1", cfg 9 "/dev/radio/ptty2cmd2",
            cfg 10 "/dev/radio/ptty2cmd3", cfg 27 "/dev/radio/atci2"]
        else [])
      ++ (if b.simCount ≥ 3 then
          [cfg 11 "/dev/radio/ptty3cmd4", cfg 12 "/dev/radio/ptty3noti",
            cfg 13 "/dev/radio/ptty3cmd1", cfg 14 "/dev/radio/ptty3cmd2",
            cfg 15 "/dev/radio/ptty3cmd3", cfg 28 "/dev/radio/atci3"]
        else [])
      ++ (if b.simCount ≥ 4 then
          [cfg 16 "/dev/radio/ptty4cmd4", cfg 17 "/dev/radio/ptty4noti",
            cfg 18 "/dev/radio/ptty4cmd1", cfg 19 "/dev/radio/ptty4cmd2",
            cfg 20 "/dev/radio/ptty4cmd3", cfg 29 "/dev/radio/atci4"]
        else [])
      ++ (if b.androidVtSupport then [cfg 24 "/dev/radio/pttyvt"] else []))
    ++ (if b.csdDialerSupport then [cfg 30 "/dev/pttycsd"] else [])
    ++ (if b.tc1Volte && !b.rilMd2 then
        [cfg 31 "/dev/radio/ims-pttycmd", cfg 32 "/dev/radio/ims-pttynotify",
          cfg 33 "/dev/radio/ims-sms-pttycmd", cfg 34 "/dev/radio/ims-sms-pttynotify"]
      else []))

/-- `MUXD_CH_NUM_ALL`: the control channel, five RILD channels and one ATCI
channel per SIM, and the optional extras. -/
def muxdChNumAll (b : Build) : Nat :=
  let sims := if b.simCount ≥ 4 then 4 else if b.simCount ≥ 3 then 3
    else if b.simCount ≥ 2 then 2 else 1
  1 + 6 * sims
    + (if b.androidVtSupport && !b.rilMd2 then 1 else 0)
    + (if b.tc1Volte && !b.rilMd2 then 4 else 0)
    + (if b.simCount < 2 && b.rilMd2 && b.enableMd5 then 1 else 0)

/-! ## Channel records -/

/-- A `GSM0710_Frame *`: the allocation it points to and what is stored there. -/
structure FramePtr where
  addr : Nat
  frame : Frame
  deriving DecidableEq, Repr

/-- `rx_fl`: the frames received while the PTY is blocked, oldest first. -/
inductive RxList where
  | null
  | list (frames : List FramePtr)
  | freed
  deriving DecidableEq, Repr

structure Channel where
  id : Nat
  fd : Int
  devicename : Option String
  ptsname : Option String
  ptslink : Option String
  opened : Bool
  reopen : Bool
  sabmUaPending : Bool
  discUaPending : Bool
  negotiatedN1 : Int
  v24Signals : UInt8
  txFcOff : Bool
  rxFcOff : Bool
  rxThread : Bool
  rxFl : RxList
  rxFlTotal : Nat
  rxFlWritten : Nat
  deriving DecidableEq, Repr

/-- An entry of the zero-initialised `channellist[]`. -/
def Channel.zero : Channel where
  id := 0
  fd := 0
  devicename := none
  ptsname := none
  ptslink := none
  opened := false
  reopen := false
  sabmUaPending := false
  discUaPending := false
  negotiatedN1 := 0
  v24Signals := 0
  txFcOff := false
  rxFcOff := false
  rxThread := false
  rxFl := .null
  rxFlTotal := 0
  rxFlWritten := 0

def fcInitContext (channel : Channel) : Channel :=
  { channel with
    txFcOff := false
    rxFcOff := false
    rxThread := false
    rxFl := .null
    rxFlTotal := 0
    rxFlWritten := 0 }

/-- The list is freed but `rx_fl` is not reset. -/
def fcCloseContext (channel : Channel) : Channel :=
  { channel with
    txFcOff := false
    rxFcOff := false
    rxThread := false
    rxFlTotal := 0
    rxFlWritten := 0
    rxFl := match channel.rxFl with
      | .null => .null
      | _ => .freed }

def logicalChannelClose (channel : Channel) : Channel :=
  fcCloseContext
    { channel with
      fd := if channel.fd ≥ 0 then -1 else channel.fd
      ptsname := none
      opened := false
      v24Signals := 0
      sabmUaPending := false
      discUaPending := false
      negotiatedN1 := 0 }

/-- A list that was never made stays so. -/
theorem rxFl_close_null {channel : Channel} (h : channel.rxFl = .null) :
    (logicalChannelClose channel).rxFl = .null := by
  simp only [logicalChannelClose, fcCloseContext, h]

/-- Any other one is freed. -/
theorem rxFl_close_freed {channel : Channel} (h : channel.rxFl ≠ .null) :
    (logicalChannelClose channel).rxFl = .freed := by
  cases hlist : channel.rxFl with
  | null => exact absurd hlist h
  | list frames => simp only [logicalChannelClose, fcCloseContext, hlist]
  | freed => simp only [logicalChannelClose, fcCloseContext, hlist]

/-- The entry of `ch_cfg[]` for a DLCI, searched among the first
`MUXD_CH_NUM_ALL`. -/
def findConfig (b : Build) (id : Nat) : Option ChannelConfig :=
  ((chCfg b).take (muxdChNumAll b)).find? fun c => id == c.pnDlci

/-- The frame size a channel is set up with; a DLCI without an entry takes
the size given on the command line. -/
def configuredN1 (b : Build) (cmuxN1 : Int) (id : Nat) : Int :=
  match findConfig b id with
  | some c => c.pnN1
  | none => cmuxN1

def logicalChannelInit (b : Build) (cmuxN1 : Int) (channel : Channel) (id : Nat) : Channel :=
  fcInitContext
    { logicalChannelClose channel with
      id := id
      devicename := if id = 0 then none else some "/dev/ptmx"
      reopen := false
      ptslink := (findConfig b id).bind (·.sPath)
      negotiatedN1 := configuredN1 b cmuxN1 id }

/-- Every configured channel asks for 512 octets. -/
theorem chCfg_pnN1 (b : Build) : ∀ c ∈ chCfg b, c.pnN1 = 512 := by
  have hall : ∀ {l : List ChannelConfig}, l.all (fun c => c.pnN1 == 512) = true →
      ∀ c ∈ l, c.pnN1 = 512 := by
    intro l hl c hc
    exact eq_of_beq (List.all_eq_true.mp hl c hc)
  have hif : ∀ {p : Prop} [Decidable p] {l : List ChannelConfig},
      l.all (fun c => c.pnN1 == 512) = true → ∀ c ∈ (if p then l else []), c.pnN1 = 512 := by
    intro p _ l hl c hc
    split at hc
    · exact hall hl c hc
    · cases hc
  intro c hc
  simp only [chCfg, List.mem_cons (l := _ ++ _), List.mem_append] at hc
  rcases hc with rfl | ((hc | hc) | hc)
  · rfl
  · split at hc
    · simp only [List.mem_append] at hc
      rcases hc with ((hc | hc) | hc) | hc
      · exact hall rfl c hc
      · exact hif rfl c hc
      · exact hall rfl c hc
      · exact hif rfl c hc
    · simp only [List.mem_append] at hc
      rcases hc with (((hc | hc) | hc) | hc) | hc
      · exact hall rfl c hc
      · exact hif rfl c hc
      · exact hif rfl c hc
      · exact hif rfl c hc
      · exact hif rfl c hc
  · exact hif rfl c hc
  · exact hif rfl c hc

/-- A configured frame size is positive as soon as the command line's is. -/
theorem configuredN1_pos (b : Build) {cmuxN1 : Int} (h : 0 < cmuxN1) (id : Nat) :
    0 < configuredN1 b cmuxN1 id := by
  unfold configuredN1
  split
  · next c hc =>
    have hmem : c ∈ chCfg b := List.mem_of_mem_take (List.mem_of_find?_eq_some hc)
    rw [chCfg_pnN1 b c hmem]
    decide
  · exact h

end Arale.Mux
