import Arale.Mux.BaseRoundTrip

/-!
# `handle_channel_data`: from a pseudo terminal to the line

What an application wrote to its pseudo terminal is sent with as many calls of
`write_frame` as it takes: each call clips its input to the frame size of the
channel and returns how much it sent, and the loop goes on behind that. A call
that returns 0 is made again, `GSM0710_WRITE_RETRIES` times in all.

In basic mode a frame is three writes to the serial device. On a line that takes
whole writes the loop cuts the buffer into frames, and a peer puts them together
again:

> `handleChannelData_roundTrip`: 0 is returned, and the bytes on the line decode
> to UIH frames of the channel whose payloads are the buffer.

A write that fails or is short makes `write_frame` return 0 as if nothing had
been sent, and the frame is sent again from its first octet. The peer then reads
the octets that did go out as the beginning of a frame.

> `handleChannelData_retries`: if no more than the opening flag goes out of a
> frame that is sent again, the peer has received what the return value says. Of
> the last attempt anything may have gone out.

With more than that the frame is lost, and the return value says that it was
sent: `partial_frame_lost`.
-/

namespace Arale.Mux

open Arale.Lib List

/-! ## The loop -/

/-- `GSM0710_WRITE_RETRIES` -/
def gsm0710WriteRetries : Nat := 5

/-- The loop of `handle_channel_data`: `written` octets are sent and `i` calls
have returned 0. Every round sends something or counts a retry, and `fuel`
bounds the rounds. A call that returns a negative number makes the next one read
in front of the buffer, which has no defined result. -/
def handleChannelLoop (buf : List UInt8) (channel : Nat) :
    Nat → Muxd → Nat → Nat → Option (Int × Muxd)
  | fuel, m, written, i =>
    if written ≠ buf.length ∧ i < gsm0710WriteRetries then
      match fuel with
      | 0 => none
      | fuel + 1 =>
        match writeFrame m channel (buf.drop written) gsm0710TypeUih with
        | none => none
        | some (last, m') =>
          if last < 0 then none
          else
            handleChannelLoop buf channel fuel m' (written + last.toNat)
              (if last = 0 then i + 1 else i)
    else some ((buf.length : Int) - written, m)

/-- Handles received data from pseudo terminal device (application): the number
of octets that were not sent. -/
def handleChannelData (m : Muxd) (buf : List UInt8) (channel : Nat) : Option (Int × Muxd) :=
  handleChannelLoop buf channel (buf.length + gsm0710WriteRetries) m 0 0

/-! ## Calls that can be made again -/

/-- The three writes of a frame are complete, or the first one takes no more than
the flag. -/
def retryableBasic (m : Muxd) (channel : Nat) (control : UInt8) (length : Int)
    (data : List UInt8) : Bool :=
  let header := basicHeader channel control length
  let w := serialWrite m (gsm0710FrameFlag :: header)
  if w.1 ≠ (gsm0710FrameFlag :: header).length then decide (w.1 ≤ 1)
  else
    let v := if length > 0 then serialWrite w.2 data else (length, w.2)
    decide (v.1 = length) &&
      decide ((serialWrite v.2 [frameCalcCrc header, gsm0710FrameFlag]).1 = 2)

/-- The same for the frame that a call of `write_frame` makes of its input. -/
def retryable (m : Muxd) (channel : Nat) (input : List UInt8) : Bool :=
  match m.channellist[channel]? with
  | none => true
  | some ch =>
    let pf := mirrorsPf m input gsm0710TypeUih
    let control := if pf then gsm0710TypeUih ||| gsm0710Pf else gsm0710TypeUih
    let m' := if pf then { m with uihPfBitReceived := false } else m
    let length := if ch.negotiatedN1 < input.length then ch.negotiatedN1 else input.length
    retryableBasic m' channel control length (input.take length.toNat)

/-- Every call of the loop is one that can be made again, or the last one. -/
def retryableLoop (buf : List UInt8) (channel : Nat) : Nat → Muxd → Nat → Nat → Bool
  | 0, _, _, _ => true
  | fuel + 1, m, written, i =>
    if written ≠ buf.length ∧ i < gsm0710WriteRetries then
      match writeFrame m channel (buf.drop written) gsm0710TypeUih with
      | none => true
      | some (last, m') =>
        (retryable m channel (buf.drop written) ||
            (decide (last = 0) && decide (i + 1 = gsm0710WriteRetries))) &&
          retryableLoop buf channel fuel m' (written + last.toNat) (if last = 0 then i + 1 else i)
    else true

/-- The calls of `handle_channel_data` that are made again can be. -/
def Retryable (m : Muxd) (buf : List UInt8) (channel : Nat) : Prop :=
  retryableLoop buf channel (buf.length + gsm0710WriteRetries) m 0 0 = true

instance (m : Muxd) (buf : List UInt8) (channel : Nat) : Decidable (Retryable m buf channel) :=
  inferInstanceAs (Decidable (_ = true))

/-- No write says that the modem is in an exception, and where writes can be
short, none has before. -/
structure ModemUp (m : Muxd) : Prop where
  errno : m.writes ≠ [] → modemDown m.errno = false
  writes : ∀ e, .failed e ∈ m.writes → modemDown e = false

/-! ## One write -/

/-- The globals when octets went out and a list of write results is left. -/
def Muxd.took (m : Muxd) (bytes : List UInt8) (writes : List SerialWrite) (errno : Errno) : Muxd :=
  { m with sent := m.sent ++ bytes, writes := writes, errno := errno }

theorem Muxd.took_took (m : Muxd) (xs ys : List UInt8) (ws vs : List SerialWrite) (d e : Errno) :
    (m.took xs ws d).took ys vs e = m.took (xs ++ ys) vs e := by
  simp only [took, append_assoc]

theorem Muxd.took_errno (m : Muxd) (bytes : List UInt8) (writes : List SerialWrite) (e : Errno) :
    (m.took bytes writes e).errno = e := rfl

variable {m : Muxd} {bytes rest : List UInt8}

theorem ModemUp.took (hup : ModemUp m) (bytes : List UInt8) {writes : List SerialWrite}
    {errno : Errno} (hsub : writes ⊆ m.writes) (herrno : writes ≠ [] → modemDown errno = false) :
    ModemUp (m.took bytes writes errno) :=
  ⟨herrno, fun e he => hup.writes e (hsub he)⟩

section

variable {m : Muxd} {bytes : List UInt8}

/-- What a write returns, and the globals after it. -/
inductive Wrote (m : Muxd) (bytes : List UInt8) : Int × Muxd → Prop where
  | whole {writes : List SerialWrite} (hsub : writes ⊆ m.writes) :
    Wrote m bytes (bytes.length, m.took bytes writes m.errno)
  | short {pre post : List UInt8} {writes : List SerialWrite} {errno : Errno} {n : Int}
    (hsplit : bytes = pre ++ post) (hpost : post ≠ []) (hsub : writes ⊆ m.writes)
    (herrno : modemDown errno = false) (hn : n ≠ bytes.length) (hpre : n ≤ 1 → pre.length ≤ 1) :
    Wrote m bytes (n, m.took pre writes errno)

theorem serialWrite_wrote (hup : ModemUp m) (hne : bytes ≠ []) :
    Wrote m bytes (serialWrite m bytes) := by
  have hpos := length_pos_iff.mpr hne
  unfold serialWrite
  cases hw : m.writes with
  | nil =>
    have hsame : m.emit bytes = m.took bytes m.writes m.errno := rfl
    rw [hsame]
    exact .whole (Subset.refl _)
  | cons w rest =>
    have hsub : rest ⊆ m.writes := by
      rw [hw]
      exact subset_cons_self _ _
    cases w with
    | wrote n =>
      have herrno := hup.errno (by rw [hw]; exact cons_ne_nil _ _)
      rcases Nat.lt_or_ge n bytes.length with hlt | hge
      · refine .short (take_append_drop n bytes).symm ?_ hsub herrno (by omega) ?_
        · rw [ne_eq, drop_eq_nil_iff]
          omega
        · rw [length_take]
          omega
      · have hall : bytes.take n = bytes := take_of_length_le hge
        change Wrote m bytes (min (n : Int) bytes.length, m.took (bytes.take n) rest m.errno)
        rw [hall, Int.min_eq_right (by omega)]
        exact .whole hsub
    | failed e =>
      have hnone : { m with writes := rest, errno := e } = m.took [] rest e := by
        rw [Muxd.took, append_nil]
      dsimp only
      rw [hnone]
      exact .short (nil_append _).symm hne hsub (hup.writes e (hw ▸ mem_cons_self)) (by omega)
        (fun _ => Nat.zero_le 1)

/-- The write of the information field, which an empty one leaves out. -/
theorem writeInfo_wrote (hup : ModemUp m) : Wrote m bytes
    (if (bytes.length : Int) > 0 then serialWrite m bytes else ((bytes.length : Int), m)) := by
  by_cases hpos : (bytes.length : Int) > 0
  · rw [if_pos hpos]
    exact serialWrite_wrote hup (ne_nil_of_length_pos (by omega))
  · have hnil : bytes = [] := eq_nil_of_length_eq_zero (by omega)
    have hsame : m.took [] m.writes m.errno = m := by rw [Muxd.took, append_nil]
    have hwhole := @Wrote.whole m [] m.writes (Subset.refl _)
    rw [hsame] at hwhole
    rw [if_neg hpos, hnil]
    exact hwhole

end

/-! ## One call -/

/-- What a call returns for a frame, and what goes out of it. -/
inductive Attempt (f : Frame) : Int → List UInt8 → Prop where
  | whole : Attempt f f.data.length (basicFrame f)
  | cut {pre post : List UInt8} (hsplit : basicFrame f = pre ++ post) (hpost : post ≠ []) :
    Attempt f 0 pre

variable {f : Frame} {table : List Channel} {remaining written i : Nat} {frames : List Frame}
  {buf : List UInt8}

/-- Nothing of the frame is left out, or it can be sent again. -/
def Again (f : Frame) (bytes : List UInt8) : Prop := bytes = basicFrame f ∨ bytes.length ≤ 1

/-- A call sends the frame, or a beginning of it. -/
theorem writeBasic_attempt {m : Muxd} (hup : ModemUp m) (f : Frame) :
    ∃ last bytes writes errno,
      writeBasic m f.channel.toNat f.control f.data.length f.data
        = (last, m.took bytes writes errno) ∧
      Attempt f last bytes ∧ writes ⊆ m.writes ∧ (writes ≠ [] → modemDown errno = false) ∧
      (retryableBasic m f.channel.toNat f.control f.data.length f.data = true → Again f bytes) := by
  have hframe : basicFrame f = (gsm0710FrameFlag :: basicHeader f.channel.toNat f.control
      f.data.length) ++ (f.data ++ [frameCalcCrc (basicHeader f.channel.toNat f.control
      f.data.length), gsm0710FrameFlag]) := by
    rw [basicFrame, append_assoc]
    rfl
  have hup' : ∀ {writes : List SerialWrite}, writes ⊆ m.writes → writes ≠ [] →
      modemDown m.errno = false := by
    intro writes hsub hne
    refine hup.errno fun hnil => hne ?_
    rw [hnil] at hsub
    exact subset_nil.mp hsub
  unfold writeBasic retryableBasic
  dsimp only
  generalize basicHeader f.channel.toNat f.control f.data.length = header at hframe ⊢
  -- the three writes, one behind the other
  have hprefix := serialWrite_wrote hup (cons_ne_nil gsm0710FrameFlag header)
  generalize serialWrite m (gsm0710FrameFlag :: header) = w at hprefix ⊢
  cases hprefix with
  | @short pre post writes errno n hsplit hpost hsub herrno hn hpre =>
    rw [hsplit, append_assoc] at hframe
    refine ⟨0, pre, writes, errno, ?_, .cut hframe (append_ne_nil_of_left_ne_nil hpost _), hsub,
      fun _ => herrno, ?_⟩
    · rw [if_pos hn, if_neg]
      simp only [Muxd.took_errno, herrno, Bool.and_false, Bool.false_eq_true, not_false_eq_true]
    · rw [if_pos hn]
      intro hle
      exact .inr (hpre (of_decide_eq_true hle))
  | @whole writes₁ hsub₁ =>
    rw [if_neg (not_not_intro rfl), if_neg (not_not_intro rfl)]
    dsimp only
    have hup₁ := hup.took (gsm0710FrameFlag :: header) hsub₁ (hup' hsub₁)
    have hinfo := @writeInfo_wrote _ f.data hup₁
    generalize (if (f.data.length : Int) > 0 then _ else _) = v at hinfo ⊢
    cases hinfo with
    | @short pre post writes errno n hsplit hpost hsub herrno hn hpre =>
      rw [hsplit, append_assoc, ← append_assoc] at hframe
      refine ⟨0, _, writes, errno, ?_, .cut hframe (append_ne_nil_of_left_ne_nil hpost _),
        List.Subset.trans hsub hsub₁, fun _ => herrno, ?_⟩
      · rw [if_pos hn, if_neg, Muxd.took_took]
        simp only [Muxd.took_errno, herrno, Bool.and_false, Bool.false_eq_true, not_false_eq_true]
      · rw [decide_eq_false hn, Bool.false_and]
        exact fun hretry => absurd hretry Bool.false_ne_true
    | @whole writes₂ hsub₂ =>
      rw [if_neg (not_not_intro rfl)]
      simp only [Muxd.took_took, Muxd.took_errno]
      have hsub := List.Subset.trans hsub₂ hsub₁
      have hup₂ := hup.took (gsm0710FrameFlag :: header ++ f.data) hsub (hup' hsub)
      have hpostfix := serialWrite_wrote hup₂
        (cons_ne_nil (frameCalcCrc header) [gsm0710FrameFlag])
      generalize serialWrite _ [frameCalcCrc header, gsm0710FrameFlag] = u at hpostfix ⊢
      cases hpostfix with
      | @short pre post writes errno n hsplit hpost hsub₃ herrno hn hpre =>
        have hn' : n ≠ 2 := hn
        rw [hsplit, ← append_assoc, ← append_assoc] at hframe
        refine ⟨0, _, writes, errno, ?_, .cut hframe hpost, List.Subset.trans hsub₃ hsub,
          fun _ => herrno, ?_⟩
        · rw [if_pos hn', if_neg, Muxd.took_took]
          simp only [Muxd.took_errno, herrno, Bool.false_eq_true, not_false_eq_true]
        · rw [decide_eq_false hn', Bool.and_false]
          exact fun hretry => absurd hretry Bool.false_ne_true
      | @whole writes₃ hsub₃ =>
        have htwo : ¬ ([frameCalcCrc header, gsm0710FrameFlag].length : Int) ≠ 2 := by simp
        rw [if_neg htwo, Muxd.took_took, append_assoc, ← hframe]
        have hsub := List.Subset.trans hsub₃ hsub
        exact ⟨_, _, writes₃, m.errno, rfl, .whole, hsub, hup' hsub,
          fun _ => .inl rfl⟩

/-- The frame that a call makes of its input. -/
structure Segment (ch : Channel) (channel : UInt8) (input : List UInt8) (f : Frame) : Prop where
  channel : f.channel = channel
  uih : gsm0710FrameIs gsm0710TypeUih f.control = true
  size : (f.data.length : Int)
    = if ch.negotiatedN1 < input.length then ch.negotiatedN1 else input.length
  data : f.data = input.take f.data.length

variable {ch : Channel} {channel : UInt8}

theorem Segment.size_le {input : List UInt8}
    (h : Segment ch channel input f) : f.data.length ≤ input.length := by
  have hsize := h.size
  split at hsize <;> omega

/-- Frames are sent, in basic mode, and the modem is not in an exception. -/
structure Sending (table : List Channel) (m : Muxd) : Prop where
  table : m.channellist = table
  running : m.stopMuxd = false
  basic : m.cmuxMode = false
  up : ModemUp m

/-- The globals and the control octet after the look at the P/F bit. -/
theorem Sending.mirrors (hm : Sending table m) (input : List UInt8) :
    ∃ m₀ control,
      (if mirrorsPf m input gsm0710TypeUih then { m with uihPfBitReceived := false } else m) = m₀ ∧
      (if mirrorsPf m input gsm0710TypeUih then gsm0710TypeUih ||| gsm0710Pf else gsm0710TypeUih)
        = control ∧
      gsm0710FrameIs gsm0710TypeUih control = true ∧
      m₀.sent = m.sent ∧ m₀.writes = m.writes ∧ Sending table m₀ := by
  cases mirrorsPf m input gsm0710TypeUih with
  | true =>
    refine ⟨_, _, rfl, rfl, rfl, rfl, rfl, ?_⟩
    exact ⟨hm.table, hm.running, hm.basic, hm.up.errno, hm.up.writes⟩
  | false => exact ⟨_, _, rfl, rfl, rfl, rfl, rfl, hm⟩

/-- A frame takes as many octets as N1 allows. -/
theorem segment_size (hN1 : 0 ≤ ch.negotiatedN1) (input : List UInt8) :
    ∃ size : Nat,
      (if ch.negotiatedN1 < input.length then ch.negotiatedN1 else (input.length : Int)) = size ∧
      size ≤ input.length := by
  split
  · exact ⟨ch.negotiatedN1.toNat, by omega, by omega⟩
  · exact ⟨input.length, rfl, Nat.le_refl _⟩

/-- A call of `write_frame`. -/
theorem writeFrame_attempt {input : List UInt8} (hm : Sending table m)
    (hch : table[channel.toNat]? = some ch) (hN1 : 0 ≤ ch.negotiatedN1) (hinput : input ≠ []) :
    ∃ f last bytes m', writeFrame m channel.toNat input gsm0710TypeUih = some (last, m') ∧
      Segment ch channel input f ∧ Attempt f last bytes ∧ m'.sent = m.sent ++ bytes ∧
      Sending table m' ∧ (retryable m channel.toNat input = true → Again f bytes) ∧
      (m.writes = [] → last = f.data.length ∧ m'.writes = []) := by
  obtain ⟨m₀, control, hm₀, hcontrol, huih, hsent, hwrites, hsending⟩ := hm.mirrors input
  obtain ⟨size, hsize, hle⟩ := segment_size hN1 input
  have hlength : (input.take size).length = size := length_take_of_le hle
  have hempty : input.isEmpty = false := by
    rw [isEmpty_eq_false_iff]
    exact hinput
  rw [← hm.table] at hch
  simp only [retryable, hch, hm₀, hcontrol, hsize, Int.toNat_natCast]
  have hwrite : writeFrame m channel.toNat input gsm0710TypeUih
      = some (writeBasic m₀ channel.toNat control size (input.take size)) := by
    unfold writeFrame
    rw [if_neg (by simp [hm.running]), if_neg (by simp [hempty])]
    simp only [hch, hm₀, hcontrol, hsize, Int.toNat_natCast]
    rw [if_neg (by simp [hm.basic])]
  have hbasic := writeBasic_attempt hsending.up ⟨channel, control, input.take size⟩
  simp only [hlength] at hbasic
  obtain ⟨last, bytes, writes, errno, hlast, hattempt, hsub, herrno, hagain⟩ := hbasic
  refine ⟨⟨channel, control, input.take size⟩, last, bytes, m₀.took bytes writes errno, ?_, ?_,
    hattempt, ?_, ?_, hagain, ?_⟩
  · rw [hwrite, hlast]
  · refine ⟨rfl, huih, ?_, ?_⟩
    · simp only [hlength, hsize]
    · simp only [hlength]
  · rw [Muxd.took, hsent]
  · exact ⟨hsending.table, hsending.running, hsending.basic, hsending.up.took bytes hsub herrno⟩
  · intro hnil
    have hcomplete := writeBasic_complete (hwrites.trans hnil) ⟨channel, control, input.take size⟩
    simp only [hlength] at hcomplete ⊢
    rw [hlast] at hcomplete
    refine ⟨congrArg Prod.fst hcomplete, ?_⟩
    rw [hwrites, hnil] at hsub
    exact subset_nil.mp hsub

/-! ## The whole loop -/

/-- What the loop has done with the octets `rest` when all but `remaining` of
them are sent. -/
structure Transfer (ch : Channel) (channel : UInt8) (rest : List UInt8) (remaining : Nat)
    (bytes : List UInt8) (frames : List Frame) : Prop where
  remaining_le : remaining ≤ rest.length
  uih : ∀ f ∈ frames, f.channel = channel ∧ gsm0710FrameIs gsm0710TypeUih f.control = true
  size : ∀ f ∈ frames, (f.data.length : Int) ≤ ch.negotiatedN1 ∧ f.data.length ≤ rest.length ∧
    (0 < ch.negotiatedN1 → 1 ≤ f.data.length)
  payload : frames.flatMap Frame.data = rest.take (rest.length - remaining)
  decodes : ∀ table : List Channel, (∀ f ∈ frames, Sendable table f) → ∀ s,
    ∃ t, (baseDecoder table).Steps s bytes t [] (frames.map Event.frame)

section

variable {ch : Channel} {channel : UInt8} {rest : List UInt8}

/-- Nothing more is sent. -/
theorem Transfer.stop (ch : Channel) (channel : UInt8) (rest : List UInt8) :
    Transfer ch channel rest rest.length [] [] where
  remaining_le := Nat.le_refl _
  uih f hf := by cases hf
  size f hf := by cases hf
  payload := by rw [Nat.sub_self, take_zero, flatMap_nil]
  decodes table _ s := ⟨s, Decoder.Steps.refl s []⟩

/-- A frame goes out in front of what the loop does behind it. -/
theorem Transfer.whole {bytes : List UInt8} (hrest : rest ≠ []) (hf : Segment ch channel rest f)
    (h : Transfer ch channel (rest.drop f.data.length) remaining bytes frames) :
    Transfer ch channel rest remaining (basicFrame f ++ bytes) (f :: frames) where
  remaining_le := by
    have hle := h.remaining_le
    rw [length_drop] at hle
    omega
  uih g hg := by
    rcases mem_cons.mp hg with rfl | hg
    · exact ⟨hf.channel, hf.uih⟩
    · exact h.uih g hg
  size g hg := by
    have hpos : 0 < rest.length := length_pos_iff.mpr hrest
    have hsize := hf.size
    rcases mem_cons.mp hg with rfl | hg
    · split at hsize
      · refine ⟨by omega, by omega, ?_⟩
        intro hN1
        omega
      · exact ⟨by omega, by omega, fun _ => by omega⟩
    · obtain ⟨hN1, hle, hone⟩ := h.size g hg
      rw [length_drop] at hle
      exact ⟨hN1, by omega, hone⟩
  payload := by
    have hle := h.remaining_le
    have hfit := hf.size_le
    rw [length_drop] at hle
    calc (f :: frames).flatMap Frame.data
        = f.data ++ (rest.drop f.data.length).take (rest.length - f.data.length - remaining) := by
          rw [flatMap_cons, h.payload, length_drop]
      _ = rest.take f.data.length
            ++ (rest.drop f.data.length).take (rest.length - f.data.length - remaining) := by
          rw [← hf.data]
      _ = rest.take (f.data.length + (rest.length - f.data.length - remaining)) :=
          take_add.symm
      _ = rest.take (rest.length - remaining) := by
          congr 1
          omega
  decodes table hsend s := by
    have hframe := baseSteps_frame (hsend f mem_cons_self) s bytes
    obtain ⟨t, hsteps⟩ := h.decodes table (fun g hg => hsend g (mem_cons_of_mem f hg)) false
    exact ⟨t, hframe.trans hsteps⟩

/-- A frame of which at most the flag went out leaves no trace. -/
theorem Transfer.again {pre bytes : List UInt8} (hpre : pre = [] ∨ pre = [gsm0710FrameFlag])
    (h : Transfer ch channel rest remaining bytes frames) :
    Transfer ch channel rest remaining (pre ++ bytes) frames where
  remaining_le := h.remaining_le
  uih := h.uih
  size := h.size
  payload := h.payload
  decodes table hsend s := by
    rcases hpre with rfl | rfl
    · exact h.decodes table hsend s
    · obtain ⟨t, hsteps⟩ := h.decodes table hsend true
      exact ⟨t, (baseSteps_flag table s bytes).trans hsteps⟩

end

variable {fuel last : Nat}

theorem handleChannelLoop_done {channel : Nat}
    (h : ¬ (written ≠ buf.length ∧ i < gsm0710WriteRetries)) :
    handleChannelLoop buf channel fuel m written i = some ((buf.length : Int) - written, m) := by
  unfold handleChannelLoop
  exact if_neg h

/-- A write of nothing counts as a retry. -/
theorem handleChannelLoop_round {channel : Nat}
    {m' : Muxd} (h : written ≠ buf.length ∧ i < gsm0710WriteRetries)
    (hwrite : writeFrame m channel (buf.drop written) gsm0710TypeUih = some ((last : Int), m')) :
    handleChannelLoop buf channel (fuel + 1) m written i
      = handleChannelLoop buf channel fuel m' (written + last) (if last = 0 then i + 1 else i) := by
  have hnonneg : ¬ (last : Int) < 0 := by omega
  conv => lhs; unfold handleChannelLoop
  simp only [if_pos h, hwrite, if_neg hnonneg, Int.toNat_natCast, Int.natCast_eq_zero]

theorem retryableLoop_round {channel : Nat}
    {m' : Muxd} (h : written ≠ buf.length ∧ i < gsm0710WriteRetries)
    (hwrite : writeFrame m channel (buf.drop written) gsm0710TypeUih = some ((last : Int), m')) :
    retryableLoop buf channel (fuel + 1) m written i
      = ((retryable m channel (buf.drop written) ||
          (decide (last = 0) && decide (i + 1 = gsm0710WriteRetries))) &&
        retryableLoop buf channel fuel m' (written + last) (if last = 0 then i + 1 else i)) := by
  conv => lhs; unfold retryableLoop
  simp only [if_pos h, hwrite, Int.toNat_natCast, Int.natCast_eq_zero]

/-- What a call returns is a number of octets, and they are those of its frame. -/
theorem Attempt.count {last : Int} (h : Attempt f last bytes) :
    ∃ n : Nat, last = n ∧ n ≤ f.data.length := by
  cases h with
  | whole => exact ⟨_, rfl, Nat.le_refl _⟩
  | cut hsplit hpost => exact ⟨0, rfl, Nat.zero_le _⟩

/-- A call, and what the loop does after it. -/
theorem Transfer.attempt {bytes' : List UInt8} (hrest : rest ≠ [])
    (hf : Segment ch channel rest f) (hattempt : Attempt f last bytes) (hagain : Again f bytes)
    (h : Transfer ch channel (rest.drop last) remaining bytes' frames) :
    ∃ frames', Transfer ch channel rest remaining (bytes ++ bytes') frames' := by
  generalize hlast : (last : Int) = n at hattempt
  cases hattempt with
  | whole =>
    rw [Int.natCast_inj.mp hlast] at h
    exact ⟨_, h.whole hrest hf⟩
  | @cut _ post hsplit hpost =>
    rw [Int.natCast_eq_zero.mp hlast, drop_zero] at h
    refine ⟨_, h.again ?_⟩
    rcases hagain with rfl | hone
    · exact absurd (append_right_eq_self.mp hsplit.symm) hpost
    · rcases bytes with _ | ⟨b, bytes⟩
      · exact .inl rfl
      · have hnil : bytes = [] := eq_nil_of_length_eq_zero (by rw [length_cons] at hone; omega)
        rw [hnil, ← (cons.inj hsplit).1]
        exact .inr rfl

/-- What goes out of the last attempt: nothing, or a beginning of a frame. -/
def LastAttempt (ch : Channel) (channel : UInt8) (length : Nat) (bytes : List UInt8) : Prop :=
  bytes = [] ∨ ∃ f post, f.channel = channel ∧ gsm0710FrameIs gsm0710TypeUih f.control = true ∧
    (f.data.length : Int) ≤ ch.negotiatedN1 ∧ f.data.length ≤ length ∧
    basicFrame f = bytes ++ post ∧ post ≠ []

/-- The loop returns. What it has sent is a transfer of the octets behind
`written`, all but those it returns, and of all of them if every write is whole. -/
def LoopTransfers (ch : Channel) (channel : UInt8) (buf : List UInt8) (fuel : Nat) (m : Muxd)
    (written i : Nat) : Prop :=
  ∃ (remaining : Nat) (m' : Muxd) (bytes tail : List UInt8) (frames : List Frame),
    handleChannelLoop buf channel.toNat fuel m written i = some ((remaining : Int), m') ∧
    m'.sent = m.sent ++ (bytes ++ tail) ∧
    Transfer ch channel (buf.drop written) remaining bytes frames ∧
    LastAttempt ch channel buf.length tail ∧
    (m.writes = [] → 0 < ch.negotiatedN1 → i < gsm0710WriteRetries → remaining = 0 ∧ tail = [])

theorem loopTransfers_done {fuel : Nat} {m m' : Muxd} {tail : List UInt8}
    (hle : written ≤ buf.length)
    (hloop : handleChannelLoop buf channel.toNat fuel m written i
      = some ((buf.length : Int) - written, m'))
    (hsent : m'.sent = m.sent ++ tail) (htail : LastAttempt ch channel buf.length tail)
    (hwhole : m.writes = [] → 0 < ch.negotiatedN1 → i < gsm0710WriteRetries →
      written = buf.length ∧ tail = []) :
    LoopTransfers ch channel buf fuel m written i := by
  refine ⟨buf.length - written, m', [], tail, [], ?_, hsent, ?_, htail, ?_⟩
  · rw [hloop]
    congr 2
    omega
  · rw [← length_drop]
    exact Transfer.stop ch channel (buf.drop written)
  · intro hwrites hpos hi
    obtain ⟨hend, hnil⟩ := hwhole hwrites hpos hi
    exact ⟨by omega, hnil⟩

/-- **The loop** sends the octets behind `written`, all but those it returns. -/
theorem handleChannelLoop_transfer (hch : table[channel.toNat]? = some ch)
    (hN1 : 0 ≤ ch.negotiatedN1) (fuel : Nat) (m : Muxd) (written i : Nat) (hm : Sending table m)
    (hle : written ≤ buf.length)
    (hfuel : buf.length - written + (gsm0710WriteRetries - i) ≤ fuel)
    (hretry : retryableLoop buf channel.toNat fuel m written i = true) :
    LoopTransfers ch channel buf fuel m written i := by
  have hstop : ∀ (fuel : Nat) (m : Muxd) (written i : Nat), written ≤ buf.length →
      ¬ (written ≠ buf.length ∧ i < gsm0710WriteRetries) →
      LoopTransfers ch channel buf fuel m written i := by
    intro fuel m written i hle hdone
    exact loopTransfers_done hle (handleChannelLoop_done hdone) (append_nil _).symm (.inl rfl)
      fun _ _ hi => ⟨by omega, rfl⟩
  induction fuel generalizing m written i with
  | zero => exact hstop 0 m written i hle (by omega)
  | succ fuel ih =>
    by_cases hgo : written ≠ buf.length ∧ i < gsm0710WriteRetries
    · have hrest : buf.drop written ≠ [] := by
        rw [ne_eq, drop_eq_nil_iff]
        omega
      obtain ⟨f, last, bytes, m', hwrite, hf, hattempt, hsent, hm', hcall, hnil⟩ :=
        writeFrame_attempt hm hch hN1 hrest
      obtain ⟨n, rfl, hn⟩ := hattempt.count
      have hsize := hf.size_le
      rw [length_drop] at hsize
      rw [retryableLoop_round hgo hwrite, Bool.and_eq_true, Bool.or_eq_true, Bool.and_eq_true,
        decide_eq_true_eq, decide_eq_true_eq] at hretry
      -- a frame of a channel with room is not empty
      have hn0 : m.writes = [] → 0 < ch.negotiatedN1 → n ≠ 0 := by
        intro hwrites hpos
        have hlast := (hnil hwrites).1
        have hsize := hf.size
        have hlen : 0 < (buf.drop written).length := length_pos_iff.mpr hrest
        split at hsize <;> omega
      by_cases hagain : Again f bytes
      · -- a round sends something or counts a retry
        have hless : buf.length - (written + n)
            + (gsm0710WriteRetries - (if n = 0 then i + 1 else i)) ≤ fuel := by
          split <;> omega
        obtain ⟨remaining, m'', bytes', tail, frames, hloop, hsent', htransfer, htail, hzero⟩ :=
          ih m' (written + n) _ hm' (by omega) hless hretry.2
        rw [← drop_drop] at htransfer
        obtain ⟨frames', htransfer'⟩ := htransfer.attempt hrest hf hattempt hagain
        refine ⟨remaining, m'', bytes ++ bytes', tail, frames', ?_, ?_, htransfer', htail, ?_⟩
        · rw [handleChannelLoop_round hgo hwrite, hloop]
        · rw [hsent', hsent, append_assoc, append_assoc]
        · intro hwrites hpos hi
          rw [if_neg (hn0 hwrites hpos)] at hzero
          exact hzero (hnil hwrites).2 hpos hi
      · -- the last attempt
        obtain ⟨rfl, hlast⟩ := hretry.1.resolve_left (mt hcall hagain)
        refine loopTransfers_done hle ?_ hsent (.inr ?_) ?_
        · rw [handleChannelLoop_round hgo hwrite, if_pos rfl]
          exact handleChannelLoop_done (by omega)
        · generalize hzero : ((0 : Nat) : Int) = n at hattempt
          cases hattempt with
          | whole => exact absurd (.inl rfl) hagain
          | @cut _ post hsplit hpost =>
            have hle := hf.size
            refine ⟨f, post, hf.channel, hf.uih, ?_, by omega, hsplit, hpost⟩
            split at hle <;> omega
        · exact fun hwrites hpos => absurd rfl (hn0 hwrites hpos)
    · exact hstop (fuel + 1) m written i hle hgo

/-! ## Whole writes -/

theorem retryableBasic_of_writes (h : m.writes = []) (channel : Nat) (control : UInt8)
    {length : Int} {data : List UInt8} (hdata : length > 0 → (data.length : Int) = length) :
    retryableBasic m channel control length data = true := by
  have hwrites : ∀ bytes, (m.emit bytes).writes = [] := fun bytes => h
  unfold retryableBasic
  simp only [serialWrite_complete h]
  by_cases hpos : length > 0
  · simp only [if_pos hpos, serialWrite_complete (hwrites _)]
    rw [serialWrite_complete (by rw [Muxd.emit_emit]; exact hwrites _)]
    simp [hdata hpos]
  · simp only [if_neg hpos, serialWrite_complete (hwrites _)]
    simp

theorem retryable_of_writes (h : m.writes = []) (channel : Nat) (input : List UInt8) :
    retryable m channel input = true := by
  unfold retryable
  cases m.channellist[channel]? with
  | none => rfl
  | some ch =>
    refine retryableBasic_of_writes ?_ channel _ ?_
    · split <;> exact h
    · intro hpos
      rw [length_take]
      split at hpos <;> simp only [*, if_true, if_false] <;> omega

theorem retryableLoop_of_writes (hch : table[channel.toNat]? = some ch) (hN1 : 0 ≤ ch.negotiatedN1)
    (fuel : Nat) (m : Muxd) (written i : Nat) (hm : Sending table m) (hwrites : m.writes = [])
    (hle : written ≤ buf.length) : retryableLoop buf channel.toNat fuel m written i = true := by
  induction fuel generalizing m written i with
  | zero => rfl
  | succ fuel ih =>
    have hcall := retryable_of_writes hwrites channel.toNat (buf.drop written)
    by_cases hgo : written ≠ buf.length ∧ i < gsm0710WriteRetries
    · have hrest : buf.drop written ≠ [] := by
        rw [ne_eq, drop_eq_nil_iff]
        omega
      obtain ⟨f, last, bytes, m', hwrite, hf, hattempt, -, hm', -, hnil⟩ :=
        writeFrame_attempt hm hch hN1 hrest
      obtain ⟨n, rfl, hn⟩ := hattempt.count
      have hsize := hf.size_le
      rw [length_drop] at hsize
      rw [retryableLoop_round hgo hwrite, hcall, Bool.true_or, Bool.true_and]
      exact ih m' (written + n) _ hm' (hnil hwrites).2 (by omega)
    · exact if_neg hgo

/-! ## What the peer receives -/

/-- A frame of a transfer survives the line. -/
theorem sendable_uih {b : Build} {peer : Channel} {length : Nat} (hf : f.channel = channel)
    (huih : gsm0710FrameIs gsm0710TypeUih f.control = true)
    (hN1 : (f.data.length : Int) ≤ ch.negotiatedN1) (hle : f.data.length ≤ length)
    (hchannel : channel.toNat < gsm0710MaxChannels b)
    (hroom : min ch.negotiatedN1 length + 7 ≤ gsm0710BufferSize)
    (hpeer : table[channel.toNat]? = some peer) (hsame : peer.negotiatedN1 = ch.negotiatedN1) :
    Sendable table f := by
  have hmax : gsm0710MaxChannels b ≤ 64 := by
    unfold gsm0710MaxChannels
    split <;> omega
  refine ⟨by rw [hf]; omega, ⟨peer, by rw [hf]; exact hpeer, by omega⟩, ?_, by omega⟩
  unfold gsm0710FrameIs at huih ⊢
  rw [eq_of_beq huih]
  rfl

/-- What a peer gets from the line, when the octets arrive in any pieces: the
frames, and nothing is left over. -/
def PeerReceives (table : List Channel) (bytes : List UInt8) (frames : List Frame) : Prop :=
  ∀ (buf : Gsm0710Buffer) (ps : List (List UInt8)), buf.unread = [] → ps.flatten = bytes →
    Fits (fun buf => gsm0710BaseBufferGetFrame table buf 0) buf ps →
    ∃ buf', feed (fun buf => gsm0710BaseBufferGetFrame table buf 0) buf ps = .ok (frames, buf') ∧
      buf'.droppedCount = buf.droppedCount ∧ gsm0710BufferLength buf' = 0

/-- A peer reads back the frames of a whole transfer. -/
theorem Transfer.received (h : Transfer ch channel rest remaining bytes frames)
    (hsend : ∀ f ∈ frames, Sendable table f) : PeerReceives table bytes frames := by
  intro buf ps hempty hcut hfits
  obtain ⟨t, hsteps⟩ := h.decodes table hsend buf.flagFound
  rw [← hcut] at hsteps
  obtain ⟨buf', hfeed, hdropped, hlength, -⟩ := baseFeed_of_whole hempty hsteps hfits
  exact ⟨buf', hfeed, hdropped, hlength⟩

/-- The same, where the beginning of one more frame may be left over. -/
def PeerGets (table : List Channel) (bytes : List UInt8) (frames : List Frame) : Prop :=
  ∀ (buf : Gsm0710Buffer) (ps : List (List UInt8)), buf.unread = [] → ps.flatten = bytes →
    Fits (fun buf => gsm0710BaseBufferGetFrame table buf 0) buf ps →
    ∃ buf', feed (fun buf => gsm0710BaseBufferGetFrame table buf 0) buf ps = .ok (frames, buf') ∧
      buf'.droppedCount = buf.droppedCount

/-- The beginning of a frame that was cut is kept back. -/
theorem Transfer.gets {tail : List UInt8} (h : Transfer ch channel rest remaining bytes frames)
    (hsend : ∀ f ∈ frames, Sendable table f)
    (htail : tail = [] ∨ ∃ f post, Sendable table f ∧ basicFrame f = tail ++ post ∧ post ≠ []) :
    PeerGets table (bytes ++ tail) frames := by
  intro buf ps hempty hcut hfits
  obtain ⟨t, hsteps⟩ := h.decodes table hsend buf.flagFound
  have hwhole := hsteps.append tail
  obtain ⟨t', left, hleft, hstuck, hin⟩ : ∃ t' left, (baseDecoder table).Steps t tail t' left [] ∧
      (baseDecoder table).Stuck t' left ∧ verdict table left ≠ .outOfTable := by
    rcases htail with rfl | ⟨f, post, hf, hsplit, hpost⟩
    · exact ⟨t, [], .refl t [], baseStep_nil table t, verdict_nil table⟩
    · exact baseSteps_cut hf hsplit hpost t
  have hall := hwhole.trans hleft
  rw [← hcut, append_nil] at hall
  obtain ⟨buf', hfeed, hdropped, -⟩ := baseFeed_of_steps hempty hall hstuck hin hfits
  exact ⟨buf', hfeed, hdropped⟩

/-- **Outgoing segmentation.** On a line that takes whole writes, in basic mode,
`handle_channel_data` returns 0, and a peer with the same frame size decodes what
went out to UIH frames of the channel, none of them empty or too long, whose
payloads make up the buffer. -/
theorem handleChannelData_roundTrip {b : Build} {m : Muxd} {ch : Channel} {channel : UInt8}
    {buf : List UInt8} (hrunning : m.stopMuxd = false) (hbasic : m.cmuxMode = false)
    (hwrites : m.writes = []) (hchannel : channel.toNat < gsm0710MaxChannels b)
    (hch : m.channellist[channel.toNat]? = some ch) (hN1 : 0 < ch.negotiatedN1)
    (hlength : buf.length ≤ 1024) :
    ∃ m' bytes frames, handleChannelData m buf channel.toNat = some (0, m') ∧
      m'.sent = m.sent ++ bytes ∧
      (∀ f ∈ frames, f.channel = channel ∧ gsm0710FrameIs gsm0710TypeUih f.control = true ∧
        1 ≤ f.data.length ∧ (f.data.length : Int) ≤ ch.negotiatedN1) ∧
      frames.flatMap Frame.data = buf ∧
      ∀ table peer, table[channel.toNat]? = some peer → peer.negotiatedN1 = ch.negotiatedN1 →
        PeerReceives table bytes frames := by
  have hm : Sending m.channellist m :=
    ⟨rfl, hrunning, hbasic, fun h => absurd hwrites h, fun e he => by rw [hwrites] at he; cases he⟩
  have hretry : Retryable m buf channel.toNat :=
    retryableLoop_of_writes hch (Int.le_of_lt hN1) _ m 0 0 hm hwrites (Nat.zero_le _)
  obtain ⟨remaining, m', bytes, tail, frames, hloop, hsent, htransfer, -, hzero⟩ :=
    handleChannelLoop_transfer hch (Int.le_of_lt hN1) (buf.length + gsm0710WriteRetries) m 0 0 hm
      (Nat.zero_le _) (by omega) hretry
  obtain ⟨rfl, rfl⟩ := hzero hwrites hN1 (by decide)
  rw [append_nil] at hsent
  rw [drop_zero] at htransfer
  refine ⟨m', bytes, frames, hloop, hsent, ?_, ?_, ?_⟩
  · intro f hf
    obtain ⟨hfchannel, huih⟩ := htransfer.uih f hf
    obtain ⟨hle, -, hone⟩ := htransfer.size f hf
    exact ⟨hfchannel, huih, hone hN1, hle⟩
  · rw [htransfer.payload, Nat.sub_zero, take_length]
  · intro table peer hpeer hsame
    have hroom : min ch.negotiatedN1 buf.length + 7 ≤ gsm0710BufferSize := by
      unfold gsm0710BufferSize
      omega
    refine htransfer.received fun f hf => ?_
    exact sendable_uih (htransfer.uih f hf).1 (htransfer.uih f hf).2 (htransfer.size f hf).1
      (htransfer.size f hf).2.1 hchannel hroom hpeer hsame

/-- 600 octets for a channel that takes 512. -/
theorem handleChannelData_roundTrip_two :
    ∃ m' bytes frames,
      handleChannelData (idleMuxd false) (List.replicate 600 0xF9) 5 = some (0, m') ∧
      m'.sent = (idleMuxd false).sent ++ bytes ∧
      frames.flatMap Frame.data = List.replicate 600 0xF9 ∧
      PeerReceives (idleMuxd false).channellist bytes frames := by
  obtain ⟨m', bytes, frames, hdata, hsent, -, hpayload, hpeer⟩ :=
    @handleChannelData_roundTrip ⟨1, false, false, false, false, false⟩ (idleMuxd false)
      { Channel.zero with negotiatedN1 := 512 } 5 (List.replicate 600 0xF9) rfl rfl rfl (by decide)
      rfl (by decide) (by rw [length_replicate]; decide)
  exact ⟨m', bytes, frames, hdata, hsent, hpayload, hpeer _ _ rfl rfl⟩

/-- **Failing writes.** Short and failed writes that leave at most the opening
flag of a frame on the line when it is sent again: `handle_channel_data` returns,
and the peer has received exactly the octets in front of those it says are left. -/
theorem handleChannelData_retries {b : Build} {m : Muxd} {ch : Channel} {channel : UInt8}
    {buf : List UInt8} (hrunning : m.stopMuxd = false) (hbasic : m.cmuxMode = false)
    (hup : ModemUp m) (hchannel : channel.toNat < gsm0710MaxChannels b)
    (hch : m.channellist[channel.toNat]? = some ch) (hN1 : 0 ≤ ch.negotiatedN1)
    (hroom : min ch.negotiatedN1 buf.length + 7 ≤ gsm0710BufferSize)
    (hretry : Retryable m buf channel.toNat) :
    ∃ (r : Nat) (m' : Muxd) (bytes : List UInt8) (frames : List Frame),
      handleChannelData m buf channel.toNat = some ((r : Int), m') ∧ r ≤ buf.length ∧
      m'.sent = m.sent ++ bytes ∧
      (∀ f ∈ frames, f.channel = channel ∧ gsm0710FrameIs gsm0710TypeUih f.control = true) ∧
      frames.flatMap Frame.data = buf.take (buf.length - r) ∧
      ∀ table peer, table[channel.toNat]? = some peer → peer.negotiatedN1 = ch.negotiatedN1 →
        PeerGets table bytes frames := by
  have hm : Sending m.channellist m := ⟨rfl, hrunning, hbasic, hup⟩
  obtain ⟨remaining, m', bytes, tail, frames, hloop, hsent, htransfer, htail, -⟩ :=
    handleChannelLoop_transfer hch hN1 (buf.length + gsm0710WriteRetries) m 0 0 hm
      (Nat.zero_le _) (by omega) hretry
  rw [drop_zero] at htransfer
  refine ⟨remaining, m', bytes ++ tail, frames, hloop, htransfer.remaining_le, hsent,
    htransfer.uih, htransfer.payload, ?_⟩
  intro table peer hpeer hsame
  refine htransfer.gets (fun f hf => ?_) (htail.imp_right ?_)
  · exact sendable_uih (htransfer.uih f hf).1 (htransfer.uih f hf).2 (htransfer.size f hf).1
      (htransfer.size f hf).2.1 hchannel hroom hpeer hsame
  · rintro ⟨f, post, hf, huih, hle, hlength, hsplit, hpost⟩
    exact ⟨f, post, sendable_uih hf huih hle hlength hchannel hroom hpeer hsame, hsplit, hpost⟩

/-- A line on which the writes have the given results first. -/
def faultyMuxd (writes : List SerialWrite) : Muxd := { idleMuxd false with writes := writes }

/-- The first write of a frame fails four times, or takes the flag only; the fifth
time it takes three octets of four. Nothing is sent, and nothing is received. -/
theorem handleChannelData_retries_flag :
    ∃ (r : Nat) (m' : Muxd) (bytes : List UInt8) (frames : List Frame),
      handleChannelData (faultyMuxd [.failed .other, .wrote 1, .wrote 0, .wrote 1, .wrote 3])
        [0x41, 0x42] 5 = some ((r : Int), m') ∧
      m'.sent = (idleMuxd false).sent ++ bytes ∧
      frames.flatMap Frame.data = [0x41, 0x42].take (2 - r) ∧
      PeerGets (idleMuxd false).channellist bytes frames := by
  have hup : ModemUp (faultyMuxd [.failed .other, .wrote 1, .wrote 0, .wrote 1, .wrote 3]) := by
    refine ⟨fun _ => rfl, ?_⟩
    intro e he
    simp only [faultyMuxd, mem_cons, SerialWrite.failed.injEq, reduceCtorEq, not_mem_nil,
      or_false] at he
    rw [he]
    rfl
  obtain ⟨r, m', bytes, frames, hdata, -, hsent, -, hpayload, hpeer⟩ :=
    @handleChannelData_retries ⟨1, false, false, false, false, false⟩
      (faultyMuxd [.failed .other, .wrote 1, .wrote 0, .wrote 1, .wrote 3])
      { Channel.zero with negotiatedN1 := 512 } 5
      [0x41, 0x42] rfl rfl hup (by decide) rfl (by decide) (by decide) (by decide +kernel)
  exact ⟨r, m', bytes, frames, hdata, hsent, hpayload, hpeer _ _ rfl rfl⟩

/-- The prefix of a frame goes out and one of its two octets, then the frame
again, whole. `handle_channel_data` says that all is sent. The peer takes the
second prefix for data of the first frame, and receives nothing. -/
theorem partial_frame_lost :
    (handleChannelData (faultyMuxd [.wrote 4, .wrote 1]) [0x41, 0x42] 5).map
        (fun r => (r.1, r.2.sent))
      = some (0, [0xF9, 0x17, 0xEF, 0x05, 0x41,
          0xF9, 0x17, 0xEF, 0x05, 0x41, 0x42, 0xBA, 0xF9]) ∧
    (feed (fun buf => gsm0710BaseBufferGetFrame (idleMuxd false).channellist buf 0)
        (gsm0710BufferInit ⟨0, by decide⟩)
        [[0xF9, 0x17, 0xEF, 0x05, 0x41,
          0xF9, 0x17, 0xEF, 0x05, 0x41, 0x42, 0xBA, 0xF9]]).toOption.map
        (fun r => (r.1, r.2.droppedCount))
      = some ([], 1) := by
  decide +kernel

end Arale.Mux
