import Arale.Mux.BaseStream

/-!
# Basic mode: what is written is what is read

`write_frame` and `gsm0710_base_buffer_get_frame` agree on the format. The
argument is per field — `decodeAddress_addressField`, `lengthField_cases`,
and for the check sequence the residue lemma of `Frame` — and these are put
together once, in `verdict_encoded`: the bytes behind the opening flag of an
encoded frame are accepted as that frame, whatever follows them.

An address octet written by `write_frame` has its C/R bit set and so is
never taken for one of the flags in front of it; that is what keeps
consecutive closing and opening flags apart from the frame between them.

Main result: `baseFeed_roundTrip`.
-/

namespace Arale.Mux

open Arale.Lib List

/-! ## Fields -/

theorem addressField_ne_flag (channel : Nat) : addressField channel ≠ gsm0710FrameFlag := by
  have h : ∀ b : UInt8, (gsm0710Ea ||| gsm0710Cr) ||| ((63 &&& b) <<< 2) ≠ gsm0710FrameFlag :=
    forall_octet (by decide +kernel)
  exact h (UInt8.ofNat channel)

theorem decodeAddress_addressField {channel : UInt8} (h : channel.toNat < 64) :
    gsm0710DecodeAddress (addressField channel.toNat) = channel := by
  have hall : ∀ b : UInt8, b.toNat < 64 →
      gsm0710DecodeAddress ((gsm0710Ea ||| gsm0710Cr) ||| ((63 &&& b) <<< 2)) = b :=
    forall_octet (by decide +kernel)
  unfold addressField
  rw [UInt8.ofNat_toNat]
  exact hall channel h

/-- The decoder reads a length field back: one octet with the E/A bit set,
or two octets without. -/
theorem lengthField_cases {n : Nat} (h : n < 32768) :
    (∃ l, lengthField n = [l] ∧ l &&& 1 ≠ 0 ∧ ((l &&& 254) >>> 1).toNat = n) ∨
    ∃ l x, lengthField n = [l, x] ∧ l &&& 1 = 0 ∧
      ((l &&& 254) >>> 1).toNat + x.toNat * 128 = n := by
  by_cases hlong : (n : Int) > 127
  · right
    refine ⟨_, _, if_pos hlong, ?_⟩
    have hlow : ∀ k : Fin 128, UInt8.ofNat (k.val <<< 1) &&& 1 = 0 ∧
        ((UInt8.ofNat (k.val <<< 1) &&& 254) >>> 1).toNat = k.val := by decide +kernel
    have hmask : 0x007F &&& n = n % 128 := by
      rw [Nat.and_comm]
      exact Nat.and_two_pow_sub_one_eq_mod n 7
    have hhigh : (0x7F80 &&& n) >>> 7 = n / 128 := by
      rw [Nat.shiftRight_and_distrib, Nat.shiftRight_eq_div_pow n 7, Nat.and_comm]
      show n / 128 &&& 2 ^ 8 - 1 = n / 128
      rw [Nat.and_two_pow_sub_one_eq_mod]
      exact Nat.mod_eq_of_lt (by omega)
    obtain ⟨heven, hval⟩ := hlow ⟨n % 128, Nat.mod_lt _ (by decide)⟩
    rw [Int.toNat_natCast, hmask, hhigh]
    refine ⟨heven, ?_⟩
    rw [hval, UInt8.toNat_ofNat']
    show n % 128 + n / 128 % 256 * 128 = n
    omega
  · left
    refine ⟨_, if_neg hlong, ?_⟩
    have hall : ∀ k : Fin 128, (1 ||| UInt8.ofInt (2 * (k.val : Int))) &&& 1 ≠ 0 ∧
        (((1 ||| UInt8.ofInt (2 * (k.val : Int))) &&& 254) >>> 1).toNat = k.val := by
      decide +kernel
    exact hall ⟨n, by omega⟩

/-! ## One frame -/

variable {channellist : List Channel} {frames : List Frame}

/-- A complete frame behind its length field is accepted. -/
theorem bodyVerdict_accept {ch : Channel}
    {channel control fcs l check : UInt8} {data rest : List UInt8}
    (hch : channellist[channel.toNat]? = some ch) (hN1 : data.length ≤ ch.negotiatedN1)
    (hui : gsm0710FrameIs gsm0710TypeUi control = false) (hcheck : crcStep fcs check = 0xCF) :
    bodyVerdict channellist channel control fcs data.length l
        (data ++ check :: gsm0710FrameFlag :: rest)
      = .accept ⟨channel, control, data⟩ rest := by
  unfold bodyVerdict
  rw [hch]
  have hle : ¬ (data.length : Int) > ch.negotiatedN1 := by omega
  simp only [if_neg hle, drop_left, take_left, payloadFcs, hui, Bool.false_eq_true,
    if_false, hcheck, ne_eq, not_true_eq_false]

theorem verdict_one {a c l : UInt8} {body : List UInt8}
    (hl : l &&& 1 ≠ 0) (hbody : 2 ≤ body.length) :
    verdict channellist (a :: c :: l :: body)
      = bodyVerdict channellist (gsm0710DecodeAddress a) c
          (crcStep (crcStep (crcStep 0xFF a) c) l) ((l &&& 254) >>> 1).toNat l body := by
  match body, hbody with
  | x :: y :: rest, _ => exact if_neg hl

theorem verdict_two {a c l x : UInt8} {body : List UInt8}
    (hl : l &&& 1 = 0) (hbody : 1 ≤ body.length) :
    verdict channellist (a :: c :: l :: x :: body)
      = bodyVerdict channellist (gsm0710DecodeAddress a) c
          (crcStep (crcStep (crcStep (crcStep 0xFF a) c) l) x)
          (((l &&& 254) >>> 1).toNat + x.toNat * 128) x body := by
  match body, hbody with
  | y :: rest, _ => exact if_pos hl

/-- What a frame has to satisfy to survive the line: a channel of the table,
a control octet other than UI, a payload the channel and the buffer take. -/
structure Sendable (channellist : List Channel) (f : Frame) : Prop where
  channel_lt : f.channel.toNat < 64
  entry : ∃ ch, channellist[f.channel.toNat]? = some ch ∧ f.data.length ≤ ch.negotiatedN1
  not_ui : gsm0710FrameIs gsm0710TypeUi f.control = false
  room : f.data.length + 7 ≤ gsm0710BufferSize

/-- **An encoded frame is accepted as itself**, whatever follows it. -/
theorem verdict_encoded {f : Frame} (h : Sendable channellist f) (rest : List UInt8) :
    verdict channellist (basicHeader f.channel.toNat f.control f.data.length ++ f.data
        ++ [frameCalcCrc (basicHeader f.channel.toNat f.control f.data.length), gsm0710FrameFlag]
        ++ rest)
      = .accept f rest := by
  obtain ⟨ch, hch, hN1⟩ := h.entry
  have hsize : f.data.length < 32768 := by
    have hroom := h.room
    unfold gsm0710BufferSize at hroom
    omega
  have haddr := decodeAddress_addressField h.channel_lt
  have hresidue := crcStep_frameCalcCrc (basicHeader f.channel.toNat f.control f.data.length)
  simp only [append_assoc, cons_append, nil_append]
  unfold basicHeader at hresidue ⊢
  rcases lengthField_cases hsize with ⟨l, hl, hea, hlen⟩ | ⟨l, x, hl, hea, hlen⟩
  · rw [hl] at hresidue ⊢
    simp only [cons_append, nil_append]
    rw [verdict_one hea (by simp; omega), haddr, hlen]
    exact bodyVerdict_accept hch hN1 h.not_ui hresidue
  · rw [hl] at hresidue ⊢
    simp only [cons_append, nil_append]
    rw [verdict_two hea (by simp; omega), haddr, hlen]
    exact bodyVerdict_accept hch hN1 h.not_ui hresidue

/-! ## A sequence of frames -/

/-- A flag is used up, whether or not there was one before. -/
theorem baseSteps_flag (channellist : List Channel) (s : Bool) (rest : List UInt8) :
    (baseDecoder channellist).Steps s (gsm0710FrameFlag :: rest) true rest [] := by
  cases s with
  | false => exact Decoder.Steps.single rfl
  | true => exact Decoder.Steps.single (baseStep_flag channellist rest)

/-- The decoder takes one frame off the front of a stream. -/
theorem baseSteps_frame {f : Frame} (h : Sendable channellist f) (s : Bool) (rest : List UInt8) :
    (baseDecoder channellist).Steps s (basicFrame f ++ rest) false rest [.frame f] := by
  have hflag : (baseDecoder channellist).Steps s (basicFrame f ++ rest) true
      ((basicFrame f).tail ++ rest) [] := baseSteps_flag channellist s _
  have hframe : (baseDecoder channellist).step true ((basicFrame f).tail ++ rest)
      = some (false, rest, [.frame f]) := by
    show baseStep channellist true ((basicFrame f).tail ++ rest) = _
    rw [baseStep_of_head]
    · show settle (verdict channellist (basicHeader f.channel.toNat f.control f.data.length
        ++ f.data ++ _ ++ rest)) = _
      rw [verdict_encoded h]
      rfl
    · -- the octet behind the flag is the address, which is no flag
      show some (addressField f.channel.toNat) ≠ _
      exact fun heq => addressField_ne_flag _ (Option.some.inj heq)
  exact hflag.trans (Decoder.Steps.single hframe)

theorem baseSteps_frames (frames : List Frame) (h : ∀ f ∈ frames, Sendable channellist f) :
    (baseDecoder channellist).Steps false (frames.flatMap basicFrame) false []
      (frames.map Event.frame) := by
  induction frames with
  | nil => exact Decoder.Steps.refl _ _
  | cons f frames ih =>
    have hrest := ih fun g hg => h g (mem_cons_of_mem f hg)
    exact (baseSteps_frame (h f mem_cons_self) false _).trans hrest

theorem count_dropped_frames (frames : List Frame) :
    (frames.map Event.frame).count .dropped = 0 := by
  rw [count_eq_zero]
  intro hmem
  obtain ⟨f, _, hf⟩ := mem_map.mp hmem
  cases hf

theorem verdict_nil (channellist : List Channel) : verdict channellist [] ≠ .outOfTable := by
  intro h
  cases h

/-- A frame that ends before its last octet is waited for. -/
theorem baseSteps_cut {f : Frame} (h : Sendable channellist f) {pre post : List UInt8}
    (hcut : basicFrame f = pre ++ post) (hpost : post ≠ []) (s : Bool) :
    ∃ t rest, (baseDecoder channellist).Steps s pre t rest [] ∧
      (baseDecoder channellist).Stuck t rest ∧ verdict channellist rest ≠ .outOfTable := by
  cases pre with
  | nil => exact ⟨s, [], .refl s [], baseStep_nil channellist s, verdict_nil channellist⟩
  | cons b pre =>
    obtain ⟨rfl, htail⟩ := cons.inj (hcut.trans (cons_append ..))
    have hwhole := verdict_encoded h []
    rw [append_nil, htail] at hwhole
    have hhead : pre.head? ≠ some gsm0710FrameFlag := by
      cases pre with
      | nil => simp
      | cons a pre =>
        intro hflag
        exact addressField_ne_flag _ ((cons.inj htail).1.trans (Option.some.inj hflag))
    refine ⟨true, pre, baseSteps_flag channellist s pre, ?_, ?_⟩
    · -- what is settled before the end would be settled with octets left over
      show baseStep channellist true pre = none
      rw [baseStep_of_head hhead, Option.eq_none_iff_forall_ne_some]
      rintro ⟨t, rest, os⟩ hsettle
      have hmore := settle_append hsettle post
      rw [hwhole] at hmore
      have hrest : [] = rest ++ post := congrArg (fun r => r.2.1) (Option.some.inj hmore)
      exact hpost (append_eq_nil_iff.mp hrest.symm).2
    · intro hout
      rcases @verdict_append channellist pre post with hv | hv | hv
      · rw [hv] at hout
        cases hout
      · rw [hv] at hout
        cases hout
      · rw [hwhole, hout] at hv
        cases hv

/-- On a stream of frames, with at most a beginning of one more, no call meets
anything bad: no run can leave the one that takes off frame after frame. -/
theorem safe_of_steps {s t : Bool} {bytes rest : List UInt8}
    (h : (baseDecoder channellist).Steps s bytes t rest (frames.map Event.frame))
    (hstuck : (baseDecoder channellist).Stuck t rest)
    (hin : verdict channellist rest ≠ .outOfTable) :
    Safe (baseDecoder channellist).Steps (BaseBad channellist maxResyncGetFrameCount) s bytes := by
  intro s' ys os hsteps hbad
  obtain ⟨ps, hrest, hos⟩ := hsteps.rest h hstuck
  rcases hbad with hcount | ⟨rfl, hhead, hverdict⟩
  · have hzero := count_dropped_frames frames
    rw [hos, count_append] at hzero
    unfold maxResyncGetFrameCount at hcount
    omega
  · -- an address outside the table is a standstill, and not the end of the stream
    have hend : ys = rest := (hrest.of_stuck (stuck_of_outOfTable hhead hverdict)).2.1
    exact hin (hend ▸ hverdict)

/-- A stream of frames, with at most a beginning of one more, cut in any way into
pieces that fit and fed to an empty buffer at any place of the ring, comes out as
its frames. -/
theorem baseFeed_of_steps {t : Bool} {rest : List UInt8}
    {buf : Gsm0710Buffer} {ps : List (List UInt8)} (hempty : buf.unread = [])
    (h : (baseDecoder channellist).Steps buf.flagFound ps.flatten t rest (frames.map Event.frame))
    (hstuck : (baseDecoder channellist).Stuck t rest)
    (hin : verdict channellist rest ≠ .outOfTable)
    (hfits : Fits (fun buf => gsm0710BaseBufferGetFrame channellist buf 0) buf ps) :
    ∃ buf', feed (fun buf => gsm0710BaseBufferGetFrame channellist buf 0) buf ps
        = .ok (frames, buf') ∧
      buf'.droppedCount = buf.droppedCount ∧ buf'.unread = rest ∧ buf'.flagFound = t := by
  have hfollows := baseFollows channellist
  have henters := enters_of_true (fun buf => gsm0710BaseBufferGetFrame channellist buf 0) ps buf
  have hsafe := safe_of_steps h hstuck hin
  rw [← nil_append ps.flatten, ← hempty] at hsafe
  obtain ⟨⟨fs, buf'⟩, hfeed⟩ := feed_returns hfollows ps hfits henters hsafe
  obtain ⟨os, hrun, hframes, hcount, hend⟩ := feed_runs hfollows ps hfits henters hfeed
  rw [hempty] at hrun hend
  obtain ⟨hs, hy, rfl⟩ := hrun.unique (hend (baseStep_nil channellist buf.flagFound)) h hstuck
  rw [framesOf_frames] at hframes
  subst hframes
  refine ⟨buf', hfeed, ?_, hy, hs⟩
  rw [hcount, count_dropped_frames, Nat.add_zero]

/-- The same, for a stream that is used up. -/
theorem baseFeed_of_whole {t : Bool} {buf : Gsm0710Buffer}
    {ps : List (List UInt8)} (hempty : buf.unread = [])
    (h : (baseDecoder channellist).Steps buf.flagFound ps.flatten t [] (frames.map Event.frame))
    (hfits : Fits (fun buf => gsm0710BaseBufferGetFrame channellist buf 0) buf ps) :
    ∃ buf', feed (fun buf => gsm0710BaseBufferGetFrame channellist buf 0) buf ps
        = .ok (frames, buf') ∧
      buf'.droppedCount = buf.droppedCount ∧ gsm0710BufferLength buf' = 0 ∧
      buf'.flagFound = t := by
  obtain ⟨buf', hfeed, hdropped, hunread, hflag⟩ :=
    baseFeed_of_steps hempty h (baseStep_nil channellist t) (verdict_nil channellist) hfits
  exact ⟨buf', hfeed, hdropped, Ring.contents_eq_nil.mp hunread, hflag⟩

theorem sendFrames_basic (frames : List Frame) {m : Muxd} (hstop : m.stopMuxd = false)
    (hmode : m.cmuxMode = false) (hpf : m.uihPfBitReceived = false) (hw : m.writes = [])
    (h : ∀ f ∈ frames, Sendable m.channellist f) :
    sendFrames m frames = some (m.emit (frames.flatMap basicFrame)) := by
  induction frames generalizing m with
  | nil =>
    show some m = some (m.emit [])
    rw [Muxd.emit_nil]
  | cons f frames ih =>
    obtain ⟨ch, hch, hN1⟩ := (h f mem_cons_self).entry
    have hone := writeFrame_basic hstop hmode hpf hw hch hN1
    have hrest : sendFrames (m.emit (basicFrame f)) frames
        = some ((m.emit (basicFrame f)).emit (frames.flatMap basicFrame)) :=
      ih hstop hmode hpf hw fun g hg => h g (mem_cons_of_mem f hg)
    unfold sendFrames at hrest ⊢
    rw [foldlM_cons, hone, flatMap_cons, ← Muxd.emit_emit]
    exact hrest

theorem frameIs_ui : ∀ control : UInt8, control ≠ gsm0710TypeUi →
    control ≠ gsm0710TypeUi ||| gsm0710Pf → gsm0710FrameIs gsm0710TypeUi control = false :=
  forall_octet (by decide +kernel)

/-- **Basic-mode round trip.** The bytes `write_frame` emits for a sequence
of frames, cut in any way into pieces that fit and fed to an empty buffer at
any place of the ring, come out as exactly those frames, with nothing
dropped and the buffer empty again. -/
theorem baseFeed_roundTrip {b : Build} {m : Muxd} {frames : List Frame} (hstop : m.stopMuxd = false)
    (hmode : m.cmuxMode = false) (hpf : m.uihPfBitReceived = false) (hw : m.writes = [])
    (htable : m.channellist.length = gsm0710MaxChannels b)
    (hchannel : ∀ f ∈ frames, f.channel.toNat < gsm0710MaxChannels b) (hcontrol : ∀ f ∈ frames,
      f.control ≠ gsm0710TypeUi ∧ f.control ≠ gsm0710TypeUi ||| gsm0710Pf)
    (hN1 : ∀ f ∈ frames, ∀ ch, m.channellist[f.channel.toNat]? = some ch →
      f.data.length ≤ ch.negotiatedN1)
    (hroom : ∀ f ∈ frames, f.data.length + 7 ≤ gsm0710BufferSize) :
    ∃ bytes, sendFrames m frames = some (m.emit bytes) ∧
      ∀ (buf : Gsm0710Buffer) (ps : List (List UInt8)), buf.unread = [] →
        buf.flagFound = false → ps.flatten = bytes →
        Fits (fun buf => gsm0710BaseBufferGetFrame m.channellist buf 0) buf ps →
        ∃ buf', feed (fun buf => gsm0710BaseBufferGetFrame m.channellist buf 0) buf ps
            = .ok (frames, buf') ∧
          buf'.droppedCount = buf.droppedCount ∧ gsm0710BufferLength buf' = 0 ∧
          buf'.flagFound = false := by
  have hsend : ∀ f ∈ frames, Sendable m.channellist f := by
    intro f hf
    have hlt := hchannel f hf
    have hle : gsm0710MaxChannels b ≤ 64 := by
      unfold gsm0710MaxChannels
      split <;> omega
    have hentry := List.getElem?_eq_getElem (htable ▸ hlt)
    exact ⟨by omega, ⟨_, hentry, hN1 f hf _ hentry⟩,
      frameIs_ui _ (hcontrol f hf).1 (hcontrol f hf).2, hroom f hf⟩
  refine ⟨_, sendFrames_basic frames hstop hmode hpf hw hsend, ?_⟩
  intro buf ps hempty hflag hcut hfits
  refine baseFeed_of_whole hempty ?_ hfits
  rw [hflag, hcut]
  exact baseSteps_frames frames hsend

/-- A UIH frame whose payload holds a flag octet, and a SABM, byte by byte
across the end of the ring. -/
theorem baseFeed_roundTrip_two :
    ∃ bytes, sendFrames (idleMuxd false) [⟨5, 0xEF, [0xF9, 0x41]⟩, ⟨0, 0x3F, []⟩]
        = some ((idleMuxd false).emit bytes) ∧
      ∃ buf', feed (fun buf => gsm0710BaseBufferGetFrame (idleMuxd false).channellist buf 0)
          (gsm0710BufferInit ⟨4090, by decide⟩) (bytes.map fun x => [x])
          = .ok ([⟨5, 0xEF, [0xF9, 0x41]⟩, ⟨0, 0x3F, []⟩], buf') ∧
        buf'.droppedCount = 0 ∧ gsm0710BufferLength buf' = 0 ∧ buf'.flagFound = false := by
  obtain ⟨bytes, hsend, hread⟩ := @baseFeed_roundTrip
    ⟨1, false, false, false, false, false⟩ (idleMuxd false)
    [⟨5, 0xEF, [0xF9, 0x41]⟩, ⟨0, 0x3F, []⟩] rfl rfl rfl rfl (by decide) (by decide) (by decide)
    (by decide +kernel) (by decide)
  refine ⟨bytes, hsend, ?_⟩
  obtain rfl : [0xF9, 0x17, 0xEF, 0x05, 0xF9, 0x41, 0xBA, 0xF9, 0xF9, 0x03, 0x3F, 0x01,
      0x1C, 0xF9] = bytes := by
    refine Option.some.inj (Eq.trans ?_ (congrArg (Option.map Muxd.sent) hsend))
    decide +kernel
  exact hread (gsm0710BufferInit ⟨4090, by decide⟩) _ rfl rfl (by decide) (by decide +kernel)

end Arale.Mux
