import Arale.Mux.BaseStream

/-!
# Resynchronisation after corrupt frames

When `gsm0710_base_buffer_get_frame` throws a frame away it calls itself for the
next one, and the call at depth `MAX_RESYNC_GET_FRAME_COUNT` is
`Gsm0710Muxd_Assert(13)`. A buffer of 4096 bytes has room for hundreds of
frames that are thrown away, so what keeps a call from getting there is only
that a good frame, or the end of the complete ones, comes early enough.

> `getFrameAt_asserts_iff`: a call with `levels` levels left asserts exactly if
> the stored bytes begin with that many frames that are thrown away.

`baseGetFrame_returns` is the case of a whole call: with fewer than three of
them, and addresses inside the table, it returns a frame or `NULL`.
`three_corrupt_frames` are 16 bytes that stop it.
-/

namespace Arale.Mux

open Arale.Lib List

/-- The decoder comes to the next frame in state `s` at `ys`, having thrown away
`n`. -/
def Drops (channellist : List Channel) (n : Nat) (buf : Gsm0710Buffer) : Prop :=
  ∃ s ys, (baseDecoder channellist).Steps buf.flagFound buf.unread s ys
    (List.replicate n .dropped)

/-- Every octet that is decoded as an address names one of the first `n`
channels. -/
def AddressesBelow (channellist : List Channel) (n : Nat) (buf : Gsm0710Buffer) : Prop :=
  ∀ a ys os, (baseDecoder channellist).Steps buf.flagFound buf.unread true (a :: ys) os →
    a ≠ gsm0710FrameFlag → 4 ≤ ys.length → (gsm0710DecodeAddress a).toNat < n

section

variable {channellist : List Channel} {buf mid : Gsm0710Buffer} {levels : Nat}

/-! ## How many frames are thrown away -/

/-- A standstill without results has no frame in front of it to throw away. -/
theorem not_drops_of_stuck {flag : Bool} {ys : List UInt8}
    (hsteps : (baseDecoder channellist).Steps buf.flagFound buf.unread flag ys [])
    (hstuck : (baseDecoder channellist).Stuck flag ys) : ¬ Drops channellist (levels + 1) buf := by
  rintro ⟨s, zs, hdrops⟩
  obtain ⟨os, -, hos⟩ := hdrops.rest hsteps hstuck
  cases hos

/-- A frame that is taken is not thrown away. -/
theorem not_drops_of_frame {f : Frame} {s : Bool} {ys : List UInt8}
    (hsteps : (baseDecoder channellist).Steps buf.flagFound buf.unread s ys [.frame f]) :
    ¬ Drops channellist (levels + 1) buf := by
  rintro ⟨t, zs, hdrops⟩
  rcases hdrops.linear hsteps with ⟨os, -, hos⟩ | ⟨os, -, hos⟩
  · cases hos
  · cases hos

/-- Behind a frame that is thrown away there is one less to come. -/
theorem drops_succ_iff
    (hsteps : (baseDecoder channellist).Steps buf.flagFound buf.unread mid.flagFound mid.unread
      [.dropped]) : Drops channellist (levels + 1) buf ↔ Drops channellist levels mid := by
  constructor
  · rintro ⟨s, ys, hdrops⟩
    rcases hsteps.linear hdrops with ⟨os, hrest, hos⟩ | ⟨os, -, hos⟩
    · rw [replicate_succ, singleton_append] at hos
      rw [← (List.cons.inj hos).2] at hrest
      exact ⟨s, ys, hrest⟩
    · -- the longer run is the one over a single frame
      have hnil := (append_eq_nil_iff.mp (List.cons.inj hos).2.symm).1
      rw [Drops, hnil]
      exact ⟨_, _, Decoder.Steps.refl _ _⟩
  · rintro ⟨s, ys, hdrops⟩
    exact ⟨s, ys, hsteps.trans hdrops⟩

end

/-- **A call asserts exactly if it meets as many corrupt frames in a row as it
has levels left.** -/
theorem getFrameAt_asserts_iff (channellist : List Channel) (levels : Nat) (buf : Gsm0710Buffer) :
    (getFrameAt channellist levels buf).1 = .assert 13 ↔ Drops channellist levels buf := by
  induction levels generalizing buf with
  | zero => exact iff_of_true rfl ⟨_, _, Decoder.Steps.refl _ _⟩
  | succ levels ih =>
    have hlevel := getFrameAt_level channellist levels buf
    generalize getFrameAt channellist (levels + 1) buf = r at hlevel
    cases hlevel with
    | null hsteps hstuck => exact iff_of_false (by simp) (not_drops_of_stuck hsteps hstuck)
    | outOfTable hsteps hhead hverdict =>
      exact iff_of_false (by simp) (not_drops_of_stuck hsteps (stuck_of_outOfTable hhead hverdict))
    | drop hsteps => exact (ih _).trans (drops_succ_iff hsteps).symm
    | accept hsteps => exact iff_of_false (by simp) (not_drops_of_frame hsteps)

/-! ## The other results -/

variable {channellist : List Channel} {xs ys : List UInt8}

/-- Only an address octet leads outside the table. -/
theorem verdict_outOfTable (h : verdict channellist xs = .outOfTable) :
    ∃ a ys, xs = a :: ys ∧ 4 ≤ ys.length ∧
      channellist.length ≤ (gsm0710DecodeAddress a).toNat := by
  have hcase := verdict_inv channellist xs
  rw [h] at hcase
  cases hcase with
  | outOfTable hxs hlength hoff => exact ⟨_, _, hxs, hlength, hoff⟩

/-- The results of a call, and what the decoder has met when it is a read
outside the table. -/
theorem getFrameAt_result (channellist : List Channel) (levels : Nat) (buf : Gsm0710Buffer) :
    (∃ f, (getFrameAt channellist levels buf).1 = .frame f) ∨
      (∃ signalled, (getFrameAt channellist levels buf).1 = .null signalled) ∨
      (getFrameAt channellist levels buf).1 = .assert 13 ∨
      ∃ a ys os, (baseDecoder channellist).Steps buf.flagFound buf.unread true (a :: ys) os ∧
        a ≠ gsm0710FrameFlag ∧ 4 ≤ ys.length ∧
        channellist.length ≤ (gsm0710DecodeAddress a).toNat := by
  induction levels generalizing buf with
  | zero => exact .inr (.inr (.inl rfl))
  | succ levels ih =>
    have hlevel := getFrameAt_level channellist levels buf
    generalize getFrameAt channellist (levels + 1) buf = r at hlevel
    cases hlevel with
    | null _ _ => exact .inr (.inl ⟨_, rfl⟩)
    | outOfTable hsteps hhead hverdict =>
      obtain ⟨a, ys, hys, hlength, hoff⟩ := verdict_outOfTable hverdict
      rw [hys] at hsteps hhead
      refine .inr (.inr (.inr ⟨a, ys, _, hsteps, ?_, hlength, hoff⟩))
      intro heq
      exact hhead (congrArg some heq)
    | drop hsteps =>
      rcases ih _ with hframe | hnull | hassert | ⟨a, ys, os, hrest, hbad⟩
      · exact .inl hframe
      · exact .inr (.inl hnull)
      · exact .inr (.inr (.inl hassert))
      · exact .inr (.inr (.inr ⟨a, ys, _, hsteps.trans hrest, hbad⟩))
    | accept _ => exact .inl ⟨_, rfl⟩

/-- **Corrupt input.** Whatever the buffer holds, wherever it lies in the ring
and whether or not a start flag was found before: if the addresses are those of
channels and there are not `MAX_RESYNC_GET_FRAME_COUNT` corrupt frames in front
of the first good one, a call returns a frame or `NULL`. -/
theorem baseGetFrame_returns {b : Build} {channellist : List Channel} {buf : Gsm0710Buffer}
    (htable : channellist.length = gsm0710MaxChannels b)
    (haddresses : AddressesBelow channellist (gsm0710MaxChannels b) buf)
    (hcorrupt : ¬ Drops channellist maxResyncGetFrameCount buf) :
    (∃ f, (gsm0710BaseBufferGetFrame channellist buf 0).1 = .frame f) ∨
      ∃ signalled, (gsm0710BaseBufferGetFrame channellist buf 0).1 = .null signalled := by
  rcases getFrameAt_result channellist maxResyncGetFrameCount buf with
    hframe | hnull | hassert | ⟨a, ys, os, hsteps, hflag, hlength, hoff⟩
  · exact .inl hframe
  · exact .inr hnull
  · exact absurd ((getFrameAt_asserts_iff channellist _ buf).mp hassert) hcorrupt
  · have hlt := haddresses a ys os hsteps hflag hlength
    rw [htable] at hoff
    omega

/-! ## Octets behind a flag -/

/-- The bytes with the start flag in front, if it was found and used up before. -/
def marked (flagFound : Bool) (xs : List UInt8) : List UInt8 :=
  if flagFound then gsm0710FrameFlag :: xs else xs

theorem baseStep_marked {s s' : Bool} {os : List Event}
    (h : baseStep channellist s xs = some (s', ys, os)) : marked s' ys <:+ marked s xs := by
  have hmarked : ∀ {xs : List UInt8}, xs <:+ marked s xs := by
    intro xs
    cases s with
    | false => exact suffix_refl _
    | true => exact suffix_cons _ _
  rcases baseStep_inv h with ⟨b, rfl, rfl, -, -⟩ | ⟨-, hsettle⟩
  · -- a flag that is used up is put back in front
    by_cases hb : b = gsm0710FrameFlag
    · simp only [marked, hb, decide_true, if_true]
      exact hmarked
    · simp only [marked, hb, decide_false, Bool.false_eq_true, if_false]
      exact (suffix_cons b ys).trans hmarked
  · obtain ⟨rfl, hsuffix, -, -⟩ := settle_inv hsettle
    exact hsuffix.trans hmarked

/-- Bytes are only ever used up from the front, and the decoder looks for an
address only behind a flag. -/
theorem baseSteps_marked {s s' : Bool} {os : List Event}
    (h : (baseDecoder channellist).Steps s xs s' ys os) : marked s' ys <:+ marked s xs := by
  induction h with
  | refl => exact suffix_refl _
  | head hstep _ ih => exact ih.trans (baseStep_marked hstep)

/-- The octets that follow a flag and are none. -/
def behindFlags : List UInt8 → List UInt8
  | x :: y :: ys =>
    if x = gsm0710FrameFlag ∧ y ≠ gsm0710FrameFlag then y :: behindFlags (y :: ys)
    else behindFlags (y :: ys)
  | _ => []

theorem mem_behindFlags {a : UInt8} (ha : a ≠ gsm0710FrameFlag) {xs : List UInt8}
    (h : gsm0710FrameFlag :: a :: ys <:+ xs) : a ∈ behindFlags xs := by
  induction xs with
  | nil => cases suffix_nil.mp h
  | cons x xs ih =>
    rcases suffix_cons_iff.mp h with heq | hsuffix
    · cases heq
      rw [behindFlags, if_pos ⟨rfl, ha⟩]
      exact mem_cons_self
    · have hmem := ih hsuffix
      cases xs with
      | nil => cases hmem
      | cons y ys' =>
        rw [behindFlags]
        split
        · exact mem_cons_of_mem _ hmem
        · exact hmem

/-- Addresses are in range where every octet behind a flag would be a good
address. -/
theorem addressesBelow_of_flags {n : Nat} {buf : Gsm0710Buffer}
    (h : ∀ a ∈ behindFlags (marked buf.flagFound buf.unread), (gsm0710DecodeAddress a).toNat < n) :
    AddressesBelow channellist n buf := by
  intro a ys os hsteps hflag _
  exact h a (mem_behindFlags hflag (baseSteps_marked hsteps))

/-- A buffer, across the end of the ring, that starts with SABM frames for
channel 1 with a wrong check sequence. The end flag of a frame is the start flag
of what follows. -/
def corruptBuffer (frames : Nat) (rest : List UInt8) : Gsm0710Buffer :=
  gsm0710BufferWrite (gsm0710BufferInit ⟨4090, by decide⟩)
    ((List.replicate frames [0xF9, 0x05, 0x3F, 0x01, 0x00]).flatten ++ rest)

/-- Two corrupt frames, and a good one behind them. -/
theorem baseGetFrame_returns_third :
    AddressesBelow (idleMuxd false).channellist 32
        (corruptBuffer 2 [0xF9, 0x03, 0x3F, 0x01, 0x1C, 0xF9]) ∧
      ¬ Drops (idleMuxd false).channellist maxResyncGetFrameCount
        (corruptBuffer 2 [0xF9, 0x03, 0x3F, 0x01, 0x1C, 0xF9]) ∧
      ((∃ f, (gsm0710BaseBufferGetFrame (idleMuxd false).channellist
          (corruptBuffer 2 [0xF9, 0x03, 0x3F, 0x01, 0x1C, 0xF9]) 0).1 = .frame f) ∨
        ∃ signalled, (gsm0710BaseBufferGetFrame (idleMuxd false).channellist
          (corruptBuffer 2 [0xF9, 0x03, 0x3F, 0x01, 0x1C, 0xF9]) 0).1 = .null signalled) := by
  have haddresses : AddressesBelow (idleMuxd false).channellist 32
      (corruptBuffer 2 [0xF9, 0x03, 0x3F, 0x01, 0x1C, 0xF9]) :=
    addressesBelow_of_flags (by decide +kernel)
  have hcorrupt : ¬ Drops (idleMuxd false).channellist maxResyncGetFrameCount
      (corruptBuffer 2 [0xF9, 0x03, 0x3F, 0x01, 0x1C, 0xF9]) := by
    rw [← getFrameAt_asserts_iff]
    decide +kernel
  have htable : (idleMuxd false).channellist.length
      = gsm0710MaxChannels ⟨1, false, false, false, false, false⟩ := rfl
  exact ⟨haddresses, hcorrupt, baseGetFrame_returns htable haddresses hcorrupt⟩

/-- Three corrupt frames: the call asserts. -/
theorem three_corrupt_frames :
    AddressesBelow (idleMuxd false).channellist 32 (corruptBuffer 3 [0xF9]) ∧
      (gsm0710BaseBufferGetFrame (idleMuxd false).channellist (corruptBuffer 3 [0xF9]) 0).1
        = .assert 13 :=
  ⟨addressesBelow_of_flags (by decide +kernel), by decide +kernel⟩

end Arale.Mux
