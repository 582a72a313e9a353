import Arale.Mux.AdvStream
import Arale.Mux.BaseRoundTrip

/-!
# Advanced mode: round trip and resynchronisation

Both results are about every run over a stream, with the skip at the head of
a call admitted (`AdvRun true`), so that they hold for every cut. `Leads`
says that all runs to the end of a stream come by a certain state with
certain results; along an encoded frame they do because there is never a
choice: an octet behind an escape is not a flag (`escaped_ne_flag`).

* From a state that is in step (`Synced`) the encoding of a frame leads to
  that frame (`leads_frame`): the round trip `advFeed_roundTrip`.
* From any state at all, the last octet of an encoded frame and its closing
  flag lead back in step (`resync`): whatever was stored is closed by the
  flag, or the flag opens the next frame. So noise costs at most the frame
  behind it, `advFeed_resync`.
-/

namespace Arale.Mux

open List

/-! ## Coming by a state -/

/-- Every run from `s` to the end of `xs` comes by `t`, in front of `ys` and
with results `ps`. -/
def Leads (s : AdvState) (xs : List UInt8) (t : AdvState) (ys : List UInt8)
    (ps : List Event) : Prop :=
  ∀ (s' : AdvState) (os : List Event), AdvRun true s xs s' [] os →
    ∃ os', os = ps ++ os' ∧ AdvRun true t ys s' [] os'

theorem Leads.refl (s : AdvState) (xs : List UInt8) : Leads s xs s xs [] :=
  fun _ _ h => ⟨_, rfl, h⟩

variable {s : AdvState} {xs ys : List UInt8}

theorem Leads.trans {t u : AdvState} {zs : List UInt8} {ps qs : List Event}
    (h₁ : Leads s xs t ys ps) (h₂ : Leads t ys u zs qs) : Leads s xs u zs (ps ++ qs) := by
  intro s' os hrun
  obtain ⟨os', rfl, hrun'⟩ := h₁ s' os hrun
  obtain ⟨os'', rfl, hrun''⟩ := h₂ s' os' hrun'
  exact ⟨os'', (append_assoc _ _ _).symm, hrun''⟩

/-- A step of the decoder is the only way on, unless a flag octet meets a
pending escape with nothing stored. -/
theorem Leads.of_step {t : AdvState} {ps : List Event}
    (hdet : s ≠ .reading [] true ∨ xs.head? ≠ some gsm0710FrameAdvFlag)
    (hstep : advStep s xs = some (t, ys, ps)) : Leads s xs t ys ps := by
  intro s' os hrun
  cases hrun with
  | refl =>
    cases hstep
  | step hstep' hrest =>
    cases hstep.symm.trans hstep'
    exact ⟨_, rfl, hrest⟩
  | skip _ _ =>
    rcases hdet with h | h
    · exact absurd rfl h
    · exact absurd rfl h

/-- A step uses up at most one byte, so every run to the end comes by every
place of the stream. -/
theorem comes_by {s' : AdvState} {os : List Event} {g rest : List UInt8}
    (h : AdvRun true s xs s' ys os) (hxs : xs = g ++ rest) (hys : ys = []) :
    ∃ t ps os', os = ps ++ os' ∧ AdvRun true t rest s' [] os' := by
  induction h generalizing g with
  | refl s xs =>
    subst hys
    obtain ⟨-, rfl⟩ := append_eq_nil_iff.mp hxs.symm
    exact ⟨s, [], [], rfl, AdvRun.refl _ _⟩
  | @step s mid last xs mids ws os ps hstep hrest ih =>
    cases g with
    | nil =>
      cases hxs
      cases hys
      exact ⟨s, [], os ++ ps, rfl, AdvRun.step hstep hrest⟩
    | cons b g =>
      cases hxs
      -- the byte is still there behind a frame that was thrown away
      obtain ⟨g', hmids⟩ : ∃ g', mids = g' ++ rest := by
        obtain ⟨u, qs, hcons | hcons⟩ := advStep_cons s b
        · cases (hcons _).symm.trans hstep
          exact ⟨g, rfl⟩
        · cases (hcons _).symm.trans hstep
          exact ⟨b :: g, rfl⟩
      obtain ⟨t, ps', os', rfl, hrun⟩ := ih hmids hys
      exact ⟨t, os ++ ps', os', (append_assoc _ _ _).symm, hrun⟩
  | @skip s bs ws ps hallow hrest ih =>
    cases g with
    | nil =>
      cases hxs
      cases hys
      exact ⟨_, [], ps, rfl, AdvRun.skip hallow hrest⟩
    | cons b g =>
      cases hxs
      exact ih rfl hys

/-! ## Escaping -/

theorem escaped_ne_flag : ∀ b : UInt8, b ∈ gsm0710FrameAdvEscapedSyms →
    b ^^^ gsm0710FrameAdvEscCopml ≠ gsm0710FrameAdvFlag ∧
    b ^^^ gsm0710FrameAdvEscCopml ≠ gsm0710FrameAdvEsc ∧
    (b ^^^ gsm0710FrameAdvEscCopml) ^^^ gsm0710FrameAdvEscCopml = b :=
  forall_octet (by decide +kernel)

theorem plain_ne_flag : ∀ b : UInt8, b ∉ gsm0710FrameAdvEscapedSyms →
    b ≠ gsm0710FrameAdvFlag ∧ b ≠ gsm0710FrameAdvEsc :=
  forall_octet (by decide +kernel)

theorem fillAdvFrameBuf_append (xs ys : List UInt8) :
    fillAdvFrameBuf (xs ++ ys) = fillAdvFrameBuf xs ++ fillAdvFrameBuf ys :=
  flatMap_append

theorem fillAdvFrameBuf_cons (b : UInt8) (bs : List UInt8) :
    fillAdvFrameBuf (b :: bs) = fillAdvFrameBuf [b] ++ fillAdvFrameBuf bs :=
  fillAdvFrameBuf_append [b] bs

variable {b : UInt8}

theorem fillAdvFrameBuf_escaped (h : b ∈ gsm0710FrameAdvEscapedSyms) :
    fillAdvFrameBuf [b] = [gsm0710FrameAdvEsc, b ^^^ gsm0710FrameAdvEscCopml] := by
  simp [fillAdvFrameBuf, h]

theorem fillAdvFrameBuf_plain (h : b ∉ gsm0710FrameAdvEscapedSyms) : fillAdvFrameBuf [b] = [b] := by
  simp [fillAdvFrameBuf, h]

/-- Escaped bytes lead to the bytes themselves, as long as they fit. -/
theorem leads_unescape (xs : List UInt8) (data d : List UInt8)
    (hroom : d.length + data.length ≤ gsm0710BufferSize) :
    Leads (.reading d false) (fillAdvFrameBuf data ++ xs) (.reading (d ++ data) false) xs [] := by
  induction data generalizing d with
  | nil =>
    rw [append_nil]
    exact Leads.refl _ _
  | cons b data ih =>
    rw [length_cons] at hroom
    have hd : d.length < gsm0710BufferSize := by omega
    have hrest := ih (d ++ [b]) (by rw [length_append, length_singleton]; omega)
    rw [append_assoc, singleton_append] at hrest
    rw [fillAdvFrameBuf_cons, append_assoc]
    by_cases hb : b ∈ gsm0710FrameAdvEscapedSyms
    · obtain ⟨hflag, _, hxor⟩ := escaped_ne_flag b hb
      rw [fillAdvFrameBuf_escaped hb]
      have hesc : Leads (.reading d false)
          (gsm0710FrameAdvEsc :: (b ^^^ gsm0710FrameAdvEscCopml) :: (fillAdvFrameBuf data ++ xs))
          (.reading d true) ((b ^^^ gsm0710FrameAdvEscCopml) :: (fillAdvFrameBuf data ++ xs))
          [] := by
        refine Leads.of_step (Or.inl (by simp)) ?_
        rw [advStep, if_neg (by decide), if_pos hd]
        rfl
      have hbyte : Leads (.reading d true)
          ((b ^^^ gsm0710FrameAdvEscCopml) :: (fillAdvFrameBuf data ++ xs))
          (.reading (d ++ [b]) false) (fillAdvFrameBuf data ++ xs) [] := by
        refine Leads.of_step (Or.inr fun heq => hflag (Option.some.inj heq)) ?_
        rw [advStep, if_neg (by simp), if_pos hd]
        show some (AdvState.reading (d ++ [_]) false, _, _) = _
        rw [hxor]
      exact hesc.trans (hbyte.trans hrest)
    · obtain ⟨hflag, hesc⟩ := plain_ne_flag b hb
      rw [fillAdvFrameBuf_plain hb]
      have hbyte : Leads (.reading d false) (b :: (fillAdvFrameBuf data ++ xs))
          (.reading (d ++ [b]) false) (fillAdvFrameBuf data ++ xs) [] := by
        refine Leads.of_step (Or.inl (by simp)) ?_
        rw [advStep, if_neg fun h => hflag h.2, if_pos hd]
        unfold advByte
        rw [if_neg (by simp), if_neg hesc]
      exact hbyte.trans hrest

/-! ## One frame -/

/-- The octets a frame carries between its flags, before escaping. -/
def advOctets (f : Frame) : List UInt8 :=
  [addressField f.channel.toNat, f.control] ++ f.data
    ++ [frameCalcCrc [addressField f.channel.toNat, f.control]]

theorem advFrame_eq (f : Frame) :
    advFrame f.channel.toNat f.control f.data
      = gsm0710FrameAdvFlag :: (fillAdvFrameBuf (advOctets f) ++ [gsm0710FrameAdvFlag]) := by
  unfold advFrame advOctets
  rw [fillAdvFrameBuf_append, fillAdvFrameBuf_append]

/-- A frame the advanced decoder can hand over. -/
structure AdvSendable (f : Frame) : Prop where
  channel_lt : f.channel.toNat < 64
  not_ui : gsm0710FrameIs gsm0710TypeUi f.control = false
  room : f.data.length + 3 ≤ gsm0710BufferSize

theorem closeFrame_octets {f : Frame} (h : AdvSendable f) : closeFrame (advOctets f) = .good f := by
  have hresidue := crcStep_frameCalcCrc [addressField f.channel.toNat, f.control]
  have haddr := decodeAddress_addressField h.channel_lt
  generalize hcheck : frameCalcCrc [addressField f.channel.toNat, f.control] = check at hresidue
  have hoctets : advOctets f
      = addressField f.channel.toNat :: f.control :: (f.data ++ [check]) := by
    unfold advOctets
    rw [hcheck]
    rfl
  have hlen : (advOctets f).length = f.data.length + 3 := by
    rw [hoctets]
    simp
  have hlast : (advOctets f).getD (f.data.length + 3 - 1) 0 = check := by
    rw [hoctets]
    simp
  have hpayload : ((advOctets f).drop 2).take (f.data.length + 3 - 3) = f.data := by
    rw [hoctets]
    simp
  unfold closeFrame
  rw [hlen, if_neg (by omega), hlast, hpayload, hoctets]
  simp only [getD_cons_zero, getD_cons_succ, h.not_ui, Bool.false_eq_true, if_false,
    haddr]
  rw [if_neg (by simpa using hresidue)]

/-- In step with the sender: between frames, or behind a flag that may be
the opening one. -/
def Synced (s : AdvState) : Prop := s = .hunting ∨ s = .reading [] false

/-- **An encoded frame leads to that frame**, and in step behind it. -/
theorem leads_frame {f : Frame} (h : AdvSendable f) (hs : Synced s) (xs : List UInt8) :
    Leads s (advFrame f.channel.toNat f.control f.data ++ xs) .hunting xs [.frame f] := by
  have hlen : (advOctets f).length = f.data.length + 3 := by simp [advOctets]
  rw [advFrame_eq, cons_append, append_assoc, singleton_append]
  have hopen : Leads s (gsm0710FrameAdvFlag ::
      (fillAdvFrameBuf (advOctets f) ++ gsm0710FrameAdvFlag :: xs)) (.reading [] false)
      (fillAdvFrameBuf (advOctets f) ++ gsm0710FrameAdvFlag :: xs) [] := by
    rcases hs with rfl | rfl
    · exact Leads.of_step (Or.inl (by simp)) rfl
    · exact Leads.of_step (Or.inl (by simp)) rfl
  have hbody := leads_unescape (gsm0710FrameAdvFlag :: xs) (advOctets f) []
    (by rw [hlen]; simpa using h.room)
  have hclose : Leads (.reading (advOctets f) false) (gsm0710FrameAdvFlag :: xs) .hunting xs
      [.frame f] := by
    refine Leads.of_step (Or.inl (by simp)) ?_
    rw [advStep, if_pos ⟨rfl, rfl⟩, if_neg (by simp [advOctets]), closeFrame_octets h]
    rfl
  exact hopen.trans (hbody.trans hclose)

theorem leads_frames (frames : List Frame) (h : ∀ f ∈ frames, AdvSendable f) (hs : Synced s) :
    ∃ t, Leads s (frames.flatMap fun f => advFrame f.channel.toNat f.control f.data) t []
      (frames.map Event.frame) := by
  induction frames generalizing s with
  | nil => exact ⟨s, Leads.refl s []⟩
  | cons f frames ih =>
    obtain ⟨t, hrest⟩ := ih (fun g hg => h g (mem_cons_of_mem f hg)) (.inl rfl)
    exact ⟨t, (leads_frame (h f mem_cons_self) hs _).trans hrest⟩

/-! ## Back in step -/

/-- **Resynchronisation.** An octet that is neither flag nor escape, and a
flag behind it, bring the decoder in step from any state. -/
theorem resync (hflag : b ≠ gsm0710FrameAdvFlag) (hesc : b ≠ gsm0710FrameAdvEsc) (s : AdvState)
    (xs : List UInt8) : ∃ t ps, Synced t ∧ Leads s (b :: gsm0710FrameAdvFlag :: xs) t xs ps := by
  -- hunting, the octet is passed over and the flag taken for an opening one
  have hhunt : Leads .hunting (b :: gsm0710FrameAdvFlag :: xs) (.reading [] false) xs [] := by
    have hpass : Leads .hunting (b :: gsm0710FrameAdvFlag :: xs) .hunting
        (gsm0710FrameAdvFlag :: xs) [] := by
      refine Leads.of_step (Or.inl (by simp)) ?_
      rw [advStep, if_neg hflag]
    exact hpass.trans (Leads.of_step (Or.inl (by simp)) rfl)
  have hdet : (b :: gsm0710FrameAdvFlag :: xs).head? ≠ some gsm0710FrameAdvFlag :=
    fun heq => hflag (Option.some.inj heq)
  cases s with
  | hunting => exact ⟨_, _, Or.inr rfl, hhunt⟩
  | reading d esc =>
    by_cases hroom : d.length < gsm0710BufferSize
    · -- the octet is stored, whatever was pending, and the flag closes the frame
      obtain ⟨c, hbyte⟩ : ∃ c, advByte d esc b = .reading (d ++ [c]) false := by
        unfold advByte
        cases esc with
        | true => exact ⟨_, rfl⟩
        | false => exact ⟨b, by rw [if_neg (by simp), if_neg hesc]⟩
      have hstore : Leads (.reading d esc) (b :: gsm0710FrameAdvFlag :: xs)
          (.reading (d ++ [c]) false) (gsm0710FrameAdvFlag :: xs) [] := by
        refine Leads.of_step (Or.inr hdet) ?_
        rw [advStep, if_neg fun h => hflag h.2, if_pos hroom, hbyte]
      have hclose : Leads (.reading (d ++ [c]) false) (gsm0710FrameAdvFlag :: xs) .hunting xs
          (closeFrame (d ++ [c])).events := by
        refine Leads.of_step (Or.inl (by simp)) ?_
        rw [advStep, if_pos ⟨rfl, rfl⟩, if_neg (by simp)]
      exact ⟨_, _, Or.inl rfl, hstore.trans hclose⟩
    · have hdrop : Leads (.reading d esc) (b :: gsm0710FrameAdvFlag :: xs) .hunting
          (b :: gsm0710FrameAdvFlag :: xs) [.dropped] := by
        refine Leads.of_step (Or.inr hdet) ?_
        rw [advStep, if_neg fun h => hflag h.2, if_neg hroom]
      exact ⟨_, _, Or.inr rfl, hdrop.trans hhunt⟩

/-- The octet in front of the closing flag is neither flag nor escape. -/
theorem advFrame_tail (f : Frame) :
    ∃ w b, advFrame f.channel.toNat f.control f.data = w ++ [b, gsm0710FrameAdvFlag] ∧
      b ≠ gsm0710FrameAdvFlag ∧ b ≠ gsm0710FrameAdvEsc := by
  rw [advFrame_eq]
  unfold advOctets
  rw [fillAdvFrameBuf_append]
  generalize frameCalcCrc [addressField f.channel.toNat, f.control] = check
  generalize fillAdvFrameBuf ([addressField f.channel.toNat, f.control] ++ f.data) = front
  by_cases hb : check ∈ gsm0710FrameAdvEscapedSyms
  · obtain ⟨hflag, hesc, _⟩ := escaped_ne_flag check hb
    rw [fillAdvFrameBuf_escaped hb]
    exact ⟨gsm0710FrameAdvFlag :: (front ++ [gsm0710FrameAdvEsc]), _, by simp, hflag, hesc⟩
  · obtain ⟨hflag, hesc⟩ := plain_ne_flag check hb
    rw [fillAdvFrameBuf_plain hb]
    exact ⟨gsm0710FrameAdvFlag :: front, _, by simp, hflag, hesc⟩

/-! ## Streams -/

/-- The frames a sequence of calls puts on the line. -/
def wireFrames : Muxd → List Frame → List Frame
  | _, [] => []
  | m, f :: fs =>
    wireFrame m f :: wireFrames (afterWrite m f (advFrame (wireFrame m f).channel.toNat
      (wireFrame m f).control (wireFrame m f).data)) fs

/-- `write_frame` masks the address to six bits. -/
theorem wireFrames_channel_lt (reqs : List Frame) (m : Muxd) :
    ∀ f ∈ wireFrames m reqs, f.channel.toNat < 64 := by
  have hmask : ∀ c : UInt8, (63 &&& c).toNat < 64 := forall_octet (by decide +kernel)
  induction reqs generalizing m with
  | nil => exact fun f hf => by cases hf
  | cons r reqs ih =>
    intro f hf
    rcases mem_cons.mp hf with rfl | hf
    · exact hmask r.channel
    · exact ih _ f hf

/-- A sequence of calls emits the encodings of its wire frames. -/
theorem sendFrames_wire (reqs : List Frame) {m m' : Muxd} (hstop : m.stopMuxd = false)
    (hmode : m.cmuxMode = true) (hw : m.writes = []) (h : sendFrames m reqs = some m') :
    m'.sent = m.sent
      ++ (wireFrames m reqs).flatMap fun f => advFrame f.channel.toNat f.control f.data := by
  induction reqs generalizing m m' with
  | nil =>
    cases h
    simp [wireFrames]
  | cons r reqs ih =>
    obtain ⟨mid, hone, hrest⟩ := Option.bind_eq_some_iff.mp h
    have hmid := writeFrame_advanced hstop hmode hw hone
    have hstep := @ih mid m' (by rw [hmid]; exact hstop) (by rw [hmid]; exact hmode)
      (by rw [hmid]; exact hw) hrest
    rw [hstep, wireFrames, flatMap_cons, ← append_assoc, ← hmid]
    rw [hmid]
    rfl

theorem sendFrames_advanced (frames : List Frame) {m : Muxd} (hstop : m.stopMuxd = false)
    (hmode : m.cmuxMode = true) (hpf : m.uihPfBitReceived = false) (hw : m.writes = [])
    (hN1 : ∀ f ∈ frames, ∃ ch, m.channellist[f.channel.toNat]? = some ch ∧
      f.data.length ≤ ch.negotiatedN1)
    (hfit : ∀ f ∈ frames, (advFrame f.channel.toNat f.control f.data).length ≤ m.advFrameBufSize) :
    sendFrames m frames
      = some (m.emit (frames.flatMap fun f => advFrame f.channel.toNat f.control f.data)) := by
  induction frames generalizing m with
  | nil =>
    show some m = some (m.emit [])
    rw [Muxd.emit_nil]
  | cons f frames ih =>
    obtain ⟨ch, hch, hle⟩ := hN1 f mem_cons_self
    have hone := writeFrame_advanced_whole hstop hmode hpf hw hch hle (hfit f mem_cons_self)
    have hrest := @ih (m.emit (advFrame f.channel.toNat f.control f.data)) hstop hmode hpf hw
      (fun g hg => hN1 g (mem_cons_of_mem f hg))
      (fun g hg => hfit g (mem_cons_of_mem f hg))
    unfold sendFrames at hrest ⊢
    rw [foldlM_cons, hone, flatMap_cons, ← Muxd.emit_emit]
    exact hrest

/-- A run over no bytes has no results. -/
theorem advRun_nil {s' : AdvState} {os : List Event} (h : AdvRun true s [] s' ys os) : os = [] := by
  cases h with
  | refl => rfl
  | step hstep _ =>
    cases hstep

/-- A feed of the advanced decoder into an empty buffer, as a run to the end
of the stream. -/
theorem advFeed_run {buf : Gsm0710Buffer} {ps : List (List UInt8)} (hempty : buf.unread = [])
    (hflag : buf.flagFound = false) (hfits : Fits gsm0710AdvancedBufferGetFrame buf ps) :
    ∃ fs buf' os, feed gsm0710AdvancedBufferGetFrame buf ps = .ok (fs, buf') ∧
      AdvRun true .hunting ps.flatten (advAbs buf') [] os ∧ framesOf os = fs ∧
      buf'.droppedCount = buf.droppedCount + os.count .dropped := by
  have henters : Enters (fun buf => buf.flagFound = false ∨ true = true ∨ NoPendingSkip buf)
      gsm0710AdvancedBufferGetFrame buf ps :=
    Along.mono (fun _ _ _ => Or.inr (Or.inl rfl)) ps hfits
  obtain ⟨fs, buf', os, hfeed, hrun, hframes, hcount, hend⟩ := advFeed_returns hfits henters
  rw [hempty, hend hempty, nil_append, advAbs_hunting hflag] at hrun
  exact ⟨fs, buf', os, hfeed, hrun, hframes, hcount⟩

/-- **Advanced-mode round trip.** The bytes `write_frame` emits for a
sequence of frames, cut in any way into pieces that fit, come out as exactly
those frames with nothing dropped. -/
theorem advFeed_roundTrip {m : Muxd} {frames : List Frame} (hstop : m.stopMuxd = false)
    (hmode : m.cmuxMode = true) (hpf : m.uihPfBitReceived = false) (hw : m.writes = [])
    (hchannel : ∀ f ∈ frames, f.channel.toNat < 64) (hcontrol : ∀ f ∈ frames,
      f.control ≠ gsm0710TypeUi ∧ f.control ≠ gsm0710TypeUi ||| gsm0710Pf)
    (hN1 : ∀ f ∈ frames, ∃ ch, m.channellist[f.channel.toNat]? = some ch ∧
      f.data.length ≤ ch.negotiatedN1) (hroom : ∀ f ∈ frames, f.data.length + 3 ≤ gsm0710BufferSize)
    (hfit : ∀ f ∈ frames,
      (advFrame f.channel.toNat f.control f.data).length ≤ m.advFrameBufSize) :
    ∃ bytes, sendFrames m frames = some (m.emit bytes) ∧
      ∀ (buf : Gsm0710Buffer) (ps : List (List UInt8)), buf.unread = [] →
        buf.flagFound = false → ps.flatten = bytes →
        Fits gsm0710AdvancedBufferGetFrame buf ps →
        ∃ buf', feed gsm0710AdvancedBufferGetFrame buf ps = .ok (frames, buf') ∧
          buf'.droppedCount = buf.droppedCount := by
  refine ⟨_, sendFrames_advanced frames hstop hmode hpf hw hN1 hfit, ?_⟩
  intro buf ps hempty hflag hcut hfits
  have hsend : ∀ f ∈ frames, AdvSendable f := fun f hf =>
    ⟨hchannel f hf, frameIs_ui _ (hcontrol f hf).1 (hcontrol f hf).2, hroom f hf⟩
  obtain ⟨fs, buf', os, hfeed, hrun, hframes, hcount⟩ := advFeed_run hempty hflag hfits
  obtain ⟨t, hleads⟩ := leads_frames frames hsend (Or.inl rfl)
  rw [hcut] at hrun
  obtain ⟨os', rfl, hrest⟩ := hleads _ _ hrun
  obtain rfl := advRun_nil hrest
  rw [append_nil] at hframes hcount
  rw [framesOf_frames] at hframes
  subst hframes
  refine ⟨buf', hfeed, ?_⟩
  rw [hcount, count_dropped_frames, Nat.add_zero]

/-- A UIH frame whose payload holds a flag octet, and a SABM, byte by byte
across the end of the ring. -/
theorem advFeed_roundTrip_two :
    ∃ bytes, sendFrames (idleMuxd true) [⟨5, 0xEF, [0x7E, 0x41]⟩, ⟨0, 0x3F, []⟩]
        = some ((idleMuxd true).emit bytes) ∧
      ∃ buf', feed gsm0710AdvancedBufferGetFrame (gsm0710BufferInit ⟨4090, by decide⟩)
          (bytes.map fun x => [x])
          = .ok ([⟨5, 0xEF, [0x7E, 0x41]⟩, ⟨0, 0x3F, []⟩], buf') ∧
        buf'.droppedCount = 0 := by
  obtain ⟨bytes, hsend, hread⟩ := @advFeed_roundTrip (idleMuxd true)
    [⟨5, 0xEF, [0x7E, 0x41]⟩, ⟨0, 0x3F, []⟩] rfl rfl rfl rfl (by decide) (by decide)
    (by decide +kernel) (by decide) (by decide +kernel)
  refine ⟨bytes, hsend, ?_⟩
  obtain rfl : [0x7E, 0x17, 0xEF, 0x7D, 0x5E, 0x41, 0x10, 0x7E, 0x7E, 0x03, 0x3F, 0xFC, 0x7E]
      = bytes := by
    refine Option.some.inj (Eq.trans ?_ (congrArg (Option.map Muxd.sent) hsend))
    decide +kernel
  exact hread (gsm0710BufferInit ⟨4090, by decide⟩) _ rfl rfl (by decide) (by decide +kernel)

/-- **Noise costs at most one good frame.** Whatever bytes come first, and
however the stream is cut, all frames of a sequence but the first come out,
in order and with nothing behind them. -/
theorem advFeed_resync {m m' : Muxd} {r : Frame} {reqs : List Frame} {g bytes : List UInt8}
    {buf : Gsm0710Buffer} {ps : List (List UInt8)} (hstop : m.stopMuxd = false)
    (hmode : m.cmuxMode = true) (hw : m.writes = []) (hsend : sendFrames m (r :: reqs) = some m')
    (hbytes : m'.sent = m.sent ++ bytes) (hcontrol : ∀ f ∈ wireFrames m (r :: reqs),
      f.control ≠ gsm0710TypeUi ∧ f.control ≠ gsm0710TypeUi ||| gsm0710Pf)
    (hroom : ∀ f ∈ wireFrames m (r :: reqs), f.data.length + 3 ≤ gsm0710BufferSize)
    (hempty : buf.unread = []) (hflag : buf.flagFound = false) (hcut : ps.flatten = g ++ bytes)
    (hfits : Fits gsm0710AdvancedBufferGetFrame buf ps) :
    ∃ pre buf', feed gsm0710AdvancedBufferGetFrame buf ps
      = .ok (pre ++ (wireFrames m (r :: reqs)).tail, buf') := by
  obtain ⟨fs, buf', os, hfeed, hrun, hframes, _⟩ := advFeed_run hempty hflag hfits
  have hsent := sendFrames_wire (r :: reqs) hstop hmode hw hsend
  rw [hbytes] at hsent
  have hstream := append_cancel_left hsent
  have hall : ∀ f ∈ wireFrames m (r :: reqs), AdvSendable f := fun f hf =>
    ⟨wireFrames_channel_lt _ m f hf, frameIs_ui _ (hcontrol f hf).1 (hcontrol f hf).2, hroom f hf⟩
  unfold wireFrames at hstream hall ⊢
  generalize wireFrame m r = f₁ at hstream hall ⊢
  generalize wireFrames _ reqs = rest at hstream hall ⊢
  -- everything up to the last octet of the first frame may have led anywhere
  obtain ⟨w, b, htail, hb, hb'⟩ := advFrame_tail f₁
  have hsplit : ps.flatten = (g ++ w) ++ b :: gsm0710FrameAdvFlag ::
      (rest.flatMap fun f => advFrame f.channel.toNat f.control f.data) := by
    rw [hcut, hstream, flatMap_cons, htail]
    simp
  obtain ⟨s, ps₁, os₁, rfl, hrun₁⟩ := comes_by hrun hsplit rfl
  obtain ⟨t, ps₂, hsync, hleads⟩ := resync hb hb' s _
  obtain ⟨os₂, rfl, hrun₂⟩ := hleads _ _ hrun₁
  obtain ⟨u, hleads'⟩ := leads_frames rest (fun f hf => hall f (mem_cons_of_mem f₁ hf)) hsync
  obtain ⟨os₃, rfl, hrun₃⟩ := hleads' _ _ hrun₂
  obtain rfl := advRun_nil hrun₃
  refine ⟨framesOf ps₁ ++ framesOf ps₂, buf', ?_⟩
  rw [hfeed, ← hframes, framesOf_append, framesOf_append, append_nil, framesOf_frames,
    append_assoc, tail_cons]

/-- Noise that ends in an escape, cut right behind it: the opening flag of the
first frame is skipped with the escape still pending. -/
theorem advFeed_resync_escape :
    ∃ pre buf', feed gsm0710AdvancedBufferGetFrame (gsm0710BufferInit ⟨4094, by decide⟩)
        [[0x7E, 0x7D], [0x7E, 0x17, 0xEF, 0x7D], [0x5E, 0x41, 0x10, 0x7E, 0x7E, 0x03, 0x3F, 0xFC],
          [0x7E]]
      = .ok (pre ++ [⟨0, 0x3F, []⟩], buf') := by
  have hsend : ∃ m', sendFrames (idleMuxd true) [⟨5, 0xEF, [0x7E, 0x41]⟩, ⟨0, 0x3F, []⟩]
      = some m' ∧ m'.sent = (idleMuxd true).sent ++ [0x7E, 0x17, 0xEF, 0x7D, 0x5E, 0x41, 0x10,
        0x7E, 0x7E, 0x03, 0x3F, 0xFC, 0x7E] := by
    refine Option.map_eq_some_iff.mp ?_
    decide +kernel
  obtain ⟨m', hm', hsent⟩ := hsend
  have htail : (wireFrames (idleMuxd true) [⟨5, 0xEF, [0x7E, 0x41]⟩, ⟨0, 0x3F, []⟩]).tail
      = [⟨0, 0x3F, []⟩] := by decide +kernel
  rw [← htail]
  exact @advFeed_resync (idleMuxd true) m' ⟨5, 0xEF, [0x7E, 0x41]⟩ [⟨0, 0x3F, []⟩] [0x7E, 0x7D] _
    (gsm0710BufferInit ⟨4094, by decide⟩) _ rfl rfl rfl hm' hsent (by decide +kernel)
    (by decide +kernel) rfl rfl (by decide) (by decide +kernel)

end Arale.Mux
