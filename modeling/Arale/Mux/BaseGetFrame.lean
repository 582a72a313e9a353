import Arale.Mux.Buffer
import Arale.Mux.Channel

/-!
# `gsm0710_base_buffer_get_frame`: the basic-mode decoder

A call looks for a start flag, skips the flags behind it and then analyses
one frame on local copies of the read pointer and the count. Nothing of the
analysis is committed when the frame is not complete yet; a corrupt frame is
thrown away up to the point the analysis had reached, and the function calls
itself to find the next one, at most `MAX_RESYNC_GET_FRAME_COUNT` deep.

`baseAnalyze` is the analysis on the ring. `verdict` is the same decision
over the stored bytes as a list, where it can be read off their shape, and
`baseAnalyze_contents` says that the two agree.
-/

namespace Arale.Mux

open List
open Arale.Lib (Ring)

/-- The outcome of analysing one frame, over a type of positions: not enough
bytes for a header, frame not completely stored, a channel outside the
table, a corrupt frame thrown away up to `rest`, or a good one that ends
there. -/
inductive Verdict (ρ : Type) where
  | short
  | incomplete
  | outOfTable
  | drop (rest : ρ)
  | accept (f : Frame) (rest : ρ)

def Verdict.map {ρ ρ' : Type} (g : ρ → ρ') : Verdict ρ → Verdict ρ'
  | short => short
  | incomplete => incomplete
  | outOfTable => outOfTable
  | drop rest => drop (g rest)
  | accept f rest => accept f (g rest)

/-- The check sequence covers the payload in UI frames only. -/
def payloadFcs (control fcs : UInt8) (data : List UInt8) : UInt8 :=
  if gsm0710FrameIs gsm0710TypeUi control then data.foldl crcStep fcs else fcs

/-- From the last length octet on: the sanity check of the length, payload,
check sequence and end flag. -/
def baseBody (channellist : List Channel) (channel control fcs : UInt8) (length : Nat)
    (r : Ring UInt8 gsm0710BufferSize) : Verdict (Ring UInt8 gsm0710BufferSize) :=
  match channellist[channel.toNat]? with
  | none => .outOfTable
  | some ch =>
    -- a length beyond `negotiated_N1` leaves the cursor on the length octet
    if (length : Int) > ch.negotiatedN1 then .drop r
    else if r.datacount < 3 + length then .incomplete
    else
      let data := r.inc.copyOut length
      let s := r.inc.skip length
      if crcStep (payloadFcs control fcs data) s.peek ≠ 0xCF then .drop s.inc
      else if s.inc.peek ≠ gsm0710FrameFlag then .drop s.inc
      else .accept ⟨channel, control, data⟩ s.inc.inc

/-- Analyse the frame whose address field is under the read pointer. -/
def baseAnalyze (channellist : List Channel) (r : Ring UInt8 gsm0710BufferSize) :
    Verdict (Ring UInt8 gsm0710BufferSize) :=
  if r.datacount < 5 then .short
  else
    let channel := gsm0710DecodeAddress r.peek
    let control := r.inc.peek
    let s := r.inc.inc
    let fcs := crcStep (crcStep (crcStep 0xFF r.peek) control) s.peek
    let length := ((s.peek &&& 254) >>> 1).toNat
    if s.peek &&& 1 = 0 then
      baseBody channellist channel control (crcStep fcs s.inc.peek)
        (length + s.inc.peek.toNat * 128) s.inc
    else baseBody channellist channel control fcs length s

/-- One call with `levels` levels of recursion left. -/
def getFrameAt (channellist : List Channel) : Nat → Gsm0710Buffer → GetFrame × Gsm0710Buffer
  | 0, buf => (.assert 13, buf)
  | levels + 1, buf =>
    let s := if buf.flagFound then (true, buf.ring)
      else findStartFlag gsm0710FrameFlag buf.ring.datacount buf.ring
    if s.1 = false then (.null buf.inputSleeping, { buf with ring := s.2, flagFound := false })
    else
      let r := skipFlags gsm0710FrameFlag s.2.datacount s.2
      match baseAnalyze channellist r with
      | .short => (.null false, { buf with ring := r, flagFound := true })
      | .incomplete => (.null false, { buf with ring := r, flagFound := true })
      | .outOfTable => (.outOfTable, { buf with ring := r, flagFound := true })
      | .drop rest =>
        getFrameAt channellist levels
          { buf with ring := rest, flagFound := false, droppedCount := buf.droppedCount + 1 }
      | .accept f rest =>
        (.frame f,
          { buf with ring := rest, flagFound := false, receivedCount := buf.receivedCount + 1 })

/-- Gets a complete basic mode frame from buffer. -/
def gsm0710BaseBufferGetFrame (channellist : List Channel) (buf : Gsm0710Buffer)
    (passedDepthLevel : Nat) : GetFrame × Gsm0710Buffer :=
  getFrameAt channellist (maxResyncGetFrameCount - passedDepthLevel) buf

/-! ## The same decision over a list -/

/-- `baseBody` over the last length octet `l` and the bytes behind it. -/
def bodyVerdict (channellist : List Channel) (channel control fcs : UInt8) (length : Nat)
    (l : UInt8) (body : List UInt8) : Verdict (List UInt8) :=
  match channellist[channel.toNat]? with
  | none => .outOfTable
  | some ch =>
    if (length : Int) > ch.negotiatedN1 then .drop (l :: body)
    else
      match body.drop length with
      | check :: last :: rest =>
        if crcStep (payloadFcs control fcs (body.take length)) check ≠ 0xCF then
          .drop (last :: rest)
        else if last ≠ gsm0710FrameFlag then .drop (last :: rest)
        else .accept ⟨channel, control, body.take length⟩ rest
      | _ => .incomplete

/-- The fate of the bytes behind a start flag. -/
def verdict (channellist : List Channel) : List UInt8 → Verdict (List UInt8)
  | a :: c :: l :: x :: y :: rest =>
    let fcs := crcStep (crcStep (crcStep 0xFF a) c) l
    let length := ((l &&& 254) >>> 1).toNat
    if l &&& 1 = 0 then
      bodyVerdict channellist (gsm0710DecodeAddress a) c (crcStep fcs x)
        (length + x.toNat * 128) x (y :: rest)
    else bodyVerdict channellist (gsm0710DecodeAddress a) c fcs length l (x :: y :: rest)
  | _ => .short

theorem inc_contents_cons {r : Ring UInt8 gsm0710BufferSize} {b : UInt8} {bs : List UInt8}
    (h : r.contents = b :: bs) : r.inc.contents = bs := by
  rw [Ring.contents_inc, h, tail_cons]

/-- The analysis behind the length field, read off the stored bytes. -/
theorem baseBody_contents {channellist : List Channel} {channel control fcs l : UInt8}
    {length : Nat} {body : List UInt8} {r : Ring UInt8 gsm0710BufferSize}
    (h : r.contents = l :: body) :
    (baseBody channellist channel control fcs length r).map Ring.contents
      = bodyVerdict channellist channel control fcs length l body := by
  have hcount : r.datacount = body.length + 1 := by
    rw [← Ring.contents_length, h, length_cons]
  have hinc : r.inc.contents = body := inc_contents_cons h
  have hinccount : r.inc.datacount = body.length := by
    rw [← Ring.contents_length, hinc]
  unfold baseBody bodyVerdict
  cases channellist[channel.toNat]? with
  | none => rfl
  | some ch =>
    show Verdict.map _ (if (length : Int) > ch.negotiatedN1 then _ else _) = _
    by_cases hN1 : (length : Int) > ch.negotiatedN1
    · simp only [if_pos hN1, Verdict.map, h]
    · simp only [if_neg hN1]
      by_cases hshort : r.datacount < 3 + length
      · -- fewer than two octets behind the payload
        rw [if_pos hshort]
        have hlen : (body.drop length).length < 2 := by rw [length_drop]; omega
        match hd : body.drop length, hlen with
        | [], _ => rfl
        | [_], _ => rfl
      · rw [if_neg hshort]
        have hle : length ≤ r.inc.datacount := by omega
        have hcopy : r.inc.copyOut length = body.take length := by
          rw [Ring.copyOut_eq hle, hinc]
        have hskip : (r.inc.skip length).contents = body.drop length := by
          rw [Ring.contents_skip hle, hinc]
        match hd : body.drop length with
        | [] =>
          have := congrArg List.length hd
          simp only [length_drop, length_nil] at this
          omega
        | [_] =>
          have := congrArg List.length hd
          simp only [length_drop, length_singleton] at this
          omega
        | check :: last :: rest =>
          rw [hd] at hskip
          have hlast := inc_contents_cons hskip
          rw [hcopy, Ring.peek_of_contents hskip, Ring.peek_of_contents hlast]
          by_cases hfcs : crcStep (payloadFcs control fcs (body.take length)) check ≠ 0xCF
          · simp only [if_pos hfcs, Verdict.map, hlast]
          · simp only [if_neg hfcs]
            by_cases hflag : last ≠ gsm0710FrameFlag
            · simp only [if_pos hflag, Verdict.map, hlast]
            · simp only [if_neg hflag, Verdict.map, inc_contents_cons hlast]

/-- **The analysis on the ring is the one over the stored bytes**, wherever
in the array they lie. -/
theorem baseAnalyze_contents (channellist : List Channel) (r : Ring UInt8 gsm0710BufferSize) :
    (baseAnalyze channellist r).map Ring.contents = verdict channellist r.contents := by
  have hcount := r.contents_length
  unfold baseAnalyze
  match hc : r.contents with
  | a :: c :: l :: x :: y :: rest =>
    rw [hc] at hcount
    have h1 := inc_contents_cons hc
    have h2 := inc_contents_cons h1
    have h3 := inc_contents_cons h2
    rw [if_neg (by simp only [length_cons] at hcount; omega), verdict]
    simp only [Ring.peek_of_contents hc, Ring.peek_of_contents h1, Ring.peek_of_contents h2,
      Ring.peek_of_contents h3]
    by_cases hea : l &&& 1 = 0
    · simp only [if_pos hea]
      exact baseBody_contents h3
    · simp only [if_neg hea]
      exact baseBody_contents h2
  | [] | [_] | [_, _] | [_, _, _] | [_, _, _, _] =>
    rw [hc] at hcount
    rw [if_pos (by simp at hcount; omega)]
    rfl

end Arale.Mux
