import Arale.Mux.Buffer

/-!
# `gsm0710_advanced_buffer_get_frame`: the advanced-mode decoder

Unlike the basic decoder this one uses up every byte it looks at and keeps
the unescaped part of the frame in the buffer between two calls. A call
starts at `l_begin`: look for a start flag unless one was found, skip the
flags behind it if nothing of a frame is stored yet, and then go through the
bytes one by one until a flag closes the frame. A frame that is too short,
too long or corrupt sends the call back to `l_begin`.

`advMain` is the byte loop, `advBegin` the part before it. The count of
stored bytes bounds the iterations: each of them uses up a byte, the one
that throws away a frame that is too long through the search that follows.
-/

namespace Arale.Mux

open Arale.Lib (Ring)

/-- What a closing flag makes of the unescaped bytes. -/
inductive Closing where
  | tooShort
  | mismatch
  | good (f : Frame)
  deriving DecidableEq, Repr

/-- Header, payload and check sequence of a closed frame. -/
def closeFrame (data : List UInt8) : Closing :=
  if data.length < 3 then .tooShort
  else
    let channel := gsm0710DecodeAddress (data.getD 0 0)
    let control := data.getD 1 0
    let payload := (data.drop 2).take (data.length - 3)
    let fcs := crcStep (crcStep 0xFF (data.getD 0 0)) control
    let fcs' := if gsm0710FrameIs gsm0710TypeUi control then payload.foldl crcStep fcs else fcs
    if crcStep fcs' (data.getD (data.length - 1) 0) ≠ 0xCF then .mismatch
    else .good ⟨channel, control, payload⟩

/-- Find start flag, which resets the frame. -/
def advSearch (buf : Gsm0710Buffer) : Gsm0710Buffer :=
  if buf.flagFound then buf
  else
    let s := findStartFlag gsm0710FrameAdvFlag buf.ring.datacount buf.ring
    if s.1 then
      { buf with
        ring := s.2, flagFound := true, advData := [], advFoundEsc := false
        advData_le := Nat.zero_le _ }
    else { buf with ring := s.2 }

/-- Skip empty frames. The test is on `adv_length` alone, so the flags are
skipped whether or not an escape is pending. -/
def advSkip (buf : Gsm0710Buffer) : Gsm0710Buffer :=
  if buf.flagFound && buf.advData.isEmpty then
    { buf with ring := skipFlags gsm0710FrameAdvFlag buf.ring.datacount buf.ring }
  else buf

/-- From `l_begin` to the byte loop; `flag_found` is still clear when there
is no start flag. -/
def advBegin (buf : Gsm0710Buffer) : Gsm0710Buffer := advSkip (advSearch buf)

/-- Store an unescaped byte; the callers have tested that there is room. -/
def storeAdv (buf : Gsm0710Buffer) (b : UInt8) (esc : Bool)
    (h : buf.advData.length < gsm0710BufferSize) : Gsm0710Buffer :=
  { buf with
    ring := buf.ring.inc, advData := buf.advData ++ [b], advFoundEsc := esc
    advData_le := by rw [List.length_append]; exact h }

/-- Back to `l_begin`, and on into the byte loop if a frame has started. -/
def advResume (loop : Gsm0710Buffer → GetFrame × Gsm0710Buffer) (buf : Gsm0710Buffer) :
    GetFrame × Gsm0710Buffer :=
  if (advBegin buf).flagFound then loop (advBegin buf) else (.null false, advBegin buf)

/-- The byte loop, at most `n` times. -/
def advMain : Nat → Gsm0710Buffer → GetFrame × Gsm0710Buffer
  | 0, buf => (.null false, buf)
  | n + 1, buf =>
    if buf.ring.datacount = 0 then (.null false, buf)
    else if buf.advFoundEsc = false ∧ buf.ring.peek = gsm0710FrameAdvFlag then
      match closeFrame buf.advData with
      | .tooShort => advResume (advMain n) { buf with ring := buf.ring.inc, flagFound := false }
      | .mismatch =>
        advResume (advMain n)
          { buf with
            ring := buf.ring.inc, flagFound := false, droppedCount := buf.droppedCount + 1 }
      | .good f =>
        (.frame f,
          { buf with
            ring := buf.ring.inc, flagFound := false, receivedCount := buf.receivedCount + 1 })
    else if h : buf.advData.length < gsm0710BufferSize then
      if buf.advFoundEsc then
        advMain n (storeAdv buf (buf.ring.peek ^^^ gsm0710FrameAdvEscCopml) false h)
      else if buf.ring.peek = gsm0710FrameAdvEsc then
        advMain n { buf with ring := buf.ring.inc, advFoundEsc := true }
      else advMain n (storeAdv buf buf.ring.peek false h)
    else
      advResume (advMain n)
        { buf with flagFound := false, droppedCount := buf.droppedCount + 1 }

/-- Gets a advanced option frame from buffer. -/
def gsm0710AdvancedBufferGetFrame (buf : Gsm0710Buffer) : GetFrame × Gsm0710Buffer :=
  advResume (advMain buf.ring.datacount) buf

section Exits

variable {P : GetFrame × Gsm0710Buffer → Prop} (hnull : ∀ buf, P (.null false, buf))
include hnull

theorem advResume_exits {loop : Gsm0710Buffer → GetFrame × Gsm0710Buffer}
    (hloop : ∀ buf, P (loop buf)) (buf : Gsm0710Buffer) : P (advResume loop buf) := by
  unfold advResume
  split
  · exact hloop _
  · exact hnull _

variable (hframe : ∀ (buf : Gsm0710Buffer) f, closeFrame buf.advData = .good f → P (.frame f,
  { buf with ring := buf.ring.inc, flagFound := false, receivedCount := buf.receivedCount + 1 }))
include hframe

theorem advMain_exits (n : Nat) (buf : Gsm0710Buffer) : P (advMain n buf) := by
  induction n generalizing buf with
  | zero => exact hnull buf
  | succ n ih =>
    unfold advMain
    split
    · exact hnull buf
    · split
      · split
        · exact advResume_exits hnull ih _
        · exact advResume_exits hnull ih _
        · next f hclose => exact hframe buf f hclose
      · split
        · split
          · exact ih _
          · split
            · exact ih _
            · exact ih _
        · exact advResume_exits hnull ih _

/-- What holds of every way out of a call holds of its result. -/
theorem advGetFrame_exits (buf : Gsm0710Buffer) : P (gsm0710AdvancedBufferGetFrame buf) :=
  advResume_exits hnull (advMain_exits hnull hframe _) buf

end Exits

end Arale.Mux
