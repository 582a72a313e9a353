import Arale.Lib.Ring
import Arale.Mux.Frame

/-!
# The receive buffer

`GSM0710_Buffer` holds the bytes read from the serial device until a frame
decoder has used them, together with what the decoders keep between two
calls: `flag_found`, the counters, and for advanced mode the unescaped part
of the frame being read.

The ring itself is `Lib.Ring`; `adv_data` and `adv_length` are one list,
which cannot outgrow the array. The two condition variables are not part of
the buffer's data: a decoder that signals `bufferready_signal` says so in
its result.
-/

namespace Arale.Mux

open Arale.Lib (Ring)

/-- `GSM0710_Buffer`. -/
structure Gsm0710Buffer where
  ring : Ring UInt8 gsm0710BufferSize
  newdataready : Bool
  inputSleeping : Bool
  flagFound : Bool
  receivedCount : Nat
  droppedCount : Nat
  advData : List UInt8
  advFoundEsc : Bool
  advData_le : advData.length ≤ gsm0710BufferSize

/-- What is stored and not yet used. -/
def Gsm0710Buffer.unread (buf : Gsm0710Buffer) : List UInt8 := buf.ring.contents

def gsm0710BufferLength (buf : Gsm0710Buffer) : Nat := buf.ring.datacount

def gsm0710BufferFree (buf : Gsm0710Buffer) : Nat := gsm0710BufferSize - buf.ring.datacount

/-- An empty buffer as `gsm0710_buffer_init` clears it, with both pointers
at cell `p` (the source starts at cell 0). -/
def gsm0710BufferInit (p : Fin gsm0710BufferSize) : Gsm0710Buffer where
  ring := Ring.empty (fun _ => 0) p p.isLt
  newdataready := false
  inputSleeping := false
  flagFound := false
  receivedCount := 0
  droppedCount := 0
  advData := []
  advFoundEsc := false
  advData_le := Nat.zero_le _

/-- Writes data to the buffer, as much as there is room for. -/
def gsm0710BufferWrite (buf : Gsm0710Buffer) (input : List UInt8) : Gsm0710Buffer :=
  { buf with ring := buf.ring.write input, newdataready := true }

@[simp] theorem unread_init (p : Fin gsm0710BufferSize) : (gsm0710BufferInit p).unread = [] := rfl

/-- A piece that fits is stored whole. -/
theorem unread_write {buf : Gsm0710Buffer} {input : List UInt8}
    (h : input.length ≤ gsm0710BufferFree buf) :
    (gsm0710BufferWrite buf input).unread = buf.unread ++ input :=
  Ring.contents_write_of_le h

/-! ## The two loops both decoders start with -/

/-- Find start flag: every byte looked at is used up, the flag included. -/
def findStartFlag (flag : UInt8) : Nat → Ring UInt8 gsm0710BufferSize →
    Bool × Ring UInt8 gsm0710BufferSize
  | 0, r => (false, r)
  | n + 1, r =>
    if r.datacount = 0 then (false, r)
    else if r.peek = flag then (true, r.inc)
    else findStartFlag flag n r.inc

/-- Skip empty frames: use up the flags that follow. -/
def skipFlags (flag : UInt8) : Nat → Ring UInt8 gsm0710BufferSize →
    Ring UInt8 gsm0710BufferSize
  | 0, r => r
  | n + 1, r =>
    if r.datacount = 0 then r
    else if r.peek = flag then skipFlags flag n r.inc
    else r

/-- The search stops behind the first flag, or at the end of the bytes. -/
theorem findStartFlag_contents (flag : UInt8) (n : Nat) (r : Ring UInt8 gsm0710BufferSize)
    (hn : r.datacount ≤ n) :
    ∃ pre, flag ∉ pre ∧
      (((findStartFlag flag n r).1 = true ∧
          r.contents = pre ++ flag :: (findStartFlag flag n r).2.contents) ∨
        ((findStartFlag flag n r).1 = false ∧ r.contents = pre ∧
          (findStartFlag flag n r).2.contents = [])) := by
  fun_induction findStartFlag flag n r with
  | case1 r =>
    have hnil := Ring.contents_eq_nil.mpr (Nat.le_zero.mp hn)
    exact ⟨[], List.not_mem_nil, .inr ⟨rfl, hnil, hnil⟩⟩
  | case2 n r h0 =>
    have hnil := Ring.contents_eq_nil.mpr h0
    exact ⟨[], List.not_mem_nil, .inr ⟨rfl, hnil, hnil⟩⟩
  | case3 n r h0 hflag =>
    refine ⟨[], List.not_mem_nil, .inl ⟨rfl, ?_⟩⟩
    rw [Ring.contents_eq_peek h0, hflag]
    rfl
  | case4 n r h0 hflag ih =>
    obtain ⟨pre, hpre, hcase⟩ := ih (by rw [Ring.inc_datacount]; omega)
    refine ⟨r.peek :: pre, List.not_mem_cons_of_ne_of_not_mem (Ne.symm hflag) hpre, ?_⟩
    rw [Ring.contents_eq_peek h0, List.cons_append]
    rcases hcase with ⟨hfound, heq⟩ | ⟨hfound, heq, hnil⟩
    · exact .inl ⟨hfound, congrArg _ heq⟩
    · exact .inr ⟨hfound, congrArg _ heq, hnil⟩

/-- The skip stops in front of the first byte that is no flag. -/
theorem skipFlags_contents (flag : UInt8) (n : Nat) (r : Ring UInt8 gsm0710BufferSize)
    (hn : r.datacount ≤ n) :
    (∃ k, r.contents = List.replicate k flag ++ (skipFlags flag n r).contents) ∧
      (skipFlags flag n r).contents.head? ≠ some flag := by
  fun_induction skipFlags flag n r with
  | case1 r => exact ⟨⟨0, rfl⟩, by simp [Ring.contents_eq_nil.mpr (Nat.le_zero.mp hn)]⟩
  | case2 n r h0 => exact ⟨⟨0, rfl⟩, by simp [Ring.contents_eq_nil.mpr h0]⟩
  | case3 n r h0 hflag ih =>
    obtain ⟨⟨k, hk⟩, hhead⟩ := ih (by rw [Ring.inc_datacount]; omega)
    refine ⟨⟨k + 1, ?_⟩, hhead⟩
    rw [Ring.contents_eq_peek h0, hflag, hk]
    rfl
  | case4 n r h0 hflag => exact ⟨⟨0, rfl⟩, by simp [Ring.contents_eq_peek h0, hflag]⟩

/-! ## What a decoder call returns -/

/-- The result of a call for a frame. `null` tells whether the call
signalled `bufferready_signal`; `outOfTable` is a read of `channellist[]`
past its end, which has no defined result. -/
inductive GetFrame where
  | frame (f : Frame)
  | null (signalled : Bool)
  | assert (index : Nat)
  | outOfTable
  deriving DecidableEq, Repr

end Arale.Mux
