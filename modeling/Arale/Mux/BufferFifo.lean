import Arale.Lib.Trace
import Arale.Mux.Buffer

/-!
# The receive buffer is a queue

`RawBuffer` is the part of `GSM0710_Buffer` that `gsm0710_buffer_write` and
`gsm0710_buffer_inc` work on, as the source keeps it: no invariant is attached,
pointers are offsets from `data`, and `endp` is the size of the array. On the
fields of a `Ring` both operations are those of the ring (`write_ofRing`,
`inc_ofRing`), so a buffer in use always holds the fields of one.
-/

namespace Arale.Mux

open Arale.Lib (Ring Run anyStep copyAt wrapAdd)

structure RawBuffer where
  data : Nat → UInt8
  readp : Nat
  writep : Nat
  datacount : Nat

namespace RawBuffer

/-- `gsm0710_buffer_write`, with the number of bytes it returns. -/
def write (buf : RawBuffer) (input : List UInt8) : RawBuffer × Nat :=
  let c := gsm0710BufferSize - buf.writep
  let length := min input.length (gsm0710BufferSize - buf.datacount)
  let buf :=
    if length > c then
      { buf with
        data := copyAt (copyAt buf.data buf.writep (input.take c)) 0
          ((input.drop c).take (length - c))
        writep := length - c }
    else
      { buf with
        data := copyAt buf.data buf.writep (input.take length)
        writep := if buf.writep + length = gsm0710BufferSize then 0 else buf.writep + length }
  ({ buf with datacount := buf.datacount + length }, length)

/-- `gsm0710_buffer_inc`. -/
def inc (buf : RawBuffer) : RawBuffer :=
  { buf with
    readp := if buf.readp + 1 = gsm0710BufferSize then 0 else buf.readp + 1
    datacount := buf.datacount - 1 }

/-- The fields of a ring. -/
def ofRing (r : Ring UInt8 gsm0710BufferSize) : RawBuffer :=
  ⟨r.data, r.readp, r.writep, r.datacount⟩

variable {r : Ring UInt8 gsm0710BufferSize}

theorem write_ofRing (r : Ring UInt8 gsm0710BufferSize) (input : List UInt8) :
    (ofRing r).write input = (ofRing (r.write input), r.room input.length) := by
  have hlength : (input.take (r.room input.length)).length = r.room input.length := by
    rw [List.length_take]
    exact Nat.min_eq_left (Nat.min_le_left _ _)
  have hroom : min input.length (gsm0710BufferSize - r.datacount) = r.room input.length := rfl
  simp only [write, Ring.write, Ring.store, wrapAdd, ofRing, hroom, hlength]
  split
  · next hwrap =>
    rw [List.take_take, Nat.min_eq_left (Nat.le_of_lt hwrap), List.drop_take]
  · rfl

theorem inc_ofRing (h : r.datacount ≠ 0) : (ofRing r).inc = ofRing r.inc := by
  unfold Ring.inc
  rw [dif_pos h]
  rfl

end RawBuffer

/-- A buffer in use, with the bytes that were accepted and those that were read
so far. -/
structure BufferUse where
  buf : RawBuffer
  accepted : List UInt8
  read : List UInt8

inductive BufferOp where
  | write (input : List UInt8)
  | inc

/-- A write accepts as many bytes as it says. Only an available byte is read. -/
def bufferStep (s : BufferUse) : BufferOp → Option BufferUse
  | .write input =>
    let (buf, length) := s.buf.write input
    some { s with buf := buf, accepted := s.accepted ++ input.take length }
  | .inc =>
    if s.buf.datacount = 0 then none
    else some { s with buf := s.buf.inc, read := s.read ++ [s.buf.data s.buf.readp] }

/-- The buffer behind `gsm0710_buffer_init`. -/
def BufferUse.init : BufferUse := ⟨⟨fun _ => 0, 0, 0, 0⟩, [], []⟩

/-- The fields are those of a ring, which holds what was accepted and not read. -/
def BufferUse.Queued (s : BufferUse) : Prop :=
  ∃ r, s.buf = .ofRing r ∧ s.accepted = s.read ++ r.contents

theorem bufferStep_queued {s s' : BufferUse} {op : BufferOp} (hs : s.Queued)
    (h : bufferStep s op = some s') : s'.Queued := by
  obtain ⟨r, hbuf, haccepted⟩ := hs
  cases op with
  | write input =>
    simp only [bufferStep, hbuf, RawBuffer.write_ofRing, Option.some.injEq] at h
    subst h
    refine ⟨r.write input, rfl, ?_⟩
    have hfits : input.take (r.room input.length)
        = input.take (gsm0710BufferSize - r.datacount) := by
      rw [Ring.room, List.take_eq_take_iff]
      omega
    rw [Ring.contents_write, haccepted, hfits, List.append_assoc]
  | inc =>
    simp only [bufferStep] at h
    split at h
    · cases h
    next hne =>
      rw [hbuf] at hne
      cases h
      refine ⟨r.inc, by rw [hbuf, RawBuffer.inc_ofRing hne], ?_⟩
      rw [haccepted, hbuf, Ring.contents_eq_peek hne, List.append_assoc]
      rfl

/-- Over every run the count and the two pointers stay in range and agree, a
write returns how many bytes it added, and what was read followed by what is
stored from `readp` on is what was accepted. -/
theorem buffer_refines_queue {ops : List BufferOp} {s : BufferUse}
    (h : Run bufferStep anyStep .init ops s) :
    s.buf.datacount ≤ gsm0710BufferSize ∧ s.buf.readp < gsm0710BufferSize ∧
      s.buf.writep < gsm0710BufferSize ∧
      s.buf.writep = (s.buf.readp + s.buf.datacount) % gsm0710BufferSize ∧
      (∀ input : List UInt8,
        (s.buf.write input).2 = min input.length (gsm0710BufferSize - s.buf.datacount) ∧
        (s.buf.write input).1.datacount = s.buf.datacount + (s.buf.write input).2) ∧
      s.accepted = s.read ++ (List.range s.buf.datacount).map
        fun i => s.buf.data ((s.buf.readp + i) % gsm0710BufferSize) := by
  have hinit : BufferUse.init.Queued :=
    ⟨Ring.empty (fun _ => 0) 0 (by decide), rfl, rfl⟩
  have hqueued : s.Queued :=
    h.invariant (fun s op s' hs _ hstep => bufferStep_queued hs hstep) hinit
  obtain ⟨r, hbuf, haccepted⟩ := hqueued
  rw [hbuf]
  refine ⟨r.datacount_le, r.readp_lt, r.writep_lt, r.writep_eq, ?_, haccepted⟩
  intro input
  rw [RawBuffer.write_ofRing]
  exact ⟨rfl, rfl⟩

theorem buffer_refines_queue_one :
    ∃ s, Run bufferStep anyStep .init [.write [1, 2], .inc, .write [3]] s ∧
      s.read = [1] ∧ s.buf.datacount = 2 ∧
      s.accepted = s.read ++ (List.range s.buf.datacount).map
        fun i => s.buf.data ((s.buf.readp + i) % gsm0710BufferSize) := by
  refine Run.exists_of_exec (A := fun s => s.read = [1] ∧ s.buf.datacount = 2)
    (by decide +kernel) ?_
  intro s hrun htest
  exact ⟨htest.1, htest.2, (buffer_refines_queue hrun).2.2.2.2.2⟩

end Arale.Mux
