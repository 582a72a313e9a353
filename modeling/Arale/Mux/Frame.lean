/-!
# Frames of the multiplexer and their check sequence

The constants of `gsm0710muxd.h`, the frame record both decoders hand to
`extract_frames`, and the table-driven check sequence of a frame header.

The one fact the codecs need about the table is `crcStep_complement`: the
complement of a running sequence, fed as the next octet, always lands on
the residue `0xCF` the receivers test for.
-/

namespace Arale.Mux

/-! ## Constants -/

/-- Cells of the receive buffer, and of the unescaped advanced-mode frame. -/
def gsm0710BufferSize : Nat := 4096

theorem gsm0710BufferSize_pos : 0 < gsm0710BufferSize := by decide

/-- How deep the basic decoder may call itself to resynchronise. -/
def maxResyncGetFrameCount : Nat := 3

def gsm0710FrameFlag : UInt8 := 0xF9
def gsm0710FrameAdvFlag : UInt8 := 0x7E
def gsm0710FrameAdvEsc : UInt8 := 0x7D
def gsm0710FrameAdvEscCopml : UInt8 := 0x20

def gsm0710FrameAdvEscapedSyms : List UInt8 :=
  [gsm0710FrameAdvFlag, gsm0710FrameAdvEsc, 0x11, 0x91, 0x13, 0x93]

def gsm0710Pf : UInt8 := 0x10
def gsm0710Cr : UInt8 := 0x02
def gsm0710Ea : UInt8 := 0x01

def gsm0710TypeSabm : UInt8 := 0x2F
def gsm0710TypeUa : UInt8 := 0x63
def gsm0710TypeDm : UInt8 := 0x0F
def gsm0710TypeDisc : UInt8 := 0x43
def gsm0710TypeUih : UInt8 := 0xEF
def gsm0710TypeUi : UInt8 := 0x03

def gsm0710ControlPn : UInt8 := 0x80 ||| gsm0710Ea
def gsm0710ControlCld : UInt8 := 0xC0 ||| gsm0710Ea
def gsm0710ControlPsc : UInt8 := 0x40 ||| gsm0710Ea
def gsm0710ControlTest : UInt8 := 0x20 ||| gsm0710Ea
def gsm0710ControlMsc : UInt8 := 0xE0 ||| gsm0710Ea
def gsm0710ControlNsc : UInt8 := 0x10 ||| gsm0710Ea

def gsm0710SignalFc : UInt8 := 0x02

/-! ## Frames -/

/-- A received frame. `frame->length` is the length of `data`, whose pointer
is `NULL` exactly when that is 0. -/
structure Frame where
  channel : UInt8
  control : UInt8
  data : List UInt8
  deriving DecidableEq, Repr

def gsm0710DecodeAddress (byte : UInt8) : UInt8 := (byte &&& 252) >>> 2

/-- `GSM0710_FRAME_IS`: the control octet without its P/F bit. -/
def gsm0710FrameIs (type control : UInt8) : Bool := control &&& ~~~gsm0710Pf == type

/-- `GSM0710_COMMAND_IS`: the command octet without its C/R bit. -/
def gsm0710CommandIs (type command : UInt8) : Bool := type &&& ~~~gsm0710Cr == command

/-- A statement about octets is a statement about 256 numbers. -/
theorem forall_octet {p : UInt8 → Prop} (h : ∀ n : Fin 256, p (UInt8.ofNat n)) (b : UInt8) :
    p b := by
  have hb := h ⟨b.toNat, b.toNat_lt⟩
  rwa [UInt8.ofNat_toNat] at hb

/-! ## The check sequence -/

/-- Reflected 8-bit table for the polynomial `0x07`. -/
def rCrctable : List UInt8 := [
    0x00, 0x91, 0xE3, 0x72, 0x07, 0x96, 0xE4, 0x75, 0x0E, 0x9F, 0xED, 0x7C, 0x09, 0x98, 0xEA, 0x7B,
    0x1C, 0x8D, 0xFF, 0x6E, 0x1B, 0x8A, 0xF8, 0x69, 0x12, 0x83, 0xF1, 0x60, 0x15, 0x84, 0xF6, 0x67,
    0x38, 0xA9, 0xDB, 0x4A, 0x3F, 0xAE, 0xDC, 0x4D, 0x36, 0xA7, 0xD5, 0x44, 0x31, 0xA0, 0xD2, 0x43,
    0x24, 0xB5, 0xC7, 0x56, 0x23, 0xB2, 0xC0, 0x51, 0x2A, 0xBB, 0xC9, 0x58, 0x2D, 0xBC, 0xCE, 0x5F,
    0x70, 0xE1, 0x93, 0x02, 0x77, 0xE6, 0x94, 0x05, 0x7E, 0xEF, 0x9D, 0x0C, 0x79, 0xE8, 0x9A, 0x0B,
    0x6C, 0xFD, 0x8F, 0x1E, 0x6B, 0xFA, 0x88, 0x19, 0x62, 0xF3, 0x81, 0x10, 0x65, 0xF4, 0x86, 0x17,
    0x48, 0xD9, 0xAB, 0x3A, 0x4F, 0xDE, 0xAC, 0x3D, 0x46, 0xD7, 0xA5, 0x34, 0x41, 0xD0, 0xA2, 0x33,
    0x54, 0xC5, 0xB7, 0x26, 0x53, 0xC2, 0xB0, 0x21, 0x5A, 0xCB, 0xB9, 0x28, 0x5D, 0xCC, 0xBE, 0x2F,
    0xE0, 0x71, 0x03, 0x92, 0xE7, 0x76, 0x04, 0x95, 0xEE, 0x7F, 0x0D, 0x9C, 0xE9, 0x78, 0x0A, 0x9B,
    0xFC, 0x6D, 0x1F, 0x8E, 0xFB, 0x6A, 0x18, 0x89, 0xF2, 0x63, 0x11, 0x80, 0xF5, 0x64, 0x16, 0x87,
    0xD8, 0x49, 0x3B, 0xAA, 0xDF, 0x4E, 0x3C, 0xAD, 0xD6, 0x47, 0x35, 0xA4, 0xD1, 0x40, 0x32, 0xA3,
    0xC4, 0x55, 0x27, 0xB6, 0xC3, 0x52, 0x20, 0xB1, 0xCA, 0x5B, 0x29, 0xB8, 0xCD, 0x5C, 0x2E, 0xBF,
    0x90, 0x01, 0x73, 0xE2, 0x97, 0x06, 0x74, 0xE5, 0x9E, 0x0F, 0x7D, 0xEC, 0x99, 0x08, 0x7A, 0xEB,
    0x8C, 0x1D, 0x6F, 0xFE, 0x8B, 0x1A, 0x68, 0xF9, 0x82, 0x13, 0x61, 0xF0, 0x85, 0x14, 0x66, 0xF7,
    0xA8, 0x39, 0x4B, 0xDA, 0xAF, 0x3E, 0x4C, 0xDD, 0xA6, 0x37, 0x45, 0xD4, 0xA1, 0x30, 0x42, 0xD3,
    0xB4, 0x25, 0x57, 0xC6, 0xB3, 0x22, 0x50, 0xC1, 0xBA, 0x2B, 0x59, 0xC8, 0xBD, 0x2C, 0x5E, 0xCF]

/-- One octet of the check sequence, `r_crctable[fcs ^ octet]`. -/
def crcStep (fcs octet : UInt8) : UInt8 := rCrctable.getD (fcs ^^^ octet).toNat 0

/-- Calculates frame check sequence from given characters. -/
def frameCalcCrc (input : List UInt8) : UInt8 := 0xFF - input.foldl crcStep 0xFF

theorem xor_complement : ∀ fcs : UInt8, fcs ^^^ (0xFF - fcs) = 0xFF :=
  forall_octet (by decide +kernel)

/-- Whatever the octets before, the transmitted sequence brings the receiver
to its good residue. -/
theorem crcStep_complement (fcs : UInt8) : crcStep fcs (0xFF - fcs) = 0xCF := by
  rw [crcStep, xor_complement]
  decide +kernel

theorem crcStep_frameCalcCrc (input : List UInt8) :
    crcStep (input.foldl crcStep 0xFF) (frameCalcCrc input) = 0xCF :=
  crcStep_complement _

end Arale.Mux
