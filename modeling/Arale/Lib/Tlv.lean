import Mathlib.Data.List.Basic

/-!
# Lists of tag, length and value

A card and a short message both carry their data as a row of elements, each a
tag byte, a length byte and as many bytes of value. `Tlv` is one element (its
value fits the length byte, so nothing else can be built), `tlvBytes` the row as
it stands in memory.

Memory is a function from addresses to bytes. `BytesAt mem i xs` says that `xs`
stands at `i`; what a program finds by going from element to element is then
described by `hitFrom`, and `hitFrom_find?` says that this is the first element
with the tag, with its value where the pointer points.
-/

namespace Arale.Lib

open List

/-! ## Bytes in memory -/

/-- The bytes `xs` stand at `i`. -/
def BytesAt (mem : Nat → UInt8) (i : Nat) (xs : List UInt8) : Prop :=
  ∀ k b, xs[k]? = some b → mem (i + k) = b

namespace BytesAt

variable {mem : Nat → UInt8} {i : Nat} {x : UInt8} {xs ys : List UInt8}

theorem cons_iff : BytesAt mem i (x :: xs) ↔ mem i = x ∧ BytesAt mem (i + 1) xs := by
  constructor
  · intro h
    refine ⟨h 0 x rfl, fun k b hk => ?_⟩
    have hnext := h (k + 1) b hk
    rwa [Nat.add_comm k 1, ← Nat.add_assoc] at hnext
  · rintro ⟨hx, hxs⟩ k b hk
    cases k with
    | zero =>
      obtain rfl : x = b := by simpa using hk
      exact hx
    | succ k =>
      rw [Nat.add_comm k 1, ← Nat.add_assoc]
      exact hxs k b hk

theorem append_iff :
    BytesAt mem i (xs ++ ys) ↔ BytesAt mem i xs ∧ BytesAt mem (i + xs.length) ys := by
  induction xs generalizing i with
  | nil => exact ⟨fun h => ⟨fun k b hk => by simp at hk, h⟩, fun h => h.2⟩
  | cons x xs ih =>
    rw [cons_append, cons_iff, cons_iff, ih, and_assoc, length_cons,
      Nat.add_comm xs.length 1, Nat.add_assoc]

theorem getD (h : BytesAt mem i xs) {k : Nat} (hk : k < xs.length) : mem (i + k) = xs.getD k 0 := by
  rw [getD_eq_getElem?_getD, List.getElem?_eq_getElem hk]
  exact h k _ (List.getElem?_eq_getElem hk)

theorem two {y : UInt8} (h : BytesAt mem i (x :: y :: xs)) : mem i = x ∧ mem (i + 1) = y :=
  ⟨(cons_iff.mp h).1, (cons_iff.mp (cons_iff.mp h).2).1⟩

theorem drop (h : BytesAt mem i xs) (n : Nat) : BytesAt mem (i + n) (xs.drop n) := by
  intro k b hk
  rw [getElem?_drop] at hk
  rw [Nat.add_assoc]
  exact h (n + k) b hk

/-- The bytes of a list, with anything behind them. -/
theorem of_list (bytes : List UInt8) (behind : Nat → UInt8) :
    BytesAt (fun k => (bytes[k]?).getD (behind k)) 0 bytes := by
  intro k b hk
  show (bytes[0 + k]?).getD _ = b
  rw [Nat.zero_add, hk]
  rfl

end BytesAt

/-! ## Elements -/

/-- A tag and a value whose length fits one byte. -/
structure Tlv where
  tag : UInt8
  value : List UInt8
  short : value.length < 256
  deriving DecidableEq

namespace Tlv

theorem short_take (value : List UInt8) : (value.take 255).length < 256 := by
  rw [length_take]
  omega

/-- An element with at most the first 255 bytes as its value. -/
def of (tag : UInt8) (value : List UInt8) : Tlv := ⟨tag, value.take 255, short_take value⟩

def lengthByte (t : Tlv) : UInt8 := UInt8.ofNat t.value.length

def bytes (t : Tlv) : List UInt8 := t.tag :: t.lengthByte :: t.value

theorem toNat_lengthByte (t : Tlv) : t.lengthByte.toNat = t.value.length := by
  exact Nat.mod_eq_of_lt t.short

theorem length_bytes (t : Tlv) : t.bytes.length = t.value.length + 2 := rfl

end Tlv

/-- The elements one after the other. -/
def tlvBytes (ts : List Tlv) : List UInt8 := ts.flatMap Tlv.bytes

theorem tlvBytes_cons (t : Tlv) (ts : List Tlv) : tlvBytes (t :: ts) = t.bytes ++ tlvBytes ts :=
  flatMap_cons ..

theorem tlvBytes_append (ts us : List Tlv) : tlvBytes (ts ++ us) = tlvBytes ts ++ tlvBytes us :=
  flatMap_append ..

theorem length_tlvBytes_cons (t : Tlv) (ts : List Tlv) :
    (tlvBytes (t :: ts)).length = t.value.length + 2 + (tlvBytes ts).length := by
  rw [tlvBytes_cons, length_append, t.length_bytes]

theorem length_le_tlvBytes (ts : List Tlv) : ts.length ≤ (tlvBytes ts).length := by
  induction ts with
  | nil => exact Nat.le_refl 0
  | cons t ts ih =>
    rw [length_tlvBytes_cons, length_cons]
    omega

/-- An element is no longer than the row it stands in. -/
theorem value_length_le {t : Tlv} {ts : List Tlv} (h : t ∈ ts) :
    t.value.length + 2 ≤ (tlvBytes ts).length := by
  obtain ⟨before, after, rfl⟩ := append_of_mem h
  rw [tlvBytes_append, length_append, length_tlvBytes_cons]
  omega

section Memory

variable {mem : Nat → UInt8} {p : Nat} {t : Tlv} {ts : List Tlv}

theorem bytesAt_tlv :
    BytesAt mem p t.bytes ↔ mem p = t.tag ∧ mem (p + 1) = t.lengthByte ∧
      BytesAt mem (p + 2) t.value := by
  rw [Tlv.bytes, BytesAt.cons_iff, BytesAt.cons_iff]

theorem bytesAt_tlvBytes_cons :
    BytesAt mem p (tlvBytes (t :: ts)) ↔
      (mem p = t.tag ∧ mem (p + 1) = t.lengthByte ∧ BytesAt mem (p + 2) t.value)
        ∧ BytesAt mem (p + (t.value.length + 2)) (tlvBytes ts) := by
  rw [tlvBytes_cons, BytesAt.append_iff, bytesAt_tlv, t.length_bytes]

end Memory

/-! ## The first element with a tag -/

/-- Where a value stands, and its length. -/
structure TlvHit where
  outPtr : Nat
  valueLen : UInt8
  deriving DecidableEq, Repr

/-- The first element with the tag, in a row that stands at `p`. -/
def hitFrom (tag : UInt8) : Nat → List Tlv → Option TlvHit
  | _, [] => none
  | p, t :: ts =>
    if t.tag = tag then some ⟨p + 2, t.lengthByte⟩ else hitFrom tag (p + (t.value.length + 2)) ts

/-- A hit is the value of the first element with the tag. -/
theorem hitFrom_find? {mem : Nat → UInt8} (tag : UInt8) {p : Nat} {ts : List Tlv}
    (hbytes : BytesAt mem p (tlvBytes ts)) :
    (hitFrom tag p ts = none ∧ ts.find? (·.tag == tag) = none) ∨
      ∃ t q, hitFrom tag p ts = some ⟨q, t.lengthByte⟩ ∧ ts.find? (·.tag == tag) = some t
        ∧ BytesAt mem q t.value := by
  induction ts generalizing p with
  | nil => exact .inl ⟨rfl, rfl⟩
  | cons t ts ih =>
    obtain ⟨⟨-, -, hvalue⟩, hrest⟩ := bytesAt_tlvBytes_cons.mp hbytes
    by_cases htag : t.tag = tag
    · refine .inr ⟨t, p + 2, if_pos htag, ?_, hvalue⟩
      rw [List.find?_cons_of_pos (by simpa using htag)]
    · rw [hitFrom, if_neg htag, List.find?_cons_of_neg (by simpa using htag)]
      exact ih hrest

end Arale.Lib
