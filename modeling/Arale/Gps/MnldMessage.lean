import Arale.At.Tok
import Arale.Lib.Checked

/-!
# Messages of the MNL daemon

A message is read from `buff` with an offset that each `buff_get` function moves
on. The lengths of strings stand in the message, and `memcpy` takes them as they
are. Each access to an array is checked here, and an `int` is its 32 bits: as a
length they are read without a sign.

`asc_str_to_usc2_str` and `raw_data_to_hex_string` write one character after the
other. Each is shown to fill the start of an array of zeros.
-/

namespace Arale.Gps

open Arale.Lib List
open Arale.At (Line bytes)

/-- The arrays that are read and written. -/
inductive MnldArray where
  | buff
  | requestorId
  | clientName
  | ucs2Buff
  /-- `notify.requestor_id` -/
  | notifyRequestorId
  /-- `notify.text` -/
  | notifyText
  /-- a variable of the same size as the copy -/
  | struct
  /-- `gps_navigation_event->data` -/
  | navigationData
deriving DecidableEq

/-! ## The functions for the buffer -/

/-- An `int` as it stands in memory. -/
def intBytes (n : UInt32) : Line :=
  [UInt8.ofNat n.toNat, UInt8.ofNat (n.toNat / 256), UInt8.ofNat (n.toNat / 65536),
    UInt8.ofNat (n.toNat / 16777216)]

def intOf (mem : Line) : UInt32 :=
  UInt32.ofNat ((mem.getD 0 0).toNat + 256 * (mem.getD 1 0).toNat + 65536 * (mem.getD 2 0).toNat +
    16777216 * (mem.getD 3 0).toNat)

/-- `buff_put_int`, with the bytes up to the offset for the buffer -/
def buffPutInt (input : UInt32) (buff : Line) : Line := buff ++ intBytes input

/-- `buff_put_string` -/
def buffPutString (str : Line) (buff : Line) : Line :=
  buff ++ intBytes (UInt32.ofNat (str.length + 1)) ++ (str ++ [0])

/-- `buff_get_int` -/
def buffGetInt (buff : Line) (offset : Nat) : Except (Fault MnldArray) (UInt32 × Nat) := do
  let mem ← sliceAt .buff buff offset 4
  return (intOf mem, offset + 4)

/-- `memcpy` from the buffer; the second is the new offset. -/
def buffCopy (array : MnldArray) (output : Line) (len : Nat) (buff : Line) (offset : Nat) :
    Except (Fault MnldArray) (Line × Nat) := do
  let mem ← sliceAt .buff buff offset len
  let output ← storeAt array output 0 mem
  return (output, offset + len)

/-- `buff_get_string` -/
def buffGetString (array : MnldArray) (str buff : Line) (offset : Nat) :
    Except (Fault MnldArray) (Line × Nat) := do
  let len ← buffGetInt buff offset
  buffCopy array str len.1.toNat buff len.2

/-- `buff_get_struct` for a variable of that size -/
def buffGetStruct (size : Nat) (buff : Line) (offset : Nat) :
    Except (Fault MnldArray) (Line × Nat) :=
  buffCopy .struct (List.replicate size 0) size buff offset

/-! ## The conversions -/

/-- The loop of `asc_str_to_usc2_str` and what follows it. An index behind the input
is outside of it, so it ends within as many rounds as there are characters. -/
def usc2Loop (array : MnldArray) (input : Line) :
    Nat → Nat → Line → Nat → Except (Fault MnldArray) (Line × Nat)
  | 0, _, _, _ => .error .running
  | fuel + 1, i, output, len => do
    let c ← readAt array input i
    if c ≠ 0 then
      let output ← modifyAt .ucs2Buff output len fun _ => 0
      let output ← modifyAt .ucs2Buff output (len + 1) fun _ => c
      usc2Loop array input fuel (i + 1) output (len + 2)
    else
      -- the zeros stand one byte behind the end, which is zero anyway
      let output ← modifyAt .ucs2Buff output (len + 1) fun _ => 0
      let output ← modifyAt .ucs2Buff output (len + 2) fun _ => 0
      return (output, len)

/-- `asc_str_to_usc2_str` -/
def ascStrToUsc2Str (array : MnldArray) (output input : Line) :
    Except (Fault MnldArray) (Line × Nat) := do
  let output ← modifyAt .ucs2Buff output 0 fun _ => 0xfe
  let output ← modifyAt .ucs2Buff output 1 fun _ => 0xff
  usc2Loop array input (input.length + 1) 0 output 2

/-- The character for four bits. -/
def hexChar (tmp : UInt8) : UInt8 := if tmp ≤ 9 then tmp + 48 else (tmp - 10) + 65

/-- The loop of `raw_data_to_hex_string`, from `i` on. -/
def hexLoop (array : MnldArray) (input : Line) :
    Nat → Nat → Line → Except (Fault MnldArray) Line
  | 0, _, output => .ok output
  | rounds + 1, i, output => do
    let c ← readAt .ucs2Buff input i
    let output ← modifyAt array output (i * 2) fun _ => hexChar (c >>> 4 &&& 0xf)
    let output ← modifyAt array output (i * 2 + 1) fun _ => hexChar (c &&& 0xf)
    hexLoop array input rounds (i + 1) output

/-- `raw_data_to_hex_string` -/
def rawDataToHexString (array : MnldArray) (output input : Line) (inputLen : Nat) :
    Except (Fault MnldArray) Line :=
  hexLoop array input inputLen 0 output

/-! ## Reading within the bounds -/

section Reading

variable {buff : Line} {offset : Nat}

/-- The number at an offset. -/
def intAt (buff : Line) (offset : Nat) : UInt32 := intOf ((buff.drop offset).take 4)

theorem buffGetInt_eq (h : offset + 4 ≤ buff.length) :
    buffGetInt buff offset = .ok (intAt buff offset, offset + 4) := by
  rw [buffGetInt, sliceAt_eq h]
  rfl

theorem buffCopy_eq {array : MnldArray} {output : Line} {len : Nat} (h : offset + len ≤ buff.length)
    (hlen : len ≤ output.length) :
    buffCopy array output len buff offset =
      .ok ((buff.drop offset).take len ++ output.drop len, offset + len) := by
  have hmem : ((buff.drop offset).take len).length = len := by
    rw [length_take, length_drop]
    omega
  have hfits : 0 + ((buff.drop offset).take len).length ≤ output.length := by omega
  rw [buffCopy, sliceAt_eq h, ok_bind, storeAt_eq hfits, hmem, take_zero, nil_append,
    Nat.zero_add]
  rfl

theorem buffGetString_eq {array : MnldArray} {str : Line}
    (h : offset + 4 + (intAt buff offset).toNat ≤ buff.length)
    (hlen : (intAt buff offset).toNat ≤ str.length) :
    buffGetString array str buff offset =
      .ok ((buff.drop (offset + 4)).take (intAt buff offset).toNat ++
        str.drop (intAt buff offset).toNat,
        offset + 4 + (intAt buff offset).toNat) := by
  rw [buffGetString, buffGetInt_eq (by omega), ok_bind, buffCopy_eq h hlen]

/-- A string that was copied is inside of the buffer and of its array. -/
theorem buffGetString_ok {array : MnldArray} {str : Line} {r : Line × Nat}
    (h : buffGetString array str buff offset = .ok r) :
    offset + 4 + (intAt buff offset).toNat ≤ buff.length ∧
      (intAt buff offset).toNat ≤ str.length := by
  obtain ⟨len, hlen, hcopy⟩ := bind_ok h
  obtain ⟨mem, hmem, hlen⟩ := bind_ok hlen
  obtain ⟨-, rfl⟩ := sliceAt_ok hmem
  cases hlen
  obtain ⟨mem, hmem, hstore⟩ := bind_ok hcopy
  obtain ⟨hinside, rfl⟩ := sliceAt_ok hmem
  obtain ⟨output, hstore, -⟩ := bind_ok hstore
  have hfits := storeAt_ok hstore
  rw [length_take, length_drop, Nat.zero_add] at hfits
  change offset + 4 + (intAt buff offset).toNat ≤ buff.length at hinside
  change min (intAt buff offset).toNat _ ≤ _ at hfits
  omega

theorem buffGetStruct_eq {size : Nat} (h : offset + size ≤ buff.length) :
    buffGetStruct size buff offset = .ok ((buff.drop offset).take size, offset + size) := by
  rw [buffGetStruct, buffCopy_eq h (Nat.le_of_eq length_replicate.symm), drop_replicate,
    Nat.sub_self, replicate_zero, append_nil]

theorem intOf_intBytes (n : UInt32) : intOf (intBytes n) = n := by
  have hlt : n.toNat < 4294967296 := n.toNat_lt
  apply UInt32.toNat_inj.mp
  simp only [intOf, intBytes, getD_cons_zero, getD_cons_succ, UInt32.toNat_ofNat',
    UInt8.toNat_ofNat']
  omega

end Reading

/-! ## The conversions fill arrays -/

section Conversions

variable {array : MnldArray} {size : Nat}

/-- A string with two bytes for each character, and the byte order mark. -/
def ucs2 (str : Line) : Line := 0xfe :: 0xff :: str.flatMap fun c => [0, c]

theorem ucs2_length (str : Line) : (ucs2 str).length = 2 + 2 * str.length := by
  have hchars : (str.flatMap fun c => [0, c]).length = 2 * str.length := by
    induction str with
    | nil => rfl
    | cons c str ih =>
      rw [flatMap_cons, length_append, ih, length_cons, length_cons,
        length_cons, length_nil]
      omega
  rw [ucs2, length_cons, length_cons, hchars]
  omega

/-- One round of the loop with a character behind `done`. -/
theorem usc2Loop_char {c : UInt8} (hc : c ≠ 0) (done rest : Line) {out : Line} (fuel : Nat)
    (hsize : out.length + 1 < size) :
    usc2Loop array (done ++ c :: rest) (fuel + 1) done.length (padded 0 size out) out.length =
      usc2Loop array (done ++ c :: rest) fuel (done ++ [c]).length (padded 0 size (out ++ [0, c]))
        (out ++ [0, c]).length := by
  have hfirst : modifyAt MnldArray.ucs2Buff (padded 0 size out) out.length (fun _ => 0) =
      .ok (padded 0 size (out ++ [0])) := modifyAt_padded (by omega) 0
  have hsecond : modifyAt MnldArray.ucs2Buff (padded 0 size (out ++ [0])) (out.length + 1)
      (fun _ => c) =
      .ok (padded 0 size (out ++ [0, c])) := by
    have hlength : (out ++ [0]).length = out.length + 1 := length_append
    rw [← hlength, modifyAt_padded (by omega), append_assoc]
    rfl
  rw [usc2Loop, readAt_behind, ok_bind, if_pos hc, hfirst, ok_bind, hsecond, ok_bind,
    length_append, length_append]
  rfl

/-- The NUL behind `done`. The two zeros that are written then are there already. -/
theorem usc2Loop_end (done rest : Line) {out : Line} (fuel : Nat)
    (hsize : out.length + 2 < size) :
    usc2Loop array (done ++ 0 :: rest) (fuel + 1) done.length (padded 0 size out) out.length =
      .ok (padded 0 size out, out.length) := by
  rw [usc2Loop, readAt_behind, ok_bind, if_neg (fun h => h rfl),
    modifyAt_padded_zero (by omega) (by omega), ok_bind,
    modifyAt_padded_zero hsize (by omega), ok_bind]
  rfl

/-- The loop from the characters `str` on, behind which the input has a NUL. -/
theorem usc2Loop_padded {str : Line} (hstr : 0 ∉ str) (done rest : Line) {out : Line}
    {fuel : Nat} (hfuel : str.length < fuel) (hsize : out.length + 2 * str.length + 2 < size) :
    usc2Loop array (done ++ (str ++ 0 :: rest)) fuel done.length (padded 0 size out) out.length =
      .ok (padded 0 size (out ++ str.flatMap fun c => [0, c]), out.length + 2 * str.length) := by
  induction str generalizing done out fuel with
  | nil =>
    obtain ⟨k, rfl⟩ : ∃ k, fuel = k + 1 := Nat.exists_eq_succ_of_ne_zero (Nat.ne_zero_of_lt hfuel)
    rw [nil_append, usc2Loop_end done rest k hsize, flatMap_nil, append_nil]
    rfl
  | cons c str ih =>
    obtain ⟨hc, hrest⟩ := ne_and_not_mem_of_not_mem_cons hstr
    rw [length_cons] at hfuel hsize
    obtain ⟨k, rfl⟩ : ∃ k, fuel = k + 1 := Nat.exists_eq_succ_of_ne_zero (by omega)
    have hlength : (out ++ [0, c]).length = out.length + 2 := length_append
    have hnext := @ih hrest (done ++ [c]) (out ++ [0, c]) k (by omega) (by omega)
    rw [append_assoc, singleton_append] at hnext
    rw [cons_append, usc2Loop_char (fun h => hc h.symm) done _ k (by omega), hnext, hlength,
      flatMap_cons, append_assoc, length_cons]
    congr 2
    omega

/-- A string is converted if there is room for it and three bytes more. -/
theorem ascStrToUsc2Str_padded {str : Line} (hstr : 0 ∉ str) (rest : Line)
    (hsize : 2 * str.length + 4 < size) :
    ascStrToUsc2Str array (padded 0 size []) (str ++ 0 :: rest) =
      .ok (padded 0 size (ucs2 str), (ucs2 str).length) := by
  have hfirst : modifyAt MnldArray.ucs2Buff (padded 0 size ([] : Line)) 0 (fun _ => 0xfe) =
      .ok (padded 0 size [0xfe]) := @modifyAt_padded _ _ _ 0 size [] (Nat.zero_lt_of_lt hsize) 0xfe
  have hsecond : modifyAt MnldArray.ucs2Buff (padded 0 size ([0xfe] : Line)) 1 (fun _ => 0xff) =
      .ok (padded 0 size [0xfe, 0xff]) :=
    @modifyAt_padded _ _ _ 0 size [0xfe] (show 1 < size by omega) 0xff
  have hfuel : str.length < (str ++ 0 :: rest).length + 1 := by
    rw [length_append]
    omega
  have hroom : ([0xfe, 0xff] : Line).length + 2 * str.length + 2 < size := by
    show 2 + 2 * str.length + 2 < size
    omega
  rw [ascStrToUsc2Str, hfirst, ok_bind, hsecond, ok_bind, ucs2_length]
  exact usc2Loop_padded hstr [] rest hfuel hroom

/-- A loop that ended found a NUL, with room for all before it. -/
theorem usc2Loop_ok {input output : Line} {fuel i len : Nat} {r : Line × Nat}
    (h : usc2Loop array input fuel i output len = .ok r) :
    ∃ p, input[i + p]? = some 0 ∧ len + 2 * p + 2 < output.length ∧ r.2 = len + 2 * p := by
  induction fuel generalizing i output len with
  | zero => cases h
  | succ fuel ih =>
    obtain ⟨c, hc, h⟩ := bind_ok h
    by_cases hzero : c = 0
    · rw [if_neg (not_not_intro hzero)] at h
      obtain ⟨first, hfirst, h⟩ := bind_ok h
      obtain ⟨second, hsecond, h⟩ := bind_ok h
      have hroom := (modifyAt_ok hsecond).1
      rw [(modifyAt_ok hfirst).2] at hroom
      cases h
      exact ⟨0, hzero ▸ readAt_ok hc, hroom, rfl⟩
    · rw [if_pos hzero] at h
      obtain ⟨first, hfirst, h⟩ := bind_ok h
      obtain ⟨second, hsecond, h⟩ := bind_ok h
      obtain ⟨p, hnul, hroom, hlen⟩ := ih h
      rw [(modifyAt_ok hsecond).2, (modifyAt_ok hfirst).2] at hroom
      exact ⟨p + 1, by rw [← hnul]; congr 1; omega, by omega, by omega⟩

theorem ascStrToUsc2Str_ok {output input : Line} {r : Line × Nat}
    (h : ascStrToUsc2Str array output input = .ok r) :
    ∃ p, input[p]? = some 0 ∧ 2 * p + 4 < output.length ∧ r.2 = 2 + 2 * p := by
  obtain ⟨first, hfirst, h⟩ := bind_ok h
  obtain ⟨second, hsecond, h⟩ := bind_ok h
  obtain ⟨p, hnul, hroom, hlen⟩ := usc2Loop_ok h
  rw [(modifyAt_ok hsecond).2, (modifyAt_ok hfirst).2] at hroom
  exact ⟨p, by rw [← hnul, Nat.zero_add], by omega, hlen⟩

/-- All digits that were written have a place. -/
theorem hexLoop_ok {input output r : Line} {rounds i : Nat}
    (h : hexLoop array input rounds i output = .ok r) :
    rounds = 0 ∨ 2 * (i + rounds) ≤ output.length := by
  induction rounds generalizing i output with
  | zero => exact .inl rfl
  | succ rounds ih =>
    obtain ⟨c, -, h⟩ := bind_ok h
    obtain ⟨first, hfirst, h⟩ := bind_ok h
    obtain ⟨second, hsecond, h⟩ := bind_ok h
    have hroom := (modifyAt_ok hsecond).1
    rw [(modifyAt_ok hfirst).2] at hroom
    have hrest := ih h
    rw [(modifyAt_ok hsecond).2, (modifyAt_ok hfirst).2] at hrest
    omega

/-- The digits of a byte. -/
def hexDigits (b : UInt8) : Line :=
  [(bytes "0123456789ABCDEF").getD (b.toNat / 16) 0,
    (bytes "0123456789ABCDEF").getD (b.toNat % 16) 0]

def hexString (data : Line) : Line := data.flatMap hexDigits

theorem hexString_length (data : Line) : (hexString data).length = 2 * data.length := by
  induction data with
  | nil => rfl
  | cons b data ih =>
    rw [hexString, flatMap_cons, length_append, length_cons]
    rw [hexString] at ih
    show 2 + _ = _
    omega

theorem hexChar_eq {tmp : UInt8} (h : tmp.toNat < 16) :
    hexChar tmp = (bytes "0123456789ABCDEF").getD tmp.toNat 0 := by
  have hall : ∀ d : Fin 16, hexChar (UInt8.ofNat d)
      = (bytes "0123456789ABCDEF").getD d 0 := by decide
  have hd := hall ⟨tmp.toNat, h⟩
  rwa [UInt8.ofNat_toNat] at hd

theorem hexChar_high (b : UInt8) :
    hexChar (b >>> 4 &&& 0xf) = (bytes "0123456789ABCDEF").getD (b.toNat / 16) 0 := by
  have hb := b.toNat_lt
  have htmp : (b >>> 4 &&& 0xf).toNat = b.toNat / 16 := by
    show (b.toNat >>> 4) &&& (2 ^ 4 - 1) = _
    rw [Nat.and_two_pow_sub_one_eq_mod, Nat.shiftRight_eq_div_pow]
    omega
  rw [hexChar_eq (by omega), htmp]

theorem hexChar_low (b : UInt8) :
    hexChar (b &&& 0xf) = (bytes "0123456789ABCDEF").getD (b.toNat % 16) 0 := by
  have htmp : (b &&& 0xf).toNat = b.toNat % 16 := by
    exact Nat.and_two_pow_sub_one_eq_mod b.toNat 4
  rw [hexChar_eq (by omega), htmp]

/-- One round of the loop with the byte behind `done`. -/
theorem hexLoop_byte (done : Line) (b : UInt8) (rest : Line) (rounds : Nat)
    (hsize : 2 * done.length + 1 < size) :
    hexLoop array (done ++ b :: rest) (rounds + 1) done.length (padded 0 size (hexString done)) =
      hexLoop array (done ++ b :: rest) rounds (done ++ [b]).length
        (padded 0 size (hexString (done ++ [b]))) := by
  have hlength : (hexString done).length = done.length * 2 := by
    rw [hexString_length, Nat.mul_comm]
  have hdigits : hexString (done ++ [b]) = hexString done ++ hexDigits b := by
    rw [hexString, flatMap_append, flatMap_singleton]
    rfl
  have hhigh : modifyAt array (padded 0 size (hexString done)) (done.length * 2)
      (fun _ => hexChar (b >>> 4 &&& 0xf)) =
        .ok (padded 0 size (hexString done ++ [hexChar (b >>> 4 &&& 0xf)])) := by
    rw [← hlength]
    exact modifyAt_padded (by omega) _
  have hlow : modifyAt array
      (padded (0 : UInt8) size (hexString done ++ [hexChar (b >>> 4 &&& 0xf)]))
      (done.length * 2 + 1) (fun _ => hexChar (b &&& 0xf)) =
        .ok (padded 0 size (hexString (done ++ [b]))) := by
    have hlength' : (hexString done ++ [hexChar (b >>> 4 &&& 0xf)]).length
        = done.length * 2 + 1 := by
      rw [length_append, hlength]
      rfl
    rw [← hlength', modifyAt_padded (by omega), hdigits, append_assoc, hexChar_high, hexChar_low]
    rfl
  rw [hexLoop, readAt_behind, ok_bind, hhigh, ok_bind, hlow, ok_bind, length_append]
  rfl

theorem hexLoop_padded (data done rest : Line)
    (hsize : 2 * (done ++ data).length ≤ size) :
    hexLoop array (done ++ (data ++ rest)) data.length done.length
      (padded 0 size (hexString done)) =
      .ok (padded 0 size (hexString (done ++ data))) := by
  induction data generalizing done with
  | nil =>
    rw [append_nil]
    rfl
  | cons b data ih =>
    rw [length_append, length_cons] at hsize
    have hnext := ih (done ++ [b]) (by rw [append_assoc, length_append]; exact hsize)
    rw [append_assoc, append_assoc, singleton_append, singleton_append] at hnext
    rw [length_cons, cons_append, hexLoop_byte done b _ _ (by omega), hnext]

/-- The digits of the first bytes of an array fit if there is room for them. -/
theorem rawDataToHexString_padded {size n : Nat} (data : Line) (hsize : 2 * data.length ≤ size) :
    rawDataToHexString array (padded 0 size []) (padded 0 n data) data.length =
      .ok (padded 0 size (hexString data)) :=
  hexLoop_padded data [] _ hsize

end Conversions

end Arale.Gps
