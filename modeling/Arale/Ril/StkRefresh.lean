import Arale.Ril.HexText
import Arale.Ril.StkDisplay

/-!
# The REFRESH command

A REFRESH command starts with the command details (5 bytes) and the device
identities (4 bytes); a file list and the id of an application may follow.
`decodeStkRefreshFileChange` looks for the ids of the files, and
`decodeStkRefreshAid` for the application. Two results:

> `refresh_file_list_exact`: the ids of the files are found in order, and
> nothing behind the list is looked at.

> `refresh_aid_exact`: the application is found exactly if the command is longer
> than 18 bytes and the length of the list is understood; and a command without
> application is reported as such exactly if it has at most 18 bytes.

The second has these conditions because the code compares a place in the text
with a number of bytes, takes the length `7F` for the first of two bytes and knows
no longer ones than two, and returns `-1` where it finds nothing, which its caller
only logs.
-/

namespace Arale.Ril.Stk

open List
open Arale.Lib (Tlv ok_bind)
open Arale.At (Line)
open Arale.Ril.Pdu (decInt hexOctets hexOctets_cons hexOctets_take_drop pduArray_eq hexDigit_lt
  hexCharToDecInt_digits)

/-! ## The file list -/

/-- `SIM_FILE_UPDATE` -/
def simFileUpdate : Nat := 0

/-- The variables of the loop: the ids as a text, the words of the command and
the next one to write. -/
structure FileChange where
  efId : Line
  cmd : List Nat
  cmdoffset : Nat
deriving DecidableEq

/-- `while (offset < str_length && file_num > file_idx)` -/
def fileLoop (str : Line) (fileNum : Nat) : Nat → Nat → Nat → FileChange → Except Stop FileChange
  | fuel, offset, fileIdx, s =>
    if str.length ≤ offset ∨ fileNum ≤ fileIdx then .ok s
    else
      match fuel with
      | 0 => .error .running
      | fuel + 1 => do
        let high ← charAt str offset
        let low ← charAt str (offset + 1)
        if (high = 54 ∨ high = 50 ∨ high = 52) ∧ low = 70 then
          let tempStr ← copyChars str offset 4
          fileLoop str fileNum fuel (offset + 4) (fileIdx + 1)
            ⟨s.efId ++ tempStr.takeWhile (· != 0), s.cmd.set s.cmdoffset (strtoul16 tempStr),
              s.cmdoffset + 1⟩
        else fileLoop str fileNum fuel (offset + 4) fileIdx s

/-- `decodeStkRefreshFileChange`; with `MTK_WIFI_CALLING_RIL_SUPPORT` there is
one more word in front of the command. -/
def decodeStkRefreshFileChange (wifiCalling : Bool) (str : Line) : Except Stop FileChange := do
  let offset := if (← charAt str 20) ≤ 55 then 22 else 24
  let fileNum := strtoul16 (← copyChars str offset 2)
  let cmdoffset := if wifiCalling then 1 else 0
  let cmd := (replicate (cmdoffset + 1 + fileNum) 0).set cmdoffset simFileUpdate
  fileLoop str fileNum str.length (offset + 2) 0 ⟨[], cmd, cmdoffset + 1⟩

/-- The first byte of the id of a directory. -/
inductive DirClass where
  | df
  | df5F

/-- The first byte of the id of a file. -/
inductive EfClass where
  | ef2F
  | ef4F
  | ef6F

def DirClass.byte : DirClass → UInt8
  | .df => 0x7F
  | .df5F => 0x5F

def EfClass.byte : EfClass → UInt8
  | .ef2F => 0x2F
  | .ef4F => 0x4F
  | .ef6F => 0x6F

/-- A path from the master file through directories to a file. -/
structure FilePath where
  dirs : List (DirClass × UInt8)
  efClass : EfClass
  efLow : UInt8

/-- The two bytes of the file. -/
def FilePath.ef (p : FilePath) : List UInt8 := [p.efClass.byte, p.efLow]

def FilePath.value (p : FilePath) : Nat := p.efClass.byte.toNat * 256 + p.efLow.toNat

/-- The master file and the directories. -/
def FilePath.way (p : FilePath) : List (UInt8 × UInt8) :=
  (0x3F, 0x00) :: p.dirs.map fun d => (d.1.byte, d.2)

def wayBytes (ids : List (UInt8 × UInt8)) : List UInt8 := ids.flatMap fun id => [id.1, id.2]

def FilePath.bytes (p : FilePath) : List UInt8 := wayBytes p.way ++ p.ef

/-- The length of a list of `n` bytes, in one or two bytes. -/
def IsLengthField (n : Nat) (field : List UInt8) : Prop :=
  n < 0x80 ∧ field = [UInt8.ofNat n] ∨ n < 256 ∧ field = [0x81, UInt8.ofNat n]

/-- A file is told from a directory by the two digits of the first byte. -/
theorem class_digits (b : UInt8) :
    ((upperHex (b.toNat / 16) = 54 ∨ upperHex (b.toNat / 16) = 50 ∨ upperHex (b.toNat / 16) = 52) ∧
      upperHex (b.toNat % 16) = 70) ↔ b = 0x6F ∨ b = 0x2F ∨ b = 0x4F := by
  rw [or_and_right, or_and_right]
  exact or_congr (digits_iff b 0x6F) (or_congr (digits_iff b 0x2F) (digits_iff b 0x4F))

theorem DirClass.not_file (d : DirClass) : ¬ (d.byte = 0x6F ∨ d.byte = 0x2F ∨ d.byte = 0x4F) := by
  cases d with
  | df => decide
  | df5F => decide

theorem EfClass.file (e : EfClass) : e.byte = 0x6F ∨ e.byte = 0x2F ∨ e.byte = 0x4F := by
  cases e with
  | ef2F => decide
  | ef4F => decide
  | ef6F => decide

section Loop

variable {fileNum fileIdx : Nat} {pre rest : Line} {s : FileChange}

/-- The two characters at the start of an id. -/
theorem charAt_id (pre : Line) (a : UInt8) (xs : Line) :
    charAt (pre ++ (hexByte a ++ xs)) pre.length = .ok (upperHex (a.toNat / 16)) ∧
      charAt (pre ++ (hexByte a ++ xs)) (pre.length + 1) = .ok (upperHex (a.toNat % 16)) :=
  ⟨(charAt_behind pre (hexByte a ++ xs) 0).trans (charAt_of_getElem? rfl),
    (charAt_behind pre (hexByte a ++ xs) 1).trans (charAt_of_getElem? rfl)⟩

theorem not_end (pre : Line) (a : UInt8) (xs : Line) (h : fileIdx < fileNum) :
    ¬ ((pre ++ (hexByte a ++ xs)).length ≤ pre.length ∨ fileNum ≤ fileIdx) := by
  rw [length_append, length_append]
  show ¬ (pre.length + (2 + xs.length) ≤ pre.length ∨ fileNum ≤ fileIdx)
  omega

/-- A directory is passed. -/
theorem fileLoop_directory {id : UInt8 × UInt8}
    (hid : ¬ (id.1 = 0x6F ∨ id.1 = 0x2F ∨ id.1 = 0x4F)) (h : fileIdx < fileNum) (fuel : Nat) :
    fileLoop (pre ++ (hexText [id.1, id.2] ++ rest)) fileNum (fuel + 1) pre.length fileIdx s
      = fileLoop (pre ++ (hexText [id.1, id.2] ++ rest)) fileNum fuel
        (pre.length + 4) fileIdx s := by
  have htext : hexText [id.1, id.2] ++ rest = hexByte id.1 ++ (hexByte id.2 ++ rest) := rfl
  obtain ⟨hhigh, hlow⟩ := charAt_id pre id.1 (hexByte id.2 ++ rest)
  rw [htext, fileLoop, if_neg (not_end pre id.1 _ h)]
  simp only [hhigh, hlow, ok_bind]
  rw [if_neg fun hdigits => hid ((class_digits id.1).mp hdigits)]

theorem fileLoop_way {ids : List (UInt8 × UInt8)}
    (hids : ∀ id ∈ ids, ¬ (id.1 = 0x6F ∨ id.1 = 0x2F ∨ id.1 = 0x4F)) (h : fileIdx < fileNum)
    (pre : Line) (fuel : Nat) :
    fileLoop (pre ++ (hexText (wayBytes ids) ++ rest)) fileNum
      (fuel + ids.length) pre.length fileIdx s
      = fileLoop (pre ++ (hexText (wayBytes ids) ++ rest)) fileNum fuel
        (pre ++ hexText (wayBytes ids)).length fileIdx s := by
  induction ids generalizing pre with
  | nil =>
    show _ = fileLoop _ fileNum fuel (pre ++ []).length fileIdx s
    rw [append_nil]
    rfl
  | cons id ids ih =>
    have htext : hexText (wayBytes (id :: ids))
        = hexText [id.1, id.2] ++ hexText (wayBytes ids) := rfl
    have hplace : pre.length + 4 = (pre ++ hexText [id.1, id.2]).length := by
      rw [length_append]
      rfl
    rw [htext, append_assoc (hexText [id.1, id.2]), length_cons, ← Nat.add_assoc,
      fileLoop_directory (hids id mem_cons_self) h, hplace, ← append_assoc,
      ← append_assoc pre]
    exact ih (fun d hd => hids d (mem_cons_of_mem _ hd)) _

/-- The value of the four digits of a file, for every id. -/
theorem strtoul16_ef (p : FilePath) : strtoul16 (hexText p.ef) = p.value := by
  obtain ⟨hhigh, hlow⟩ := nibble_lt p.efClass.byte
  obtain ⟨hhigh', hlow'⟩ := nibble_lt p.efLow
  have hvalue : hexValue [p.efClass.byte.toNat / 16, p.efClass.byte.toNat % 16,
      p.efLow.toNat / 16, p.efLow.toNat % 16] = p.value := by
    show (((0 * 16 + p.efClass.byte.toNat / 16) * 16 + p.efClass.byte.toNat % 16) * 16
      + p.efLow.toNat / 16) * 16 + p.efLow.toNat % 16 = p.efClass.byte.toNat * 256 + p.efLow.toNat
    omega
  have htext : hexText p.ef = [p.efClass.byte.toNat / 16, p.efClass.byte.toNat % 16,
      p.efLow.toNat / 16, p.efLow.toNat % 16].map upperHex := rfl
  have hlt : p.value < 2 ^ 32 := by
    rw [FilePath.value]
    omega
  rw [htext, strtoul16_digits (by simp [hhigh, hlow, hhigh', hlow']) (hvalue ▸ hlt), hvalue]

theorem takeWhile_hexText (xs : List UInt8) : (hexText xs).takeWhile (· != 0) = hexText xs := by
  rw [takeWhile_eq_self_iff]
  intro c hc
  obtain ⟨b, -, hb⟩ := mem_flatMap.mp hc
  obtain ⟨hhigh, hlow⟩ := nibble_lt b
  obtain rfl | hb := mem_cons.mp hb
  · simpa using upperHex_ne hhigh (.inl (by decide))
  · obtain rfl := mem_singleton.mp hb
    simpa using upperHex_ne hlow (.inl (by decide))

/-- A file is taken. -/
theorem fileLoop_file (p : FilePath) (h : fileIdx < fileNum) (fuel : Nat) :
    fileLoop (pre ++ (hexText p.ef ++ rest)) fileNum (fuel + 1) pre.length fileIdx s
      = fileLoop (pre ++ (hexText p.ef ++ rest)) fileNum fuel (pre ++ hexText p.ef).length
        (fileIdx + 1)
        ⟨s.efId ++ hexText p.ef, s.cmd.set s.cmdoffset p.value, s.cmdoffset + 1⟩ := by
  have htext : hexText p.ef ++ rest = hexByte p.efClass.byte ++ (hexByte p.efLow ++ rest) := rfl
  have hplace : (pre ++ hexText p.ef).length = pre.length + 4 := by
    rw [length_append]
    rfl
  have hcopy : copyChars (pre ++ (hexText p.ef ++ rest)) pre.length 4 = .ok (hexText p.ef) := by
    refine (copyChars_behind pre (hexText p.ef ++ rest) 0 4).trans ?_
    rw [copyChars, if_pos]
    · rfl
    · show 4 ≤ (hexText p.ef ++ rest).length + 1
      rw [length_append, length_hexText]
      show 4 ≤ 4 + rest.length + 1
      omega
  rw [htext] at hcopy
  obtain ⟨hhigh, hlow⟩ := charAt_id pre p.efClass.byte (hexByte p.efLow ++ rest)
  rw [hplace, htext, fileLoop, if_neg (not_end pre _ _ h)]
  simp only [hhigh, hlow, ok_bind]
  rw [if_pos ((class_digits _).mpr p.efClass.file)]
  simp only [hcopy, ok_bind, takeWhile_hexText, strtoul16_ef]

/-- A store at the end of what is written. -/
theorem set_replicate (done : List Nat) (m v : Nat) :
    (done ++ replicate (m + 1) 0).set done.length v = (done ++ [v]) ++ replicate m 0 := by
  rw [set_append_right _ _ (Nat.le_refl _), Nat.sub_self, replicate_succ,
    set_cons_zero, append_cons]

theorem way_not_file (p : FilePath) :
    ∀ id ∈ p.way, ¬ (id.1 = 0x6F ∨ id.1 = 0x2F ∨ id.1 = 0x4F) := by
  intro id hid
  obtain rfl | hid := mem_cons.mp hid
  · decide
  · obtain ⟨d, -, rfl⟩ := mem_map.mp hid
    exact d.1.not_file

/-- All paths of the list. -/
def pathsBytes (paths : List FilePath) : List UInt8 := paths.flatMap FilePath.bytes

/-- The number of ids in the paths. -/
def idCount : List FilePath → Nat
  | [] => 0
  | p :: paths => (p.way.length + 1) + idCount paths

theorem fileLoop_paths {paths : List FilePath} {done : List Nat} {efId : Line}
    (h : fileIdx + paths.length = fileNum) (pre : Line) (fuel : Nat) :
    fileLoop (pre ++ (hexText (pathsBytes paths) ++ rest)) fileNum (fuel + idCount paths) pre.length
        fileIdx ⟨efId, done ++ replicate paths.length 0, done.length⟩
      = .ok ⟨efId ++ hexText (paths.flatMap FilePath.ef), done ++ paths.map FilePath.value,
        done.length + paths.length⟩ := by
  induction paths generalizing pre fileIdx done efId fuel with
  | nil =>
    have hend : ∀ n, fileLoop (pre ++ (hexText (pathsBytes []) ++ rest)) fileNum n
        pre.length fileIdx
        ⟨efId, done ++ [], done.length⟩ = .ok ⟨efId, done ++ [], done.length⟩ := by
      intro n
      have hall : fileNum ≤ fileIdx := Nat.le_of_eq h.symm
      cases n with
      | zero | succ n => rw [fileLoop, if_pos (.inr hall)]
    refine (hend _).trans ?_
    show _ = Except.ok (⟨efId ++ [], done ++ [], done.length⟩ : FileChange)
    rw [append_nil efId]
  | cons p paths ih =>
    rw [length_cons] at h
    have hlt : fileIdx < fileNum := by omega
    have htext : hexText (pathsBytes (p :: paths)) ++ rest
        = hexText (wayBytes p.way) ++ (hexText p.ef ++ (hexText (pathsBytes paths) ++ rest)) := by
      show hexText ((wayBytes p.way ++ p.ef) ++ pathsBytes paths) ++ rest = _
      rw [hexText_append, hexText_append, append_assoc, append_assoc]
    have hcount : fuel + idCount (p :: paths) = (fuel + idCount paths + 1) + p.way.length := by
      show fuel + ((p.way.length + 1) + idCount paths) = _
      omega
    rw [htext, hcount, fileLoop_way (way_not_file p) hlt, ← append_assoc pre,
      fileLoop_file p hlt, length_cons, set_replicate, ← append_assoc]
    have hdone : (done ++ [p.value]).length = done.length + 1 := length_append
    have hrest := @ih (fileIdx + 1) (done ++ [p.value]) (efId ++ hexText p.ef) (by omega)
      ((pre ++ hexText (wayBytes p.way)) ++ hexText p.ef) fuel
    rw [hdone] at hrest
    refine hrest.trans ?_
    congr 2
    · rw [append_assoc, ← hexText_append]
      rfl
    · rw [append_assoc]
      rfl
    · omega

end Loop

theorem length_wayBytes (ids : List (UInt8 × UInt8)) : (wayBytes ids).length = 2 * ids.length := by
  induction ids with
  | nil => rfl
  | cons id ids ih =>
    show (wayBytes ids).length + 1 + 1 = 2 * (ids.length + 1)
    omega

/-- Every id has two bytes. -/
theorem length_pathsBytes (paths : List FilePath) :
    (pathsBytes paths).length = 2 * idCount paths ∧ paths.length ≤ idCount paths := by
  induction paths with
  | nil => exact ⟨rfl, Nat.le_refl 0⟩
  | cons p paths ih =>
    obtain ⟨hbytes, hcount⟩ := ih
    have hpath : p.bytes.length = 2 * p.way.length + 2 := by
      rw [FilePath.bytes, length_append, length_wayBytes]
      rfl
    have hcons : idCount (p :: paths) = (p.way.length + 1) + idCount paths := rfl
    constructor
    · show (p.bytes ++ pathsBytes paths).length = _
      rw [length_append, hpath, hbytes, hcons]
      omega
    · rw [hcons, length_cons]
      omega

/-- The offset of the number of files, behind the length of the list. -/
theorem length_class {n : Nat} {field : List UInt8} (hfield : IsLengthField n field) :
    ∃ b bs, field = b :: bs ∧ (if upperHex (b.toNat / 16) ≤ 55 then 22 else 24)
      = 20 + 2 * field.length := by
  obtain ⟨hn, rfl⟩ | ⟨-, rfl⟩ := hfield
  · have hall : ∀ k : Fin 8, upperHex k.val ≤ 55 := by decide
    have hbyte : (UInt8.ofNat n).toNat = n := UInt8.toNat_ofNat_of_lt (Nat.lt_trans hn (by decide))
    refine ⟨_, [], rfl, if_pos ?_⟩
    rw [hbyte]
    exact hall ⟨n / 16, by omega⟩
  · exact ⟨_, _, rfl, if_neg (by decide)⟩

/-- The words of the command before the loop. -/
theorem set_word (cmdoffset n v : Nat) :
    (replicate (cmdoffset + 1 + n) 0).set cmdoffset v
      = (replicate cmdoffset 0 ++ [v]) ++ replicate n 0 := by
  have hset := set_replicate (replicate cmdoffset 0) n v
  rw [length_replicate, replicate_append_replicate, Nat.add_comm n 1,
    ← Nat.add_assoc] at hset
  exact hset

section FileList

variable {head : List UInt8} {tag : UInt8} {field : List UInt8} {paths : List FilePath}
  {rest : Line}

/-- A command up to the file list, and the characters behind the list. -/
def listText (head : List UInt8) (tag : UInt8) (field : List UInt8) (paths : List FilePath)
    (rest : Line) : Line :=
  hexText (head ++ [tag] ++ field ++ [UInt8.ofNat paths.length] ++ pathsBytes paths) ++ rest

theorem listText_number : listText head tag field paths rest
    = hexText (head ++ [tag] ++ field) ++ (hexByte (UInt8.ofNat paths.length) ++
      (hexText (pathsBytes paths) ++ rest)) := by
  rw [listText, hexText_append, hexText_append, append_assoc, append_assoc]
  rfl

/-- The offset of the number of files is found from the first digit of the length. -/
theorem listText_offset (hhead : head.length = 9) {n : Nat} (hfield : IsLengthField n field) :
    ∃ c, charAt (listText head tag field paths rest) 20 = .ok c ∧
      (if c ≤ 55 then 22 else 24) = 2 * (head ++ [tag] ++ field).length := by
  obtain ⟨b, bs, hb, hoffset⟩ := length_class hfield
  have hten : (hexText (head ++ [tag])).length = 20 := by
    rw [length_hexText, length_append, hhead]
    rfl
  have hsplit : listText head tag field paths rest = hexText (head ++ [tag]) ++ (hexByte b ++
      (hexText bs ++ (hexByte (UInt8.ofNat paths.length)
        ++ (hexText (pathsBytes paths) ++ rest)))) := by
    rw [listText_number, hb, hexText_append, append_assoc]
    rfl
  refine ⟨upperHex (b.toNat / 16), ?_, ?_⟩
  · rw [hsplit, ← hten]
    exact (charAt_id _ b _).1
  · rw [hoffset, length_append, length_append, hhead, length_singleton]
    omega

/-- The files are found in order, behind the words that stand there already. -/
theorem fileLoop_listText (cmdoffset : Nat) :
    fileLoop (listText head tag field paths rest) paths.length
        (listText head tag field paths rest).length (2 * (head ++ [tag] ++ field).length + 2) 0
        ⟨[], (replicate (cmdoffset + 1 + paths.length) 0).set cmdoffset simFileUpdate,
          cmdoffset + 1⟩
      = .ok ⟨hexText (paths.flatMap FilePath.ef),
        (replicate cmdoffset 0 ++ [simFileUpdate]) ++ paths.map FilePath.value,
        cmdoffset + 1 + paths.length⟩ := by
  obtain ⟨hbytes, -⟩ := length_pathsBytes paths
  have hplace : 2 * (head ++ [tag] ++ field).length + 2
      = (hexText (head ++ [tag] ++ field) ++ hexByte (UInt8.ofNat paths.length)).length := by
    rw [← length_hexText, length_append]
    rfl
  have hwords : cmdoffset + 1 = (replicate cmdoffset 0 ++ [simFileUpdate]).length := by
    rw [length_append, length_replicate]
    rfl
  obtain ⟨fuel, hfuel⟩ : ∃ fuel, (listText head tag field paths rest).length
      = fuel + idCount paths := by
    refine ⟨(listText head tag field paths rest).length - idCount paths, ?_⟩
    rw [listText_number, length_append, length_append, length_append,
      length_hexText (pathsBytes _)]
    omega
  rw [hfuel, hplace, set_word, hwords, listText_number, ← append_assoc (hexText _)]
  exact fileLoop_paths (Nat.zero_add _) _ fuel

end FileList

/-- The files of the list are found in order, and nothing behind the list is
taken for one. -/
theorem refresh_file_list_exact (wifiCalling : Bool) (head : List UInt8) (tag : UInt8)
    (field : List UInt8) (paths : List FilePath) (rest : Line) (hhead : head.length = 9)
    (hfield : IsLengthField (1 + (pathsBytes paths).length) field) :
    ∃ s, decodeStkRefreshFileChange wifiCalling (listText head tag field paths rest) = .ok s ∧
      s.efId = hexText (paths.flatMap FilePath.ef) ∧
      s.cmd = (if wifiCalling then [0] else []) ++ simFileUpdate :: paths.map FilePath.value := by
  obtain ⟨c, hfirst, hoffset⟩ :=
    @listText_offset head tag field paths rest hhead _ hfield
  obtain ⟨hbytes, hcount⟩ := length_pathsBytes paths
  have hnum : (UInt8.ofNat paths.length).toNat = paths.length := by
    apply UInt8.toNat_ofNat_of_lt
    show paths.length < 256
    obtain ⟨hn, -⟩ | ⟨hn, -⟩ := hfield
    · omega
    · omega
  have hnumber : copyChars (listText head tag field paths rest)
      (2 * (head ++ [tag] ++ field).length) 2
      = .ok (hexByte (UInt8.ofNat paths.length)) := by
    rw [listText_number]
    exact copyChars_hexByte _ _ _
  unfold decodeStkRefreshFileChange
  simp only [hfirst, hoffset, hnumber, ok_bind, strtoul16_hexByte, hnum]
  refine ⟨_, fileLoop_listText _, rfl, ?_⟩
  cases wifiCalling with
  | false => rfl
  | true => rfl

/-- Two paths, the second through a directory, and an application behind. -/
def samplePaths : List FilePath := [⟨[], .ef2F, 0xE2⟩, ⟨[(.df, 0x20), (.df5F, 0x3A)], .ef6F, 0x07⟩]

theorem refresh_file_list_exact_sample :
    ∃ s, decodeStkRefreshFileChange false
        (listText [0x81, 3, 1, 1, 1, 0x82, 2, 0x81, 0x82] 0x92 [13] samplePaths
          (hexText [0x2F, 1, 0x6F])) = .ok s ∧
      s.efId = hexText [0x2F, 0xE2, 0x6F, 0x07] ∧ s.cmd = [0, 0x2FE2, 0x6F07] :=
  refresh_file_list_exact false [0x81, 3, 1, 1, 1, 0x82, 2, 0x81, 0x82] 0x92 [13] samplePaths
    (hexText [0x2F, 1, 0x6F]) rfl (.inl ⟨by decide, rfl⟩)

/-! ## The application -/

/-- What `*paid` becomes: a place in the text, by its offset. -/
inductive Paid where
  | unchanged
  | null
  | place (offset : Int)
deriving DecidableEq

/-- `rild_sms_hexCharToDecInt(&urc[offset], 2)`, which stops at the NUL. -/
def hexAt (urc : Line) (offset : Int) : Except Stop Int :=
  if 0 ≤ offset ∧ offset ≤ urc.length then .ok (decInt (hexCharToDecInt (urc.drop offset.toNat) 2))
  else .error .outside

/-- The offset behind a file list. -/
def behindFiles (urc : Line) : Except Stop Int := do
  let temp ← hexAt urc 20
  if temp < 0x7F then return 20 + (2 + temp * 2)
  else
    let temp ← hexAt urc 22
    return 22 + (2 + temp * 2)

/-- The offset where the application should stand, and the tag there. -/
def aidPlace (urc : Line) : Except Stop (Int × Int) := do
  let temp ← hexAt urc 18
  if temp = 0x12 ∨ temp = 0x92 then
    let offset ← behindFiles urc
    let temp ← hexAt urc offset
    return (offset, temp)
  else return (18, temp)

/-- `decodeStkRefreshAid` -/
def decodeStkRefreshAid (urc : Line) : Except Stop (Int × Paid) := do
  if urc.length / 2 ≤ 18 then return (0, .null)
  let place ← aidPlace urc
  if place.2 = 0x2F ∨ place.2 = 0xAF then
    let temp ← hexAt urc (place.1 + 2)
    return (temp * 2, .place (place.1 + 4))
  return (-1, .unchanged)

/-- The length of an element, in up to four bytes. -/
def berLength (n : Nat) : List UInt8 :=
  if n < 0x80 then [UInt8.ofNat n]
  else if n < 2 ^ 8 then [0x81, UInt8.ofNat n]
  else if n < 2 ^ 16 then [0x82, UInt8.ofNat (n / 2 ^ 8), UInt8.ofNat n]
  else [0x83, UInt8.ofNat (n / 2 ^ 16), UInt8.ofNat (n / 2 ^ 8), UInt8.ofNat n]

/-- A file list. -/
structure FileList where
  tag : UInt8
  value : List UInt8
  tag_eq : tag = 0x12 ∨ tag = 0x92
  value_lt : value.length < 2 ^ 24

def FileList.bytes (f : FileList) : List UInt8 := f.tag :: (berLength f.value.length ++ f.value)

/-- The id of an application. -/
structure Aid where
  tag : UInt8
  value : List UInt8
  tag_eq : tag = 0x2F ∨ tag = 0xAF
  value_pos : 1 ≤ value.length
  value_le : value.length ≤ 16

def Aid.bytes (a : Aid) : List UInt8 := a.tag :: (berLength a.value.length ++ a.value)

/-- A REFRESH command. -/
structure RefreshCommand where
  details : List UInt8
  device : List UInt8
  files : Option FileList
  aid : Option Aid
  details_length : details.length = 5
  device_length : device.length = 4

/-- The bytes in front of the application. -/
def RefreshCommand.front (c : RefreshCommand) : List UInt8 :=
  c.details ++ c.device ++ (c.files.map FileList.bytes).getD []

def RefreshCommand.bytes (c : RefreshCommand) : List UInt8 :=
  c.front ++ (c.aid.map Aid.bytes).getD []

theorem RefreshCommand.head_length (c : RefreshCommand) : (c.details ++ c.device).length = 9 := by
  rw [length_append, c.details_length, c.device_length]

theorem RefreshCommand.front_none {c : RefreshCommand} (hf : c.files = none) :
    c.front = c.details ++ c.device := by
  rw [RefreshCommand.front, hf]
  exact append_nil _

theorem RefreshCommand.front_some {c : RefreshCommand} {f : FileList} (hf : c.files = some f) :
    c.front = c.details ++ c.device ++ f.bytes := by
  rw [RefreshCommand.front, hf]
  rfl

/-- The application is reported where it stands, or its absence. -/
def ReportsAid (c : RefreshCommand) (urc : Line) : Prop :=
  (∀ a, c.aid = some a → ∃ offset : Nat,
    decodeStkRefreshAid urc = .ok (2 * a.value.length, .place offset) ∧
      hexOctets (urc.drop offset) = some a.value) ∧
  (c.aid = none → decodeStkRefreshAid urc = .ok (0, .null))

/-- The length of the file list is understood. For the length `7F` the first byte
of the list is taken for the length. -/
def FileList.Readable (f : FileList) : Prop :=
  f.value.length < 2 ^ 8 ∧ (f.value.length = 0x7F → f.value.head? = some 0x7E)

/-- The commands that are decoded. -/
def RefreshCommand.Decodable (c : RefreshCommand) : Prop :=
  (c.aid ≠ none → 18 < c.bytes.length ∧ ∀ f, c.files = some f → f.Readable) ∧
  (c.aid = none → c.bytes.length ≤ 18)

section Application

variable {urc : Line} {pre post : List UInt8} {b : UInt8} {c : RefreshCommand} {a : Aid}
  {f : FileList}

/-- The byte behind `pre`. -/
theorem hexAt_behind (h : hexOctets urc = some (pre ++ b :: post)) {offset : Int}
    (hoffset : offset = 2 * pre.length) : hexAt urc offset = .ok (b.toNat : Int) := by
  obtain ⟨-, hdrop⟩ := hexOctets_take_drop h pre.length
  rw [drop_left] at hdrop
  obtain ⟨hi, lo, rest, high, low, hrest, hhi, hlo, rfl, -⟩ := hexOctets_cons hdrop
  have hlength : urc.length = 2 * (pre.length + (post.length + 1)) := by
    rw [(pduArray_eq h).2, length_append, length_cons]
  have hplace : offset.toNat = 2 * pre.length := by omega
  have hvalue : hexCharToDecInt (hi :: lo :: rest) 2 = some (high * 16 + low) :=
    hexCharToDecInt_digits hhi hlo
  have hbyte : (UInt8.ofNat (high * 16 + low)).toNat = high * 16 + low := by
    apply UInt8.toNat_ofNat_of_lt
    have hhigh := hexDigit_lt hhi
    have hlow := hexDigit_lt hlo
    show high * 16 + low < 256
    omega
  rw [hexAt, if_pos (by omega), hplace, hrest, hvalue, hbyte]
  rfl

theorem tag_value {x y : UInt8} (h : b = x ∨ b = y) :
    (b.toNat : Int) = x.toNat ∨ (b.toNat : Int) = y.toNat :=
  h.imp (fun hx => by rw [hx]) fun hy => by rw [hy]

/-- The two bytes behind the tag of a file list that the code looks at. -/
theorem behindFiles_read {tag first second : UInt8} (hpre : pre.length = 9)
    (h : hexOctets urc = some (pre ++ tag :: first :: second :: post)) :
    behindFiles urc = .ok (if first.toNat < 0x7F then 22 + 2 * first.toNat
      else 24 + 2 * second.toNat : Nat) := by
  have hfirst : hexAt urc 20 = .ok (first.toNat : Int) := by
    refine @hexAt_behind urc (pre ++ [tag]) (second :: post) first ?_ _ ?_
    · rw [h, append_assoc]
      rfl
    · rw [length_append, hpre]
      rfl
  have hsecond : hexAt urc 22 = .ok (second.toNat : Int) := by
    refine @hexAt_behind urc (pre ++ [tag, first]) post second ?_ _ ?_
    · rw [h, append_assoc]
      rfl
    · rw [length_append, hpre]
      rfl
  unfold behindFiles
  simp only [hfirst, hsecond, ok_bind]
  split
  · next hone =>
    rw [if_pos (by omega)]
    show Except.ok _ = Except.ok _
    congr 1
    omega
  · next htwo =>
    rw [if_neg (by omega)]
    show Except.ok _ = Except.ok _
    congr 1
    omega

/-- The place behind the file list is found if its length is understood, and only
then. -/
theorem behindFiles_eq_iff (hpre : pre.length = 9) (hpost : post ≠ [])
    (h : hexOctets urc = some (pre ++ f.bytes ++ post)) :
    behindFiles urc = .ok (2 * (pre ++ f.bytes).length : Nat) ↔ f.Readable := by
  have hlong : (pre ++ f.bytes).length
      = 10 + (berLength f.value.length).length + f.value.length := by
    rw [length_append, hpre, FileList.bytes, length_cons, length_append]
    omega
  have hread : ∀ first second rest,
      berLength f.value.length ++ (f.value ++ post) = first :: second :: rest →
      behindFiles urc = .ok (if first.toNat < 0x7F then 22 + 2 * first.toNat
        else 24 + 2 * second.toNat : Nat) := by
    intro first second rest hbytes
    refine @behindFiles_read urc pre rest f.tag first second hpre ?_
    rw [h, FileList.bytes, append_assoc, cons_append, append_assoc, hbytes]
  have hbyte : ∀ n < 2 ^ 8, (UInt8.ofNat n).toNat = n := fun n hn => UInt8.toNat_ofNat_of_lt hn
  have hsame : ∀ m n : Nat, (Except.ok (m : Int) : Except Stop Int) = .ok (n : Int) ↔ m = n :=
    fun m n => ⟨fun heq => Int.ofNat.inj (Except.ok.inj heq), fun heq => by rw [heq]⟩
  rw [hlong, FileList.Readable]
  by_cases hshort : f.value.length < 0x80
  · have hlen : berLength f.value.length = [UInt8.ofNat f.value.length] := if_pos hshort
    obtain ⟨second, rest, hbehind⟩ :=
      exists_cons_of_ne_nil (append_ne_nil_of_right_ne_nil f.value hpost)
    rw [hread _ second rest (by rw [hlen, hbehind]; rfl), hsame, hlen, length_singleton,
      hbyte _ (by omega)]
    by_cases hone : f.value.length < 0x7F
    · rw [if_pos hone]
      omega
    · -- the first byte of the list is taken for its length
      have hseven : f.value.length = 0x7F := by omega
      obtain ⟨v, vs, hvalue⟩ := exists_cons_of_length_pos (show 0 < f.value.length by omega)
      obtain ⟨rfl, -⟩ := cons.inj ((congrArg (· ++ post) hvalue).symm.trans hbehind)
      rw [if_neg hone, hseven, hvalue, head?_cons, Option.some.injEq, ← UInt8.toNat_inj]
      show _ ↔ _ ∧ (_ → v.toNat = 126)
      omega
  · by_cases hlt : f.value.length < 2 ^ 8
    · have hlen : berLength f.value.length = [0x81, UInt8.ofNat f.value.length] := by
        rw [berLength, if_neg hshort, if_pos hlt]
      rw [hread _ _ _ (by rw [hlen]; rfl), hsame, hlen, hbyte _ hlt, if_neg (by decide)]
      simp only [length_cons, length_nil]
      omega
    · -- the second of three or four bytes is taken for the length
      obtain ⟨first, second, more, hlen, hfirst, hthree⟩ : ∃ first second more,
          berLength f.value.length = first :: second :: more ∧ ¬ first.toNat < 0x7F ∧
            1 ≤ more.length := by
        rw [berLength, if_neg hshort, if_neg hlt]
        split
        · exact ⟨_, _, _, rfl, by decide, Nat.le_refl _⟩
        · exact ⟨_, _, _, rfl, by decide, Nat.le_succ 1⟩
      have hsecond : second.toNat < 2 ^ 8 := second.toNat_lt
      rw [hread _ _ _ (by rw [hlen]; rfl), hsame, hlen, if_neg hfirst]
      simp only [length_cons]
      omega

theorem RefreshCommand.bytes_some (ha : c.aid = some a) :
    c.bytes = c.front ++ a.tag :: (berLength a.value.length ++ a.value) := by
  rw [RefreshCommand.bytes, ha]
  rfl

/-- Behind the tag of a file list the application is looked for behind the list. -/
theorem aidPlace_list (hpre : pre.length = 9)
    (h : hexOctets urc = some (pre ++ f.bytes ++ post)) :
    aidPlace urc = behindFiles urc >>= fun offset => hexAt urc offset >>= fun temp =>
      pure (offset, temp) := by
  have hlist : (f.tag.toNat : Int) = 0x12 ∨ (f.tag.toNat : Int) = 0x92 := tag_value f.tag_eq
  have htag : hexAt urc 18 = .ok (f.tag.toNat : Int) := by
    rw [FileList.bytes, append_assoc, cons_append] at h
    apply hexAt_behind h
    rw [hpre]
    rfl
  unfold aidPlace
  simp only [htag, ok_bind]
  rw [if_pos hlist]

/-- The application stands behind the rest of the command. -/
theorem aidPlace_eq (ha : c.aid = some a)
    (hfiles : ∀ f, c.files = some f → f.Readable) (h : hexOctets urc = some c.bytes) :
    aidPlace urc = .ok ((2 * c.front.length : Nat), (a.tag.toNat : Int)) := by
  rw [RefreshCommand.bytes_some ha] at h
  have hread := @hexAt_behind urc _ _ _ h (2 * c.front.length : Nat) (by omega)
  cases hf : c.files with
  | none =>
    have hfront := RefreshCommand.front_none hf
    rw [hfront, c.head_length] at hread
    have hnot : ¬ ((a.tag.toNat : Int) = 0x12 ∨ (a.tag.toNat : Int) = 0x92) := by
      obtain htag | htag := a.tag_eq
      · rw [htag]
        decide
      · rw [htag]
        decide
    unfold aidPlace
    simp only [show hexAt urc 18 = _ from hread, ok_bind]
    rw [if_neg hnot, hfront, c.head_length]
    rfl
  | some f =>
    have hfront := RefreshCommand.front_some hf
    rw [hfront] at h hread ⊢
    have hbehind := (behindFiles_eq_iff c.head_length (cons_ne_nil _ _) h).mpr (hfiles f hf)
    rw [aidPlace_list c.head_length h, hbehind, ok_bind, hread]
    rfl

/-- It is looked for there only if the length of the list is understood. -/
theorem readable_of_aidPlace (ha : c.aid = some a)
    (h : hexOctets urc = some c.bytes) {temp : Int}
    (hplace : aidPlace urc = .ok ((2 * c.front.length : Nat), temp))
    (hf : c.files = some f) : f.Readable := by
  rw [RefreshCommand.bytes_some ha, RefreshCommand.front_some hf] at h
  rw [aidPlace_list c.head_length h, RefreshCommand.front_some hf] at hplace
  refine (behindFiles_eq_iff c.head_length (cons_ne_nil _ _) h).mp ?_
  cases hbehind : behindFiles urc with
  | error stop =>
    rw [hbehind] at hplace
    cases hplace
  | ok offset =>
    rw [hbehind, ok_bind] at hplace
    cases hread : hexAt urc offset with
    | error stop =>
      rw [hread] at hplace
      cases hplace
    | ok tag =>
      rw [hread] at hplace
      rw [(Prod.mk.inj (Except.ok.inj hplace)).1]

/-- How a call can end: too short a text, no application at its place, or one. -/
theorem decode_inv {result : Int} {paid : Paid}
    (h : decodeStkRefreshAid urc = .ok (result, paid)) :
    (urc.length / 2 ≤ 18 ∧ paid = .null) ∨
      (18 < urc.length / 2 ∧ (paid = .unchanged ∨
        ∃ offset temp, aidPlace urc = .ok (offset, temp) ∧ paid = .place (offset + 4))) := by
  unfold decodeStkRefreshAid at h
  split at h
  · next hshort =>
    cases h
    exact .inl ⟨hshort, rfl⟩
  · next hlong =>
    refine .inr ⟨Nat.not_le.mp hlong, ?_⟩
    cases hplace : aidPlace urc with
    | error stop =>
      rw [hplace] at h
      cases h
    | ok place =>
      simp only [hplace, ok_bind] at h
      split at h
      · cases hread : hexAt urc (place.1 + 2) with
        | error stop =>
          rw [hread] at h
          cases h
        | ok temp =>
          rw [hread] at h
          cases h
          exact .inr ⟨place.1, place.2, rfl, rfl⟩
      · cases h
        exact .inl rfl

theorem decode_short (h : urc.length ≤ 37) : decodeStkRefreshAid urc = .ok (0, .null) := by
  unfold decodeStkRefreshAid
  rw [if_pos (by omega)]
  rfl

/-- The length of an application is one byte. -/
theorem Aid.bytes_eq (a : Aid) : a.bytes = a.tag :: UInt8.ofNat a.value.length :: a.value := by
  have hshort : a.value.length < 0x80 := Nat.lt_of_le_of_lt a.value_le (by decide)
  rw [Aid.bytes, berLength, if_pos hshort]
  rfl

/-- The id is found where the lengths in front of it put it. -/
theorem decode_aid (ha : c.aid = some a)
    (hlong : 18 < c.bytes.length) (hfiles : ∀ f, c.files = some f → f.Readable)
    (h : hexOctets urc = some c.bytes) :
    decodeStkRefreshAid urc
      = .ok (2 * a.value.length, .place (2 * (c.front.length + 2) : Nat)) := by
  have hplace := aidPlace_eq ha hfiles h
  have hlength := (pduArray_eq h).2
  have hbytes : c.bytes = (c.front ++ [a.tag]) ++ UInt8.ofNat a.value.length :: a.value := by
    rw [RefreshCommand.bytes, ha]
    show c.front ++ a.bytes = _
    rw [a.bytes_eq, append_assoc]
    rfl
  have hbyte : (UInt8.ofNat a.value.length).toNat = a.value.length :=
    UInt8.toNat_ofNat_of_lt (Nat.lt_of_le_of_lt a.value_le (by decide))
  rw [hbytes] at h
  have hread := @hexAt_behind urc _ _ _ h ((2 * c.front.length : Nat) + 2) (by
    rw [length_append, length_singleton]
    omega)
  have htag : (a.tag.toNat : Int) = 0x2F ∨ (a.tag.toNat : Int) = 0xAF := tag_value a.tag_eq
  unfold decodeStkRefreshAid
  rw [if_neg (by omega)]
  simp only [hplace, ok_bind]
  rw [if_pos htag, hread, hbyte]
  show Except.ok _ = Except.ok _
  congr 2
  omega

end Application

/-- The application is found if the command is longer than 18 bytes and the
length of the list is understood, and its absence is reported if the command has
at most 18 bytes; and only then. -/
theorem refresh_aid_exact (c : RefreshCommand) (urc : Line) (h : hexOctets urc = some c.bytes) :
    ReportsAid c urc ↔ c.Decodable := by
  have hlength := (pduArray_eq h).2
  constructor
  · rintro ⟨hpresent, habsent⟩
    constructor
    · intro hsome
      obtain ⟨a, ha⟩ := Option.ne_none_iff_exists'.mp hsome
      obtain ⟨offset, hdecode, hvalue⟩ := hpresent a ha
      -- the id stands at the end of the text, so there is one place for it
      have hbytes := congrArg length (RefreshCommand.bytes_some ha)
      have hbehind := (pduArray_eq hvalue).2
      have hpos := a.value_pos
      have hone : (berLength a.value.length).length = 1 := by
        rw [berLength, if_pos (Nat.lt_of_le_of_lt a.value_le (by decide))]
        rfl
      rw [length_append, length_cons, length_append, hone] at hbytes
      rw [length_drop] at hbehind
      rcases decode_inv hdecode with ⟨-, hnull⟩ | ⟨hlong, hunchanged | ⟨place, temp, hplace, hpaid⟩⟩
      · cases hnull
      · cases hunchanged
      · have hfront : place = (2 * c.front.length : Nat) := by
          have hoffset : (offset : Int) = place + 4 := Paid.place.inj hpaid
          omega
        rw [hfront] at hplace
        exact ⟨by omega, fun f hf => readable_of_aidPlace ha h hplace hf⟩
    · intro hnone
      rcases decode_inv (habsent hnone) with ⟨hshort, -⟩ | ⟨-, hunchanged | ⟨_, _, -, hpaid⟩⟩
      · omega
      · cases hunchanged
      · cases hpaid
  · rintro ⟨hpresent, habsent⟩
    constructor
    · intro a ha
      obtain ⟨hlong, hfiles⟩ := hpresent (Option.ne_none_iff_exists'.mpr ⟨a, ha⟩)
      refine ⟨2 * (c.front.length + 2), decode_aid ha hlong hfiles h, ?_⟩
      rw [(hexOctets_take_drop h _).2, RefreshCommand.bytes, ha]
      show some ((c.front ++ a.bytes).drop (c.front.length + 2)) = _
      rw [drop_length_add_append, a.bytes_eq]
      rfl
    · intro hnone
      have hshort := habsent hnone
      exact decode_short (by omega)

/-- One changed file, and an application with an id of 7 bytes. -/
def sampleRefresh : RefreshCommand :=
  ⟨[0x81, 3, 1, 1, 3], [0x82, 2, 0x81, 0x82],
    some ⟨0x92, [1, 0x3F, 0, 0x2F, 0xE2], .inr rfl, by decide⟩,
    some ⟨0xAF, [0xA0, 0, 0, 0, 0x87, 0x10, 2], .inr rfl, by decide, by decide⟩, rfl, rfl⟩

theorem refresh_aid_exact_sample : ReportsAid sampleRefresh (hexText sampleRefresh.bytes) := by
  refine (refresh_aid_exact sampleRefresh _ rfl).mpr ⟨fun _ => ⟨by decide, fun f hf => ?_⟩, ?_⟩
  · cases hf
    exact ⟨by decide, by decide⟩
  · intro hnone
    cases hnone

/-- Without a file list the application is not found: the command has 18 bytes. -/
theorem refresh_aid_missed :
    ¬ ∀ (c : RefreshCommand) (urc : Line), hexOctets urc = some c.bytes → ReportsAid c urc := by
  intro hall
  obtain ⟨offset, hdecode, -⟩ := (hall { sampleRefresh with files := none }
    (hexText [0x81, 3, 1, 1, 3, 0x82, 2, 0x81, 0x82, 0xAF, 7, 0xA0, 0, 0, 0, 0x87, 0x10, 2])
      rfl).1 _ rfl
  rw [decode_short (by decide)] at hdecode
  cases hdecode

end Arale.Ril.Stk
