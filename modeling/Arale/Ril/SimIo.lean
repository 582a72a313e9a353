import Arale.At.Fields
import Arale.Ril.HexText

/-!
# Reading and writing a file of the SIM

`simIo` splits a request into commands for the modem. A read asks for up to 256
bytes at a time, and the length 256 is sent as 0. A write sends up to 255 bytes
first, but the later rounds take up to 256, and all rounds copy their digits
into one buffer without clearing it. Two results:

> `sim_read_exact`: if the modem answers every read with the digits of the
> bytes that were asked for, `simIo` returns the digits of the whole range.

> `sim_write_exact`: up to 255 bytes, or exactly 510, every command carries as
> many digits as its length says and together they write the data. For any
> other length the second command is wrong.

The modem is a function of the commands sent so far and the present one, so it
may answer the same command differently each time.
-/

namespace Arale.Ril.SimIo

open Arale.Lib (digits store)
open Arale.At List
open Arale.Ril.Pdu (hexOctets pduArray_eq hexOctets_append hexDigit_of_mem hexOctets_not_mem
  isspace_hexDigit hexOctets_take_drop)

/-! ## Model -/

/-- `RIL_SIM_IO_EX_v6`. The numbers are not negative. -/
structure Args where
  sessionId : Nat
  command : Nat
  fileid : Nat
  path : Option Line
  p1 : Nat
  p2 : Nat
  p3 : Nat
  data : Option Line

/-- `RIL_SIM_IO_Response` -/
structure Response where
  sw1 : Int
  sw2 : Int
  simResponse : Option Line
deriving DecidableEq

/-- A command `+CRSM`, or `+CRLA` in a session. -/
structure Command where
  sessionId : Nat
  command : Nat
  fileid : Nat
  p1 : Nat
  p2 : Nat
  p3 : Nat
  data : Option Line
  path : Option Line
deriving DecidableEq

def quoted (text : Line) : Line := 34 :: text ++ [34]

/-- What follows the length: an empty field stands for the data of a read. -/
def Command.tail (c : Command) : Line :=
  match c.data, c.path with
  | none, none => []
  | none, some path => bytes ",," ++ quoted path
  | some data, none => bytes "," ++ quoted data
  | some data, some path => bytes "," ++ quoted data ++ bytes "," ++ quoted path

/-- The text of a command, as `asprintf` writes it. -/
def Command.text (c : Command) : Line :=
  (if c.sessionId = 0 then bytes "AT+CRSM="
    else bytes "AT+CRLA=" ++ digits c.sessionId ++ bytes ",")
    ++ digits c.command ++ bytes "," ++ digits c.fileid ++ bytes "," ++ digits c.p1 ++ bytes ","
    ++ digits c.p2 ++ bytes "," ++ digits c.p3 ++ c.tail

/-- What `at_send_command_singleline` returns. `behind` is the memory behind the
last field of the line. -/
structure Answer where
  err : Int
  success : Bool
  line : Line
  behind : Nat → UInt8

abbrev Modem := List Line → Line → Answer

/-- Why `simIo` does not succeed. -/
inductive Stop where
  /-- `assert(0)` -/
  | assertion
  /-- `RIL_E_GENERIC_FAILURE` -/
  | genericFailure
  /-- A read behind the end of a buffer. -/
  | outside
  /-- The loop has not ended yet. -/
  | running
deriving DecidableEq

/-- `sendSimAccessCommand`, with the answer of the modem. -/
def sendSimAccessCommand (a : Answer) : Except Stop Response :=
  if a.err < 0 ∨ a.success = false then .error .assertion
  else
    match atTokStart a.line with
    | none => .error .genericFailure
    | some cur =>
      match atTokNextint (some cur) with
      | (none, _) => .error .genericFailure
      | (some sw1, cur) =>
        match atTokNextint cur with
        | (none, _) => .error .genericFailure
        | (some sw2, cur) =>
          if atTokHasmore cur then
            match atTokNextstr cur with
            | (none, _) => .error .genericFailure
            | (some text, _) => .ok ⟨sw1, sw2, some text⟩
          else .ok ⟨sw1, sw2, none⟩

def propertyValueMax : Nat := 92

def isMasterFile (path : Line) : Bool :=
  strStartsWith path (bytes "3F00") || strStartsWith path (bytes "3f00")

/-- The path that goes into the command, without the leading master file;
`none` where the command has no path. -/
def pathOf (isUsim : Bool) : Option Line → Option Line
  | none => none
  | some path =>
    if path = [] then none
    else if path.length > 4 ∧ isMasterFile path then
      some ((path.drop 4).take (propertyValueMax - 1))
    else if isUsim ∧ path.length = 4 ∧ isMasterFile path then none
    else some (path.take (propertyValueMax - 1))

/-- `memcpy` of `n` bytes from a text: behind its end, what is in memory there. -/
def bytesFrom (text : Line) (behind : Nat → UInt8) (n : Nat) : Line :=
  (List.range n).map fun i => text.getD i (behind i)

/-- The buffer after a copy to `i`. -/
def overwrite (line : Line) (i : Nat) (new : Line) : Line :=
  line.take i ++ new ++ line.drop (i + new.length)

/-- `strncpy` fills up with NUL. -/
def strncpy (text : Line) (n : Nat) : Line :=
  text.take n ++ replicate (n - text.length) 0

/-- The text in a buffer up to its NUL. -/
def cString (line : Line) : Line := line.takeWhile (· != 0)

/-- The variables of the loops, with the commands sent. -/
structure Vars where
  line : Line
  offset : Nat
  remain : Nat
  len : Nat
  sr : Option Response
  sent : List Command

/-- What `simIo` leaves in `p_res`, and the commands it sent. -/
structure Result where
  sr : Option Response
  simResponse : Option Line
  sent : List Command

def nextLen (remain : Nat) : Nat := if remain < 256 then remain else 256

def Args.commandAt (args : Args) (path : Option Line) (offset p3 : Nat) (data : Option Line) :
    Command :=
  ⟨args.sessionId, args.command, args.fileid, offset / 256 % 256, offset % 256, p3, data, path⟩

/-- The command of a read round; a length of 256 is sent as 0. -/
def Args.readCommand (args : Args) (path : Option Line) (offset remain : Nat) : Command :=
  args.commandAt path offset (if remain < 256 then remain else 0) none

/-- The variables after a round whose answer is `sr`. -/
def Vars.next (s : Vars) (line : Line) (c : Command) (sr : Response) : Vars :=
  { line := line, offset := s.offset + s.len, remain := s.remain - s.len,
    len := nextLen (s.remain - s.len), sr := some sr, sent := s.sent ++ [c] }

/-- The loop of the read branch. -/
def readLoop (modem : Modem) (args : Args) (path : Option Line) :
    Nat → Vars → Except Stop Result
  | fuel, s =>
    if s.remain = 0 then .ok ⟨s.sr, some (cString s.line), s.sent⟩
    else
      match fuel with
      | 0 => .error .running
      | fuel + 1 =>
        let c := args.readCommand path s.offset s.remain
        let a := modem (s.sent.map Command.text) c.text
        match sendSimAccessCommand a with
        | .error stop => .error stop
        | .ok sr =>
          match sr.simResponse with
          -- no data, for instance the status 94 04
          | none => .ok ⟨some sr, none, s.sent ++ [c]⟩
          | some text =>
            readLoop modem args path fuel
              (s.next (overwrite s.line (2 * (args.p3 - s.remain))
                (bytesFrom text a.behind (2 * s.len))) c sr)

/-- The loop of the write branch. -/
def writeLoop (modem : Modem) (args : Args) (path : Option Line) (data : Line) :
    Nat → Vars → Except Stop Result
  | fuel, s =>
    if s.remain = 0 then .ok ⟨s.sr, none, s.sent⟩
    else
      match fuel with
      | 0 => .error .running
      | fuel + 1 =>
        let start := 2 * (args.p3 - s.remain)
        if data.length < start then .error .outside
        else
          let line := overwrite s.line 0 (strncpy (data.drop start) (2 * s.len))
          -- `%s` needs a NUL in the buffer
          if 0 ∉ line then .error .outside
          else
            let c := args.commandAt path s.offset s.len (some (cString line))
            match sendSimAccessCommand (modem (s.sent.map Command.text) c.text) with
            | .error stop => .error stop
            | .ok sr => writeLoop modem args path data fuel (s.next line c sr)

/-- `simIo` -/
def simIo (modem : Modem) (isUsim : Bool) (args : Args) : Except Stop Result :=
  let path := pathOf isUsim args.path
  let offset := args.p1 * 256 + args.p2
  match args.data with
  | none =>
    readLoop modem args path args.p3
      ⟨replicate (2 * args.p3 + 1) 0, offset, args.p3, nextLen args.p3, none, []⟩
  | some data =>
    writeLoop modem args path data args.p3
      ⟨replicate 512 0, offset, args.p3, if args.p3 > 255 then 255 else args.p3, none, []⟩

/-! ## Buffers -/

theorem bytesFrom_eq {text : Line} {n : Nat} (behind : Nat → UInt8) (h : text.length = n) :
    bytesFrom text behind n = text := by
  subst h
  refine ext_getElem (by simp [bytesFrom]) fun i hi hi' => ?_
  simp [bytesFrom, hi']

/-- A copy behind what is already there. -/
theorem overwrite_replicate (done new : Line) (n : Nat) :
    overwrite (done ++ replicate n 0) done.length new
      = (done ++ new) ++ replicate (n - new.length) 0 := by
  rw [overwrite, take_left, ← drop_drop, drop_left, drop_replicate]

theorem cString_replicate {text : Line} (h : 0 ∉ text) (n : Nat) :
    cString (text ++ replicate n 0) = text := by
  rw [cString, takeWhile_append_of_pos]
  · cases n with
    | zero => simp
    | succ n => simp [replicate_succ]
  · intro c hc
    simpa using fun heq : c = 0 => h (heq ▸ hc)

/-! ## The answer to a read -/

/-- A successful answer with the status words and a field of digits, with or
without quotes and with blanks before each field. -/
def IsReadAnswer (sessionId : Nat) (hex : Line) (a : Answer) : Prop :=
  0 ≤ a.err ∧ a.success = true ∧ ∃ (sw1 sw2 : Nat) (b₁ b₂ b₃ field : Line),
    (∀ c ∈ b₁ ++ b₂ ++ b₃, isspace c = true) ∧ (field = hex ∨ field = quoted hex) ∧
    a.line = (if sessionId = 0 then bytes "+CRSM:" else bytes "+CRLA:")
      ++ (b₁ ++ digits sw1 ++ 44 :: (b₂ ++ digits sw2 ++ 44 :: (b₃ ++ field)))

theorem atTokStart_answer (sessionId : Nat) (rest : Line) :
    atTokStart ((if sessionId = 0 then bytes "+CRSM:" else bytes "+CRLA:") ++ rest)
      = some rest := by
  split <;> rfl

variable {hex data : Line} {octets : List UInt8}

theorem nextTok_hex {field blanks : Line} (hhex : hexOctets hex = some octets) (hne : hex ≠ [])
    (hblanks : ∀ c ∈ blanks, isspace c = true) (hfield : field = hex ∨ field = quoted hex) :
    (nextTok (some (blanks ++ field))).1 = some hex := by
  obtain rfl | rfl := hfield
  · obtain ⟨c, rest, rfl⟩ := exists_cons_of_ne_nil hne
    have hspace := isspace_hexDigit (hexDigit_of_mem hhex c mem_cons_self)
    have hquote : c ≠ 34 := by
      rintro rfl
      exact hexOctets_not_mem hhex (by decide) mem_cons_self
    rw [nextTok_last hblanks hspace hquote (hexOctets_not_mem hhex (by decide))]
  · rw [quoted, nextTok_quoted hblanks (hexOctets_not_mem hhex (by decide))]

theorem sendSimAccessCommand_read {sessionId : Nat} {a : Answer}
    (hhex : hexOctets hex = some octets) (hne : hex ≠ []) (h : IsReadAnswer sessionId hex a) :
    ∃ sw1 sw2, sendSimAccessCommand a = .ok ⟨sw1, sw2, some hex⟩ := by
  obtain ⟨herr, hsuccess, n₁, n₂, b₁, b₂, b₃, field, hblanks, hfield, hline⟩ := h
  simp only [mem_append] at hblanks
  have hsw1 := atTokNextint_digits (fun c hc => hblanks c (.inl (.inl hc))) n₁
    (b₂ ++ digits n₂ ++ 44 :: (b₃ ++ field))
  have hsw2 := atTokNextint_digits (fun c hc => hblanks c (.inl (.inr hc))) n₂ (b₃ ++ field)
  have hstr := nextTok_hex hhex hne (fun c hc => hblanks c (.inr hc)) hfield
  have hmore : atTokHasmore (some (b₃ ++ field)) = true := by
    have hnil : field ≠ [] := by
      obtain rfl | rfl := hfield
      · exact hne
      · exact cons_ne_nil _ _
    simp [atTokHasmore, hnil]
  refine ⟨min (2 ^ 31 - 1) (n₁ : Int), min (2 ^ 31 - 1) (n₂ : Int), ?_⟩
  unfold sendSimAccessCommand
  rw [if_neg (by simp [hsuccess, herr]), hline, atTokStart_answer]
  simp only [hsw1, hsw2, hmore, if_true]
  split
  · next hnone =>
    rw [← atTokNextstr, hnone] at hstr
    cases hstr
  · next text cur hsome =>
    rw [← atTokNextstr, hsome] at hstr
    cases hstr
    rfl

/-! ## Reading -/

/-- `n` bytes of a file from `offset` on. -/
def fileBytes (file : Nat → UInt8) (offset n : Nat) : List UInt8 :=
  (List.range n).map fun i => file (offset + i)

@[simp] theorem length_fileBytes (file : Nat → UInt8) (offset n : Nat) :
    (fileBytes file offset n).length = n := by simp [fileBytes]

theorem fileBytes_add (file : Nat → UInt8) (offset m n : Nat) :
    fileBytes file offset (m + n) = fileBytes file offset m ++ fileBytes file (offset + m) n := by
  simp only [fileBytes, range_add, map_append, map_map]
  congr 1
  refine map_congr_left fun i _ => ?_
  show file (offset + (m + i)) = file (offset + m + i)
  rw [Nat.add_assoc]

/-- The modem answers every read inside the range with the bytes of the file. -/
def AnswersReads (modem : Modem) (args : Args) (path : Option Line) (file : Nat → UInt8)
    (offset n : Nat) : Prop :=
  ∀ sent o l, 0 < l → l ≤ 256 → offset ≤ o → o + l ≤ offset + n →
    ∃ hex, hexOctets hex = some (fileBytes file o l) ∧
      IsReadAnswer args.sessionId hex
        (modem sent (args.commandAt path o (if l = 256 then 0 else l) none).text)

/-- What holds before each round of a read: the digits of the bytes read so far
stand at the start of the buffer, and the rest of it is clear. -/
structure Reading (args : Args) (file : Nat → UInt8) (offset : Nat) (s : Vars) : Prop where
  remain_le : s.remain ≤ args.p3
  offset_eq : s.offset = offset + (args.p3 - s.remain)
  len_eq : s.len = nextLen s.remain
  line_eq : ∃ hex, hexOctets hex = some (fileBytes file offset (args.p3 - s.remain)) ∧
    s.line = hex ++ replicate (2 * s.remain + 1) 0

theorem nextLen_le (remain : Nat) : nextLen remain ≤ remain ∧ nextLen remain ≤ 256 := by
  unfold nextLen
  split <;> omega

theorem nextLen_pos {remain : Nat} (h : remain ≠ 0) : 0 < nextLen remain := by
  unfold nextLen
  split <;> omega

/-- The command of a round asks for `len` bytes. -/
theorem readCommand_eq (args : Args) (path : Option Line) (offset remain : Nat) :
    args.readCommand path offset remain = args.commandAt path offset
      (if nextLen remain = 256 then 0 else nextLen remain) none := by
  rw [Args.readCommand]
  unfold nextLen
  by_cases h : remain < 256
  · rw [if_pos h, if_pos h, if_neg (by omega)]
  · rw [if_neg h, if_neg h, if_pos rfl]

variable {modem : Modem} {args : Args} {path : Option Line} {file : Nat → UInt8} {offset : Nat}
variable {s : Vars}

/-- One round copies the digits of the next bytes behind those already there. -/
theorem Reading.next (hs : Reading args file offset s)
    (hhex : hexOctets hex = some (fileBytes file s.offset s.len)) (behind : Nat → UInt8)
    (c : Command) (sr : Response) :
    Reading args file offset (s.next (overwrite s.line (2 * (args.p3 - s.remain))
      (bytesFrom hex behind (2 * s.len))) c sr) := by
  obtain ⟨hremain, hoffset, hlen, done, hdone, hline⟩ := hs
  have hle : s.len ≤ s.remain := hlen ▸ (nextLen_le s.remain).1
  have hlength : hex.length = 2 * s.len := by simpa using (pduArray_eq hhex).2
  have hdoneLength : done.length = 2 * (args.p3 - s.remain) := by simpa using (pduArray_eq hdone).2
  have hbehind : args.p3 - (s.remain - s.len) = (args.p3 - s.remain) + s.len := by omega
  refine ⟨?_, ?_, rfl, done ++ hex, ?_, ?_⟩
  · show s.remain - s.len ≤ args.p3
    omega
  · show s.offset + s.len = offset + (args.p3 - (s.remain - s.len))
    omega
  · show _ = some (fileBytes file offset (args.p3 - (s.remain - s.len)))
    rw [hbehind, fileBytes_add, ← hoffset]
    exact hexOctets_append hdone hhex
  · show overwrite s.line _ _ = done ++ hex ++ replicate (2 * (s.remain - s.len) + 1) 0
    rw [bytesFrom_eq behind hlength, hline, ← hdoneLength, overwrite_replicate done hex,
      hlength]
    congr 2
    omega

/-- Behind the last round the buffer holds the digits of the whole range. -/
theorem Reading.done (hs : Reading args file offset s) (hzero : s.remain = 0) :
    hexOctets (cString s.line) = some (fileBytes file offset args.p3) := by
  obtain ⟨-, -, -, hex, hhex, hline⟩ := hs
  rw [hline, cString_replicate (hexOctets_not_mem hhex (by decide)), hhex, hzero, Nat.sub_zero]

/-- The loop ends, and the buffer then holds the digits of the whole range. -/
theorem readLoop_reading (hmodem : AnswersReads modem args path file offset args.p3) (fuel : Nat)
    (hs : Reading args file offset s) (hfuel : s.remain ≤ fuel) :
    ∃ r hex, readLoop modem args path fuel s = .ok r ∧ r.simResponse = some hex ∧
      hexOctets hex = some (fileBytes file offset args.p3) := by
  -- every round takes at least one byte, so `remain` rounds are enough
  induction fuel generalizing s with
  | zero =>
    have hzero : s.remain = 0 := Nat.le_zero.mp hfuel
    exact ⟨_, _, by rw [readLoop, if_pos hzero], rfl, hs.done hzero⟩
  | succ fuel ih =>
    by_cases hzero : s.remain = 0
    · exact ⟨_, _, by rw [readLoop, if_pos hzero], rfl, hs.done hzero⟩
    · have hpos : 0 < s.len := hs.len_eq ▸ nextLen_pos hzero
      have hle : s.len ≤ s.remain ∧ s.len ≤ 256 := hs.len_eq ▸ nextLen_le s.remain
      have hremain := hs.remain_le
      have hoffset := hs.offset_eq
      obtain ⟨hex, hhex, hanswer⟩ := hmodem (s.sent.map Command.text) s.offset s.len hpos hle.2
        (by omega) (by omega)
      have hne : hex ≠ [] := by
        rintro rfl
        have hlength := (pduArray_eq hhex).2
        rw [length_fileBytes, length_nil] at hlength
        omega
      obtain ⟨sw1, sw2, hsend⟩ := sendSimAccessCommand_read hhex hne hanswer
      rw [hs.len_eq, ← readCommand_eq] at hsend
      rw [readLoop, if_neg hzero]
      simp only [hsend]
      apply ih (hs.next hhex _ _ _)
      show s.remain - s.len ≤ fuel
      omega

/-- A read returns the digits of the bytes of the file. -/
theorem sim_read_exact (modem : Modem) (isUsim : Bool) (args : Args) (file : Nat → UInt8)
    (hdata : args.data = none)
    (hmodem : AnswersReads modem args (pathOf isUsim args.path) file (args.p1 * 256 + args.p2)
      args.p3) :
    ∃ r hex, simIo modem isUsim args = .ok r ∧ r.simResponse = some hex ∧
      hexOctets hex = some (fileBytes file (args.p1 * 256 + args.p2) args.p3) := by
  have hstart : Reading args file (args.p1 * 256 + args.p2)
      ⟨replicate (2 * args.p3 + 1) 0, args.p1 * 256 + args.p2, args.p3, nextLen args.p3, none,
        []⟩ := by
    refine ⟨Nat.le_refl _, ?_, rfl, [], ?_, rfl⟩
    · show args.p1 * 256 + args.p2 = args.p1 * 256 + args.p2 + (args.p3 - args.p3)
      omega
    · show _ = some (fileBytes file _ (args.p3 - args.p3))
      rw [Nat.sub_self]
      rfl
  have hrun := readLoop_reading hmodem args.p3 hstart (Nat.le_refl _)
  rw [simIo, hdata]
  exact hrun

/-- A modem that knows three reads of a file with the bytes 1A 2B at 258. -/
def sampleModem (args : Args) : Modem := fun _ text =>
  let answer := fun hex => (⟨0, true, bytes "+CRSM: 144,0," ++ quoted (bytes hex), fun _ => 0⟩ :
    Answer)
  if text = (args.commandAt none 258 2 none).text then answer "1A2b"
  else if text = (args.commandAt none 258 1 none).text then answer "1A"
  else answer "2B"

def sampleRead : Args := ⟨0, 176, 0x6F07, none, 1, 2, 2, none⟩

def sampleFile (i : Nat) : UInt8 := if i = 258 then 0x1A else 0x2B

theorem isReadAnswer_sample {hex : String} (field : Line) (hfield : field = quoted (bytes hex)) :
    IsReadAnswer 0 (bytes hex) ⟨0, true, bytes "+CRSM: 144,0," ++ field, fun _ => 0⟩ := by
  refine ⟨Int.le_refl 0, rfl, 144, 0, [32], [], [], field, by simp [isspace], .inr hfield, ?_⟩
  have hhead : bytes "+CRSM: 144,0," = bytes "+CRSM:" ++ ([32] ++ digits 144 ++ 44 ::
      ([] ++ digits 0 ++ [44])) := by decide
  show bytes "+CRSM: 144,0," ++ field = _
  rw [hhead]
  simp

theorem sampleRead_offset : sampleRead.p1 * 256 + sampleRead.p2 = 258 := rfl

theorem sampleModem_answers :
    AnswersReads (sampleModem sampleRead) sampleRead (pathOf false sampleRead.path) sampleFile
      (sampleRead.p1 * 256 + sampleRead.p2) sampleRead.p3 := by
  intro sent o l hpos hle hlow hhigh
  rw [sampleRead_offset] at hlow hhigh
  change o + l ≤ 258 + 2 at hhigh
  obtain ⟨rfl, rfl⟩ | ⟨rfl, rfl⟩ | ⟨rfl, rfl⟩ :
      (o = 258 ∧ l = 2) ∨ (o = 258 ∧ l = 1) ∨ (o = 259 ∧ l = 1) := by omega
  · exact ⟨bytes "1A2b", by decide, isReadAnswer_sample _ rfl⟩
  · exact ⟨bytes "1A", by decide, isReadAnswer_sample _ rfl⟩
  · exact ⟨bytes "2B", by decide, isReadAnswer_sample _ rfl⟩

theorem sim_read_exact_sample :
    ∃ r hex, simIo (sampleModem sampleRead) false sampleRead = .ok r ∧ r.simResponse = some hex ∧
      hexOctets hex = some [0x1A, 0x2B] := by
  obtain ⟨r, hex, hrun, hr, hhex⟩ :=
    sim_read_exact (sampleModem sampleRead) false sampleRead sampleFile rfl sampleModem_answers
  refine ⟨r, hex, hrun, hr, hhex.trans ?_⟩
  rw [sampleRead_offset]
  rfl

/-! ## Writing -/

/-- A write of the SIM. -/
def applyWrite (file : Nat → UInt8) (c : Command) : Nat → UInt8 :=
  match c.data.bind hexOctets with
  | some octets => store file (c.p1 * 256 + c.p2) octets
  | none => file

theorem applyWrite_hex {file : Nat → UInt8} {c : Command}
    (hdata : c.data = some data) (hhex : hexOctets data = some octets) :
    applyWrite file c = store file (c.p1 * 256 + c.p2) octets := by
  rw [applyWrite, hdata, Option.bind_some, hhex]

/-- The length of a command is in the range of one byte, and its data has two
digits for each byte. -/
def Exact (c : Command) : Prop :=
  1 ≤ c.p3 ∧ c.p3 ≤ 255 ∧ ∃ data, c.data = some data ∧ data.length = 2 * c.p3

/-- Every command is answered with the status words. -/
def Succeeds (modem : Modem) : Prop :=
  ∀ sent text, ∃ sr, sendSimAccessCommand (modem sent text) = .ok sr

theorem store_append (file : Nat → UInt8) (i : Nat) (xs ys : List UInt8) :
    store (store file i xs) (i + xs.length) ys = store file i (xs ++ ys) := by
  funext j
  by_cases hlow : j < i
  · rw [Arale.Lib.store_before ys (by omega), Arale.Lib.store_before xs hlow,
      Arale.Lib.store_before (xs ++ ys) hlow]
  · obtain ⟨k, rfl⟩ : ∃ k, j = i + k := ⟨j - i, by omega⟩
    by_cases hk : k < xs.length
    · rw [Arale.Lib.store_before ys (by omega),
        Arale.Lib.store_inside (List.getElem?_eq_getElem hk),
        Arale.Lib.store_inside (List.getElem?_append_left hk ▸ List.getElem?_eq_getElem hk)]
    · simp only [store, if_pos (Nat.le_add_right i k), Nat.add_sub_cancel_left,
        List.getElem?_append_right (Nat.le_of_not_lt hk),
        List.getElem?_eq_none (Nat.le_of_not_lt hk), if_pos (by omega : i + xs.length ≤ i + k),
        Nat.add_sub_add_left]
      rfl

/-- The buffer of the writes: the digits of the last round, and clear behind. -/
def Holds (line old : Line) : Prop :=
  line = old ++ replicate (512 - old.length) 0

/-- What holds before each round of a write. -/
structure Writing (args : Args) (octets : List UInt8) (offset : Nat) (s : Vars) : Prop where
  remain_le : s.remain ≤ args.p3
  offset_eq : s.offset = offset + (args.p3 - s.remain)
  exact : ∀ c ∈ s.sent, Exact c
  applied : ∀ file, s.sent.foldl applyWrite file
    = store file offset (octets.take (args.p3 - s.remain))

theorem strncpy_eq {text : Line} {n : Nat} (h : n ≤ text.length) :
    strncpy text n = text.take n := by
  rw [strncpy, Nat.sub_eq_zero_of_le h]
  exact append_nil _

/-- A round that covers the digits left from before. -/
theorem overwrite_cover {old new : Line} (h : old.length ≤ new.length) (hsize : new.length ≤ 512) :
    Holds (overwrite (old ++ replicate (512 - old.length) 0) 0 new) new := by
  rw [Holds, overwrite, take_zero, nil_append, Nat.zero_add, drop_append,
    drop_eq_nil_of_le h, nil_append, drop_replicate]
  congr 2
  omega

/-- The variables before the first round of a write. -/
def writeStart (args : Args) : Vars :=
  ⟨replicate 512 0, args.p1 * 256 + args.p2, args.p3, if args.p3 > 255 then 255 else args.p3,
    none, []⟩

theorem writing_start (args : Args) (octets : List UInt8) :
    Writing args octets (args.p1 * 256 + args.p2) (writeStart args) := by
  refine ⟨Nat.le_refl _, ?_, fun c hc => absurd hc not_mem_nil, fun file => ?_⟩
  · show args.p1 * 256 + args.p2 = args.p1 * 256 + args.p2 + (args.p3 - args.p3)
    omega
  · show file = store file _ (octets.take (args.p3 - args.p3))
    funext j
    simp [store]

section Write

variable {data line old : Line} {octets : List UInt8} {s : Vars}

/-- The buffer when the digits of the round cover those left from before. -/
theorem Holds.cString (h : Holds line old) (hhex : 0 ∉ old) : SimIo.cString line = old := by
  rw [h, cString_replicate hhex]

theorem Holds.nul_mem (h : Holds line old) (hlt : old.length < 512) : 0 ∈ line := by
  rw [h]
  refine mem_append_right _ (mem_replicate.mpr ⟨?_, rfl⟩)
  omega

/-- The digits a round copies. -/
def chunk (args : Args) (data : Line) (s : Vars) : Line :=
  (data.drop (2 * (args.p3 - s.remain))).take (2 * s.len)

theorem hexOctets_chunk (args : Args) (s : Vars) (hhex : hexOctets data = some octets) :
    hexOctets (chunk args data s) = some ((octets.drop (args.p3 - s.remain)).take s.len) :=
  (hexOctets_take_drop (hexOctets_take_drop hhex _).2 _).1

variable (path : Option Line) (hmodem : Succeeds modem) (hhex : hexOctets data = some octets)
  (hlength : octets.length = args.p3)
include hhex hlength

theorem length_chunk (hremain : s.remain ≤ args.p3) (hlen : s.len ≤ s.remain) :
    (chunk args data s).length = 2 * s.len := by
  rw [(pduArray_eq (hexOctets_chunk args s hhex)).2, length_take, length_drop]
  omega

theorem strncpy_chunk (hremain : s.remain ≤ args.p3) (hlen : s.len ≤ s.remain) :
    strncpy (data.drop (2 * (args.p3 - s.remain))) (2 * s.len) = chunk args data s := by
  have hdata : data.length = 2 * octets.length := (pduArray_eq hhex).2
  apply strncpy_eq
  rw [length_drop]
  omega

theorem Writing.next {path : Option Line} (hs : Writing args octets offset s)
    (hrange : offset + args.p3 ≤ 65536) (hpos : 0 < s.len) (hbyte : s.len ≤ 255)
    (hlen : s.len ≤ s.remain) (line : Line) (sr : Response) : Writing args octets offset
      (s.next line (args.commandAt path s.offset s.len (some (chunk args data s))) sr) := by
  obtain ⟨hremain, hoffset, hexact, happlied⟩ := hs
  have hchunk := hexOctets_chunk args s hhex
  have htake : args.p3 - (s.remain - s.len) = (args.p3 - s.remain) + s.len := by omega
  refine ⟨?_, ?_, ?_, ?_⟩
  · show s.remain - s.len ≤ args.p3
    omega
  · show s.offset + s.len = offset + (args.p3 - (s.remain - s.len))
    omega
  · intro c hc
    obtain hc | hc := mem_append.mp hc
    · exact hexact c hc
    · obtain rfl := mem_singleton.mp hc
      exact ⟨hpos, hbyte, _, rfl, length_chunk hhex hlength hremain hlen⟩
  · intro file
    have hplace : s.offset / 256 % 256 * 256 + s.offset % 256 = s.offset := by omega
    have hbehind : s.offset = offset + (octets.take (args.p3 - s.remain)).length := by
      rw [length_take]
      omega
    show (s.sent ++ [_]).foldl applyWrite file
      = store file offset (octets.take (args.p3 - (s.remain - s.len)))
    rw [foldl_append, happlied, foldl_cons, foldl_nil, applyWrite_hex rfl hchunk, htake,
      take_add, ← store_append, ← hbehind]
    show store _ (s.offset / 256 % 256 * 256 + s.offset % 256) _ = _
    rw [hplace]

include hmodem

/-- One round, where the buffer holds `line` after the copy. -/
theorem writeLoop_round (hremain : s.remain ≤ args.p3) (hlen : s.len ≤ s.remain)
    (hne : s.remain ≠ 0)
    (hline : overwrite s.line 0 (chunk args data s) = line) (hnul : 0 ∈ line) (fuel : Nat) :
    ∃ sr, writeLoop modem args path data (fuel + 1) s = writeLoop modem args path data fuel
      (s.next line (args.commandAt path s.offset s.len (some (cString line))) sr) := by
  have hdata : data.length = 2 * args.p3 := hlength ▸ (pduArray_eq hhex).2
  have hcopy := strncpy_chunk hhex hlength hremain hlen
  obtain ⟨sr, hsend⟩ := hmodem (s.sent.map Command.text)
    (args.commandAt path s.offset s.len (some (cString line))).text
  refine ⟨sr, ?_⟩
  rw [writeLoop, if_neg hne]
  show (if data.length < 2 * (args.p3 - s.remain) then _ else _) = _
  rw [if_neg (by omega)]
  simp only [hcopy, hline, hnul, not_true_eq_false, if_false, hsend]

/-- A round whose digits cover those left from before: the command is exact and
the buffer then holds the digits of this round. -/
theorem writeLoop_cover (hs : Writing args octets offset s) (hrange : offset + args.p3 ≤ 65536)
    (hpos : 0 < s.len) (hbyte : s.len ≤ 255) (hlen : s.len ≤ s.remain) (hold : Holds s.line old)
    (hcover : old.length ≤ 2 * s.len) (fuel : Nat) :
    ∃ line c sr, writeLoop modem args path data (fuel + 1) s
        = writeLoop modem args path data fuel (s.next line c sr) ∧
      Writing args octets offset (s.next line c sr) ∧ Holds line (chunk args data s) := by
  have hchunk := length_chunk hhex hlength hs.remain_le hlen
  have hholds : Holds (overwrite s.line 0 (chunk args data s)) (chunk args data s) := by
    rw [hold]
    exact overwrite_cover (by omega) (by omega)
  have hstring := hholds.cString (hexOctets_not_mem (hexOctets_chunk args s hhex) (by decide))
  obtain ⟨sr, hround⟩ := writeLoop_round path hmodem hhex hlength hs.remain_le hlen
    (by omega) rfl (hholds.nul_mem (by omega)) fuel
  rw [hstring] at hround
  exact ⟨_, _, sr, hround, hs.next hhex hlength hrange hpos hbyte hlen _ sr, hholds⟩

/-- The first round of a write of more than 255 bytes. -/
theorem writeLoop_first (hrange : args.p1 * 256 + args.p2 + args.p3 ≤ 65536) (hmore : 255 < args.p3)
    (fuel : Nat) :
    ∃ s, writeLoop modem args path data (fuel + 1) (writeStart args)
        = writeLoop modem args path data fuel s ∧
      Writing args octets (args.p1 * 256 + args.p2) s ∧ s.remain = args.p3 - 255 ∧
      s.len = nextLen s.remain ∧ ∃ old, Holds s.line old ∧ old.length = 510 ∧ 0 ∉ old := by
  have hlen : (writeStart args).len = 255 := if_pos hmore
  have hremain : (writeStart args).remain = args.p3 := rfl
  have hstart := writing_start args octets
  have hclear : Holds (writeStart args).line [] := rfl
  obtain ⟨line, c, sr, hround, hnext, hholds⟩ := writeLoop_cover path hmodem hhex hlength hstart
    hrange (by omega) (by omega) (by omega) hclear (Nat.zero_le _) fuel
  refine ⟨_, hround, hnext, ?_, rfl, _, hholds, ?_, ?_⟩
  · show (writeStart args).remain - (writeStart args).len = _
    rw [hremain, hlen]
  · rw [length_chunk hhex hlength hstart.remain_le (by omega), hlen]
  · exact hexOctets_not_mem (hexOctets_chunk args _ hhex) (by decide)

end Write

/-- Behind the last round every command is exact and the data is written. -/
theorem Writing.done (hs : Writing args octets offset s) (hlength : octets.length = args.p3)
    (hzero : s.remain = 0) (data : Line) (fuel : Nat) :
    ∃ r, writeLoop modem args path data fuel s = .ok r ∧ (∀ c ∈ r.sent, Exact c) ∧
      ∀ file, r.sent.foldl applyWrite file = store file offset octets := by
  refine ⟨⟨s.sr, none, s.sent⟩, ?_, hs.exact, fun file => ?_⟩
  · cases fuel with
    | zero => rw [writeLoop, if_pos hzero]
    | succ fuel => rw [writeLoop, if_pos hzero]
  · rw [hs.applied file, hzero, Nat.sub_zero, take_of_length_le (Nat.le_of_eq hlength)]

/-- A write of up to 255 bytes, or of 510, sends exact commands that write the
data. -/
theorem sim_write_exact (modem : Modem) (isUsim : Bool) (args : Args) (data : Line)
    (octets : List UInt8) (hdata : args.data = some data) (hhex : hexOctets data = some octets)
    (hlength : octets.length = args.p3) (hpos : 0 < args.p3)
    (hrange : args.p1 * 256 + args.p2 + args.p3 ≤ 65536) (hmodem : Succeeds modem)
    (hsize : args.p3 ≤ 255 ∨ args.p3 = 510) :
    ∃ r, simIo modem isUsim args = .ok r ∧ (∀ c ∈ r.sent, Exact c) ∧
      ∀ file, r.sent.foldl applyWrite file = store file (args.p1 * 256 + args.p2) octets := by
  rw [simIo, hdata]
  show ∃ r, writeLoop modem args _ data args.p3 (writeStart args) = .ok r ∧ _
  have hstart := writing_start args octets
  have hclear : Holds (writeStart args).line [] := rfl
  obtain hle | hmax := hsize
  · -- one round
    have hlen : (writeStart args).len = args.p3 := if_neg (by omega)
    obtain ⟨fuel, hfuel⟩ : ∃ fuel, args.p3 = fuel + 1 := ⟨args.p3 - 1, by omega⟩
    obtain ⟨line, c, sr, hround, hnext, -⟩ := writeLoop_cover (pathOf isUsim args.path) hmodem
      hhex hlength hstart hrange (by omega) (by omega) (Nat.le_of_eq hlen) hclear
        (Nat.zero_le _) fuel
    rw [← hfuel] at hround
    rw [hround]
    apply hnext.done hlength
    show args.p3 - (writeStart args).len = 0
    omega
  · -- two rounds of 255 bytes: the second covers the digits of the first
    obtain ⟨fuel, hfuel⟩ : ∃ fuel, args.p3 = fuel + 1 + 1 := ⟨args.p3 - 2, by omega⟩
    obtain ⟨s, hround, hnext, hremain, hlen, old, hline, hold, -⟩ := writeLoop_first
      (pathOf isUsim args.path) hmodem hhex hlength hrange (by omega) (fuel + 1)
    rw [← hfuel] at hround
    have hsLen : s.len = 255 := by
      rw [hlen, hremain, hmax]
      rfl
    obtain ⟨line, c, sr, hround', hnext', -⟩ := writeLoop_cover (pathOf isUsim args.path) hmodem
      hhex hlength hnext hrange (by omega) (by omega) (by omega) hline (by omega) fuel
    rw [hround, hround']
    apply hnext'.done hlength
    show s.remain - s.len = 0
    omega

def sampleWrite (n : Nat) : Args :=
  ⟨1, 214, 0x6F07, some (bytes "3F007FFF"), 0, 4, n, some (replicate (2 * n) 48)⟩

def acceptAll : Modem := fun _ _ => ⟨0, true, bytes "+CRLA: 144,0", fun _ => 0⟩

theorem acceptAll_succeeds : Succeeds acceptAll := fun _ _ => ⟨⟨144, 0, none⟩, by rfl⟩

theorem hexOctets_zeros (n : Nat) :
    hexOctets (replicate (2 * n) 48) = some (replicate n 0) := by
  induction n with
  | zero => rfl
  | succ n ih => exact @hexOctets_append [48, 48] _ [0] _ (by decide) ih

theorem sim_write_exact_sample :
    ∃ r, simIo acceptAll true (sampleWrite 510) = .ok r ∧ (∀ c ∈ r.sent, Exact c) ∧
      ∀ file, r.sent.foldl applyWrite file = store file 4 (replicate 510 0) :=
  sim_write_exact acceptAll true (sampleWrite 510) _ _ rfl (hexOctets_zeros 510)
    (length_replicate) (by decide) (by decide) acceptAll_succeeds (.inr rfl)

/-- Commands that were sent stay in the result. -/
theorem writeLoop_sent {fuel : Nat} {r : Result} (h : writeLoop modem args path data fuel s = .ok r)
    {c : Command} (hc : c ∈ s.sent) : c ∈ r.sent := by
  fun_induction writeLoop modem args path data fuel s with
  | case1 =>
    obtain rfl := Except.ok.inj h
    exact hc
  | case2 | case3 | case4 | case5 => cases h
  | case6 fuel s hne start hstart line hnul c sr hsend ih => exact ih h (mem_append_left _ hc)

/-- Any other length goes wrong in the second round: the digits of the first
are left behind those of a shorter round, and a round of 256 bytes leaves no
place for the NUL. -/
theorem sim_write_other {isUsim : Bool} (hdata : args.data = some data)
    (hhex : hexOctets data = some octets) (hlength : octets.length = args.p3)
    (hrange : args.p1 * 256 + args.p2 + args.p3 ≤ 65536) (hmodem : Succeeds modem)
    (hmore : 255 < args.p3) (hother : args.p3 ≠ 510) {r : Result}
    (h : simIo modem isUsim args = .ok r) : ∃ c ∈ r.sent, ¬ Exact c := by
  rw [simIo, hdata] at h
  change writeLoop modem args (pathOf isUsim args.path) data args.p3 (writeStart args) = .ok r at h
  obtain ⟨fuel, hfuel⟩ : ∃ fuel, args.p3 = fuel + 1 + 1 := ⟨args.p3 - 2, by omega⟩
  obtain ⟨s, hround, hnext, hremain, hlen, old, hline, hold, hnul⟩ :=
    writeLoop_first (pathOf isUsim args.path) hmodem hhex hlength hrange hmore (fuel + 1)
  rw [← hfuel] at hround
  rw [hround] at h
  have hle := (nextLen_le s.remain).1
  have hchunk : (chunk args data s).length = 2 * s.len :=
    length_chunk hhex hlength hnext.remain_le (by omega)
  have hdigits : 0 ∉ chunk args data s :=
    hexOctets_not_mem (hexOctets_chunk args s hhex) (by decide)
  by_cases hshort : s.remain < 255
  · have hkept : overwrite s.line 0 (chunk args data s)
        = (chunk args data s ++ old.drop (2 * s.len)) ++ replicate 2 0 := by
      rw [hline, hold, overwrite, hchunk, take_zero, nil_append, Nat.zero_add,
        drop_append_of_le_length (by omega), append_assoc]
    have hstale : 0 ∉ chunk args data s ++ old.drop (2 * s.len) := by
      intro hmem
      obtain hmem | hmem := mem_append.mp hmem
      · exact hdigits hmem
      · exact hnul (mem_of_mem_drop hmem)
    obtain ⟨sr, hnextRound⟩ := writeLoop_round _ hmodem hhex hlength hnext.remain_le (by omega)
      (by omega) hkept (mem_append_right _ (by decide)) fuel
    rw [hnextRound] at h
    refine ⟨_, writeLoop_sent h (mem_append_right _ mem_cons_self), ?_⟩
    rintro ⟨-, -, text, htext, htwo⟩
    cases htext
    rw [cString_replicate hstale, length_append, length_drop, hchunk, hold] at htwo
    change 2 * s.len + (510 - 2 * s.len) = 2 * s.len at htwo
    omega
  · have hfull : s.len = 256 := by rw [hlen, nextLen, if_neg (by omega)]
    have hkept : overwrite s.line 0 (chunk args data s) = chunk args data s := by
      rw [hline, hold, overwrite, take_zero, nil_append, drop_eq_nil_of_le,
        append_nil]
      rw [length_append, length_replicate]
      omega
    have hcopy := strncpy_chunk hhex hlength hnext.remain_le (by omega)
    rw [writeLoop, if_neg (by omega)] at h
    simp only [hcopy, hkept, hdigits, not_false_eq_true, if_true, ite_self, reduceCtorEq] at h

theorem sim_write_other_256 :
    ∃ r, simIo acceptAll true (sampleWrite 256) = .ok r ∧ ∃ c ∈ r.sent, ¬ Exact c := by
  have hok : (simIo acceptAll true (sampleWrite 256)).toBool = true := by decide +kernel
  cases h : simIo acceptAll true (sampleWrite 256) with
  | error e =>
    rw [h] at hok
    cases hok
  | ok r =>
    exact ⟨r, rfl, sim_write_other rfl (hexOctets_zeros 256) length_replicate (by decide)
      acceptAll_succeeds (by decide) (by decide) h⟩

/-- With 256 bytes the second command has the length 1, and the 510 digits in
the buffer. -/
theorem sim_write_stale :
    ¬ ∀ (modem : Modem) (isUsim : Bool) (args : Args) (data : Line) (octets : List UInt8),
      args.data = some data → hexOctets data = some octets → octets.length = args.p3 →
      0 < args.p3 → args.p1 * 256 + args.p2 + args.p3 ≤ 65536 → Succeeds modem →
      ∃ r, simIo modem isUsim args = .ok r ∧ (∀ c ∈ r.sent, Exact c) ∧
        ∀ file, r.sent.foldl applyWrite file = store file (args.p1 * 256 + args.p2) octets := by
  intro h
  obtain ⟨r, hrun, hexact, -⟩ := h acceptAll true (sampleWrite 256) _ _ rfl (hexOctets_zeros 256)
    length_replicate (by decide) (by decide) acceptAll_succeeds
  have hsecond : (simIo acceptAll true (sampleWrite 256)).toOption.any (fun r =>
      decide (∃ c ∈ r.sent, c.p3 = 1 ∧ (c.data.getD []).length = 510)) = true := by
    decide +kernel
  rw [hrun] at hsecond
  obtain ⟨c, hc, hp3, hlength⟩ := of_decide_eq_true hsecond
  obtain ⟨-, -, data, hdata, htwo⟩ := hexact c hc
  rw [hdata] at hlength
  change data.length = 510 at hlength
  omega

end Arale.Ril.SimIo
