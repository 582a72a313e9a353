import Arale.Gps.Tokens
import Arale.Lib.Events

/-!
# The configuration of EPO

`gps_download_epo_enable` reads a file of lines `KEY=<number>`. `get_val` cuts a
line into key and value, and the value of a known key is read by `str2int`, with
a fallback for numbers that are not allowed.

> `epo_settings_exact`: in the end each setting is what the last line for its key
> says, exactly if the number that is read from this line gives the same setting
> as the one that is written there.

The value of `get_val` ends before the first blank or newline, and then its last
character is left out because a newline is expected there. With `\r\n` that
character is the `\r`. With `\n` alone it is the last digit: `last_digit_lost`.
-/

namespace Arale.Gps

open List
open Arale.At (Line bytes isdigit decimal takeWhile_field dropWhile_field)
open Arale.Lib (lastOf lastOf_map foldl_lastOf)

/-! ## Model -/

/-- `GPS_CONF_FILE_SIZE` -/
def gpsConfFileSize : Nat := 100

/-- `IS_SPACE` -/
def isSpace (ch : UInt8) : Bool := ch == 32 || ch == 9 || ch == 10

/-- `fgets`: up to a newline, and at most one character less than the array
has. -/
def fgets (file : Line) : Line × Line :=
  let line := (file.takeWhile (· != 10) ++ (file.dropWhile (· != 10)).take 1).take
    (gpsConfFileSize - 1)
  (line, file.drop line.length)

/-- `get_val`: `none` for `-1`, and no key for a comment. -/
def getVal (pStr : Line) : Option (Option (Line × Line)) :=
  if pStr = [] then none
  else if pStr.head? = some 35 then some none
  else if pStr.getLast? ≠ some 10 ∧ gpsConfFileSize - 1 ≤ pStr.length then none
  else
    let key := pStr.takeWhile (· != 61)
    match pStr.dropWhile (· != 61) with
    | [] => none
    | _ :: rest => some (some (key, (rest.dropWhile isSpace).takeWhile fun ch => !isSpace ch))

/-- The settings and their keys. -/
inductive EpoKey where
  | gpsEpoEnable
  | gpsEpoDownloadDays
  | gpsEpoPeriod
  | wifiEpoPeriod
  | gpsEpoWifiTrigger
deriving DecidableEq

namespace EpoKey

def text : EpoKey → Line
  | gpsEpoEnable => bytes "EPO_ENABLE"
  | gpsEpoDownloadDays => bytes "DW_DAYS"
  | gpsEpoPeriod => bytes "GPS_EPO_PERIOD"
  | wifiEpoPeriod => bytes "WIFI_EPO_PERIOD"
  | gpsEpoWifiTrigger => bytes "EPO_WIFI_TRIGGER"

/-- The numbers that are taken over. -/
def allowed : EpoKey → Int → Bool
  | gpsEpoEnable, n => n == 1 || n == 0
  | gpsEpoDownloadDays, n => 0 ≤ n && n ≤ 30
  | gpsEpoPeriod, n => n == 30 || n == 3 || n == 15
  | wifiEpoPeriod, n => n == 30 || n == 3 || n == 15
  | gpsEpoWifiTrigger, n => n == 1 || n == 0

/-- The value for other numbers. -/
def fallback : EpoKey → Int
  | gpsEpoEnable => 1
  | gpsEpoDownloadDays => 30
  | gpsEpoPeriod => 3
  | wifiEpoPeriod => 1
  | gpsEpoWifiTrigger => 1

/-- The value of the setting for a number. -/
def check (k : EpoKey) (n : Int) : Int := if k.allowed n then n else k.fallback

end EpoKey

/-- The variables with the settings. -/
abbrev EpoSettings := EpoKey → Int

/-- The comparisons with the keys. `str2int` gets all but the last character. -/
def storeVal (key val : Line) (s : EpoSettings) : EpoSettings := fun k =>
  if key = k.text then k.check (str2int val.dropLast) else s k

/-- The loop over the lines; the second is the result of the function. A line has
at least one character, so it ends within as many rounds. -/
def confLoop : Nat → Line → EpoSettings → EpoSettings × Int
  | 0, _, s => (s, s .gpsEpoEnable)
  | fuel + 1, file, s =>
    if file = [] then (s, s .gpsEpoEnable)
    else
      -- the line is a string up to its NUL
      match getVal ((fgets file).1.takeWhile (· != 0)) with
      | none => (s, 1)
      | some none => confLoop fuel (fgets file).2 s
      | some (some (key, val)) => confLoop fuel (fgets file).2 (storeVal key val s)

/-- `gps_download_epo_enable`, with `none` for a file that cannot be opened -/
def gpsDownloadEpoEnable (file : Option Line) (s : EpoSettings) : EpoSettings × Int :=
  match file with
  | none => (s, 1)
  | some file => confLoop file.length file s

/-! ## Configuration files -/

/-- How a line ends. -/
inductive LineEnd where
  | lf
  | crlf
deriving DecidableEq

def LineEnd.bytes : LineEnd → Line
  | lf => [10]
  | crlf => [13, 10]

/-- A line with a key and a number. -/
structure Setting where
  key : Line
  blanks : Line
  digits : Line
  key_start : key.head? ≠ some 35
  key_chars : 61 ∉ key ∧ 10 ∉ key ∧ 0 ∉ key
  blanks_space : ∀ c ∈ blanks, c = 32 ∨ c = 9
  digits_ne_nil : digits ≠ []
  digits_digit : ∀ d ∈ digits, isdigit d = true

/-- A line of the file. -/
inductive ConfLine where
  | comment (text : Line) (htext : 10 ∉ text) (ending : LineEnd)
  | setting (line : Setting) (ending : LineEnd)

namespace ConfLine

def text : ConfLine → Line
  | comment text _ ending => 35 :: text ++ ending.bytes
  | setting line ending => line.key ++ 61 :: (line.blanks ++ line.digits ++ ending.bytes)

/-- The line, if it is one for a key. -/
def forKey (k : EpoKey) : ConfLine → Option (Setting × LineEnd)
  | comment _ _ _ => none
  | setting line ending => if line.key = k.text then some (line, ending) else none

/-- The number for a key, if the line has it. -/
def number (k : EpoKey) (l : ConfLine) : Option Nat :=
  (l.forKey k).map fun p => decimal p.1.digits

end ConfLine

/-- The number that is read from a line: without its last digit if it ends with a
newline alone, and in 32 bits. -/
def Setting.read (p : Setting × LineEnd) : Int :=
  (decimal (if p.2 = .crlf then p.1.digits else p.1.digits.dropLast) : Int).bmod (2 ^ 32)

/-- The file. -/
def confText (lines : List ConfLine) : Line := lines.flatMap ConfLine.text

/-! ## One line -/

section OneLine

/-- A short line is read up to its newline. -/
theorem fgets_line {body : Line} (hbody : 10 ∉ body)
    (hlength : body.length + 1 ≤ gpsConfFileSize - 1)
    (rest : Line) : fgets (body ++ 10 :: rest) = (body ++ [10], rest) := by
  have hline : (body ++ [10]).take (gpsConfFileSize - 1) = body ++ [10] := by
    apply take_of_length_le
    rw [length_append]
    exact hlength
  have hdrop : (body ++ 10 :: rest).drop (body ++ [10]).length = rest := by
    have hcat : body ++ 10 :: rest = (body ++ [10]) ++ rest := append_cons body 10 rest
    rw [hcat, drop_left]
  unfold fgets
  simp only [takeWhile_field hbody, dropWhile_field hbody, take_succ_cons, take_zero, hline,
    hdrop]

/-- What `get_val` finds behind the equals sign. -/
def Setting.val (line : Setting) (ending : LineEnd) : Line := line.digits ++ ending.bytes.dropLast

variable {line : Setting} {ending : LineEnd}

theorem LineEnd.bytes_eq (ending : LineEnd) : ending.bytes = ending.bytes.dropLast ++ [10] := by
  cases ending with
  | lf => rfl
  | crlf => rfl

theorem Setting.val_not_space (line : Setting) (ending : LineEnd) :
    ∀ c ∈ line.val ending, isSpace c = false := by
  intro c hc
  obtain hdigit | hend := mem_append.mp hc
  · obtain ⟨hlow, -⟩ := isdigit_toNat (line.digits_digit c hdigit)
    have hne : ∀ x : UInt8, x.toNat < 48 → (c == x) = false := by
      intro x hx
      rw [beq_eq_false_iff_ne]
      rintro rfl
      omega
    rw [isSpace, hne 32 (by decide), hne 9 (by decide), hne 10 (by decide)]
    rfl
  · cases ending with
    | lf => cases hend
    | crlf =>
      obtain rfl := mem_singleton.mp hend
      rfl

/-- The text of a line in front of its newline. -/
theorem Setting.text_eq (line : Setting) (ending : LineEnd) :
    (ConfLine.setting line ending).text
      = (line.key ++ 61 :: (line.blanks ++ line.val ending)) ++ [10] := by
  rw [ConfLine.text, LineEnd.bytes_eq, Setting.val]
  simp only [append_assoc, cons_append]

theorem blank_isSpace {c : UInt8} (hc : c = 32 ∨ c = 9) : isSpace c = true := by
  obtain rfl | rfl := hc
  · rfl
  · rfl

/-- The characters behind the key are neither a newline nor NUL. -/
theorem Setting.body_chars (line : Setting) (ending : LineEnd) {x : UInt8} (hx : x = 10 ∨ x = 0) :
    x ∉ line.key ++ 61 :: (line.blanks ++ line.val ending) := by
  intro hmem
  obtain hkey | hmem := mem_append.mp hmem
  · obtain rfl | rfl := hx
    · exact line.key_chars.2.1 hkey
    · exact line.key_chars.2.2 hkey
  obtain rfl | hmem := mem_cons.mp hmem
  · revert hx
    decide
  obtain hblank | hval := mem_append.mp hmem
  · obtain rfl | rfl := line.blanks_space x hblank
    · revert hx
      decide
    · revert hx
      decide
  · obtain rfl | rfl := hx
    · have hspace := line.val_not_space ending 10 hval
      cases hspace
    · obtain hdigit | hend := mem_append.mp hval
      · have hzero := line.digits_digit 0 hdigit
        cases hzero
      · cases ending with
        | lf => cases hend
        | crlf => cases mem_singleton.mp hend

theorem getVal_setting (line : Setting) (ending : LineEnd) :
    getVal (ConfLine.setting line ending).text = some (some (line.key, line.val ending)) := by
  have hne : (ConfLine.setting line ending).text ≠ [] := by
    exact append_ne_nil_of_right_ne_nil _ (cons_ne_nil _ _)
  have hstart : (ConfLine.setting line ending).text.head? ≠ some 35 := by
    rw [ConfLine.text, List.head?_append]
    cases hkey : line.key.head? with
    | none =>
      intro h
      cases h
    | some c =>
      rw [← hkey]
      have hstart := line.key_start
      rw [hkey] at hstart ⊢
      exact hstart
  have hlast : (ConfLine.setting line ending).text.getLast? = some 10 := by
    rw [line.text_eq, List.getLast?_concat]
  have hcut : (ConfLine.setting line ending).text
      = line.key ++ 61 :: (line.blanks ++ (line.val ending ++ [10])) := by
    rw [line.text_eq]
    simp only [append_assoc, cons_append]
  -- the blanks are skipped, and the value ends at the newline
  have hskip : (line.blanks ++ (line.val ending ++ [10])).dropWhile isSpace
      = line.val ending ++ [10] := by
    rw [dropWhile_append_of_pos fun c hc => blank_isSpace (line.blanks_space c hc)]
    cases hdigits : line.digits with
    | nil => exact absurd hdigits line.digits_ne_nil
    | cons d ds =>
      have hd : isSpace d = false := by
        apply line.val_not_space ending
        rw [Setting.val, hdigits]
        exact mem_cons_self
      rw [Setting.val, hdigits]
      exact dropWhile_cons_of_neg (by rw [hd]; exact Bool.false_ne_true)
  have hvalue : (line.val ending ++ [10]).takeWhile (fun ch => !isSpace ch) = line.val ending := by
    rw [takeWhile_append_of_pos fun c hc => by rw [line.val_not_space ending c hc]; rfl]
    exact append_nil _
  rw [getVal, if_neg hne, if_neg hstart, if_neg fun h => h.1 hlast, hcut,
    takeWhile_field line.key_chars.1, dropWhile_field line.key_chars.1]
  simp only [hskip, hvalue]

end OneLine

/-! ## The file -/

section File

variable {k : EpoKey}

/-- What a line does. -/
def lineStep (s : EpoSettings) : ConfLine → EpoSettings
  | .comment _ _ _ => s
  | .setting line ending => storeVal line.key (line.val ending) s

/-- A line is its body and a newline. -/
theorem line_body (l : ConfLine) : ∃ body, l.text = body ++ [10] ∧ 10 ∉ body := by
  cases l with
  | comment text htext ending =>
    refine ⟨35 :: text ++ ending.bytes.dropLast, ?_, ?_⟩
    · rw [ConfLine.text, LineEnd.bytes_eq, dropLast_concat, append_assoc]
    · intro hmem
      obtain hcomment | hend := mem_append.mp hmem
      · obtain hhash | htextMem := mem_cons.mp hcomment
        · cases hhash
        · exact htext htextMem
      · cases ending with
        | lf => cases hend
        | crlf => cases mem_singleton.mp hend
  | setting line ending => exact ⟨_, line.text_eq ending, line.body_chars ending (.inl rfl)⟩

theorem fgets_text (l : ConfLine) (hlength : l.text.length < gpsConfFileSize - 1) (rest : Line) :
    fgets (l.text ++ rest) = (l.text, rest) := by
  obtain ⟨body, htext, hbody⟩ := line_body l
  rw [htext, length_append, length_singleton] at hlength
  rw [htext, append_assoc]
  exact fgets_line hbody (Nat.le_of_lt hlength) rest

/-- A line with a key has no NUL. -/
theorem Setting.takeWhile_text (line : Setting) (ending : LineEnd) :
    (ConfLine.setting line ending).text.takeWhile (· != 0)
      = (ConfLine.setting line ending).text := by
  rw [takeWhile_eq_self_iff]
  intro c hc
  rw [bne_iff_ne]
  rintro rfl
  rw [line.text_eq] at hc
  obtain hbody | hend := mem_append.mp hc
  · exact line.body_chars ending (.inr rfl) hbody
  · cases mem_singleton.mp hend

/-- One round of the loop. -/
theorem confLoop_line (l : ConfLine) (hlength : l.text.length < gpsConfFileSize - 1) (rest : Line)
    (s : EpoSettings) (fuel : Nat) :
    confLoop (fuel + 1) (l.text ++ rest) s = confLoop fuel rest (lineStep s l) := by
  have hne : l.text ++ rest ≠ [] := by
    obtain ⟨body, htext, -⟩ := line_body l
    rw [htext, append_assoc]
    exact append_ne_nil_of_right_ne_nil body (cons_ne_nil 10 rest)
  rw [confLoop, if_neg hne, fgets_text l hlength]
  cases l with
  | comment text htext ending => rfl
  | setting line ending =>
    rw [line.takeWhile_text, getVal_setting]
    rfl

theorem confLoop_lines {lines : List ConfLine}
    (hlength : ∀ l ∈ lines, l.text.length < gpsConfFileSize - 1) (s : EpoSettings) {fuel : Nat}
    (hfuel : lines.length ≤ fuel) :
    (confLoop fuel (confText lines) s).1 = lines.foldl lineStep s := by
  induction lines generalizing s fuel with
  | nil =>
    cases fuel with
    | zero => rfl
    | succ fuel => rfl
  | cons l lines ih =>
    rw [length_cons] at hfuel
    obtain ⟨fuel, rfl⟩ : ∃ n, fuel = n + 1 := ⟨fuel - 1, by omega⟩
    have htext : confText (l :: lines) = l.text ++ confText lines := rfl
    rw [htext, confLoop_line l (hlength l mem_cons_self), foldl_cons]
    exact ih (fun m hm => hlength m (mem_cons_of_mem l hm)) _ (Nat.le_of_succ_le_succ hfuel)

/-- A line sets the setting of its key. -/
theorem lineStep_eq (l : ConfLine) (s : EpoSettings) :
    lineStep s l k = ((l.forKey k).map fun p => k.check (Setting.read p)).getD (s k) := by
  cases l with
  | comment text htext ending => rfl
  | setting line ending =>
    show (if line.key = k.text then _ else _) = _
    rw [ConfLine.forKey]
    by_cases hkey : line.key = k.text
    · have hval : str2int (line.val ending).dropLast = Setting.read (line, ending) := by
        cases ending with
        | crlf =>
          have hdigits : (line.val .crlf).dropLast = line.digits := dropLast_concat
          rw [hdigits, str2int_digits line.digits_digit]
          rfl
        | lf =>
          have hdigits : (line.val .lf).dropLast = line.digits.dropLast := by
            rw [Setting.val]
            exact congrArg dropLast (append_nil _)
          rw [hdigits, str2int_digits fun d hd =>
            line.digits_digit d ((dropLast_sublist _).subset hd)]
          rfl
      rw [if_pos hkey, if_pos hkey, hval]
      rfl
    · rw [if_neg hkey, if_neg hkey]
      rfl

end File

theorem length_le_confText (lines : List ConfLine) : lines.length ≤ (confText lines).length := by
  induction lines with
  | nil => exact Nat.le_refl 0
  | cons l lines ih =>
    obtain ⟨body, htext, -⟩ := line_body l
    show lines.length + 1 ≤ (l.text ++ confText lines).length
    rw [length_append, htext, length_append, length_singleton]
    omega

/-- **The settings.** A setting is what the last line for its key says exactly if the
number that is read from this line gives the same setting as the one written. -/
theorem epo_settings_exact (lines : List ConfLine)
    (hlength : ∀ l ∈ lines, l.text.length < gpsConfFileSize - 1) (k : EpoKey) (s : EpoSettings) :
    (gpsDownloadEpoEnable (some (confText lines)) s).1 k
        = lastOf (fun l : ConfLine => (l.number k).map fun n : Nat => k.check n) lines (s k) ↔
      ∀ p ∈ (lines.filterMap (ConfLine.forKey k)).getLast?,
        k.check (Setting.read p) = k.check (decimal p.1.digits) := by
  have hfold : (gpsDownloadEpoEnable (some (confText lines)) s).1 = lines.foldl lineStep s :=
    confLoop_lines hlength s (length_le_confText lines)
  have hstep : ∀ l ∈ lines, ∀ s : EpoSettings, True → True ∧
      lineStep s l k = ((l.forKey k).map fun p => k.check (Setting.read p)).getD (s k) :=
    fun l _ s _ => ⟨trivial, lineStep_eq l s⟩
  have hnumber : (fun l : ConfLine => (l.number k).map fun n : Nat => k.check n)
      = fun l => (l.forKey k).map fun p => k.check (decimal p.1.digits) :=
    funext fun l => Option.map_map _ _ _
  rw [hfold, @foldl_lastOf ConfLine EpoSettings Int (fun _ => True) lineStep (fun s => s k) _ lines
    hstep s trivial, hnumber, lastOf_map, lastOf_map]
  cases (lines.filterMap (ConfLine.forKey k)).getLast? with
  | none => simp
  | some p => simp

section Sample

theorem samplePeriod_blanks : ∀ c ∈ ([32] : Line), c = 32 ∨ c = 9 := by
  intro c hc
  exact .inl (mem_singleton.mp hc)

theorem samplePeriod_digits : ∀ d ∈ bytes "30", isdigit d = true := by
  have hall : (bytes "30").all isdigit = true := by decide
  exact all_eq_true.mp hall

theorem samplePeriod_chars : 61 ∉ EpoKey.gpsEpoPeriod.text ∧ 10 ∉ EpoKey.gpsEpoPeriod.text ∧
    0 ∉ EpoKey.gpsEpoPeriod.text := by decide

theorem samplePeriod_start : EpoKey.gpsEpoPeriod.text.head? ≠ some 35 := by decide

/-- A period of 30. -/
def samplePeriod : Setting where
  key := EpoKey.gpsEpoPeriod.text
  blanks := [32]
  digits := bytes "30"
  key_start := samplePeriod_start
  key_chars := samplePeriod_chars
  blanks_space := samplePeriod_blanks
  digits_ne_nil := List.cons_ne_nil _ _
  digits_digit := samplePeriod_digits

end Sample

theorem epo_settings_exact_sample :
    (gpsDownloadEpoEnable
      (some (confText [.setting samplePeriod .lf, .setting samplePeriod .crlf])) fun _ => 0).1
        .gpsEpoPeriod = 30 := by
  refine (epo_settings_exact [.setting samplePeriod .lf, .setting samplePeriod .crlf] ?_
    .gpsEpoPeriod fun _ => 0).mpr ?_
  · intro l hl
    obtain rfl | hl := mem_cons.mp hl
    · decide
    · obtain rfl := mem_singleton.mp hl
      decide
  · intro p hp
    cases hp
    decide

/-- With a newline alone the last digit is left out. -/
theorem last_digit_lost :
    ¬ ∀ lines : List ConfLine, (∀ l ∈ lines, l.text.length < gpsConfFileSize - 1) →
      ∀ (k : EpoKey) (s : EpoSettings), (gpsDownloadEpoEnable (some (confText lines)) s).1 k
        = lastOf (fun l : ConfLine => (l.number k).map fun n : Nat => k.check n) lines (s k) := by
  intro hall
  have hlength : ∀ l ∈ [ConfLine.setting samplePeriod .lf],
      l.text.length < gpsConfFileSize - 1 := by
    intro l hl
    obtain rfl := mem_singleton.mp hl
    decide
  have hthree : (gpsDownloadEpoEnable (some (confText [.setting samplePeriod .lf])) fun _ => 0).1
      .gpsEpoPeriod = 3 := by decide
  have hthirty := hall [.setting samplePeriod .lf] hlength .gpsEpoPeriod fun _ => 0
  rw [hthree] at hthirty
  revert hthirty
  decide

end Arale.Gps
