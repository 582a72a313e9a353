import Mathlib.Data.List.Chain
import Arale.Gps.Tokens

/-!
# The satellite status

`nmea_reader_parse` collects the satellites of GSV sentences in `sv_status_gps`.
`sv_count` counts the satellites of the set being read. With the last sentence of
a set it is added to `num_svs`, and the entries from `num_svs` on belong to the
next set. A status callback reports the list and empties it.

> `sv_count_valid`: `num_svs` is at most `GPS_MAX_SVS` and each entry below it was
> written since the last callback, if the sentence after the last one of a set is
> the first one of a set.

The condition is real. `sv_count` is still there after the last sentence of a set,
so a second such sentence adds it once more, and nothing has been written to the
entries that are counted then: `repeated_sentence`.
-/

namespace Arale.Gps

open List
open Arale.At (Line bytes)

/-! ## Model -/

/-- `GPS_MAX_SVS` -/
def gpsMaxSvs : Nat := 32

/-- `NMEA_MAX_SV_INFO` -/
def nmeaMaxSvInfo : Nat := 4

/-- What is done with numbers of type `float`. -/
structure Floats (φ : Type) where
  str2float : Line → φ
  ofInt : Int → φ

structure GpsSvInfo (φ : Type) where
  prn : Int
  snr : φ
  elevation : φ
  azimuth : φ
deriving DecidableEq

/-- The count and the entries of the status; its masks are not read here. -/
structure GpsSvStatus (φ : Type) where
  numSvs : Nat
  svList : List (GpsSvInfo φ)
  svList_length : svList.length = gpsMaxSvs
  /-- the entries written since the last callback -/
  written : List Nat

/-- The fields of `NmeaReader` for satellites, and the calls of `sv_status_cb`. -/
structure SvReader (φ : Type) where
  svCount : Nat
  status : GpsSvStatus φ
  reported : List (GpsSvStatus φ)

/-- The three numbers at the start of a GSV sentence. -/
structure GsvHeader where
  num : Int
  seq : Int
  cnt : Int

section Model

variable {φ : Type} (F : Floats φ)

def GpsSvStatus.write (s : GpsSvStatus φ) (index : Nat) (info : GpsSvInfo φ) : GpsSvStatus φ :=
  { s with
    svList := s.svList.set index info
    svList_length := (List.length_set).trans s.svList_length
    written := index :: s.written }

def svInfo (id : Int) (elevation azimuth snr : Line) : GpsSvInfo φ where
  prn := id
  snr := F.str2float snr
  elevation := F.ofInt (str2int elevation)
  azimuth := F.ofInt (str2int azimuth)

/-- `nmea_reader_update_sv_status_gps`. Its parameter `sv_index` is overwritten. -/
def updateSvStatusGps (r : SvReader φ) (id : Int) (elevation azimuth snr : Line) : SvReader φ :=
  -- numbers of other systems are ignored, and so is what follows a full set
  if id ≤ 0 ∨ id < 65 ∧ id > gpsMaxSvs ∨ id > 96 ∨ r.svCount ≥ gpsMaxSvs then r
  else if gpsMaxSvs ≤ r.svCount + r.status.numSvs then r
  else
    { r with
      status := r.status.write (r.svCount + r.status.numSvs) (svInfo F id elevation azimuth snr)
      svCount := r.svCount + 1 }

/-- The loop over the satellites of a sentence, from `idx` on. -/
def gsvLoop (tzer : List Line) : Nat → Nat → SvReader φ → SvReader φ
  | 0, _, r => r
  | rounds + 1, idx, r =>
    gsvLoop tzer rounds (idx + 1)
      (updateSvStatusGps F r (str2int (nmeaTokenizerGet tzer (4 * (idx + 1))))
        (nmeaTokenizerGet tzer (4 * (idx + 1) + 1)) (nmeaTokenizerGet tzer (4 * (idx + 1) + 2))
        (nmeaTokenizerGet tzer (4 * (idx + 1) + 3)))

def gsvHeader (tzer : List Line) : GsvHeader where
  num := str2int (nmeaTokenizerGet tzer 1)
  seq := str2int (nmeaTokenizerGet tzer 2)
  cnt := str2int (nmeaTokenizerGet tzer 3)

/-- `sv_num` -/
def svNum (h : GsvHeader) : Int :=
  -- full sentences are expected before this one
  let svBase := ((h.seq - 1) * nmeaMaxSvInfo).bmod (2 ^ 32)
  min ((h.cnt - svBase).bmod (2 ^ 32)) nmeaMaxSvInfo

/-- The first sentence of a set starts a new count. -/
def beginSet (h : GsvHeader) (r : SvReader φ) : SvReader φ :=
  if h.seq = 1 then { r with svCount := 0 } else r

/-- The last sentence of a set adds its count. -/
def endSet (h : GsvHeader) (r : SvReader φ) : SvReader φ :=
  if h.seq = h.num then
    -- there may be fewer than announced, as some are ignored
    if r.svCount ≤ h.cnt then
      { r with status := { r.status with numSvs := r.status.numSvs + r.svCount } }
    else { r with svCount := 0, status := { r.status with numSvs := 0 } }
  else r

/-- The branch for `GPGSV` and `GLGSV`. -/
def gsvSentence (tzer : List Line) (r : SvReader φ) : SvReader φ :=
  let h := gsvHeader tzer
  endSet h (gsvLoop F tzer (svNum h).toNat 0 (beginSet h r))

/-- The callback at the end of `nmea_reader_parse`. The count is 0 after it, so the
loop around it has one round. -/
def svStatusCb (endTag : Bool) (r : SvReader φ) : SvReader φ :=
  if r.status.numSvs ≠ 0 ∧ endTag then
    { svCount := 0
      status := { r.status with numSvs := 0, written := [] }
      reported := r.reported ++ [r.status] }
  else r

def isGsv (tzer : List Line) : Prop :=
  (nmeaTokenizerGet tzer 0).take 5 = bytes "GPGSV" ∨
    (nmeaTokenizerGet tzer 0).take 5 = bytes "GLGSV"

instance (tzer : List Line) : Decidable (isGsv tzer) := inferInstanceAs (Decidable (_ ∨ _))

/-- `nmea_reader_parse` with callbacks of the size of `GpsCallbacks`. No other
sentence changes these fields. -/
def nmeaReaderParse (text : Line) (endTag : Bool) (r : SvReader φ) : SvReader φ :=
  if text.length < 9 then r
  else
    let tzer := nmeaTokenizerInit text
    if (nmeaTokenizerGet tzer 0).length < 5 then r
    else svStatusCb endTag (if isGsv tzer then gsvSentence F tzer r else r)

/-- The sentences that are parsed one after the other, each with
`gps_nmea_end_tag`. -/
def parseAll (sentences : List (Line × Bool)) (r : SvReader φ) : SvReader φ :=
  sentences.foldl (fun r s => nmeaReaderParse F s.1 s.2 r) r

/-- The header of a sentence if it is a GSV sentence. -/
def headerOf (text : Line) : Option GsvHeader :=
  if 9 ≤ text.length ∧ isGsv (nmeaTokenizerInit text) then some (gsvHeader (nmeaTokenizerInit text))
  else none

/-- The headers of the GSV sentences. -/
def headers (sentences : List (Line × Bool)) : List GsvHeader :=
  sentences.filterMap fun s => headerOf s.1

end Model

/-! ## The entries that are written -/

section Written

variable {φ : Type} (F : Floats φ) {r : SvReader φ}

/-- The first `n` entries are there and have been written. -/
def WrittenBelow (s : GpsSvStatus φ) (n : Nat) : Prop :=
  n ≤ gpsMaxSvs ∧ ∀ i < n, i ∈ s.written

/-- All entries that are counted have been written. -/
def Filled (s : GpsSvStatus φ) : Prop := WrittenBelow s s.numSvs

/-- So have those of the set being read. -/
def Collected (r : SvReader φ) : Prop := WrittenBelow r.status (r.svCount + r.status.numSvs)

theorem writtenBelow_zero (s : GpsSvStatus φ) : WrittenBelow s 0 :=
  ⟨Nat.zero_le _, fun i hi => absurd hi (Nat.not_lt_zero i)⟩

theorem WrittenBelow.mono {s : GpsSvStatus φ} {m n : Nat} (h : WrittenBelow s n) (hmn : m ≤ n) :
    WrittenBelow s m :=
  ⟨Nat.le_trans hmn h.1, fun i hi => h.2 i (Nat.lt_of_lt_of_le hi hmn)⟩

theorem Collected.filled (h : Collected r) : Filled r.status :=
  WrittenBelow.mono h (Nat.le_add_left _ _)

/-- The entry behind the counted ones is written, then it is counted. -/
theorem WrittenBelow.write {s : GpsSvStatus φ} {n : Nat} (h : WrittenBelow s n) (hn : n < gpsMaxSvs)
    (info : GpsSvInfo φ) : WrittenBelow (s.write n info) (n + 1) := by
  refine ⟨hn, ?_⟩
  intro i hi
  show i ∈ n :: s.written
  obtain hlt | rfl := Nat.lt_succ_iff_lt_or_eq.mp hi
  · exact mem_cons_of_mem n (h.2 i hlt)
  · exact mem_cons_self

/-- What one satellite does: nothing, or one more entry. -/
theorem updateSvStatusGps_cases (r : SvReader φ) (id : Int) (elevation azimuth snr : Line) :
    updateSvStatusGps F r id elevation azimuth snr = r ∨
      r.svCount + r.status.numSvs < gpsMaxSvs ∧
        updateSvStatusGps F r id elevation azimuth snr =
          { r with
            status := r.status.write (r.svCount + r.status.numSvs)
              (svInfo F id elevation azimuth snr)
            svCount := r.svCount + 1 } := by
  unfold updateSvStatusGps
  split
  · exact .inl rfl
  · split
    · exact .inl rfl
    · rename_i hfits
      exact .inr ⟨Nat.lt_of_not_le hfits, rfl⟩

theorem Collected.update (h : Collected r) (id : Int) (elevation azimuth snr : Line) :
    Collected (updateSvStatusGps F r id elevation azimuth snr) := by
  obtain heq | ⟨hfits, heq⟩ := updateSvStatusGps_cases F r id elevation azimuth snr
  · rw [heq]
    exact h
  · have hwritten := WrittenBelow.write h hfits (svInfo F id elevation azimuth snr)
    rw [heq]
    show WrittenBelow _ (r.svCount + 1 + r.status.numSvs)
    rw [Nat.add_right_comm]
    exact hwritten

theorem Collected.loop (tzer : List Line) (rounds idx : Nat) {r : SvReader φ} (h : Collected r) :
    Collected (gsvLoop F tzer rounds idx r) := by
  induction rounds generalizing idx r with
  | zero => exact h
  | succ rounds ih => exact ih (idx + 1) (h.update F _ _ _ _)

/-- The loop over the satellites reports nothing. -/
theorem gsvLoop_reported (tzer : List Line) (rounds idx : Nat) (r : SvReader φ) :
    (gsvLoop F tzer rounds idx r).reported = r.reported := by
  induction rounds generalizing idx r with
  | zero => rfl
  | succ rounds ih =>
    rw [gsvLoop, ih]
    obtain heq | ⟨-, heq⟩ := updateSvStatusGps_cases F r _ _ _ _
    · rw [heq]
    · rw [heq]

theorem beginSet_collected (h : GsvHeader) (hfilled : Filled r.status)
    (hopen : h.seq ≠ 1 → Collected r) : Collected (beginSet h r) := by
  unfold beginSet
  split
  · show WrittenBelow r.status (0 + r.status.numSvs)
    rw [Nat.zero_add]
    exact hfilled
  · rename_i hseq
    exact hopen hseq

/-- A set that ends leaves the counted entries written. Only one that goes on leaves
`sv_count` for the next sentence. -/
theorem endSet_filled (h : GsvHeader) (hcollected : Collected r) :
    Filled (endSet h r).status ∧ (h.seq ≠ h.num → Collected (endSet h r)) := by
  unfold endSet
  split
  · rename_i hlast
    refine ⟨?_, fun hne => absurd hlast hne⟩
    split
    · show WrittenBelow _ (r.status.numSvs + r.svCount)
      rw [Nat.add_comm]
      exact hcollected
    · exact writtenBelow_zero _
  · exact ⟨hcollected.filled, fun _ => hcollected⟩

theorem endSet_reported (h : GsvHeader) (r : SvReader φ) : (endSet h r).reported = r.reported := by
  unfold endSet
  split
  · split <;> rfl
  · rfl

theorem beginSet_reported (h : GsvHeader) (r : SvReader φ) :
    (beginSet h r).reported = r.reported := by
  unfold beginSet
  split <;> rfl

/-- What holds between two sentences. `last` is the header of the GSV sentence
before, if there was one since the start. -/
structure Between (last : Option GsvHeader) (r : SvReader φ) : Prop where
  filled : Filled r.status
  collected : (∀ h ∈ last, h.seq ≠ h.num) → Collected r
  reported : ∀ s ∈ r.reported, Filled s

variable {last : Option GsvHeader}

theorem Between.sentence (hr : Between last r) (tzer : List Line)
    (hnext : ∀ h ∈ last, h.seq = h.num → (gsvHeader tzer).seq = 1) :
    Between (some (gsvHeader tzer)) (gsvSentence F tzer r) := by
  have hbegin : Collected (beginSet (gsvHeader tzer) r) := by
    apply beginSet_collected _ hr.filled
    intro hseq
    apply hr.collected
    intro h hh hlast
    exact hseq (hnext h hh hlast)
  obtain ⟨hfilled, hopen⟩ := endSet_filled (gsvHeader tzer)
    (hbegin.loop F tzer (svNum (gsvHeader tzer)).toNat 0)
  refine ⟨hfilled, ?_, ?_⟩
  · intro hlast
    exact hopen (hlast _ rfl)
  · intro s hs
    -- a sentence reports nothing itself, only the callback after it does
    have heq : (gsvSentence F tzer r).reported = r.reported := by
      rw [gsvSentence, endSet_reported, gsvLoop_reported, beginSet_reported]
    rw [heq] at hs
    exact hr.reported s hs

theorem Between.callback (hr : Between last r) (endTag : Bool) :
    Between last (svStatusCb endTag r) := by
  unfold svStatusCb
  split
  · refine ⟨?_, fun _ => ?_, ?_⟩
    · exact writtenBelow_zero _
    · exact writtenBelow_zero _
    · intro s hs
      obtain hbefore | hnow := mem_append.mp hs
      · exact hr.reported s hbefore
      · rw [mem_singleton.mp hnow]
        exact hr.filled
  · exact hr

/-- One sentence, whatever it is. -/
theorem Between.parse (hr : Between last r) (text : Line) (endTag : Bool)
    (hnext : ∀ h ∈ last, ∀ h' ∈ headerOf text, h.seq = h.num → h'.seq = 1) :
    Between ((headerOf text).or last) (nmeaReaderParse F text endTag r) := by
  unfold nmeaReaderParse
  split
  · rename_i hshort
    rw [headerOf, if_neg (fun h => absurd hshort (Nat.not_lt_of_le h.1))]
    exact hr
  · rename_i hlength
    have hlong : 9 ≤ text.length := Nat.le_of_not_lt hlength
    by_cases hgsv : isGsv (nmeaTokenizerInit text)
    · have hheader : headerOf text = some (gsvHeader (nmeaTokenizerInit text)) :=
        if_pos ⟨hlong, hgsv⟩
      have hid : ¬ (nmeaTokenizerGet (nmeaTokenizerInit text) 0).length < 5 := by
        intro hid
        have htake : ((nmeaTokenizerGet (nmeaTokenizerInit text) 0).take 5).length = 5 := by
          obtain h | h := hgsv
          · rw [h]
            rfl
          · rw [h]
            rfl
        rw [length_take] at htake
        omega
      simp only [if_neg hid, if_pos hgsv, hheader, Option.some_or]
      apply Between.callback
      apply hr.sentence F
      intro h hh
      exact hnext h hh _ hheader
    · have hheader : headerOf text = none := if_neg (fun h => hgsv h.2)
      simp only [if_neg hgsv, hheader, Option.none_or]
      split
      · exact hr
      · exact hr.callback endTag

theorem headers_cons (s : Line × Bool) (sentences : List (Line × Bool)) :
    headers (s :: sentences) = (headerOf s.1).toList ++ headers sentences := by
  unfold headers
  rw [filterMap_cons]
  cases headerOf s.1 with
  | none => rfl
  | some h => rfl

/-- The sentences one after the other. -/
theorem Between.parseAll (sentences : List (Line × Bool)) {r : SvReader φ} (hr : Between last r)
    (hnext : (last.toList ++ headers sentences).IsChain fun h h' => h.seq = h.num → h'.seq = 1) :
    ∃ last', Between last' (parseAll F sentences r) := by
  induction sentences generalizing last r with
  | nil => exact ⟨last, hr⟩
  | cons s sentences ih =>
    rw [headers_cons] at hnext
    apply ih (hr.parse F s.1 s.2 ?_)
    · cases hheader : headerOf s.1 with
      | none =>
        rw [hheader] at hnext
        exact hnext
      | some h =>
        rw [hheader] at hnext
        exact hnext.right_of_append
    · intro h hh h' hh'
      rw [Option.mem_def.mp hh, Option.mem_def.mp hh'] at hnext
      exact (isChain_cons_cons.mp hnext).1

/-- Between two callbacks, and at each of them, the count is in range and the
entries below it are new, if the GSV sentence after the last one of a set is the
first one of a set. Sentences may be lost or repeated otherwise. -/
theorem sv_count_valid (sentences : List (Line × Bool)) {r : SvReader φ} (hcount : r.svCount = 0)
    (hsvs : r.status.numSvs = 0) (hreported : r.reported = [])
    (hnext : (headers sentences).IsChain fun h h' => h.seq = h.num → h'.seq = 1) :
    Filled (parseAll F sentences r).status ∧
      ∀ s ∈ (parseAll F sentences r).reported, Filled s := by
  have hstart : Between none r := by
    refine ⟨?_, fun _ => ?_, ?_⟩
    · rw [Filled, hsvs]
      exact writtenBelow_zero r.status
    · rw [Collected, hcount, hsvs]
      exact writtenBelow_zero r.status
    · rw [hreported]
      exact forall_mem_nil _
  obtain ⟨last, hend⟩ := hstart.parseAll F sentences hnext
  exact ⟨hend.filled, hend.reported⟩

end Written

/-! ## A repeated sentence -/

/-- Numbers of type `float` by what they are converted from. -/
def plainFloats : Floats (Line ⊕ Int) where
  str2float := .inl
  ofInt := .inr

/-- A reader after a callback. -/
def emptyReader : SvReader (Line ⊕ Int) where
  svCount := 0
  status :=
    { numSvs := 0
      svList := List.replicate gpsMaxSvs ⟨0, .inr 0, .inr 0, .inr 0⟩
      svList_length := List.length_replicate
      written := [] }
  reported := []

theorem sv_count_valid_sample :
    Filled (parseAll plainFloats [(bytes "$GPGSV,2,1,01,03,,,*00\r\n", false),
        (bytes "$GPGSV,2,2,01*00\r\n", false)] emptyReader).status ∧
      ∀ s ∈ (parseAll plainFloats [(bytes "$GPGSV,2,1,01,03,,,*00\r\n", false),
        (bytes "$GPGSV,2,2,01*00\r\n", false)] emptyReader).reported, Filled s :=
  sv_count_valid plainFloats _ rfl rfl rfl
    (List.IsChain.cons_cons (fun h => absurd h (by decide)) (List.IsChain.singleton _))

/-- After the second sentence comes again, two satellites are counted, and the
second entry was never written. -/
theorem repeated_sentence :
    ¬ Filled (parseAll plainFloats [(bytes "$GPGSV,2,1,01,03,,,*00\r\n", false),
        (bytes "$GPGSV,2,2,01*00\r\n", false), (bytes "$GPGSV,2,2,01*00\r\n", false)]
      emptyReader).status := by
  intro hfilled
  exact absurd (hfilled.2 1 (by decide +kernel)) (by decide +kernel)

end Arale.Gps
