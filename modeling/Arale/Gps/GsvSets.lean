import Arale.Gps.SvStatus

/-!
# Complete sets of GSV sentences

A set tells the satellites of one system in sentences `1..num` with up to four
satellites each.

> `satellites_listed`: after complete sets `sv_status_gps` lists the satellites
> with valid numbers of all that are read, as many as there is room for.

How many satellites of a sentence are read is not taken from the sentence. It is what
the total leaves behind four satellites for each sentence before, as senders fill all
sentences but the last. A sentence with three makes the last one lose a satellite:
`satellite_missing`.
-/

namespace Arale.Gps

open List
open Arale.At (Line bytes isdigit decimal)

/-! ## Sentences -/

/-- A number in a field. -/
abbrev Digits := { ds : Line // ds.all isdigit = true }

/-- The text of a field. -/
abbrev Field := { text : Line // text.contains 44 = false }

structure GsvSat where
  prn : Digits
  elevation : Field
  azimuth : Field
  snr : Field

structure GsvSentence where
  glonass : Bool
  num : Digits
  seq : Digits
  cnt : Digits
  sats : List GsvSat
  checksum : UInt8 × UInt8

def GsvSat.fields (sat : GsvSat) : List Line :=
  [sat.prn.val, sat.elevation.val, sat.azimuth.val, sat.snr.val]

namespace GsvSentence

def id (s : GsvSentence) : Line := if s.glonass then bytes "GLGSV" else bytes "GPGSV"

def fields (s : GsvSentence) : List Line :=
  [s.id, s.num.val, s.seq.val, s.cnt.val] ++ s.sats.flatMap GsvSat.fields

def text (s : GsvSentence) : Line := sentenceText s.fields s.checksum

end GsvSentence

/-- All satellites of some sentences. -/
def satsOf (sentences : List GsvSentence) : List GsvSat := sentences.flatMap GsvSentence.sats

/-- The sentences from number `seq` on of a set with `num` sentences and `cnt`
satellites. -/
def SentencesFrom (num cnt : Nat) : Nat → List GsvSentence → Prop
  | _, [] => True
  | seq, s :: rest =>
    (decimal s.num.val = num ∧ decimal s.seq.val = seq ∧ decimal s.cnt.val = cnt ∧
      s.sats.length ≤ 4) ∧
      SentencesFrom num cnt (seq + 1) rest

/-- No sentence is missing, and they come in order. -/
def Complete (set : List GsvSentence) : Prop := SentencesFrom set.length (satsOf set).length 1 set

/-- The satellites that are read from the sentences behind `k` others of a set with
`cnt` satellites: of each as many as four for every sentence before leave. -/
def readFrom (cnt : Nat) : Nat → List GsvSentence → List GsvSat
  | _, [] => []
  | k, s :: rest => s.sats.take (cnt - 4 * k) ++ readFrom cnt (k + 1) rest

/-- The satellites that are read from a set. -/
def satsRead (set : List GsvSentence) : List GsvSat := readFrom (satsOf set).length 0 set

section Listing

variable {φ : Type} (F : Floats φ)

/-- The number of a satellite, as an `int`. -/
def GsvSat.number (sat : GsvSat) : Int := (decimal sat.prn.val : Int).bmod (2 ^ 32)

/-- The satellites that are listed. -/
def GsvSat.Valid (sat : GsvSat) : Prop :=
  1 ≤ sat.number ∧ sat.number ≤ 32 ∨ 65 ≤ sat.number ∧ sat.number ≤ 96

instance (sat : GsvSat) : Decidable sat.Valid := inferInstanceAs (Decidable (_ ∨ _))

def GsvSat.info (sat : GsvSat) : GpsSvInfo φ :=
  svInfo F sat.number sat.elevation.val sat.azimuth.val sat.snr.val

/-- The entries for satellites. -/
def validInfos (sats : List GsvSat) : List (GpsSvInfo φ) :=
  (sats.filter fun sat => decide sat.Valid).map (GsvSat.info F)

/-! ## The tokens of a sentence -/

theorem Digits.no_comma (ds : Digits) : 44 ∉ ds.val := by
  intro hmem
  have hdigit := all_eq_true.mp ds.property 44 hmem
  cases hdigit

theorem Digits.str2int_eq (ds : Digits) {n : Nat} (h : decimal ds.val = n) (hn : n < 2 ^ 31) :
    str2int ds.val = n := by
  rw [str2int_digits (all_eq_true.mp ds.property), h, Int.bmod_eq_of_le (by omega) (by omega)]

theorem Field.no_comma (f : Field) : 44 ∉ f.val := by
  intro hmem
  have hcontains : f.val.contains 44 = true := contains_iff_mem.mpr hmem
  rw [f.property] at hcontains
  cases hcontains

theorem GsvSat.fields_no_comma (sat : GsvSat) : ∀ f ∈ sat.fields, 44 ∉ f := by
  intro f hf
  simp only [GsvSat.fields, mem_cons, not_mem_nil, or_false] at hf
  obtain rfl | rfl | rfl | rfl := hf
  · exact sat.prn.no_comma
  · exact sat.elevation.no_comma
  · exact sat.azimuth.no_comma
  · exact sat.snr.no_comma

namespace GsvSentence

theorem id_no_comma (s : GsvSentence) : 44 ∉ s.id := by
  unfold id
  split <;> decide

theorem fields_no_comma (s : GsvSentence) : ∀ f ∈ s.fields, 44 ∉ f := by
  intro f hf
  obtain hhead | hsats := mem_append.mp hf
  · simp only [mem_cons, not_mem_nil, or_false] at hhead
    obtain rfl | rfl | rfl | rfl := hhead
    · exact s.id_no_comma
    · exact s.num.no_comma
    · exact s.seq.no_comma
    · exact s.cnt.no_comma
  · obtain ⟨sat, -, hfield⟩ := mem_flatMap.mp hsats
    exact sat.fields_no_comma f hfield

theorem fields_length (s : GsvSentence) : s.fields.length = 4 + 4 * s.sats.length := by
  have hsats : (s.sats.flatMap GsvSat.fields).length = 4 * s.sats.length := by
    induction s.sats with
    | nil => rfl
    | cons sat sats ih =>
      rw [flatMap_cons, length_append, ih, length_cons, Nat.mul_succ, Nat.add_comm]
      rfl
  rw [fields, length_append, hsats]
  rfl

theorem token (s : GsvSentence) (hfour : s.sats.length ≤ 4) (i : Nat) :
    nmeaTokenizerGet (nmeaTokenizerInit s.text) i = s.fields.getD i [] := by
  have hlength : s.fields.length ≤ maxNmeaTokens := by
    rw [fields_length, maxNmeaTokens]
    omega
  exact nmeaTokenizerGet_sentenceText s.fields_no_comma hlength s.checksum i

theorem text_length (s : GsvSentence) : 9 ≤ s.text.length := by
  have hid : s.id.length = 5 := by
    unfold id
    split <;> rfl
  simp only [text, sentenceText, fields, cons_append, joinFields, length_cons,
    length_append, length_nil, hid]
  omega

theorem isGsv_text (s : GsvSentence) (hfour : s.sats.length ≤ 4) :
    isGsv (nmeaTokenizerInit s.text) := by
  have hid : nmeaTokenizerGet (nmeaTokenizerInit s.text) 0 = s.id := s.token hfour 0
  unfold isGsv
  rw [hid]
  unfold id
  split
  · exact .inr rfl
  · exact .inl rfl

/-- A sentence is parsed by the branch for GSV, without a callback. -/
theorem parse_text (s : GsvSentence) (hfour : s.sats.length ≤ 4) (r : SvReader φ) :
    nmeaReaderParse F s.text false r = gsvSentence F (nmeaTokenizerInit s.text) r := by
  have hid : nmeaTokenizerGet (nmeaTokenizerInit s.text) 0 = s.id := s.token hfour 0
  have hlong : ¬ s.id.length < 5 := by
    unfold id
    split <;> decide
  have hcb : ∀ r : SvReader φ, svStatusCb false r = r :=
    fun r => if_neg (fun h => Bool.false_ne_true h.2)
  unfold nmeaReaderParse
  simp only [if_neg (Nat.not_lt_of_le s.text_length), hid, if_neg hlong,
    if_pos (s.isGsv_text hfour), hcb]

end GsvSentence

/-! ## One sentence -/

/-- The update for a satellite of a sentence. -/
def updateSat (r : SvReader φ) (sat : GsvSat) : SvReader φ :=
  updateSvStatusGps F r (str2int sat.prn.val) sat.elevation.val sat.azimuth.val sat.snr.val

/-- The loop goes through the satellites. Where there is none, the number is 0. -/
theorem gsvLoop_sats {tzer : List Line} {sats : List GsvSat} {rounds idx : Nat}
    (htoken : ∀ j, nmeaTokenizerGet tzer (4 * (idx + 1) + j)
      = (sats.flatMap GsvSat.fields).getD j [])
    (r : SvReader φ) :
    gsvLoop F tzer rounds idx r = (sats.take rounds).foldl (updateSat F) r := by
  induction rounds generalizing sats idx r with
  | zero => rfl
  | succ rounds ih =>
  cases sats with
  | nil =>
    have hempty : nmeaTokenizerGet tzer (4 * (idx + 1)) = [] := htoken 0
    have hrest : ∀ j, nmeaTokenizerGet tzer (4 * (idx + 1 + 1) + j) =
        (([] : List GsvSat).flatMap GsvSat.fields).getD j [] := by
      intro j
      rw [Nat.mul_succ, Nat.add_assoc]
      exact htoken (4 + j)
    rw [gsvLoop, ih hrest, hempty, updateSvStatusGps, if_pos (.inl (by decide)), take_nil]
    rfl
  | cons sat sats =>
    have hrest : ∀ j, nmeaTokenizerGet tzer (4 * (idx + 1 + 1) + j) =
        (sats.flatMap GsvSat.fields).getD j [] := by
      intro j
      have hj := htoken (4 + j)
      rw [← Nat.add_assoc] at hj
      rw [Nat.mul_succ, hj, Nat.add_comm 4 j]
      rfl
    rw [gsvLoop, ih hrest]
    have h0 : nmeaTokenizerGet tzer (4 * (idx + 1)) = sat.prn.val := htoken 0
    have h1 : nmeaTokenizerGet tzer (4 * (idx + 1) + 1) = sat.elevation.val := htoken 1
    have h2 : nmeaTokenizerGet tzer (4 * (idx + 1) + 2) = sat.azimuth.val := htoken 2
    have h3 : nmeaTokenizerGet tzer (4 * (idx + 1) + 3) = sat.snr.val := htoken 3
    rw [h0, h1, h2, h3]
    rfl

/-- The entries that are counted, and those of the set being read, are the first ones
of `infos`; `seen` satellites of the set have been looked at. -/
structure Collecting (infos : List (GpsSvInfo φ)) (seen : Nat) (r : SvReader φ) : Prop where
  fits : r.svCount + r.status.numSvs ≤ gpsMaxSvs
  count : r.svCount ≤ seen
  listed : r.status.svList.take (r.svCount + r.status.numSvs) = infos.take gpsMaxSvs

/-- The entries that are counted are the first ones of `infos`. -/
structure Listed (infos : List (GpsSvInfo φ)) (r : SvReader φ) : Prop where
  fits : r.status.numSvs ≤ gpsMaxSvs
  listed : r.status.svList.take r.status.numSvs = infos.take gpsMaxSvs

variable {r : SvReader φ} {infos : List (GpsSvInfo φ)} {seen : Nat}

/-- More elements for a list that is cut off. -/
theorem take_append_take {α : Type} (l m : List α) (n : Nat) :
    (l.take n ++ m).take n = (l ++ m).take n := by
  rw [take_append, take_append, take_take, Nat.min_self, length_take]
  congr 2
  omega

theorem Collecting.skip (h : Collecting infos seen r) : Collecting infos (seen + 1) r :=
  ⟨h.fits, Nat.le_succ_of_le h.count, h.listed⟩

/-- Without room for another entry there is none in the list, either. -/
theorem Collecting.full (h : Collecting infos seen r)
    (hfull : gpsMaxSvs ≤ r.svCount + r.status.numSvs)
    (info : GpsSvInfo φ) : Collecting (infos ++ [info]) (seen + 1) r := by
  refine ⟨h.fits, Nat.le_succ_of_le h.count, ?_⟩
  have hlength : (infos.take gpsMaxSvs).length = gpsMaxSvs := by
    rw [← h.listed, length_take, r.status.svList_length]
    exact Nat.min_eq_right hfull
  rw [h.listed, ← take_append_take, take_append_of_le_length (Nat.le_of_eq hlength.symm),
    take_take, Nat.min_self]

theorem Collecting.write (h : Collecting infos seen r)
    (hroom : r.svCount + r.status.numSvs < gpsMaxSvs)
    (info : GpsSvInfo φ) :
    Collecting (infos ++ [info]) (seen + 1)
      { r with
        status := r.status.write (r.svCount + r.status.numSvs) info
        svCount := r.svCount + 1 } := by
  have hindex : r.svCount + r.status.numSvs < r.status.svList.length := by
    rw [r.status.svList_length]
    exact hroom
  have htake : (r.status.svList.set (r.svCount + r.status.numSvs) info).take
      (r.svCount + r.status.numSvs + 1) =
        r.status.svList.take (r.svCount + r.status.numSvs) ++ [info] := by
    rw [take_add_one, List.getElem?_set_self hindex, take_set_of_le (Nat.le_refl _)]
    rfl
  have hlength : (r.status.svList.take (r.svCount + r.status.numSvs) ++ [info]).length
      ≤ gpsMaxSvs := by
    rw [length_append, length_take, Nat.min_eq_left (Nat.le_of_lt hindex)]
    exact hroom
  have hfits : r.svCount + 1 + r.status.numSvs = r.svCount + r.status.numSvs + 1 :=
    Nat.add_right_comm _ _ _
  refine ⟨?_, Nat.succ_le_succ h.count, ?_⟩
  · show r.svCount + 1 + r.status.numSvs ≤ gpsMaxSvs
    rw [hfits]
    exact hroom
  · show (r.status.svList.set _ info).take (r.svCount + 1 + r.status.numSvs) = _
    rw [hfits, htake, ← take_append_take, ← h.listed, take_of_length_le hlength]

/-- What a satellite does, by its number and the room that is left. -/
theorem updateSat_cases (r : SvReader φ) (sat : GsvSat) :
    ¬ sat.Valid ∧ updateSat F r sat = r ∨
      sat.Valid ∧ gpsMaxSvs ≤ r.svCount + r.status.numSvs ∧ updateSat F r sat = r ∨
        sat.Valid ∧ r.svCount + r.status.numSvs < gpsMaxSvs ∧
          updateSat F r sat =
            { r with
              status := r.status.write (r.svCount + r.status.numSvs) (sat.info F)
              svCount := r.svCount + 1 } := by
  have hid : str2int sat.prn.val = sat.number := str2int_digits (all_eq_true.mp sat.prn.property)
  unfold updateSat updateSvStatusGps GsvSat.Valid gpsMaxSvs
  rw [hid]
  split
    -- the first test is also for a set that has filled the list alone
  · by_cases hfull : r.svCount ≥ 32
    · by_cases hvalid : sat.Valid
      · exact .inr (.inl ⟨hvalid, Nat.le_add_right_of_le hfull, rfl⟩)
      · exact .inl ⟨hvalid, rfl⟩
    · exact .inl ⟨by omega, rfl⟩
  · split
    · rename_i hfull
      exact .inr (.inl ⟨by omega, hfull, rfl⟩)
    · rename_i hroom
      exact .inr (.inr ⟨by omega, Nat.lt_of_not_le hroom, rfl⟩)

theorem Collecting.sat (h : Collecting infos seen r) (sat : GsvSat) :
    Collecting (infos ++ validInfos F [sat]) (seen + 1) (updateSat F r sat) := by
  have hvalidInfos : sat.Valid → validInfos F [sat] = [sat.info F] := by
    intro hvalid
    rw [validInfos, filter_cons_of_pos (by simpa using hvalid)]
    rfl
  obtain ⟨hinvalid, hupdate⟩ | ⟨hvalid, hfull, hupdate⟩ | ⟨hvalid, hroom, hupdate⟩ :=
    updateSat_cases F r sat
  · have hnone : validInfos F [sat] = [] := by
      rw [validInfos, filter_cons_of_neg (by simpa using hinvalid)]
      rfl
    rw [hupdate, hnone, append_nil]
    exact h.skip
  · rw [hupdate, hvalidInfos hvalid]
    exact h.full hfull (sat.info F)
  · rw [hupdate, hvalidInfos hvalid]
    exact h.write hroom (sat.info F)

theorem validInfos_append (sats sats' : List GsvSat) :
    validInfos F (sats ++ sats') = validInfos F sats ++ validInfos F sats' := by
  rw [validInfos, filter_append, map_append]
  rfl

variable {r : SvReader φ} {infos : List (GpsSvInfo φ)}

theorem Collecting.sats (sats : List GsvSat) {seen : Nat} (h : Collecting infos seen r) :
    Collecting (infos ++ validInfos F sats) (seen + sats.length) (sats.foldl (updateSat F) r) := by
  induction sats generalizing r infos seen with
  | nil =>
    rw [validInfos, filter_nil, map_nil, append_nil]
    exact h
  | cons sat sats ih =>
    have hrest := ih (h.sat F sat)
    rw [append_assoc, ← validInfos_append, Nat.succ_add_eq_add_succ] at hrest
    exact hrest

/-! ## One set -/

/-- A sentence of a set, with `k` ones before it. -/
structure InSet (num cnt k : Nat) (s : GsvSentence) : Prop where
  num_eq : decimal s.num.val = num
  seq_eq : decimal s.seq.val = k + 1
  cnt_eq : decimal s.cnt.val = cnt
  four : s.sats.length ≤ 4
  small : num < 2 ^ 29 ∧ k + 1 ≤ num ∧ cnt ≤ 4 * num

variable {num cnt k : Nat} {s : GsvSentence}

theorem InSet.header (h : InSet num cnt k s) :
    gsvHeader (nmeaTokenizerInit s.text) = ⟨num, (k + 1 : Nat), cnt⟩ := by
  obtain ⟨hnum, hk, hcnt⟩ := h.small
  have h1 : nmeaTokenizerGet (nmeaTokenizerInit s.text) 1 = s.num.val := s.token h.four 1
  have h2 : nmeaTokenizerGet (nmeaTokenizerInit s.text) 2 = s.seq.val := s.token h.four 2
  have h3 : nmeaTokenizerGet (nmeaTokenizerInit s.text) 3 = s.cnt.val := s.token h.four 3
  rw [gsvHeader, h1, h2, h3, s.num.str2int_eq h.num_eq (by omega),
    s.seq.str2int_eq h.seq_eq (by omega), s.cnt.str2int_eq h.cnt_eq (by omega)]

/-- The number of satellites that is computed. -/
theorem InSet.svNum_eq (h : InSet num cnt k s) :
    (svNum (gsvHeader (nmeaTokenizerInit s.text))).toNat = min (cnt - 4 * k) 4 := by
  obtain ⟨hnum, hk, hcnt⟩ := h.small
  have hbase : ((((k + 1 : Nat) : Int) - 1) * (nmeaMaxSvInfo : Nat)).bmod (2 ^ 32)
      = (4 * k : Nat) := by
    rw [nmeaMaxSvInfo, Int.bmod_eq_of_le (by omega) (by omega)]
    omega
  have hleft : ((cnt : Int) - (4 * k : Nat)).bmod (2 ^ 32) = (cnt : Int) - (4 * k : Nat) :=
    Int.bmod_eq_of_le (by omega) (by omega)
  rw [h.header, svNum, hbase, hleft, nmeaMaxSvInfo]
  omega

/-- The satellites of a sentence are collected. What the first sentence starts, the
others go on with. -/
theorem InSet.collect (h : InSet num cnt k s)
    (hr : Collecting infos seen (beginSet ⟨num, (k + 1 : Nat), cnt⟩ r)) :
    ∃ r', nmeaReaderParse F s.text false r = endSet ⟨num, (k + 1 : Nat), cnt⟩ r' ∧
      Collecting (infos ++ validInfos F (s.sats.take (cnt - 4 * k))) (seen + s.sats.length) r' := by
  have htoken : ∀ j, nmeaTokenizerGet (nmeaTokenizerInit s.text) (4 * (0 + 1) + j) =
      (s.sats.flatMap GsvSat.fields).getD j [] := by
    intro j
    rw [s.token h.four, Nat.zero_add, Nat.mul_one, Nat.add_comm 4 j]
    rfl
  have htake : s.sats.take (min (cnt - 4 * k) 4) = s.sats.take (cnt - 4 * k) := by
    rw [← take_take, take_of_length_le h.four]
  obtain ⟨hfits, hcount, hlisted⟩ := hr.sats F (s.sats.take (cnt - 4 * k))
  have hlength := length_take_le' (cnt - 4 * k) s.sats
  refine ⟨_, ?_, hfits, by omega, hlisted⟩
  rw [s.parse_text F h.four, gsvSentence, h.svNum_eq, gsvLoop_sats F htoken, htake, h.header]

/-- The sentences that are parsed without a callback. -/
def quiet (sentences : List GsvSentence) : List (Line × Bool) :=
  sentences.map fun s => (s.text, false)

theorem satsOf_cons (s : GsvSentence) (rest : List GsvSentence) :
    satsOf (s :: rest) = s.sats ++ satsOf rest :=
  flatMap_cons

/-- The rest of a set. The induction is on its sentences, and `k` others come before
them. -/
theorem Collecting.set {num cnt : Nat} (hnum29 : num < 2 ^ 29) (hcnt : cnt ≤ 4 * num)
    (s : GsvSentence) (rest : List GsvSentence) {k seen : Nat}
    (hsentences : SentencesFrom num cnt (k + 1) (s :: rest))
    (hnum : num = k + (s :: rest).length) (hseen : seen + (satsOf (s :: rest)).length ≤ cnt)
    (hr : Collecting infos seen (beginSet ⟨num, (k + 1 : Nat), cnt⟩ r)) :
    Listed (infos ++ validInfos F (readFrom cnt k (s :: rest)))
      (parseAll F (quiet (s :: rest)) r) := by
  induction rest generalizing s k seen r infos with
  | nil =>
    obtain ⟨⟨hs1, hs2, hs3, hs4⟩, -⟩ := hsentences
    have hsats : satsOf [s] = s.sats := append_nil _
    have hread : readFrom cnt k [s] = s.sats.take (cnt - 4 * k) := append_nil _
    rw [hsats] at hseen
    rw [hread]
    have hin : InSet num cnt k s := ⟨hs1, hs2, hs3, hs4, hnum29, Nat.le_of_eq hnum.symm, hcnt⟩
    obtain ⟨r', hparse, hcollected⟩ := hin.collect F hr
    -- no more have been seen than announced, so the count is taken over
    have hlast : (((k + 1 : Nat) : Int) = (num : Int)) := by
      rw [hnum]
      rfl
    have hend : parseAll F (quiet [s]) r =
        { r' with status := { r'.status with numSvs := r'.status.numSvs + r'.svCount } } := by
      show nmeaReaderParse F s.text false r = _
      rw [hparse, endSet, if_pos hlast,
        if_pos (Int.ofNat_le.mpr (Nat.le_trans hcollected.count hseen))]
    rw [hend]
    refine ⟨?_, ?_⟩
    · show r'.status.numSvs + r'.svCount ≤ gpsMaxSvs
      rw [Nat.add_comm]
      exact hcollected.fits
    · show r'.status.svList.take (r'.status.numSvs + r'.svCount) = _
      rw [Nat.add_comm]
      exact hcollected.listed
  | cons next rest ih =>
    obtain ⟨⟨hs1, hs2, hs3, hs4⟩, hrest⟩ := hsentences
    rw [satsOf_cons, length_append] at hseen
    rw [length_cons] at hnum
    have hin : InSet num cnt k s := ⟨hs1, hs2, hs3, hs4, hnum29, by omega, hcnt⟩
    obtain ⟨r', hparse, hcollected⟩ := hin.collect F hr
    -- this is not the last sentence, and the next one is not the first
    have hgoes : endSet ⟨num, (k + 1 : Nat), cnt⟩ r' = r' := by
      apply if_neg
      show ¬ ((k + 1 : Nat) : Int) = num
      rw [length_cons] at hnum
      omega
    have hgoes' : beginSet ⟨num, (k + 1 + 1 : Nat), cnt⟩ r' = r' := by
      apply if_neg
      show ¬ ((k + 1 + 1 : Nat) : Int) = 1
      omega
    rw [hgoes] at hparse
    rw [← hgoes'] at hcollected
    have hlisted := ih next hrest (by omega) (by omega) hcollected
    rw [append_assoc, ← validInfos_append] at hlisted
    have hstep : parseAll F (quiet (s :: next :: rest)) r
        = parseAll F (quiet (next :: rest)) r' := by
      rw [← hparse]
      rfl
    rw [hstep]
    exact hlisted

theorem SentencesFrom.sats_le {num cnt seq : Nat} {sentences : List GsvSentence}
    (h : SentencesFrom num cnt seq sentences) :
    (satsOf sentences).length ≤ 4 * sentences.length := by
  induction sentences generalizing seq with
  | nil => exact Nat.le_refl 0
  | cons s rest ih =>
    obtain ⟨⟨-, -, -, hfour⟩, hrest⟩ := h
    have hlength := ih hrest
    rw [satsOf_cons, length_append, length_cons]
    omega

/-- A complete set adds its satellites to the list. -/
theorem Listed.set {set : List GsvSentence} (hr : Listed infos r) (hcomplete : Complete set)
    (hsmall : set.length < 2 ^ 29) :
    Listed (infos ++ validInfos F (satsRead set)) (parseAll F (quiet set) r) := by
  cases set with
  | nil =>
    rw [satsRead, readFrom, validInfos, filter_nil, map_nil, append_nil]
    exact hr
  | cons s rest =>
    refine Collecting.set F hsmall hcomplete.sats_le s rest (k := 0) hcomplete
      (Nat.zero_add _).symm (Nat.le_of_eq (Nat.zero_add _)) ?_
    refine ⟨?_, Nat.le_refl 0, ?_⟩
    · show 0 + r.status.numSvs ≤ gpsMaxSvs
      rw [Nat.zero_add]
      exact hr.fits
    · show r.status.svList.take (0 + r.status.numSvs) = _
      rw [Nat.zero_add]
      exact hr.listed

/-! ## All sets -/

theorem Listed.sets (sets : List (List GsvSentence)) (hcomplete : ∀ set ∈ sets, Complete set)
    (hsmall : ∀ set ∈ sets, set.length < 2 ^ 29) (hr : Listed infos r) :
    Listed (infos ++ validInfos F (sets.flatMap satsRead)) (parseAll F (quiet sets.flatten) r) := by
  induction sets generalizing r infos with
  | nil =>
    rw [flatten_nil, flatMap_nil, validInfos, filter_nil, map_nil, append_nil]
    exact hr
  | cons set sets ih =>
    obtain ⟨hcomplete1, hcomplete⟩ := forall_mem_cons.mp hcomplete
    obtain ⟨hsmall1, hsmall⟩ := forall_mem_cons.mp hsmall
    have hrest := ih hcomplete hsmall (hr.set F hcomplete1 hsmall1)
    rw [flatten_cons, flatMap_cons, validInfos_append, ← append_assoc, quiet, map_append, parseAll,
      foldl_append]
    exact hrest

/-- **Complete sets.** After them the status lists the satellites with valid numbers of
those that are read, as many as it has entries for. -/
theorem satellites_listed (sets : List (List GsvSentence)) (hcomplete : ∀ set ∈ sets, Complete set)
    (hsmall : ∀ set ∈ sets, set.length < 2 ^ 29) {r : SvReader φ} (hsvs : r.status.numSvs = 0) :
    (parseAll F (quiet sets.flatten) r).status.svList.take
        (parseAll F (quiet sets.flatten) r).status.numSvs =
          (validInfos F (sets.flatMap satsRead)).take gpsMaxSvs ∧
      (parseAll F (quiet sets.flatten) r).status.numSvs =
        ((validInfos F (sets.flatMap satsRead)).take gpsMaxSvs).length := by
  have hstart : Listed [] r := by
    refine ⟨?_, ?_⟩
    · rw [hsvs]
      exact Nat.zero_le _
    · rw [hsvs]
      rfl
  have hend := hstart.sets F sets hcomplete hsmall
  rw [nil_append] at hend
  refine ⟨hend.listed, ?_⟩
  rw [← hend.listed, length_take, GpsSvStatus.svList_length, Nat.min_eq_left hend.fits]

end Listing

/-! ## A sentence that is not full -/

def sampleSat (prn : Digits) : GsvSat := ⟨prn, ⟨[], rfl⟩, ⟨[], rfl⟩, ⟨[], rfl⟩⟩

def one : Digits := ⟨bytes "1", rfl⟩

def two : Digits := ⟨bytes "2", rfl⟩

def six : Digits := ⟨bytes "6", rfl⟩

/-- Six satellites in two sentences. -/
def sixSats (first second : Nat) : List GsvSentence :=
  [⟨false, two, one, six, List.replicate first (sampleSat one), (48, 48)⟩,
    ⟨false, two, two, six, List.replicate second (sampleSat two), (48, 48)⟩]

theorem satellites_listed_sample :
    (parseAll plainFloats (quiet [sixSats 3 3].flatten) emptyReader).status.svList.take
        (parseAll plainFloats (quiet [sixSats 3 3].flatten) emptyReader).status.numSvs =
          (validInfos plainFloats ([sixSats 3 3].flatMap satsRead)).take gpsMaxSvs ∧
      (parseAll plainFloats (quiet [sixSats 3 3].flatten) emptyReader).status.numSvs =
        ((validInfos plainFloats ([sixSats 3 3].flatMap satsRead)).take gpsMaxSvs).length := by
  apply satellites_listed plainFloats [sixSats 3 3] _ _ rfl
  · rintro set hset
    rw [mem_singleton.mp hset]
    exact ⟨by decide, by decide, trivial⟩
  · rintro set hset
    rw [mem_singleton.mp hset]
    decide

/-- With three satellites in each of the two sentences the list has only five. -/
theorem satellite_missing :
    Complete (sixSats 3 3) ∧
      (validInfos plainFloats (satsOf (sixSats 3 3))).length = 6 ∧
      (parseAll plainFloats (quiet (sixSats 3 3)) emptyReader).status.numSvs = 5 :=
  ⟨⟨by decide, by decide, trivial⟩, by decide +kernel, by decide +kernel⟩

end Arale.Gps
