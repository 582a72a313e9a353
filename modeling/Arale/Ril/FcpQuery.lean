import Mathlib.Algebra.Group.Nat.Defs
import Arale.Lib.Checked
import Arale.Ril.FcpSearch

/-!
# Queries for the data of a file

An FCP template (file control parameters) is what a card says about a file. For
each kind of data there is a query that looks for its element, checks the length
and fills a structure of the caller. All of them are `fcpQuery` with their own
`fill`, so what the search finds is said once, in `fcpQuery_elements`.

The proprietary information is itself a row of elements, and its query makes
four searches in it:

> `fcp_proprietary_info_exact`: the flags and the fields are those of the
> elements that are there, if and only if the minimum clock frequency is absent
> or happens to be the first byte of the row. That field is read through the
> pointer to the row, not through the one to its own element.

A query that reaches `assert(0)` or follows a null pointer has no answer; the
`Bool` of an answer is what the source returns.
-/

namespace Arale.Ril.Fcp

open Arale.Lib

/-- Why a query gives no answer. `running` says that a loop has not ended within
the rounds that its length allows. -/
inductive Stop where
  | assertion
  | nullPointer
  | running
  deriving DecidableEq, Repr

/-- `usim_fcp_tag_enum` -/
inductive FcpTag where
  | fileDes | fileId | dfName | proprietary | lifeCycle | secAttributeQuery | secCompact
  | secExpanded | secRef | pinDo | totalFileSize | fileSize | sfi
  deriving DecidableEq, Repr

def FcpTag.value : FcpTag → UInt8
  | .fileDes => 0x82
  | .fileId => 0x83
  | .dfName => 0x84
  | .proprietary => 0xA5
  | .lifeCycle => 0x8A
  | .secAttributeQuery => 0xFF
  | .secCompact => 0x8C
  | .secExpanded => 0xAB
  | .secRef => 0x8B
  | .pinDo => 0xC6
  | .totalFileSize => 0x81
  | .fileSize => 0x80
  | .sfi => 0x88

/-- A query looks for its tag and fills the structure from what it found. -/
def fcpQuery {σ : Type} (tag : FcpTag)
    (fill : (Nat → UInt8) → Option TlvHit → σ → Except Stop (Bool × σ))
    (mem : Nat → UInt8) (inPtr len : Nat) (q : σ) : Except Stop (Bool × σ) :=
  (fcpTlvSearchTag mem inPtr len tag.value).elim (.error .running) fun hit => fill mem hit q

/-- On a template of elements the query sees the first one with its tag. -/
theorem fcpQuery_elements {σ : Type} {tag : FcpTag}
    {fill : (Nat → UInt8) → Option TlvHit → σ → Except Stop (Bool × σ)} {mem : Nat → UInt8}
    {inPtr : Nat} {ts : List Tlv} (hbytes : BytesAt mem inPtr (tlvBytes ts))
    (hlen : (tlvBytes ts).length < 256) (q : σ) :
    fcpQuery tag fill mem inPtr (tlvBytes ts).length q
      = fill mem (hitFrom tag.value inPtr ts) q := by
  have hshort : ∀ t ∈ ts, t.value.length ≤ 253 := by
    intro t ht
    have hle := value_length_le ht
    omega
  rw [fcpQuery, fcpTlvSearchTag_elements hshort hbytes (by omega)]
  rfl

/-! ## Values of several bytes -/

/-- `(short) ((out_ptr[0] << 8) | out_ptr[1])`, stored in an `unsigned short` -/
def twoBytes (high low : UInt8) : UInt16 := high.toUInt16 <<< 8 ||| low.toUInt16

/-- The loop over the bytes of a number, the last byte first; `i * 8` is at most
24 since more than four bytes are not accepted. -/
def orBytes (mem : Nat → UInt8) (ptr n : Nat) (acc : UInt32) : UInt32 :=
  (List.range n).foldl
    (fun acc i => acc ||| (mem (ptr + (n - i - 1))).toUInt32 <<< UInt32.ofNat (i * 8)) acc

/-- The number with these bytes, the first one the most significant. -/
def beValue (bytes : List UInt8) : Nat := bytes.foldl (fun n b => 256 * n + b.toNat) 0

theorem beValue_foldl (bytes : List UInt8) (n : Nat) :
    bytes.foldl (fun n b => 256 * n + b.toNat) n = n * 256 ^ bytes.length + beValue bytes := by
  induction bytes generalizing n with
  | nil =>
    show n = n * 1 + 0
    omega
  | cons b bytes ih =>
    rw [beValue, List.foldl_cons, List.foldl_cons, ih, ih (256 * 0 + b.toNat), List.length_cons,
      Nat.pow_succ, Nat.mul_zero, Nat.zero_add, Nat.add_mul, Nat.add_assoc, Nat.mul_comm 256 n,
      Nat.mul_assoc, Nat.mul_comm 256]

theorem beValue_cons (b : UInt8) (bytes : List UInt8) :
    beValue (b :: bytes) = b.toNat * 256 ^ bytes.length + beValue bytes := by
  rw [beValue, List.foldl_cons, beValue_foldl, Nat.mul_zero, Nat.zero_add]

theorem beValue_lt (bytes : List UInt8) : beValue bytes < 256 ^ bytes.length := by
  induction bytes with
  | nil => exact Nat.one_pos
  | cons b bytes ih =>
    have hb : b.toNat + 1 ≤ 256 := b.toNat_lt
    rw [beValue_cons, List.length_cons, Nat.pow_succ, Nat.mul_comm _ 256]
    calc b.toNat * 256 ^ bytes.length + beValue bytes
        < b.toNat * 256 ^ bytes.length + 256 ^ bytes.length := Nat.add_lt_add_left ih _
      _ = (b.toNat + 1) * 256 ^ bytes.length := (Nat.succ_mul ..).symm
      _ ≤ 256 * 256 ^ bytes.length := Nat.mul_le_mul_right _ hb

/-- A byte above the bytes that are already there. -/
theorem toNat_or_shiftLeft {x : UInt32} {b : UInt8} {i : Nat} (hi : i < 4)
    (hx : x.toNat < 256 ^ i) :
    (x ||| b.toUInt32 <<< UInt32.ofNat (i * 8)).toNat = b.toNat * 256 ^ i + x.toNat := by
  have hpow : 256 ^ i = 2 ^ (i * 8) := by
    rw [Nat.mul_comm, Nat.pow_mul]
  have hshift : (UInt32.ofNat (i * 8)).toNat % 32 = i * 8 := by
    rw [UInt32.toNat_ofNat']
    omega
  have hbyte : b.toNat * 2 ^ (i * 8) < 2 ^ 32 := by
    have hb : b.toNat < 2 ^ 8 := b.toNat_lt
    calc b.toNat * 2 ^ (i * 8) < 2 ^ 8 * 2 ^ (i * 8) :=
          Nat.mul_lt_mul_of_pos_right hb (Nat.two_pow_pos _)
      _ = 2 ^ (8 + i * 8) := (Nat.pow_add ..).symm
      _ ≤ 2 ^ 32 := Nat.pow_le_pow_right (by decide) (by omega)
  rw [hpow] at hx ⊢
  rw [UInt32.toNat_or, UInt32.toNat_shiftLeft, hshift, UInt8.toNat_toUInt32, Nat.shiftLeft_eq,
    Nat.mod_eq_of_lt hbyte, Nat.or_comm, ← Nat.shiftLeft_eq,
    ← Nat.shiftLeft_add_eq_or_of_lt hx]

/-- The loop assembles the number. -/
theorem toNat_orBytes {mem : Nat → UInt8} {ptr : Nat} {bytes : List UInt8}
    (hbytes : BytesAt mem ptr bytes) (hlen : bytes.length ≤ 4) :
    (orBytes mem ptr bytes.length 0).toNat = beValue bytes := by
  -- after `i` rounds the last `i` bytes are in
  have hrounds : ∀ i ≤ bytes.length,
      ((List.range i).foldl (fun acc i => acc ||| (mem (ptr + (bytes.length - i - 1))).toUInt32
        <<< UInt32.ofNat (i * 8)) (0 : UInt32)).toNat
          = beValue (bytes.drop (bytes.length - i)) := by
    intro i
    induction i with
    | zero =>
      intro _
      rw [Nat.sub_zero, List.drop_length]
      rfl
    | succ i ih =>
      intro hi
      have hread : mem (ptr + (bytes.length - i - 1)) = bytes[bytes.length - i - 1] :=
        hbytes _ _ (List.getElem?_eq_getElem (by omega))
      have hdrop : bytes.drop (bytes.length - (i + 1))
          = bytes[bytes.length - i - 1] :: bytes.drop (bytes.length - i) := by
        rw [← Nat.sub_sub, List.drop_eq_getElem_cons (by omega)]
        congr 2
        omega
      have hprev := ih (by omega)
      have hlast : (bytes.drop (bytes.length - i)).length = i := by
        rw [List.length_drop]
        omega
      rw [List.range_succ, List.foldl_append, List.foldl_cons, List.foldl_nil, hread,
        toNat_or_shiftLeft (by omega), hprev, hdrop, beValue_cons, hlast]
      rw [hprev]
      have hlt := beValue_lt (bytes.drop (bytes.length - i))
      rwa [hlast] at hlt
  have hall := hrounds bytes.length (Nat.le_refl _)
  rwa [Nat.sub_self, List.drop_zero] at hall

/-- The bytes are added to what was there. -/
theorem orBytes_add (mem : Nat → UInt8) (ptr n : Nat) (acc : UInt32) :
    orBytes mem ptr n acc = acc ||| orBytes mem ptr n 0 := by
  have hfold : ∀ (f : Nat → UInt32) (is : List Nat) (acc : UInt32),
      is.foldl (fun acc i => acc ||| f i) acc = acc ||| is.foldl (fun acc i => acc ||| f i) 0 := by
    intro f is
    induction is with
    | nil => exact fun acc => UInt32.or_zero.symm
    | cons i is ih =>
      intro acc
      rw [List.foldl_cons, List.foldl_cons, ih, ih (0 ||| f i), UInt32.zero_or, UInt32.or_assoc]
  exact hfold _ _ acc

/-! ## The queries -/

/-- `usim_file_descriptor_struct` -/
structure UsimFileDescriptor where
  fd : UInt8
  dataCoding : UInt8
  recLen : UInt16
  numRec : UInt8
  deriving DecidableEq, Repr

/-- `usim_df_name_struct` -/
structure UsimDfName where
  length : UInt8
  dfName : Vector UInt8 16
  deriving DecidableEq, Repr

/-- `usim_proprietary_information_struct` -/
@[ext] structure UsimProprietaryInformation where
  doFlag : UInt8
  charByte : UInt8
  suppVoltClass : UInt8
  appPwrConsump : UInt8
  pwrRefFreq : UInt8
  appMinFreq : UInt8
  availableMemBytes : UInt32
  deriving DecidableEq, Repr

/-- `sfi_usage_enum` -/
inductive SfiUsage where
  | notSupport | fileId | propId
  deriving DecidableEq, Repr

/-- `usim_short_file_identifier_struct` -/
structure UsimShortFileIdentifier where
  sfiUsage : SfiUsage
  sfiProp : UInt8
  deriving DecidableEq, Repr

/-- `fcp_file_descriptor_query` -/
def fillFileDescriptor (mem : Nat → UInt8) (hit : Option TlvHit) (q : UsimFileDescriptor) :
    Except Stop (Bool × UsimFileDescriptor) :=
  hit.elim (.ok (false, q)) fun hit =>
    if hit.valueLen = 2 then .ok (true, ⟨mem hit.outPtr, mem (hit.outPtr + 1), 0, 0⟩)
    else if hit.valueLen = 5 then
      .ok (true, ⟨mem hit.outPtr, mem (hit.outPtr + 1),
        twoBytes (mem (hit.outPtr + 2)) (mem (hit.outPtr + 3)), mem (hit.outPtr + 4)⟩)
    else .ok (false, q)

/-- A value of two bytes, and 0 when there is none: `fcp_file_identifier_query`
and `fcp_file_size_query`. -/
def fillTwoBytes (mem : Nat → UInt8) (hit : Option TlvHit) (_ : UInt16) :
    Except Stop (Bool × UInt16) :=
  hit.elim (.ok (false, 0)) fun hit =>
    if hit.valueLen ≠ 2 then .error .assertion
    else .ok (true, twoBytes (mem hit.outPtr) (mem (hit.outPtr + 1)))

/-- `fcp_df_name_query` -/
def fillDfName (mem : Nat → UInt8) (hit : Option TlvHit) (_ : UsimDfName) :
    Except Stop (Bool × UsimDfName) :=
  hit.elim (.ok (false, ⟨0, .replicate 16 0⟩)) fun hit =>
    if 16 < hit.valueLen then .error .assertion
    else
      .ok (true, ⟨hit.valueLen,
        .ofFn fun i => if i.val < hit.valueLen.toNat then mem (hit.outPtr + i.val) else 0⟩)

/-- `fcp_life_cycle_query` -/
def fillLifeCycle (mem : Nat → UInt8) (hit : Option TlvHit) (_ : UInt8) :
    Except Stop (Bool × UInt8) :=
  hit.elim (.error .assertion) fun hit =>
    if hit.valueLen ≠ 1 then .error .assertion else .ok (true, mem hit.outPtr)

/-- `fcp_total_file_size_query`: the bytes are put into what the structure holds. -/
def fillTotalFileSize (mem : Nat → UInt8) (hit : Option TlvHit) (totFileSize : UInt32) :
    Except Stop (Bool × UInt32) :=
  hit.elim (.ok (false, 0)) fun hit =>
    if 4 < hit.valueLen then .error .assertion
    else .ok (true, orBytes mem hit.outPtr hit.valueLen.toNat totFileSize)

/-- `fcp_sfi_query` -/
def fillSfi (mem : Nat → UInt8) (hit : Option TlvHit) (q : UsimShortFileIdentifier) :
    Except Stop (Bool × UsimShortFileIdentifier) :=
  hit.elim (.ok (true, { q with sfiUsage := .fileId })) fun hit =>
    if hit.valueLen = 0 then .ok (true, { q with sfiUsage := .notSupport })
    else if hit.valueLen ≠ 1 then .error .assertion
    else .ok (true, ⟨.propId, mem hit.outPtr⟩)

/-! ## Proprietary information -/

/-- One of the four searches: an element that is absent or empty changes
nothing, one of another length than `allowed` is an assertion. -/
def propElement (mem : Nat → UInt8) (outPtr valueLen : Nat) (tag : UInt8) (allowed : UInt8 → Bool)
    (set : TlvHit → UsimProprietaryInformation → UsimProprietaryInformation)
    (q : UsimProprietaryInformation) : Except Stop UsimProprietaryInformation :=
  (propInfoTlvSearchTag mem outPtr valueLen tag).elim (.error .running) fun hit =>
    hit.elim (.ok q) fun hit =>
      if hit.valueLen = 0 then .ok q
      else if allowed hit.valueLen then .ok (set hit q)
      else .error .assertion

/-- The UICC characteristics. -/
def setUiccChar (mem : Nat → UInt8) (hit : TlvHit) (q : UsimProprietaryInformation) :
    UsimProprietaryInformation :=
  { q with doFlag := q.doFlag ||| 0x01, charByte := mem hit.outPtr }

/-- The application power consumption. -/
def setAppPower (mem : Nat → UInt8) (hit : TlvHit) (q : UsimProprietaryInformation) :
    UsimProprietaryInformation :=
  { q with
    doFlag := q.doFlag ||| 0x02
    suppVoltClass := mem hit.outPtr
    appPwrConsump := mem (hit.outPtr + 1)
    pwrRefFreq := mem (hit.outPtr + 2) }

/-- The minimum application clock frequency, read at `out_ptr`, where the
proprietary information begins. -/
def setMinAppClock (mem : Nat → UInt8) (outPtr : Nat) (_ : TlvHit)
    (q : UsimProprietaryInformation) : UsimProprietaryInformation :=
  { q with doFlag := q.doFlag ||| 0x04, appMinFreq := mem outPtr }

/-- The amount of available memory. -/
def setAvailableMem (mem : Nat → UInt8) (hit : TlvHit) (q : UsimProprietaryInformation) :
    UsimProprietaryInformation :=
  { q with
    doFlag := q.doFlag ||| 0x08
    availableMemBytes := orBytes mem hit.outPtr hit.valueLen.toNat q.availableMemBytes }

/-- `fcp_proprietary_info_query`: the structure is cleared first. -/
def fillProprietaryInfo (mem : Nat → UInt8) (hit : Option TlvHit)
    (_ : UsimProprietaryInformation) : Except Stop (Bool × UsimProprietaryInformation) :=
  hit.elim (.ok (false, ⟨0, 0, 0, 0, 0, 0, 0⟩)) fun hit =>
    let n := hit.valueLen.toNat
    if hit.valueLen = 0 then .ok (false, ⟨0, 0, 0, 0, 0, 0, 0⟩)
    else do
      let q ← propElement mem hit.outPtr n 0x80 (· = 1) (setUiccChar mem) ⟨0, 0, 0, 0, 0, 0, 0⟩
      let q ← propElement mem hit.outPtr n 0x81 (· = 3) (setAppPower mem) q
      let q ← propElement mem hit.outPtr n 0x82 (· = 1) (setMinAppClock mem hit.outPtr) q
      let q ← propElement mem hit.outPtr n 0x83 (· ≤ 4) (setAvailableMem mem) q
      .ok (true, q)

/-- `fcp_proprietary_info_query` -/
def fcpProprietaryInfoQuery (mem : Nat → UInt8) (inPtr len : Nat) (q : UsimProprietaryInformation) :
    Except Stop (Bool × UsimProprietaryInformation) :=
  fcpQuery .proprietary fillProprietaryInfo mem inPtr len q

/-! ## What the elements say -/

/-- An element of the proprietary information with a length that its tag
allows. -/
def PropFormed (t : Tlv) : Prop :=
  (t.tag = 0x80 ∧ t.value.length = 1) ∨ (t.tag = 0x81 ∧ t.value.length = 3)
    ∨ (t.tag = 0x82 ∧ t.value.length = 1)
    ∨ (t.tag = 0x83 ∧ 1 ≤ t.value.length ∧ t.value.length ≤ 4)

instance (t : Tlv) : Decidable (PropFormed t) := inferInstanceAs (Decidable (_ ∨ _ ∨ _ ∨ _))

theorem PropFormed.length {t : Tlv} (h : PropFormed t) :
    (t.tag = 0x80 → t.value.length = 1) ∧ (t.tag = 0x81 → t.value.length = 3)
      ∧ (t.tag = 0x82 → t.value.length = 1)
      ∧ (t.tag = 0x83 → 1 ≤ t.value.length ∧ t.value.length ≤ 4) := by
  rcases h with ⟨htag, hlen⟩ | ⟨htag, hlen⟩ | ⟨htag, hlen⟩ | ⟨htag, hlen⟩ <;> rw [htag] <;>
    simp [hlen]

/-- No element of the four kinds is empty. -/
theorem PropFormed.lengthByte_ne_zero {t : Tlv} (h : PropFormed t) : t.lengthByte ≠ 0 := by
  intro hzero
  have hlen := t.toNat_lengthByte
  rw [hzero] at hlen
  rcases h with ⟨-, hpos⟩ | ⟨-, hpos⟩ | ⟨-, hpos⟩ | ⟨-, hpos, -⟩ <;> rw [← hlen] at hpos <;>
    cases hpos

/-- The value of the first element with the tag, if there is one. -/
def valueOf (tag : UInt8) (ts : List Tlv) : Option (List UInt8) :=
  (ts.find? (·.tag == tag)).map Tlv.value

/-- A flag for an element that is there. -/
def flagOf (tag flag : UInt8) (ts : List Tlv) : UInt8 := if (valueOf tag ts).isSome then flag else 0

/-- A byte of a value, 0 without the element. -/
def byteOf (tag : UInt8) (ts : List Tlv) (i : Nat) : UInt8 := ((valueOf tag ts).getD []).getD i 0

section ValueOf

variable {tag : UInt8} {ts : List Tlv} {value : List UInt8}

theorem flagOf_none (h : valueOf tag ts = none) (flag : UInt8) : flagOf tag flag ts = 0 := by
  rw [flagOf, h]
  rfl

theorem flagOf_some (h : valueOf tag ts = some value) (flag : UInt8) :
    flagOf tag flag ts = flag := by
  rw [flagOf, h]
  rfl

theorem byteOf_none (h : valueOf tag ts = none) (i : Nat) : byteOf tag ts i = 0 := by
  rw [byteOf, h]
  rfl

theorem byteOf_some (h : valueOf tag ts = some value) (i : Nat) :
    byteOf tag ts i = value.getD i 0 := by
  rw [byteOf, h]
  rfl

end ValueOf

/-- The structure that the elements describe. -/
def propertiesOf (ts : List Tlv) : UsimProprietaryInformation where
  doFlag := flagOf 0x80 0x01 ts ||| flagOf 0x81 0x02 ts ||| flagOf 0x82 0x04 ts
    ||| flagOf 0x83 0x08 ts
  charByte := byteOf 0x80 ts 0
  suppVoltClass := byteOf 0x81 ts 0
  appPwrConsump := byteOf 0x81 ts 1
  pwrRefFreq := byteOf 0x81 ts 2
  appMinFreq := byteOf 0x82 ts 0
  availableMemBytes := UInt32.ofNat (beValue ((valueOf 0x83 ts).getD []))

/-- What the source stores for the minimum clock frequency. -/
def clockRead (ts : List Tlv) : UInt8 :=
  if (valueOf 0x82 ts).isSome then (tlvBytes ts).getD 0 0 else 0

section Elements

variable {mem : Nat → UInt8} {p : Nat} {ts : List Tlv}

theorem lengthByte_eq {t : Tlv} {n : Nat} (h : t.value.length = n) :
    t.lengthByte = UInt8.ofNat n := by
  rw [Tlv.lengthByte, h]

variable (hbytes : BytesAt mem p (tlvBytes ts)) (hlen : (tlvBytes ts).length < 65536)
  (hformed : ∀ t ∈ ts, PropFormed t) {q : UsimProprietaryInformation}
include hbytes hlen hformed

/-- One search on a row of elements: either there is none with the tag, or the
first one is set from. -/
theorem propElement_elements (tag : UInt8) (allowed : UInt8 → Bool)
    (set : TlvHit → UsimProprietaryInformation → UsimProprietaryInformation)
    (hallowed : ∀ t ∈ ts, t.tag = tag → allowed t.lengthByte = true) :
    (valueOf tag ts = none ∧ propElement mem p (tlvBytes ts).length tag allowed set q = .ok q) ∨
      ∃ t out, t ∈ ts ∧ t.tag = tag ∧ valueOf tag ts = some t.value ∧ BytesAt mem out t.value
        ∧ propElement mem p (tlvBytes ts).length tag allowed set q
          = .ok (set ⟨out, t.lengthByte⟩ q) := by
  rw [propElement, propInfoTlvSearchTag_elements hbytes hlen]
  rcases hitFrom_find? tag hbytes with ⟨hhit, hfind⟩ | ⟨t, out, hhit, hfind, hvalue⟩
  · refine .inl ⟨?_, ?_⟩
    · rw [valueOf, hfind]
      rfl
    · rw [hhit]
      rfl
  · have hmem := List.mem_of_find?_eq_some hfind
    have htag : t.tag = tag := by simpa using List.find?_some hfind
    refine .inr ⟨t, out, hmem, htag, ?_, hvalue, ?_⟩
    · rw [valueOf, hfind]
      rfl
    · rw [hhit]
      show (if t.lengthByte = 0 then _ else _) = _
      rw [if_neg (hformed t hmem).lengthByte_ne_zero, if_pos (hallowed t hmem htag)]

theorem uiccChar_elements (hq : q.charByte = 0) :
    propElement mem p (tlvBytes ts).length 0x80 (· = 1) (setUiccChar mem) q
      = .ok { q with
          doFlag := q.doFlag ||| flagOf 0x80 0x01 ts
          charByte := byteOf 0x80 ts 0 } := by
  have hallowed : ∀ t ∈ ts, t.tag = 0x80 → decide (t.lengthByte = 1) = true :=
    fun t ht htag => decide_eq_true (lengthByte_eq ((hformed t ht).length.1 htag))
  rcases propElement_elements hbytes hlen hformed 0x80 (· = 1) (setUiccChar mem) hallowed with
    ⟨hnone, hok⟩ | ⟨t, out, ht, htag, hsome, hvalue, hok⟩
  · rw [hok, byteOf_none hnone, flagOf_none hnone, UInt8.or_zero, ← hq]
  · have hone := (hformed t ht).length.1 htag
    have hread : mem out = t.value.getD 0 0 := hvalue.getD (k := 0) (by omega)
    rw [hok, byteOf_some hsome, flagOf_some hsome, ← hread]
    rfl

theorem appPower_elements (hq : q.suppVoltClass = 0 ∧ q.appPwrConsump = 0 ∧ q.pwrRefFreq = 0) :
    propElement mem p (tlvBytes ts).length 0x81 (· = 3) (setAppPower mem) q
      = .ok { q with
          doFlag := q.doFlag ||| flagOf 0x81 0x02 ts
          suppVoltClass := byteOf 0x81 ts 0
          appPwrConsump := byteOf 0x81 ts 1
          pwrRefFreq := byteOf 0x81 ts 2 } := by
  have hallowed : ∀ t ∈ ts, t.tag = 0x81 → decide (t.lengthByte = 3) = true :=
    fun t ht htag => decide_eq_true (lengthByte_eq ((hformed t ht).length.2.1 htag))
  rcases propElement_elements hbytes hlen hformed 0x81 (· = 3) (setAppPower mem) hallowed with
    ⟨hnone, hok⟩ | ⟨t, out, ht, htag, hsome, hvalue, hok⟩
  · obtain ⟨hvolt, hpower, hfreq⟩ := hq
    rw [hok, byteOf_none hnone, byteOf_none hnone, byteOf_none hnone, flagOf_none hnone,
      UInt8.or_zero]
    show Except.ok q = .ok { q with suppVoltClass := 0, appPwrConsump := 0, pwrRefFreq := 0 }
    congr 1
    exact UsimProprietaryInformation.ext rfl rfl hvolt hpower hfreq rfl rfl
  · have hthree := (hformed t ht).length.2.1 htag
    have hread : ∀ k < 3, mem (out + k) = t.value.getD k 0 := fun k hk => hvalue.getD (by omega)
    rw [hok, byteOf_some hsome, byteOf_some hsome, byteOf_some hsome, flagOf_some hsome,
      ← hread 0 (by omega), ← hread 1 (by omega), ← hread 2 (by omega)]
    rfl

/-- Where there is a clock frequency, the first byte of the row is stored. -/
theorem minAppClock_elements (hq : q.appMinFreq = 0) :
    propElement mem p (tlvBytes ts).length 0x82 (· = 1) (setMinAppClock mem p) q
      = .ok { q with
          doFlag := q.doFlag ||| flagOf 0x82 0x04 ts
          appMinFreq := clockRead ts } := by
  have hallowed : ∀ t ∈ ts, t.tag = 0x82 → decide (t.lengthByte = 1) = true :=
    fun t ht htag => decide_eq_true (lengthByte_eq ((hformed t ht).length.2.2.1 htag))
  rcases propElement_elements hbytes hlen hformed 0x82 (· = 1) (setMinAppClock mem p) hallowed with
    ⟨hnone, hok⟩ | ⟨t, out, ht, -, hsome, -, hok⟩
  · rw [hok, clockRead, hnone, flagOf_none hnone, UInt8.or_zero]
    show _ = Except.ok { q with appMinFreq := 0 }
    rw [← hq]
  · have hrow := value_length_le ht
    have hread : mem p = (tlvBytes ts).getD 0 0 := hbytes.getD (k := 0) (by omega)
    rw [hok, clockRead, hsome, flagOf_some hsome, setMinAppClock, hread]
    rfl

theorem availableMem_elements (hq : q.availableMemBytes = 0) :
    propElement mem p (tlvBytes ts).length 0x83 (· ≤ 4) (setAvailableMem mem) q
      = .ok { q with
          doFlag := q.doFlag ||| flagOf 0x83 0x08 ts
          availableMemBytes := UInt32.ofNat (beValue ((valueOf 0x83 ts).getD [])) } := by
  have hallowed : ∀ t ∈ ts, t.tag = 0x83 → decide (t.lengthByte ≤ 4) = true := by
    intro t ht htag
    refine decide_eq_true ?_
    rw [UInt8.le_iff_toNat_le, t.toNat_lengthByte]
    exact ((hformed t ht).length.2.2.2 htag).2
  rcases propElement_elements hbytes hlen hformed 0x83 (· ≤ 4) (setAvailableMem mem) hallowed with
    ⟨hnone, hok⟩ | ⟨t, out, ht, htag, hsome, hvalue, hok⟩
  · rw [hok, hnone, flagOf_none hnone, UInt8.or_zero]
    show Except.ok q = .ok { q with availableMemBytes := 0 }
    rw [← hq]
  · have hnumber : orBytes mem out t.lengthByte.toNat 0 = UInt32.ofNat (beValue t.value) := by
      rw [t.toNat_lengthByte, ← toNat_orBytes hvalue ((hformed t ht).length.2.2.2 htag).2,
        UInt32.ofNat_toNat]
    rw [hok, hsome, flagOf_some hsome, setAvailableMem, hq, hnumber]
    rfl

end Elements

section Query

variable {mem : Nat → UInt8} {inPtr : Nat} {ts subs : List Tlv} {a5 : Tlv}
  (hbytes : BytesAt mem inPtr (tlvBytes ts)) (hlen : (tlvBytes ts).length < 256)
  (ha5 : ts.find? (·.tag == 0xA5) = some a5) (hvalue : a5.value = tlvBytes subs)
  (hformed : ∀ t ∈ subs, PropFormed t)
include hbytes hlen ha5 hvalue hformed

/-- The query on a template whose proprietary information consists of the four
kinds of elements. -/
theorem fcpProprietaryInfoQuery_elements (q : UsimProprietaryInformation) :
    fcpProprietaryInfoQuery mem inPtr (tlvBytes ts).length q
      = .ok (!subs.isEmpty, { propertiesOf subs with appMinFreq := clockRead subs }) := by
  rw [fcpProprietaryInfoQuery, fcpQuery_elements hbytes hlen]
  rcases hitFrom_find? FcpTag.proprietary.value hbytes with
    ⟨-, hnone⟩ | ⟨t, out, hhit, hfind, hat⟩
  · rw [FcpTag.value, ha5] at hnone
    cases hnone
  rw [FcpTag.value, ha5] at hfind
  obtain rfl : a5 = t := by simpa using hfind
  have hsize : a5.lengthByte.toNat = (tlvBytes subs).length := by
    rw [a5.toNat_lengthByte, hvalue]
  have hsmall : (tlvBytes subs).length < 65536 := by
    have hshort := a5.short
    rw [hvalue] at hshort
    omega
  rw [hvalue] at hat
  rw [hhit]
  cases subs with
  | nil =>
    have hzero : a5.lengthByte = 0 := UInt8.toNat_inj.mp hsize
    show (if a5.lengthByte = 0 then _ else _) = _
    rw [if_pos hzero]
    rfl
  | cons s subs =>
    have hzero : a5.lengthByte ≠ 0 := by
      intro hzero
      rw [hzero, length_tlvBytes_cons] at hsize
      change 0 = _ at hsize
      omega
    show (if a5.lengthByte = 0 then _ else _) = _
    rw [if_neg hzero, hsize, uiccChar_elements hat hsmall hformed rfl, ok_bind]
    simp only
    rw [appPower_elements hat hsmall hformed ⟨rfl, rfl, rfl⟩, ok_bind]
    simp only
    rw [minAppClock_elements hat hsmall hformed rfl, ok_bind]
    simp only
    rw [availableMem_elements hat hsmall hformed rfl, ok_bind]
    simp only [UInt8.zero_or]
    rfl

/-- The structure is what the elements describe exactly when the clock frequency
is absent or the first byte of the row. -/
theorem fcp_proprietary_info_exact (q : UsimProprietaryInformation) :
    fcpProprietaryInfoQuery mem inPtr (tlvBytes ts).length q
        = .ok (!subs.isEmpty, propertiesOf subs)
      ↔ ∀ value, valueOf 0x82 subs = some value → value.head? = (tlvBytes subs).head? := by
  rw [fcpProprietaryInfoQuery_elements hbytes hlen ha5 hvalue hformed]
  have hfield : Except.ok (ε := Stop) (!subs.isEmpty,
        { propertiesOf subs with appMinFreq := clockRead subs })
      = .ok (!subs.isEmpty, propertiesOf subs) ↔ clockRead subs = byteOf 0x82 subs 0 :=
    ⟨fun h => congrArg (fun r => r.2.appMinFreq) (Except.ok.inj h), fun h => by rw [h]; rfl⟩
  rw [hfield, clockRead]
  cases hsome : valueOf 0x82 subs with
  | none => simp [byteOf_none hsome]
  | some value =>
    obtain ⟨t, hfind, rfl⟩ := Option.map_eq_some_iff.mp hsome
    have ht := List.mem_of_find?_eq_some hfind
    obtain ⟨b, hb⟩ := List.length_eq_one_iff.mp
      ((hformed t ht).length.2.2.1 (by simpa using List.find?_some hfind))
    obtain ⟨first, row, hrow⟩ : ∃ first row, tlvBytes subs = first :: row :=
      List.exists_cons_of_length_pos (by have := value_length_le ht; omega)
    simp [byteOf_some hsome, hb, hrow, eq_comm]

end Query

/-- Available memory and UICC characteristics, in this order. -/
def samplePropElements : List Tlv := [.of 0x83 [0x12, 0x34], .of 0x80 [0x71]]

/-- A template with a file descriptor before the proprietary information. -/
def samplePropTemplate : List Tlv := [.of 0x82 [0x78, 0x21], .of 0xA5 (tlvBytes samplePropElements)]

theorem fcp_proprietary_info_exact_sample :
    fcpProprietaryInfoQuery (memoryOf samplePropTemplate) 0 13 ⟨0, 0, 0, 0, 0, 0, 0⟩
      = .ok (true, ⟨0x09, 0x71, 0, 0, 0, 0, 0x1234⟩) := by
  have hnoclock : valueOf 0x82 samplePropElements = none := rfl
  refine (fcp_proprietary_info_exact (bytesAt_memoryOf samplePropTemplate) (by decide)
    (show samplePropTemplate.find? (·.tag == 0xA5) = some (.of 0xA5 (tlvBytes samplePropElements))
      from rfl) rfl (show ∀ t ∈ samplePropElements, PropFormed t by decide) _).mpr ?_
  intro value hvalue
  cases hnoclock.symm.trans hvalue

/-- With the minimum clock frequency `0A` alone the query stores the tag `82`. -/
theorem fcp_proprietary_info_clock :
    ¬ ∀ (mem : Nat → UInt8) (inPtr : Nat) (ts subs : List Tlv) (a5 : Tlv)
        (q : UsimProprietaryInformation),
      BytesAt mem inPtr (tlvBytes ts) → (tlvBytes ts).length < 256 →
      ts.find? (·.tag == 0xA5) = some a5 → a5.value = tlvBytes subs →
      (∀ t ∈ subs, PropFormed t) → (subs.map Tlv.tag).Nodup →
      fcpProprietaryInfoQuery mem inPtr (tlvBytes ts).length q
        = .ok (!subs.isEmpty, propertiesOf subs) := by
  intro h
  have hquery := h (memoryOf [.of 0xA5 [0x82, 0x01, 0x0A]]) 0 _ [.of 0x82 [0x0A]] _
    ⟨0, 0, 0, 0, 0, 0, 0⟩ (bytesAt_memoryOf _) (by decide) rfl rfl (by decide) (by decide)
  have hstored := hquery.symm.trans
    (show _ = Except.ok (true, ⟨0x04, 0, 0, 0, 0, 0x82, 0⟩) from rfl)
  have hfreq : (0x0A : UInt8) = 0x82 :=
    congrArg (fun q => q.2.appMinFreq) (Except.ok.inj hstored)
  cases hfreq

end Arale.Ril.Fcp
