import Arale.Ril.FcpPin
import Arale.Ril.HexText

/-!
# From the FCP template to an answer of the SIM

`usim_fcp_query_tag` hands the template to the query of a tag, and
`makeSimRspFromUsimFcp` asks for the file descriptor and the file size to build
what a SIM would answer to GET RESPONSE. Two results:

> `usim_fcp_query_same`: what was in the structure before makes no difference
> to the answer, except for the total file size and the PIN flags, which are
> added to what is there: these only if it differs in other bits than those set.

> `sim_rsp_exact`: the record holds what the first descriptor and the first
> size say; the record length is that of the descriptor for a file with records
> and 0 for a transparent one.

The structure a query fills depends on the tag, so it is a type that depends on
the tag; a structure with one field is that field.
-/

namespace Arale.Ril.Fcp

open List
open Arale.Lib
open Arale.At (Line bytes)

/-! ## Dispatch -/

/-- What `filled_struct_ptr` points to. -/
def FcpTag.Struct : FcpTag → Type
  | .fileDes => UsimFileDescriptor
  | .fileId => UInt16
  | .dfName => UsimDfName
  | .proprietary => UsimProprietaryInformation
  | .lifeCycle => UInt8
  | .secAttributeQuery => UInt8
  | .pinDo => UsimPinStatus
  | .totalFileSize => UInt32
  | .fileSize => UInt16
  | .sfi => UsimShortFileIdentifier
  | .secCompact => Unit
  | .secExpanded => Unit
  | .secRef => Unit

/-- The `switch` of `usim_fcp_query_tag`; `fcp_security_attribute_query` does
nothing. -/
def fcpTagQuery (mem : Nat → UInt8) (dataPtr valueLen : Nat) :
    (tag : FcpTag) → tag.Struct → Except Stop (Bool × tag.Struct)
  | .fileDes, q => fcpQuery .fileDes fillFileDescriptor mem dataPtr valueLen q
  | .fileId, q => fcpQuery .fileId fillTwoBytes mem dataPtr valueLen q
  | .dfName, q => fcpQuery .dfName fillDfName mem dataPtr valueLen q
  | .proprietary, q => fcpProprietaryInfoQuery mem dataPtr valueLen q
  | .lifeCycle, q => fcpQuery .lifeCycle fillLifeCycle mem dataPtr valueLen q
  | .secAttributeQuery, q => .ok (false, q)
  | .pinDo, q => fcpPinStatusDoQuery mem dataPtr valueLen q
  | .totalFileSize, q => fcpQuery .totalFileSize fillTotalFileSize mem dataPtr valueLen q
  | .fileSize, q => fcpQuery .fileSize fillTwoBytes mem dataPtr valueLen q
  | .sfi, q => fcpQuery .sfi fillSfi mem dataPtr valueLen q
  | .secCompact, _ => .error .assertion
  | .secExpanded, _ => .error .assertion
  | .secRef, _ => .error .assertion

/-- `usim_fcp_query_tag` -/
def usimFcpQueryTag (mem : Nat → UInt8) (inPtr len : Nat) (tag : FcpTag) (q : tag.Struct) :
    Except Stop (Bool × tag.Struct) :=
  if len = 0 ∨ mem inPtr ≠ 0x62 then .error .assertion
  else fcpTagQuery mem (inPtr + 2) (mem (inPtr + 1)).toNat tag q

/-! ## Two runs -/

/-- The fields that a query defines are the same. The identifier of a short file
identifier is only defined when it has one. -/
def SameFields : (tag : FcpTag) → tag.Struct → tag.Struct → Prop
  | .sfi, (q₁ : UsimShortFileIdentifier), (q₂ : UsimShortFileIdentifier) =>
    q₁.sfiUsage = q₂.sfiUsage ∧ (q₁.sfiUsage = .propId → q₁.sfiProp = q₂.sfiProp)
  | _, q₁, q₂ => q₁ = q₂

/-- Both queries stop in the same way or return the same, and when they return
`TRUE` they have filled in the same. -/
def SameAnswer (tag : FcpTag) (a₁ a₂ : Except Stop (Bool × tag.Struct)) : Prop :=
  a₁.map Prod.fst = a₂.map Prod.fst
    ∧ ∀ q₁ q₂, a₁ = .ok (true, q₁) → a₂ = .ok (true, q₂) → SameFields tag q₁ q₂

/-- The two structures differ only in bits that the query sets: the total file
size in those of the first element `81`, the PIN flags in those of the references
behind the PS_DO. Elements that the query asserts for are left out. -/
def Overwritten (ts : List Tlv) (ps : Tlv) (elements : List Tlv) :
    (tag : FcpTag) → tag.Struct → tag.Struct → Prop
  | .totalFileSize, (q₁ : UInt32), (q₂ : UInt32) =>
    ∀ value, valueOf 0x81 ts = some value → value.length ≤ 4 →
      q₁ ||| UInt32.ofNat (beValue value) = q₂ ||| UInt32.ofNat (beValue value)
  | .pinDo, (q₁ : UsimPinStatus), (q₂ : UsimPinStatus) =>
    (valueOf 0xC6 ts).isSome = true → (keyRefs elements).length ≤ 8 →
      let set := referAll ps.value 0 (keyRefs elements) ⟨0, 0⟩
      q₁.pinFlag ||| set.pinFlag = q₂.pinFlag ||| set.pinFlag
        ∧ q₁.enabledPinFlag ||| set.enabledPinFlag = q₂.enabledPinFlag ||| set.enabledPinFlag
  | _, _, _ => True

theorem SameFields.refl {tag : FcpTag} (q : tag.Struct) : SameFields tag q q := by
  cases tag <;> first | rfl | exact ⟨rfl, fun _ => rfl⟩

theorem SameAnswer.refl (tag : FcpTag) (a : Except Stop (Bool × tag.Struct)) :
    SameAnswer tag a a := by
  refine ⟨rfl, ?_⟩
  rintro q₁ q₂ h₁ h₂
  rw [h₁] at h₂
  obtain rfl : q₁ = q₂ := congrArg Prod.snd (Except.ok.inj h₂)
  exact .refl q₁

theorem sameAnswer_ok {tag : FcpTag} {q₁ q₂ : tag.Struct} :
    SameAnswer tag (.ok (true, q₁)) (.ok (true, q₂)) ↔ SameFields tag q₁ q₂ := by
  refine ⟨fun h => h.2 q₁ q₂ rfl rfl, fun h => ⟨rfl, ?_⟩⟩
  rintro _ _ ⟨⟩ ⟨⟩
  exact h

/-- Queries see the same element. -/
theorem fcpQuery_same {tag : FcpTag} {mem : Nat → UInt8} {p len : Nat} {q₁ q₂ : tag.Struct}
    {fill : (Nat → UInt8) → Option TlvHit → tag.Struct → Except Stop (Bool × tag.Struct)}
    (h : ∀ hit, SameAnswer tag (fill mem hit q₁) (fill mem hit q₂)) :
    SameAnswer tag (fcpQuery tag fill mem p len q₁) (fcpQuery tag fill mem p len q₂) := by
  unfold fcpQuery
  cases fcpTlvSearchTag mem p len tag.value with
  | none => exact .refl _ (.error .running)
  | some hit => exact h hit

/-- The descriptor is filled in as a whole or not at all. -/
theorem fillFileDescriptor_same (mem : Nat → UInt8) (hit : Option TlvHit)
    (q₁ q₂ : UsimFileDescriptor) :
    SameAnswer .fileDes (fillFileDescriptor mem hit q₁) (fillFileDescriptor mem hit q₂) := by
  cases hit with
  | none => exact ⟨rfl, fun _ _ h => by cases h⟩
  | some hit =>
    simp only [fillFileDescriptor, Option.elim_some]
    split
    · exact .refl _ _
    · split
      · exact .refl _ _
      · exact ⟨rfl, fun _ _ h => by cases h⟩

theorem fillSfi_same (mem : Nat → UInt8) (hit : Option TlvHit) (q₁ q₂ : UsimShortFileIdentifier) :
    SameAnswer .sfi (fillSfi mem hit q₁) (fillSfi mem hit q₂) := by
  -- without an identifier only the usage is defined
  have husage : ∀ usage, usage ≠ SfiUsage.propId →
      SameAnswer .sfi (.ok (true, { q₁ with sfiUsage := usage }))
        (.ok (true, { q₂ with sfiUsage := usage })) := by
    intro usage hne
    refine ⟨rfl, ?_⟩
    rintro _ _ ⟨⟩ ⟨⟩
    exact ⟨rfl, fun h => absurd h hne⟩
  cases hit with
  | none => exact husage .fileId (by decide)
  | some hit =>
    simp only [fillSfi, Option.elim_some]
    split
    · exact husage .notSupport (by decide)
    · split <;> exact .refl _ _

section Template

variable {mem : Nat → UInt8} {p : Nat} {fcp ps : Tlv} {ts elements : List Tlv}

/-- The query of a tag goes to the elements of the template. -/
theorem usimFcpQueryTag_template (htag : fcp.tag = 0x62) (hvalue : fcp.value = tlvBytes ts)
    (hbytes : BytesAt mem p fcp.bytes) {len : Nat} (hlen : len ≠ 0) (tag : FcpTag)
    (q : tag.Struct) :
    usimFcpQueryTag mem p len tag q = fcpTagQuery mem (p + 2) (tlvBytes ts).length tag q
      ∧ BytesAt mem (p + 2) (tlvBytes ts) ∧ (tlvBytes ts).length < 256 := by
  obtain ⟨hmem, hlength, hat⟩ := bytesAt_tlv.mp hbytes
  have hgood : ¬ (len = 0 ∨ mem p ≠ 0x62) := by
    rintro (hzero | hother)
    · exact hlen hzero
    · exact hother (hmem.trans htag)
  have hshort := fcp.short
  rw [usimFcpQueryTag, if_neg hgood, hlength, fcp.toNat_lengthByte]
  rw [hvalue] at hat hshort ⊢
  exact ⟨rfl, hat, hshort⟩

variable (hbytes : BytesAt mem p (tlvBytes ts)) (hlen : (tlvBytes ts).length < 256)
include hbytes hlen

theorem totalFileSize_same (q₁ q₂ : UInt32) :
    SameAnswer .totalFileSize (fcpTagQuery mem p (tlvBytes ts).length .totalFileSize q₁)
        (fcpTagQuery mem p (tlvBytes ts).length .totalFileSize q₂)
      ↔ Overwritten ts ps elements .totalFileSize q₁ q₂ := by
  have hquery : ∀ q : UInt32, fcpTagQuery mem p (tlvBytes ts).length .totalFileSize q
      = fillTotalFileSize mem (hitFrom FcpTag.totalFileSize.value p ts) q :=
    fcpQuery_elements hbytes hlen
  rw [hquery, hquery]
  rcases hitFrom_find? FcpTag.totalFileSize.value hbytes with
    ⟨hhit, hfind⟩ | ⟨t, out, hhit, hfind, hat⟩
  · have hnone : valueOf 0x81 ts = none := congrArg (Option.map Tlv.value) hfind
    rw [hhit]
    refine iff_of_true (SameAnswer.refl .totalFileSize _) fun value hvalue => ?_
    cases hnone.symm.trans hvalue
  · have hsome : valueOf 0x81 ts = some t.value := congrArg (Option.map Tlv.value) hfind
    have hlong : 4 < t.lengthByte ↔ ¬ t.value.length ≤ 4 := by
      rw [UInt8.lt_iff_toNat_lt, t.toNat_lengthByte, Nat.not_le]
      rfl
    rw [hhit]
    by_cases hshort : t.value.length ≤ 4
    · have hfill : ∀ q, fillTotalFileSize mem (some ⟨out, t.lengthByte⟩) q
          = .ok (true, q ||| UInt32.ofNat (beValue t.value)) := by
        intro q
        show (if 4 < t.lengthByte then _ else _) = _
        rw [if_neg (fun h => hlong.mp h hshort), t.toNat_lengthByte, orBytes_add,
          ← toNat_orBytes hat hshort, UInt32.ofNat_toNat]
      rw [hfill, hfill]
      refine sameAnswer_ok.trans ⟨fun h value hvalue _ => ?_, fun h => h _ hsome hshort⟩
      cases hsome.symm.trans hvalue
      exact h
    · have hfill : ∀ q, fillTotalFileSize mem (some ⟨out, t.lengthByte⟩) q = .error .assertion :=
        fun q => if_pos (hlong.mpr hshort)
      rw [hfill, hfill]
      refine iff_of_true (SameAnswer.refl .totalFileSize _) fun value hvalue h => ?_
      cases hsome.symm.trans hvalue
      exact absurd h hshort

theorem pinDo_same (hpin : ∀ c6, ts.find? (·.tag == 0xC6) = some c6 → PinTemplate c6 ps elements)
    (q₁ q₂ : UsimPinStatus) :
    SameAnswer .pinDo (fcpTagQuery mem p (tlvBytes ts).length .pinDo q₁)
        (fcpTagQuery mem p (tlvBytes ts).length .pinDo q₂)
      ↔ Overwritten ts ps elements .pinDo q₁ q₂ := by
  show SameAnswer .pinDo (fcpPinStatusDoQuery ..) (fcpPinStatusDoQuery ..)
    ↔ ((valueOf 0xC6 ts).isSome = true → _ → _)
  cases hfind : ts.find? (·.tag == 0xC6) with
  | none =>
    have hquery : ∀ q : UsimPinStatus, fcpPinStatusDoQuery mem p (tlvBytes ts).length q
        = .ok (false, { q with pinFlag := 0 }) := by
      intro q
      rw [fcpPinStatusDoQuery, fcpQuery_elements hbytes hlen]
      rcases hitFrom_find? FcpTag.pinDo.value hbytes with ⟨hhit, -⟩ | ⟨t, out, -, hsome, -⟩
      · rw [hhit]
        rfl
      · cases hfind.symm.trans hsome
    rw [hquery, hquery, valueOf, hfind]
    refine iff_of_true ⟨rfl, fun _ _ h => ?_⟩ fun h => ?_ <;> cases h
  | some c6 =>
    rw [fcpPinStatusDoQuery_template hbytes hlen hfind (hpin c6 hfind),
      fcpPinStatusDoQuery_template hbytes hlen hfind (hpin c6 hfind), valueOf, hfind]
    split
    next height =>
      rw [referAll_add, referAll_add _ _ _ q₂]
      refine sameAnswer_ok.trans ?_
      show UsimPinStatus.mk .. = UsimPinStatus.mk .. ↔ _
      rw [UsimPinStatus.mk.injEq]
      exact ⟨fun h _ _ => h, fun h => h rfl height⟩
    next height =>
      exact iff_of_true (SameAnswer.refl .pinDo _) fun _ h => absurd h height

end Template

/-- On a template of elements, in which a PIN status template is well formed, the
answer of a query is the same for two contents of the structure if and only if
they differ in no other bits than those it sets. -/
theorem usim_fcp_query_same {mem : Nat → UInt8} {inPtr len : Nat} {fcp ps : Tlv}
    {ts elements : List Tlv} (hbytes : BytesAt mem inPtr fcp.bytes) (hlen : len ≠ 0)
    (htag : fcp.tag = 0x62) (hvalue : fcp.value = tlvBytes ts)
    (hpin : ∀ c6, ts.find? (·.tag == 0xC6) = some c6 → PinTemplate c6 ps elements)
    (tag : FcpTag) (q₁ q₂ : tag.Struct) :
    SameAnswer tag (usimFcpQueryTag mem inPtr len tag q₁) (usimFcpQueryTag mem inPtr len tag q₂)
      ↔ Overwritten ts ps elements tag q₁ q₂ := by
  obtain ⟨hquery₁, hat, hshort⟩ := usimFcpQueryTag_template htag hvalue hbytes hlen tag q₁
  rw [hquery₁, (usimFcpQueryTag_template htag hvalue hbytes hlen tag q₂).1]
  cases tag with
  | totalFileSize => exact totalFileSize_same hat hshort q₁ q₂
  | pinDo => exact pinDo_same hat hshort hpin q₁ q₂
  | fileDes =>
    exact iff_of_true (fcpQuery_same fun hit => fillFileDescriptor_same mem hit q₁ q₂) trivial
  | sfi => exact iff_of_true (fcpQuery_same fun hit => fillSfi_same mem hit q₁ q₂) trivial
  | secAttributeQuery => exact iff_of_true ⟨rfl, fun _ _ h => by cases h⟩ trivial
  -- the other queries do not look at the structure
  | fileId => exact iff_of_true (SameAnswer.refl .fileId _) trivial
  | dfName => exact iff_of_true (SameAnswer.refl .dfName _) trivial
  | proprietary => exact iff_of_true (SameAnswer.refl .proprietary _) trivial
  | lifeCycle => exact iff_of_true (SameAnswer.refl .lifeCycle _) trivial
  | fileSize => exact iff_of_true (SameAnswer.refl .fileSize _) trivial
  | secCompact => exact iff_of_true (SameAnswer.refl .secCompact _) trivial
  | secExpanded => exact iff_of_true (SameAnswer.refl .secExpanded _) trivial
  | secRef => exact iff_of_true (SameAnswer.refl .secRef _) trivial

/-- A template with a total file size of 256. -/
def sampleSizeTemplate : Tlv := .of 0x62 (tlvBytes [.of 0x81 [0x01, 0x00]])

/-- The size 256 sets the only bit in which the two structures differ; without
a short file identifier its structures may differ. -/
theorem usim_fcp_query_same_sample :
    SameAnswer .totalFileSize
        (usimFcpQueryTag (memoryOf [sampleSizeTemplate]) 0 6 .totalFileSize (0 : UInt32))
        (usimFcpQueryTag (memoryOf [sampleSizeTemplate]) 0 6 .totalFileSize (256 : UInt32))
      ∧ SameAnswer .sfi
        (usimFcpQueryTag (memoryOf [sampleSizeTemplate]) 0 6 .sfi
          (⟨.propId, 1⟩ : UsimShortFileIdentifier))
        (usimFcpQueryTag (memoryOf [sampleSizeTemplate]) 0 6 .sfi
          (⟨.fileId, 2⟩ : UsimShortFileIdentifier)) := by
  have hsame := @usim_fcp_query_same _ 0 6 sampleSizeTemplate samplePsDo _ []
    (show BytesAt (memoryOf [sampleSizeTemplate]) 0 sampleSizeTemplate.bytes
      from bytesAt_memoryOf _)
    (show 6 ≠ 0 by decide) rfl (show sampleSizeTemplate.value = tlvBytes [.of 0x81 [0x01, 0x00]]
      from rfl) (fun c6 hc6 => by cases hc6)
  refine ⟨(hsame .totalFileSize (0 : UInt32) (256 : UInt32)).mpr ?_,
    (hsame .sfi (⟨.propId, 1⟩ : UsimShortFileIdentifier)
      (⟨.fileId, 2⟩ : UsimShortFileIdentifier)).mpr trivial⟩
  rintro value ⟨⟩ -
  rfl

/-- The total file size 256 becomes 511 in a structure that holds 255. -/
theorem usim_fcp_query_differs :
    ¬ ∀ (mem : Nat → UInt8) (inPtr : Nat) (fcp : Tlv) (ts : List Tlv) (tag : FcpTag)
        (q₁ q₂ : tag.Struct),
      BytesAt mem inPtr fcp.bytes → fcp.tag = 0x62 → fcp.value = tlvBytes ts →
      SameAnswer tag (usimFcpQueryTag mem inPtr fcp.bytes.length tag q₁)
        (usimFcpQueryTag mem inPtr fcp.bytes.length tag q₂) := by
  intro h
  have hbytes : BytesAt (memoryOf [sampleSizeTemplate]) 0 sampleSizeTemplate.bytes :=
    bytesAt_memoryOf [sampleSizeTemplate]
  obtain ⟨-, hfields⟩ := h (memoryOf [sampleSizeTemplate]) 0 sampleSizeTemplate
    [.of 0x81 [0x01, 0x00]] .totalFileSize (0 : UInt32) (255 : UInt32) hbytes rfl rfl
  have hsizes : (256 : UInt32) = 511 := hfields (256 : UInt32) (511 : UInt32) rfl rfl
  cases hsizes

/-! ## Hex text -/

/-- `toByte` -/
def toByte (c : UInt8) : UInt8 :=
  if 48 ≤ c && c ≤ 57 then c - 48
  else if 65 ≤ c && c ≤ 70 then c - 65 + 10
  else if 97 ≤ c && c ≤ 102 then c - 97 + 10
  else 0

/-- `hexStringToByteArray`, for pairs of digits -/
def hexStringToByteArray : Line → List UInt8
  | hi :: lo :: hex => (toByte hi <<< 4 ||| toByte lo) :: hexStringToByteArray hex
  | _ => []

/-- `HEX_DIGITS` -/
def hexDigits : Line := bytes "0123456789ABCDEF"

/-- `byteArrayToHexString` -/
def byteArrayToHexString (array : List UInt8) : Line :=
  array.flatMap fun (b : UInt8) =>
    [hexDigits.getD (b >>> 4 &&& 0x0F).toNat 0, hexDigits.getD (b &&& 0x0F).toNat 0]

theorem toByte_hexDigit {c : UInt8} {digit : Nat} (h : hexDigit c = some digit) :
    toByte c = UInt8.ofNat digit := by
  have hall : ∀ n : Fin 256, ∀ d ∈ hexDigit (UInt8.ofFin n),
      toByte (UInt8.ofFin n) = UInt8.ofNat d := by decide +kernel
  exact hall c.toFin digit h

/-- A hex string in either case is read as its bytes. -/
theorem hexStringToByteArray_eq {hex : Line} {octets : List UInt8}
    (h : Pdu.hexOctets hex = some octets) : hexStringToByteArray hex = octets := by
  induction octets generalizing hex with
  | nil =>
    obtain rfl := Pdu.hexOctets_nil h
    rfl
  | cons b octets ih =>
    obtain ⟨hi, lo, rest, high, low, rfl, hhi, hlo, rfl, hrest⟩ := Pdu.hexOctets_cons h
    rw [hexStringToByteArray, toByte_hexDigit hhi, toByte_hexDigit hlo,
      Pdu.shiftLeft_or_digit hhi hlo, ih hrest]

namespace Checked

inductive HexArray where
  | hexString | buffer
deriving DecidableEq, Repr

/-- The loop of `hexStringToByteArray`, for a string with its NUL. -/
def hexLoop (hexString : Line) : Nat → Nat → List UInt8 → Except (Fault HexArray) (List UInt8)
  | 0, _, buffer => .ok buffer
  | rounds + 1, i, buffer => do
    let high ← readAt .hexString hexString i
    let low ← readAt .hexString hexString (i + 1)
    let buffer ← modifyAt .buffer buffer (i / 2) fun _ => toByte high <<< 4 ||| toByte low
    hexLoop hexString rounds (i + 2) buffer

/-- `hexStringToByteArray`. There is a round for each even number below the
length. -/
def hexStringToByteArray (hexString : Line) : Except (Fault HexArray) (List UInt8 × Nat) := do
  let length := hexString.length
  let buffer ← hexLoop (hexString ++ [0]) ((length + 1) / 2) 0 (replicate (length / 2) 0)
  return (buffer, length / 2)

theorem hexLoop_eq (pre rest : Line) {out : List UInt8} {size : Nat}
    (hpre : pre.length = 2 * out.length)
    (hsize : out.length + rest.length / 2 = size) :
    hexLoop (pre ++ (rest ++ [0])) ((rest.length + 1) / 2) pre.length (padded 0 size out)
      = if rest.length % 2 = 0 then .ok (out ++ Fcp.hexStringToByteArray rest)
        else .error (.outside .buffer size) := by
  have hindex : pre.length / 2 = out.length := by omega
  induction rest using Fcp.hexStringToByteArray.induct generalizing pre out with
  | case1 hi lo rest ih =>
    have hrounds : (rest.length + 2 + 1) / 2 = (rest.length + 1) / 2 + 1 := by omega
    have hparity : (rest.length + 2) % 2 = rest.length % 2 := by omega
    simp only [length_cons] at hsize
    have hnext := @ih (pre ++ [hi, lo]) (out ++ [toByte hi <<< 4 ||| toByte lo])
    simp only [length_append, length_cons, length_nil, append_assoc] at hnext
    simp only [length_cons, cons_append, hrounds, hexLoop, readAt_behind, readAt_second,
      ok_bind, hindex, modifyAt_padded (show out.length < size by omega), hparity,
      Fcp.hexStringToByteArray.eq_1]
    exact hnext (by omega) (by omega) (by omega)
  | case2 rest hrest =>
    rcases rest with - | ⟨c, - | ⟨d, rest⟩⟩
    · obtain rfl : out.length = size := hsize
      simp [hexLoop, padded, Fcp.hexStringToByteArray]
    · -- the last round reads the NUL and writes behind the buffer
      rw [length_singleton] at hsize ⊢
      obtain rfl : out.length = size := by omega
      have houtside : ¬ out.length < (padded 0 out.length out).length := by
        rw [padded_length (Nat.le_refl _)]
        omega
      show hexLoop (pre ++ [c, 0]) 1 _ _ = _
      rw [hexLoop, readAt_behind, ok_bind, readAt_second, ok_bind, hindex, modifyAt,
        if_neg houtside]
      rfl
    · exact absurd rfl (hrest c d rest)

/-- An odd number of characters is too much for the buffer. -/
theorem hexStringToByteArray_eq (hexString : Line) :
    hexStringToByteArray hexString
      = if hexString.length % 2 = 0 then
          .ok (Fcp.hexStringToByteArray hexString, hexString.length / 2)
        else .error (.outside .buffer (hexString.length / 2)) := by
  have hloop := @hexLoop_eq [] hexString [] _ rfl rfl
  simp only [padded, nil_append, length_nil, Nat.zero_add, Nat.sub_zero] at hloop
  rw [hexStringToByteArray, hloop]
  split <;> rfl

theorem byteArrayToHexString_read (array : List UInt8) :
    Fcp.hexStringToByteArray (byteArrayToHexString array) = array
      ∧ (byteArrayToHexString array).length = 2 * array.length := by
  have hall : ∀ n : Fin 256,
      toByte (hexDigits.getD (UInt8.ofFin n >>> 4 &&& 0x0F).toNat 0) <<< 4
        ||| toByte (hexDigits.getD (UInt8.ofFin n &&& 0x0F).toNat 0) = UInt8.ofFin n := by
    decide +kernel
  induction array with
  | nil => exact ⟨rfl, rfl⟩
  | cons b array ih =>
    obtain ⟨hread, hlength⟩ := ih
    refine ⟨congrArg₂ cons (hall b.toFin) hread, ?_⟩
    show (byteArrayToHexString array).length + 2 = _
    rw [hlength, length_cons]
    omega

/-- The bytes of a text are read back. Of a string no character behind the NUL is
read, and its bytes fit in the buffer if their digits are pairs. -/
theorem hex_string_pairs (array : List UInt8) (hexString : Line) :
    hexStringToByteArray (byteArrayToHexString array) = .ok (array, array.length)
    ∧ (∀ i, hexStringToByteArray hexString ≠ .error (.outside .hexString i))
    ∧ ((∃ result, hexStringToByteArray hexString = .ok result) ↔ hexString.length % 2 = 0) := by
  obtain ⟨hread, hlength⟩ := byteArrayToHexString_read array
  refine ⟨?_, ?_, ?_⟩
  · rw [hexStringToByteArray_eq, hread, hlength, if_pos (by omega),
      Nat.mul_div_cancel_left _ (by decide)]
  · intro i hi
    rw [hexStringToByteArray_eq] at hi
    split at hi
    · cases hi
    · cases hi
  · rw [hexStringToByteArray_eq]
    split
    · next heven => exact ⟨fun _ => heven, fun _ => ⟨_, rfl⟩⟩
    · next hodd =>
      refine ⟨?_, fun heven => absurd heven hodd⟩
      rintro ⟨result, hresult⟩
      cases hresult

theorem hex_string_pairs_one :
    hexStringToByteArray (byteArrayToHexString [0x3F]) = .ok ([0x3F], 1)
    ∧ ∃ result, hexStringToByteArray (bytes "3f") = .ok result :=
  ⟨(hex_string_pairs [0x3F] []).1, (hex_string_pairs [] (bytes "3f")).2.2.mpr rfl⟩

/-- The buffer of a single character is empty. -/
theorem hex_string_odd : hexStringToByteArray (bytes "3") = .error (.outside .buffer 0) := by
  decide

end Checked

/-! ## GET RESPONSE -/

/-- `IS_DF_ADF` -/
def isDfAdf (fd : UInt8) : Bool := 0x38 &&& fd == 0x38

/-- `IS_TRANSPARENT_EF` -/
def isTransparentEf (fd : UInt8) : Bool := 0x07 &&& fd == 0x01

/-- `IS_LINEAR_FIXED_EF` -/
def isLinearFixedEf (fd : UInt8) : Bool := 0x07 &&& fd == 0x02

/-- `IS_CYCLIC_EF` -/
def isCyclicEf (fd : UInt8) : Bool := 0x07 &&& fd == 0x06

/-- The bytes of `simRspByte` for an EF. -/
def efRspByte (fd : UsimFileDescriptor) (fileSize : UInt16) : List UInt8 :=
  let rsp : List UInt8 := (replicate 15 0).set 6 4
  let rsp := (rsp.set 2 ((fileSize &&& 0xFF00) >>> 8).toUInt8).set 3 (fileSize &&& 0xFF).toUInt8
  if isLinearFixedEf fd.fd then (rsp.set 13 1).set 14 fd.recLen.toUInt8
  else if isTransparentEf fd.fd then rsp.set 13 0
  else if isCyclicEf fd.fd then (rsp.set 13 3).set 14 fd.recLen.toUInt8
  else rsp

/-- `makeSimRspFromUsimFcp`; `behind` is the memory behind the bytes, and `none`
a response that is `NULL`. -/
def makeSimRspFromUsimFcp (behind : Nat → UInt8) (simResponse : Line) :
    Except Stop (Option Line) := do
  let fcpByte := hexStringToByteArray simResponse
  let mem := fun i => (fcpByte[i]?).getD (behind i)
  let fcpLen := fcpByte.length % 65536
  let descriptor : Bool × UsimFileDescriptor ←
    usimFcpQueryTag mem 0 fcpLen .fileDes (⟨0, 0, 0, 0⟩ : UsimFileDescriptor)
  if !descriptor.1 then return none
  if isDfAdf descriptor.2.fd then
    return some (byteArrayToHexString ((replicate 15 0).set 6 2))
  let size : Bool × UInt16 ← usimFcpQueryTag mem 0 fcpLen .fileSize (0 : UInt16)
  if !size.1 then return none
  return some (byteArrayToHexString (efRspByte descriptor.2 size.2))

/-! ## What the template says -/

/-- The low byte of the record length; a descriptor of two bytes has none. -/
def recordLength (des : Tlv) : UInt8 := if des.value.length = 5 then des.value.getD 3 0 else 0

/-- `RESPONSE_DATA_STRUCTURE` for the file types of TS 11.11. -/
def structureByte (fd : UInt8) : UInt8 :=
  if isLinearFixedEf fd then 1 else if isCyclicEf fd then 3 else 0

/-- The record length that belongs to a file with records. -/
def storedLength (des : Tlv) : UInt8 :=
  if isLinearFixedEf (des.value.getD 0 0) || isCyclicEf (des.value.getD 0 0) then recordLength des
  else 0

/-- The record that a descriptor and a size describe, with this record length. -/
def getResponse (des : Tlv) (size : List UInt8) (length : UInt8) : List UInt8 :=
  if isDfAdf (des.value.getD 0 0) then [0, 0, 0, 0, 0, 0, 2, 0, 0, 0, 0, 0, 0, 0, 0]
  else
    [0, 0, size.getD 0 0, size.getD 1 0, 0, 0, 4, 0, 0, 0, 0, 0, 0,
      structureByte (des.value.getD 0 0), length]

/-- A template of a file: elements in any order, among them a descriptor and,
for an EF, a size; the first of each counts. -/
structure FileTemplate (fcp : Tlv) (ts : List Tlv) (des : Tlv) (size : List UInt8) : Prop where
  tag : fcp.tag = 0x62
  value : fcp.value = tlvBytes ts
  short : fcp.value.length ≤ 127
  descriptor : ts.find? (·.tag == 0x82) = some des
  descriptorLength : des.value.length = 2 ∨ des.value.length = 5
  fileSize : isDfAdf (des.value.getD 0 0) = false → valueOf 0x80 ts = some size ∧ size.length = 2

section Template

variable {mem : Nat → UInt8} {fcp des : Tlv} {ts : List Tlv} {size : List UInt8}

/-- The structure that the descriptor fills in. -/
def descriptorOf (des : Tlv) : UsimFileDescriptor :=
  if des.value.length = 5 then
    ⟨des.value.getD 0 0, des.value.getD 1 0, twoBytes (des.value.getD 2 0) (des.value.getD 3 0),
      des.value.getD 4 0⟩
  else ⟨des.value.getD 0 0, des.value.getD 1 0, 0, 0⟩

theorem fileDes_template (htemplate : FileTemplate fcp ts des size)
    (hbytes : BytesAt mem 2 (tlvBytes ts)) (hlen : (tlvBytes ts).length < 256)
    (q : UsimFileDescriptor) :
    fcpQuery .fileDes fillFileDescriptor mem 2 (tlvBytes ts).length q
      = .ok (true, descriptorOf des) := by
  rw [fcpQuery_elements hbytes hlen]
  rcases hitFrom_find? FcpTag.fileDes.value hbytes with ⟨-, hnone⟩ | ⟨t, out, hhit, hfind, hat⟩
  · rw [FcpTag.value, htemplate.descriptor] at hnone
    cases hnone
  rw [FcpTag.value, htemplate.descriptor] at hfind
  obtain rfl : des = t := by simpa using hfind
  have hread : ∀ k < des.value.length, mem (out + k) = des.value.getD k 0 :=
    fun k hk => hat.getD hk
  rw [hhit]
  show (if des.lengthByte = 2 then _ else if des.lengthByte = 5 then _ else _) = _
  rcases htemplate.descriptorLength with htwo | hfive
  · have hlength : des.lengthByte = 2 := lengthByte_eq htwo
    rw [if_pos hlength, descriptorOf, if_neg (by omega), ← hread 0 (by omega),
      ← hread 1 (by omega)]
    rfl
  · have hlength : des.lengthByte = 5 := lengthByte_eq hfive
    have hnot : des.lengthByte ≠ 2 := by
      rw [hlength]
      decide
    rw [if_neg hnot, if_pos hlength, descriptorOf, if_pos hfive,
      ← hread 0 (by omega), ← hread 1 (by omega), ← hread 2 (by omega), ← hread 3 (by omega),
      ← hread 4 (by omega)]
    rfl

theorem fileSize_template (hsize : valueOf 0x80 ts = some size) (htwo : size.length = 2)
    (hbytes : BytesAt mem 2 (tlvBytes ts)) (hlen : (tlvBytes ts).length < 256) (q : UInt16) :
    fcpQuery .fileSize fillTwoBytes mem 2 (tlvBytes ts).length q
      = .ok (true, twoBytes (size.getD 0 0) (size.getD 1 0)) := by
  rw [fcpQuery_elements hbytes hlen]
  rcases hitFrom_find? FcpTag.fileSize.value hbytes with ⟨-, hnone⟩ | ⟨t, out, hhit, hfind, hat⟩
  · rw [FcpTag.value] at hnone
    rw [valueOf, hnone] at hsize
    cases hsize
  rw [FcpTag.value] at hfind
  rw [valueOf, hfind] at hsize
  obtain rfl : t.value = size := Option.some.inj hsize
  have hread : ∀ k < t.value.length, mem (out + k) = t.value.getD k 0 := fun k hk => hat.getD hk
  have hlength : t.lengthByte = 2 := lengthByte_eq htwo
  rw [hhit]
  show (if t.lengthByte ≠ 2 then _ else _) = _
  rw [if_neg (not_not_intro hlength), ← hread 0 (by omega), ← hread 1 (by omega)]
  rfl

end Template

theorem high_twoBytes (high low : UInt8) :
    ((twoBytes high low &&& 0xFF00) >>> 8).toUInt8 = high := by
  apply UInt8.eq_of_toBitVec_eq
  ext i hi
  have hcases : i = 0 ∨ i = 1 ∨ i = 2 ∨ i = 3 ∨ i = 4 ∨ i = 5 ∨ i = 6 ∨ i = 7 := by omega
  rcases hcases with rfl | rfl | rfl | rfl | rfl | rfl | rfl | rfl <;> simp [twoBytes]

theorem low_twoBytes (high low : UInt8) : (twoBytes high low).toUInt8 = low := by
  apply UInt8.eq_of_toBitVec_eq
  simp only [twoBytes, UInt16.toBitVec_toUInt8, UInt16.toBitVec_or, UInt16.toBitVec_shiftLeft,
    UInt8.toBitVec_toUInt16]
  simp

theorem masked_low (x : UInt16) : (x &&& 0xFF).toUInt8 = x.toUInt8 := by
  rw [UInt16.toUInt8_and]
  exact UInt8.and_neg_one

theorem descriptorOf_fd (des : Tlv) : (descriptorOf des).fd = des.value.getD 0 0 := by
  rw [descriptorOf]
  split <;> rfl

theorem descriptorOf_recLen (des : Tlv) : (descriptorOf des).recLen.toUInt8 = recordLength des := by
  rw [descriptorOf, recordLength]
  split
  next => exact low_twoBytes _ _
  next => rfl

/-- The bytes for an EF are the record. -/
theorem efRspByte_eq {des : Tlv} (size : List UInt8) (hef : isDfAdf (des.value.getD 0 0) = false) :
    efRspByte (descriptorOf des) (twoBytes (size.getD 0 0) (size.getD 1 0))
      = getResponse des size (storedLength des) := by
  have hcyclic : isCyclicEf (des.value.getD 0 0) = true →
      isTransparentEf (des.value.getD 0 0) = false := by
    intro hcyclic
    rw [isTransparentEf, eq_of_beq hcyclic]
    rfl
  rw [efRspByte, getResponse, hef, descriptorOf_fd, descriptorOf_recLen, high_twoBytes, masked_low,
    low_twoBytes, structureByte, storedLength]
  by_cases hlinear : isLinearFixedEf (des.value.getD 0 0) = true
  · rw [if_pos hlinear, if_pos hlinear, hlinear]
    rfl
  rw [if_neg hlinear, if_neg hlinear, Bool.eq_false_iff.mpr hlinear]
  by_cases hcyc : isCyclicEf (des.value.getD 0 0) = true
  · rw [hcyclic hcyc, if_pos hcyc, if_pos hcyc, hcyc]
    rfl
  · rw [if_neg hcyc, if_neg hcyc, Bool.eq_false_iff.mpr hcyc]
    split <;> rfl

/-- The response made from a template of a file. -/
theorem sim_rsp_exact (behind : Nat → UInt8) {hex : Line} {fcp des : Tlv} {ts : List Tlv}
    {size : List UInt8} (hhex : Pdu.hexOctets hex = some fcp.bytes)
    (htemplate : FileTemplate fcp ts des size) :
    makeSimRspFromUsimFcp behind hex
      = .ok (some (byteArrayToHexString (getResponse des size (storedLength des)))) := by
  have hbytes : BytesAt (fun i => (fcp.bytes[i]?).getD (behind i)) 0 fcp.bytes := .of_list _ _
  have hlong : fcp.bytes.length % 65536 ≠ 0 := by
    have hshort := htemplate.short
    rw [fcp.length_bytes]
    omega
  have htemplate' := usimFcpQueryTag_template htemplate.tag htemplate.value hbytes hlong
  obtain ⟨hquery, helements, hlen⟩ := htemplate' .fileDes (⟨0, 0, 0, 0⟩ : UsimFileDescriptor)
  rw [makeSimRspFromUsimFcp, hexStringToByteArray_eq hhex]
  have hdescriptor : usimFcpQueryTag (fun i => (fcp.bytes[i]?).getD (behind i)) 0
      (fcp.bytes.length % 65536) .fileDes (⟨0, 0, 0, 0⟩ : UsimFileDescriptor)
        = .ok (true, descriptorOf des) :=
    hquery.trans (fileDes_template htemplate helements hlen _)
  simp only [hdescriptor, bind, Except.bind, descriptorOf_fd]
  by_cases hdf : isDfAdf (des.value.getD 0 0) = true
  · rw [getResponse, if_pos hdf]
    simp only [hdf]
    rfl
  have hef : isDfAdf (des.value.getD 0 0) = false := Bool.eq_false_iff.mpr hdf
  obtain ⟨hvalue, htwo⟩ := htemplate.fileSize hef
  have hsize : usimFcpQueryTag (fun i => (fcp.bytes[i]?).getD (behind i)) 0
      (fcp.bytes.length % 65536) .fileSize (0 : UInt16)
        = .ok (true, twoBytes (size.getD 0 0) (size.getD 1 0)) :=
    (htemplate' .fileSize (0 : UInt16)).1.trans
      (fileSize_template hvalue htwo helements hlen _)
  have hrsp := efRspByte_eq size hef
  simp only [hsize, hef]
  rw [← hrsp]
  rfl

/-- A file of 280 bytes in records of 28, with this file descriptor byte. -/
def sampleFile (fd : UInt8) : Tlv :=
  .of 0x62 (tlvBytes [.of 0x82 [fd, 0x21, 0x00, 0x1C, 0x0A], .of 0x8A [0x05],
    .of 0x80 [0x01, 0x18]])

theorem sampleFile_template (fd : UInt8) :
    FileTemplate (sampleFile fd)
      [.of 0x82 [fd, 0x21, 0x00, 0x1C, 0x0A], .of 0x8A [0x05], .of 0x80 [0x01, 0x18]]
      (.of 0x82 [fd, 0x21, 0x00, 0x1C, 0x0A]) [0x01, 0x18] where
  tag := rfl
  value := rfl
  short := show 14 ≤ 127 by decide
  descriptor := rfl
  descriptorLength := .inr rfl
  fileSize := fun _ => ⟨rfl, rfl⟩

/-- A linear fixed file. -/
theorem sim_rsp_exact_linear :
    makeSimRspFromUsimFcp (fun _ => 0) (bytes "620E82054221001c0A8A010580020118")
      = .ok (some (bytes "00000118000004000000000000011C")) :=
  sim_rsp_exact (fun _ => 0) (show Pdu.hexOctets _ = some (sampleFile 0x42).bytes from rfl)
    (sampleFile_template 0x42)

/-- With the descriptor byte of a transparent file the last byte is 0 and not
`1C`. -/
theorem sim_rsp_transparent :
    ¬ ∀ (behind : Nat → UInt8) (hex : Line) (fcp des : Tlv) (ts : List Tlv) (size : List UInt8),
      Pdu.hexOctets hex = some fcp.bytes → FileTemplate fcp ts des size →
      makeSimRspFromUsimFcp behind hex
        = .ok (some (byteArrayToHexString (getResponse des size (recordLength des)))) := by
  intro h
  have hrsp := h (fun _ => 0) (bytes "620E82054121001C0A8A010580020118") (sampleFile 0x41) _ _ _ rfl
    (sampleFile_template 0x41)
  have hmade : makeSimRspFromUsimFcp (fun _ => 0) (bytes "620E82054121001C0A8A010580020118")
      = .ok (some (bytes "000001180000040000000000000000")) := rfl
  rw [hmade] at hrsp
  have hbytes := Option.some.inj (Except.ok.inj hrsp)
  cases hbytes

end Arale.Ril.Fcp
