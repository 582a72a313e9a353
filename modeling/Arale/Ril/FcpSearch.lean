import Arale.Lib.Tlv

/-!
# The two searches of the FCP parser

`fcp_tlv_search_tag` and `prop_info_tlv_search_tag` go from element to element
until they find a tag or `len` is used up. They differ in how they go on: the
first adds up the length of an element in an `unsigned char` and stops when it
is not below `len`; the second subtracts it from `len`, an `unsigned short`,
whatever it is.

Neither compares `len` with the two bytes it is about to read, and neither looks
at what the subtraction did, so both rest on the data:

> `tlv_search_bounded`: the first ends within `len` rounds and reads only the
> `len` bytes it was given if and only if, up to the first element with the tag,
> no length is 254 and the bytes do not end behind a tag; the second if and only
> if the elements up to there are whole.

A length byte of 254 makes a step of zero bytes, on which
`fcp_tlv_search_tag` never ends (`fcp_tlv_search_stuck`).

The result of a search is `none` when it has not ended within `len` rounds; the
inner `none` is the null pointer with the length 0.
-/

namespace Arale.Ril.Fcp

open Arale.Lib List

/-! ## The searches -/

/-- A loop over elements: `next` is what is left of `len` and how far the pointer
moves behind an element with this length byte. -/
def tlvSearch (next : Nat → UInt8 → Nat × Nat) (mem : Nat → UInt8) (tag : UInt8) :
    Nat → Nat → Nat → Option (Option TlvHit)
  | 0, _, len => if len = 0 then some none else none
  | fuel + 1, ptr, len =>
    if len = 0 then some none
    else if mem ptr = tag then some (some ⟨ptr + 2, mem (ptr + 1)⟩)
    else
      tlvSearch next mem tag fuel (ptr + (next len (mem (ptr + 1))).2)
        (next len (mem (ptr + 1))).1

/-- The addresses such a loop reads: the tag and the length of each element it
comes to. -/
def tlvReads (next : Nat → UInt8 → Nat × Nat) (mem : Nat → UInt8) (tag : UInt8) :
    Nat → Nat → Nat → List Nat
  | 0, _, _ => []
  | fuel + 1, ptr, len =>
    if len = 0 then []
    else if mem ptr = tag then [ptr, ptr + 1]
    else
      ptr :: (ptr + 1) :: tlvReads next mem tag fuel (ptr + (next len (mem (ptr + 1))).2)
        (next len (mem (ptr + 1))).1

/-- `fcp_tlv_search_tag`: `tag_len` is an `unsigned char`. -/
def fcpNext (len : Nat) (b : UInt8) : Nat × Nat :=
  let tagLen := (b.toNat + 2) % 256
  (if len ≤ tagLen then 0 else len - tagLen, tagLen)

/-- `prop_info_tlv_search_tag`: `len` is an `unsigned short`. -/
def propNext (len : Nat) (b : UInt8) : Nat × Nat :=
  ((len + 65536 - (b.toNat + 2)) % 65536, b.toNat + 2)

/-- `fcp_tlv_search_tag` -/
def fcpTlvSearchTag (mem : Nat → UInt8) (inPtr len : Nat) (tag : UInt8) : Option (Option TlvHit) :=
  tlvSearch fcpNext mem tag len inPtr len

/-- `prop_info_tlv_search_tag` -/
def propInfoTlvSearchTag (mem : Nat → UInt8) (inPtr len : Nat) (tag : UInt8) :
    Option (Option TlvHit) :=
  tlvSearch propNext mem tag len inPtr len

/-- The bytes `fcp_tlv_search_tag` goes on; a length byte of 255 makes an element
of one byte. -/
def fcpSize (l : UInt8) : Nat := (l.toNat + 2) % 256

theorem fcpNext_size {l : UInt8} (hl : l ≠ 254) (n : Nat) :
    0 < fcpSize l ∧ fcpNext n l = (n - fcpSize l, fcpSize l) := by
  have hne : l.toNat ≠ 254 := fun h => hl (UInt8.toNat_inj.mp h)
  have hlt := l.toNat_lt
  refine ⟨by unfold fcpSize; omega, ?_⟩
  show (if n ≤ fcpSize l then 0 else n - fcpSize l, fcpSize l) = _
  split
  next hle => rw [Nat.sub_eq_zero_of_le hle]
  next => rfl

theorem propNext_size {n : Nat} {l : UInt8} (hn : n < 65536) (hl : l.toNat + 2 ≤ n) :
    propNext n l = (n - (l.toNat + 2), l.toNat + 2) := by
  have hmod : (n + 65536 - (l.toNat + 2)) % 65536 = n - (l.toNat + 2) := by
    omega
  rw [propNext, hmod]

/-! ## On elements -/

section Elements

variable {next : Nat → UInt8 → Nat × Nat} {mem : Nat → UInt8} {tag : UInt8} {t : Tlv}
  {ts : List Tlv}

/-- A loop that goes on behind an element that `len` covers. -/
def Passes (next : Nat → UInt8 → Nat × Nat) (t : Tlv) : Prop :=
  ∀ len, t.value.length + 2 ≤ len → len < 65536 →
    next len t.lengthByte = (len - (t.value.length + 2), t.value.length + 2)

theorem fcpNext_passes (hshort : t.value.length ≤ 253) : Passes fcpNext t := by
  intro len _ _
  have hlen := t.toNat_lengthByte
  have hsize : fcpSize t.lengthByte = t.value.length + 2 := by
    rw [fcpSize, hlen]
    omega
  have hne : t.lengthByte ≠ 254 := by
    intro h
    rw [h] at hlen
    change 254 = _ at hlen
    omega
  rw [(fcpNext_size hne len).2, hsize]

theorem propNext_passes (t : Tlv) : Passes propNext t := by
  intro len hlen hlt
  rw [propNext_size hlt (by rwa [t.toNat_lengthByte]), t.toNat_lengthByte]

/-- On a row of elements a search finds the first one with the tag, in as many
rounds as there are elements. -/
theorem tlvSearch_elements (hpasses : ∀ t ∈ ts, Passes next t) {p fuel : Nat}
    (hbytes : BytesAt mem p (tlvBytes ts)) (hlen : (tlvBytes ts).length < 65536)
    (hfuel : ts.length ≤ fuel) :
    tlvSearch next mem tag fuel p (tlvBytes ts).length = some (hitFrom tag p ts) := by
  induction ts generalizing p fuel with
  | nil => cases fuel <;> rfl
  | cons t ts ih =>
    obtain ⟨fuel, rfl⟩ : ∃ n, fuel = n + 1 := ⟨fuel - 1, by simp at hfuel; omega⟩
    obtain ⟨⟨htag, hlength, -⟩, hrest⟩ := bytesAt_tlvBytes_cons.mp hbytes
    rw [length_tlvBytes_cons] at hlen ⊢
    rw [tlvSearch, if_neg (by omega), htag, hlength, hitFrom]
    split
    next => rfl
    next =>
      rw [hpasses t mem_cons_self _ (by omega) hlen, Nat.add_sub_cancel_left]
      exact ih (fun u hu => hpasses u (mem_cons_of_mem t hu)) hrest (by omega)
        (by simpa using hfuel)

theorem fcpTlvSearchTag_elements (hshort : ∀ t ∈ ts, t.value.length ≤ 253) {p : Nat}
    (hbytes : BytesAt mem p (tlvBytes ts)) (hlen : (tlvBytes ts).length < 65536) :
    fcpTlvSearchTag mem p (tlvBytes ts).length tag = some (hitFrom tag p ts) :=
  tlvSearch_elements (fun t ht => fcpNext_passes (hshort t ht)) hbytes hlen
    (length_le_tlvBytes ts)

theorem propInfoTlvSearchTag_elements {p : Nat} (hbytes : BytesAt mem p (tlvBytes ts))
    (hlen : (tlvBytes ts).length < 65536) :
    propInfoTlvSearchTag mem p (tlvBytes ts).length tag = some (hitFrom tag p ts) :=
  tlvSearch_elements (fun t _ => propNext_passes t) hbytes hlen (length_le_tlvBytes ts)

end Elements

/-! ## Termination and bounds -/

/-- A search of `len` bytes at address 0 ends within `len` rounds, and in any
number of rounds reads none but these bytes. -/
structure SearchBounded (next : Nat → UInt8 → Nat × Nat) (mem : Nat → UInt8) (tag : UInt8)
    (len : Nat) : Prop where
  ends : ∃ r, tlvSearch next mem tag len 0 len = some r
  inside : ∀ rounds, ∀ i ∈ tlvReads next mem tag rounds 0 len, i < len

/-- The bytes lead a search to its end: up to the first element with the tag, each
has its tag and its length among them, and a length byte `l` with `n` bytes left
is `ok n l` and takes the search `size l` bytes on. -/
inductive Leads (size : UInt8 → Nat) (ok : Nat → UInt8 → Prop) (tag : UInt8) : List UInt8 → Prop
  | done : Leads size ok tag []
  | hit (l : UInt8) (rest : List UInt8) : Leads size ok tag (tag :: l :: rest)
  | pass {b l : UInt8} {rest : List UInt8} (hok : ok (rest.length + 2) l)
      (hrest : Leads size ok tag ((b :: l :: rest).drop (size l))) :
      Leads size ok tag (b :: l :: rest)

/-- Up to the first element with the tag no length byte is 254 and the bytes do
not end between a tag and its length; a value may be cut. -/
def FcpLeads (tag : UInt8) (bytes : List UInt8) : Prop :=
  Leads fcpSize (fun _ l => l ≠ 254) tag bytes

/-- Up to the first element with the tag the elements are whole. -/
def PropLeads (tag : UInt8) (bytes : List UInt8) : Prop :=
  Leads (fun l => l.toNat + 2) (fun n l => l.toNat + 2 ≤ n) tag bytes

section Bounds

variable {next : Nat → UInt8 → Nat × Nat} {mem : Nat → UInt8} {tag b l : UInt8}
  {size : UInt8 → Nat} {ok : Nat → UInt8 → Prop} {p fuel : Nat} {bytes rest : List UInt8}

variable (hnext : ∀ n l, n < 65536 → ok n l → 0 < size l ∧ next n l = (n - size l, size l))
include hnext

/-- Each round takes at least one byte of `len`. -/
theorem Leads.ends (h : Leads size ok tag bytes) (hbytes : BytesAt mem p bytes)
    (hlen : bytes.length < 65536) (hfuel : bytes.length ≤ fuel) :
    ∃ r, tlvSearch next mem tag fuel p bytes.length = some r := by
  induction h generalizing p fuel with
  | done => cases fuel <;> exact ⟨none, rfl⟩
  | hit l rest =>
    obtain ⟨fuel, rfl⟩ : ∃ n, fuel = n + 1 := ⟨fuel - 1, by simp at hfuel; omega⟩
    exact ⟨_, by rw [tlvSearch, if_neg (by simp), if_pos hbytes.two.1]⟩
  | @pass b l rest hok _ ih =>
    obtain ⟨fuel, rfl⟩ : ∃ n, fuel = n + 1 := ⟨fuel - 1, by simp at hfuel; omega⟩
    obtain ⟨hpos, heq⟩ := hnext _ l hlen hok
    rw [tlvSearch, if_neg (by simp), hbytes.two.2, heq]
    split
    next => exact ⟨_, rfl⟩
    next =>
      have hrest := @ih _ fuel (hbytes.drop (size l))
      simp only [length_drop, length_cons] at hrest hlen hfuel
      exact hrest (by omega) (by omega)

/-- What a round reads is the beginning of an element. -/
theorem Leads.inside (h : Leads size ok tag bytes) (hbytes : BytesAt mem p bytes)
    (hlen : bytes.length < 65536) :
    ∀ i ∈ tlvReads next mem tag fuel p bytes.length, i < p + bytes.length := by
  induction h generalizing p fuel with
  | done => cases fuel <;> simp [tlvReads]
  | hit l rest =>
    cases fuel with
    | zero => simp [tlvReads]
    | succ fuel =>
      rw [tlvReads, if_neg (by simp), if_pos hbytes.two.1]
      simp
  | @pass b l rest hok _ ih =>
    cases fuel with
    | zero => simp [tlvReads]
    | succ fuel =>
      obtain ⟨hpos, heq⟩ := hnext _ l hlen hok
      have hrest := @ih _ fuel (hbytes.drop (size l))
      rw [tlvReads, if_neg (by simp), hbytes.two.2, heq]
      simp only [length_drop, length_cons] at hrest hlen ⊢
      intro i hi
      split at hi
      next =>
        rw [mem_cons, mem_singleton] at hi
        omega
      next =>
        rw [mem_cons, mem_cons] at hi
        rcases hi with hi | hi | hi
        · omega
        · omega
        · -- the reads behind this element are reads of a shorter row
          by_cases hzero : rest.length + 1 + 1 - size l = 0
          · rw [hzero] at hi
            cases fuel <;> simp [tlvReads] at hi
          · have hinside := hrest (by omega) i hi
            omega

variable (hbad : ∀ {p n fuel}, mem p ≠ tag → n + 2 < 65536 → ¬ ok (n + 2) (mem (p + 1)) →
    (∀ i ∈ tlvReads next mem tag 2 p (n + 2), i < p + (n + 2)) →
    tlvSearch next mem tag fuel p (n + 2) = none)
include hbad

/-- A search that ends and stays inside is led, as it does not do both behind a
length byte that is not `ok`. -/
theorem Leads.of_bounded (hbytes : BytesAt mem p bytes) (hlen : bytes.length < 65536)
    (hends : ∃ r, tlvSearch next mem tag fuel p bytes.length = some r)
    (hinside : ∀ rounds, ∀ i ∈ tlvReads next mem tag rounds p bytes.length, i < p + bytes.length) :
    Leads size ok tag bytes := by
  induction hn : bytes.length using Nat.strongRecOn generalizing p fuel bytes with
  | ind n ih =>
    subst hn
    rcases bytes with _ | ⟨b, _ | ⟨l, rest⟩⟩
    · exact .done
    · -- the length of a last single byte stands behind it
      have hread := hinside 1 (p + 1) (by simp [tlvReads])
      simp at hread
    · obtain ⟨hb, hl⟩ := hbytes.two
      by_cases htag : mem p = tag
      · rw [← hb, htag]
        exact .hit l rest
      obtain ⟨r, hr⟩ := hends
      by_cases hok : ok (rest.length + 2) l
      · obtain ⟨hpos, heq⟩ := hnext _ l hlen hok
        refine .pass hok ?_
        by_cases hcut : rest.length + 2 ≤ size l
        · rw [drop_eq_nil_of_le (by simp only [length_cons]; omega)]
          exact .done
        -- the rounds behind this element are those of the search one round later
        cases fuel with
        | zero => simp [tlvSearch] at hr
        | succ fuel =>
          rw [tlvSearch, if_neg (by simp), if_neg htag, hl, heq] at hr
          have hdrop : ((b :: l :: rest).drop (size l)).length = (b :: l :: rest).length - size l :=
            length_drop
          refine ih _ (by rw [hdrop, length_cons]; omega) (hbytes.drop (size l))
            (by omega) ⟨r, hdrop ▸ hr⟩ (fun rounds i hi => ?_) rfl
          have hread := hinside (rounds + 1) i (by
            rw [tlvReads, if_neg (by simp), if_neg htag, hl, heq, ← hdrop]
            exact mem_cons_of_mem _ (mem_cons_of_mem _ hi))
          rw [hdrop]
          simp only [length_cons] at hread ⊢
          omega
      · cases (hbad htag hlen (hl ▸ hok) (hinside 2)).symm.trans hr

theorem searchBounded_iff (hbytes : BytesAt mem 0 bytes) (hlen : bytes.length < 65536) :
    SearchBounded next mem tag bytes.length ↔ Leads size ok tag bytes := by
  constructor
  · intro h
    exact .of_bounded hnext hbad hbytes hlen h.ends (by simpa using h.inside)
  · intro h
    refine ⟨h.ends hnext hbytes hlen (Nat.le_refl _), fun rounds => ?_⟩
    have hinside : ∀ i ∈ tlvReads next mem tag rounds 0 bytes.length, i < 0 + bytes.length :=
      h.inside hnext hbytes hlen
    simpa using hinside

end Bounds

/-- A length byte of 254 makes an element of zero bytes: the search stays there. -/
theorem fcp_tlv_search_stuck {mem : Nat → UInt8} {tag : UInt8} {ptr len : Nat}
    (htag : mem ptr ≠ tag) (hlength : mem (ptr + 1) = 254) (hlen : 0 < len) (fuel : Nat) :
    tlvSearch fcpNext mem tag fuel ptr len = none := by
  have hnext : fcpNext len 254 = (len, 0) := by
    show (if len ≤ 0 then 0 else len - 0, 0) = (len, 0)
    rw [if_neg (Nat.not_le.mpr hlen), Nat.sub_zero]
  induction fuel with
  | zero => exact if_neg (Nat.ne_of_gt hlen)
  | succ fuel ih =>
    rw [tlvSearch, if_neg (Nat.ne_of_gt hlen), if_neg htag, hlength, hnext]
    exact ih

/-- Both searches on any bytes: exactly when the bytes lead them to an end. -/
theorem tlv_search_bounded {mem : Nat → UInt8} {bytes : List UInt8} (tag : UInt8)
    (hbytes : BytesAt mem 0 bytes) (hlen : bytes.length < 65536) :
    (SearchBounded fcpNext mem tag bytes.length ↔ FcpLeads tag bytes)
      ∧ (SearchBounded propNext mem tag bytes.length ↔ PropLeads tag bytes) := by
  constructor
  · refine searchBounded_iff (fun n l _ hl => fcpNext_size hl n) ?_ hbytes hlen
    intro p n fuel htag _ hl _
    exact fcp_tlv_search_stuck htag (not_not.mp hl) (by omega) fuel
  · refine searchBounded_iff (fun n l hn hl => ⟨by omega, propNext_size hn hl⟩) ?_ hbytes hlen
    intro p n fuel htag hn hl hinside
    -- the length wraps around, and the second round reads behind the bytes
    have hwrap : (propNext (n + 2) (mem (p + 1))).1 ≠ 0 := by
      have hlt := (mem (p + 1)).toNat_lt
      simp only [propNext]
      omega
    have hmove : (propNext (n + 2) (mem (p + 1))).2 = (mem (p + 1)).toNat + 2 := rfl
    have hread : p + ((mem (p + 1)).toNat + 2) < p + (n + 2) := by
      refine hinside _ ?_
      rw [tlvReads, if_neg (by omega), if_neg htag, tlvReads, if_neg hwrap, hmove]
      split <;> simp
    omega

/-- A file descriptor and a file size. -/
def sampleElements : List Tlv := [.of 0x82 [0x41, 0x21], .of 0x80 [0x00, 0x10]]

/-- The memory with these elements and zeros behind them. -/
def memoryOf (ts : List Tlv) (i : Nat) : UInt8 := ((tlvBytes ts)[i]?).getD 0

theorem bytesAt_memoryOf (ts : List Tlv) : BytesAt (memoryOf ts) 0 (tlvBytes ts) :=
  .of_list (tlvBytes ts) fun _ => 0

/-- A length of 254 behind the tag that is looked for, and two whole elements. -/
theorem tlv_search_bounded_sample :
    SearchBounded fcpNext (fun i => ([0x82, 0x02, 0x41, 0x21, 0x80, 0xFE][i]?).getD 0) 0x80 6
      ∧ SearchBounded propNext (memoryOf sampleElements) 0x8a 8 := by
  have hcut := BytesAt.of_list [0x82, 0x02, 0x41, 0x21, 0x80, 0xFE] fun _ => 0
  refine ⟨(tlv_search_bounded 0x80 hcut (by decide)).1.mpr ?_,
    (tlv_search_bounded 0x8a (bytesAt_memoryOf sampleElements) (by decide)).2.mpr ?_⟩
  · exact .pass (by decide) (.hit 0xFE [])
  · exact .pass (by decide) (.pass (by decide) .done)

/-- The bytes `00 FE` keep the first search busy for ever, and the second reads
a length behind the only byte it was given. -/
theorem tlv_search_unbounded :
    (¬ ∀ (mem : Nat → UInt8) (len : Nat) (tag : UInt8), len < 65536 →
      SearchBounded fcpNext mem tag len)
    ∧ ¬ ∀ (mem : Nat → UInt8) (len : Nat) (tag : UInt8), len < 65536 →
      SearchBounded propNext mem tag len := by
  constructor
  · intro h
    obtain ⟨r, hr⟩ := (h (fun i => if i = 0 then 0 else 254) 2 0x82 (by decide)).ends
    rw [fcp_tlv_search_stuck (by decide) rfl (by decide)] at hr
    cases hr
  · intro h
    have hread := (h (fun _ => 0) 1 0x82 (by decide)).inside 1 1 (by simp [tlvReads])
    omega

end Arale.Ril.Fcp
