import Arale.Lib.Bits
import Arale.Ril.FcpQuery

/-!
# The PIN status template

The template `C6` begins with the PS_DO, a row of bits, and then names the PINs
one after the other; the bit at the place of a PIN says whether it is enabled.
`fcp_pin_status_do_query` walks over the elements, counts the references and
looks up the bit of each. It compares the place of the bit with the length of the
reference, which is 1, where the length of the PS_DO is meant, so that the ninth
reference is an assertion:

> `fcp_pin_status_exact`: the flags are those of the PINs that are named, and a
> PIN is marked enabled just when its bit is set, if and only if there are at
> most eight references and those to one PIN have the same bit.

The loop adds to the flags one reference at a time (`refer`), and the elements
drive it through exactly these additions, `pinLoop_elements`; what the flags are
in the end is then a statement about a list of references.
-/

namespace Arale.Ril.Fcp

open Arale.Lib List

/-! ## The query -/

/-- `usim_pin_status_temp_do_struct` -/
structure UsimPinStatus where
  pinFlag : UInt32
  enabledPinFlag : UInt32
  deriving DecidableEq, Repr

/-- The inner `switch`: the references of `usim_pin_type_enum` with their masks. -/
def pinTable : List (UInt8 × UInt32) :=
  [(0x01, 0x00000001), (0x02, 0x00000004), (0x03, 0x00000010), (0x04, 0x00000040),
    (0x05, 0x00000100), (0x06, 0x00000400), (0x07, 0x00001000), (0x08, 0x00004000),
    (0x81, 0x00000002), (0x82, 0x00000008), (0x83, 0x00000020), (0x84, 0x00000080),
    (0x85, 0x00000200), (0x86, 0x00000800), (0x87, 0x00002000), (0x88, 0x00008000),
    (0x0A, 0x00010000), (0x0B, 0x00020000), (0x0C, 0x00040000), (0x0D, 0x00080000),
    (0x0E, 0x00100000), (0x8A, 0x00200000), (0x8B, 0x00400000), (0x8C, 0x00800000),
    (0x8D, 0x01000000), (0x8E, 0x02000000), (0x11, 0x80000000)]

/-- The mask of a key reference; others are ignored. -/
def pinMask (key : UInt8) : Option UInt32 := pinTable.lookup key

/-- The variables of the loop; `pin_ps_do_len` is written and never read. -/
structure PinLoop where
  tag : Nat
  valueLen : Nat
  psDo : Option Nat
  count : Nat
  query : UsimPinStatus
  deriving DecidableEq, Repr

/-- `case PIN_KEY_REF_T`. The pointer to the PS_DO is followed for a PIN of the
table only. -/
def pinKeyRef (mem : Nat → UInt8) (s : PinLoop) : Except Stop PinLoop :=
  if (mem (s.tag + 1)).toNat ≤ s.count / 8 then .error .assertion
  else
    (pinMask (mem (s.tag + 2))).elim (.ok { s with count := (s.count + 1) % 256 }) fun mask =>
      s.psDo.elim (.error .nullPointer) fun psDo =>
        let enabled := mem (psDo + s.count / 8) &&& (0x80 >>> UInt8.ofNat (s.count % 8)) ≠ 0
        .ok { s with
          count := (s.count + 1) % 256
          query :=
            ⟨s.query.pinFlag ||| mask,
              if enabled then s.query.enabledPinFlag ||| mask else s.query.enabledPinFlag⟩ }

/-- The `switch` on the tag. -/
def pinElement (mem : Nat → UInt8) (s : PinLoop) : Except Stop PinLoop :=
  if mem s.tag = 0x90 then .ok { s with psDo := some (s.tag + 2) }
  else if mem s.tag = 0x95 then .ok s
  else if mem s.tag = 0x83 then pinKeyRef mem s
  else .error .assertion

/-- To the next element; `value_len` is an `unsigned short`. -/
def pinNext (mem : Nat → UInt8) (s : PinLoop) : PinLoop :=
  { s with
    tag := s.tag + ((mem (s.tag + 1)).toNat + 2)
    valueLen := (s.valueLen + 65536 - ((mem (s.tag + 1)).toNat + 2)) % 65536 }

/-- The loop, for a number of rounds. -/
def pinLoop (mem : Nat → UInt8) : Nat → PinLoop → Except Stop PinLoop
  | 0, s => if s.valueLen = 0 then .ok s else .error .running
  | fuel + 1, s =>
    if s.valueLen = 0 then .ok s
    else (pinElement mem s).bind fun s => pinLoop mem fuel (pinNext mem s)

/-- `fcp_pin_status_do_query`, behind the search -/
def fillPinStatus (mem : Nat → UInt8) (hit : Option TlvHit) (q : UsimPinStatus) :
    Except Stop (Bool × UsimPinStatus) :=
  hit.elim (.ok (false, { q with pinFlag := 0 })) fun hit =>
    (pinLoop mem hit.valueLen.toNat ⟨hit.outPtr, hit.valueLen.toNat, none, 0, q⟩).map
      fun s => (true, s.query)

/-- `fcp_pin_status_do_query` -/
def fcpPinStatusDoQuery (mem : Nat → UInt8) (inPtr len : Nat) (q : UsimPinStatus) :
    Except Stop (Bool × UsimPinStatus) :=
  fcpQuery .pinDo fillPinStatus mem inPtr len q

/-! ## References one after the other -/

/-- The bit of the PS_DO at a place, the most significant one first. -/
def psBit (psDo : List UInt8) (i : Nat) : Bool := byteBit (psDo.getD (i / 8) 0) (i % 8)

/-- What one reference adds. -/
def refer (psDo : List UInt8) (i : Nat) (key : UInt8) (q : UsimPinStatus) : UsimPinStatus :=
  (pinMask key).elim q fun mask =>
    ⟨q.pinFlag ||| mask, if psBit psDo i then q.enabledPinFlag ||| mask else q.enabledPinFlag⟩

/-- What the references from place `i` on add. -/
def referAll (psDo : List UInt8) : Nat → List UInt8 → UsimPinStatus → UsimPinStatus
  | _, [], q => q
  | i, key :: keys, q => referAll psDo (i + 1) keys (refer psDo i key q)

/-- The references add their bits to those that are set. -/
theorem referAll_add (psDo : List UInt8) (i : Nat) (keys : List UInt8) (q : UsimPinStatus) :
    referAll psDo i keys q = ⟨q.pinFlag ||| (referAll psDo i keys ⟨0, 0⟩).pinFlag,
      q.enabledPinFlag ||| (referAll psDo i keys ⟨0, 0⟩).enabledPinFlag⟩ := by
  induction keys generalizing i q with
  | nil => simp [referAll]
  | cons key keys ih =>
    rw [referAll, referAll, ih, ih (i + 1) (refer psDo i key ⟨0, 0⟩), refer, refer]
    cases pinMask key with
    | none => simp
    | some mask =>
      by_cases hbit : psBit psDo i = true <;> simp [hbit, UInt32.or_assoc]

/-- The references among the elements. -/
def keyRefs : List Tlv → List UInt8
  | [] => []
  | t :: ts => if t.tag = 0x83 then t.value.getD 0 0 :: keyRefs ts else keyRefs ts

/-- A usage qualifier, or a key reference of one byte. -/
def PinFormed (t : Tlv) : Prop := t.tag = 0x95 ∨ t.tag = 0x83 ∧ t.value.length = 1

instance (t : Tlv) : Decidable (PinFormed t) := inferInstanceAs (Decidable (_ ∨ _))

/-- A bit of a byte is the byte under the mask of the bit. -/
theorem mask_ne_zero_iff (b : UInt8) {k : Nat} (hk : k < 8) :
    b &&& (0x80 >>> UInt8.ofNat k) ≠ 0 ↔ byteBit b k = true := by
  have hmask : ∀ k j : Fin 8, byteBit (0x80 >>> UInt8.ofNat k.val) j.val = decide (k = j) := by
    decide
  constructor
  · intro hne
    by_contra hbit
    refine hne (eq_of_byteBit fun j hj => ?_)
    have hj' := hmask ⟨k, hk⟩ ⟨j, hj⟩
    rw [byteBit_and, show byteBit (0x80 >>> UInt8.ofNat k) j = _ from hj']
    by_cases hkj : k = j
    · subst hkj
      rw [Bool.eq_false_iff.mpr hbit]
      simp [byteBit]
    · have hne' : (⟨k, hk⟩ : Fin 8) ≠ ⟨j, hj⟩ := fun h => hkj (congrArg Fin.val h)
      rw [decide_eq_false hne', Bool.and_false]
      simp [byteBit]
  · intro hbit hzero
    have hset := byteBit_and b (0x80 >>> UInt8.ofNat k) k
    rw [hzero, hbit, show byteBit (0x80 >>> UInt8.ofNat k) k = _ from hmask ⟨k, hk⟩ ⟨k, hk⟩] at hset
    simp [byteBit] at hset

/-! ## The loop -/

section Loop

variable {mem : Nat → UInt8} {p psDo : Nat} {bits : List UInt8} {t : Tlv}

/-- The step behind an element that is covered. -/
theorem pinNext_element {rest : Nat} {s : PinLoop} (hlength : mem (s.tag + 1) = t.lengthByte)
    (hvalueLen : s.valueLen = t.value.length + 2 + rest) (hrest : s.valueLen < 65536) :
    pinNext mem s = { s with tag := s.tag + (t.value.length + 2), valueLen := rest } := by
  have hmod : (s.valueLen + 65536 - (t.value.length + 2)) % 65536 = rest := by omega
  rw [pinNext, hlength, t.toNat_lengthByte, hmod]

/-- A reference below the ninth adds what it says. -/
theorem pinKeyRef_element {s : PinLoop} (hlength : mem (s.tag + 1) = t.lengthByte)
    (hvalue : BytesAt mem (s.tag + 2) t.value) (hone : t.value.length = 1)
    (hpsDo : s.psDo = some psDo) (hbits : BytesAt mem psDo bits) (hcount : s.count < 8)
    (hplace : s.count / 8 < bits.length) :
    pinKeyRef mem s = .ok { s with
      count := s.count + 1
      query := refer bits s.count (t.value.getD 0 0) s.query } := by
  have hkey : mem (s.tag + 2) = t.value.getD 0 0 := hvalue.getD (k := 0) (by omega)
  have hnext : (s.count + 1) % 256 = s.count + 1 := by omega
  have hbit : (mem (psDo + s.count / 8) &&& (0x80 >>> UInt8.ofNat (s.count % 8)) ≠ 0)
      ↔ psBit bits s.count = true := by
    rw [mask_ne_zero_iff _ (Nat.mod_lt _ (by decide)), hbits.getD hplace]
    rfl
  have hinside : ¬ (mem (s.tag + 1)).toNat ≤ s.count / 8 := by
    rw [hlength, t.toNat_lengthByte]
    omega
  rw [pinKeyRef, if_neg hinside, hkey, hpsDo, hnext, refer]
  cases pinMask (t.value.getD 0 0) with
  | none => rfl
  | some mask =>
    show Except.ok _ = Except.ok _
    simp only [hbit]
    rfl

/-- The ninth reference is an assertion: 8 / 8 is not below its length. -/
theorem pinKeyRef_ninth {s : PinLoop} (hlength : mem (s.tag + 1) = t.lengthByte)
    (hone : t.value.length = 1) (hcount : s.count = 8) : pinKeyRef mem s = .error .assertion := by
  have hplace : (mem (s.tag + 1)).toNat ≤ s.count / 8 := by
    rw [hlength, t.toNat_lengthByte]
    omega
  rw [pinKeyRef, if_pos hplace]

/-- The elements drive the loop through their references, up to the eighth. -/
theorem pinLoop_elements {ts : List Tlv} (hformed : ∀ t ∈ ts, PinFormed t)
    (hbytes : BytesAt mem p (tlvBytes ts)) (hlen : (tlvBytes ts).length < 65536)
    (hbits : BytesAt mem psDo bits) {count fuel : Nat} (hcount : count ≤ 8)
    (hplaces : count + (keyRefs ts).length ≤ 8 * bits.length) (hfuel : ts.length ≤ fuel)
    (q : UsimPinStatus) :
    (pinLoop mem fuel ⟨p, (tlvBytes ts).length, some psDo, count, q⟩).map PinLoop.query
      = if count + (keyRefs ts).length ≤ 8 then .ok (referAll bits count (keyRefs ts) q)
        else .error .assertion := by
  induction ts generalizing p count fuel q with
  | nil =>
    rw [if_pos (show count + (keyRefs []).length ≤ 8 from hcount)]
    cases fuel <;> rfl
  | cons t ts ih =>
    obtain ⟨fuel, rfl⟩ : ∃ n, fuel = n + 1 := ⟨fuel - 1, by simp at hfuel; omega⟩
    obtain ⟨⟨htag, hlength, hvalue⟩, hrest⟩ := bytesAt_tlvBytes_cons.mp hbytes
    have hformed' : ∀ u ∈ ts, PinFormed u := fun u hu => hformed u (mem_cons_of_mem t hu)
    have hfuel' : ts.length ≤ fuel := by simpa using hfuel
    rw [length_tlvBytes_cons] at hlen ⊢
    rw [pinLoop, if_neg (by simp)]
    rcases hformed t mem_cons_self with hqualifier | ⟨hreference, hone⟩
    · have hkeys : keyRefs (t :: ts) = keyRefs ts := by
        rw [keyRefs, hqualifier]
        rfl
      have helement : pinElement mem
          ⟨p, t.value.length + 2 + (tlvBytes ts).length, some psDo, count, q⟩
          = .ok ⟨p, t.value.length + 2 + (tlvBytes ts).length, some psDo, count, q⟩ := by
        rw [pinElement, show mem p = 0x95 from htag.trans hqualifier]
        rfl
      rw [hkeys] at hplaces ⊢
      rw [helement]
      show (pinLoop mem fuel (pinNext mem _)).map _ = _
      rw [pinNext_element hlength rfl hlen]
      exact ih hformed' hrest (by omega) hcount hplaces hfuel' q
    · have hkeys : keyRefs (t :: ts) = t.value.getD 0 0 :: keyRefs ts := by
        rw [keyRefs, if_pos hreference]
      rw [hkeys, length_cons] at hplaces ⊢
      rcases Nat.eq_or_lt_of_le hcount with rfl | hlt
      · rw [if_neg (by omega), pinElement, show mem p = 0x83 from htag.trans hreference]
        show ((pinKeyRef mem _).bind _).map _ = _
        rw [pinKeyRef_ninth hlength hone rfl]
        rfl
      have helement : pinElement mem
          ⟨p, t.value.length + 2 + (tlvBytes ts).length, some psDo, count, q⟩
          = .ok ⟨p, t.value.length + 2 + (tlvBytes ts).length, some psDo, count + 1,
              refer bits count (t.value.getD 0 0) q⟩ := by
        rw [pinElement, show mem p = 0x83 from htag.trans hreference]
        exact pinKeyRef_element hlength hvalue hone rfl hbits hlt
          (show count / 8 < bits.length by omega)
      rw [helement]
      show (pinLoop mem fuel (pinNext mem _)).map _ = _
      rw [pinNext_element hlength rfl hlen, referAll,
        show count + ((keyRefs ts).length + 1) = count + 1 + (keyRefs ts).length by omega]
      exact ih hformed' hrest (by omega) hlt
        (show count + 1 + _ ≤ 8 * bits.length by omega) hfuel' _

end Loop

/-! ## The flags bit by bit -/

/-- A bit of a flag word. -/
def hasBit (x : UInt32) (b : Nat) : Bool := x.toBitVec.getLsbD b

theorem hasBit_or (x y : UInt32) (b : Nat) : hasBit (x ||| y) b = (hasBit x b || hasBit y b) := by
  rw [hasBit, UInt32.toBitVec_or, BitVec.getLsbD_or]
  rfl

theorem and_ne_zero_iff (x y : UInt32) :
    x &&& y ≠ 0 ↔ ∃ b, hasBit x b = true ∧ hasBit y b = true := by
  have hand : ∀ b, (x &&& y).toBitVec.getLsbD b = (hasBit x b && hasBit y b) := by
    intro b
    rw [UInt32.toBitVec_and, BitVec.getLsbD_and]
    rfl
  constructor
  · intro hne
    by_contra hnone
    refine hne (UInt32.toBitVec_inj.mp (BitVec.eq_of_getLsbD_eq fun b _ => ?_))
    rw [hand]
    by_contra hset
    simp only [UInt32.toBitVec_zero, BitVec.getLsbD_zero, Bool.not_eq_false,
      Bool.and_eq_true] at hset
    exact hnone ⟨b, hset⟩
  · rintro ⟨b, hx, hy⟩ hzero
    have hset := hand b
    rw [hzero, hx, hy] at hset
    simp at hset

section Flags

variable {bits : List UInt8}

theorem hasBit_refer_pinFlag (i : Nat) (key : UInt8) (q : UsimPinStatus) (b : Nat) :
    hasBit (refer bits i key q).pinFlag b = true
      ↔ hasBit q.pinFlag b = true ∨ ∃ mask, pinMask key = some mask ∧ hasBit mask b = true := by
  rw [refer]
  cases pinMask key with
  | none => simp
  | some mask => simp [hasBit_or]

theorem hasBit_refer_enabled (i : Nat) (key : UInt8) (q : UsimPinStatus) (b : Nat) :
    hasBit (refer bits i key q).enabledPinFlag b = true
      ↔ hasBit q.enabledPinFlag b = true
        ∨ psBit bits i = true ∧ ∃ mask, pinMask key = some mask ∧ hasBit mask b = true := by
  rw [refer]
  cases pinMask key with
  | none => simp
  | some mask =>
    by_cases hbit : psBit bits i = true
    · simp [hasBit_or, hbit]
    · simp [hbit]

/-- The flags of the PINs are those of the references. -/
theorem referAll_pinFlag (i : Nat) (keys : List UInt8) (q : UsimPinStatus) (b : Nat) :
    hasBit (referAll bits i keys q).pinFlag b = true
      ↔ hasBit q.pinFlag b = true
        ∨ ∃ key ∈ keys, ∃ mask, pinMask key = some mask ∧ hasBit mask b = true := by
  induction keys generalizing i q with
  | nil => simp [referAll]
  | cons key keys ih =>
    rw [referAll, ih, hasBit_refer_pinFlag]
    simp [or_assoc]

/-- The enabled ones are those of the references whose bit is set. -/
theorem referAll_enabled (i : Nat) (keys : List UInt8) (q : UsimPinStatus) (b : Nat) :
    hasBit (referAll bits i keys q).enabledPinFlag b = true
      ↔ hasBit q.enabledPinFlag b = true
        ∨ ∃ j key, keys[j]? = some key ∧ psBit bits (i + j) = true
          ∧ ∃ mask, pinMask key = some mask ∧ hasBit mask b = true := by
  induction keys generalizing i q with
  | nil => simp [referAll]
  | cons key keys ih =>
    rw [referAll, ih, hasBit_refer_enabled, or_assoc]
    refine or_congr Iff.rfl ?_
    constructor
    · rintro (⟨hbit, hmask⟩ | ⟨j, key', hget, hbit, hmask⟩)
      · exact ⟨0, key, rfl, hbit, hmask⟩
      · exact ⟨j + 1, key', hget, by rwa [Nat.add_comm j 1, ← Nat.add_assoc], hmask⟩
    · rintro ⟨j, key', hget, hbit, hmask⟩
      cases j with
      | zero =>
        obtain rfl : key = key' := by simpa using hget
        exact .inl ⟨hbit, hmask⟩
      | succ j =>
        rw [Nat.add_comm j 1, ← Nat.add_assoc] at hbit
        exact .inr ⟨j, key', hget, hbit, hmask⟩

end Flags

theorem pinMask_mem {key : UInt8} {mask : UInt32} (h : pinMask key = some mask) :
    (key, mask) ∈ pinTable := by
  obtain ⟨before, after, heq, -⟩ := lookup_eq_some_iff.mp h
  rw [heq]
  exact mem_append_right _ mem_cons_self

/-- Masks that share a bit belong to the same reference. -/
theorem pinMask_inj {key key' : UInt8} {mask mask' : UInt32} (h : pinMask key = some mask)
    (h' : pinMask key' = some mask') (hshare : mask &&& mask' ≠ 0) : key = key' := by
  have htable : (pinTable.all fun e => pinTable.all fun e' =>
      decide (e.2 &&& e'.2 ≠ 0 → e.1 = e'.1)) = true := by decide +kernel
  have hrow := all_eq_true.mp htable _ (pinMask_mem h)
  exact of_decide_eq_true (all_eq_true.mp hrow _ (pinMask_mem h')) hshare

theorem pinMask_hasBit {key : UInt8} {mask : UInt32} (h : pinMask key = some mask) :
    ∃ b, hasBit mask b = true := by
  have htable : (pinTable.all fun e => decide (e.2 &&& e.2 ≠ 0)) = true := by decide +kernel
  have hne := of_decide_eq_true (all_eq_true.mp htable _ (pinMask_mem h))
  obtain ⟨b, hb, -⟩ := (and_ne_zero_iff mask mask).mp hne
  exact ⟨b, hb⟩

/-- What a status structure says about references and their bits: the flags are
those of the PINs that are named, and each of these is enabled by its bit. -/
def StatusOf (bits keys : List UInt8) (q : UsimPinStatus) : Prop :=
  (∀ b, hasBit q.pinFlag b = true
      ↔ ∃ key ∈ keys, ∃ mask, pinMask key = some mask ∧ hasBit mask b = true)
    ∧ ∀ i key mask, keys[i]? = some key → pinMask key = some mask →
      (q.enabledPinFlag &&& mask ≠ 0 ↔ psBit bits i = true)

/-- References to one PIN have the same bit. -/
def Consistent (bits keys : List UInt8) : Prop :=
  ∀ i j key mask, keys[i]? = some key → keys[j]? = some key → pinMask key = some mask →
    psBit bits i = psBit bits j

/-- References leave a structure that says what they say just when they do not
contradict each other. -/
theorem statusOf_referAll {bits keys : List UInt8} :
    StatusOf bits keys (referAll bits 0 keys ⟨0, 0⟩) ↔ Consistent bits keys := by
  have hzero : ∀ b, hasBit 0 b = false := fun b => BitVec.getLsbD_zero
  constructor
  · rintro ⟨-, henabled⟩ i j key mask hi hj hmask
    exact Bool.eq_iff_iff.mpr ((henabled i key mask hi hmask).symm.trans
      (henabled j key mask hj hmask))
  intro hsame
  constructor
  · intro b
    rw [referAll_pinFlag, hzero]
    simp
  · intro i key mask hget hmask
    rw [and_ne_zero_iff]
    constructor
    · rintro ⟨b, henabled, hb⟩
      rw [referAll_enabled, hzero] at henabled
      rcases henabled with hfalse | ⟨j, key', hget', hbit, mask', hmask', hb'⟩
      · cases hfalse
      -- the reference that set the bit is one to the same PIN
      obtain rfl : key = key' :=
        pinMask_inj hmask hmask' ((and_ne_zero_iff mask mask').mpr ⟨b, hb, hb'⟩)
      rwa [hsame i j key mask hget hget' hmask, ← Nat.zero_add j]
    · intro hbit
      obtain ⟨b, hb⟩ := pinMask_hasBit hmask
      refine ⟨b, ?_, hb⟩
      rw [referAll_enabled]
      exact .inr ⟨i, key, hget, by rwa [Nat.zero_add], mask, hmask, hb⟩

/-- The template: a PS_DO with a bit for each reference, then qualifiers and
references. -/
structure PinTemplate (c6 ps : Tlv) (elements : List Tlv) : Prop where
  value : c6.value = tlvBytes (ps :: elements)
  psTag : ps.tag = 0x90
  psLength : ps.value.length = ((keyRefs elements).length + 7) / 8
  formed : ∀ t ∈ elements, PinFormed t

section Query

variable {mem : Nat → UInt8} {inPtr : Nat} {ts elements : List Tlv} {c6 ps : Tlv}
  (hbytes : BytesAt mem inPtr (tlvBytes ts)) (hlen : (tlvBytes ts).length < 256)
  (hc6 : ts.find? (·.tag == 0xC6) = some c6) (htemplate : PinTemplate c6 ps elements)
include hbytes hlen hc6 htemplate

/-- The query adds what the references say, up to the eighth. -/
theorem fcpPinStatusDoQuery_template (q : UsimPinStatus) :
    fcpPinStatusDoQuery mem inPtr (tlvBytes ts).length q
      = if (keyRefs elements).length ≤ 8 then
          .ok (true, referAll ps.value 0 (keyRefs elements) q)
        else .error .assertion := by
  rw [fcpPinStatusDoQuery, fcpQuery_elements hbytes hlen]
  rcases hitFrom_find? FcpTag.pinDo.value hbytes with ⟨-, hnone⟩ | ⟨t, out, hhit, hfind, hat⟩
  · rw [FcpTag.value, hc6] at hnone
    cases hnone
  rw [FcpTag.value, hc6] at hfind
  obtain rfl : c6 = t := by simpa using hfind
  have hsize : c6.lengthByte.toNat = (tlvBytes (ps :: elements)).length := by
    rw [c6.toNat_lengthByte, htemplate.value]
  have hsmall : (tlvBytes (ps :: elements)).length < 65536 := by
    have hshort := c6.short
    rw [htemplate.value] at hshort
    omega
  rw [htemplate.value] at hat
  obtain ⟨⟨htag, hlength, hbits⟩, hrest⟩ := bytesAt_tlvBytes_cons.mp hat
  rw [length_tlvBytes_cons] at hsize hsmall
  have hrounds := length_le_tlvBytes elements
  have hpsLength := htemplate.psLength
  obtain ⟨fuel, hfuel⟩ : ∃ n, c6.lengthByte.toNat = n + 1 := ⟨c6.lengthByte.toNat - 1, by omega⟩
  -- the first round keeps the place of the PS_DO
  have hfirst : pinLoop mem c6.lengthByte.toNat ⟨out, c6.lengthByte.toNat, none, 0, q⟩
      = pinLoop mem fuel ⟨out + (ps.value.length + 2), (tlvBytes elements).length,
          some (out + 2), 0, q⟩ := by
    rw [hfuel, pinLoop, if_neg (by simp), pinElement,
      show mem out = 0x90 from htag.trans htemplate.psTag, if_pos rfl, ← hfuel]
    show pinLoop mem fuel (pinNext mem _) = _
    rw [pinNext_element hlength hsize (show c6.lengthByte.toNat < 65536 by omega)]
  have hloop := pinLoop_elements htemplate.formed hrest (by omega) hbits (show 0 ≤ 8 by omega)
    (by omega) (show elements.length ≤ fuel by omega) q
  rw [hhit]
  show (pinLoop mem c6.lengthByte.toNat ⟨out, c6.lengthByte.toNat, none, 0, q⟩).map
    (fun s => (true, s.query)) = _
  rw [Nat.zero_add] at hloop
  have hmap : ∀ r : Except Stop PinLoop, r.map (fun s => (true, s.query))
      = (r.map PinLoop.query).map (Prod.mk true) := by rintro (_ | _) <;> rfl
  rw [hfirst, hmap, hloop]
  split <;> rfl

/-- The query on a cleared structure: at most eight references, and no PIN with
two different bits. -/
theorem fcp_pin_status_exact :
    (∃ q, fcpPinStatusDoQuery mem inPtr (tlvBytes ts).length ⟨0, 0⟩ = .ok (true, q)
        ∧ StatusOf ps.value (keyRefs elements) q)
      ↔ (keyRefs elements).length ≤ 8 ∧ Consistent ps.value (keyRefs elements) := by
  rw [fcpPinStatusDoQuery_template hbytes hlen hc6 htemplate]
  constructor
  · rintro ⟨q, hquery, hstatus⟩
    split at hquery
    next height =>
      cases hquery
      exact ⟨height, statusOf_referAll.mp hstatus⟩
    next => cases hquery
  · rintro ⟨height, hsame⟩
    exact ⟨_, if_pos height, statusOf_referAll.mpr hsame⟩

end Query

/-- The application PIN, enabled, and the second PIN, disabled, with a usage
qualifier. -/
def samplePinElements : List Tlv := [.of 0x83 [0x01], .of 0x95 [0x08], .of 0x83 [0x81]]

def samplePsDo : Tlv := .of 0x90 [0x80]

def samplePinTemplate : Tlv := .of 0xC6 (tlvBytes (samplePsDo :: samplePinElements))

theorem fcp_pin_status_exact_sample :
    ∃ q, fcpPinStatusDoQuery (memoryOf [samplePinTemplate]) 0 14 ⟨0, 0⟩ = .ok (true, q)
      ∧ StatusOf [0x80] [0x01, 0x81] q := by
  refine (@fcp_pin_status_exact (memoryOf [samplePinTemplate]) 0 [samplePinTemplate]
    samplePinElements samplePinTemplate samplePsDo (bytesAt_memoryOf _) (by decide) rfl
    ⟨rfl, rfl, rfl, by decide⟩).mpr ⟨by decide, ?_⟩
  intro i j key mask hi hj _
  obtain ⟨hlt, -⟩ := List.getElem?_eq_some_iff.mp hi
  rw [(List.getElem?_inj hlt (by decide)).mp (hi.trans hj.symm)]

/-- Nine references, the PINs of the eight applications and one more. -/
def ninePinElements : List Tlv :=
  [0x01, 0x02, 0x03, 0x04, 0x05, 0x06, 0x07, 0x08, 0x81].map fun key => .of 0x83 [key]

/-- At the ninth reference the query is an assertion. -/
theorem fcp_pin_status_ninth :
    ¬ ∀ (mem : Nat → UInt8) (inPtr : Nat) (ts elements : List Tlv) (c6 ps : Tlv),
      BytesAt mem inPtr (tlvBytes ts) → (tlvBytes ts).length < 256 →
      ts.find? (·.tag == 0xC6) = some c6 → PinTemplate c6 ps elements →
      (keyRefs elements).Nodup →
      ∃ q, fcpPinStatusDoQuery mem inPtr (tlvBytes ts).length ⟨0, 0⟩ = .ok (true, q)
        ∧ StatusOf ps.value (keyRefs elements) q := by
  intro h
  obtain ⟨q, hquery, -⟩ := h
    (memoryOf [.of 0xC6 (tlvBytes (.of 0x90 [0xff, 0x80] :: ninePinElements))]) 0 _
    ninePinElements _ (.of 0x90 [0xff, 0x80]) (bytesAt_memoryOf _) (by decide) rfl
    ⟨rfl, rfl, rfl, by decide⟩ (by decide)
  have hassert := hquery.symm.trans (show _ = Except.error .assertion by decide +kernel)
  cases hassert

end Arale.Ril.Fcp
