import Arale.At.Fields
import Arale.C2k.Hex

/-!
# IPv6 addresses of a data call

The modem writes the octets of an address in decimal with points between them, 16
of them for IPv6. `convertIpv6Address` makes hex groups of them. Texts are written
with their NUL into an array of a fixed size, and a write outside is `none`.

> `ipv6_text`: an IPv6 address is told from its length, and is written as its
> groups.
-/

namespace Arale.C2k

open Arale.At (Line bytes strtol strtol_digits)
open Arale.Lib List

/-- `IPV4`, `IPV6` and `IPV4V6` -/
inductive AddressType where
  | ipv4 | ipv6 | ipv4v6
deriving DecidableEq, Repr

def maxIpv4AddressLength : Nat := 17
def maxIpv6AddressLength : Nat := 65

def getPdnAddressType (addr : Line) : AddressType :=
  if maxIpv6AddressLength ≤ addr.length then .ipv4v6
  else if maxIpv4AddressLength ≤ addr.length then .ipv6
  else .ipv4

/-- What `strtok` returns, call after call, with a point as the delimiter. -/
def strtokAll (text : Line) : List Line := (text.splitOn 46).filter (· ≠ [])

def atoi (text : Line) : Int := (strtol text).getD 0

/-- `%02X`, or `%02x` -/
def printHex (upper : Bool) (value : Int) : Line :=
  ((Nat.toDigits 16 (value % 2 ^ 32).toNat).leftpad 2 '0').map fun c =>
    UInt8.ofNat (if upper then c.toUpper else c).toNat

/-- `strcpy` or `sprintf` into an array of `size` bytes. -/
def putText (size : Nat) (text : Line) : Option Line :=
  if text.length < size then some text else none

/-- The second loop of `convertIpv6Address`, and what follows it. The return value
comes with the text. -/
def convertLoop (size : Nat) : List Line → Line → Option (Int × Line)
  | [], ipv6Addr => if ipv6Addr = [] then none else some (0, ipv6Addr.dropLast)
  | [p], ipv6Addr => do
    let ipv6Addr ← putText size (ipv6Addr ++ printHex true (atoi p))
    return (-1, ipv6Addr)
  | p :: q :: rest, ipv6Addr => do
    let ipv6Addr ← putText size (ipv6Addr ++ printHex true (atoi p))
    let ipv6Addr ← putText size (ipv6Addr ++ (printHex false (atoi q) ++ [58]))
    convertLoop size rest ipv6Addr

def ipv6Prefix : Line := bytes "FE80:0000:0000:0000:"

def convertIpv6Address (size : Nat) (pdpAddr : Line) (isLinkLocal : Int) : Option (Int × Line) := do
  let ipv6Addr ← putText size (if isLinkLocal = 1 then ipv6Prefix else [])
  convertLoop size ((strtokAll pdpAddr).drop (if isLinkLocal = 1 then 8 else 0)) ipv6Addr

/-- Octets in decimal without leading zeros, as the modem sends them. -/
def dotted (octets : List UInt8) : Line := [46].intercalate (octets.map fun b => digits b.toNat)

/-- Groups of four hex digits with colons between them. -/
def IsGroups (count : Nat) (octets : List UInt8) (text : Line) : Prop :=
  ∃ groups : List Line, text = [58].intercalate groups ∧ groups.length = count
    ∧ (∀ g ∈ groups, g.length = 4 ∧ ∀ c ∈ g, convertNum c < 16)
    ∧ convertPairs groups.flatten = octets

section Octets

variable {octets : List UInt8} {size : Nat}

theorem length_dotted (h : octets ≠ []) :
    2 * octets.length ≤ (dotted octets).length + 1
      ∧ (dotted octets).length + 1 ≤ 4 * octets.length := by
  induction octets with
  | nil => exact absurd rfl h
  | cons b octets ih =>
    have hsome : 1 ≤ (digits b.toNat).length := length_pos_iff.mpr (digits_ne_nil _)
    have hfew : (digits b.toNat).length ≤ 3 :=
      (length_digits_le (by decide)).mpr (Nat.lt_trans b.toNat_lt (by decide))
    rcases octets with - | ⟨next, rest⟩
    · rw [dotted, map_singleton, intercalate_singleton, length_singleton]
      omega
    · have hrest := ih (cons_ne_nil _ _)
      have hcons : dotted (b :: next :: rest) = digits b.toNat ++ [46] ++ dotted (next :: rest) :=
        intercalate_cons_cons
      rw [hcons, length_append, length_append, length_singleton, length_cons]
      omega

theorem strtokAll_dotted (h : octets ≠ []) :
    strtokAll (dotted octets) = octets.map fun b => digits b.toNat := by
  unfold strtokAll dotted
  rw [splitOn_intercalate]
  · rw [filter_eq_self]
    intro text htext
    obtain ⟨b, -, rfl⟩ := mem_map.mp htext
    exact decide_eq_true (digits_ne_nil _)
  · intro text htext hpoint
    obtain ⟨b, -, rfl⟩ := mem_map.mp htext
    exact absurd (digits_range hpoint).1 (by decide)
  · intro hnil
    exact h (map_eq_nil_iff.mp hnil)

/-- An octet has two digits, and they are read as that octet. -/
theorem printHex_octet (upper : Bool) (b : UInt8) :
    ∃ high low, printHex upper (atoi (digits b.toNat)) = [high, low]
      ∧ convertNum high < 16 ∧ convertNum low < 16
      ∧ convertNum high <<< 4 ||| convertNum low = b := by
  have hall : ∀ (upper : Bool) (n : Fin 256),
      let text := printHex upper n.val
      let high := text.getD 0 0
      let low := text.getD 1 0
      text = [high, low] ∧ convertNum high < 16 ∧ convertNum low < 16
        ∧ convertNum high <<< 4 ||| convertNum low = UInt8.ofFin n := by decide +kernel
  have hb := b.toNat_lt
  have hatoi : atoi (digits b.toNat) = b.toNat := by
    unfold atoi
    rw [strtol_digits]
    show min _ _ = _
    omega
  rw [hatoi]
  exact ⟨_, _, hall upper b.toFin⟩

/-- One pass of the loop writes a group. -/
theorem convertLoop_pair (a b : UInt8) :
    ∃ group : Line, (group.length = 4 ∧ ∀ c ∈ group, convertNum c < 16)
      ∧ (∀ more, convertPairs (group ++ more) = a :: b :: convertPairs more)
      ∧ ∀ (rest : List Line) (ipv6Addr : Line), ipv6Addr.length + 5 < size →
        convertLoop size (digits a.toNat :: digits b.toNat :: rest) ipv6Addr
          = convertLoop size rest (ipv6Addr ++ group ++ [58]) := by
  obtain ⟨a₁, a₂, hprintA, ha₁, ha₂, ha⟩ := printHex_octet true a
  obtain ⟨b₁, b₂, hprintB, hb₁, hb₂, hb⟩ := printHex_octet false b
  refine ⟨[a₁, a₂, b₁, b₂], by simp [ha₁, ha₂, hb₁, hb₂], ?_, ?_⟩
  · intro more
    simp only [cons_append, nil_append, convertPairs, ha, hb]
  · intro rest ipv6Addr hroom
    have hput : ∀ text : Line, text.length ≤ 5 →
        putText size (ipv6Addr ++ text) = some (ipv6Addr ++ text) := by
      intro text htext
      refine if_pos ?_
      rw [length_append]
      omega
    simp only [convertLoop.eq_3, hprintA, hprintB, hput [a₁, a₂] (by simp), Option.bind_eq_bind,
      Option.bind_some, append_assoc, cons_append, nil_append,
      hput [a₁, a₂, b₁, b₂, 58] (by simp)]

/-- The loop over the texts of octets. -/
theorem convertLoop_octets {count : Nat} (hcount : octets.length = 2 * (count + 1))
    {ipv6Addr : Line} (hroom : ipv6Addr.length + 5 * (count + 1) < size) :
    ∃ text, convertLoop size (octets.map fun b => digits b.toNat) ipv6Addr
        = some (0, ipv6Addr ++ text) ∧ IsGroups (count + 1) octets text := by
  induction count generalizing octets ipv6Addr with
  | zero =>
    obtain ⟨a, b, rfl⟩ := length_eq_two.mp hcount
    obtain ⟨group, hgroup, hvalue, hloop⟩ := @convertLoop_pair size a b
    refine ⟨group, ?_, [group], intercalate_singleton.symm, rfl, by simpa using hgroup, ?_⟩
    · rw [map_cons, map_singleton, hloop [] ipv6Addr hroom, convertLoop,
        if_neg (concat_ne_nil _ _), dropLast_concat]
    · simpa [convertPairs] using hvalue []
  | succ count ih =>
    rcases octets with - | ⟨a, - | ⟨b, rest⟩⟩
    · cases hcount
    · cases hcount
    · obtain ⟨group, hgroup, hvalue, hloop⟩ := @convertLoop_pair size a b
      have hshort : rest.length = 2 * (count + 1) := by
        rw [length_cons, length_cons] at hcount
        omega
      have hrest : (ipv6Addr ++ group ++ [58]).length + 5 * (count + 1) < size := by
        rw [length_append, length_append, length_singleton, hgroup.1]
        omega
      obtain ⟨text, htext, groups, rfl, hlength, hdigits, hoctets⟩ :=
        ih hshort hrest
      refine ⟨group ++ [58] ++ [58].intercalate groups, ?_, group :: groups, ?_,
        congrArg (· + 1) hlength, forall_mem_cons.mpr ⟨hgroup, hdigits⟩, ?_⟩
      · rw [map_cons, map_cons, hloop _ _ (by omega), htext]
        simp only [append_assoc]
      · rcases groups with - | ⟨next, groups⟩
        · cases hlength
        · exact intercalate_cons_cons.symm
      · rw [flatten_cons, hvalue, hoctets]

end Octets

/-- The address of a PDN, and that of a link. -/
theorem ipv6_text (octets : Fin 16 → UInt8) (quad : Fin 4 → UInt8) :
    getPdnAddressType (dotted (ofFn octets)) = .ipv6
    ∧ getPdnAddressType (dotted (ofFn quad)) = .ipv4
    ∧ (∃ text, convertIpv6Address maxIpv6AddressLength (dotted (ofFn octets)) 0 = some (0, text)
      ∧ IsGroups 8 (ofFn octets) text)
    ∧ ∃ text, convertIpv6Address maxIpv6AddressLength (dotted (ofFn octets)) 1
        = some (0, ipv6Prefix ++ text) ∧ IsGroups 4 ((ofFn octets).drop 8) text := by
  have hoctets : (ofFn octets).length = 16 := length_ofFn
  have hquad : (ofFn quad).length = 4 := length_ofFn
  have hsome : ofFn octets ≠ [] := ne_nil_of_length_pos (by omega)
  have hlength := length_dotted hsome
  have hquadLength := length_dotted (ne_nil_of_length_pos (l := ofFn quad) (by omega))
  have htokens := strtokAll_dotted hsome
  refine ⟨?_, ?_, ?_, ?_⟩
  · rw [getPdnAddressType, maxIpv6AddressLength, maxIpv4AddressLength, if_neg (by omega),
      if_pos (by omega)]
  · rw [getPdnAddressType, maxIpv6AddressLength, maxIpv4AddressLength, if_neg (by omega),
      if_neg (by omega)]
  · rw [convertIpv6Address, htokens]
    exact @convertLoop_octets _ maxIpv6AddressLength 7 hoctets [] (by decide)
  · rw [convertIpv6Address, htokens, if_pos rfl, if_pos rfl, ← map_drop]
    exact @convertLoop_octets _ maxIpv6AddressLength 3 (by rw [length_drop]; omega) ipv6Prefix
      (by decide)

end Arale.C2k
