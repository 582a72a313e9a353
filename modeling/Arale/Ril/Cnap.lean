import Arale.At.Fields

/-!
# The name of a caller

A name comes with `+CNAP`, before the call is listed by `+CLCC` for the first
time. It waits in `cachedCnap` until an incoming or waiting call is listed, and is
then kept for the index of that call.

> `name_kept`: the name is reported with the call in every poll, if the call is
> incoming or waiting only in the first one.

While a call rings, each poll clears the name for its index and takes over what is
in `cachedCnap`. At the second poll nothing is there any more, and the name is lost:
`name_lost`.
-/

namespace Arale.Ril.Cnap

open Arale.At List
open Arale.Lib (digits)

/-! ## Model -/

/-- `MAX_GSMCALL_CONNECTIONS` -/
def maxGsmcallConnections : Nat := 7

/-- `MAX_CNAP_LENGTH` -/
def maxCnapLength : Nat := 81

inductive CallState where
  | active
  | holding
  | dialing
  | alerting
  | incoming
  | waiting
deriving DecidableEq

namespace CallState

def number : CallState → Nat
  | active => 0
  | holding => 1
  | dialing => 2
  | alerting => 3
  | incoming => 4
  | waiting => 5

/-- The states in which a name is taken over. -/
def ringing : CallState → Bool
  | incoming => true
  | waiting => true
  | _ => false

end CallState

/-- `clccStateToRILState` -/
def clccStateToRILState (state : Int) : Option CallState :=
  if state = 0 then some .active
  else if state = 1 then some .holding
  else if state = 2 then some .dialing
  else if state = 3 then some .alerting
  else if state = 4 then some .incoming
  else if state = 5 then some .waiting
  else none

structure RilCall where
  index : Int
  isMT : Bool
  state : CallState
  isVoice : Bool
  isMpty : Bool
  number : Option Line
  toa : Int
  name : Line
deriving DecidableEq

/-- The two arrays of names; an entry is a string, empty where there is none. -/
structure CnapCache where
  cachedCnap : Line
  cachedClccName : Nat → Line

/-- `clearCnap` -/
def clearCnap : CnapCache := ⟨[], fun _ => []⟩

/-- `onCnapNotification` -/
def onCnapNotification (s : Line) (cache : CnapCache) : CnapCache :=
  match atTokStart s with
  | none => cache
  | some line =>
    match atTokNextstr (some line) with
    | (none, _) => cache
    | (some name, rest) =>
      match atTokNextstr rest with
      | (none, _) => cache
      | (some _, _) => { cache with cachedCnap := name.take (maxCnapLength - 2) }

/-- An index that has an entry in `cachedClccName`. -/
def hasName (index : Int) : Prop := 1 ≤ index ∧ index ≤ maxGsmcallConnections

instance (index : Int) : Decidable (hasName index) := inferInstanceAs (Decidable (_ ∧ _))

/-- The name is taken over for a call that rings. -/
def cacheName (index : Int) (state : CallState) (cache : CnapCache) : CnapCache :=
  if state.ringing ∧ hasName index then
    if cache.cachedCnap ≠ [] then
      { cachedCnap := []
        cachedClccName := fun k =>
          if k = (index - 1).toNat then cache.cachedCnap else cache.cachedClccName k }
    else
      -- the name from an earlier poll goes even if there is no new one
      { cache with
        cachedClccName := fun k => if k = (index - 1).toNat then [] else cache.cachedClccName k }
  else cache

/-- The name of the call in the answer. -/
def nameOf (index : Int) (cache : CnapCache) : Line :=
  if hasName index then cache.cachedClccName (index - 1).toNat else []

/-- `at_tok_nextbool` -/
def atTokNextbool (cur : Option Line) : Option Bool × Option Line :=
  let r := atTokNextint cur
  (r.1.bind fun n => if n = 0 then some false else if n = 1 then some true else none, r.2)

/-- The fields of a line up to the state, and the rest. -/
structure ClccHead where
  index : Int
  isMT : Bool
  state : CallState
  rest : Option Line

def clccHead (line : Line) : Option ClccHead := do
  let cur ← atTokStart line
  let index := atTokNextint (some cur)
  let i ← index.1
  let isMT := atTokNextbool index.2
  let mt ← isMT.1
  let state := atTokNextint isMT.2
  let n ← state.1
  let s ← clccStateToRILState n
  return ⟨i, mt, s, state.2⟩

/-- The fields of an entry of `p_calls` that a line need not write. A line that is
not valid leaves them for the next one. -/
structure Slot where
  number : Option Line
  toa : Int

def emptySlot : Slot := ⟨none, 0⟩

/-- The characters of a number: `+*#0123456789` -/
def dialable (c : UInt8) : Bool := c == 43 || c == 42 || c == 35 || isdigit c

/-- The fields of a line behind the state: `isVoice` and `isMpty`, and `none` for a
line that is not valid. -/
def clccTail (rest : Option Line) (slot : Slot) : Slot × Option (Bool × Bool) :=
  let mode := atTokNextint rest
  match mode.1 with
  | none => (slot, none)
  | some m =>
    -- these are calls of IMS
    if 20 ≤ m then (slot, none)
    else
      let mpty := atTokNextbool mode.2
      match mpty.1 with
      | none => (slot, none)
      | some isMpty =>
        if atTokHasmore mpty.2 then
          let number := atTokNextstr mpty.2
          let toa := atTokNextint number.2
          match toa.1 with
          | some n => (⟨number.1.filter fun s => s.all dialable, n⟩, some (m == 0, isMpty))
          | none =>
            -- a field that is no number has been stored as 0
            (⟨number.1.filter fun s => s.all dialable, if number.2 = none then slot.toa else 0⟩,
              none)
        else (slot, some (m == 0, isMpty))

/-- `callFromCLCCLine`. The names are cached before the rest of the line is read. -/
def callFromCLCCLine (line : Line) (cache : CnapCache) (slot : Slot) :
    CnapCache × Slot × Option RilCall :=
  match clccHead line with
  | none => (cache, slot, none)
  | some h =>
    let cache := cacheName h.index h.state cache
    let tail := clccTail h.rest slot
    (cache, tail.1, tail.2.map fun flags =>
      { index := h.index
        isMT := h.isMT
        state := h.state
        isVoice := flags.1
        isMpty := flags.2
        number := tail.1.number
        toa := tail.1.toa
        name := nameOf h.index cache })

/-- The loop over the lines. -/
def pollLoop : List Line → CnapCache → Slot → CnapCache × List RilCall
  | [], cache, _ => (cache, [])
  | line :: lines, cache, slot =>
    let r := callFromCLCCLine line cache slot
    match r.2.2 with
    | some call => ((pollLoop lines r.1 emptySlot).1, call :: (pollLoop lines r.1 emptySlot).2)
    -- the entry is used again for the next line
    | none => pollLoop lines r.1 r.2.1

/-- `requestGetCurrentCalls`, with `none` for a command that failed -/
def requestGetCurrentCalls (response : Option (List Line)) (cache : CnapCache) :
    CnapCache × Option (List RilCall) :=
  match response with
  | none => (clearCnap, none)
  | some lines =>
    let r := pollLoop lines cache emptySlot
    -- the last call has ended
    (if r.2 = [] then clearCnap else r.1, some r.2)

inductive Event where
  | cnap (s : Line)
  | poll (response : Option (List Line))

/-- The answers to the polls. -/
def answers : List Event → CnapCache → List (Option (List RilCall))
  | [], _ => []
  | .cnap s :: events, cache => answers events (onCnapNotification s cache)
  | .poll response :: events, cache =>
    (requestGetCurrentCalls response cache).2 :: answers events
      (requestGetCurrentCalls response cache).1

/-! ## Lines -/

/-- A call that is listed. -/
structure ClccCall where
  index : Nat
  isMT : Bool
  state : CallState
  mode : Nat
  isMpty : Bool
  /-- the number and its type -/
  number : Option ({ text : Line // 34 ∉ text } × Nat)
  index_range : 1 ≤ index ∧ index ≤ maxGsmcallConnections

namespace ClccCall

def bit (b : Bool) : Nat := if b then 1 else 0

def numberText : Option ({ text : Line // 34 ∉ text } × Nat) → Line
  | none => []
  | some (number, toa) => 44 :: 34 :: (number.val ++ 34 :: 44 :: digits toa)

/-- The text behind the state. -/
def tailText (c : ClccCall) : Line :=
  digits c.mode ++ 44 :: (digits (bit c.isMpty) ++ numberText c.number)

def text (c : ClccCall) : Line :=
  bytes "+CLCC: " ++
    (digits c.index ++ 44 :: (digits (bit c.isMT) ++ 44 ::
      (digits c.state.number ++ 44 :: c.tailText)))

end ClccCall

/-- The notification of a name. -/
def cnapText (name : Line) (validity : Nat) : Line :=
  bytes "+CNAP: " ++ 34 :: (name ++ 34 :: 44 :: digits validity)

/-! ## One line -/

section Line

theorem nextbool_bit {blanks : Line} (hblanks : ∀ c ∈ blanks, isspace c = true) (b : Bool)
    (rest : Line) :
    atTokNextbool (some (blanks ++ digits (ClccCall.bit b) ++ 44 :: rest))
      = (some b, some rest) := by
  rw [atTokNextbool, atTokNextint_digits hblanks]
  cases b <;> rfl

theorem clccState_number (state : CallState) :
    clccStateToRILState (min (2 ^ 31 - 1) (state.number : Int)) = some state := by
  cases state <;> rfl

theorem clccHead_text (c : ClccCall) :
    clccHead c.text = some ⟨c.index, c.isMT, c.state, some c.tailText⟩ := by
  have hsmall : min (2 ^ 31 - 1) (c.index : Int) = c.index := by
    have hrange := c.index_range.2
    rw [maxGsmcallConnections] at hrange
    omega
  have hstart : atTokStart c.text
      = some ([32] ++ digits c.index ++ 44 :: (digits (ClccCall.bit c.isMT) ++
      44 :: (digits c.state.number ++ 44 :: c.tailText))) := rfl
  have hindex := atTokNextint_digits isspace_blank c.index
    (digits (ClccCall.bit c.isMT) ++ 44 :: (digits c.state.number ++ 44 :: c.tailText))
  have hmt := nextbool_bit (forall_mem_nil _) c.isMT (digits c.state.number ++ 44 :: c.tailText)
  have hstate := atTokNextint_digits (forall_mem_nil _) c.state.number c.tailText
  rw [nil_append] at hmt hstate
  simp only [clccHead, hstart, Option.bind_eq_bind, Option.bind_some, hindex, hmt, hstate,
    clccState_number, hsmall]
  rfl

/-- A line with a small mode is valid to its end. -/
theorem clccTail_text {c : ClccCall} (hmode : c.mode < 20) (slot : Slot) :
    ∃ slot' flags, clccTail (some c.tailText) slot = (slot', some flags) := by
  have hmode' := atTokNextint_digits (forall_mem_nil _) c.mode
    (digits (ClccCall.bit c.isMpty) ++ ClccCall.numberText c.number)
  have hsmall : ¬ 20 ≤ min (2 ^ 31 - 1) (c.mode : Int) := by omega
  rw [nil_append] at hmode'
  unfold clccTail ClccCall.tailText
  rw [hmode']
  cases c.number with
  | none =>
    have hmpty : atTokNextbool (some (digits (ClccCall.bit c.isMpty) ++ ClccCall.numberText none)) =
        (some c.isMpty, none) := by
      cases c.isMpty <;> rfl
    simp only [if_neg hsmall, hmpty]
    exact ⟨_, _, rfl⟩
  | some value =>
    obtain ⟨text, toa⟩ := value
    have hmpty := nextbool_bit (forall_mem_nil _) c.isMpty
      (34 :: (text.val ++ 34 :: 44 :: digits toa))
    have hnumber := nextTok_quoted_field (forall_mem_nil _) text.property (digits toa)
    rw [nil_append] at hmpty hnumber
    have htext : digits (ClccCall.bit c.isMpty) ++ ClccCall.numberText (some (text, toa)) =
        digits (ClccCall.bit c.isMpty) ++ 44 :: 34 :: (text.val ++ 34 :: 44 :: digits toa) := rfl
    simp only [if_neg hsmall, htext, hmpty, atTokNextstr, hnumber, atTokNextint_last]
    exact ⟨_, _, rfl⟩

end Line

/-! ## The calls of a poll -/

section Poll

/-- What a line does to the names, and the call for it. -/
theorem callFromCLCCLine_text (c : ClccCall) (cache : CnapCache) (slot : Slot) :
    ∃ slot' call, callFromCLCCLine c.text cache slot
      = (cacheName c.index c.state cache, slot', call) ∧
      (∀ v ∈ call, v.index = c.index ∧ v.name = nameOf c.index (cacheName c.index c.state cache)) ∧
      (c.mode < 20 → call ≠ none) := by
  rw [callFromCLCCLine, clccHead_text]
  refine ⟨_, _, rfl, ?_, ?_⟩
  · intro call hcall
    obtain ⟨flags, -, rfl⟩ := Option.map_eq_some_iff.mp hcall
    exact ⟨rfl, rfl⟩
  · intro hmode
    obtain ⟨slot', flags, hvalid⟩ := clccTail_text hmode slot
    simp only [hvalid, Option.map_some]
    exact Option.some_ne_none _

/-- The same for the loop over the lines. -/
theorem pollLoop_cons (c : ClccCall) (lines : List Line) (cache : CnapCache) (slot : Slot) :
    ∃ slot' reported,
      pollLoop (c.text :: lines) cache slot =
          ((pollLoop lines (cacheName c.index c.state cache) slot').1,
            reported ++ (pollLoop lines (cacheName c.index c.state cache) slot').2) ∧
        (∀ call ∈ reported,
          call.index = c.index ∧ call.name = nameOf c.index (cacheName c.index c.state cache)) ∧
        (c.mode < 20 → ∃ call ∈ reported, call.index = c.index) := by
  obtain ⟨slot', call, hline, hcall, hvalid⟩ := callFromCLCCLine_text c cache slot
  rw [pollLoop, hline]
  cases call with
  | none => exact ⟨slot', [], rfl, forall_mem_nil _, fun hmode => absurd rfl (hvalid hmode)⟩
  | some call =>
    refine ⟨emptySlot, [call], rfl, ?_, ?_⟩
    · intro v hv
      rw [mem_singleton.mp hv]
      exact hcall call rfl
    · intro _
      exact ⟨call, mem_cons_self, (hcall call rfl).1⟩

variable {i : Nat} {name : Line} {cache : CnapCache} {c : ClccCall} {calls : List ClccCall}

/-- The name is kept for the index, and reported with the calls that have it. -/
structure Reports (i : Nat) (name : Line) (r : CnapCache × List RilCall) : Prop where
  kept : r.1.cachedClccName (i - 1) = name
  reported : ∀ call ∈ r.2, call.index = i → call.name = name

theorem hasName_index (c : ClccCall) : hasName c.index := by
  obtain ⟨hlow, hhigh⟩ := c.index_range
  exact ⟨Int.ofNat_le.mpr hlow, Int.ofNat_le.mpr hhigh⟩

theorem nameOf_index (c : ClccCall) (cache : CnapCache) :
    nameOf c.index cache = cache.cachedClccName (c.index - 1) := by
  have hslot : ((c.index : Int) - 1).toNat = c.index - 1 := by omega
  rw [nameOf, if_pos (hasName_index c), hslot]

theorem cacheName_quiet (h : c.state.ringing = false) (cache : CnapCache) :
    cacheName c.index c.state cache = cache := by
  apply if_neg
  rw [h]
  exact fun hringing => Bool.false_ne_true hringing.1

/-- A line does not touch the name for another index, and for the same one only if the
call rings. -/
theorem cacheName_other (hi : 1 ≤ i) (h : c.index = i → c.state.ringing = false)
    (cache : CnapCache) :
    (cacheName c.index c.state cache).cachedClccName (i - 1) = cache.cachedClccName (i - 1) := by
  by_cases hindex : c.index = i
  · rw [cacheName_quiet (h hindex)]
  · have hlow := c.index_range.1
    have hne : ¬ i - 1 = ((c.index : Int) - 1).toNat := by omega
    unfold cacheName
    split
    · split
      · exact if_neg hne
      · exact if_neg hne
    · rfl

/-- The name is moved to the index of a call that rings. -/
theorem cacheName_ringing (h : c.state.ringing = true) (hname : cache.cachedCnap ≠ []) :
    (cacheName c.index c.state cache).cachedClccName (c.index - 1) = cache.cachedCnap := by
  have hslot : c.index - 1 = ((c.index : Int) - 1).toNat := by omega
  rw [cacheName, if_pos ⟨h, hasName_index c⟩, if_pos hname]
  exact if_pos hslot

/-- The calls of a poll in which the call does not ring. -/
theorem pollLoop_quiet (hi : 1 ≤ i) {calls : List ClccCall}
    (hquiet : ∀ c ∈ calls, c.index = i → c.state.ringing = false) {cache : CnapCache}
    (hkept : cache.cachedClccName (i - 1) = name) (slot : Slot) :
    Reports i name (pollLoop (calls.map ClccCall.text) cache slot) := by
  induction calls generalizing cache slot with
  | nil => exact ⟨hkept, forall_mem_nil _⟩
  | cons c calls ih =>
    obtain ⟨hc, hquiet⟩ := forall_mem_cons.mp hquiet
    obtain ⟨slot', reported, hloop, hreported, -⟩ :=
      pollLoop_cons c (calls.map ClccCall.text) cache slot
    have hkept' := cacheName_other hi hc cache
    rw [hkept] at hkept'
    have hrest := ih hquiet hkept' slot'
    rw [map_cons, hloop]
    refine ⟨hrest.kept, ?_⟩
    intro call hcall hindex
    obtain hfirst | hlater := mem_append.mp hcall
    · obtain ⟨hcindex, hcname⟩ := hreported call hfirst
      have hsame : c.index = i := Int.ofNat_inj.mp (hcindex.symm.trans hindex)
      rw [hcname, nameOf_index, hsame]
      exact hsame ▸ hkept'
    · exact hrest.reported call hlater hindex

/-- The poll in which the call is listed first. No other call rings. -/
theorem pollLoop_first {first : ClccCall} (hfirst : first.state.ringing = true)
    {before after : List ClccCall}
    (hothers : ∀ c ∈ before ++ after, c.state.ringing = false ∧ c.index ≠ first.index)
    (hname : cache.cachedCnap ≠ []) (slot : Slot) :
    Reports first.index cache.cachedCnap
      (pollLoop ((before ++ first :: after).map ClccCall.text) cache slot) := by
  have hlow := first.index_range.1
  induction before generalizing slot with
  | nil =>
    obtain ⟨slot', reported, hloop, hreported, -⟩ :=
      pollLoop_cons first (after.map ClccCall.text) cache slot
    have hkept := cacheName_ringing hfirst hname
    have hrest := pollLoop_quiet hlow (fun c hc _ => (hothers c hc).1) hkept slot'
    rw [nil_append, map_cons, hloop]
    refine ⟨hrest.kept, ?_⟩
    intro call hcall hindex
    obtain hnow | hlater := mem_append.mp hcall
    · rw [(hreported call hnow).2, nameOf_index, hkept]
    · exact hrest.reported call hlater hindex
  | cons c before ih =>
    obtain ⟨⟨hquiet, hother⟩, hothers⟩ := forall_mem_cons.mp hothers
    obtain ⟨slot', reported, hloop, hreported, -⟩ :=
      pollLoop_cons c ((before ++ first :: after).map ClccCall.text) cache slot
    rw [cacheName_quiet hquiet] at hloop
    have hrest := ih hothers slot'
    rw [cons_append, map_cons, hloop]
    refine ⟨hrest.kept, ?_⟩
    intro call hcall hindex
    obtain hnow | hlater := mem_append.mp hcall
    · exact absurd (Int.ofNat_inj.mp ((hreported call hnow).1.symm.trans hindex)) hother
    · exact hrest.reported call hlater hindex

/-- A call with a small mode is in the answer. -/
theorem pollLoop_listed (hc : c ∈ calls) (hmode : c.mode < 20)
    (cache : CnapCache) (slot : Slot) :
    ∃ call ∈ (pollLoop (calls.map ClccCall.text) cache slot).2, call.index = c.index := by
  induction calls generalizing cache slot with
  | nil => cases hc
  | cons d calls ih =>
    obtain ⟨slot', reported, hloop, -, hlisted⟩ :=
      pollLoop_cons d (calls.map ClccCall.text) cache slot
    rw [map_cons, hloop]
    obtain rfl | hmem := mem_cons.mp hc
    · obtain ⟨call, hcall, hindex⟩ := hlisted hmode
      exact ⟨call, mem_append_left _ hcall, hindex⟩
    · obtain ⟨call, hcall, hindex⟩ := ih hmem _ slot'
      exact ⟨call, mem_append_right _ hcall, hindex⟩

end Poll

/-! ## Polls one after the other -/

section Polls

variable {i : Nat} {name : Line} {cache : CnapCache} {c : ClccCall} {calls : List ClccCall}

/-- The answer to a poll has the call, with the name. -/
def Named (i : Nat) (name : Line) (answer : Option (List RilCall)) : Prop :=
  ∃ calls, answer = some calls ∧ (∃ call ∈ calls, call.index = i) ∧
    ∀ call ∈ calls, call.index = i → call.name = name

/-- A poll with the call does not clear the names. -/
theorem poll_named (hc : c ∈ calls) (hindex : c.index = i)
    (hmode : c.mode < 20)
    (hreports : Reports i name (pollLoop (calls.map ClccCall.text) cache emptySlot)) :
    Named i name (requestGetCurrentCalls (some (calls.map ClccCall.text)) cache).2 ∧
      (requestGetCurrentCalls (some (calls.map ClccCall.text)) cache).1.cachedClccName (i - 1)
        = name := by
  obtain ⟨call, hcall, hcallIndex⟩ := pollLoop_listed hc hmode cache emptySlot
  have hne : (pollLoop (calls.map ClccCall.text) cache emptySlot).2 ≠ [] := ne_nil_of_mem hcall
  rw [hindex] at hcallIndex
  refine ⟨⟨_, rfl, ⟨call, hcall, hcallIndex⟩, hreports.reported⟩, ?_⟩
  show (if (pollLoop _ _ _).2 = [] then _ else _ : CnapCache).cachedClccName (i - 1) = name
  rw [if_neg hne]
  exact hreports.kept

/-- What happens after the first poll. -/
inductive Later where
  | cnap (s : Line)
  | poll (calls : List ClccCall)

def Later.event : Later → Event
  | cnap s => .cnap s
  | poll calls => .poll (some (calls.map ClccCall.text))

/-- The call is listed and does not ring any more. -/
def Later.Answered (i : Nat) : Later → Prop
  | cnap _ => True
  | poll calls =>
    (∃ c ∈ calls, c.index = i ∧ c.mode < 20) ∧ ∀ c ∈ calls, c.index = i → c.state.ringing = false

/-- A notification only changes the name that waits. -/
theorem onCnapNotification_names (s : Line) (cache : CnapCache) :
    (onCnapNotification s cache).cachedClccName = cache.cachedClccName := by
  unfold onCnapNotification
  split
  · rfl
  · split
    · rfl
    · split <;> rfl

theorem answers_later (hi : 1 ≤ i) {later : List Later} (hlater : ∀ e ∈ later, e.Answered i)
    {cache : CnapCache} (hkept : cache.cachedClccName (i - 1) = name) :
    ∀ answer ∈ answers (later.map Later.event) cache, Named i name answer := by
  induction later generalizing cache with
  | nil => exact forall_mem_nil _
  | cons e later ih =>
    obtain ⟨he, hrest⟩ := forall_mem_cons.mp hlater
    cases e with
    | cnap s =>
      apply ih hrest
      rw [onCnapNotification_names]
      exact hkept
    | poll calls =>
      obtain ⟨⟨c, hc, hindex, hmode⟩, hquiet⟩ := he
      obtain ⟨hnamed, hkept'⟩ :=
        poll_named hc hindex hmode (pollLoop_quiet hi hquiet hkept emptySlot)
      intro answer hanswer
      obtain rfl | hafter := mem_cons.mp hanswer
      · exact hnamed
      · exact ih hrest hkept' answer hafter

/-- The name of a notification waits for the next call that rings. -/
theorem onCnapNotification_text (hquote : 34 ∉ name) (hlength : name.length ≤ 79) (validity : Nat)
    (cache : CnapCache) :
    onCnapNotification (cnapText name validity) cache = { cache with cachedCnap := name } := by
  have hstart : atTokStart (cnapText name validity) =
      some ([32] ++ 34 :: (name ++ 34 :: 44 :: digits validity)) := rfl
  obtain ⟨b, field, heq, hspace, hfield, hcomma⟩ := digits_cons validity
  have hvalidity := nextTok_last (forall_mem_nil _) hspace hfield hcomma
  rw [nil_append, ← heq] at hvalidity
  have htake : name.take (maxCnapLength - 2) = name := take_of_length_le hlength
  simp only [onCnapNotification, hstart, atTokNextstr, nextTok_quoted_field isspace_blank hquote,
    hvalidity, htake]

/-- A name is reported in every poll if the call rings in the first one only, as the
only one there, and the name fits. -/
theorem name_kept (hname : name ≠ []) (hquote : 34 ∉ name) (hlength : name.length ≤ 79)
    (validity : Nat)
    {first : ClccCall} (hfirst : first.state.ringing = true) (hmode : first.mode < 20)
    {before after : List ClccCall}
    (hothers : ∀ c ∈ before ++ after, c.state.ringing = false ∧ c.index ≠ first.index)
    {later : List Later} (hlater : ∀ e ∈ later, e.Answered first.index) (cache : CnapCache) :
    ∀ answer ∈ answers (.cnap (cnapText name validity) ::
        .poll (some ((before ++ first :: after).map ClccCall.text)) :: later.map Later.event) cache,
      Named first.index name answer := by
  have hcnap := onCnapNotification_text hquote hlength validity cache
  have hlisted : first ∈ before ++ first :: after := mem_append_right _ mem_cons_self
  have hreports : Reports first.index name (pollLoop ((before ++ first :: after).map ClccCall.text)
      (onCnapNotification (cnapText name validity) cache) emptySlot) := by
    rw [hcnap]
    exact @pollLoop_first { cache with cachedCnap := name } first hfirst before after hothers
      hname emptySlot
  obtain ⟨hnamed, hkept⟩ := poll_named hlisted rfl hmode hreports
  intro answer hanswer
  obtain rfl | hrest := mem_cons.mp hanswer
  · exact hnamed
  · exact answers_later first.index_range.1 hlater hkept answer hrest

end Polls

/-! ## A call that rings for two polls -/

theorem sample_range : 1 ≤ 1 ∧ 1 ≤ maxGsmcallConnections := ⟨by decide, by decide⟩

def sampleCall (state : CallState) : ClccCall := ⟨1, true, state, 0, false, none, sample_range⟩

theorem name_kept_sample :
    (answers (.cnap (cnapText (bytes "Ann") 0) ::
        .poll (some (([] ++ sampleCall .incoming :: []).map ClccCall.text)) ::
          [Later.poll [sampleCall .active]].map Later.event) clearCnap).length = 2 ∧
      ∀ answer ∈ answers (.cnap (cnapText (bytes "Ann") 0) ::
          .poll (some (([] ++ sampleCall .incoming :: []).map ClccCall.text)) ::
            [Later.poll [sampleCall .active]].map Later.event) clearCnap,
        Named 1 (bytes "Ann") answer := by
  refine ⟨rfl, @name_kept (bytes "Ann") (cons_ne_nil _ _) (by decide) (by decide) 0
    (sampleCall .incoming) rfl (by decide) [] [] ?_ [.poll [sampleCall .active]] ?_ clearCnap⟩
  · exact forall_mem_nil _
  · intro e he
    rw [mem_singleton.mp he]
    refine ⟨⟨sampleCall .active, mem_cons_self, rfl, by decide⟩, ?_⟩
    intro c hc _
    rw [mem_singleton.mp hc]
    rfl

/-- The second of two polls of a ringing call has no name. -/
theorem name_lost :
    (answers [.cnap (bytes "+CNAP: \"Ann\",0"), .poll (some [bytes "+CLCC: 1,1,4,0,0"]),
        .poll (some [bytes "+CLCC: 1,1,4,0,0"])] clearCnap).map
          (fun answer => answer.map fun calls => calls.map fun call => (call.index, call.name)) =
      [some [(1, bytes "Ann")], some [(1, [])]] := by
  decide +kernel

end Arale.Ril.Cnap
