import Arale.Lib.Pool
import Arale.Lib.Trace
import Arale.Immvibe.Protocol

/-!
# The stored force as one register

The force of the vibrator is a property. Older versions kept it in a file, so a
reader that finds the file takes the force from there, writes it to the property
and removes the file; a reader that does not find it reads the property. A
writer only writes the property.

The calls of all threads are one list, and a label moves one of them by one
operation on the file or the property, so that a run is an interleaving of those
operations. A call that starts is put at the end of the list.

> `get_latest_force`: after a set call with a force has returned, and until
> another one starts, every get call returns that force.

This holds for a set call that writes when the old file is gone and nobody is
moving its content to the property. Otherwise the old force comes back:
`legacy_force_back` is one set call and a get call after it.
-/

namespace Arale.Immvibe

open List
open At (isspace isdigit decimal)
open Lib (Run anyStep)

/-! ## `api.c` -/

/-- `DEFAULT_FORCE` -/
def defaultForce : UInt8 := 32

/-- The number at the beginning of a text, as `%u` finds it. -/
def scanNumber (s : Bytes) : Option Int :=
  let cur := s.dropWhile isspace
  let negative := cur.head? == some 45
  let digits := (if negative || cur.head? == some 43 then cur.drop 1 else cur).takeWhile isdigit
  if digits = [] then none else some (if negative then -decimal digits else decimal digits)

/-- `property_get_int32` is from libcutils. It gets the property and a default, and
may be any function that reads back the text of a force. -/
structure Libcutils where
  propertyGetInt32 : Option Bytes → Int → Int
  reads_force : ∀ (force : UInt8) (default : Int),
    UInt8.ofInt (propertyGetInt32 (some (Lib.digits force.toNat)) default) = force

/-- What `get_force_userspace_legacy` reads from the file. -/
def scanForce (content : Bytes) : UInt8 :=
  match scanNumber content with
  | none => defaultForce
  | some n => UInt8.ofInt n

/-- The next operation of a call, or what it returned. -/
inductive ForcePc where
  /-- `immvibe_api_get_force_userspace`: `access` -/
  | access
  /-- `property_get_int32`, where there is no file -/
  | propertyGet
  /-- `get_force_userspace_legacy`: `fopen` -/
  | fopen
  /-- `fscanf`; the open file is read even when it is removed meanwhile -/
  | fscanf (content : Bytes)
  /-- `migrate_force_store`: `property_set` -/
  | migrate (force : UInt8)
  /-- `unlink` -/
  | unlink (force : UInt8)
  | got (force : UInt8)
  /-- `immvibe_api_set_force_userspace`: `property_set` -/
  | propertySet (force : UInt8)
  | set (force : UInt8)
  deriving DecidableEq, Repr

/-- The call found the file and has not written the property yet. -/
def ForcePc.migrates : ForcePc → Bool
  | .fopen | .fscanf _ | .migrate _ => true
  | _ => false

/-- The file, the property, and the calls in the order of their starts. -/
structure ForceStore where
  legacy : Option Bytes
  prop : Option Bytes
  calls : List ForcePc := []
  deriving DecidableEq, Repr

inductive ForceAct where
  | get
  | set (force : UInt8)
  /-- a call does its next operation -/
  | run (i : Nat)
  deriving DecidableEq, Repr

namespace ForceStore

def start (s : ForceStore) (pc : ForcePc) : ForceStore := { s with calls := s.calls ++ [pc] }

def goto (s : ForceStore) (i : Nat) (pc : ForcePc) : ForceStore :=
  { s with calls := s.calls.set i pc }

/-- `property_set` with the text that `snprintf` makes of a force -/
def write (s : ForceStore) (force : UInt8) : ForceStore :=
  { s with prop := some (Lib.digits force.toNat) }

/-- One operation of call `i`. -/
def run (lib : Libcutils) (s : ForceStore) (i : Nat) : Option ForceStore :=
  match s.calls[i]? with
  | some .access => some (s.goto i (if s.legacy.isSome then .fopen else .propertyGet))
  | some .propertyGet =>
    some (s.goto i (.got (UInt8.ofInt (lib.propertyGetInt32 s.prop defaultForce.toNat))))
  | some .fopen =>
    match s.legacy with
    -- removed since `access`
    | none => some (s.goto i (.migrate defaultForce))
    | some content => some (s.goto i (.fscanf content))
  | some (.fscanf content) => some (s.goto i (.migrate (scanForce content)))
  | some (.migrate force) => some ((s.write force).goto i (.unlink force))
  | some (.unlink force) => some ({ s with legacy := none }.goto i (.got force))
  | some (.propertySet force) => some ((s.write force).goto i (.set force))
  | some (.got _) | some (.set _) | none => none

end ForceStore

def forceStep (lib : Libcutils) (s : ForceStore) : ForceAct → Option ForceStore
  | .get => some (s.start .access)
  | .set force => some (s.start (.propertySet force))
  | .run i => s.run lib i

/-- No set call starts. -/
def ForceAct.startsSet : ForceAct → Bool
  | .set _ => true
  | _ => false

/-- The old file is gone, and no call is moving its content. -/
def ForceStore.migrated (s : ForceStore) : Bool :=
  s.legacy.isNone && s.calls.all fun pc => !pc.migrates

/-- No other set call starts, and a set call writes to a store without an old
file. -/
def quietStep (s : ForceStore) (a : ForceAct) : Bool :=
  !a.startsSet &&
    match a with
    | .run i =>
      match s.calls[i]? with
      | some (.propertySet _) => s.migrated
      | _ => true
    | _ => true

def quiet (s : ForceStore) (a : ForceAct) : Prop := quietStep s a = true

instance (s : ForceStore) (a : ForceAct) : Decidable (quiet s a) :=
  inferInstanceAs (Decidable (_ = true))

/-! ## After the write -/

/-- The call writes the property before it returns. -/
def ForcePc.writes : ForcePc → Prop
  | .propertySet _ | .fopen | .fscanf _ | .migrate _ => True
  | _ => False

/-- The property holds the force, and nobody is going to change that. -/
structure Written (force : UInt8) (s : ForceStore) : Prop where
  prop : s.prop = some (Lib.digits force.toNat)
  legacy : s.legacy = none
  calls : Lib.Nobody ForcePc.writes s.calls

/-- What a get call does after the write. -/
inductive Reads (force : UInt8) : ForcePc → Prop
  | access : Reads force .access
  | propertyGet : Reads force .propertyGet
  | got : Reads force (.got force)

section

variable {lib : Libcutils} {force : UInt8} {s s' : ForceStore} {i n : Nat}

/-- A call after the write: a get call goes on to the property and returns what
it holds, and one that is about to remove the file finds nothing to remove. -/
theorem Written.run_cases (h : Written force s) (hrun : s.run lib i = some s') :
    s.calls[i]? = some .access ∧ s' = s.goto i .propertyGet ∨
      s.calls[i]? = some .propertyGet ∧ s' = s.goto i (.got force) ∨
      ∃ old, s.calls[i]? = some (.unlink old) ∧ s' = s.goto i (.got old) := by
  unfold ForceStore.run at hrun
  cases hi : s.calls[i]? with
  | none =>
    rw [hi] at hrun
    cases hrun
  | some pc =>
    rw [hi] at hrun
    have hidle : ¬ pc.writes := h.calls.not_at hi
    cases pc with
    | access =>
      rw [h.legacy] at hrun
      exact .inl ⟨rfl, (Option.some.inj hrun).symm⟩
    | propertyGet =>
      rw [h.prop] at hrun
      simp only [lib.reads_force] at hrun
      exact .inr (.inl ⟨rfl, (Option.some.inj hrun).symm⟩)
    | unlink old =>
      have hnone : { s with legacy := none } = s := by rw [← h.legacy]
      simp only [hnone] at hrun
      exact .inr (.inr ⟨old, rfl, (Option.some.inj hrun).symm⟩)
    | got | set => cases hrun
    | fopen | fscanf | migrate | propertySet => exact absurd trivial hidle

/-- No call after the write changes the store. -/
theorem Written.goto (h : Written force s) {pc : ForcePc} (hpc : ¬ pc.writes) :
    Written force (s.goto i pc) :=
  ⟨h.prop, h.legacy, h.calls.set hpc⟩

/-- The write stays the latest, and a get call that started after it reads its
force. -/
theorem Written.step {a : ForceAct} (h : Written force s)
    (hreads : Lib.Since (Reads force) s.calls n) (hquiet : quiet s a)
    (hstep : forceStep lib s a = some s') : Written force s' ∧
    Lib.Since (Reads force) s'.calls n := by
  cases a with
  | get =>
    cases hstep
    exact ⟨⟨h.prop, h.legacy, h.calls.append_other id⟩, hreads.append .access⟩
  | set other => cases hquiet
  | run i =>
    obtain ⟨hi, rfl⟩ | ⟨hi, rfl⟩ | ⟨old, hi, rfl⟩ := h.run_cases hstep
    · exact ⟨h.goto id, hreads.set fun _ => .propertyGet⟩
    · exact ⟨h.goto id, hreads.set fun _ => .got⟩
    · refine ⟨h.goto id, hreads.set fun hn => ?_⟩
      -- a call that started after the write does not remove the file
      cases hreads i _ hn hi

/-! ## Up to the write -/

/-- The call is a set call that has not written yet. -/
def ForcePc.sets : ForcePc → Prop
  | .propertySet _ => True
  | _ => False

/-- Set call `i` is the only one under way. -/
def Pending (i : Nat) (force : UInt8) (s : ForceStore) : Prop :=
  Lib.Only ForcePc.sets s.calls i (.propertySet force)

/-- A call never becomes a set call that has not written. -/
theorem ForceStore.run_calls (hrun : s.run lib i = some s') :
    ∃ pc, ¬ pc.sets ∧ s'.calls = s.calls.set i pc := by
  unfold ForceStore.run at hrun
  split at hrun
  · refine ⟨_, ?_, congrArg ForceStore.calls (Option.some.inj hrun).symm⟩
    split <;> exact id
  case h_3 =>
    split at hrun <;>
    · cases hrun
      exact ⟨_, id, rfl⟩
  all_goals cases hrun
  all_goals exact ⟨_, id, rfl⟩

/-- The write itself, to a store without an old file. -/
theorem Pending.write (h : Pending i force s) (hmigrated : s.migrated = true) :
    Written force ((s.write force).goto i (.set force)) := by
  obtain ⟨hlegacy, hcalls⟩ := Bool.and_eq_true_iff.mp hmigrated
  refine ⟨rfl, Option.isNone_iff_eq_none.mp hlegacy, ?_⟩
  have hnobody : Lib.Nobody ForcePc.sets (s.calls.set i (.set force)) := h.set_leave id
  intro pc hpc hwrites
  have hsets := hnobody pc hpc
  rcases mem_or_eq_of_mem_set hpc with hold | rfl
  · have hmigrates := all_eq_true.mp hcalls pc hold
    cases pc with
    | propertySet => exact hsets trivial
    | fopen | fscanf | migrate => cases hmigrates
    | access | propertyGet | unlink | got | set => exact hwrites
  · exact hwrites

/-- The set call is still the only one, or it has written. -/
theorem Pending.step {a : ForceAct} (h : Pending i force s) (hquiet : quiet s a)
    (hstep : forceStep lib s a = some s') : Pending i force s' ∨ Written force s' := by
  cases a with
  | get =>
    cases hstep
    exact .inl (h.append_other id)
  | set other => cases hquiet
  | run j =>
    by_cases hji : j = i
    · subst hji
      have hmigrated : s.migrated = true := by
        simpa only [quiet, quietStep, ForceAct.startsSet, h.1, Bool.not_false, Bool.true_and]
          using hquiet
      have hs' : s' = (s.write force).goto j (.set force) := by
        simp only [forceStep, ForceStore.run, h.1] at hstep
        exact (Option.some.inj hstep).symm
      rw [hs']
      exact .inr (h.write hmigrated)
    · obtain ⟨pc, hpc, hcalls⟩ := ForceStore.run_calls hstep
      refine .inl ?_
      show Lib.Only ForcePc.sets s'.calls i (.propertySet force)
      rw [hcalls]
      exact h.set_other hji hpc

/-- A set call that has returned has written, and nobody is going to overwrite
that. -/
theorem Pending.returned {acts : List ForceAct} (h : Pending i force s)
    (hrun : Run (forceStep lib) quiet s acts s') (hreturned : s'.calls[i]? = some (.set force)) :
    Written force s' := by
  have hpreserved : ∀ u a u', Pending i force u ∨ Written force u → quiet u a →
      forceStep lib u a = some u' → Pending i force u' ∨ Written force u' := by
    intro u a u' hu hquiet hstep
    rcases hu with hpending | hwritten
    · exact hpending.step hquiet hstep
    · exact .inr (hwritten.step (Lib.Since.now _ _) hquiet hstep).1
  rcases hrun.invariant hpreserved (.inl h) with hpending | hwritten
  · have heq := hpending.1.symm.trans hreturned
    cases heq
  · exact hwritten

/-! ## Get calls -/

theorem ForceStore.getElem?_goto {pc pc' : ForcePc} (hi : s.calls[i]? = some pc) :
    (s.goto i pc').calls[i]? = some pc' := by
  obtain ⟨hlt, -⟩ := List.getElem?_eq_some_iff.mp hi
  exact List.getElem?_set_self hlt

/-- A call that reads the property returns the force with its next operation. -/
theorem Written.run_propertyGet (h : Written force s) (hi : s.calls[i]? = some .propertyGet) :
    ∃ s', Run (forceStep lib) quiet s [.run i] s' ∧ s'.calls[i]? = some (.got force) := by
  refine ⟨s.goto i (.got force), .single ?_ ?_, ForceStore.getElem?_goto hi⟩
  · simp only [quiet, quietStep, ForceAct.startsSet, hi, Bool.not_false, Bool.and_self]
  · simp only [forceStep, ForceStore.run, hi, h.prop, lib.reads_force]

/-- A get call that started after the write returns the force within two
operations. -/
theorem Written.reads {pc : ForcePc} (h : Written force s) (hi : s.calls[i]? = some pc)
    (hreads : Reads force pc) :
    ∃ n ≤ 2, ∃ s', Run (forceStep lib) quiet s (List.replicate n (.run i)) s' ∧
      s'.calls[i]? = some (.got force) := by
  cases hreads with
  | got => exact ⟨0, Nat.zero_le 2, s, .nil s, hi⟩
  | propertyGet =>
    obtain ⟨s', hrun, hgot⟩ := h.run_propertyGet hi
    exact ⟨1, Nat.le_succ 1, s', hrun, hgot⟩
  | access =>
    have hnext : (s.goto i .propertyGet).calls[i]? = some .propertyGet :=
      ForceStore.getElem?_goto hi
    obtain ⟨s', hrun, hgot⟩ := (h.goto id).run_propertyGet hnext
    refine ⟨2, Nat.le_refl 2, s', .cons ?_ ?_ hrun, hgot⟩
    · simp only [quiet, quietStep, ForceAct.startsSet, hi, Bool.not_false, Bool.and_self]
    · simp only [forceStep, ForceStore.run, hi, h.legacy]
      rfl

end

/-- A set call starts while no other one is under way, and no other one starts
after it. Once it has returned, every get call that starts returns its force,
after at most two operations, whatever the calls that were under way do in
between. -/
theorem get_latest_force {lib : Libcutils} {s₀ s t : ForceStore} {force : UInt8}
    {acts acts' : List ForceAct}
    {k : Nat} (halone : ∀ other, .propertySet other ∉ s₀.calls)
    (hset : Run (forceStep lib) quiet (s₀.start (.propertySet force)) acts s)
    (hreturned : s.calls[s₀.calls.length]? = some (.set force))
    (hafter : Run (forceStep lib) quiet s acts' t)
    (hstarted : s.calls.length ≤ k ∧ k < t.calls.length) :
    (∀ result, t.calls[k]? = some (.got result) → result = force) ∧
      ∃ n ≤ 2, ∃ u, Run (forceStep lib) quiet t (List.replicate n (.run k)) u ∧
        u.calls[k]? = some (.got force) := by
  have hnobody : Lib.Nobody ForcePc.sets s₀.calls := by
    intro pc hpc hsets
    cases pc with
    | propertySet other => exact halone other hpc
    | _ => exact hsets
  have hpending : Pending s₀.calls.length force (s₀.start (.propertySet force)) :=
    hnobody.append _
  have hwritten : Written force s := hpending.returned hset hreturned
  -- the get calls are those of the list behind the length it has now
  have hpreserved : ∀ u a u',
      Written force u ∧ Lib.Since (Reads force) u.calls s.calls.length → quiet u a →
      forceStep lib u a = some u' →
      Written force u' ∧ Lib.Since (Reads force) u'.calls s.calls.length := by
    intro u a u' hu hquiet hstep
    exact hu.1.step hu.2 hquiet hstep
  have hinv := hafter.invariant hpreserved ⟨hwritten, Lib.Since.now _ _⟩
  have hget : t.calls[k]? = some t.calls[k] := List.getElem?_eq_getElem hstarted.2
  have hreads := hinv.2 k _ hstarted.1 hget
  refine ⟨?_, hinv.1.reads hget hreads⟩
  intro result hgot
  have hresult := hinv.2 k _ hstarted.1 hgot
  cases hresult
  rfl

/-- Decimal digits are read back. -/
def decimals : Libcutils where
  propertyGetInt32 value default := value.elim default fun text => decimal text
  reads_force force _ := by
    have hdecimal : (decimal (Lib.digits force.toNat) : Int) = force.toNat :=
      congrArg Nat.cast (Lib.foldl_digits _)
    have hmod : ((force.toNat : Int) % 2 ^ 8).toNat = force.toNat := by
      have hlt := force.toNat_lt
      omega
    show UInt8.ofInt (decimal (Lib.digits force.toNat)) = force
    rw [hdecimal, UInt8.ofInt, hmod]
    exact UInt8.ofNat_toNat

/-- The file is moved to the property by a first get call, then 9 is set, and
two get calls read it. -/
theorem get_latest_force_migrated :
    ∃ s t, Run (forceStep decimals) quiet
        ((⟨none, some (At.bytes "5"), [.got 5]⟩ : ForceStore).start (.propertySet 9))
        [.get, .run 1, .run 2] s ∧
      s.calls[1]? = some (.set 9) ∧
      Run (forceStep decimals) quiet s [.get, .run 3, .run 2, .run 3] t ∧
      (∀ result, t.calls[3]? = some (.got result) → result = 9) := by
  simp only [exists_and_left]
  refine Run.exists_of_exec
    (A := fun s => s = ⟨none, some (At.bytes "9"), [.got 5, .set 9, .propertyGet]⟩)
    (by decide +kernel) ?_
  rintro s hset rfl
  refine ⟨rfl, Run.exists_of_exec (A := fun t => t.calls.length = 4) (by decide +kernel) ?_⟩
  intro t hafter hlength
  refine (get_latest_force ?_ hset rfl hafter ?_).1
  · intro other hmem
    cases mem_singleton.mp hmem
  · rw [hlength]
    exact ⟨Nat.le_refl 3, Nat.lt_succ_self 3⟩

/-- The old file holds 5. A set call with 9 returns, with no other call in the
store, and the get call after it returns 5, and has overwritten the 9. -/
theorem legacy_force_back :
    Run (forceStep decimals) anyStep ⟨some (At.bytes "5\n"), none, []⟩ [.set 9, .run 0]
        ⟨some (At.bytes "5\n"), some (At.bytes "9"), [.set 9]⟩ ∧
      Run (forceStep decimals) anyStep ⟨some (At.bytes "5\n"), some (At.bytes "9"), [.set 9]⟩
        [.get, .run 1, .run 1, .run 1, .run 1, .run 1]
        ⟨none, some (At.bytes "5"), [.set 9, .got 5]⟩ :=
  ⟨.of_exec (by decide +kernel), .of_exec (by decide +kernel)⟩

end Arale.Immvibe
