import Mathlib.Data.List.Induction

/-!
# What a row of events leaves

A state is changed by a row of events, and a field of it belongs to the events
of one kind. `lastOf own ps init` is what such a field should hold in the end:
the value of the last event that has one, or what it held before.

`foldl_lastOf` is the rule for programs: it is enough that each step writes the
field exactly for the events of its kind.

Some events undo others. `Stands x undo log` says that `x` happened and that no
event since has undone it: a lock that is still held, an order that was not
carried out.
-/

namespace Arale.Lib

open List

variable {π σ α : Type}

def lastOf (own : π → Option α) (ps : List π) (init : α) : α :=
  ((ps.filterMap own).getLast?).getD init

theorem lastOf_cons (own : π → Option α) (p : π) (ps : List π) (init : α) :
    lastOf own (p :: ps) init = lastOf own ps ((own p).getD init) := by
  unfold lastOf
  cases hp : own p with
  | none =>
    rw [filterMap_cons_none hp]
    rfl
  | some a =>
    rw [filterMap_cons_some hp, List.getLast?_cons]
    rfl

/-- Only the last event of the kind matters. -/
theorem lastOf_map {β : Type} (own : π → Option β) (value : β → α) (ps : List π) (init : α) :
    lastOf (fun p => (own p).map value) ps init
      = ((ps.filterMap own).getLast?.map value).getD init := by
  rw [lastOf, ← map_filterMap, getLast?_map]

theorem lastOf_append_singleton (own : π → Option α) (ps : List π) (p : π) (init : α) :
    lastOf own (ps ++ [p]) init = (own p).getD (lastOf own ps init) := by
  induction ps generalizing init with
  | nil => exact lastOf_cons own p [] init
  | cons q ps ih => rw [cons_append, lastOf_cons, ih, lastOf_cons]

/-- A field that each step writes for the events of its kind, in states that
meet the invariant. -/
theorem foldl_lastOf {Inv : σ → Prop} {step : σ → π → σ} {get : σ → α} {own : π → Option α}
    {ps : List π}
    (hstep : ∀ p ∈ ps, ∀ s, Inv s → Inv (step s p) ∧ get (step s p) = (own p).getD (get s)) {s : σ}
    (hs : Inv s) : get (ps.foldl step s) = lastOf own ps (get s) := by
  induction ps generalizing s with
  | nil => rfl
  | cons p ps ih =>
    obtain ⟨hinv, hget⟩ := hstep p mem_cons_self s hs
    rw [foldl_cons, lastOf_cons, ← hget]
    exact ih (fun q hq => hstep q (mem_cons_of_mem _ hq)) hinv

/-- Events of another kind do not matter if an event of the own kind follows
each of them. -/
theorem lastOf_followed {own both : π → Option α} (hown : ∀ p, own p ≠ none → both p = own p)
    {ps : List π} (hfollowed : ∀ pre p post, ps = pre ++ p :: post → own p = none → both p ≠ none →
      ∃ q ∈ post, own q ≠ none) (init : α) : lastOf both ps init = lastOf own ps init := by
  induction ps using List.reverseRecOn with
  | nil => rfl
  | append_singleton ps p ih =>
    rw [lastOf_append_singleton, lastOf_append_singleton]
    by_cases hp : own p = none
    · have hboth : both p = none := by
        by_contra hother
        obtain ⟨q, hq, -⟩ := hfollowed ps p [] rfl hp hother
        exact absurd hq not_mem_nil
      rw [hp, hboth]
      apply ih
      intro pre q post hps hq hother
      obtain ⟨r, hr, hsome⟩ :=
        hfollowed pre q (post ++ [p]) (by rw [hps, append_assoc]; rfl) hq hother
      obtain hr | hr := mem_append.mp hr
      · exact ⟨r, hr, hsome⟩
      · rw [mem_singleton.mp hr] at hsome
        exact absurd hp hsome
    · rw [hown p hp]
      obtain ⟨a, ha⟩ := Option.ne_none_iff_exists'.mp hp
      rw [ha]
      rfl

/-! ## Events that still stand -/

def Stands (x : α) (undo : α → Prop) : List α → Prop
  | [] => False
  | y :: log => (y = x ∧ ∀ z ∈ log, ¬ undo z) ∨ Stands x undo log

instance Stands.decidable [DecidableEq α] (x : α) (undo : α → Prop) [DecidablePred undo] :
    (log : List α) → Decidable (Stands x undo log)
  | [] => .isFalse id
  | y :: log =>
    have : Decidable (Stands x undo log) := Stands.decidable x undo log
    inferInstanceAs (Decidable ((y = x ∧ ∀ z ∈ log, ¬ undo z) ∨ Stands x undo log))

namespace Stands

variable {x : α} {undo : α → Prop} {log more : List α}

theorem mem (h : Stands x undo log) : x ∈ log := by
  induction log with
  | nil => exact h.elim
  | cons y log ih =>
    rcases h with ⟨rfl, -⟩ | h
    · exact List.mem_cons_self
    · exact List.mem_cons_of_mem _ (ih h)

/-- What stands later happened later, or stood before and was not undone. -/
theorem append_iff : Stands x undo (log ++ more) ↔
    (Stands x undo log ∧ ∀ z ∈ more, ¬ undo z) ∨ Stands x undo more := by
  induction log with
  | nil => simp [Stands]
  | cons y log ih =>
    rw [List.cons_append, Stands, Stands, ih, List.forall_mem_append, or_and_right, and_assoc,
      or_assoc]

theorem of_append (h : Stands x undo (log ++ more)) (hx : x ∉ more) :
    Stands x undo log ∧ ∀ z ∈ more, ¬ undo z := by
  rcases append_iff.mp h with h | h
  · exact h
  · exact absurd h.mem hx

end Stands

end Arale.Lib
