/-!
# Runs of a transition system

Threads that share memory are modelled by one state and a partial function
`step`: a label names the thread that moves next together with whatever the
outside world answers to it, and `none` says that this move is not possible
now, for instance because a lock is taken. A run is then any sequence of
labels, so a statement about all runs is a statement about all
interleavings.

`Run step cond` are the runs every step of which is taken in a state that
meets `cond`. With the trivial condition these are all runs. `Run.invariant`
is the one induction: what a step that meets the condition preserves, a run
preserves.
-/

namespace Arale.Lib

variable {σ ι : Type}

/-- Every step is taken in a state that meets the condition. -/
inductive Run (step : σ → ι → Option σ) (cond : σ → ι → Prop) : σ → List ι → σ → Prop where
  | nil (s : σ) : Run step cond s [] s
  | cons {s s' t : σ} {i : ι} {is : List ι} :
      cond s i → step s i = some s' → Run step cond s' is t → Run step cond s (i :: is) t

/-- The condition that asks nothing. -/
def anyStep (_ : σ) (_ : ι) : Prop := True

instance (s : σ) (i : ι) : Decidable (anyStep s i) := .isTrue trivial

/-- A run that can be evaluated: it stops at the first label that is not
possible or does not meet the condition. -/
def exec (step : σ → ι → Option σ) (cond : σ → ι → Prop) [∀ s i, Decidable (cond s i)] :
    σ → List ι → Option σ
  | s, [] => some s
  | s, i :: is =>
    if cond s i then
      match step s i with
      | some s' => exec step cond s' is
      | none => none
    else none

namespace Run

variable {step : σ → ι → Option σ} {cond : σ → ι → Prop}
variable {s t : σ}

theorem single {i : ι} (hcond : cond s i) (hstep : step s i = some t) : Run step cond s [i] t :=
  .cons hcond hstep (.nil t)

variable {is : List ι}

theorem trans {u : σ} {js : List ι} (h₁ : Run step cond s is t)
    (h₂ : Run step cond t js u) : Run step cond s (is ++ js) u := by
  induction h₁ with
  | nil => exact h₂
  | cons hcond hstep _ ih => exact .cons hcond hstep (ih h₂)

theorem mono {cond' : σ → ι → Prop} (himp : ∀ s i, cond s i → cond' s i)
    (h : Run step cond s is t) : Run step cond' s is t := by
  induction h with
  | nil => exact .nil _
  | cons hcond hstep _ ih => exact .cons (himp _ _ hcond) hstep ih

theorem of_exec [∀ s i, Decidable (cond s i)]
    (h : exec step cond s is = some t) : Run step cond s is t := by
  induction is generalizing s with
  | nil =>
    cases h
    exact .nil t
  | cons i is ih =>
    unfold exec at h
    split at h
    · next hcond =>
      split at h
      · next s' hstep => exact .cons hcond hstep (ih h)
      · cases h
    · cases h

/-- A run is the only one with its labels. -/
theorem exec_eq [∀ s i, Decidable (cond s i)]
    (h : Run step cond s is t) : exec step cond s is = some t := by
  induction h with
  | nil => rfl
  | cons hcond hstep _ ih =>
    unfold exec
    rw [if_pos hcond, hstep]
    exact ih

/-- Evaluating the labels and a test of the state they lead to gives a run to
such a state. -/
theorem of_exec_any (step : σ → ι → Option σ) (cond : σ → ι → Prop)
    [∀ s i, Decidable (cond s i)] (s : σ) (is : List ι) (p : σ → Bool)
    (h : (exec step cond s is).any p = true) : ∃ t, Run step cond s is t ∧ p t = true := by
  cases ht : exec step cond s is with
  | none =>
    rw [ht] at h
    cases h
  | some t =>
    rw [ht] at h
    exact ⟨t, of_exec ht, h⟩

/-- The labels lead to a state that passes the test, and of it holds what follows
from the test and the run. -/
theorem exists_of_exec {A B : σ → Prop} [DecidablePred A] [∀ s i, Decidable (cond s i)]
    (h : (exec step cond s is).any (fun t => A t) = true)
    (hB : ∀ t, Run step cond s is t → A t → B t) : ∃ t, Run step cond s is t ∧ B t := by
  obtain ⟨t, hrun, htest⟩ := of_exec_any step cond s is _ h
  exact ⟨t, hrun, hB t hrun (of_decide_eq_true htest)⟩

/-- What every step that meets the condition preserves, a run preserves. -/
theorem invariant {Inv : σ → Prop}
    (hstep : ∀ s i s', Inv s → cond s i → step s i = some s' → Inv s')
    (h : Run step cond s is t) (hs : Inv s) : Inv t := by
  induction h with
  | nil => exact hs
  | cons hcond heq _ ih => exact ih (hstep _ _ _ hs hcond heq)

/-- A run is no longer than a number that every step lowers. -/
theorem length_le {μ : σ → Nat} (hstep : ∀ s i s', cond s i → step s i = some s' → μ s' < μ s)
    (h : Run step cond s is t) : is.length ≤ μ s := by
  induction h with
  | nil => exact Nat.zero_le _
  | cons hcond heq _ ih =>
    have hlower := hstep _ _ _ hcond heq
    rw [List.length_cons]
    omega

/-- A part `π` of the state that moves only by steps of its own, `act s i`,
goes through a run of those. -/
theorem project {τ κ : Type} {stepτ : τ → κ → Option τ} {condτ : τ → κ → Prop} (π : σ → τ)
    (act : σ → ι → Option κ) (hmove : ∀ s i s' k, cond s i → step s i = some s' → act s i = some k →
      condτ (π s) k ∧ stepτ (π s) k = some (π s'))
    (hstay : ∀ s i s', step s i = some s' → act s i = none → π s' = π s)
    (h : Run step cond s is t) : ∃ ks, Run stepτ condτ (π s) ks (π t) := by
  induction h with
  | nil s => exact ⟨[], .nil (π s)⟩
  | @cons s s' t i is hcond hstep _ ih =>
    obtain ⟨ks, hks⟩ := ih
    cases hact : act s i with
    | none =>
      rw [hstay s i s' hstep hact] at hks
      exact ⟨ks, hks⟩
    | some k =>
      obtain ⟨hcond', hstep'⟩ := hmove s i s' k hcond hstep hact
      exact ⟨k :: ks, .cons hcond' hstep' hks⟩

end Run

end Arale.Lib
