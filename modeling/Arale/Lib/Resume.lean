/-!
# Resumable decoders

A decoder that is fed from a stream keeps a state and the bytes it has not
used yet. One `step` either uses up some of those bytes, possibly giving
results, or reports that it needs more (`none`). What makes such a decoder
resumable is a single condition on `step`:

> `step_append`: a step that was possible stays possible, with the same
> result, when more input has arrived behind the bytes it looked at.

From it the way the stream was cut stops mattering: steps already made stand
when more input arrives (`Steps.append`), so a run over pieces is a run over
the whole stream, and since `step` is a function all runs to a standstill
end alike (`Steps.unique`). `Steps.rest` is the same fact from the middle of
a run.
-/

namespace Arale.Lib

/-- A decoder with states `σ`, input symbols `α` and results `β`. -/
structure Decoder (σ α β : Type) where
  step : σ → List α → Option (σ × List α × List β)
  step_append : ∀ {s s' : σ} {xs ys : List α} {os : List β},
    step s xs = some (s', ys, os) → ∀ zs, step s (xs ++ zs) = some (s', ys ++ zs, os)

namespace Decoder

variable {σ α β : Type} {d : Decoder σ α β}

/-- Any number of steps, collecting the results. -/
inductive Steps (d : Decoder σ α β) : σ → List α → σ → List α → List β → Prop where
  | refl (s : σ) (xs : List α) : Steps d s xs s xs []
  | head {s s' s'' : σ} {xs ys ws : List α} {os ps : List β} :
      d.step s xs = some (s', ys, os) → Steps d s' ys s'' ws ps →
      Steps d s xs s'' ws (os ++ ps)

variable {s s' s₁ s₂ : σ} {xs ys ys₁ ys₂ : List α} {os os₁ os₂ : List β}

theorem Steps.single (h : d.step s xs = some (s', ys, os)) : Steps d s xs s' ys os := by
  have hs := Steps.head h (Steps.refl s' ys)
  rwa [List.append_nil] at hs

theorem Steps.trans {s'' : σ} {ws : List α} {ps : List β} (h₁ : Steps d s xs s' ys os)
    (h₂ : Steps d s' ys s'' ws ps) : Steps d s xs s'' ws (os ++ ps) := by
  induction h₁ with
  | refl => exact h₂
  | head hstep _ ih =>
    rw [List.append_assoc]
    exact Steps.head hstep (ih h₂)

/-- Steps already made stand when more input arrives. -/
theorem Steps.append
    (h : Steps d s xs s' ys os) (zs : List α) : Steps d s (xs ++ zs) s' (ys ++ zs) os := by
  induction h with
  | refl => exact Steps.refl _ _
  | head hstep _ ih => exact Steps.head (d.step_append hstep zs) ih

/-- The decoder can do nothing with the bytes it has. -/
def Stuck (d : Decoder σ α β) (s : σ) (xs : List α) : Prop := d.step s xs = none

/-- A run that starts stuck goes nowhere. -/
theorem Steps.of_stuck
    (h : Steps d s xs s' ys os) (hs : Stuck d s xs) : s = s' ∧ xs = ys ∧ os = [] := by
  cases h with
  | refl => exact ⟨rfl, rfl, rfl⟩
  | head hstep _ =>
    rw [Stuck, hstep] at hs
    cases hs

/-- Two runs from the same place: one of them is the beginning of the other,
since `step` is a function. -/
theorem Steps.linear (h₁ : Steps d s xs s₁ ys₁ os₁) (h₂ : Steps d s xs s₂ ys₂ os₂) :
    (∃ os, Steps d s₁ ys₁ s₂ ys₂ os ∧ os₂ = os₁ ++ os) ∨
      ∃ os, Steps d s₂ ys₂ s₁ ys₁ os ∧ os₁ = os₂ ++ os := by
  induction h₁ generalizing os₂ with
  | refl => exact .inl ⟨os₂, h₂, rfl⟩
  | head hstep hrest ih =>
    cases h₂ with
    | refl => exact .inr ⟨_, Steps.head hstep hrest, rfl⟩
    | head hstep' hrest' =>
      rw [hstep] at hstep'
      obtain ⟨rfl, rfl, rfl⟩ : _ ∧ _ ∧ _ := by
        simpa only [Option.some.injEq, Prod.mk.injEq] using hstep'
      rcases ih hrest' with ⟨os, hos, hps⟩ | ⟨os, hos, hps⟩
      · exact .inl ⟨os, hos, by rw [hps, List.append_assoc]⟩
      · exact .inr ⟨os, hos, by rw [hps, List.append_assoc]⟩

/-- What is left of a run to a standstill, seen from anywhere on the way. -/
theorem Steps.rest (h₁ : Steps d s xs s₁ ys₁ os₁) (h₂ : Steps d s xs s₂ ys₂ os₂)
    (hs₂ : Stuck d s₂ ys₂) : ∃ os, Steps d s₁ ys₁ s₂ ys₂ os ∧ os₂ = os₁ ++ os := by
  rcases h₁.linear h₂ with hrest | ⟨os, hos, hps⟩
  · exact hrest
  · obtain ⟨rfl, rfl, rfl⟩ := hos.of_stuck hs₂
    exact ⟨[], Steps.refl _ _, by rw [hps, List.append_nil, List.append_nil]⟩

/-- Two runs to a standstill from the same place end in the same place. -/
theorem Steps.unique (h₁ : Steps d s xs s₁ ys₁ os₁) (hs₁ : Stuck d s₁ ys₁)
    (h₂ : Steps d s xs s₂ ys₂ os₂) (hs₂ : Stuck d s₂ ys₂) : s₁ = s₂ ∧ ys₁ = ys₂ ∧ os₁ = os₂ := by
  obtain ⟨os, hrest, hos⟩ := h₁.rest h₂ hs₂
  obtain ⟨hs, hy, hnil⟩ := hrest.of_stuck hs₁
  refine ⟨hs, hy, ?_⟩
  rw [hos, hnil, List.append_nil]

end Decoder

end Arale.Lib
