/-!
# Pools of threads

The threads of one kind are a list of their program counters, and a step of
thread `i` replaces entry `i`. A mutual exclusion argument asks which of them
satisfy a predicate `p`, for instance which are in the middle of an
operation. It needs two states of the pool: `Nobody p l`, and `Only p l i a`,
in which thread `i` is at `a` and no other one satisfies `p`. For the threads
that started after some moment there is `Since p l n`: all of them from `n` on
satisfy `p`.

The rules say how a pool gets from one to the other when a thread moves or a
new one is added.
-/

namespace Arale.Lib

open List

variable {α : Type} (p : α → Prop)

/-- No thread satisfies `p`. -/
def Nobody (l : List α) : Prop := ∀ a ∈ l, ¬ p a

/-- Thread `i` is at `a`, and no other one satisfies `p`. -/
def Only (l : List α) (i : Nat) (a : α) : Prop :=
  l[i]? = some a ∧ ∀ j b, l[j]? = some b → p b → j = i

/-- The threads from `n` on satisfy `p`. -/
def Since (l : List α) (n : Nat) : Prop := ∀ i a, n ≤ i → l[i]? = some a → p a

variable {p} {l : List α} {i j : Nat} {a b : α}

theorem Nobody.nil : Nobody p ([] : List α) := fun _ h => absurd h (by simp)

theorem Nobody.not_at (h : Nobody p l) (hi : l[i]? = some a) : ¬ p a :=
  h a (mem_of_getElem? hi)

/-- A thread that does not get into `p` leaves the pool without one. -/
theorem Nobody.set (h : Nobody p l) (hb : ¬ p b) : Nobody p (l.set i b) := by
  intro a ha
  rcases mem_or_eq_of_mem_set ha with hold | rfl
  · exact h a hold
  · exact hb

theorem Nobody.append (h : Nobody p l) (a : α) : Only p (l ++ [a]) l.length a := by
  refine ⟨by simp, ?_⟩
  intro j b hj hb
  rcases Nat.lt_trichotomy j l.length with hlt | heq | hgt
  · rw [getElem?_append_left hlt] at hj
    exact absurd hb (h.not_at hj)
  · exact heq
  · rw [getElem?_eq_none (by simp; omega)] at hj
    cases hj

theorem Only.at_eq (h : Only p l i a) (hj : l[j]? = some b) (hb : p b) : j = i ∧ b = a := by
  have hji := h.2 j b hj hb
  subst hji
  exact ⟨rfl, Option.some.inj (hj.symm.trans h.1)⟩

theorem Only.set_self (h : Only p l i a) (b : α) : Only p (l.set i b) i b := by
  obtain ⟨hlt, -⟩ := List.getElem?_eq_some_iff.mp h.1
  refine ⟨by simp [hlt], ?_⟩
  intro j c hj hc
  by_cases hij : i = j
  · exact hij.symm
  · rw [getElem?_set_ne hij] at hj
    exact h.2 j c hj hc

/-- The one thread leaves `p`. -/
theorem Only.set_leave (h : Only p l i a) (hb : ¬ p b) : Nobody p (l.set i b) := by
  intro c hc hp
  obtain ⟨j, hj⟩ := getElem?_of_mem hc
  obtain ⟨rfl, rfl⟩ := (h.set_self b).at_eq hj hp
  exact hb hp

/-- Another thread moves outside `p`. -/
theorem Only.set_other (h : Only p l i a) (hij : j ≠ i) (hb : ¬ p b) : Only p (l.set j b) i a := by
  refine ⟨by rw [getElem?_set_ne hij]; exact h.1, ?_⟩
  intro k c hk hc
  by_cases hjk : j = k
  · subst hjk
    obtain ⟨hlt, hget⟩ := List.getElem?_eq_some_iff.mp hk
    rw [getElem_set_self] at hget
    exact absurd (hget ▸ hc) hb
  · rw [getElem?_set_ne hjk] at hk
    exact h.2 k c hk hc

/-- A new thread outside `p`. -/
theorem Nobody.append_other (h : Nobody p l) (hb : ¬ p b) : Nobody p (l ++ [b]) := by
  intro a ha
  rcases mem_append.mp ha with hold | hnew
  · exact h a hold
  · rw [mem_singleton.mp hnew]
    exact hb

/-- The threads of a pool with a new one. -/
theorem getElem?_append_one (hj : (l ++ [b])[j]? = some a) :
    l[j]? = some a ∨ j = l.length ∧ a = b := by
  rcases Nat.lt_or_ge j l.length with hlt | hge
  · rw [getElem?_append_left hlt] at hj
    exact .inl hj
  · rw [getElem?_append_right hge, getElem?_singleton] at hj
    split at hj
    · cases hj
      exact .inr ⟨by omega, rfl⟩
    · cases hj

theorem Only.append_other (h : Only p l i a) (hb : ¬ p b) : Only p (l ++ [b]) i a := by
  obtain ⟨hlt, -⟩ := List.getElem?_eq_some_iff.mp h.1
  refine ⟨by rw [getElem?_append_left hlt]; exact h.1, ?_⟩
  intro j c hj hc
  rcases getElem?_append_one hj with hold | ⟨-, rfl⟩
  · exact h.2 j c hold hc
  · exact absurd hc hb

/-- Nobody has started since now. -/
theorem Since.now (p : α → Prop) (l : List α) : Since p l l.length := by
  intro i a hi ha
  rw [getElem?_eq_none hi] at ha
  cases ha

theorem Since.append {n : Nat} (h : Since p l n) (hb : p b) : Since p (l ++ [b]) n := by
  intro i a hi ha
  rcases getElem?_append_one ha with hold | ⟨-, rfl⟩
  · exact h i a hi hold
  · exact hb

/-- A thread moves; it has to satisfy `p` only if it is one of those. -/
theorem Since.set {n : Nat} (h : Since p l n) (hb : n ≤ i → p b) : Since p (l.set i b) n := by
  intro j a hj ha
  by_cases hij : i = j
  · subst hij
    obtain ⟨hlt, hget⟩ := List.getElem?_eq_some_iff.mp ha
    rw [getElem_set_self] at hget
    exact hget ▸ hb hj
  · rw [getElem?_set_ne hij] at ha
    exact h j a hj ha

end Arale.Lib
