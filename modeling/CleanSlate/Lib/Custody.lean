import CleanSlate.Lib.Run
import Mathlib.Algebra.BigOperators.Group.List.Basic
import Mathlib.Algebra.GroupWithZero.Nat

/-!
# Custody of items

A component takes items into its custody and gives them back. `held s k` says how often it holds the
item `k` in state `s`, `taken` and `given` how often a transition takes and gives it. When every
transition balances (`Balanced`) and takes only what is not held (`Fresh`), no item is ever held
twice (`held_run_le_one`), and between two takings an item is given back exactly once
(`given_once`).
-/

namespace CleanSlate.Lib.Custody

variable {σ ι ο κ : Type} {step : σ → ι → ο × σ} {held : σ → κ → Nat}
  {taken given : Event σ ι ο → κ → Nat} {k : κ} {s : σ}

/-- Every transition passes on what it had and what it took. -/
def Balanced (step : σ → ι → ο × σ) (held : σ → κ → Nat) (taken given : Event σ ι ο → κ → Nat) :
    Prop :=
  ∀ s i k, held s k + taken (.of step s i) k = given (.of step s i) k + held (step s i).2 k

/-- An item is taken once at a time, and only when it is not held. -/
def Fresh (step : σ → ι → ο × σ) (held : σ → κ → Nat) (taken : Event σ ι ο → κ → Nat) : Prop :=
  ∀ s i k, taken (.of step s i) k = 0 ∨ taken (.of step s i) k = 1 ∧ held s k = 0

/-- How often the transitions of a log take, or give, an item. -/
def total (f : Event σ ι ο → κ → Nat) (log : List (Event σ ι ο)) (k : κ) : Nat :=
  (log.map (f · k)).sum

theorem total_eq_zero {f : Event σ ι ο → κ → Nat} {log : List (Event σ ι ο)}
    (h : ∀ e ∈ log, f e k = 0) : total f log k = 0 := by
  refine List.sum_eq_zero fun n hn => ?_
  obtain ⟨e, he, rfl⟩ := List.mem_map.1 hn
  exact h e he

section

variable (h : Balanced step held taken given)
include h

theorem Balanced.run (s : σ) (is : List ι) (k : κ) : held s k + total taken (trace step s is) k =
      total given (trace step s is) k + held (Lib.run step s is) k := by
  induction is generalizing s with
  | nil => exact Nat.add_comm _ _
  | cons i is ih =>
    have hst := h s i k
    have hrs := ih (step s i).2
    simp only [trace, Lib.run, total, List.map_cons, List.sum_cons] at hrs ⊢
    omega

theorem held_step_le_one (hfr : Fresh step held taken) (hs : held s k ≤ 1) (i : ι) :
    held (step s i).2 k ≤ 1 := by
  have hst := h s i k
  rcases hfr s i k with htk | ⟨htk, hid⟩ <;> omega

theorem held_run_le_one (hfr : Fresh step held taken) (hs : held s k ≤ 1) (is : List ι) :
    held (Lib.run step s is) k ≤ 1 :=
  run_invariant step (P := fun t => held t k ≤ 1) hs (fun _ i ht => held_step_le_one h hfr ht i) is

/-- An item that is held, is not taken again, and is held no longer has been given back once. -/
theorem given_once (hs : held s k = 1) {is : List ι} (hid : held (Lib.run step s is) k = 0)
    (htk : ∀ e ∈ trace step s is, taken e k = 0) : total given (trace step s is) k = 1 := by
  have hrun := h.run s is k
  rw [total_eq_zero htk] at hrun
  omega

end

end CleanSlate.Lib.Custody
