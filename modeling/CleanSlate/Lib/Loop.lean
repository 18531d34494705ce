import Mathlib.Init

/-!
# Loops with an exit

A loop whose body goes on with a new state, leaves with a result, or fails. It is run with fuel; a
measure that the body decreases says how much is enough (`loop_terminates`), and what the loop returns
is proved backwards from its exit (`loop_ok_induction`).
-/

namespace CleanSlate.Lib

variable {σ ε ρ : Type}

/-- Runs `body` until it leaves or fails, at most `fuel` times. -/
def loop (body : σ → Except ε (σ ⊕ ρ)) : Nat → σ → Option (Except ε ρ)
  | 0, _ => none
  | fuel + 1, s =>
    match body s with
    | .error e => some (.error e)
    | .ok (.inr r) => some (.ok r)
    | .ok (.inl s') => loop body fuel s'

variable {body : σ → Except ε (σ ⊕ ρ)}

theorem loop_terminates (size : σ → Nat)
    (decreases : ∀ s s', body s = .ok (.inl s') → size s' < size s) {fuel : Nat} {s : σ}
    (h : size s < fuel) : ∃ result, loop body fuel s = some result := by
  induction fuel generalizing s with
  | zero => omega
  | succ fuel ih =>
    unfold loop
    split
    · exact ⟨_, rfl⟩
    · exact ⟨_, rfl⟩
    · next s' hbd => exact ih (Nat.lt_of_lt_of_le (decreases s s' hbd) (Nat.le_of_lt_succ h))

/-- A relation between a state and the result of the loop from it. -/
theorem loop_ok_induction {P : σ → ρ → Prop} (leave : ∀ s r, body s = .ok (.inr r) → P s r)
    (next : ∀ s s' r, body s = .ok (.inl s') → P s' r → P s r) {fuel : Nat} {s : σ} {r : ρ}
    (h : loop body fuel s = some (.ok r)) : P s r := by
  induction fuel generalizing s with
  | zero => cases h
  | succ fuel ih =>
    unfold loop at h
    split at h
    · cases h
    · next r' hbd =>
      cases h
      exact leave s r hbd
    · next s' hbd => exact next s s' r hbd (ih h)

end CleanSlate.Lib
