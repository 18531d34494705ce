import Mathlib.Init

/-!
# Computations that check and go on

When a computation in `Except` succeeds, every check in it has passed: one lemma for each way of
putting checks together.
-/

namespace CleanSlate.Lib

variable {ε ε' α β : Type} {x : Except ε α} {f : α → Except ε β} {b : β}

/-- `Option::ok_or`. -/
def okOr (value : Option α) (error : ε) : Except ε α :=
  match value with
  | some a => .ok a
  | none => .error error

variable {a : α} {error : ε} {c : Prop}

@[simp] theorem okOr_eq_ok {value : Option α} : okOr value error = .ok a ↔ value = some a := by
  cases value <;> simp [okOr]

@[simp] theorem bind_eq_ok : (x >>= f) = .ok b ↔ ∃ a, x = .ok a ∧ f a = .ok b := by
  cases x with
  | error | ok => simp [bind, Except.bind]

@[simp] theorem pure_eq_ok {b : α} : (pure a : Except ε α) = .ok b ↔ a = b := by
  simp [pure, Except.pure]

@[simp] theorem mapError_eq_ok {f : ε → ε'} : x.mapError f = .ok a ↔ x = .ok a := by
  cases x with
  | error e => exact ⟨fun h => (by cases h), fun h => (by cases h)⟩
  | ok b => exact ⟨fun h => (by cases h; rfl), fun h => (by cases h; rfl)⟩

@[simp] theorem map_eq_ok {f : α → β} : x.map f = .ok b ↔ ∃ a, x = .ok a ∧ f a = b := by
  cases x <;> simp [Except.map]

@[simp] theorem ite_error_eq_ok [Decidable c] :
    (if c then .error error else x) = .ok a ↔ ¬c ∧ x = .ok a := by
  by_cases h : c <;> simp [h]

theorem bind_eq_error {e : ε} :
    (x >>= f) = .error e ↔ x = .error e ∨ ∃ a, x = .ok a ∧ f a = .error e := by
  cases x with
  | error | ok => simp [bind, Except.bind]

/-- `Result::err`. -/
def err : Except ε α → Option ε
  | .ok _ => none
  | .error e => some e

theorem err_isSome : (err x).isSome ↔ ∃ e, x = .error e := by
  cases x <;> simp [err]

theorem err_map (x : Except ε α) (f : α → β) : err (x.map f) = err x := by
  cases x <;> rfl

theorem forM_ok {items : List α} {f : α → Except ε PUnit} :
    items.forM f = .ok () ↔ ∀ a ∈ items, f a = .ok () := by
  induction items with
  | nil => simp [pure, Except.pure]
  | cons a items ih =>
    change (f a >>= fun _ => items.forM f) = .ok () ↔ _
    rw [bind_eq_ok, List.forall_mem_cons, ← ih]
    constructor
    · rintro ⟨⟨⟩, ha, hrs⟩
      exact ⟨ha, hrs⟩
    · rintro ⟨ha, hrs⟩
      exact ⟨(), ha, hrs⟩

/-- One row of a table of `if`s: the row applies, or the value comes from further down. -/
theorem of_ite_eq_some [Decidable c] {x y : α} {rest : Option α}
    (h : (if c then some x else rest) = some y) : (c ∧ x = y) ∨ (¬c ∧ rest = some y) := by
  by_cases hc : c
  · rw [if_pos hc] at h
    exact .inl ⟨hc, Option.some.inj h⟩
  · rw [if_neg hc] at h
    exact .inr ⟨hc, h⟩

/-! ## What a computation can return -/

/-- Whatever `x` returns has the property `P`. -/
def Yields (x : Except ε α) (P : α → Prop) : Prop := ∀ a, x = .ok a → P a

variable {P : β → Prop}

theorem yields_ok (h : P b) : Yields (.ok b : Except ε β) P := by
  rintro _ ⟨⟩
  exact h

theorem yields_error : Yields (.error error) P := by
  rintro _ ⟨⟩

theorem yields_bind (h : ∀ a, Yields (f a) P) : Yields (x >>= f) P := by
  intro b hb
  obtain ⟨a, -, hb⟩ := bind_eq_ok.1 hb
  exact h a b hb

theorem yields_map {f : α → β} (h : ∀ a, P (f a)) : Yields (x.map f) P := by
  intro b hb
  obtain ⟨a, -, rfl⟩ := map_eq_ok.1 hb
  exact h a

theorem yields_ite [Decidable c] {x y : Except ε β} (hx : c → Yields x P) (hy : ¬c → Yields y P) :
    Yields (if c then x else y) P := by
  split
  · exact hx ‹_›
  · exact hy ‹_›

end CleanSlate.Lib
