import Mathlib.Data.List.Nodup
import Mathlib.Logic.Function.Basic

/-!
# One-shot exchanges

An exchange is opened by a client, answered once, and its answer is collected once, by the client
that opened it. `Phase` says how far an exchange has come, `Allowed` which event may come next, and
`Legal` that a history was allowed event by event. A component that keeps the phases of its
exchanges and lets only allowed events happen therefore answers no exchange twice
(`Legal.answers_nodup`) and hands every answer to its own client, once (`Legal.collected`,
`Legal.collections_nodup`).
-/

namespace CleanSlate.Lib.Exchange

open Function List

variable {κ γ ρ : Type}

/-- What can happen to an exchange. -/
inductive Deal (κ γ ρ : Type) where
  | opened (key : κ) (client : γ)
  | answered (key : κ) (answer : ρ)
  | collected (key : κ) (client : γ) (answer : ρ)

/-- How far an exchange has come. -/
inductive Phase (γ ρ : Type) where
  | absent
  | waiting (client : γ)
  | answered (client : γ) (answer : ρ)
  | settled

/-- The keys answered, in order. -/
def answers (log : List (Deal κ γ ρ)) : List κ := log.filterMap fun
    | .answered key _ => some key
    | _ => none

/-- The keys whose answer was collected, in order. -/
def collections (log : List (Deal κ γ ρ)) : List κ := log.filterMap fun
    | .collected key _ _ => some key
    | _ => none

/-- What the history holds about an exchange in a given phase. -/
def Recorded (log : List (Deal κ γ ρ)) (key : κ) : Phase γ ρ → Prop
  | .absent => key ∉ answers log ∧ key ∉ collections log
  | .waiting client => .opened key client ∈ log ∧ key ∉ answers log ∧ key ∉ collections log
  | .answered client answer =>
    .opened key client ∈ log ∧ .answered key answer ∈ log ∧ key ∉ collections log
  | .settled => True

variable {key : κ} {log : List (Deal κ γ ρ)} {deal : Deal κ γ ρ}

theorem not_mem_snoc {f : Deal κ γ ρ → Option κ} (h : key ∉ log.filterMap f)
    (hdl : key ∉ [deal].filterMap f) : key ∉ (log ++ [deal]).filterMap f := by
  rw [filterMap_append, mem_append]
  exact fun hmem => hmem.elim h hdl

theorem Recorded.snoc {phase : Phase γ ρ} (h : Recorded log key phase)
    (han : key ∉ answers [deal]) (hcl : key ∉ collections [deal]) :
    Recorded (log ++ [deal]) key phase := by
  cases phase with
  | absent =>
    exact ⟨not_mem_snoc h.1 han, not_mem_snoc h.2 hcl⟩
  | waiting client =>
    exact ⟨mem_append_left _ h.1, not_mem_snoc h.2.1 han, not_mem_snoc h.2.2 hcl⟩
  | answered client answer =>
    exact ⟨mem_append_left _ h.1, mem_append_left _ h.2.1, not_mem_snoc h.2.2 hcl⟩
  | settled => trivial

/-- The event may happen next. -/
def Allowed (phase : κ → Phase γ ρ) : Deal κ γ ρ → Prop
  | .opened key _ => phase key = .absent
  | .answered key _ => ∃ client, phase key = .waiting client
  | .collected key client answer => phase key = .answered client answer

variable [DecidableEq κ]

/-- The phases after an event. -/
def advance (phase : κ → Phase γ ρ) : Deal κ γ ρ → κ → Phase γ ρ
  | .opened key client => update phase key (.waiting client)
  | .answered key answer =>
    match phase key with
    | .waiting client => update phase key (.answered client answer)
    | _ => phase
  | .collected key _ _ => update phase key .settled

theorem advance_answered {phase : κ → Phase γ ρ} {client : γ} (h : phase key = .waiting client)
    (answer : ρ) :
    advance phase (.answered key answer) = update phase key (.answered client answer) := by
  simp only [advance, h]

/-- The histories in which every event was allowed, with the phases they lead to. -/
inductive Legal : List (Deal κ γ ρ) → (κ → Phase γ ρ) → Prop where
  | nil : Legal [] fun _ => .absent
  | snoc {log : List (Deal κ γ ρ)} {phase : κ → Phase γ ρ} {deal : Deal κ γ ρ} :
      Legal log phase → Allowed phase deal → Legal (log ++ [deal]) (advance phase deal)

variable {phase : κ → Phase γ ρ}

section

variable (h : Legal log phase)
include h

/-- In a legal history every exchange is recorded as its phase says. -/
theorem Legal.recorded (key : κ) : Recorded log key (phase key) := by
  induction h with
  | nil => exact ⟨not_mem_nil, not_mem_nil⟩
  | @snoc log phase deal _ hal ih =>
    cases deal with
    | opened k client =>
      have ih : Recorded (log ++ [.opened k client]) key (phase key) :=
        ih.snoc not_mem_nil not_mem_nil
      by_cases hk : key = k
      · subst hk
        rw [hal] at ih
        simp only [advance, update_self]
        exact ⟨mem_concat_self, ih⟩
      · simpa only [advance, update_of_ne hk] using ih
    | answered k answer =>
      obtain ⟨client, hwt⟩ := hal
      rw [advance_answered hwt]
      by_cases hk : key = k
      · subst hk
        rw [hwt] at ih
        rw [update_self]
        exact ⟨mem_append_left _ ih.1, mem_concat_self,
          not_mem_snoc ih.2.2 not_mem_nil⟩
      · rw [update_of_ne hk]
        exact ih.snoc (by simpa [answers] using hk) not_mem_nil
    | collected k client answer =>
      by_cases hk : key = k
      · subst hk
        simp only [advance, update_self]
        trivial
      · simp only [advance, update_of_ne hk]
        exact ih.snoc not_mem_nil (by simpa [collections] using hk)

theorem Legal.answers_nodup : (answers log).Nodup := by
  induction h with
  | nil => exact nodup_nil
  | @snoc log phase deal hlg hal ih =>
    rw [answers, filterMap_append]
    cases deal with
    | answered key answer =>
      obtain ⟨client, hwt⟩ := hal
      have hrc := hlg.recorded key
      rw [hwt] at hrc
      exact concat_eq_append ▸ ih.concat hrc.2.1
    | opened | collected => simpa [answers] using ih

theorem Legal.collections_nodup : (collections log).Nodup := by
  induction h with
  | nil => exact nodup_nil
  | @snoc log phase deal hlg hal ih =>
    rw [collections, filterMap_append]
    cases deal with
    | collected key client answer =>
      have hrc := hlg.recorded key
      rw [show phase key = .answered client answer from hal] at hrc
      exact concat_eq_append ▸ ih.concat hrc.2.2
    | opened | answered => simpa [collections] using ih

/-- An answer is collected by the client that opened the exchange, and is the one it was
answered with. -/
theorem Legal.collected {client : γ} {answer : ρ} (hmem : .collected key client answer ∈ log) :
    .opened key client ∈ log ∧ .answered key answer ∈ log := by
  induction h with
  | nil => cases hmem
  | @snoc log phase deal hlg hal ih =>
    rcases mem_append.1 hmem with hold | hnew
    · exact ⟨mem_append_left _ (ih hold).1, mem_append_left _ (ih hold).2⟩
    · obtain rfl := mem_singleton.1 hnew
      have hrc := hlg.recorded key
      rw [show phase key = .answered client answer from hal] at hrc
      exact ⟨mem_append_left _ hrc.1, mem_append_left _ hrc.2.1⟩

end

end CleanSlate.Lib.Exchange
