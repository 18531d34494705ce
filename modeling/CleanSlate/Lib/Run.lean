import Mathlib.Data.List.Induction
import Mathlib.Data.List.Nodup

/-!
# Runs of a transition function

A component is a function from a state and an input to an output and the next state. A run
feeds it a list of inputs; its trace records every transition taken. `run_induction` proves a
property of the trace together with the state reached; `run_invariant` is the case of a property
of the state alone.

`issued_nodup` is the freshness rule for identities made of a slot and a stamp: when every slot
has a stamp that no transition lowers, and an identity is issued only with a stamp above the one
its slot had, no run issues an identity twice.
-/

namespace CleanSlate.Lib

open List

variable {σ ι ο : Type}

/-- One transition of a run. -/
structure Event (σ ι ο : Type) where
  pre : σ
  input : ι
  output : ο
  post : σ

/-- The transition `step` takes from `s` on `i`. -/
def Event.of (step : σ → ι → ο × σ) (s : σ) (i : ι) : Event σ ι ο :=
  ⟨s, i, (step s i).1, (step s i).2⟩

/-- The state after feeding `step` a list of inputs. -/
def run (step : σ → ι → ο × σ) (s : σ) : List ι → σ
  | [] => s
  | i :: is => run step (step s i).2 is

/-- The transitions of a run, in order. -/
def trace (step : σ → ι → ο × σ) (s : σ) : List ι → List (Event σ ι ο)
  | [] => []
  | i :: is => Event.of step s i :: trace step (step s i).2 is

section
variable (step : σ → ι → ο × σ)

theorem run_append (s : σ) (is js : List ι) :
    run step s (is ++ js) = run step (run step s is) js := by
  induction is generalizing s with
  | nil => rfl
  | cons i is ih => exact ih _

theorem trace_append (s : σ) (is js : List ι) :
    trace step s (is ++ js) = trace step s is ++ trace step (run step s is) js := by
  induction is generalizing s with
  | nil => rfl
  | cons i is ih =>
    change _ :: trace step (step s i).2 (is ++ js) = _
    rw [ih]
    rfl

theorem run_snoc (s : σ) (is : List ι) (i : ι) :
    run step s (is ++ [i]) = (step (run step s is) i).2 := by
  rw [run_append]
  rfl

theorem trace_snoc (s : σ) (is : List ι) (i : ι) :
    trace step s (is ++ [i]) = trace step s is ++ [Event.of step (run step s is) i] := by
  rw [trace_append]
  rfl

variable {s : σ} {is : List ι} {α : Type}

/-- Inputs that satisfy `Q` lead from one state to the other. -/
def LeadsTo (Q : ι → Prop) (s t : σ) : Prop := ∃ is, t = run step s is ∧ ∀ i ∈ is, Q i

variable {step} in
theorem LeadsTo.refl {Q : ι → Prop} : LeadsTo step Q s s := ⟨[], rfl, forall_mem_nil _⟩

variable {step} in
theorem LeadsTo.single {Q : ι → Prop} {i : ι} (h : Q i) : LeadsTo step Q s (step s i).2 :=
  ⟨[i], rfl, forall_mem_singleton.2 h⟩

variable {step} in
theorem LeadsTo.trans {Q : ι → Prop} {t u : σ} (h : LeadsTo step Q s t) (h' : LeadsTo step Q t u) :
    LeadsTo step Q s u := by
  obtain ⟨is, rfl, his⟩ := h
  obtain ⟨js, rfl, hjs⟩ := h'
  exact ⟨is ++ js, (run_append step s is js).symm, forall_mem_append.2 ⟨his, hjs⟩⟩

/-- A property of the history and the state that holds at the start and passes every transition
holds of every run. -/
theorem run_induction {P : List (Event σ ι ο) → σ → Prop} (start : P [] s)
    (next : ∀ log t i, P log t → P (log ++ [Event.of step t i]) (step t i).2) (is : List ι) :
    P (trace step s is) (run step s is) := by
  induction is using reverseRecOn with
  | nil => exact start
  | append_singleton is i ih =>
    rw [trace_snoc, run_snoc]
    exact next _ _ i ih

/-- A state property that holds at the start and is kept by every transition holds after every
run. -/
theorem run_invariant {P : σ → Prop} (start : P s) (next : ∀ t i, P t → P (step t i).2)
    (is : List ι) : P (run step s is) :=
  run_induction step (P := fun _ t => P t) start (fun _ t i h => next t i h) is

/-- As `run_invariant`, for transitions on the inputs of the run only. -/
theorem run_invariant_of_mem {P : σ → Prop} (start : P s)
    (next : ∀ t, ∀ i ∈ is, P t → P (step t i).2) : P (run step s is) := by
  induction is generalizing s with
  | nil => exact start
  | cons i is ih =>
    exact ih (next s i mem_cons_self start) fun t j hj => next t j (mem_cons_of_mem _ hj)

/-- A property of the history that a transition keeps exactly when it satisfies `C` holds throughout a
run exactly when all its transitions satisfy `C`. -/
theorem forall_prefix_iff {I : σ → Prop} {P : List (Event σ ι ο) → σ → Prop}
    {C : Event σ ι ο → Prop} (hst : I s) (hnx : ∀ t i, I t → I (step t i).2) (start : P [] s)
    (next : ∀ log t i, I t → P log t →
      (P (log ++ [Event.of step t i]) (step t i).2 ↔ C (Event.of step t i))) (is : List ι) :
    (∀ js, js <+: is → P (trace step s js) (run step s js)) ↔ ∀ e ∈ trace step s is, C e := by
  induction is using reverseRecOn with
  | nil =>
    refine ⟨fun _ e he => (by cases he), fun _ js hjs => ?_⟩
    rw [prefix_nil.1 hjs]
    exact start
  | append_singleton is i ih =>
    have hls : P (trace step s is) (run step s is) →
        (P (trace step s (is ++ [i])) (run step s (is ++ [i])) ↔
          C (Event.of step (run step s is) i)) := by
      intro h
      rw [trace_snoc, run_snoc]
      exact next _ _ i (run_invariant step hst hnx is) h
    simp only [prefix_concat_iff, forall_eq_or_imp, ih, trace_snoc step s is i,
      forall_mem_append, forall_mem_singleton]
    constructor
    · rintro ⟨hall, hpr⟩
      have hhr := ih.2 hpr is (prefix_refl is)
      rw [← trace_snoc] at hall
      exact ⟨hpr, (hls hhr).1 hall⟩
    · rintro ⟨hev, hen⟩
      have hhr := ih.2 hev is (prefix_refl is)
      rw [← trace_snoc]
      exact ⟨(hls hhr).2 hen, hev⟩

/-- Two properties of a transition that agree as long as the second has held before. -/
theorem forall_trace_iff {I : σ → Prop} {H P C : Event σ ι ο → Prop} (start : I s)
    (hH : ∀ e ∈ trace step s is, H e)
    (next : ∀ t i, I t → H (Event.of step t i) →
      (P (Event.of step t i) ↔ C (Event.of step t i)) ∧ (C (Event.of step t i) → I (step t i).2)) :
    (∀ e ∈ trace step s is, P e) ↔ ∀ e ∈ trace step s is, C e := by
  induction is generalizing s with
  | nil => simp [trace]
  | cons i is ih =>
    obtain ⟨hfr, hrs⟩ := forall_mem_cons.1 hH
    obtain ⟨hiff, hkp⟩ := next s i start hfr
    rw [trace, forall_mem_cons, forall_mem_cons, hiff]
    exact and_congr_right fun hc => ih (hkp hc) hrs

theorem trace_eq_append {log log' : List (Event σ ι ο)} (h : trace step s is = log ++ log') :
    ∃ js ks, is = js ++ ks ∧ log = trace step s js ∧ log' = trace step (run step s js) ks := by
  induction log generalizing s is with
  | nil => exact ⟨[], is, rfl, rfl, h.symm⟩
  | cons e log ih =>
    cases is with
    | nil => cases h
    | cons i is =>
      obtain ⟨rfl, hrs⟩ := cons.inj h
      obtain ⟨js, ks, rfl, rfl, rfl⟩ := ih hrs
      exact ⟨i :: js, ks, rfl, rfl, rfl⟩

theorem trace_eq_cons {e : Event σ ι ο} {log : List (Event σ ι ο)}
    (h : trace step s is = e :: log) :
    ∃ i js, is = i :: js ∧ e = Event.of step s i ∧ log = trace step (step s i).2 js := by
  cases is with
  | nil => cases h
  | cons i js =>
    obtain ⟨rfl, rfl⟩ := cons.inj h
    exact ⟨i, js, rfl, rfl, rfl⟩

/-- Every transition of a run starts in a state some prefix of the inputs reaches. -/
theorem mem_trace {e : Event σ ι ο} (he : e ∈ trace step s is) :
    ∃ js i ks, is = js ++ i :: ks ∧ e = Event.of step (run step s js) i := by
  induction is generalizing s with
  | nil => cases he
  | cons i is ih =>
    rcases mem_cons.1 he with rfl | he
    · exact ⟨[], i, is, rfl, rfl⟩
    · obtain ⟨js, j, ks, rfl, rfl⟩ := ih he
      exact ⟨i :: js, j, ks, rfl, rfl⟩

theorem filterMap_snoc {β : Type} (f : α → Option β) (l : List α) (a : α) :
    (l ++ [a]).filterMap f = l.filterMap f ++ (f a).toList := by
  cases h : f a <;> simp [h]

/-- Some element satisfies `p`, and none after it satisfies `q`. -/
def Since (p q : α → Prop) (l : List α) : Prop :=
  ∃ before a after, l = before ++ a :: after ∧ p a ∧ ∀ b ∈ after, ¬q b

theorem not_since_nil {p q : α → Prop} : ¬Since p q [] := by
  rintro ⟨before, a, after, h, -⟩
  cases before <;> cases h

theorem since_snoc {p q : α → Prop} {l : List α} {a : α} :
    Since p q (l ++ [a]) ↔ p a ∨ Since p q l ∧ ¬q a := by
  constructor
  · rintro ⟨before, b, after, h, hb, haf⟩
    rcases eq_nil_or_concat' after with rfl | ⟨after, c, rfl⟩
    · obtain ⟨-, rfl⟩ := append_singleton_inj.1 h
      exact .inl hb
    · rw [← cons_append, ← append_assoc] at h
      obtain ⟨rfl, rfl⟩ := append_singleton_inj.1 h
      exact .inr ⟨⟨before, b, after, rfl, hb, fun d hd => haf d (by simp [hd])⟩, haf a (by simp)⟩
  · rintro (ha | ⟨⟨before, b, after, rfl, hb, haf⟩, ha⟩)
    · exact ⟨l, a, [], rfl, ha, forall_mem_nil _⟩
    · refine ⟨before, b, after ++ [a], by simp, hb, fun c hc => ?_⟩
      rcases mem_append.1 hc with hc | hc
      · exact haf c hc
      · rwa [mem_singleton.1 hc]

/-- Only the last element may satisfy `p`. -/
def LastOnly {α : Type} (p : α → Prop) (l : List α) : Prop :=
  ∃ (init : List α) (last : Option α), l = init ++ last.toList ∧ (∀ a ∈ init, ¬p a) ∧
    ∀ a ∈ last, p a

theorem LastOnly.nil {p : α → Prop} : LastOnly p [] := ⟨[], none, rfl, by simp, by simp⟩

theorem LastOnly.snoc {p : α → Prop} {l : List α} (h : ∀ a ∈ l, ¬p a) (a : α) :
    LastOnly p (l ++ [a]) := by
  by_cases ha : p a
  · exact ⟨l, some a, rfl, h, by simpa using ha⟩
  · refine ⟨l ++ [a], none, by simp, fun b hb => ?_, by simp⟩
    rcases mem_append.1 hb with hb | hb
    · exact h b hb
    · rwa [mem_singleton.1 hb]

/-! ## Freshness of issued identities -/

section Issued
variable {τ κ : Type} (issue : ο → Option τ) (slot : τ → κ) (stamp : τ → Nat) (level : σ → κ → Nat)

/-- The identities a run issues, in order. -/
def issued (log : List (Event σ ι ο)) : List τ := log.filterMap fun e => issue e.output

variable (mono : ∀ s i k, level s k ≤ level (step s i).2 k)
  (fresh : ∀ s i a, issue (step s i).1 = some a →
    level s (slot a) < stamp a ∧ stamp a ≤ level (step s i).2 (slot a))

include mono fresh in
/-- Every identity issued so far carries a stamp its slot has reached. -/
theorem issued_le_level (s : σ) (is : List ι) :
    ∀ a ∈ issued issue (trace step s is), stamp a ≤ level (run step s is) (slot a) := by
  refine run_induction step
    (P := fun log t => ∀ a ∈ issued issue log, stamp a ≤ level t (slot a)) (by simp [issued]) ?_ is
  intro log t i h a ha
  unfold issued at ha
  rw [filterMap_snoc, mem_append, Option.mem_toList] at ha
  rcases ha with ha | ha
  · exact Nat.le_trans (h a ha) (mono t i _)
  · exact (fresh t i a ha).2

include mono fresh in
theorem issued_nodup (s : σ) (is : List ι) : (issued issue (trace step s is)).Nodup := by
  induction is using reverseRecOn with
  | nil => exact nodup_nil
  | append_singleton is i ih =>
    have hle := issued_le_level step issue slot stamp level mono fresh s is
    rw [trace_snoc]
    unfold issued at ih hle ⊢
    rw [filterMap_snoc]
    refine List.Nodup.append ih ?_ fun a ha hb => ?_
    · cases issue (Event.of step (run step s is) i).output <;> simp
    · have hold := hle a ha
      have hnew := (fresh (run step s is) i a (Option.mem_toList.1 hb)).1
      omega

end Issued

end

end CleanSlate.Lib
