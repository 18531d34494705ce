import Mathlib.Data.Finset.Card
import Mathlib.Logic.Relation

/-!
# Walks in a relation

Walks of a given length, what a search of bounded depth finds, and the cycles that a new set of edges
at one node can close.
-/

namespace CleanSlate.Lib

open Relation

variable {α : Type} {r r' : α → α → Prop} {a b s : α} {n : Nat}

/-- `b` is `n` steps from `a`. -/
def Walk (r : α → α → Prop) : Nat → α → α → Prop
  | 0, a, b => a = b
  | n + 1, a, b => ∃ c, r a c ∧ Walk r n c b

theorem Walk.reflTransGen (h : Walk r n a b) : ReflTransGen r a b := by
  induction n generalizing a with
  | zero => exact h ▸ .refl
  | succ n ih =>
    obtain ⟨c, hc, hrs⟩ := h
    exact .head hc (ih hrs)

/-- The search for `target` that gives up after `n` steps. -/
def reaches [DecidableEq α] (next : α → List α) (target : α) : Nat → α → Bool
  | 0, a => a = target
  | n + 1, a => a = target || (next a).any (reaches next target n)

theorem reaches_iff [DecidableEq α] {next : α → List α} (hnx : ∀ a c, r a c ↔ c ∈ next a) :
    reaches next b n a ↔ ∃ k ≤ n, Walk r k a b := by
  induction n generalizing a with
  | zero => simp [reaches, Walk]
  | succ n ih =>
    simp only [reaches, Bool.or_eq_true, decide_eq_true_eq, List.any_eq_true, ih]
    constructor
    · rintro (rfl | ⟨c, hc, k, hk, hwl⟩)
      · exact ⟨0, Nat.zero_le _, rfl⟩
      · exact ⟨k + 1, Nat.succ_le_succ hk, c, (hnx a c).2 hc, hwl⟩
    · rintro ⟨_ | k, hk, hwl⟩
      · exact .inl hwl
      · obtain ⟨c, hc, hwl⟩ := hwl
        exact .inr ⟨c, (hnx a c).1 hc, k, Nat.le_of_succ_le_succ hk, hwl⟩

def Acyclic (r : α → α → Prop) : Prop := ∀ a, ¬TransGen r a a

/-- A path with new edges only at `s` is an old one, or passes `s`. -/
theorem transGen_of_new_edges (hold : ∀ a c, a ≠ s → r' a c → r a c) (h : TransGen r' a b) :
    TransGen r a b ∨ ReflTransGen r' a s ∧ TransGen r' s b := by
  induction h with
  | @single c hc =>
    by_cases ha : a = s
    · exact .inr ⟨ha ▸ .refl, .single (ha ▸ hc)⟩
    · exact .inl (.single (hold a c ha hc))
  | @tail b c hab hc ih =>
    rcases ih with hpt | ⟨hto, hfr⟩
    · by_cases hb : b = s
      · exact .inr ⟨hb ▸ hab.to_reflTransGen, .single (hb ▸ hc)⟩
      · exact .inl (hpt.tail (hold b c hb hc))
    · exact .inr ⟨hto, hfr.tail hc⟩

/-- New edges at `s` close a cycle exactly if one leads back to `s`. -/
theorem Acyclic.iff_of_new_edges (h : Acyclic r) (hold : ∀ a c, a ≠ s → r' a c → r a c) :
    Acyclic r' ↔ ∀ c, r' s c → ¬ReflTransGen r' c s := by
  constructor
  · exact fun hac c hc hbc => hac s (.head' hc hbc)
  · intro hnn a hcy
    rcases transGen_of_new_edges hold hcy with hcy | ⟨hto, hfr⟩
    · exact h a hcy
    · obtain ⟨c, hc, hbc⟩ := TransGen.head'_iff.1 (hfr.trans_left hto)
      exact hnn c hc hbc

/-- The way to `s` needs no edge that leaves `s`. -/
theorem walk_of_new_edges (hold : ∀ a c, a ≠ s → r' a c → r a c) (h : ReflTransGen r' a s) :
    ∃ n, Walk r' n a s ∧ Walk r n a s := by
  induction h using ReflTransGen.head_induction_on with
  | refl => exact ⟨0, rfl, rfl⟩
  | @head a c hc _ ih =>
    by_cases ha : a = s
    · exact ⟨0, ha, ha⟩
    · obtain ⟨n, hnew, hwl⟩ := ih
      exact ⟨n + 1, ⟨c, hc, hnew⟩, c, hold a c ha hc, hwl⟩

/-- A walk without cycles is shorter than there are nodes ahead. -/
theorem Acyclic.walk_lt [DecidableEq α] (h : Acyclic r) {S : Finset α}
    (hS : ∀ x, ReflTransGen r a x → x ∈ S) (hwl : Walk r n a b) : n < S.card := by
  induction n generalizing a S with
  | zero => exact Finset.card_pos.2 ⟨a, hS a .refl⟩
  | succ n ih =>
    obtain ⟨c, hc, hwl⟩ := hwl
    -- no way leads from `c` back to `a`
    have hlt := @ih c (S.erase a) (fun x hx => Finset.mem_erase.2
      ⟨fun hxa => h a (.head' hc (hxa ▸ hx)), hS x (.head hc hx)⟩) hwl
    have hcd := Finset.card_erase_add_one (hS a .refl)
    omega

end CleanSlate.Lib
