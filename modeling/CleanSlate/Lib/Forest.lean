import CleanSlate.Lib.Slots
import Mathlib.Logic.Relation

/-!
# Subtrees of a forest of parent pointers

`parent i = some p` makes `i` a child of `p`. `sweep` visits the nodes in index order and adds
every node whose parent is already in the set; `saturate` repeats it a bounded number of times and
stops early once a sweep adds nothing. Whatever the order in which parents and children are
stored, each sweep completes at least one more level, so a bound on the rank of the nodes bounds
the sweeps needed: `saturate_spec` says that the result is then exactly the subtree.
-/

namespace CleanSlate.Lib.Forest

open Function

variable {n : Nat} {i root : Fin n} {s : (Fin n → Bool) × Bool} {inSet : Fin n → Bool}
  {rank : Fin n → Nat}

section
variable (parent : Fin n → Option (Fin n))

/-- `p` is the parent of `i`. -/
def Child (p i : Fin n) : Prop := parent i = some p

/-- `i` is `root` or lies below it. -/
def Descends (root i : Fin n) : Prop := Relation.ReflTransGen (Child parent) root i

/-- What a sweep does at one node, given the set and whether it has grown. -/
def visit (s : (Fin n → Bool) × Bool) (i : Fin n) : (Fin n → Bool) × Bool :=
  if s.1 i then s
  else match parent i with
    | none => s
    | some p => if s.1 p then (update s.1 i true, true) else s

/-- One pass over the nodes in index order. -/
def sweep (inSet : Fin n → Bool) : (Fin n → Bool) × Bool :=
  (List.finRange n).foldl (visit parent) (inSet, false)

/-- At most the given number of passes, stopping after one that adds nothing. -/
def saturate : Nat → (Fin n → Bool) → (Fin n → Bool)
  | 0, inSet => inSet
  | k + 1, inSet =>
    if (sweep parent inSet).2 then saturate k (sweep parent inSet).1 else (sweep parent inSet).1

theorem visit_mono (s : (Fin n → Bool) × Bool) (i j : Fin n) (hj : s.1 j) :
    (visit parent s i).1 j := by
  unfold visit
  split
  · exact hj
  split
  · exact hj
  split
  · by_cases h : j = i
    · subst h
      exact update_self ..
    · simpa only [update_of_ne h] using hj
  · exact hj

theorem visit_child {p : Fin n} (hp : parent i = some p) (hs : s.1 p) : (visit parent s i).1 i := by
  unfold visit
  split
  · next h => exact h
  · simp only [hp, hs, if_true, update_self]

theorem visit_sound {j : Fin n} (hj : (visit parent s i).1 j) :
    s.1 j ∨ ∃ p, parent j = some p ∧ s.1 p := by
  unfold visit at hj
  split at hj
  · exact .inl hj
  split at hj
  · exact .inl hj
  next p hp =>
  split at hj
  · next hs =>
    by_cases h : j = i
    · subst h
      exact .inr ⟨p, hp, hs⟩
    · simp only [update_of_ne h] at hj
      exact .inl hj
  · exact .inl hj

theorem visit_unchanged (h : (visit parent s i).2 = false) : visit parent s i = s := by
  unfold visit at h ⊢
  split
  · rfl
  next hi =>
  simp only [hi, Bool.false_eq_true, if_false] at h
  split
  · rfl
  next p hp =>
  simp only [hp] at h
  split
  · next hs => simp [hs] at h
  · rfl

theorem sweep_mono {j : Fin n} (hj : inSet j) : (sweep parent inSet).1 j :=
  Slots.foldl_induction (visit parent) (fun _ s => s.1 j) (inSet, false) hj
    fun i s hs => visit_mono parent s i j hs

theorem sweep_child {p : Fin n} (hp : parent i = some p) (hs : inSet p) :
    (sweep parent inSet).1 i := by
  have h := Slots.foldl_induction (visit parent)
    (fun k s => s.1 p ∧ (i.val < k → s.1 i)) (inSet, false)
    ⟨hs, fun h => absurd h (Nat.not_lt_zero _)⟩ (by
      rintro j s ⟨hsp, hsi⟩
      refine ⟨visit_mono parent s j p hsp, fun hlt => ?_⟩
      rcases Nat.lt_succ_iff_lt_or_eq.1 hlt with hlt | heq
      · exact visit_mono parent s j i (hsi hlt)
      · obtain rfl := Fin.ext heq
        exact visit_child parent hp hsp)
  exact h.2 i.isLt

theorem sweep_sound (hset : ∀ j, inSet j → Descends parent root j)
    (hi : (sweep parent inSet).1 i) : Descends parent root i := by
  refine Slots.foldl_induction (visit parent)
    (fun _ s => ∀ j, s.1 j → Descends parent root j) (inSet, false) hset ?_ i hi
  intro k s hs j hj
  rcases visit_sound parent hj with hj | ⟨p, hp, hsp⟩
  · exact hs j hj
  · exact (hs p hsp).tail hp

theorem sweep_unchanged (h : (sweep parent inSet).2 = false) : (sweep parent inSet).1 = inSet := by
  refine Slots.foldl_induction (visit parent)
    (fun _ s => s.2 = false → s.1 = inSet) (inSet, false) (fun _ => rfl) ?_ h
  intro i s hs hv
  have he := visit_unchanged parent hv
  rw [he] at hv ⊢
  exact hs hv

/-- A set closed under children that holds `root` holds everything below it. -/
theorem descends_mem (hrt : inSet root) (hcl : ∀ i p, parent i = some p → inSet p → inSet i)
    (h : Descends parent root i) : inSet i := by
  induction h with
  | refl => exact hrt
  | tail _ hc ih => exact hcl _ _ hc ih

section

variable (hrank : ∀ i p, parent i = some p → rank i = rank p + 1)
include hrank

/-- The rank grows along every edge, so only `root` itself has its rank or less below it. -/
theorem rank_lt_of_descends (h : Descends parent root i) : i = root ∨ rank root < rank i := by
  induction h with
  | refl => exact .inl rfl
  | tail _ hc ih =>
    have := hrank _ _ hc
    rcases ih with rfl | ih <;> omega

/-- **Bounded saturation computes the subtree.** If the set holds every node below `root` up to
level `m`, and no node below `root` is deeper than `m + k` levels, then `k` passes give exactly the
nodes below `root`. -/
theorem saturate_spec : ∀ k m inSet, inSet root → (∀ i, inSet i → Descends parent root i) →
      (∀ i, Descends parent root i → rank i ≤ rank root + m → inSet i) →
      (∀ i, Descends parent root i → rank i ≤ rank root + m + k) →
      ∀ i, saturate parent k inSet i ↔ Descends parent root i := by
  intro k
  induction k with
  | zero =>
    intro m inSet _ hsn hlv hbn i
    exact ⟨hsn i, fun hd => hlv i hd (hbn i hd)⟩
  | succ k ih =>
    intro m inSet hrt hsn hlv hbn i
    unfold saturate
    split
    · refine ih (m + 1) _ (sweep_mono parent hrt) (fun j hj => sweep_sound parent hsn hj) ?_
        (fun j hj => (hbn j hj).trans (by omega)) i
      -- one more level: a node at level `m + 1` has its parent at level `m`
      intro j hj hle
      cases hj with
      | refl => exact sweep_mono parent hrt
      | tail hp hc =>
        have := hrank _ _ hc
        exact sweep_child parent hc (hlv _ hp (by omega))
    · next hadd =>
      have he := sweep_unchanged parent (Bool.eq_false_iff.2 hadd)
      rw [he]
      refine ⟨hsn i, descends_mem parent hrt fun j p hp hs => ?_⟩
      rw [← he]
      exact sweep_child parent hp hs

end

end

end CleanSlate.Lib.Forest
