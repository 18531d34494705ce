import Mathlib.Data.Fintype.BigOperators
import Mathlib.Data.List.FinRange
import Mathlib.Data.List.MinMax

/-!
# Fixed arrays of slots

A fixed array `[α; n]` is the function `Fin n → α` that reads it; a write is `Function.update`.
This file has the three things loops over such arrays compute: the number of slots with a
property (`count`), the first such slot (`position`), and a left fold over the slots in index
order, with its induction rule (`foldl_induction`).
-/

namespace CleanSlate.Lib.Slots

open Function List Finset

variable {n : Nat} {α β : Type} {κ : Type} {a : α} {j : Fin n}

/-- A write that keeps what `φ` reads of its slot keeps it everywhere. -/
theorem read_update [DecidableEq κ] {f : κ → α} {i : κ} {φ : α → β} (h : φ a = φ (f i)) (j : κ) :
    φ (update f i a j) = φ (f j) := by
  rw [update_apply]
  split
  · next hj => rw [hj, h]
  · rfl

/-- A write moves a sum over the slots by what the slot held and what it now holds. -/
theorem sum_update {M : Type} [DecidableEq κ] [AddCommMonoid M] {keys : Finset κ} {k : κ}
    (hk : k ∈ keys) (weight : α → M) (f : κ → α) (a : α) :
    (∑ j ∈ keys, weight (update f k a j)) + weight (f k) =
      (∑ j ∈ keys, weight (f j)) + weight a := by
  have h : ∀ j, weight (update f k a j) = update (weight ∘ f) k (weight a) j :=
    congrFun (comp_update weight f k a)
  simp only [h]
  rw [sum_update_of_mem hk,
    sum_eq_add_sum_sdiff_singleton_of_mem hk fun j => weight (f j), add_assoc, add_comm,
    add_comm _ (weight (f k))]
  rfl

/-- The slots below `i` rewritten, and then slot `i`. -/
theorem update_below (f f' : Fin n → α) (i : Fin n) :
    update (fun j => if j.val < i.val then f' j else f j) i (f' i) =
      fun j => if j.val < i.val + 1 then f' j else f j := by
  funext j
  by_cases hj : j = i
  · subst hj
    simp
  have hlt : (j.val < i.val + 1) = (j.val < i.val) := by
    apply propext
    omega
  rw [update_of_ne hj]
  simp only [hlt]

/-! ## Counting -/

/-- The number of slots whose value satisfies `p`. -/
def count (p : α → Bool) (f : Fin n → α) : Nat := (List.finRange n).countP fun i => p (f i)

theorem count_eq_sum (p : α → Bool) (f : Fin n → α) :
    count p f = ∑ i, if p (f i) then 1 else 0 := by
  unfold count
  rw [← card_filter, countP_eq_length_filter]
  have h : ((finRange n).filter fun i => p (f i)).toFinset = univ.filter fun i => p (f i) := by
    simp
  rw [← h, toFinset_card_of_nodup ((nodup_finRange n).filter _)]

theorem count_eq_card (p : α → Bool) (f : Fin n → α) :
    count p f = (univ.filter fun i => p (f i)).card := by
  rw [count_eq_sum, card_filter]

variable {f : Fin n → α} {γ : Type} {g : Fin n → γ} {i : Fin n} {p : α → Bool} {q : γ → Bool}

theorem count_congr (h : ∀ i, p (f i) = q (g i)) : count p f = count q g :=
  countP_congr fun i _ => by rw [h i]

/-- A write moves the count by what the slot held and what it now holds. -/
theorem count_update (p : α → Bool) (f : Fin n → α) (i : Fin n) (a : α) :
    count p (update f i a) + (if p (f i) then 1 else 0) = count p f + (if p a then 1 else 0) := by
  rw [count_eq_sum, count_eq_sum]
  exact sum_update (mem_univ i) (fun a => if p a then 1 else 0) f a

theorem count_update_of_not (h : p (f i) = false) (a : α) :
    count p (update f i a) = count p f + if p a then 1 else 0 := by
  have hup := count_update p f i a
  rw [h] at hup
  simpa using hup

theorem count_update_drop (h : p a = false) (f : Fin n → α) (i : Fin n) :
    count p (update f i a) + (if p (f i) then 1 else 0) = count p f := by
  have hup := count_update p f i a
  rw [h] at hup
  simpa using hup

theorem count_add {δ : Type} {r : δ → Bool} {h : Fin n → δ}
    (hsum : ∀ i, (if p (f i) then 1 else 0) + (if q (g i) then 1 else 0) =
      if r (h i) then 1 else 0) : count p f + count q g = count r h := by
  rw [count_eq_sum, count_eq_sum, count_eq_sum, ← sum_add_distrib]
  exact sum_congr rfl fun i _ => hsum i

theorem count_mono (h : ∀ i, p (f i) → q (g i)) : count p f ≤ count q g :=
  countP_mono_left fun i _ hi => h i hi

theorem count_eq_zero : count p f = 0 ↔ ∀ i, p (f i) = false := by
  unfold count
  rw [countP_eq_zero]
  constructor
  · intro h i
    exact Bool.eq_false_iff.2 (h i (mem_finRange i))
  · intro h i _
    exact Bool.eq_false_iff.1 (h i)

theorem count_pos : 0 < count p f ↔ ∃ i, p (f i) := by
  unfold count
  rw [countP_pos_iff]
  constructor
  · rintro ⟨i, -, h⟩
    exact ⟨i, h⟩
  · rintro ⟨i, h⟩
    exact ⟨i, mem_finRange i, h⟩

theorem count_or {p q : α → Bool} (h : ∀ i, ¬(p (f i) ∧ q (f i))) :
    count (fun a => p a || q a) f = count p f + count q f := by
  refine (count_add fun i => ?_).symm
  cases hp : p (f i) <;> cases hq : q (f i) <;> simp_all

theorem eq_of_count_le_one (h : count p f ≤ 1) (hi : p (f i)) (hj : p (f j)) : i = j := by
  rw [count_eq_card, card_le_one] at h
  exact h i (by simpa using hi) j (by simpa using hj)

theorem count_le (p : α → Bool) (f : Fin n → α) : count p f ≤ n := by
  have h := countP_le_length (p := fun i => p (f i)) (l := finRange n)
  simpa [count] using h

theorem count_eq_n : count p f = n ↔ ∀ i, p (f i) := by
  have h := countP_eq_length (p := fun i => p (f i)) (l := finRange n)
  rw [length_finRange] at h
  unfold count
  rw [h]
  exact ⟨fun h i => h i (mem_finRange i), fun h i _ => h i⟩

/-- The number of slots before `k` with the property `q`: what a loop that counts has counted when
it reaches slot `k`. -/
def countBelow (k : Nat) (q : Fin n → Bool) : Nat :=
  count id fun i : Fin n => decide (i.val < k) && q i

theorem countBelow_zero (q : Fin n → Bool) : countBelow 0 q = 0 := by
  simp [countBelow, count_eq_zero]

theorem countBelow_succ (i : Fin n) (q : Fin n → Bool) :
    countBelow (i + 1) q = countBelow i q + if q i then 1 else 0 := by
  have hcn : ∀ k, countBelow k q = count id fun j => if j.val < k then q j else false :=
    fun k => count_congr fun j => by by_cases hj : j.val < k <;> simp [hj]
  rw [hcn, hcn, ← update_below (fun _ => false) q i, count_update_of_not (by simp)]
  rfl

theorem countBelow_all (q : Fin n → Bool) : countBelow n q = count id q := by
  unfold countBelow
  simp

/-! ## Searching -/

/-- The first slot, in index order, whose value satisfies `p`. -/
def position (p : α → Bool) (f : Fin n → α) : Option (Fin n) :=
  (List.finRange n).find? fun i => p (f i)

theorem position_some (h : position p f = some i) : p (f i) :=
  find?_some (p := fun i => p (f i)) h

/-- No slot before the one found satisfies `p`. -/
theorem position_first (h : position p f = some i) (hj : j < i) : p (f j) = false := by
  unfold position at h
  rw [find?_eq_some_iff_getElem] at h
  obtain ⟨-, k, hk, hki, hbf⟩ := h
  have hk' : k = i.val := by simpa using congrArg Fin.val hki
  have hjk := hbf j.val (by omega)
  simpa using hjk

theorem position_none : position p f = none ↔ ∀ i, p (f i) = false := by
  unfold position
  rw [find?_eq_none]
  constructor
  · intro h i
    exact Bool.eq_false_iff.2 (h i (mem_finRange i))
  · intro h i _
    exact Bool.eq_false_iff.1 (h i)

theorem position_congr (h : ∀ i, p (f i) = q (g i)) : position p f = position q g := by
  unfold position
  simp only [h]

theorem position_isSome (h : p (f i)) : ∃ j, position p f = some j := by
  cases hp : position p f with
  | some j => exact ⟨j, rfl⟩
  | none => rw [position_none.1 hp i] at h; cases h

/-! ## Loops over the slots -/

/-- Induction along `for i in 0..n`: a property of the loop index and the loop state that holds
before the first iteration and passes each iteration holds after the last. -/
theorem foldl_induction (step : β → Fin n → β) (P : Nat → β → Prop) (init : β)
    (zero : P 0 init) (succ : ∀ (i : Fin n) b, P i b → P (i + 1) (step b i)) :
    P n ((finRange n).foldl step init) := by
  have key : ∀ k (hk : k ≤ n) b, P k b → P n (((finRange n).drop k).foldl step b) := by
    intro k hk
    induction hk using Nat.decreasingInduction with
    | self =>
      intro b hb
      rw [drop_eq_nil_of_le (by simp)]
      exact hb
    | of_succ k hk ih =>
      intro b hb
      have hdr : (finRange n).drop k = ⟨k, hk⟩ :: (finRange n).drop (k + 1) := by
        rw [drop_eq_getElem_cons (by simpa using hk)]
        simp
      rw [hdr]
      exact ih _ (succ ⟨k, hk⟩ b hb)
  simpa using key 0 (Nat.zero_le n) init zero

/-- A loop that rewrites each slot from that slot's own value rewrites every slot once. -/
theorem foldl_update (g : Fin n → α → α) (f : Fin n → α) :
    (finRange n).foldl (fun f i => update f i (g i (f i))) f = fun i => g i (f i) := by
  have h := foldl_induction (fun f i => update f i (g i (f i)))
    (fun k f' => f' = fun i => if i.val < k then g i (f i) else f i) f (by simp) (by
      rintro i _ rfl
      simpa using update_below f (fun j => g j (f j)) i)
  simpa using h

/-! ## Minima -/

variable (key : Fin n → Nat) (p : Fin n → Bool)

/-- One iteration of the search for a minimum: `i` replaces a larger candidate. -/
def minStep (best : Option (Fin n)) (i : Fin n) : Option (Fin n) :=
  if p i then
    match best with
    | none => some i
    | some b => if key i < key b then some i else some b
  else best

/-- The slot with the smallest `key` among those that satisfy `p`, the first of several. -/
def minBy : Option (Fin n) :=
  (List.finRange n).foldl (minStep key p) none

theorem minBy_eq_argmin : minBy key p = ((finRange n).filter p).argmin key := by
  unfold List.argmin
  rw [foldl_filter]
  refine foldl_ext _ _ _ fun best i _ => ?_
  cases best <;> rfl

variable {key p} in
theorem minBy_some {b : Fin n} (h : minBy key p = some b) :
    p b ∧ ∀ i, p i → key b ≤ key i := by
  rw [minBy_eq_argmin] at h
  refine ⟨of_mem_filter (argmin_mem h), fun i hi => ?_⟩
  exact le_of_mem_argmin (mem_filter.2 ⟨mem_finRange i, hi⟩) h

end CleanSlate.Lib.Slots
