import Mathlib.Data.Fin.Basic
import Mathlib.Data.Nat.ModEq

/-!
# Ring buffers

A fixed array with a head index and a length, read modulo its capacity. `toList` is the queue a
ring stands for; `push`, `pop` and `clear` are the queue's own operations on it, as long as a push
finds room. `pushSlice` and `popSlice` move as many elements as they can at once.
-/

namespace CleanSlate.Lib

open List

/-- A ring of capacity `n`: the `len` cells from `head` on, modulo `n`, are in use. -/
structure Ring (α : Type) (n : Nat) where
  head : Fin n
  len : Nat
  cells : Fin n → α

namespace Ring

variable {α : Type} {n : Nat} [NeZero n] (r : Ring α n)

/-- The cell `k` places after the head. -/
def index (k : Nat) : Fin n := Fin.ofNat n (r.head + k)

def clear : Ring α n := { r with
  head := Fin.ofNat n 0
  len := 0 }

/-- Writes the cell after the last one in use; the caller has checked that there is room. -/
def push (a : α) : Ring α n := { r with
  cells := Function.update r.cells (r.index r.len) a
  len := r.len + 1 }

def pop : Option (α × Ring α n) :=
  if r.len = 0 then none
  else some (r.cells r.head, { r with
    head := r.index 1
    len := r.len - 1 })

/-- The queue the ring stands for, oldest first. -/
def toList : List α := (List.range r.len).map fun k => r.cells (r.index k)

@[simp] theorem length_toList : r.toList.length = r.len := by
  simp [toList]

theorem toList_eq_nil {r : Ring α n} : r.toList = [] ↔ r.len = 0 := by
  rw [← length_eq_zero_iff, length_toList]

omit [NeZero n] in
theorem mod_ne_of_lt {a j k : Nat} (hjk : j < k) (hk : k < j + n) : (a + j) % n ≠ (a + k) % n := by
  intro h
  have hsub : n ∣ (a + k) - (a + j) := (Nat.modEq_iff_dvd' (by omega)).1 h
  have hle := Nat.le_of_dvd (by omega) hsub
  omega

theorem index_ne {j k : Nat} (hjk : j < k) (hk : k < j + n) : r.index j ≠ r.index k := by
  intro h
  exact mod_ne_of_lt hjk hk (congrArg Fin.val h)

theorem toList_push (a : α) (h : r.len < n) : (r.push a).toList = r.toList ++ [a] := by
  unfold toList push
  simp only [range_succ, map_append, map_cons, map_nil]
  have hls : Function.update r.cells (r.index r.len) a (r.index r.len) = a :=
    Function.update_self ..
  refine congrArg₂ (· ++ ·) (map_congr_left fun k hk => ?_) (congrArg (fun x => [x]) hls)
  have hk : k < r.len := mem_range.1 hk
  exact Function.update_of_ne (r.index_ne hk (by omega)) a r.cells

theorem index_pop (k : Nat) : Fin.ofNat n ((r.index 1).val + k) = r.index (k + 1) := by
  apply Fin.ext
  change ((r.head + 1) % n + k) % n = (r.head + (k + 1)) % n
  rw [Nat.mod_add_mod, Nat.add_assoc, Nat.add_comm 1 k]

/-- A pop takes the oldest element, and fails exactly on the empty queue. -/
theorem pop_eq : (r.pop = none ∧ r.toList = []) ∨
    ∃ a r', r.pop = some (a, r') ∧ r.toList = a :: r'.toList ∧ r'.len + 1 = r.len := by
  unfold pop
  by_cases h : r.len = 0
  · rw [if_pos h]
    exact .inl ⟨rfl, toList_eq_nil.2 h⟩
  rw [if_neg h]
  refine .inr ⟨_, _, rfl, ?_, by simp only; omega⟩
  obtain ⟨m, hm⟩ := Nat.exists_eq_succ_of_ne_zero h
  unfold toList
  simp only [hm, Nat.succ_eq_add_one, Nat.add_sub_cancel, range_succ_eq_map, map_cons, map_map]
  refine congrArg₂ cons ?_ (map_congr_left fun k _ => ?_)
  · have hhd : r.index 0 = r.head := Fin.ext (Nat.mod_eq_of_lt r.head.isLt)
    rw [hhd]
  · exact (congrArg r.cells (r.index_pop k)).symm

/-! ## Slices -/

/-- Writes the elements of `data` that there is room for, and says how many those are. -/
def pushSlice (data : List α) : Nat × Ring α n :=
  let count := min data.length (n - r.len)
  (count, (data.take count).foldl push r)

/-- Reads at most `cap` elements from the head on. -/
def popSlice (cap : Nat) : List α × Ring α n :=
  let count := min cap r.len
  ((List.range count).map fun k => r.cells (r.index k),
    { r with head := r.index count, len := r.len - count })

theorem foldl_push (data : List α) (h : r.len + data.length ≤ n) :
    (data.foldl push r).toList = r.toList ++ data ∧
      (data.foldl push r).len = r.len + data.length := by
  induction data generalizing r with
  | nil => exact ⟨(append_nil _).symm, rfl⟩
  | cons a data ih =>
    rw [length_cons] at h
    obtain ⟨hls, hlen⟩ := ih (r.push a) (by change r.len + 1 + _ ≤ n; omega)
    rw [toList_push r a (by omega), append_assoc] at hls
    refine ⟨hls, hlen.trans ?_⟩
    change r.len + 1 + data.length = r.len + (data.length + 1)
    omega

theorem toList_pushSlice (data : List α) (h : r.len ≤ n) :
    (r.pushSlice data).2.toList = r.toList ++ data.take (n - r.len) := by
  have hfl := (r.foldl_push (data.take (min data.length (n - r.len)))
    (by rw [length_take]; omega)).1
  refine hfl.trans (congrArg (r.toList ++ ·) ?_)
  rw [Nat.min_comm, ← take_eq_take_min]

theorem len_pushSlice (data : List α) (h : r.len ≤ n) :
    (r.pushSlice data).2.len = r.len + min data.length (n - r.len) := by
  have hfl := (r.foldl_push (data.take (min data.length (n - r.len)))
    (by rw [length_take]; omega)).2
  rw [length_take] at hfl
  exact hfl.trans (by omega)

theorem popSlice_eq (cap : Nat) : r.toList = (r.popSlice cap).1 ++ (r.popSlice cap).2.toList := by
  have hsp : r.len = min cap r.len + (r.len - min cap r.len) := by omega
  conv_lhs => rw [toList, hsp, range_add, map_append, map_map]
  refine congrArg₂ (· ++ ·) rfl (map_congr_left fun k _ => congrArg r.cells (Fin.ext ?_))
  change (r.head + (min cap r.len + k)) % n = ((r.head + min cap r.len) % n + k) % n
  rw [Nat.mod_add_mod, Nat.add_assoc]

theorem length_popSlice (cap : Nat) : (r.popSlice cap).1.length = min cap r.len := by
  simp [popSlice]

end Ring

end CleanSlate.Lib
