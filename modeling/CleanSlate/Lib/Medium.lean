import CleanSlate.Lib.Bytes

/-!
# A block medium behind a write cache

A medium maps addresses to elements. Writes of whole blocks are applied in the order they were
issued; those a cache has not yet made durable may reach the medium or not, each on its own.
-/

namespace CleanSlate.Lib

open List

variable {α : Type}

/-- What every address holds. -/
abbrev Medium (α : Type) := Nat → α

namespace Medium

/-- The `n` elements from address `a` on. -/
def peek (m : Medium α) (a n : Nat) : List α := (List.range n).map fun k => m (a + k)

/-- The medium with `source` written at address `a`. -/
def poke (m : Medium α) (a : Nat) (source : List α) : Medium α :=
  fun i => if a ≤ i then source[i - a]?.getD (m i) else m i

@[simp] theorem length_peek (m : Medium α) (a n : Nat) : (m.peek a n).length = n := by
  simp [peek]

theorem getElem?_peek (m : Medium α) (a n i : Nat) :
    (m.peek a n)[i]? = if i < n then some (m (a + i)) else none := by
  unfold peek
  by_cases hi : i < n
  · rw [if_pos hi, getElem?_map, getElem?_range hi]
    rfl
  · rw [if_neg hi]
    exact getElem?_eq_none (by simpa using hi)

variable {a n k i : Nat} {m : Medium α} {source : List α}

theorem peek_congr {m' : Medium α} (h : ∀ i, a ≤ i → i < a + n → m i = m' i) :
    m.peek a n = m'.peek a n := by
  refine map_congr_left fun k hk => ?_
  have hk := mem_range.1 hk
  exact h (a + k) (by omega) (by omega)

theorem peek_add (m : Medium α) (a n k : Nat) :
    m.peek a (n + k) = m.peek a n ++ m.peek (a + n) k := by
  unfold peek
  rw [range_add, map_append, map_map]
  simp only [Function.comp_def, Nat.add_assoc]

theorem slice_peek (m : Medium α) (a : Nat) {off : Nat} (h : off + k ≤ n) :
    slice (m.peek a n) off k = m.peek (a + off) k := by
  apply ext_getElem?
  intro i
  rw [getElem?_slice, getElem?_peek, getElem?_peek]
  by_cases hi : i < k
  · rw [if_pos hi, if_pos hi, if_pos (by omega), Nat.add_assoc]
  · rw [if_neg hi, if_neg hi]

theorem take_peek (m : Medium α) (a : Nat) (h : k ≤ n) : (m.peek a n).take k = m.peek a k := by
  have hsl : slice (m.peek a n) 0 k = m.peek (a + 0) k := slice_peek m a (by omega)
  simpa [slice] using hsl

/-! ## Writing -/

theorem poke_of_lt (h : i < a) : m.poke a source i = m i := by
  unfold poke
  rw [if_neg (by omega)]

theorem poke_of_ge (h : a + source.length ≤ i) : m.poke a source i = m i := by
  unfold poke
  rw [if_pos (by omega), getElem?_eq_none (by omega)]
  rfl

theorem poke_of_not_mem (h : i < a ∨ a + source.length ≤ i) : m.poke a source i = m i := by
  rcases h with h | h
  · exact poke_of_lt h
  · exact poke_of_ge h

theorem poke_of_mem (h : k < source.length) : m.poke a source (a + k) = source[k] := by
  unfold poke
  rw [if_pos (by omega), Nat.add_sub_cancel_left, getElem?_eq_getElem h]
  rfl

theorem peek_poke_self (h : source.length = n) : (m.poke a source).peek a n = source := by
  subst h
  apply ext_getElem?
  intro i
  rw [getElem?_peek]
  by_cases hi : i < source.length
  · rw [if_pos hi, poke_of_mem hi, getElem?_eq_getElem hi]
  · rw [if_neg hi, getElem?_eq_none (by omega)]

theorem peek_poke_singleton {off : Nat} (h : off < n) (value : α) :
    (m.poke (a + off) [value]).peek a n = (m.peek a n).set off value := by
  apply ext_getElem?
  intro i
  rw [getElem?_peek, getElem?_set, length_peek, getElem?_peek]
  by_cases hi : off = i
  · subst hi
    have hsl : m.poke (a + off) [value] (a + off + 0) = value := poke_of_mem (by simp)
    rw [if_pos h, if_pos rfl, if_pos h]
    exact congrArg some hsl
  · rw [if_neg hi, poke_of_not_mem (by rw [length_singleton]; omega)]

theorem poke_append (m : Medium α) (a : Nat) (source rest : List α) :
    m.poke a (source ++ rest) = (m.poke a source).poke (a + source.length) rest := by
  funext i
  by_cases hlow : i < a
  · rw [poke_of_lt hlow, poke_of_lt (by omega), poke_of_lt hlow]
  by_cases hmid : i < a + source.length
  · obtain ⟨k, rfl⟩ := Nat.exists_eq_add_of_le (Nat.not_lt.1 hlow)
    have hk : k < source.length := by omega
    rw [poke_of_lt hmid, poke_of_mem hk, poke_of_mem (by simp; omega), getElem_append_left hk]
  · obtain ⟨k, rfl⟩ := Nat.exists_eq_add_of_le (Nat.not_lt.1 hmid)
    by_cases hk : k < rest.length
    · rw [poke_of_mem hk, Nat.add_assoc, poke_of_mem (by simp; omega)]
      simp
    · rw [poke_of_ge (by simp; omega), poke_of_ge (by omega), poke_of_ge (by omega)]

@[simp] theorem poke_nil (m : Medium α) (a : Nat) : m.poke a [] = m := by
  funext i
  by_cases hi : i < a
  · exact poke_of_lt hi
  · exact poke_of_ge (by simpa using hi)

end Medium

/-! ## Blocks -/

/-- A write of one block. -/
structure BlockWrite (α : Type) where
  lba : Nat
  data : List α

/-- The writes of the blocks of `buffer`, from block `lba` on. -/
def blockWrites (size lba : Nat) (buffer : List α) (blocks : Nat) : List (BlockWrite α) :=
  (List.range blocks).map fun k => ⟨lba + k, slice buffer (k * size) size⟩

/-- The medium after the writes, in order. -/
def Medium.apply (size : Nat) (m : Medium α) (writes : List (BlockWrite α)) : Medium α :=
  writes.foldl (fun m w => m.poke (w.lba * size) w.data) m

variable {size : Nat}

section Blocks

@[simp] theorem Medium.apply_nil (m : Medium α) : m.apply size [] = m := rfl

theorem Medium.apply_append (m : Medium α) (writes writes' : List (BlockWrite α)) :
    m.apply size (writes ++ writes') = (m.apply size writes).apply size writes' := by
  simp [Medium.apply, foldl_append]

theorem mem_blockWrites {lba : Nat} {buffer : List α} {blocks : Nat} {w : BlockWrite α}
    (h : w ∈ blockWrites size lba buffer blocks) :
    lba ≤ w.lba ∧ w.lba < lba + blocks ∧ w.data.length ≤ size := by
  obtain ⟨k, hk, rfl⟩ := mem_map.1 h
  have hk := mem_range.1 hk
  simp only [slice, length_take]
  omega

theorem Medium.apply_blockWrites (m : Medium α) (lba : Nat) (buffer : List α) {blocks : Nat}
    (h : buffer.length = blocks * size) :
    m.apply size (blockWrites size lba buffer blocks) = m.poke (lba * size) buffer := by
  -- the first `k` blocks are the first `k * size` elements
  have hbl : ∀ k ≤ blocks, m.apply size (blockWrites size lba buffer k) =
      m.poke (lba * size) (buffer.take (k * size)) := by
    intro k
    induction k with
    | zero => simp [blockWrites]
    | succ k ih =>
      intro hk
      have hle : (k + 1) * size ≤ blocks * size := Nat.mul_le_mul_right size hk
      rw [Nat.succ_mul] at hle
      have hlen : (buffer.take (k * size)).length = k * size := by
        rw [length_take]
        omega
      have hsp : buffer.take ((k + 1) * size) =
          buffer.take (k * size) ++ slice buffer (k * size) size := by
        rw [Nat.succ_mul, take_add]
        rfl
      unfold blockWrites at ih ⊢
      rw [range_succ, map_append, Medium.apply_append, ih (by omega), hsp,
        Medium.poke_append, hlen, ← Nat.add_mul]
      rfl
  rw [hbl blocks le_rfl, ← h, take_length]

/-- An address none of the written blocks covers keeps what it held. -/
theorem Medium.apply_of_not_mem {m : Medium α} {writes : List (BlockWrite α)} {i : Nat}
    (hsz : ∀ w ∈ writes, w.data.length ≤ size)
    (h : ∀ w ∈ writes, i < w.lba * size ∨ (w.lba + 1) * size ≤ i) :
    m.apply size writes i = m i := by
  unfold Medium.apply
  induction writes generalizing m with
  | nil => rfl
  | cons w writes ih =>
    rw [foldl_cons, ih (fun w hw => hsz w (mem_cons_of_mem _ hw))
      fun w hw => h w (mem_cons_of_mem _ hw)]
    refine Medium.poke_of_not_mem ?_
    have hlen := hsz w mem_cons_self
    have hrn := h w mem_cons_self
    rw [Nat.succ_mul] at hrn
    omega

end Blocks

end CleanSlate.Lib
