import Mathlib.Data.List.Basic
import Mathlib.Tactic.Ring

/-!
# Reading and writing buffers

`slice` reads a range of a buffer, `splice` writes one, and `toLe` and `ofLe` turn numbers into
little-endian bytes and back. A read sees the last write to its range and nothing of a write next
to it.
-/

namespace CleanSlate.Lib

open List

variable {α : Type} {buffer source : List α} {off n : Nat} {fields : List (Nat × List α)}

section Buffer

/-- The `n` elements from offset `off` on. -/
def slice (buffer : List α) (off n : Nat) : List α := (buffer.drop off).take n

/-- The buffer with `source` written over it at offset `off`. -/
def splice (buffer : List α) (off : Nat) (source : List α) : List α :=
  buffer.take off ++ source ++ buffer.drop (off + source.length)

theorem length_slice (h : off + n ≤ buffer.length) : (slice buffer off n).length = n := by
  simp only [slice, length_take, length_drop]
  omega

theorem getElem?_slice (buffer : List α) (off n i : Nat) :
    (slice buffer off n)[i]? = if i < n then buffer[off + i]? else none := by
  simp only [slice, getElem?_take, getElem?_drop]

section

variable (h : off + source.length ≤ buffer.length)
include h

theorem length_splice : (splice buffer off source).length = buffer.length := by
  simp only [splice, length_append, length_take, length_drop]
  omega

theorem getElem?_splice (i : Nat) : (splice buffer off source)[i]? =
      if off ≤ i ∧ i < off + source.length then source[i - off]? else buffer[i]? := by
  have htk : (buffer.take off).length = off := by
    rw [length_take]
    omega
  unfold splice
  rw [append_assoc, getElem?_append, htk]
  by_cases hlow : i < off
  · rw [if_pos hlow, if_neg (by omega), getElem?_take, if_pos hlow]
  rw [if_neg hlow, getElem?_append]
  by_cases hmid : i - off < source.length
  · rw [if_pos hmid, if_pos (by omega)]
  · rw [if_neg hmid, if_neg (by omega), getElem?_drop]
    congr 1
    omega

theorem slice_splice_self (hn : source.length = n) :
    slice (splice buffer off source) off n = source := by
  subst hn
  apply ext_getElem?
  intro i
  rw [getElem?_slice, getElem?_splice h]
  by_cases hi : i < source.length
  · rw [if_pos hi, if_pos (by omega), Nat.add_sub_cancel_left]
  · rw [if_neg hi, getElem?_eq_none (by omega)]

theorem slice_splice_of_disjoint {off' : Nat} (hd : off' + n ≤ off ∨ off + source.length ≤ off') :
    slice (splice buffer off source) off' n = slice buffer off' n := by
  apply ext_getElem?
  intro i
  rw [getElem?_slice, getElem?_slice, getElem?_splice h]
  by_cases hi : i < n
  · rw [if_pos hi, if_pos hi, if_neg (by omega)]
  · rw [if_neg hi, if_neg hi]

end

theorem slice_slice (buffer : List α) {off' n' : Nat} (h : off' + n' ≤ n) :
    slice (slice buffer off n) off' n' = slice buffer (off + off') n' := by
  apply ext_getElem?
  intro i
  rw [getElem?_slice, getElem?_slice, getElem?_slice]
  by_cases hi : i < n'
  · rw [if_pos hi, if_pos (by omega), if_pos hi, Nat.add_assoc]
  · rw [if_neg hi, if_neg hi]

theorem slice_split (buffer : List α) (off : Nat) {k : Nat} (h : k ≤ n) :
    slice buffer off n = slice buffer off k ++ slice buffer (off + k) (n - k) := by
  have hpr := take_append_drop k (slice buffer off n)
  rw [← hpr]
  simp only [slice, take_take, drop_take, drop_drop]
  congr 2
  omega

/-! ### Several fields -/

/-- The buffer with every field written at its offset. -/
def spliceAll (buffer : List α) (fields : List (Nat × List α)) : List α :=
  fields.foldl (fun buffer field => splice buffer field.1 field.2) buffer

/-- Fields within a buffer of length `len`. -/
def FieldsFit (len : Nat) (fields : List (Nat × List α)) : Prop :=
  ∀ field ∈ fields, field.1 + field.2.length ≤ len

/-- One of the fields ends before the other starts. -/
def FieldsApart (field field' : Nat × List α) : Prop :=
  field.1 + field.2.length ≤ field'.1 ∨ field'.1 + field'.2.length ≤ field.1

section

variable (h : FieldsFit buffer.length fields)
include h

theorem length_spliceAll : (spliceAll buffer fields).length = buffer.length := by
  unfold spliceAll
  induction fields generalizing buffer with
  | nil => rfl
  | cons field fields ih =>
    have hlen := length_splice (h field mem_cons_self)
    rw [foldl_cons, ih, hlen]
    rw [hlen]
    exact fun f hf => h f (mem_cons_of_mem _ hf)

theorem slice_spliceAll_of_disjoint
    (hd : ∀ field ∈ fields, off + n ≤ field.1 ∨ field.1 + field.2.length ≤ off) :
    slice (spliceAll buffer fields) off n = slice buffer off n := by
  unfold spliceAll
  induction fields generalizing buffer with
  | nil => rfl
  | cons field fields ih =>
    have hfit := h field mem_cons_self
    rw [foldl_cons, ih]
    · exact slice_splice_of_disjoint hfit (hd field mem_cons_self)
    · rw [length_splice hfit]
      exact fun f hf => h f (mem_cons_of_mem _ hf)
    · exact fun f hf => hd f (mem_cons_of_mem _ hf)

theorem slice_spliceAll (hd : fields.Pairwise FieldsApart)
    (hmem : (off, source) ∈ fields) (hn : source.length = n) :
    slice (spliceAll buffer fields) off n = source := by
  induction fields generalizing buffer with
  | nil => cases hmem
  | cons field fields ih =>
    have hfit := h field mem_cons_self
    have hrs : FieldsFit (splice buffer field.1 field.2).length fields := by
      rw [length_splice hfit]
      exact fun f hf => h f (mem_cons_of_mem _ hf)
    rcases mem_cons.1 hmem with rfl | hmem
    · have hds : slice (spliceAll (splice buffer off source) fields) off n =
          slice (splice buffer off source) off n := by
        refine slice_spliceAll_of_disjoint hrs fun f hf => ?_
        have hap := rel_of_pairwise_cons hd hf
        unfold FieldsApart at hap
        simp only at hap
        omega
      exact hds.trans (slice_splice_self hfit hn)
    · exact ih hrs hd.of_cons hmem

end

end Buffer

/-! ## Little-endian numbers -/

/-- The `w` little-endian bytes of `n`. -/
def toLe : Nat → Nat → List UInt8
  | 0, _ => []
  | w + 1, n => UInt8.ofNat n :: toLe w (n / 256)

def ofLe : List UInt8 → Nat
  | [] => 0
  | byte :: bytes => byte.toNat + 256 * ofLe bytes

@[simp] theorem length_toLe (w n : Nat) : (toLe w n).length = w := by
  induction w generalizing n with
  | zero => rfl
  | succ w ih => simp [toLe, ih]

theorem ofLe_toLe (w n : Nat) : ofLe (toLe w n) = n % 256 ^ w := by
  induction w generalizing n with
  | zero => simp [toLe, ofLe, Nat.mod_one]
  | succ w ih =>
    have hby : (UInt8.ofNat n).toNat = n % 256 := by simp
    rw [toLe, ofLe, ih, hby, Nat.pow_succ', Nat.mod_mul]

theorem ofLe_toLe_of_lt {w n : Nat} (h : n < 256 ^ w) : ofLe (toLe w n) = n := by
  rw [ofLe_toLe, Nat.mod_eq_of_lt h]

theorem ofLe_lt (bytes : List UInt8) : ofLe bytes < 256 ^ bytes.length := by
  induction bytes with
  | nil => simp [ofLe]
  | cons byte bytes ih =>
    have hby : byte.toNat < 256 := byte.toNat_lt
    rw [ofLe, length_cons]
    omega

theorem toLe_ofLe (bytes : List UInt8) : toLe bytes.length (ofLe bytes) = bytes := by
  induction bytes with
  | nil => rfl
  | cons byte bytes ih =>
    have hby : byte.toNat < 256 := byte.toNat_lt
    have hlow : UInt8.ofNat (byte.toNat + 256 * ofLe bytes) = byte := by
      apply UInt8.toNat_inj.1
      rw [UInt8.toNat_ofNat']
      omega
    have hhg : (byte.toNat + 256 * ofLe bytes) / 256 = ofLe bytes := by omega
    rw [length_cons, ofLe, toLe, hlow, hhg, ih]

theorem toLe_ofLe_mod {bytes : List UInt8} {w : Nat} (h : bytes.length = w) :
    toLe w (ofLe bytes % 256 ^ w) = bytes := by
  subst h
  rw [Nat.mod_eq_of_lt (ofLe_lt bytes), toLe_ofLe]

end CleanSlate.Lib
