import Mathlib.Data.Nat.Bitwise

/-!
# Packed slot identities

A 16-bit slot and a 32-bit generation in the low 48 bits of a word, the wire form of every
generational identity: slot in bits 0..16, generation in bits 16..48, the rest zero.
-/

namespace CleanSlate.Lib.SlotId

open UInt64

/-- `slot | generation << 16`. -/
def pack (slot : UInt16) (generation : UInt32) : UInt64 :=
  slot.toUInt64 ||| (generation.toUInt64 <<< 16)

def slotOf (raw : UInt64) : UInt16 := raw.toUInt16

def generationOf (raw : UInt64) : UInt32 := (raw >>> 16).toUInt32

/-- The bits no identity uses. -/
def reserved : UInt64 := 0xffff000000000000

section

variable (slot : UInt16) (generation : UInt32)

theorem toNat_pack : (pack slot generation).toNat = generation.toNat * 65536 + slot.toNat := by
  have hs := slot.toNat_lt
  have hg := generation.toNat_lt
  unfold pack
  rw [UInt64.toNat_or, UInt64.toNat_shiftLeft]
  simp only [UInt16.toNat_toUInt64, UInt32.toNat_toUInt64, reduceToNat, Nat.reduceMod]
  rw [Nat.mod_eq_of_lt (by rw [Nat.shiftLeft_eq]; omega), Nat.or_comm,
    ← Nat.shiftLeft_add_eq_or_of_lt hs, Nat.shiftLeft_eq]

theorem slotOf_pack : slotOf (pack slot generation) = slot := by
  have hs := slot.toNat_lt
  apply UInt16.toNat_inj.1
  unfold slotOf
  rw [toNat_toUInt16, toNat_pack]
  omega

theorem generationOf_pack : generationOf (pack slot generation) = generation := by
  have hs := slot.toNat_lt
  have hg := generation.toNat_lt
  apply UInt32.toNat_inj.1
  unfold generationOf
  rw [UInt64.toNat_toUInt32, UInt64.toNat_shiftRight, toNat_pack]
  simp only [reduceToNat, Nat.reduceMod, Nat.shiftRight_eq_div_pow]
  omega

theorem pack_and_reserved : pack slot generation &&& reserved = 0 := by
  have hs := slot.toNat_lt
  have hg := generation.toNat_lt
  apply UInt64.toNat_inj.1
  rw [UInt64.toNat_and, toNat_pack]
  -- the reserved bits are the multiples of `2 ^ 48`, and a packed identity is below it
  have hres : reserved.toNat = 65535 <<< 48 := by decide
  rw [hres]
  apply Nat.eq_of_testBit_eq
  intro i
  rw [Nat.testBit_and, Nat.testBit_shiftLeft, UInt64.toNat_zero, Nat.zero_testBit]
  by_cases hi : 48 ≤ i
  · have hlt : generation.toNat * 65536 + slot.toNat < 2 ^ i :=
      Nat.lt_of_lt_of_le (by omega) (Nat.pow_le_pow_right (by omega) hi)
    rw [Nat.testBit_lt_two_pow hlt, Bool.false_and]
  · simp [hi]

end

/-- A word with no reserved bit is the identity it is read as. -/
theorem pack_of_and_reserved {raw : UInt64} (h : raw &&& reserved = 0) :
    pack (slotOf raw) (generationOf raw) = raw := by
  have hraw := raw.toNat_lt
  have hsm : raw.toNat < 2 ^ 48 := by
    have hand : raw.toNat &&& (65535 <<< 48) = 0 := by
      have := congrArg toNat h
      rwa [UInt64.toNat_and, show reserved.toNat = 65535 <<< 48 from by decide] at this
    -- the part above bit 48 is nonzero, so one of its bits is set
    have hsh : (raw.toNat &&& (65535 <<< 48)) >>> 48 = raw.toNat / 2 ^ 48 := by
      rw [Nat.shiftRight_and_distrib, Nat.shiftLeft_shiftRight, Nat.shiftRight_eq_div_pow]
      have h16 : 65535 = 2 ^ 16 - 1 := by decide
      rw [h16, Nat.and_two_pow_sub_one_eq_mod]
      omega
    omega
  apply UInt64.toNat_inj.1
  rw [toNat_pack]
  unfold slotOf generationOf
  rw [UInt64.toNat_toUInt16, UInt64.toNat_toUInt32, UInt64.toNat_shiftRight]
  simp only [reduceToNat, Nat.reduceMod, Nat.shiftRight_eq_div_pow]
  omega

end CleanSlate.Lib.SlotId
