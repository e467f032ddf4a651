import Mathlib.Algebra.Order.Ring.Int
import Mathlib.Data.Nat.Digits.Defs

/-!
# The value of a row of bits

`binaryValue bits` is the number whose bits these are, least significant one first. A bit at the end
adds a power of two (`binaryValue_concat`), one at the front doubles what follows
(`binaryValue_cons`), and the bits of a number have its value (`binaryValue_testBit`).
-/

namespace OwlTap

/-- The value of bits, least significant one first. -/
def binaryValue (bits : List Bool) : ℕ := Nat.ofDigits 2 (bits.map Bool.toNat)

@[simp] theorem binaryValue_nil : binaryValue [] = 0 := rfl

theorem binaryValue_cons (b : Bool) (bits : List Bool) : binaryValue (b :: bits) = b.toNat + 2 * binaryValue bits :=
  Nat.ofDigits_cons

theorem binaryValue_concat (bits : List Bool) (b : Bool) :
    binaryValue (bits ++ [b]) = binaryValue bits + 2 ^ bits.length * b.toNat := by
  rw [binaryValue, List.map_append, Nat.ofDigits_append, List.length_map, List.map_singleton, Nat.ofDigits_singleton]
  rfl

theorem binaryValue_lt (bits : List Bool) : binaryValue bits < 2 ^ bits.length := by
  have hdigits : ∀ d ∈ bits.map Bool.toNat, d < 2 := by
    intro d hd
    obtain ⟨b, -, rfl⟩ := List.mem_map.mp hd
    exact b.toNat_lt
  have hlt := Nat.ofDigits_lt_base_pow_length Nat.one_lt_two hdigits
  rwa [List.length_map] at hlt

/-- The bits of a number have its value. -/
theorem binaryValue_testBit (x n : ℕ) : binaryValue ((List.range n).map x.testBit) = x % 2 ^ n := by
  induction n with
  | zero => exact (Nat.mod_one x).symm
  | succ n ih =>
    rw [List.range_succ, List.map_append, List.map_singleton, binaryValue_concat, ih, List.length_map, List.length_range,
      Nat.toNat_testBit, Nat.mod_pow_succ]

/-- The bits of a word have its value. -/
theorem binaryValue_getLsbD {w : ℕ} (x : BitVec w) : binaryValue ((List.range w).map x.getLsbD) = x.toNat :=
  (binaryValue_testBit x.toNat w).trans (Nat.mod_eq_of_lt x.isLt)

/-- A bit is put above those below it. -/
theorem ofNat_or_shiftLeft {w : ℕ} (bits : List Bool) (hw : bits.length < w) :
    BitVec.ofNat w (binaryValue bits) ||| 1#w <<< bits.length = BitVec.ofNat w (binaryValue (bits ++ [true])) := by
  have hlt := binaryValue_lt bits
  have hpow : 2 ^ bits.length < 2 ^ w := Nat.pow_lt_pow_right Nat.one_lt_two hw
  have hone : (1#w <<< bits.length).toNat = 2 ^ bits.length := by
    rw [BitVec.toNat_shiftLeft, BitVec.toNat_one (Nat.zero_lt_of_lt hw), Nat.one_shiftLeft, Nat.mod_eq_of_lt hpow]
  have hor : binaryValue bits ||| 2 ^ bits.length = binaryValue bits + 2 ^ bits.length := by
    have h := Nat.two_pow_add_eq_or_of_lt hlt 1
    rw [Nat.mul_one] at h
    rw [Nat.or_comm, ← h, Nat.add_comm]
  rw [binaryValue_concat, Bool.toNat_true, Nat.mul_one, ← hor]
  apply BitVec.eq_of_toNat_eq
  have hle : binaryValue bits ||| 2 ^ bits.length < 2 ^ w := Nat.or_lt_two_pow (hlt.trans hpow) hpow
  rw [BitVec.toNat_or, BitVec.toNat_ofNat, BitVec.toNat_ofNat, hone, Nat.mod_eq_of_lt (hlt.trans hpow), Nat.mod_eq_of_lt hle]

/-- A bit is put below those above it. -/
theorem shiftLeft_or_ofBool {w : ℕ} (bits : List Bool) (b : Bool) :
    BitVec.ofNat w (binaryValue bits) <<< 1 ||| (BitVec.ofBool b).setWidth w = BitVec.ofNat w (binaryValue (b :: bits)) := by
  apply BitVec.eq_of_getLsbD_eq
  intro i hi
  rw [binaryValue_cons, BitVec.getLsbD_or, BitVec.getLsbD_shiftLeft, BitVec.getLsbD_setWidth, BitVec.getLsbD_ofNat,
    decide_eq_true hi, Bool.true_and, Bool.true_and]
  cases i with
  | zero =>
    rw [BitVec.getLsbD_ofNat, Nat.testBit_zero]
    cases b <;> simp [Nat.add_mod, hi]
  | succ i =>
    have hhalf : (b.toNat + 2 * binaryValue bits) / 2 = binaryValue bits := by
      have := b.toNat_lt
      omega
    rw [BitVec.getLsbD_ofNat, Nat.testBit_succ, hhalf]
    simp [Nat.lt_of_succ_lt hi, hi]

end OwlTap
