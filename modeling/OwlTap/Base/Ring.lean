import Mathlib.Algebra.Order.Ring.Int
import Mathlib.Data.List.Basic
import Mathlib.Data.List.Induction
import Mathlib.Logic.Function.Basic

/-!
# Ring memories

A memory of `2 ^ w` words that is written at consecutive addresses, which wrap. The last
words written, up to as many as there are addresses, are found at the addresses before the
next one to be written (`read_store`).
-/

namespace OwlTap.Ring

variable {α : Type*} {w : ℕ}

/-- The memory after words have been written at consecutive addresses. -/
def store : (BitVec w → α) → BitVec w → List α → BitVec w → α
  | mem, _, [] => mem
  | mem, a, x :: xs => store (Function.update mem a x) (a + 1) xs

/-- The words at `n` consecutive addresses. -/
def read (mem : BitVec w → α) (a : BitVec w) (n : ℕ) : List α :=
  (List.range n).map fun j => mem (a + BitVec.ofNat w j)

@[simp] theorem length_read (mem : BitVec w → α) (a : BitVec w) (n : ℕ) : (read mem a n).length = n := by
  simp [read]

@[simp] theorem getElem_read (mem : BitVec w → α) (a : BitVec w) {n j : ℕ} (h : j < (read mem a n).length) :
    (read mem a n)[j] = mem (a + BitVec.ofNat w j) := by
  simp [read]

theorem read_succ (mem : BitVec w → α) (a : BitVec w) (n : ℕ) : read mem a (n + 1) = mem a :: read mem (a + 1) n := by
  rw [read, List.range_succ_eq_map, List.map_cons, List.map_map, show a + BitVec.ofNat w 0 = a from BitVec.add_zero a]
  congr 1
  apply List.map_congr_left
  intro j _
  show mem (a + BitVec.ofNat w (j + 1)) = mem (a + 1 + BitVec.ofNat w j)
  rw [Nat.add_comm j 1, BitVec.ofNat_add, BitVec.add_assoc]
  rfl

/-- Addresses less than a turn apart differ. -/
theorem ofNat_add_ne (a : BitVec w) {i j : ℕ} (hij : i < j) (h : j < i + 2 ^ w) :
    a + BitVec.ofNat w i ≠ a + BitVec.ofNat w j := by
  intro he
  obtain ⟨k, rfl⟩ : ∃ k, j = i + k := ⟨j - i, by omega⟩
  rw [BitVec.ofNat_add, ← BitVec.add_assoc] at he
  have hk : BitVec.ofNat w k = 0#w := by
    have := congrArg (fun b => b - (a + BitVec.ofNat w i)) he
    simpa [BitVec.add_comm (a + BitVec.ofNat w i), BitVec.add_sub_cancel] using this.symm
  have := congrArg BitVec.toNat hk
  rw [BitVec.toNat_ofNat, BitVec.toNat_ofNat, Nat.zero_mod, Nat.mod_eq_of_lt (by omega)] at this
  omega

theorem store_append (mem : BitVec w → α) (a : BitVec w) (xs ys : List α) :
    store mem a (xs ++ ys) = store (store mem a xs) (a + BitVec.ofNat w xs.length) ys := by
  induction xs generalizing mem a with
  | nil => simp [store]
  | cons x xs ih =>
    rw [List.cons_append, store, ih, store, List.length_cons, Nat.add_comm xs.length 1, BitVec.ofNat_add, BitVec.add_assoc]
    rfl

/-- A word that has not been overwritten is where it was written. -/
theorem store_apply (mem : BitVec w → α) (a : BitVec w) {xs : List α} {j : ℕ} (hj : j < xs.length)
    (h : xs.length ≤ j + 2 ^ w) : store mem a xs (a + BitVec.ofNat w j) = xs[j] := by
  induction xs using List.reverseRecOn with
  | nil => simp at hj
  | append_singleton xs x ih =>
    rw [store_append, store, store]
    rw [List.length_append, List.length_singleton] at hj h
    by_cases hl : j = xs.length
    · subst hl
      rw [Function.update_self, List.getElem_concat_length rfl]
    · have hlt : j < xs.length := by omega
      rw [Function.update_of_ne (ofNat_add_ne a hlt (by omega)), ih hlt (by omega), List.getElem_append_left hlt]

/-- The last words written are before the next address. -/
theorem read_store (mem : BitVec w → α) (a : BitVec w) (old : List α) {new : List α} (h : new.length ≤ 2 ^ w) :
    read (store mem a (old ++ new)) (a + BitVec.ofNat w old.length) new.length = new := by
  apply List.ext_getElem (length_read _ _ _)
  intro j h₁ h₂
  rw [getElem_read, BitVec.add_assoc, ← BitVec.ofNat_add,
    store_apply mem a (by rw [List.length_append]; omega) (by rw [List.length_append]; omega),
    List.getElem_append_right (Nat.le_add_right _ _)]
  simp

end OwlTap.Ring
