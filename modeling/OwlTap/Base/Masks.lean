import Mathlib.Algebra.Order.Ring.Int
import Mathlib.Data.BitVec
import Mathlib.Data.List.Pairwise

/-!
# Comparisons under masks

Some disjoint fields of a word are compared, each with a value of its own. One mask and one value,
the disjunctions of those of the fields, make the same comparison (`Comparison.all_holds_iff`).
-/

namespace OwlTap

variable {w : ℕ}

/-- The disjunction of some words. -/
def orAll (ms : List (BitVec w)) : BitVec w := ms.foldr (· ||| ·) 0

@[simp] theorem orAll_nil : orAll ([] : List (BitVec w)) = 0 := rfl

@[simp] theorem orAll_cons (m : BitVec w) (ms : List (BitVec w)) : orAll (m :: ms) = m ||| orAll ms := rfl

/-- A word meets a disjunction if it meets one of its members. -/
theorem and_orAll_eq_zero_iff (r : BitVec w) (ms : List (BitVec w)) : r &&& orAll ms = 0 ↔ ∀ m ∈ ms, r &&& m = 0 := by
  induction ms with
  | nil => simp
  | cons m ms ih =>
    rw [orAll_cons, BitVec.and_or_distrib_left, List.forall_mem_cons, ← ih]
    exact BitVec.or_eq_zero_iff

theorem orAll_eq_zero_iff (ms : List (BitVec w)) : orAll ms = 0 ↔ ∀ m ∈ ms, m = 0 := by
  have h := and_orAll_eq_zero_iff (BitVec.allOnes w) ms
  simpa only [BitVec.allOnes_and] using h

/-- Some bits of a word and the values they are compared with. -/
structure Comparison (w : ℕ) where
  /-- The bits. -/
  mask : BitVec w
  /-- Their values. -/
  value : BitVec w
  /-- There are no others. -/
  value_and_mask : value &&& mask = value

namespace Comparison

/-- The word has these values. -/
def Holds (c : Comparison w) (x : BitVec w) : Prop := x &&& c.mask = c.value

/-- Comparisons of disjoint fields. -/
def Disjoint (a b : Comparison w) : Prop := a.mask &&& b.mask = 0

/-- No bits at all. -/
def trivial : Comparison w := ⟨0, 0, BitVec.zero_and⟩

/-- Two comparisons at once. -/
def both (a b : Comparison w) : Comparison w where
  mask := a.mask ||| b.mask
  value := a.value ||| b.value
  value_and_mask := by
    have ha : a.value &&& (a.mask ||| b.mask) = a.value := by
      rw [BitVec.and_or_distrib_left, a.value_and_mask, ← a.value_and_mask, BitVec.and_assoc]
      ext i hi
      simp only [BitVec.getElem_or, BitVec.getElem_and]
      cases a.value[i] <;> cases a.mask[i] <;> rfl
    have hb : b.value &&& (a.mask ||| b.mask) = b.value := by
      rw [BitVec.and_or_distrib_left, b.value_and_mask, ← b.value_and_mask, BitVec.and_assoc]
      ext i hi
      simp only [BitVec.getElem_or, BitVec.getElem_and]
      cases b.value[i] <;> cases b.mask[i] <;> cases a.mask[i] <;> rfl
    rw [BitVec.and_or_distrib_right, ha, hb]

/-- A value has none of the bits of a disjoint field. -/
theorem Disjoint.value_and {a b : Comparison w} (h : Disjoint a b) : b.value &&& a.mask = 0 := by
  rw [← b.value_and_mask, BitVec.and_assoc, BitVec.and_comm b.mask, show a.mask &&& b.mask = 0 from h]
  exact BitVec.and_zero

theorem Disjoint.symm {a b : Comparison w} (h : Disjoint a b) : Disjoint b a := by
  rw [Disjoint, BitVec.and_comm]
  exact h

/-- Of two disjoint fields, both are as they should be. -/
theorem both_holds_iff {a b : Comparison w} (h : Disjoint a b) (x : BitVec w) :
    (a.both b).Holds x ↔ a.Holds x ∧ b.Holds x := by
  constructor
  · intro hx
    replace hx : x &&& (a.mask ||| b.mask) = a.value ||| b.value := hx
    have hleft : x &&& a.mask = (x &&& (a.mask ||| b.mask)) &&& a.mask := by
      ext i hi
      simp only [BitVec.getElem_or, BitVec.getElem_and]
      cases x[i] <;> cases a.mask[i] <;> cases b.mask[i] <;> rfl
    have hright : x &&& b.mask = (x &&& (a.mask ||| b.mask)) &&& b.mask := by
      ext i hi
      simp only [BitVec.getElem_or, BitVec.getElem_and]
      cases x[i] <;> cases a.mask[i] <;> cases b.mask[i] <;> rfl
    constructor
    · rw [Holds, hleft, hx, BitVec.and_or_distrib_right, a.value_and_mask, h.value_and]
      exact BitVec.or_zero
    · rw [Holds, hright, hx, BitVec.and_or_distrib_right, b.value_and_mask, h.symm.value_and]
      exact BitVec.zero_or
  · rintro ⟨ha, hb⟩
    rw [Holds, both, BitVec.and_or_distrib_left, show x &&& a.mask = a.value from ha, show x &&& b.mask = b.value from hb]

/-- All of some comparisons at once. -/
def all (cs : List (Comparison w)) : Comparison w := cs.foldr both trivial

@[simp] theorem all_mask (cs : List (Comparison w)) : (all cs).mask = orAll (cs.map fun c => c.mask) := by
  induction cs with
  | nil => rfl
  | cons c cs ih => rw [List.map_cons, orAll_cons, ← ih]; rfl

@[simp] theorem all_value (cs : List (Comparison w)) : (all cs).value = orAll (cs.map fun c => c.value) := by
  induction cs with
  | nil => rfl
  | cons c cs ih => rw [List.map_cons, orAll_cons, ← ih]; rfl

/-- One mask and one value for all fields. -/
theorem all_holds_iff {cs : List (Comparison w)} (h : cs.Pairwise Disjoint) (x : BitVec w) :
    (all cs).Holds x ↔ ∀ c ∈ cs, c.Holds x := by
  induction cs with
  | nil => simp [all, Holds, trivial]
  | cons c cs ih =>
    obtain ⟨hc, hcs⟩ := List.pairwise_cons.mp h
    have hrest : Disjoint c (all cs) := by
      rw [Disjoint, all_mask, and_orAll_eq_zero_iff, List.forall_mem_map]
      exact hc
    rw [List.forall_mem_cons, ← ih hcs]
    exact both_holds_iff hrest x

end Comparison

end OwlTap
