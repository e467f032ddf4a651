import Mathlib.Algebra.Order.Ring.Int

/-!
# Greedy selection with a hold-off

Of the indices at which something holds, the greedy selection takes the first from index 1 on, and
after each that is taken the first that comes more than `q` later. A selector that goes through the
indices one by one either waits for the next (`Waits`) or counts down what is left of a hold-off
(`Counts`); the rules here say which of the two it does after each index.
-/

namespace OwlTap

namespace Greedy

variable (holds : ℕ → Prop) (q : ℕ)

/-- The first index from `b` on at which it holds. -/
def IsFirst (b j : ℕ) : Prop := b ≤ j ∧ holds j ∧ ∀ i, b ≤ i → i < j → ¬holds i

/-- The greedy selection. -/
inductive Selected : ℕ → Prop where
  /-- The first of all. -/
  | first {j : ℕ} : IsFirst holds 1 j → Selected j
  /-- The first after the hold-off of another. -/
  | next {k j : ℕ} : Selected k → IsFirst holds (k + q + 1) j → Selected j

/-- The selection looks for the first index from `b` on. -/
def Opens (b : ℕ) : Prop := b = 1 ∨ ∃ k, Selected holds q k ∧ b = k + q + 1

/-- Before index `n` the selector waits, and has let nothing pass since it began to. -/
def Waits (n : ℕ) : Prop := ∃ b, Opens holds q b ∧ b ≤ max n 1 ∧ ∀ i, b ≤ i → i < n → ¬holds i

/-- Before index `n` there are `r` indices left of a hold-off. -/
def Counts (n r : ℕ) : Prop := ∃ k, Selected holds q k ∧ k < n ∧ n + r = k + q + 1

variable {holds : ℕ → Prop} {q : ℕ} {b j k n r : ℕ}

theorem Selected.here (h : Selected holds q j) : holds j ∧ 1 ≤ j := by
  cases h with
  | first h => exact ⟨h.2.1, h.1⟩
  | next _ h => exact ⟨h.2.1, by have := h.1; omega⟩

theorem Opens.selected (h : Opens holds q b) (hj : IsFirst holds b j) : Selected holds q j := by
  obtain rfl | ⟨k, hk, rfl⟩ := h
  · exact .first hj
  · exact .next hk hj

/-- Only the indices up to the one that is selected matter. -/
theorem Selected.congr {holds' : ℕ → Prop} (h : Selected holds q j) (he : ∀ i ≤ j, holds i ↔ holds' i) :
    Selected holds' q j := by
  induction h with
  | first h => exact .first ⟨h.1, (he _ (Nat.le_refl _)).mp h.2.1, fun i hi hij => mt (he i (by omega)).mpr (h.2.2 i hi hij)⟩
  | next _ h ih =>
    have hle := h.1
    exact .next (ih fun i hi => he i (by omega))
      ⟨hle, (he _ (Nat.le_refl _)).mp h.2.1, fun i hi hij => mt (he i (by omega)).mpr (h.2.2 i hi hij)⟩

/-- Of two that are selected, the later one comes after the hold-off of the other. -/
theorem Selected.lt (hj : Selected holds q j) (hk : Selected holds q k) (hkj : k < j) : k + q < j := by
  induction j using Nat.strongRecOn generalizing k with
  | ind j ih =>
  cases hj with
  | first hfirst => exact absurd hk.here.1 (hfirst.2.2 k hk.here.2 hkj)
  | @next k' _ hk' hfirst =>
    have hle := hfirst.1
    rcases Nat.lt_trichotomy k k' with hlt | rfl | hlt
    · have := ih k' (by omega) hk' hk hlt
      omega
    · omega
    · -- the first after `k'` would not be the first
      have := ih k hkj hk hk' hlt
      exact absurd hk.here.1 (hfirst.2.2 k (by omega) hkj)

theorem waits_zero : Waits holds q 0 := ⟨1, .inl rfl, Nat.le_refl 1, fun _ _ h => absurd h (Nat.not_lt_zero _)⟩

/-- While it waits, the selector takes the next index if it holds there. -/
theorem Waits.selected_iff (h : Waits holds q n) (hn : 1 ≤ n) : Selected holds q n ↔ holds n := by
  obtain ⟨b, hopens, hb, hnone⟩ := h
  refine ⟨fun h => h.here.1, fun hn' => hopens.selected ⟨by omega, hn', hnone⟩⟩

theorem Waits.pass (h : Waits holds q n) (hn : 1 ≤ n → ¬holds n) : Waits holds q (n + 1) := by
  obtain ⟨b, hopens, hb, hnone⟩ := h
  have hpos : 1 ≤ b := by
    obtain rfl | ⟨k, -, rfl⟩ := hopens <;> omega
  refine ⟨b, hopens, by omega, fun i hi hin => ?_⟩
  rcases Nat.lt_succ_iff_lt_or_eq.mp hin with hlt | rfl
  · exact hnone i hi hlt
  · exact hn (by omega)

theorem Waits.take (h : Waits holds q n) (hn : 1 ≤ n) (hn' : holds n) : Counts holds q (n + 1) q :=
  ⟨n, (h.selected_iff hn).mpr hn', Nat.lt_succ_self n, by omega⟩

/-- When nothing is left of the hold-off, the selector waits again. -/
theorem Counts.done (h : Counts holds q n 0) : Waits holds q n := by
  obtain ⟨k, hk, -, hn⟩ := h
  exact ⟨k + q + 1, .inr ⟨k, hk, rfl⟩, by omega, fun i hi hin => by omega⟩

/-- In a hold-off nothing is selected. -/
theorem Counts.not_selected (h : Counts holds q n (r + 1)) : ¬Selected holds q n := by
  obtain ⟨k, hk, hlt, hn⟩ := h
  intro hsel
  have := hsel.lt hk hlt
  omega

theorem Counts.pass (h : Counts holds q n (r + 1)) : Counts holds q (n + 1) r := by
  obtain ⟨k, hk, hlt, hn⟩ := h
  exact ⟨k, hk, by omega, by omega⟩

end Greedy

end OwlTap
