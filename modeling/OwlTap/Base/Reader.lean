import Mathlib.Algebra.Order.Ring.Int
import Mathlib.Data.List.Basic

/-!
# Readers

A loop that reads the front of a list again and again: what one pass does is a `Step`, and a
`Reader` is a pass that reads something whenever it goes on, so that its loop ends. `read` is the
loop; it is total, and it comes without fuel. A loop with fuel that does the same passes agrees with
it as soon as the fuel is as long as the list.
-/

namespace OwlTap

variable {γ α : Type*}

/-- What a pass makes of a list. -/
inductive Step (γ α : Type*) where
  /-- The loop ends, perhaps with a last thing read, and leaves a rest. -/
  | ends (last : Option α) (rest : List γ)
  /-- Something is skipped. -/
  | skip (rest : List γ)
  /-- Something is read. -/
  | entry (a : α) (rest : List γ)

/-- If the loop goes on, less is left to read. -/
def Step.Shortens (xs : List γ) : Step γ α → Prop
  | ends _ _ => True
  | skip rest => rest.length < xs.length
  | entry _ rest => rest.length < xs.length

/-- A pass that reads something whenever it goes on. -/
structure Reader (γ α : Type*) where
  /-- The pass. -/
  next : List γ → Step γ α
  /-- Nothing is read of nothing. -/
  next_nil : next [] = .ends none []
  /-- What it goes on with is shorter. -/
  shortens : ∀ xs, (next xs).Shortens xs

namespace Reader

variable (R : Reader γ α) {xs rest : List γ} {a : α}

/-- All that is read of a list, and the rest. -/
def read (xs : List γ) : List α × List γ :=
  match h : R.next xs with
  | .ends last rest => (last.toList, rest)
  | .skip rest =>
    have : rest.length < xs.length := by have := R.shortens xs; rwa [h] at this
    read rest
  | .entry a rest =>
    have : rest.length < xs.length := by have := R.shortens xs; rwa [h] at this
    (a :: (read rest).1, (read rest).2)
termination_by xs.length

variable {R}

theorem read_of_ends {last : Option α} (h : R.next xs = .ends last rest) : R.read xs = (last.toList, rest) := by
  rw [read]
  split <;> simp_all

theorem read_of_skip (h : R.next xs = .skip rest) : R.read xs = R.read rest := by
  rw [read]
  split <;> simp_all

theorem read_of_entry (h : R.next xs = .entry a rest) : R.read xs = (a :: (R.read rest).1, (R.read rest).2) := by
  rw [read]
  split <;> simp_all

/-- Lists of which a pass makes the same are read the same. -/
theorem read_congr {ys : List γ} (h : R.next xs = R.next ys) : R.read xs = R.read ys := by
  cases hn : R.next ys with
  | ends last rest => rw [read_of_ends hn, read_of_ends (h.trans hn)]
  | skip rest => rw [read_of_skip hn, read_of_skip (h.trans hn)]
  | entry a rest => rw [read_of_entry hn, read_of_entry (h.trans hn)]

theorem read_nil : R.read [] = ([], []) := read_of_ends R.next_nil

theorem lt_of_skip (h : R.next xs = .skip rest) : rest.length < xs.length := by
  have := R.shortens xs
  rwa [h] at this

theorem lt_of_entry (h : R.next xs = .entry a rest) : rest.length < xs.length := by
  have := R.shortens xs
  rwa [h] at this

/-- The loop ends after so many passes. -/
inductive Ends (R : Reader γ α) : List γ → ℕ → Prop where
  | last {xs rest : List γ} {last : Option α} : R.next xs = .ends last rest → Ends R xs 1
  | skip {xs rest : List γ} {n : ℕ} : R.next xs = .skip rest → Ends R rest n → Ends R xs (n + 1)
  | entry {xs rest : List γ} {a : α} {n : ℕ} : R.next xs = .entry a rest → Ends R rest n → Ends R xs (n + 1)

/-- There are no more passes than there are things to read, and one. -/
theorem exists_ends (R : Reader γ α) (xs : List γ) : ∃ n ≤ xs.length + 1, R.Ends xs n := by
  induction hn : xs.length using Nat.strongRecOn generalizing xs with
  | ind n ih =>
  subst hn
  cases h : R.next xs with
  | ends last rest => exact ⟨1, by omega, .last h⟩
  | skip rest =>
    have hlt := lt_of_skip h
    obtain ⟨n, hn, hends⟩ := ih _ hlt rest rfl
    exact ⟨n + 1, by omega, .skip h hends⟩
  | entry a rest =>
    have hlt := lt_of_entry h
    obtain ⟨n, hn, hends⟩ := ih _ hlt rest rfl
    exact ⟨n + 1, by omega, .entry h hends⟩

/-- What is read has a property, if each pass, on a list as those that the loop comes to, reads such a
thing and goes on with such a list. -/
theorem forall_read {Q : List γ → Prop} {P : α → Prop}
    (hends : ∀ {xs a rest}, Q xs → R.next xs = .ends (some a) rest → P a)
    (hskip : ∀ {xs rest}, Q xs → R.next xs = .skip rest → Q rest)
    (hentry : ∀ {xs a rest}, Q xs → R.next xs = .entry a rest → P a ∧ Q rest) (hxs : Q xs) :
    ∀ a ∈ (R.read xs).1, P a := by
  induction hn : xs.length using Nat.strongRecOn generalizing xs with
  | ind n ih =>
  subst hn
  cases h : R.next xs with
  | ends last rest =>
    rw [read_of_ends h]
    cases last with
    | none => exact nofun
    | some a => exact fun b hb => List.mem_singleton.mp hb ▸ hends hxs h
  | skip rest =>
    rw [read_of_skip h]
    exact ih _ (lt_of_skip h) (hskip hxs h) rfl
  | entry a rest =>
    rw [read_of_entry h]
    rintro b hb
    rcases List.mem_cons.mp hb with rfl | hb
    · exact (hentry hxs h).1
    · exact ih _ (lt_of_entry h) (hentry hxs h).2 rfl b hb

/-- A loop with fuel agrees with the reader: if it does the same at each pass, and with nothing left the
same as at the end. -/
theorem loop_eq (R : Reader γ α) {β : Type*} {loop : ℕ → List γ → β} (total : List γ → β)
    (hnil : loop 0 [] = total [])
    (hends : ∀ {fuel xs last rest}, R.next xs = .ends last rest → loop (fuel + 1) xs = total xs)
    (hskip : ∀ {fuel xs rest}, R.next xs = .skip rest → loop fuel rest = total rest → loop (fuel + 1) xs = total xs)
    (hentry : ∀ {fuel xs a rest}, R.next xs = .entry a rest → loop fuel rest = total rest →
      loop (fuel + 1) xs = total xs)
    {fuel : ℕ} {xs : List γ} (hf : xs.length ≤ fuel) : loop fuel xs = total xs := by
  induction fuel generalizing xs with
  | zero =>
    obtain rfl := List.eq_nil_of_length_eq_zero (Nat.le_zero.mp hf)
    exact hnil
  | succ fuel ih =>
    cases h : R.next xs with
    | ends last rest => exact hends h
    | skip rest => exact hskip h (ih (by have := lt_of_skip h; omega))
    | entry a rest => exact hentry h (ih (by have := lt_of_entry h; omega))

/-- The same, of a loop that carries something along. -/
theorem fold_eq (R : Reader γ α) {δ ρ : Type*} {loop : ℕ → List γ → δ → ρ} (total : List γ → δ → ρ)
    (hnil : ∀ d, loop 0 [] d = total [] d)
    (hends : ∀ {fuel xs last rest}, R.next xs = .ends last rest → ∀ d, loop (fuel + 1) xs d = total xs d)
    (hskip : ∀ {fuel xs rest}, R.next xs = .skip rest → (∀ d, loop fuel rest d = total rest d) →
      ∀ d, loop (fuel + 1) xs d = total xs d)
    (hentry : ∀ {fuel xs a rest}, R.next xs = .entry a rest → (∀ d, loop fuel rest d = total rest d) →
      ∀ d, loop (fuel + 1) xs d = total xs d)
    {fuel : ℕ} {xs : List γ} (hf : xs.length ≤ fuel) (d : δ) : loop fuel xs d = total xs d :=
  congrFun (R.loop_eq total (funext hnil) (fun h => funext (hends h)) (fun h ih => funext (hskip h (congrFun ih)))
    (fun h ih => funext (hentry h (congrFun ih))) hf) d

end Reader

end OwlTap
