import Mathlib.Algebra.Order.Ring.Int
import Mathlib.Data.List.Basic
import Mathlib.Data.List.Flatten

/-!
# Shift registers in series

A shift register is the list of its bits, the one that leaves first at the head. In a
series the output of each register is the input of the one before it: the first one's
output is the output of the series, and the last one takes its input. A series shifts
like one long register (`out_cons_flatten_shift`), and keeps the lengths of its parts.
-/

namespace OwlTap

variable {α : Type*}

namespace ShiftRegister

/-- One shift of one register: what it holds then, and what left it. -/
def shift : List α → α → List α × α
  | [], x => ([], x)
  | b :: r, x => (r ++ [x], b)

@[simp] theorem length_shift (r : List α) (x : α) : (shift r x).1.length = r.length := by
  cases r <;> simp [shift]

theorem out_cons_shift (r : List α) (x : α) : (shift r x).2 :: (shift r x).1 = r ++ [x] := by
  cases r <;> rfl

end ShiftRegister

namespace Series

/-- One shift of registers in series. -/
def shift : List (List α) → α → List (List α) × α
  | [], x => ([], x)
  | r :: rs, x =>
    ((ShiftRegister.shift r (shift rs x).2).1 :: (shift rs x).1, (ShiftRegister.shift r (shift rs x).2).2)

/-- Shifts with a string of inputs: what the series holds then, and what left it, in order. -/
def shifts : List (List α) → List α → List (List α) × List α
  | rs, [] => (rs, [])
  | rs, x :: xs => ((shifts (shift rs x).1 xs).1, (shift rs x).2 :: (shifts (shift rs x).1 xs).2)

@[simp] theorem map_length_shift (rs : List (List α)) (x : α) :
    (shift rs x).1.map List.length = rs.map List.length := by
  induction rs with
  | nil => rfl
  | cons r rs ih => simp [shift, ih]

@[simp] theorem length_shift (rs : List (List α)) (x : α) : (shift rs x).1.length = rs.length := by
  induction rs with
  | nil => rfl
  | cons r rs ih => simp [shift, ih]

/-- A series shifts like one long register. -/
theorem out_cons_flatten_shift (rs : List (List α)) (x : α) :
    (shift rs x).2 :: (shift rs x).1.flatten = rs.flatten ++ [x] := by
  induction rs with
  | nil => rfl
  | cons r rs ih =>
    calc (shift (r :: rs) x).2 :: (shift (r :: rs) x).1.flatten
        = ((ShiftRegister.shift r (shift rs x).2).2 :: (ShiftRegister.shift r (shift rs x).2).1) ++
            (shift rs x).1.flatten := rfl
      _ = r ++ ((shift rs x).2 :: (shift rs x).1.flatten) := by
          rw [ShiftRegister.out_cons_shift, List.append_assoc]; rfl
      _ = (r :: rs).flatten ++ [x] := by rw [ih, List.flatten_cons, List.append_assoc]

@[simp] theorem map_length_shifts (rs : List (List α)) (xs : List α) :
    (shifts rs xs).1.map List.length = rs.map List.length := by
  induction xs generalizing rs with
  | nil => rfl
  | cons x xs ih => rw [shifts, ih, map_length_shift]

@[simp] theorem length_shifts (rs : List (List α)) (xs : List α) : (shifts rs xs).1.length = rs.length := by
  induction xs generalizing rs with
  | nil => rfl
  | cons x xs ih => rw [shifts, ih, length_shift]

theorem outs_append_flatten_shifts (rs : List (List α)) (xs : List α) :
    (shifts rs xs).2 ++ (shifts rs xs).1.flatten = rs.flatten ++ xs := by
  induction xs generalizing rs with
  | nil => simp [shifts]
  | cons x xs ih =>
    rw [shifts, List.cons_append, ih, ← List.cons_append, out_cons_flatten_shift, List.append_assoc]
    rfl

@[simp] theorem length_outs_shifts (rs : List (List α)) (xs : List α) :
    (shifts rs xs).2.length = xs.length := by
  induction xs generalizing rs with
  | nil => rfl
  | cons x xs ih => simp [shifts, ih]

/-- As many inputs as the series has places replace what it held, which comes out. -/
theorem shifts_of_length {rs ys : List (List α)} (h : ys.map List.length = rs.map List.length) :
    shifts rs ys.flatten = (ys, rs.flatten) := by
  have hl : ys.flatten.length = rs.flatten.length := by rw [List.length_flatten, List.length_flatten, h]
  obtain ⟨houts, hrest⟩ := List.append_inj (outs_append_flatten_shifts rs ys.flatten)
    (by rw [length_outs_shifts, hl])
  have hys : (shifts rs ys.flatten).1 = ys :=
    List.eq_iff_flatten_eq.mpr ⟨hrest, by rw [map_length_shifts, h]⟩
  exact Prod.ext hys houts

end Series

end OwlTap
