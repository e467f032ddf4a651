import Mathlib.Algebra.Order.Ring.Int
import Mathlib.Data.List.Basic

/-!
# The lines of a text

A text is written line by line (`unlines`), and split at the line breaks. What is written can be read
again (`splitOn_unlines`), also behind other text (`splitOn_append_unlines`), and after the last line
of one kind (`afterLast_append`).
-/

namespace OwlTap

/-- Lines, each with a line break. -/
def unlines (lines : List (List Char)) : List Char := lines.flatMap (· ++ ['\n'])

theorem unlines_cons (line : List Char) (lines : List (List Char)) :
    unlines (line :: lines) = line ++ '\n' :: unlines lines := by
  rw [unlines, List.flatMap_cons, List.append_assoc, List.singleton_append]
  rfl

theorem unlines_append (lines lines' : List (List Char)) : unlines (lines ++ lines') = unlines lines ++ unlines lines' :=
  List.flatMap_append

/-- What has been written is read again; nothing is behind the last line break. -/
theorem splitOn_unlines {lines : List (List Char)} (h : ∀ line ∈ lines, '\n' ∉ line) :
    (unlines lines).splitOn '\n' = lines ++ [[]] := by
  induction lines with
  | nil => rfl
  | cons line lines ih =>
    obtain ⟨hline, hlines⟩ := List.forall_mem_cons.mp h
    rw [unlines_cons, List.splitOn_append_cons_self_of_not_mem hline, ih hlines, List.cons_append]

/-- Behind other text, which ends with a line break. -/
theorem splitOn_append_unlines (before : List Char) {lines : List (List Char)} (h : ∀ line ∈ lines, '\n' ∉ line) :
    (before ++ '\n' :: unlines lines).splitOn '\n' = before.splitOn '\n' ++ (lines ++ [[]]) := by
  rw [List.splitOn_append_cons_self, splitOn_unlines h]

/-- What comes after the last of its kind. -/
def afterLast {α : Type} [DecidableEq α] (mark : α) (xs : List α) : List α := (xs.reverse.takeWhile (· ≠ mark)).reverse

theorem afterLast_append {α : Type} [DecidableEq α] {mark : α} (before : List α) {after : List α} (h : mark ∉ after) :
    afterLast mark (before ++ mark :: after) = after := by
  have hafter : ∀ x ∈ after.reverse, decide (x ≠ mark) = true := fun x hx =>
    decide_eq_true fun he => h (he ▸ List.mem_reverse.mp hx)
  rw [afterLast, List.reverse_append, List.reverse_cons, List.append_assoc, List.takeWhile_append_of_pos hafter,
    List.singleton_append, List.takeWhile_cons_of_neg (by simp), List.append_nil, List.reverse_reverse]

end OwlTap
