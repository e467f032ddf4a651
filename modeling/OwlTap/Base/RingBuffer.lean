import Mathlib.Algebra.Order.Ring.Int
import Mathlib.Data.List.Basic
import Mathlib.Data.List.Induction

/-!
# Ring buffers

An array that is written from its start to its end and then from the start again, against the
list of all that has been written (`Keeps`): each of the last elements, as many as the array has
places, is where it was written.
-/

namespace OwlTap.RingBuffer

variable {α : Type*} {size : ℕ} {buffer written : List α}

/-- Indices less than a turn apart are at different places. -/
theorem mod_ne_of_near {i j : ℕ} (hlt : i < j) (hnear : j < i + size) : i % size ≠ j % size := by
  intro h
  have hdvd : size ∣ j - i := Nat.dvd_of_mod_eq_zero (Nat.sub_mod_eq_zero_of_mod_eq h.symm)
  have := Nat.le_of_dvd (by omega) hdvd
  omega

/-- The array has the last elements written. -/
structure Keeps (size : ℕ) (buffer written : List α) : Prop where
  /-- There is a place. -/
  pos : 0 < size
  /-- The array has as many places as it should. -/
  length : buffer.length = size
  /-- The last elements are where they were written. -/
  stored : ∀ j, written.length ≤ j + size → j < written.length → buffer[j % size]? = written[j]?

theorem Keeps.nil (hpos : 0 < size) (hlen : buffer.length = size) : Keeps size buffer [] :=
  ⟨hpos, hlen, fun _ _ h => absurd h (Nat.not_lt_zero _)⟩

/-- The next element takes the place of the oldest. -/
theorem Keeps.write (h : Keeps size buffer written) (x : α) :
    Keeps size (buffer.set (written.length % size) x) (written ++ [x]) where
  pos := h.pos
  length := by rw [List.length_set, h.length]
  stored := by
    intro j hj hlt
    rw [List.length_append, List.length_singleton] at hj hlt
    by_cases e : j = written.length
    · have hplace : written.length % size < buffer.length := by
        rw [h.length]
        exact Nat.mod_lt _ h.pos
      rw [e, List.getElem?_set_self hplace, List.getElem?_concat_length]
    · have hlt' : j < written.length := by omega
      rw [List.getElem?_set_ne (mod_ne_of_near hlt' (by omega)).symm, h.stored j (by omega) hlt',
        List.getElem?_append_left hlt']

/-- What is read from the place of an element on that has not been overwritten. -/
theorem Keeps.read (h : Keeps size buffer written) (d : α) {first n : ℕ} (hn : first + n = written.length)
    (hfirst : written.length ≤ first + size) :
    ((List.range n).map fun i => buffer.getD ((first + i) % size) d) = written.drop first := by
  refine List.ext_getElem? fun i => ?_
  rw [List.getElem?_map, List.getElem?_drop]
  by_cases hi : i < n
  · rw [List.getElem?_range hi, Option.map_some, List.getD_eq_getElem?_getD, h.stored (first + i) (by omega) (by omega),
      List.getElem?_eq_getElem (by omega), Option.getD_some]
  · rw [List.getElem?_eq_none (by rw [List.length_range]; omega), List.getElem?_eq_none (by omega)]
    rfl

/-- The whole array, read from the oldest element on. -/
theorem Keeps.readAll (h : Keeps size buffer written) (d : α) (hfull : size ≤ written.length) :
    ((List.range size).map fun i => buffer.getD ((written.length % size + i) % size) d) =
      written.drop (written.length - size) := by
  rw [← h.read d (Nat.sub_add_cancel hfull) (by omega)]
  refine List.map_congr_left fun i _ => ?_
  rw [Nat.mod_add_mod, ← Nat.add_mod_right (written.length - size + i)]
  congr 2
  omega

/-- Until the array is full its elements are at its start. -/
theorem Keeps.take (h : Keeps size buffer written) (hfew : written.length ≤ size) :
    buffer.take written.length = written := by
  refine List.ext_getElem? fun j => ?_
  rw [List.getElem?_take]
  by_cases hj : j < written.length
  · rw [if_pos hj, ← h.stored j (by omega) hj, Nat.mod_eq_of_lt (by omega)]
  · rw [if_neg hj, List.getElem?_eq_none (by omega)]

/-- The place before the next one to be written has the last element. -/
theorem Keeps.last (h : Keeps size buffer written) (hne : written ≠ []) :
    buffer[if written.length % size = 0 then size - 1 else written.length % size - 1]? = written.getLast? := by
  have hpos : 0 < written.length := List.length_pos_iff.mpr hne
  have hsize := h.pos
  have hplace : (if written.length % size = 0 then size - 1 else written.length % size - 1) =
      (written.length - 1) % size := by
    have hlt := Nat.mod_lt (written.length - 1) hsize
    have hnext : written.length % size = ((written.length - 1) % size + 1) % size := by
      rw [Nat.mod_add_mod, Nat.sub_add_cancel hpos]
    rcases Nat.lt_or_eq_of_le (Nat.succ_le_of_lt hlt) with hin | hend
    · rw [Nat.mod_eq_of_lt hin] at hnext
      rw [hnext, if_neg (Nat.succ_ne_zero _), Nat.succ_eq_add_one, Nat.add_sub_cancel]
    · rw [← Nat.succ_eq_add_one, hend, Nat.mod_self] at hnext
      rw [if_pos hnext]
      omega
  rw [hplace, h.stored _ (by omega) (by omega), List.getLast?_eq_getElem?]

end OwlTap.RingBuffer
