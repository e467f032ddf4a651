import Mathlib.Algebra.Order.Ring.Int
import Mathlib.Data.List.Basic
import Mathlib.Logic.Function.Basic

/-!
# What is stored at each address

A store puts a value at an address, and what a list of stores leaves is a memory in which each
address holds the value stored there last. A buffer that grows with a filler shows a memory when
it holds what the memory holds, and the filler elsewhere; growing it and storing in it keep that.
-/

namespace OwlTap

namespace Stores

variable {α : Type}

/-- What each address holds. -/
abbrev Memory (α : Type) := ℕ → Option α

/-- The memory after a store. -/
def store (m : Memory α) (s : ℕ × α) : Memory α := Function.update m s.1 (some s.2)

/-- The memory that stores leave. -/
def memory (stores : List (ℕ × α)) : Memory α := stores.foldl store fun _ => none

/-- The stores that put `data` at consecutive addresses from `base` on. -/
def storesOf (base : ℕ) (data : List α) : List (ℕ × α) := (data.zipIdx base).map Prod.swap

theorem storesOf_cons (base : ℕ) (b : α) (data : List α) :
    storesOf base (b :: data) = (base, b) :: storesOf (base + 1) data := rfl

theorem length_storesOf (base : ℕ) (data : List α) : (storesOf base data).length = data.length := by
  rw [storesOf, List.length_map, List.length_zipIdx]

theorem memory_append (stores stores' : List (ℕ × α)) :
    memory (stores ++ stores') = stores'.foldl store (memory stores) := List.foldl_append

/-- What an address holds after consecutive stores. -/
theorem foldl_storesOf (m : Memory α) (base : ℕ) (data : List α) (a : ℕ) :
    (storesOf base data).foldl store m a = if base ≤ a ∧ a < base + data.length then data[a - base]? else m a := by
  induction data generalizing m base with
  | nil =>
    rw [List.length_nil, if_neg (by omega)]
    rfl
  | cons b data ih =>
    rw [storesOf_cons, List.foldl_cons, ih, List.length_cons]
    by_cases h : base + 1 ≤ a ∧ a < base + 1 + data.length
    · rw [if_pos h, if_pos (by omega), show a - base = a - (base + 1) + 1 by omega, List.getElem?_cons_succ]
    · rw [if_neg h]
      by_cases ha : a = base
      · rw [if_pos (by omega), ha, Nat.sub_self]
        exact Function.update_self _ _ _
      · rw [if_neg (by omega)]
        exact Function.update_of_ne ha _ _

/-- The same values are at the same addresses, unless there are none. -/
theorem storesOf_inj {base base' : ℕ} {data : List α} :
    storesOf base data = storesOf base' data ↔ base = base' ∨ data = [] := by
  cases data with
  | nil => exact ⟨fun _ => .inr rfl, fun _ => rfl⟩
  | cons b data =>
    constructor
    · intro h
      rw [storesOf_cons, storesOf_cons, List.cons.injEq, Prod.mk.injEq] at h
      exact .inl h.1.1
    · rintro (rfl | h)
      · rfl
      · cases h

/-! ### Buffers -/

/-- The buffer with at least `n` places. -/
def grow (fill : α) (buf : List α) (n : ℕ) : List α := buf ++ List.replicate (n - buf.length) fill

/-- The buffer with `data` at `base`. -/
def overwrite (buf : List α) (base : ℕ) (data : List α) : List α :=
  buf.take base ++ data ++ buf.drop (base + data.length)

theorem length_grow (fill : α) (buf : List α) (n : ℕ) : (grow fill buf n).length = max buf.length n := by
  rw [grow, List.length_append, List.length_replicate]
  omega

theorem length_overwrite {buf : List α} {base : ℕ} {data : List α} (h : base + data.length ≤ buf.length) :
    (overwrite buf base data).length = buf.length := by
  rw [overwrite, List.length_append, List.length_append, List.length_take, List.length_drop]
  omega

theorem getElem?_overwrite {buf : List α} {base : ℕ} {data : List α} (h : base + data.length ≤ buf.length) (a : ℕ) :
    (overwrite buf base data)[a]? = if base ≤ a ∧ a < base + data.length then data[a - base]? else buf[a]? := by
  have htake : (buf.take base).length = base := List.length_take_of_le (by omega)
  rw [overwrite, List.append_assoc]
  rcases Nat.lt_or_ge a base with hlow | hlow
  · rw [List.getElem?_append_left (htake.symm ▸ hlow), if_neg (by omega), List.getElem?_take_of_lt hlow]
  · rw [List.getElem?_append_right (htake.symm ▸ hlow), htake]
    rcases Nat.lt_or_ge (a - base) data.length with hin | hin
    · rw [List.getElem?_append_left hin, if_pos (by omega)]
    · rw [List.getElem?_append_right hin, if_neg (by omega), List.getElem?_drop]
      congr 1
      omega

/-- A buffer that holds what a memory holds, and a filler elsewhere. -/
structure Shows (fill : α) (buf : List α) (m : Memory α) : Prop where
  /-- What was stored. -/
  held : ∀ {a : ℕ} {b : α}, m a = some b → buf[a]? = some b
  /-- Where nothing was stored. -/
  filled : ∀ {a : ℕ}, a < buf.length → m a = none → buf[a]? = some fill

theorem Shows.empty (fill : α) : Shows fill [] fun _ => none := 
  ⟨fun h => absurd h.symm (Option.some_ne_none _), fun h => absurd h (Nat.not_lt_zero _)⟩

theorem Shows.grow {fill : α} {buf : List α} {m : Memory α} (h : Shows fill buf m) (n : ℕ) :
    Shows fill (grow fill buf n) m := by
  refine ⟨fun ha => ?_, fun ha hm => ?_⟩
  · have hb := h.held ha
    rw [Stores.grow, List.getElem?_append_left (List.getElem?_eq_some_iff.mp hb).1]
    exact hb
  · rename_i a
    rw [length_grow] at ha
    rw [Stores.grow]
    rcases Nat.lt_or_ge a buf.length with hlt | hge
    · rw [List.getElem?_append_left hlt]
      exact h.filled hlt hm
    · rw [List.getElem?_append_right hge, List.getElem?_replicate, if_pos (by omega)]

theorem Shows.overwrite {fill : α} {buf : List α} {m : Memory α} (h : Shows fill buf m) {base : ℕ} {data : List α}
    (hroom : base + data.length ≤ buf.length) :
    Shows fill (overwrite buf base data) ((storesOf base data).foldl store m) := by
  refine ⟨fun ha => ?_, fun ha hm => ?_⟩
  · rw [foldl_storesOf] at ha
    rw [getElem?_overwrite hroom]
    split at ha
    next hin => rw [if_pos hin]; exact ha
    next hout => rw [if_neg hout]; exact h.held ha
  · rw [length_overwrite hroom] at ha
    rw [foldl_storesOf] at hm
    rw [getElem?_overwrite hroom]
    split at hm
    next hin => exact absurd (List.getElem?_eq_none_iff.mp hm) (by omega)
    next hout => rw [if_neg hout]; exact h.filled ha hm

end Stores

end OwlTap
