import Mathlib.Algebra.Order.Ring.Int
import Mathlib.Data.List.Basic
import Mathlib.Data.List.Count
import Mathlib.Data.List.Nodup

/-!
# Finding one string in another

`indexOf pat s` is the first place at which `pat` stands in `s`. What comes after it in `s` does
not matter (`indexOf_append_of_eq_some`), nor what comes before it and has nothing to begin it
with (`indexOf_append_of_notMem`).
-/

namespace OwlTap

variable {α : Type} [DecidableEq α]

/-- The first place at which `pat` stands in a string. -/
def indexOf (pat : List α) : List α → Option ℕ
  | [] => if pat = [] then some 0 else none
  | c :: s => if pat <+: c :: s then some 0 else (indexOf pat s).map (· + 1)

theorem indexOf_of_begins {pat s : List α} (h : pat <+: s) : indexOf pat s = some 0 := by
  cases s with
  | nil => rw [indexOf, if_pos (List.prefix_nil.mp h)]
  | cons c s => rw [indexOf, if_pos h]

theorem indexOf_cons_of_not {pat s : List α} {c : α} (h : ¬pat <+: c :: s) :
    indexOf pat (c :: s) = (indexOf pat s).map (· + 1) := by
  rw [indexOf, if_neg h]

/-- Where it is found it stands. -/
theorem prefix_of_indexOf {pat s : List α} {i : ℕ} (h : indexOf pat s = some i) : pat <+: s.drop i := by
  induction s generalizing i with
  | nil =>
    rw [indexOf] at h
    split at h
    case isTrue hp =>
      subst hp
      exact List.nil_prefix
    case isFalse => cases h
  | cons c s ih =>
    by_cases hp : pat <+: c :: s
    · rw [indexOf_of_begins hp] at h
      obtain rfl := Option.some.inj h
      exact hp
    · rw [indexOf_cons_of_not hp] at h
      obtain ⟨j, hj, rfl⟩ := Option.map_eq_some_iff.mp h
      exact ih hj

/-- It stands nowhere before. -/
theorem not_prefix_of_indexOf {pat s : List α} {i j : ℕ} (h : indexOf pat s = some i) (hj : j < i) : ¬pat <+: s.drop j := by
  induction s generalizing i j with
  | nil =>
    rw [indexOf] at h
    split at h
    case isTrue =>
      obtain rfl := Option.some.inj h
      omega
    case isFalse => cases h
  | cons c s ih =>
    by_cases hp : pat <+: c :: s
    · rw [indexOf_of_begins hp] at h
      obtain rfl := Option.some.inj h
      omega
    · rw [indexOf_cons_of_not hp] at h
      obtain ⟨i, hi, rfl⟩ := Option.map_eq_some_iff.mp h
      cases j with
      | zero => exact hp
      | succ j => exact ih hi (by omega)

/-- Where it is not found it does not stand. -/
theorem not_infix_of_indexOf {pat s : List α} (h : indexOf pat s = none) : ¬pat <:+: s := by
  induction s with
  | nil =>
    intro hp
    rw [indexOf, if_pos (List.infix_nil.mp hp)] at h
    cases h
  | cons c s ih =>
    by_cases hp : pat <+: c :: s
    · rw [indexOf_of_begins hp] at h
      cases h
    · rw [indexOf_cons_of_not hp, Option.map_eq_none_iff] at h
      intro hinfix
      exact (List.infix_cons_iff.mp hinfix).elim hp (ih h)

/-- A string that has nothing to begin it with comes before. -/
theorem indexOf_append_of_notMem {p : α} {pat a : List α} (h : p ∉ a) (b : List α) :
    indexOf (p :: pat) (a ++ b) = (indexOf (p :: pat) b).map (a.length + ·) := by
  induction a with
  | nil =>
    rw [List.nil_append]
    cases indexOf (p :: pat) b with
    | none => rfl
    | some i => rw [Option.map_some, List.length_nil, Nat.zero_add]
  | cons c a ih =>
    rw [List.mem_cons, not_or] at h
    have hp : ¬p :: pat <+: c :: (a ++ b) := fun hp => h.1 (List.cons_prefix_cons.mp hp).1
    rw [List.cons_append, indexOf_cons_of_not hp, ih h.2, Option.map_map]
    congr 1
    funext i
    simp only [Function.comp_apply, List.length_cons]
    omega

/-- Something comes after. -/
theorem indexOf_append_of_eq_some {pat s : List α} {i : ℕ} (h : indexOf pat s = some i) (t : List α) :
    indexOf pat (s ++ t) = some i := by
  induction s generalizing i with
  | nil =>
    rw [indexOf] at h
    split at h
    case isTrue hp =>
      subst hp
      obtain rfl := Option.some.inj h
      exact indexOf_of_begins List.nil_prefix
    case isFalse => cases h
  | cons c s ih =>
    by_cases hp : pat <+: c :: s
    · rw [indexOf_of_begins hp] at h
      obtain rfl := Option.some.inj h
      exact indexOf_of_begins (hp.trans (List.prefix_append _ _))
    · rw [indexOf_cons_of_not hp] at h
      obtain ⟨j, hj, rfl⟩ := Option.map_eq_some_iff.mp h
      have hlen : pat.length ≤ (c :: s).length := by
        have := (prefix_of_indexOf hj).length_le
        rw [List.length_drop] at this
        rw [List.length_cons]
        omega
      have hp' : ¬pat <+: c :: (s ++ t) := fun hp' =>
        hp (List.prefix_of_prefix_length_le hp' (List.prefix_append (c :: s) t) hlen)
      rw [List.cons_append, indexOf_cons_of_not hp', ih hj, Option.map_some]

omit [DecidableEq α] in
/-- A string without a character that comes behind does not reach behind it. -/
theorem prefix_of_prefix_append_cons {pat s : List α} {x : α} (hx : x ∉ pat) {b : List α} (h : pat <+: s ++ x :: b) :
    pat <+: s := by
  rcases Nat.lt_or_ge s.length pat.length with hlong | hshort
  · have hclosed : s ++ [x] <+: s ++ x :: b := (List.prefix_append_right_inj s).mpr (List.cons_prefix_cons.mpr ⟨rfl, List.nil_prefix⟩)
    have hle : (s ++ [x]).length ≤ pat.length := by
      rw [List.length_append]
      exact hlong
    have hmem := (List.prefix_of_prefix_length_le hclosed h hle).subset (List.mem_append_right s List.mem_cons_self)
    exact absurd hmem hx
  · exact List.prefix_of_prefix_length_le h (List.prefix_append _ _) hshort

theorem indexOf_append_cons_of_not_infix {pat a : List α} {x : α} (ha : ¬pat <:+: a) (hx : x ∉ pat) (b : List α) :
    indexOf pat (a ++ x :: b) = (indexOf pat b).map (a.length + 1 + ·) := by
  induction a with
  | nil =>
    have hno : ¬pat <+: x :: b := fun hp => ha (prefix_of_prefix_append_cons hx hp).isInfix
    rw [List.nil_append, indexOf_cons_of_not hno]
    simp only [List.length_nil, Nat.zero_add, Nat.add_comm]
  | cons c a ih =>
    have hno : ¬pat <+: c :: a ++ x :: b := fun hp => ha (prefix_of_prefix_append_cons hx hp).isInfix
    have ha' : ¬pat <:+: a := fun hp => ha (List.infix_cons_iff.mpr (Or.inr hp))
    rw [List.cons_append] at hno ⊢
    rw [indexOf_cons_of_not hno, ih ha', Option.map_map]
    congr 1
    funext i
    simp only [Function.comp_apply, List.length_cons]
    omega

/-- It lies inside. -/
theorem le_of_indexOf {pat s : List α} {i : ℕ} (h : indexOf pat s = some i) (hne : pat ≠ []) :
    i + pat.length ≤ s.length := by
  have := (prefix_of_indexOf h).length_le
  have hpos := List.length_pos_iff.mpr hne
  rw [List.length_drop] at this
  omega

/-! ### The first of a kind -/

/-- Before the first that has a property none has it. -/
theorem exists_first {α : Type} {p : α → Prop} {xs : List α} (h : ∃ x ∈ xs, p x) :
    ∃ pre x post, xs = pre ++ x :: post ∧ p x ∧ ∀ y ∈ pre, ¬p y := by
  induction xs with
  | nil =>
    obtain ⟨x, hx, -⟩ := h
    cases hx
  | cons x xs ih =>
    by_cases hx : p x
    · exact ⟨[], x, xs, rfl, hx, fun _ hy => absurd hy List.not_mem_nil⟩
    · obtain ⟨y, hy, hp⟩ := h
      have hy' : y ∈ xs := (List.mem_cons.mp hy).resolve_left fun he => hx (he ▸ hp)
      obtain ⟨pre, z, post, rfl, hz, hpre⟩ := ih ⟨y, hy', hp⟩
      exact ⟨x :: pre, z, post, rfl, hz, List.forall_mem_cons.mpr ⟨hx, hpre⟩⟩

/-- Behind the last of its kind there is none. -/
theorem exists_last {α : Type} {x : α} {xs : List α} (h : x ∈ xs) : ∃ pre post, xs = pre ++ x :: post ∧ x ∉ post := by
  obtain ⟨post, pre, hsplit, hpost⟩ := List.eq_append_cons_of_mem (List.mem_reverse.mpr h)
  refine ⟨pre.reverse, post.reverse, ?_, fun hmem => hpost (List.mem_reverse.mp hmem)⟩
  rw [← List.reverse_reverse xs, hsplit, List.reverse_append, List.reverse_cons, List.append_assoc, List.singleton_append]

/-- Where no key comes twice, an element is found under its own. -/
theorem find?_of_nodup {α β : Type} [DecidableEq β] {f : α → β} {l : List α} (hnodup : (l.map f).Nodup) {a : α}
    (h : a ∈ l) : l.reverse.find? (fun b => f b = f a) = some a := by
  cases hfind : l.reverse.find? fun b => f b = f a with
  | none =>
    have hno := List.find?_eq_none.mp hfind a (List.mem_reverse.mpr h)
    exact absurd (decide_eq_true rfl) hno
  | some b =>
    have hkey := List.find?_some hfind
    have hmem := List.mem_reverse.mp (List.mem_of_find?_eq_some hfind)
    rw [List.inj_on_of_nodup_map hnodup hmem h (of_decide_eq_true hkey)]

end OwlTap
