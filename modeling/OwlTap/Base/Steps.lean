import Mathlib.Algebra.Order.Ring.Int
import Mathlib.Data.List.Destutter

/-!
# Runs

A system takes steps, of which some cannot be taken in some states: `step s a` is the state after
the step `a`, or `none`. `steps` takes one step after the other, in any order that whoever
chooses the actions likes. What every step keeps holds after a run (`steps_invariant`); what
depends on the whole run is shown from its end (`steps_induction`); what needs a condition on the
steps is shown along the runs that meet it (`along_induction`).

`trace` is what the states of a run have been, and `destutter` what can be seen to change in them.
-/

namespace OwlTap

variable {S A : Type}

/-- The state after some steps; `none` when one of them cannot be taken. -/
def steps (step : S → A → Option S) : S → List A → Option S
  | s, [] => some s
  | s, a :: as => (step s a).bind fun t => steps step t as

/-- The states of a run, from the first to the last. -/
def trace (step : S → A → Option S) : S → List A → List S
  | s, [] => [s]
  | s, a :: as => s :: (step s a).elim [] fun t => trace step t as

/-- Every step of a run meets a condition. -/
def Along (step : S → A → Option S) (C : S → A → Prop) : S → List A → Prop
  | _, [] => True
  | s, a :: as => C s a ∧ ∀ t, step s a = some t → Along step C t as

variable {step : S → A → Option S}

/-! ### Taking steps -/

theorem steps_nil (s : S) : steps step s [] = some s := rfl

theorem steps_cons (s : S) (a : A) (as : List A) :
    steps step s (a :: as) = (step s a).bind fun t => steps step t as := rfl

theorem steps_append (s : S) (as bs : List A) :
    steps step s (as ++ bs) = (steps step s as).bind fun t => steps step t bs := by
  induction as generalizing s with
  | nil => rfl
  | cons a as ih =>
    rw [List.cons_append, steps_cons, steps_cons, Option.bind_assoc]
    congr 1
    funext t
    exact ih t

/-- The last step of a run. -/
theorem steps_concat {s u : S} {as : List A} {a : A} :
    steps step s (as ++ [a]) = some u ↔ ∃ t, steps step s as = some t ∧ step t a = some u := by
  rw [steps_append, Option.bind_eq_some_iff]
  simp only [steps_cons, steps_nil, Option.bind_fun_some]

/-- A run that goes on after some steps. -/
theorem steps_split {s u : S} {as bs : List A} (h : steps step s (as ++ bs) = some u) :
    ∃ t, steps step s as = some t ∧ steps step t bs = some u := by
  rwa [steps_append, Option.bind_eq_some_iff] at h

/-! ### What holds along a run -/

/-- What holds at the beginning and is carried on by every step holds of a run and the state it leads to. -/
theorem steps_induction {P : List A → S → Prop} {s : S} (init : P [] s)
    (next : ∀ as t a u, steps step s as = some t → P as t → step t a = some u → P (as ++ [a]) u)
    {as : List A} {t : S} (h : steps step s as = some t) : P as t := by
  induction as using List.reverseRecOn generalizing t with
  | nil =>
    obtain rfl := Option.some.inj h
    exact init
  | append_singleton as a ih =>
    obtain ⟨m, hm, hstep⟩ := steps_concat.mp h
    exact next as m a t hm (ih hm) hstep

/-- What every step keeps holds after a run. -/
theorem steps_invariant {P : S → Prop} (hstep : ∀ s a t, step s a = some t → P s → P t) {s t : S} {as : List A}
    (h : steps step s as = some t) (hs : P s) : P t :=
  steps_induction (P := fun _ t => P t) hs (fun _ _ _ _ _ hP ha => hstep _ _ _ ha hP) h

/-- The last step of a run that meets a condition. -/
theorem along_concat {C : S → A → Prop} {s : S} {as : List A} {a : A} :
    Along step C s (as ++ [a]) ↔ Along step C s as ∧ ∀ t, steps step s as = some t → C t a := by
  induction as generalizing s with
  | nil =>
    constructor
    · rintro ⟨h, -⟩
      exact ⟨trivial, fun t ht => Option.some.inj ht ▸ h⟩
    · rintro ⟨-, h⟩
      exact ⟨h s rfl, fun _ _ => trivial⟩
  | cons b as ih =>
    constructor
    · rintro ⟨hb, h⟩
      refine ⟨⟨hb, fun t ht => (ih.mp (h t ht)).1⟩, fun t ht => ?_⟩
      obtain ⟨m, hm, ht⟩ := Option.bind_eq_some_iff.mp ht
      exact (ih.mp (h m hm)).2 t ht
    · rintro ⟨⟨hb, h⟩, hlast⟩
      refine ⟨hb, fun t ht => ih.mpr ⟨h t ht, fun u hu => hlast u ?_⟩⟩
      rw [steps_cons, ht]
      exact hu

instance decidableAlong {C : S → A → Prop} [∀ s a, Decidable (C s a)] : (s : S) → (as : List A) →
    Decidable (Along step C s as)
  | _, [] => .isTrue trivial
  | s, a :: as =>
    match h : step s a with
    | none => decidable_of_iff (C s a) ⟨fun hc => ⟨hc, fun _ ht => (nomatch h.symm.trans ht)⟩, And.left⟩
    | some t =>
      have := (decidableAlong t as : Decidable (Along step C t as))
      decidable_of_iff (C s a ∧ Along step C t as)
        (and_congr_right' ⟨fun hal _ hu => Option.some.inj (h.symm.trans hu) ▸ hal, fun hal => hal t h⟩)

/-- What comes first in a run meets the condition as well. -/
theorem Along.left {C : S → A → Prop} {s : S} {as bs : List A} (h : Along step C s (as ++ bs)) : Along step C s as := by
  induction as generalizing s with
  | nil => trivial
  | cons a as ih => exact ⟨h.1, fun t ht => ih (h.2 t ht)⟩

/-- The same for the runs whose steps all meet a condition. -/
theorem along_induction {C : S → A → Prop} {P : List A → S → Prop} {s : S} (init : P [] s)
    (next : ∀ as t a u, steps step s as = some t → P as t → C t a → step t a = some u → P (as ++ [a]) u)
    {as : List A} {t : S} (h : steps step s as = some t) (hC : Along step C s as) : P as t := by
  refine steps_induction (P := fun as t => Along step C s as → P as t) (fun _ => init) ?_ h hC
  intro as t a u ht hP ha hC
  obtain ⟨hC, hlast⟩ := along_concat.mp hC
  exact next as t a u ht (hP hC) (hlast t ht) ha

/-- What every step that meets a condition keeps. -/
theorem along_invariant {C : S → A → Prop} {P : S → Prop} (hstep : ∀ s a t, step s a = some t → C s a → P s → P t)
    {s t : S} {as : List A} (h : steps step s as = some t) (hC : Along step C s as) (hs : P s) : P t :=
  along_induction (P := fun _ t => P t) hs (fun _ _ _ _ _ hP hC ha => hstep _ _ _ ha hC hP) h hC

/-! ### What can be seen of a run -/

theorem trace_concat {s t u : S} {as : List A} {a : A} (h : steps step s as = some t) (ha : step t a = some u) :
    trace step s (as ++ [a]) = trace step s as ++ [u] := by
  induction as generalizing s with
  | nil =>
    obtain rfl := Option.some.inj h
    simp only [List.nil_append, trace, ha, Option.elim_some, List.singleton_append]
  | cons b as ih =>
    obtain ⟨m, hm, h⟩ := Option.bind_eq_some_iff.mp h
    rw [List.cons_append, trace, trace, hm]
    exact congrArg (s :: ·) (ih h)

theorem getLast?_trace {s t : S} {as : List A} (h : steps step s as = some t) :
    (trace step s as).getLast? = some t := by
  cases as using List.reverseRecOn with
  | nil => exact h
  | append_singleton as a =>
    obtain ⟨m, hm, ha⟩ := steps_concat.mp h
    rw [trace_concat hm ha, List.getLast?_concat]

variable {α : Type} [DecidableEq α]

theorem destutter'_concat (a : α) (l : List α) (b : α) :
    (l ++ [b]).destutter' (· ≠ ·) a =
      if (a :: l).getLast? = some b then l.destutter' (· ≠ ·) a else l.destutter' (· ≠ ·) a ++ [b] := by
  induction l generalizing a with
  | nil =>
    by_cases h : a = b
    · simp [h]
    · simp [h]
  | cons c l ih =>
    rw [List.cons_append, List.getLast?_cons_cons]
    by_cases h : a = c
    · subst h
      rw [List.destutter'_cons_neg _ (not_not.mpr rfl), List.destutter'_cons_neg _ (not_not.mpr rfl), ih]
    · rw [List.destutter'_cons_pos _ h, List.destutter'_cons_pos _ h, ih]
      split
      · rfl
      · rfl

/-- What is seen last is something new or has been seen before. -/
theorem destutter_concat (l : List α) (b : α) :
    (l ++ [b]).destutter (· ≠ ·) =
      if l.getLast? = some b then l.destutter (· ≠ ·) else l.destutter (· ≠ ·) ++ [b] := by
  cases l with
  | nil => rfl
  | cons a l => exact destutter'_concat a l b

/-- The last thing is seen. -/
theorem getLast?_destutter (l : List α) : (l.destutter (· ≠ ·)).getLast? = l.getLast? := by
  induction l using List.reverseRecOn with
  | nil => rfl
  | append_singleton l b ih =>
    rw [destutter_concat, List.getLast?_concat]
    split
    case isTrue h => rw [ih, h]
    case isFalse => exact List.getLast?_concat

end OwlTap
