import Mathlib.Algebra.Order.Ring.Int

/-!
# Code that may throw

A method that may throw leaves the state as it is where it throws. `Yields` says what holds when it
does not throw.
-/

namespace OwlTap

/-- Code on a state that may throw an exception with a text. -/
abbrev Throwing (σ : Type) := ExceptT String (StateM σ)

namespace Throwing

variable {σ α β : Type}

/-- When `m` does not throw, this holds of what it returns and of the state. -/
def Yields (m : Throwing σ α) (s : σ) (Q : α → σ → Prop) : Prop := ∀ a t, m.run.run s = (.ok a, t) → Q a t

theorem Yields.mono {m : Throwing σ α} {s : σ} {P Q : α → σ → Prop} (h : Yields m s P) (hPQ : ∀ a t, P a t → Q a t) :
    Yields m s Q := fun a t e => hPQ a t (h a t e)

theorem yields_pure {a : α} {s : σ} {Q : α → σ → Prop} (h : Q a s) : Yields (pure a) s Q := by
  intro b t e
  obtain ⟨e₁, rfl⟩ := Prod.mk.inj e
  obtain rfl := Except.ok.inj e₁
  exact h

theorem yields_modify {f : σ → σ} {s : σ} {Q : PUnit → σ → Prop} (h : Q ⟨⟩ (f s)) : Yields (modify f) s Q := by
  intro b t e
  obtain ⟨-, rfl⟩ := Prod.mk.inj e
  exact h

theorem yields_throw {what : String} {s : σ} {Q : α → σ → Prop} : Yields (throw what) s Q := by
  intro b t e
  cases (Prod.mk.inj e).1

theorem yields_lift {x : Except String α} {s : σ} {Q : α → σ → Prop} (h : ∀ a, x = .ok a → Q a s) :
    Yields (liftM x) s Q := by
  intro b t e
  obtain ⟨e₁, rfl⟩ := Prod.mk.inj e
  exact h b e₁

theorem yields_bind {m : Throwing σ α} {f : α → Throwing σ β} {s : σ} {Q : β → σ → Prop}
    (h : Yields m s fun a t => Yields (f a) t Q) : Yields (m >>= f) s Q := by
  intro b u e
  rw [ExceptT.run_bind, StateT.run_bind] at e
  match hm : m.run.run s with
  | (.ok a, t) =>
    rw [hm] at e
    exact h a t hm b u e
  | (.error what, t) =>
    rw [hm] at e
    cases (Prod.mk.inj e).1

/-- What the second part establishes whatever the first has done. -/
theorem yields_bind_any {m : Throwing σ α} {f : α → Throwing σ β} {s : σ} {Q : β → σ → Prop}
    (h : ∀ a t, Yields (f a) t Q) : Yields (m >>= f) s Q := yields_bind fun a t _ => h a t

/-- A loop whose passes all go on and keep something. -/
theorem yields_forIn {l : List α} {f : α → PUnit → Throwing σ (ForInStep PUnit)} {s : σ} {P : σ → Prop}
    (hf : ∀ a ∈ l, ∀ u s, P s → Yields (f a u) s fun r t => r = .yield ⟨⟩ ∧ P t) (h : P s) :
    Yields (forIn l PUnit.unit f) s fun _ t => P t := by
  induction l generalizing s with
  | nil => exact yields_pure h
  | cons a l ih =>
    rw [List.forIn_cons]
    refine yields_bind ((hf a List.mem_cons_self _ s h).mono ?_)
    rintro _ t ⟨rfl, ht⟩
    exact ih (fun a ha => hf a (List.mem_cons_of_mem _ ha)) ht

/-! ### Runs that do not throw -/

/-- What does not throw goes on. -/
theorem run_lift_bind {x : Except String α} {a : α} (h : x = .ok a) (f : α → Throwing σ β) (s : σ) :
    ((liftM x : Throwing σ α) >>= f).run.run s = (f a).run.run s := by
  rw [h]
  rfl

theorem run_modify_bind (g : σ → σ) (f : PUnit → Throwing σ β) (s : σ) :
    ((modify g : Throwing σ PUnit) >>= f).run.run s = (f ⟨⟩).run.run (g s) := rfl

theorem run_bind {m : Throwing σ α} {a : α} {s t : σ} (h : m.run.run s = (.ok a, t)) (f : α → Throwing σ β) :
    (m >>= f).run.run s = (f a).run.run t := by
  rw [ExceptT.run_bind, StateT.run_bind, h]
  rfl

/-- A loop none of whose passes throws. -/
theorem run_forIn {f : α → PUnit → Throwing σ (ForInStep PUnit)} {pass : σ → α → σ} {l : List α}
    (hf : ∀ a ∈ l, ∀ s, (f a ⟨⟩).run.run s = (.ok (.yield ⟨⟩), pass s a)) (s : σ) :
    (forIn l PUnit.unit f).run.run s = (.ok ⟨⟩, l.foldl pass s) := by
  induction l generalizing s with
  | nil => rfl
  | cons a l ih =>
    rw [List.forIn_cons, run_bind (hf a List.mem_cons_self s)]
    exact ih (fun a ha => hf a (List.mem_cons_of_mem _ ha)) _

end Throwing

end OwlTap
