import OwlTap.Base.Method

/-!
# Simulation of methods

An object stands for another when every operation of the one is the operation of the other: from a
state that stands for a state of the other it returns the same, and leaves a state that stands for
what the other leaves. What is made of such operations is the same on both.
-/

namespace OwlTap.Method

variable {s t s' t' α β ι : Type}

/-- From related states both methods are defined, return the same and leave related states. -/
def Simulates (R : s → t → Prop) (m : Method s α) (n : Method t α) : Prop :=
  ∀ x y, R x y → ∃ a x' y', m x = some (a, x') ∧ n y = some (a, y') ∧ R x' y'

namespace Simulates

variable {R : s → t → Prop} {m : Method s α} {n : Method t α}

theorem pure (a : α) : Simulates R (pure a : Method s α) (pure a) := fun x y h => ⟨a, x, y, rfl, rfl, h⟩

theorem bind {f : α → Method s β} {g : α → Method t β} (h : Simulates R m n) (hfg : ∀ a, Simulates R (f a) (g a)) :
    Simulates R (m >>= f) (n >>= g) := by
  intro x y hxy
  obtain ⟨a, x₁, y₁, e₁, e₁', h₁⟩ := h x y hxy
  obtain ⟨b, x₂, y₂, e₂, e₂', h₂⟩ := hfg a x₁ y₁ h₁
  exact ⟨b, x₂, y₂, (bind_of_eq f e₁).trans e₂, (bind_of_eq g e₁').trans e₂', h₂⟩

theorem map (f : α → β) (h : Simulates R m n) : Simulates R (f <$> m) (f <$> n) := by
  rw [map_eq_pure_bind, map_eq_pure_bind]
  exact h.bind fun a => .pure (f a)

/-- Methods of objects that are parts of others. -/
theorem on {Q : s' → t' → Prop} {get : s' → s} {set : s' → s → s'} {get' : t' → t} {set' : t' → t → t'}
    (h : Simulates R m n) (hget : ∀ x y, Q x y → R (get x) (get' y))
    (hset : ∀ x y x' y', Q x y → R x' y' → Q (set x x') (set' y y')) : Simulates Q (on get set m) (on get' set' n) := by
  intro x y hxy
  obtain ⟨a, x', y', e, e', h'⟩ := h _ _ (hget x y hxy)
  exact ⟨a, set x x', set' y y', on_of_eq set e, on_of_eq set' e', hset x y x' y' hxy h'⟩

/-- One method after the other. -/
theorem mapM {f : ι → Method s α} {g : ι → Method t α} (h : ∀ i, Simulates R (f i) (g i)) (l : List ι) :
    Simulates R (l.mapM f) (l.mapM g) := by
  induction l with
  | nil => exact .pure []
  | cons i l ih =>
    rw [List.mapM_cons, List.mapM_cons]
    exact (h i).bind fun a => ih.bind fun as => .pure (a :: as)

end Simulates

end OwlTap.Method
