import Mathlib.Algebra.Order.Ring.Int
import Mathlib.Tactic.TypeStar

/-!
# Methods of an object

A method of an object of state `s` runs from the object's state to a result and
the state it leaves, or to nothing: `none` is undefined behaviour (a read outside
a buffer, a null pointer followed), after which the program has no meaning. An
object that holds a reference to another calls its methods through `on`.
-/

namespace OwlTap

variable {s t α β : Type}

/-- A method of an object of state `s`. -/
abbrev Method (s α : Type) := StateT s Option α

namespace Method

/-- A method that runs another: the first must be defined, and then the second. -/
theorem bind_eq_some {m : Method s α} {f : α → Method s β} {x : s} {r : β × s} :
    (m >>= f) x = some r ↔ ∃ a y, m x = some (a, y) ∧ f a y = some r := by
  show (m x).bind (fun p => f p.1 p.2) = some r ↔ _
  rw [Option.bind_eq_some_iff]
  exact ⟨fun ⟨p, hm, hf⟩ => ⟨p.1, p.2, hm, hf⟩, fun ⟨a, y, hm, hf⟩ => ⟨(a, y), hm, hf⟩⟩

theorem bind_of_eq {m : Method s α} (f : α → Method s β) {x y : s} {a : α} (h : m x = some (a, y)) :
    (m >>= f) x = f a y := by
  show (m x).bind (fun p => f p.1 p.2) = _
  rw [h]; rfl

theorem bind_of_none {m : Method s α} (f : α → Method s β) {x : s} (h : m x = none) : (m >>= f) x = none := by
  show (m x).bind (fun p => f p.1 p.2) = none
  rw [h]; rfl

theorem modify_bind (f : s → s) (k : PUnit → Method s α) (x : s) :
    ((modify f : Method s PUnit) >>= k) x = k ⟨⟩ (f x) := rfl

theorem pure_apply (a : α) (x : s) : (pure a : Method s α) x = some (a, x) := rfl

theorem map_of_eq (f : α → β) {m : Method s α} {x y : s} {a : α} (h : m x = some (a, y)) : (f <$> m) x = some (f a, y) := by
  rw [map_eq_pure_bind]
  exact bind_of_eq _ h

/-- A call of a method of the object that `get` finds and `set` puts back. -/
def on (get : t → s) (set : t → s → t) (m : Method s α) : Method t α :=
  fun x => (m (get x)).map fun r => (r.1, set x r.2)

theorem on_eq_some {get : t → s} {set : t → s → t} {m : Method s α} {x y : t} {a : α} :
    on get set m x = some (a, y) ↔ ∃ z, m (get x) = some (a, z) ∧ set x z = y := by
  simp only [on, Option.map_eq_some_iff, Prod.exists, Prod.mk.injEq]
  exact ⟨fun ⟨_, z, h, ha, hz⟩ => ⟨z, ha ▸ h, hz⟩, fun ⟨z, h, hz⟩ => ⟨a, z, h, rfl, hz⟩⟩

theorem on_of_eq {get : t → s} (set : t → s → t) {m : Method s α} {x : t} {z : s} {a : α}
    (h : m (get x) = some (a, z)) : on get set m x = some (a, set x z) := by
  simp [on, h]

/-- `if (!m) return false;` and then `k`. -/
def andThen (m k : Method s Bool) : Method s Bool :=
  fun x => (m x).bind fun r => if r.1 then k r.2 else some (false, r.2)

theorem andThen_of_true {m : Method s Bool} (k : Method s Bool) {x y : s} (h : m x = some (true, y)) :
    andThen m k x = k y := by
  simp [andThen, h]

theorem andThen_of_false {m : Method s Bool} (k : Method s Bool) {x y : s} (h : m x = some (false, y)) :
    andThen m k x = some (false, y) := by
  simp [andThen, h]

/-- A successful pair of methods: the first succeeds, and then the second. -/
theorem andThen_eq_true {m k : Method s Bool} {x z : s} :
    andThen m k x = some (true, z) ↔ ∃ y, m x = some (true, y) ∧ k y = some (true, z) := by
  rw [andThen, Option.bind_eq_some_iff]
  constructor
  · rintro ⟨⟨_ | _, y⟩, hm, hk⟩
    · simp at hk
    · exact ⟨y, hm, hk⟩
  · rintro ⟨y, hm, hk⟩
    exact ⟨(true, y), hm, hk⟩

/-! ### What a method keeps -/

/-- Whenever the method is defined, it keeps a property of the object. -/
def Keeps (I : s → Prop) (m : Method s α) : Prop := ∀ x a y, I x → m x = some (a, y) → I y

variable {I : s → Prop}

theorem Keeps.pure (a : α) : Keeps I (pure a : Method s α) := by
  intro x b y hx h
  rw [pure_apply, Option.some.injEq, Prod.mk.injEq] at h
  exact h.2 ▸ hx

theorem Keeps.bind {m : Method s α} {f : α → Method s β} (hm : Keeps I m) (hf : ∀ a, Keeps I (f a)) : Keeps I (m >>= f) := by
  intro x b z hx h
  obtain ⟨a, y, hy, hz⟩ := bind_eq_some.mp h
  exact hf a y b z (hm x a y hx hy) hz

theorem Keeps.map {m : Method s α} (f : α → β) (hm : Keeps I m) : Keeps I (f <$> m) := by
  rw [map_eq_pure_bind]
  exact hm.bind fun a => .pure (f a)

/-- One method after the other. -/
theorem Keeps.mapM {ι : Type} {f : ι → Method s α} {l : List ι} (h : ∀ i ∈ l, Keeps I (f i)) : Keeps I (l.mapM f) := by
  induction l with
  | nil => exact .pure []
  | cons i l ih =>
    rw [List.mapM_cons]
    exact (h i List.mem_cons_self).bind fun a => (ih fun j hj => h j (List.mem_cons_of_mem i hj)).bind fun as => .pure (a :: as)

theorem Keeps.andThen {m k : Method s Bool} (hm : Keeps I m) (hk : Keeps I k) : Keeps I (andThen m k) := by
  intro x b z hx h
  obtain ⟨⟨ok, y⟩, hy, hz⟩ := Option.bind_eq_some_iff.mp h
  have hIy := hm x ok y hx hy
  cases ok with
  | true => exact hk y b z hIy hz
  | false =>
    obtain ⟨-, rfl⟩ := Prod.mk.inj (Option.some.inj hz)
    exact hIy

theorem Keeps.modify {f : s → s} (h : ∀ x, I x → I (f x)) : Keeps I (modify f : Method s PUnit) := by
  intro x a y hx e
  obtain ⟨-, rfl⟩ := Prod.mk.inj (Option.some.inj e)
  exact h x hx

theorem Keeps.on {J : t → Prop} {get : t → s} {set : t → s → t} {m : Method s α} (hm : Keeps I m)
    (hget : ∀ x, J x → I (get x)) (hset : ∀ x z, J x → I z → J (set x z)) : Keeps J (on get set m) := by
  intro x a y hx e
  obtain ⟨z, hz, rfl⟩ := on_eq_some.mp e
  exact hset x z hx (hm _ a z (hget x hx) hz)

/-! ### What a method ensures -/

/-- From every state with a property the method is defined, and what it returns and leaves has another. -/
def Ensures (P : s → Prop) (m : Method s α) (Q : α → s → Prop) : Prop :=
  ∀ x, P x → ∃ a y, m x = some (a, y) ∧ Q a y

namespace Ensures

variable {P P' : s → Prop} {Q Q' : α → s → Prop} {R : β → s → Prop} {m : Method s α}

theorem pure {a : α} (h : ∀ x, P x → Q a x) : Ensures P (pure a : Method s α) Q := fun x hx => ⟨a, x, rfl, h x hx⟩

theorem bind {f : α → Method s β} (hm : Ensures P m Q) (hf : ∀ a, Ensures (Q a) (f a) R) : Ensures P (m >>= f) R := by
  intro x hx
  obtain ⟨a, y, e, hy⟩ := hm x hx
  obtain ⟨b, z, e', hz⟩ := hf a y hy
  exact ⟨b, z, (bind_of_eq f e).trans e', hz⟩

theorem andThen {m k : Method s Bool} (hm : Ensures P m fun _ => P) (hk : Ensures P k fun _ => P) :
    Ensures P (andThen m k) fun _ => P := by
  intro x hx
  obtain ⟨ok, y, e, hy⟩ := hm x hx
  cases ok with
  | false => exact ⟨false, y, andThen_of_false k e, hy⟩
  | true =>
    obtain ⟨b, z, e', hz⟩ := hk y hy
    exact ⟨b, z, (andThen_of_true k e).trans e', hz⟩

theorem modify {f : s → s} {Q : PUnit → s → Prop} (h : ∀ x, P x → Q ⟨⟩ (f x)) :
    Ensures P (modify f : Method s PUnit) Q := fun x hx => ⟨⟨⟩, f x, rfl, h x hx⟩

/-- The rule of consequence. -/
theorem mono (h : Ensures P m Q) (hP : ∀ x, P' x → P x) (hQ : ∀ a x, Q a x → Q' a x) : Ensures P' m Q' := by
  intro x hx
  obtain ⟨a, y, e, hy⟩ := h x (hP x hx)
  exact ⟨a, y, e, hQ a y hy⟩

/-- A call of a method of another object. -/
theorem on {get : t → s} {set : t → s → t} {J : t → Prop} {K : α → t → Prop} (h : Ensures P m Q)
    (hget : ∀ x, J x → P (get x)) (hset : ∀ x a z, J x → Q a z → K a (set x z)) : Ensures J (on get set m) K := by
  intro x hx
  obtain ⟨a, z, e, hz⟩ := h _ (hget x hx)
  exact ⟨a, set x z, on_of_eq set e, hset x a z hx hz⟩

end Ensures

end Method

end OwlTap
