import OwlTap.Base.Method
import OwlTap.Base.Reader

/-!
# Cursors

A cursor is a position in a list. Code that reads a list through one takes care not to read past its
end; here a read past the end is `none`, and so is a loop that has no fuel left. `Reads` says what
such code makes of the items after the cursor: that it is defined, what it returns and what it
leaves. Code that follows a `Reader` pass by pass reads what the reader does (`loop_reads`).
-/

namespace OwlTap

variable {γ α β : Type}

namespace Cursor

/-- The cursor stands within the list, and these items are after it. -/
def At (s : List γ) (pos : ℕ) (xs : List γ) : Prop := pos ≤ s.length ∧ s.drop pos = xs

theorem at_zero (s : List γ) : At s 0 s := ⟨Nat.zero_le _, List.drop_zero⟩

section

variable {s : List γ} {pos : ℕ} {x : γ} {xs : List γ}

theorem At.length_eq (h : At s pos xs) : xs.length = s.length - pos := by
  rw [← h.2, List.length_drop]

theorem At.getElem? (h : At s pos xs) (k : ℕ) : s[pos + k]? = xs[k]? := by
  rw [← h.2, List.getElem?_drop]

/-- The next item is passed. -/
theorem At.succ (h : At s pos (x :: xs)) : At s (pos + 1) xs := by
  have hlen := h.length_eq
  rw [List.length_cons] at hlen
  refine ⟨by omega, ?_⟩
  rw [← List.drop_drop, h.2, List.drop_one, List.tail_cons]

end

/-! ### Steps -/

variable (s : List γ)

/-- Whether the cursor is at the end. -/
def atEnd : Method ℕ Bool := fun pos => some (s.length ≤ pos, pos)

/-- The item at a distance from the cursor, which must be there. -/
def item (k : ℕ) : Method ℕ γ := fun pos => (s[pos + k]?).map fun x => (x, pos)

/-- Pass an item. -/
def move : Method ℕ Unit := fun pos => some ((), pos + 1)

/-- Read the next item, and pass it. -/
def advance : Method ℕ γ := do
  let x ← item s 0
  move
  pure x

/-- Whether there is an item at a distance, and it has a property; it is looked at only if it is there. -/
def test (k : ℕ) (p : γ → Bool) : Method ℕ Bool := do
  if ← (fun pos => some (pos + k < s.length, pos) : Method ℕ Bool) then
    let x ← item s k
    pure (p x)
  else pure false

/-- Read the items that have a property, up to the first that has not, at most `fuel` passes. -/
def collectWithin (p : γ → Bool) : (fuel : ℕ) → Method ℕ (List γ)
  | 0 => fun _ => none
  | fuel + 1 => do
    if ← test s 0 p then
      let x ← advance s
      let xs ← collectWithin p fuel
      pure (x :: xs)
    else pure []

/-- Read the items that have a property, up to the first that has not. -/
def collect (p : γ → Bool) : Method ℕ (List γ) := collectWithin s p (s.length + 1)

/-- Pass the next item if it has a property. -/
def moveIf (p : γ → Bool) : Method ℕ Unit := do
  if ← test s 0 p then move else pure ()

/-- Pass the next item if there is one. -/
def moveOn : Method ℕ Unit := do
  if ← atEnd s then pure () else move

/-- What one pass of a loop comes to. -/
inductive Pass (α : Type) where
  /-- The loop ends, perhaps with a last thing read. -/
  | ends (last : Option α)
  /-- Nothing is read. -/
  | skip
  /-- Something is read. -/
  | entry (a : α)

/-- A loop of such passes, at most `fuel` of them. -/
def loopWithin (pass : Method ℕ (Pass α)) : (fuel : ℕ) → Method ℕ (List α)
  | 0 => fun _ => none
  | fuel + 1 => do
    match ← pass with
    | .ends last => pure last.toList
    | .skip => loopWithin pass fuel
    | .entry a =>
      let as ← loopWithin pass fuel
      pure (a :: as)

/-- A loop of such passes; each pass but the last moves on. -/
def loop (pass : Method ℕ (Pass α)) : Method ℕ (List α) := loopWithin pass (s.length + 1)

/-! ### What they read -/

/-- With the items `xs` after the cursor, the code is defined, returns `a`, and leaves `ys`. -/
def Reads (m : Method ℕ α) (xs : List γ) (a : α) (ys : List γ) : Prop :=
  ∀ pos, At s pos xs → ∃ pos', At s pos' ys ∧ m pos = some (a, pos')

variable {s}

/-- What is after a cursor is no longer than the list. -/
theorem reads_of_length {m : Method ℕ α} {xs ys : List γ} {a : α} (h : xs.length < s.length + 1 → Reads s m xs a ys) :
    Reads s m xs a ys := by
  intro pos hpos
  have hlen := hpos.length_eq
  exact h (by omega) pos hpos

theorem reads_pure (a : α) (xs : List γ) : Reads s (pure a) xs a xs := fun pos h => ⟨pos, h, rfl⟩

theorem Reads.bind {m : Method ℕ α} {k : α → Method ℕ β} {xs ys zs : List γ} {a : α} {b : β} (hm : Reads s m xs a ys)
    (hk : Reads s (k a) ys b zs) : Reads s (m >>= k) xs b zs := by
  intro pos h
  obtain ⟨pos', h', e⟩ := hm pos h
  obtain ⟨pos'', h'', e'⟩ := hk pos' h'
  exact ⟨pos'', h'', (Method.bind_of_eq k e).trans e'⟩

theorem reads_atEnd (xs : List γ) : Reads s (atEnd s) xs xs.isEmpty xs := by
  intro pos h
  refine ⟨pos, h, ?_⟩
  have hlen := h.length_eq
  have hpos := h.1
  cases xs with
  | nil =>
    rw [List.length_nil] at hlen
    rw [atEnd, decide_eq_true (show s.length ≤ pos by omega)]
    rfl
  | cons x xs =>
    rw [List.length_cons] at hlen
    rw [atEnd, decide_eq_false (show ¬s.length ≤ pos by omega)]
    rfl

theorem reads_item {xs : List γ} {k : ℕ} {x : γ} (hx : xs[k]? = some x) : Reads s (item s k) xs x xs := by
  intro pos h
  refine ⟨pos, h, ?_⟩
  rw [item, h.getElem? k, hx]
  rfl

theorem reads_move (x : γ) (xs : List γ) : Reads s move (x :: xs) () xs := fun pos h => ⟨pos + 1, h.succ, rfl⟩

theorem reads_advance (x : γ) (xs : List γ) : Reads s (advance s) (x :: xs) x xs :=
  (reads_item rfl).bind ((reads_move x xs).bind (reads_pure x xs))

theorem reads_test (k : ℕ) (p : γ → Bool) (xs : List γ) : Reads s (test s k p) xs (xs[k]?.any p) xs := by
  have hthere : Reads s (fun pos => some (decide (pos + k < s.length), pos)) xs (decide (k < xs.length)) xs := by
    intro pos h
    have hroom : pos + k < s.length ↔ k < xs.length := by
      have hlen := h.length_eq
      omega
    exact ⟨pos, h, congrArg (fun there => some (there, pos)) (decide_eq_decide.mpr hroom)⟩
  refine hthere.bind ?_
  by_cases hk : k < xs.length
  · rw [decide_eq_true hk, List.getElem?_eq_getElem hk]
    exact (reads_item (List.getElem?_eq_getElem hk)).bind (reads_pure _ xs)
  · rw [decide_eq_false hk, List.getElem?_eq_none (by omega)]
    exact reads_pure false xs

theorem reads_collectWithin (p : γ → Bool) {fuel : ℕ} {xs : List γ} (hf : xs.length < fuel) :
    Reads s (collectWithin s p fuel) xs (xs.takeWhile p) (xs.dropWhile p) := by
  induction fuel generalizing xs with
  | zero => omega
  | succ fuel ih =>
    cases xs with
    | nil => exact (reads_test 0 p []).bind (reads_pure [] [])
    | cons x xs =>
      rw [List.length_cons] at hf
      refine (reads_test 0 p (x :: xs)).bind ?_
      rw [List.getElem?_cons_zero, Option.any_some, List.takeWhile_cons, List.dropWhile_cons]
      cases p x with
      | false => exact reads_pure [] (x :: xs)
      | true => exact (reads_advance x xs).bind ((ih (by omega)).bind (reads_pure _ _))

theorem reads_collect (p : γ → Bool) (xs : List γ) : Reads s (collect s p) xs (xs.takeWhile p) (xs.dropWhile p) :=
  reads_of_length (reads_collectWithin p)

theorem reads_moveIf (p : γ → Bool) (xs : List γ) :
    Reads s (moveIf s p) xs () (if xs.head?.any p then xs.tail else xs) := by
  refine (reads_test 0 p xs).bind ?_
  cases xs with
  | nil => exact reads_pure () []
  | cons x xs =>
    rw [List.getElem?_cons_zero, List.head?_cons, Option.any_some, List.tail_cons]
    cases p x with
    | false => exact reads_pure () (x :: xs)
    | true => exact reads_move x xs

theorem reads_moveOn (xs : List γ) : Reads s (moveOn s) xs () xs.tail := by
  refine (reads_atEnd xs).bind ?_
  cases xs with
  | nil => exact reads_pure () []
  | cons x xs => exact reads_move x xs

/-- A pass that does what a step of a reader does. -/
def Follows (s : List γ) (pass : Method ℕ (Pass α)) (xs : List γ) : Step γ α → Prop
  | .ends last _ => ∃ ys, Reads s pass xs (.ends last) ys
  | .skip rest => Reads s pass xs .skip rest
  | .entry a rest => Reads s pass xs (.entry a) rest

/-- A loop whose passes follow a reader ends, and reads what the reader reads. -/
theorem loop_reads {R : Reader γ α} {pass : Method ℕ (Pass α)} (hpass : ∀ xs, Follows s pass xs (R.next xs)) :
    ∃ pos, loop s pass 0 = some ((R.read s).1, pos) := by
  have hwithin : ∀ fuel xs, xs.length < fuel → ∃ ys, Reads s (loopWithin pass fuel) xs (R.read xs).1 ys := by
    intro fuel
    induction fuel with
    | zero => exact fun xs hf => absurd hf (Nat.not_lt_zero _)
    | succ fuel ih =>
      intro xs hf
      have hfollows := hpass xs
      cases h : R.next xs with
      | ends last rest =>
        rw [h] at hfollows
        obtain ⟨ys, hreads⟩ := hfollows
        rw [Reader.read_of_ends h]
        exact ⟨ys, hreads.bind (reads_pure _ ys)⟩
      | skip rest =>
        rw [h] at hfollows
        have hlt := Reader.lt_of_skip h
        obtain ⟨ys, hrest⟩ := ih rest (by omega)
        rw [Reader.read_of_skip h]
        exact ⟨ys, Reads.bind hfollows hrest⟩
      | entry a rest =>
        rw [h] at hfollows
        have hlt := Reader.lt_of_entry h
        obtain ⟨ys, hrest⟩ := ih rest (by omega)
        rw [Reader.read_of_entry h]
        exact ⟨ys, Reads.bind hfollows (hrest.bind (reads_pure _ ys))⟩
  obtain ⟨ys, hreads⟩ := hwithin (s.length + 1) s (Nat.lt_succ_self _)
  obtain ⟨pos, -, hrun⟩ := hreads 0 (at_zero s)
  exact ⟨pos, hrun⟩

end Cursor

end OwlTap
