import OwlTap.Base.Chain

/-!
# What arrives at a device of a chain

The input of a register in a series is the output of the registers behind it. So what arrives at a
device during a scan is what the devices nearer TDI held, and then the bits shifted in.
-/

namespace OwlTap

namespace Series

variable {α : Type*}

/-- What leaves a series is what it held, and then what was shifted in. -/
theorem outs_shifts (rs : List (List α)) (xs : List α) : (shifts rs xs).2 = (rs.flatten ++ xs).take xs.length := by
  rw [← outs_append_flatten_shifts, List.take_left' (length_outs_shifts rs xs)]

/-- The registers from one on are a series. -/
theorem drop_shift (rs : List (List α)) (x : α) (k : ℕ) : (shift rs x).1.drop k = (shift (rs.drop k) x).1 := by
  induction k generalizing rs with
  | zero => rfl
  | succ k ih =>
    cases rs with
    | nil => rfl
    | cons r rs => exact ih rs

/-- The input of register `k`, shift by shift. -/
def arrivals (k : ℕ) : List (List α) → List α → List α
  | _, [] => []
  | rs, x :: xs => (shift (rs.drop (k + 1)) x).2 :: arrivals k (shift rs x).1 xs

theorem arrivals_eq (k : ℕ) (rs : List (List α)) (xs : List α) : arrivals k rs xs = (shifts (rs.drop (k + 1)) xs).2 := by
  induction xs generalizing rs with
  | nil => rfl
  | cons x xs ih => rw [arrivals, shifts, ih, drop_shift]

end Series

variable {δ : Type} (L : TestLogic δ)

namespace Chain

/-- The bits on the TDI of device `k` in the cycles of a SHIFT state. -/
def arrivals (reg : Register) (k : ℕ) : Port (List (Device δ)) → List Pins → List Bool
  | _, [] => []
  | p, c :: cs =>
    if p.state = reg.shift then
      (Series.shift ((p.target.map Device.reg).drop (k + 1)) c.tdi).2 :: arrivals reg k (p.clock (Target.chain L) c) cs
    else arrivals reg k (p.clock (Target.chain L) c) cs

variable {L} {reg : Register} {k : ℕ}

theorem arrivals_append (p : Port (List (Device δ))) (a b : List Pins) :
    arrivals L reg k p (a ++ b) = arrivals L reg k p a ++ arrivals L reg k (p.run (Target.chain L) a) b := by
  induction a generalizing p with
  | nil => rfl
  | cons c a ih =>
    rw [List.cons_append, arrivals, arrivals, Port.run_cons, ih]
    split
    · rfl
    · rfl

/-- Outside the SHIFT state nothing arrives. -/
theorem arrivals_eq_nil (p : Port (List (Device δ))) {cs : List Pins} (h : reg.shift ∉ p.state.visits (cs.map Pins.tms)) :
    arrivals L reg k p cs = [] := by
  induction cs generalizing p with
  | nil => rfl
  | cons c cs ih =>
    rw [List.map_cons, TapState.visits, List.mem_cons, not_or] at h
    rw [arrivals, if_neg fun he => h.1 he.symm]
    exact ih (p.clock (Target.chain L) c) h.2

/-- In the SHIFT state there arrives what leaves the devices behind. -/
theorem arrivals_shift {p : Port (List (Device δ))} {cs : List Pins}
    (hv : p.state.visits (cs.map Pins.tms) = List.replicate cs.length reg.shift) :
    arrivals L reg k p cs = (Series.shifts ((p.target.map Device.reg).drop (k + 1)) (cs.map Pins.tdi)).2 := by
  rw [← Series.arrivals_eq]
  induction cs generalizing p with
  | nil => rfl
  | cons c cs ih =>
    obtain ⟨hstate, htail⟩ := List.cons.inj hv
    replace hstate : p.state = reg.shift := hstate
    obtain ⟨-, hreg, -⟩ := clock_shift L (hstate ▸ reg.isShift_shift) c
    rw [arrivals, if_pos hstate, ih htail, hreg]
    rfl

end Chain

end OwlTap
