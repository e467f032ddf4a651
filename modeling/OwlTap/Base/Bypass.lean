import Mathlib.Data.List.TakeDrop
import OwlTap.Base.Chain

/-!
# A register among BYPASS bits

A device with all ones in its instruction register is in BYPASS: its data register is one
bit that captures a 0 (`TestLogic.HasBypass`). So a scan of data for one device goes through
one bit for each of the others. When it has as many bits as the device's register, it leaves
them there; when it has not, what stays in the register are the last bits that went into it,
the captured ones and the zeros of the other devices among them (`passed`).
-/

namespace OwlTap

/-- Devices with an instruction of all ones, which puts them in BYPASS. -/
structure TestLogic.HasBypass {δ : Type} (L : TestLogic δ) (InBypass : δ → Prop) : Prop where
  /-- All ones is the opcode of BYPASS. -/
  updateIr : ∀ d, InBypass (L.update .ir d (List.replicate (L.irWidth d) true))
  /-- The register is one bit, which captures a 0. -/
  capture : ∀ d, InBypass d → L.capture .dr d = [false]
  /-- A scan of data does not change the instruction. -/
  updateDr : ∀ d bits, InBypass d → InBypass (L.update .dr d bits)

/-- Devices of two kinds that both have BYPASS. -/
theorem TestLogic.HasBypass.sum {δ ε : Type} {L : TestLogic δ} {M : TestLogic ε} {p : δ → Prop} {q : ε → Prop}
    (hL : L.HasBypass p) (hM : M.HasBypass q) : (L.sum M).HasBypass (Sum.elim p q) where
  updateIr d := by
    cases d with
    | inl d => exact hL.updateIr d
    | inr d => exact hM.updateIr d
  capture d h := by
    cases d with
    | inl d => exact hL.capture d h
    | inr d => exact hM.capture d h
  updateDr d bits h := by
    cases d with
    | inl d => exact hL.updateDr d bits h
    | inr d => exact hM.updateDr d bits h

namespace Series

variable {α : Type*}

/-- What stays in a series. -/
theorem flatten_shifts (rs : List (List α)) (xs : List α) :
    (shifts rs xs).1.flatten = (rs.flatten ++ xs).drop xs.length := by
  rw [← outs_append_flatten_shifts, List.drop_left' (length_outs_shifts rs xs)]

/-- What leaves it. -/
theorem outs_shifts_eq (rs : List (List α)) (xs : List α) :
    (shifts rs xs).2 = (rs.flatten ++ xs).take xs.length := by
  rw [← outs_append_flatten_shifts, List.take_left' (length_outs_shifts rs xs)]

end Series

/-! ### Scans of another length -/

/-- What a register that held `old` holds after the bits `v`, with `gap` zeros before them. -/
def passed (gap : ℕ) (old v : List Bool) : List Bool := (old ++ List.replicate gap false ++ v).drop (gap + v.length)

@[simp] theorem length_passed (gap : ℕ) (old v : List Bool) : (passed gap old v).length = old.length := by
  simp [passed]

/-- At least as many bits as the register has: the last of them stay. -/
theorem passed_of_le {old v : List Bool} (gap : ℕ) (h : old.length ≤ v.length) :
    passed gap old v = v.drop (v.length - old.length) := by
  rw [passed, List.drop_append, List.drop_eq_nil_of_le (by simp; omega), List.nil_append]
  congr 1
  simp
  omega

/-- As many bits as the register has replace what it held. -/
theorem passed_of_length {old v : List Bool} (gap : ℕ) (h : v.length = old.length) : passed gap old v = v := by
  rw [passed_of_le gap h.ge, h, Nat.sub_self, List.drop_zero]

/-- Fewer bits are the last ones in the register, after the last ones of what was before them. -/
theorem passed_of_ge {old v : List Bool} (gap : ℕ) (h : v.length ≤ old.length) :
    passed gap old v = (old ++ List.replicate gap false).drop (gap + v.length) ++ v := by
  rw [passed, List.drop_append_of_le_length (by simp; omega)]

end OwlTap
