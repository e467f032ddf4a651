import OwlTap.Base.Chain

/-!
# A device with a boundary register

The kind of device that the host drives: an instruction register; a boundary register with
update latches, selected by EXTEST and by SAMPLE; an identity; and BYPASS for everything
else. UPDATE-DR copies the boundary register to the latches under either instruction
(SAMPLE and PRELOAD are one), and the latches drive the pins while EXTEST is in force.
-/

namespace OwlTap

/-- What is fixed about a device. -/
structure BoundarySpec where
  /-- The length of the instruction register. -/
  irWidth : ℕ
  /-- The opcode of EXTEST, the bit nearest TDO first. -/
  extest : List Bool
  /-- The opcode of SAMPLE. -/
  sample : List Bool
  /-- The length of the boundary register. -/
  bsrLength : ℕ
  /-- What the device presents after a reset. -/
  identity : List Bool
  /-- All ones is BYPASS, and not EXTEST. -/
  extest_ne : extest ≠ List.replicate irWidth true
  /-- Nor SAMPLE. -/
  sample_ne : sample ≠ List.replicate irWidth true

/-! ### Opcodes of two bits that are not BYPASS -/

theorem zero_ne_bypass : [false, false] ≠ List.replicate 2 true := by decide

theorem one_ne_bypass : [true, false] ≠ List.replicate 2 true := by decide

/-- The state of a device. -/
structure BoundaryDevice where
  /-- What is fixed. -/
  spec : BoundarySpec
  /-- The instruction in force; none after a reset. -/
  instruction : Option (List Bool)
  /-- The update latches. -/
  latches : List Bool
  /-- How many updates there have been. -/
  time : ℕ
  /-- What the boundary cells see, after so many updates. -/
  inputs : ℕ → ℕ → Bool
  /-- What has been loaded into the instruction register, in order. -/
  loaded : List (List Bool)
  /-- What the pins have been driven with, in order. -/
  driven : List (List Bool)

namespace BoundaryDevice

/-- The instruction in force selects the boundary register. -/
def Boundary (d : BoundaryDevice) : Prop :=
  d.instruction = some d.spec.extest ∨ d.instruction = some d.spec.sample

instance (d : BoundaryDevice) : Decidable d.Boundary := inferInstanceAs (Decidable (_ ∨ _))

/-- The pins are driven with the latches while EXTEST is in force. -/
def drive (d : BoundaryDevice) : BoundaryDevice :=
  { d with driven := if d.instruction = some d.spec.extest then d.driven ++ [d.latches] else d.driven }

/-- The data register that is selected, and what it captures. -/
def captureDr (d : BoundaryDevice) : List Bool :=
  if d.Boundary then (List.range d.spec.bsrLength).map (d.inputs d.time)
  else if d.instruction = none then d.spec.identity
  else [false]

/-- UPDATE-IR. -/
def updateIr (d : BoundaryDevice) (bits : List Bool) : BoundaryDevice :=
  drive { d with instruction := some bits, time := d.time + 1, loaded := d.loaded ++ [bits] }

/-- UPDATE-DR. -/
def updateDr (d : BoundaryDevice) (bits : List Bool) : BoundaryDevice :=
  drive { d with latches := if d.Boundary then bits else d.latches, time := d.time + 1 }

@[simp] theorem drive_spec (d : BoundaryDevice) : d.drive.spec = d.spec := rfl

@[simp] theorem drive_instruction (d : BoundaryDevice) : d.drive.instruction = d.instruction := rfl

@[simp] theorem drive_latches (d : BoundaryDevice) : d.drive.latches = d.latches := rfl

@[simp] theorem drive_loaded (d : BoundaryDevice) : d.drive.loaded = d.loaded := rfl

/-- The test logic of such devices. -/
def logic : TestLogic BoundaryDevice where
  irWidth d := d.spec.irWidth
  capture
    | .ir, d => (List.range d.spec.irWidth).map (· = 0)
    | .dr, d => d.captureDr
  update
    | .ir, d, bits => d.updateIr bits
    | .dr, d, bits => d.updateDr bits
  reset d := { d with instruction := none }
  identity d := d.spec.identity
  length_capture_ir d := by simp
  irWidth_update r d bits := by cases r <;> rfl
  irWidth_reset d := rfl
  capture_reset d := by simp [captureDr, Boundary]
  identity_update r d bits := by cases r <;> rfl
  identity_reset d := rfl

/-- A device after power-up. -/
def powered (spec : BoundarySpec) : BoundaryDevice := ⟨spec, none, [], 0, fun _ _ => false, [], []⟩

/-- With all ones loaded, BYPASS is selected. -/
theorem captureDr_bypass {d : BoundaryDevice} (h : d.instruction = some (List.replicate d.spec.irWidth true)) :
    d.captureDr = [false] := by
  have hb : ¬d.Boundary := by
    rintro (h' | h') <;> rw [h, Option.some.injEq] at h'
    · exact d.spec.extest_ne h'.symm
    · exact d.spec.sample_ne h'.symm
  rw [captureDr, if_neg hb, if_neg (by rw [h]; simp)]

end BoundaryDevice

end OwlTap
