import OwlTap.Jtag.ShiftDRRepeat

/-!
# Batched and plain DR scans

The batched path starts with the way from RUN-TEST/IDLE wherever the TAP is, and hands
its null TDI pointer on to the bulk commands. So it agrees with the plain path from the
three states in which that way is the right one, and for null TDI up to 8 bits.
-/

namespace OwlTap.Jtag

open OwlTap Ftdi TapController

variable {σ : Type} {T : Target σ}

/-- The DR scans in a record of the pins, each with the TDI bits shifted: UPDATE-DR ends a scan. -/
def drScans : List Cycle → List (List Bool)
  | [] => [[]]
  | c :: cs =>
    match drScans cs with
    | [] => []
    | s :: ss =>
      if c.state = .updateDr then [] :: s :: ss
      else if c.state = .shiftDr then (c.tdi :: s) :: ss
      else s :: ss

/-- The batched call and as many plain calls with the same bits do the same: both succeed and
return the same bytes, the device sees the same DR scans (the same bits in each, and as many
CAPTURE-DR and UPDATE-DR), and the TAP and the host's state end up the same. -/
def Agrees (T : Target σ) (c : TapController σ) (count drBits : ℕ) (tdi : Ptr) : Prop :=
  ∃ bytes c₁ c₂ new₁ new₂,
    shiftDRRepeat T count drBits tdi c = some ((true, bytes), c₁) ∧
    shiftDRTimes T drBits (some (tdi.getD (List.replicate (bytesFor drBits) 0))) count c =
      some ((true, bytes), c₂) ∧
    c₁.device.link.trace = c.device.link.trace ++ new₁ ∧ c₂.device.link.trace = c.device.link.trace ++ new₂ ∧
    drScans new₁ = drScans new₂ ∧
    (new₁.map Cycle.state).count .captureDr = (new₂.map Cycle.state).count .captureDr ∧
    (new₁.map Cycle.state).count .updateDr = (new₂.map Cycle.state).count .updateDr ∧
    c₁.device.link.port.state = c₂.device.link.port.state ∧ c₁.state = c₂.state

end OwlTap.Jtag
