import OwlTap.Base.Bits
import OwlTap.Bsdl.Model

/-!
# Staging buffers, and the EXTEST guard

A staging buffer holds the boundary register's next content, bit `i` for cell `i`. The
functions here set pins in it, and say whether a device may be driven at all.
-/

namespace OwlTap.BoundaryScan

open OwlTap Bsdl

/-- The reason why a device's pins are not driven. -/
def liveReason : String :=
  "EXTEST drive is blocked for this device: its boundary register includes live PS/DDR/MIO pins, so entering EXTEST can freeze or reset the running Zynq processing system."

/-- A pin of a live PS, DDR or MIO subsystem. -/
def isLivePin (name : Text) : Bool :=
  "PS_DDR_".toList.isPrefixOf name || "PS_MIO".toList.isPrefixOf name ||
    name = "PS_SRST_B".toList || name = "PS_POR_B".toList

/-- False for devices whose boundary register covers a live PS, DDR or MIO subsystem; and the
reason, or no text. -/
def deviceAllowsLiveExtest (device : BSDLDevice) : Bool × String :=
  if device.pins.keys.any isLivePin then (false, liveReason) else (true, "")

/-- A device is refused if and only if it has a live pin. -/
theorem deviceAllowsLiveExtest_eq_false {device : BSDLDevice} :
    (deviceAllowsLiveExtest device).1 = false ↔ ∃ n ∈ device.pins, isLivePin n = true := by
  rw [deviceAllowsLiveExtest]
  by_cases h : device.pins.keys.any isLivePin = true
  · rw [if_pos h]
    exact ⟨fun _ => List.any_eq_true.mp h, fun _ => rfl⟩
  · rw [if_neg h]
    exact ⟨nofun, fun hn => absurd (List.any_eq_true.mpr hn) h⟩

/-! ### Bits of a buffer -/

/-- Set a bit; the buffer grows to hold it. -/
def setBit (buf : List Byte) (position : ℤ) (value : Bool) : List Byte :=
  if position < 0 then buf
  else
    let byteIdx := position.toNat / 8
    let bitIdx := position.toNat % 8
    let buf := buf ++ List.replicate (byteIdx + 1 - buf.length) 0
    buf.modify byteIdx fun b => if value then b ||| 1#8 <<< bitIdx else b &&& ~~~(1#8 <<< bitIdx)

/-- Get a bit; outside the buffer it is 0. -/
def getBit (buf : List Byte) (position : ℤ) : Bool :=
  if position < 0 then false else bitAt buf position.toNat

/-! ### Pins in a buffer -/

/-- Stage a pin's output value: the output cell's bit, and the control cell's so that it enables. -/
def stagePinOutput (bsrData : List Byte) (device : BSDLDevice) (pinName : Text) (value : ℤ) :
    Except String (List Byte) :=
  match device.getOutputCellForPin pinName with
  | none => .error ("Pin '" ++ String.ofList pinName ++ "' is not drivable (no output cell)")
  | some outputCell =>
    let bsrData := setBit bsrData outputCell.position (value ≠ 0)
    match device.getControlCellFor outputCell with
    | none => .ok bsrData
    | some controlCell => .ok (setBit bsrData controlCell.position (outputCell.disableValue = 0))

/-- Stage a pin's high impedance: the control cell's bit so that it disables. -/
def stagePinHighZ (bsrData : List Byte) (device : BSDLDevice) (pinName : Text) : Except String (List Byte) :=
  match device.getOutputCellForPin pinName with
  | none => .error ("Pin '" ++ String.ofList pinName ++ "' is not drivable")
  | some outputCell =>
    if outputCell.function ≠ .output3 ∧ outputCell.function ≠ .bidir then
      .error ("Pin '" ++ String.ofList pinName ++ "' does not support tri-state")
    else
      match device.getControlCellFor outputCell with
      | none => .error ("Pin '" ++ String.ofList pinName ++ "' has no control cell for high-Z")
      | some controlCell => .ok (setBit bsrData controlCell.position (outputCell.disableValue ≠ 0))

/-- A pin's staged value: 0, 1, or -1 for high impedance or no such pin. -/
def getStagedPinValue (bsrData : List Byte) (device : BSDLDevice) (pinName : Text) : ℤ :=
  match device.getOutputCellForPin pinName with
  | none => -1
  | some cell =>
    let disabled :=
      match device.getControlCellFor cell with
      | none => false
      | some control => ((if getBit bsrData control.position then 1 else 0 : ℤ) = cell.disableValue : Bool)
    if disabled then -1 else if getBit bsrData cell.position then 1 else 0

/-- A raw image of the boundary register, sized and masked to its length. -/
def applyBsrSnapshot (device : BSDLDevice) (rawBsr : List Byte) : List Byte :=
  let requiredBytes := (device.boundaryLength + 7) / 8
  let bsrData := rawBsr.take requiredBytes ++ List.replicate (requiredBytes - rawBsr.length) 0
  let extraBits := requiredBytes * 8 - device.boundaryLength
  if 0 < extraBits then bsrData.modify (requiredBytes - 1) (· &&& 0xFF#8 >>> extraBits) else bsrData

/-- The safe values of the cells: the bit of a cell is set when its safe value is 1. -/
def initBsrFromSafeValues (device : BSDLDevice) : List Byte :=
  device.boundaryCells.foldl (fun buf cell => setBit buf cell.position (cell.safeValue = 1))
    (List.replicate ((device.boundaryLength + 7) / 8) 0)

/-! ### Buffers are long enough -/

theorem length_le_setBit (buf : List Byte) (position : ℤ) (value : Bool) :
    buf.length ≤ (setBit buf position value).length := by
  unfold setBit
  split
  · exact le_refl _
  · simp

theorem length_le_stagePinOutput {buf buf' : List Byte} {dev : BSDLDevice} {pinName : Text} {value : ℤ}
    (h : stagePinOutput buf dev pinName value = .ok buf') : buf.length ≤ buf'.length := by
  unfold stagePinOutput at h
  split at h
  · cases h
  · simp only at h
    split at h <;> cases h
    · exact length_le_setBit _ _ _
    · exact Nat.le_trans (length_le_setBit _ _ _) (length_le_setBit _ _ _)

theorem length_le_stagePinHighZ {buf buf' : List Byte} {dev : BSDLDevice} {pinName : Text}
    (h : stagePinHighZ buf dev pinName = .ok buf') : buf.length ≤ buf'.length := by
  unfold stagePinHighZ at h
  split at h
  · cases h
  · split at h
    · cases h
    · split at h <;> cases h
      exact length_le_setBit _ _ _

theorem bytesFor_le_safeValues (dev : BSDLDevice) : bytesFor dev.boundaryLength ≤ (initBsrFromSafeValues dev).length := by
  have hfold : ∀ (cells : List BoundaryCell) (buf : List Byte), buf.length ≤
      (cells.foldl (fun buf cell => setBit buf cell.position (cell.safeValue = 1)) buf).length := by
    intro cells
    induction cells with
    | nil => exact fun buf => le_refl _
    | cons cell cells ih => exact fun buf => Nat.le_trans (length_le_setBit _ _ _) (ih _)
  refine le_trans ?_ (hfold _ _)
  rw [List.length_replicate]
  exact le_refl _

theorem bytesFor_le_snapshot (dev : BSDLDevice) (rawBsr : List Byte) :
    bytesFor dev.boundaryLength ≤ (applyBsrSnapshot dev rawBsr).length := by
  have hlen : (rawBsr.take ((dev.boundaryLength + 7) / 8) ++
      List.replicate ((dev.boundaryLength + 7) / 8 - rawBsr.length) (0 : Byte)).length = bytesFor dev.boundaryLength := by
    rw [List.length_append, List.length_take, List.length_replicate]
    unfold bytesFor
    omega
  unfold applyBsrSnapshot
  simp only
  split
  · rw [List.length_modify, hlen]
  · rw [hlen]

end OwlTap.BoundaryScan
