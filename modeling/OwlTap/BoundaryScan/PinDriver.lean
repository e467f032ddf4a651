import OwlTap.BoundaryScan.Staging
import OwlTap.Jtag.JtagChain

/-!
# The pin driver

`PinDriver` drives the pins of a device with EXTEST. It stages the boundary register's
content in `bsrData`, starting from what SAMPLE captured, and `applyOutputs` loads EXTEST
and shifts the staging buffer out.
-/

namespace OwlTap.BoundaryScan

open OwlTap Ftdi Bsdl Jtag

/-- What a driver owns. -/
structure DriverData where
  /-- Target device index in chain. -/
  deviceIndex : ℤ
  /-- BSR bit buffer. -/
  bsrData : List Byte := []
  /-- The last error message. -/
  lastError : String := ""

/-- A driver, with the chain that it refers to. -/
structure PinDriver (σ : Type) extends DriverData where
  /-- JTAG chain manager. -/
  chain : JtagChain σ

namespace PinDriver

variable {σ : Type} (T : Target σ)

/-- The model loaded for the device, if there is such a device and such a model. -/
def bsdl (pd : PinDriver σ) : Option BSDLDevice := (pd.chain.deviceAt pd.deviceIndex).bind ChainDevice.bsdl

/-- Check if driver is properly configured. -/
def isReady (pd : PinDriver σ) : Bool := pd.bsdl.isSome

/-- Whether EXTEST-based pin driving is allowed for the loaded device. -/
def extestAllowed (pd : PinDriver σ) : Bool :=
  match pd.bsdl with
  | none => false
  | some dev => (deviceAllowsLiveExtest dev).1

/-- Human-readable reason why EXTEST driving is blocked. -/
def extestBlockedReason (pd : PinDriver σ) : String :=
  match pd.bsdl with
  | none => "Driver not ready"
  | some dev => (deviceAllowsLiveExtest dev).2

/-- A call on the chain. -/
def onChain {α : Type} (m : Method (JtagChain σ) α) : Method (PinDriver σ) α :=
  Method.on PinDriver.chain (fun pd chain => { pd with chain }) m

/-- `last_error_ = msg; return false;` -/
def fail (msg : PinDriver σ → String) : Method (PinDriver σ) Bool := fun pd =>
  some (false, { pd with lastError := msg pd })

/-- Fill the staging buffer with the safe values of the cells. -/
def initBsrFromSafe (pd : PinDriver σ) : PinDriver σ :=
  match pd.bsdl with
  | none => pd
  | some dev => { pd with bsrData := initBsrFromSafeValues dev }

/-- Replace the internal staged BSR snapshot with a raw BSR image. -/
def loadSnapshot (rawBsr : List Byte) (pd : PinDriver σ) : PinDriver σ :=
  match pd.bsdl with
  | none => pd
  | some dev => { pd with bsrData := applyBsrSnapshot dev rawBsr }

/-- Capture the current device boundary state using SAMPLE and use it as the staging baseline
for subsequent EXTEST writes. -/
def captureCurrentState : Method (PinDriver σ) Bool := fun pd =>
  match pd.bsdl with
  | none => fail (fun _ => "Driver not ready") pd
  | some dev =>
    match dev.sampleOpcode with
    | none => fail (fun _ => "SAMPLE instruction not found in BSDL") pd
    | some sampleOpcode =>
      (do
        if ← onChain (JtagChain.selectInstruction T pd.deviceIndex sampleOpcode) then
          -- the result of these cycles is not looked at
          let _ ← onChain (JtagChain.onTap (TapController.clkIdle T 2))
          let (ok, rawBsr) ← onChain (JtagChain.readBSR T pd.deviceIndex [] 0)
          if ok then
            modify (loadSnapshot rawBsr)
            pure true
          else fail (fun pd => pd.chain.lastError)
        else fail (fun pd => pd.chain.lastError) : Method (PinDriver σ) Bool) pd

/-- Construct a driver: prefer the current live boundary state over BSDL safe defaults. -/
def create (chain : JtagChain σ) (deviceIndex : ℤ) : Option (PinDriver σ) :=
  let pd : PinDriver σ := { deviceIndex, chain }
  if pd.isReady then
    (captureCurrentState T pd).map fun (ok, pd) => if ok then pd else pd.initBsrFromSafe
  else some pd

/-- What `setPin`, `setPinHighZ` and `applyOutputs` begin with: the driver must be ready and the
guard must allow EXTEST; an empty staging buffer is filled. -/
def guarded (body : BSDLDevice → Method (PinDriver σ) Bool) : Method (PinDriver σ) Bool := fun pd =>
  match pd.bsdl with
  | none => fail (fun _ => "Driver not ready") pd
  | some dev =>
    if pd.extestAllowed then
      if pd.bsrData.isEmpty then
        (captureCurrentState T pd).bind fun (ok, pd) => body dev (if ok then pd else pd.initBsrFromSafe)
      else body dev pd
    else fail extestBlockedReason pd

/-- Change the staging buffer, or return with an error. -/
def stage (f : List Byte → Except String (List Byte)) : Method (PinDriver σ) Bool := fun pd =>
  match f pd.bsrData with
  | .error e => fail (fun _ => e) pd
  | .ok bsrData => some (true, { pd with bsrData })

/-- Set a pin's output value. -/
def setPin (pinName : Text) (value : ℤ) : Method (PinDriver σ) Bool :=
  guarded T fun dev => stage fun bsrData => stagePinOutput bsrData dev pinName value

/-- Set a pin to high impedance. -/
def setPinHighZ (pinName : Text) : Method (PinDriver σ) Bool :=
  guarded T fun dev => stage fun bsrData => stagePinHighZ bsrData dev pinName

/-- Load the EXTEST instruction, and shift out the BSR data. -/
def driveOutputs (dev : BSDLDevice) : Method (PinDriver σ) Bool := fun pd =>
  match dev.extestOpcode with
  | none => fail (fun _ => "EXTEST instruction not found in BSDL") pd
  | some extestOpcode =>
    (do
      if ← onChain (JtagChain.selectInstruction T pd.deviceIndex extestOpcode) then
        if ← onChain (JtagChain.writeBSR T pd.deviceIndex pd.bsrData dev.boundaryLength) then pure true
        else fail (fun pd => pd.chain.lastError)
      else fail (fun pd => pd.chain.lastError) : Method (PinDriver σ) Bool) pd

/-- Apply all pending pin outputs using EXTEST. -/
def applyOutputs : Method (PinDriver σ) Bool := guarded T (driveOutputs T)

/-- Reset all outputs to safe values. -/
def resetToSafe (pd : PinDriver σ) : PinDriver σ := pd.initBsrFromSafe

/-- Get the current configured value for a pin. -/
def getPinValue (pd : PinDriver σ) (pinName : Text) : ℤ :=
  match pd.bsdl with
  | none => -1
  | some dev => getStagedPinValue pd.bsrData dev pinName

end PinDriver

/-- The operations of a driver that change something. -/
inductive PinOp where
  | captureCurrentState
  | setPin (pinName : Text) (value : ℤ)
  | setPinHighZ (pinName : Text)
  | resetToSafe
  | applyOutputs
  deriving DecidableEq

/-- What an operation does; `resetToSafe` has no result. -/
def PinOp.run {σ : Type} (T : Target σ) : PinOp → Method (PinDriver σ) Bool
  | captureCurrentState => PinDriver.captureCurrentState T
  | setPin pinName value => PinDriver.setPin T pinName value
  | setPinHighZ pinName => PinDriver.setPinHighZ T pinName
  | resetToSafe => fun pd => some (true, pd.resetToSafe)
  | applyOutputs => PinDriver.applyOutputs T

namespace PinDriver

variable {σ : Type} (T : Target σ)

/-- **A refused operation does nothing.** When the guard blocks EXTEST, `setPin`, `setPinHighZ` and
`applyOutputs` fail with its reason, make no scan and leave the staging buffer as it is. -/
theorem guarded_of_blocked {pd : PinDriver σ} {dev : BSDLDevice} (hb : pd.bsdl = some dev)
    (hg : (deviceAllowsLiveExtest dev).1 = false) (body : BSDLDevice → Method (PinDriver σ) Bool) :
    guarded T body pd = some (false, { pd with lastError := liveReason }) := by
  have hallowed : pd.extestAllowed = false := by
    unfold extestAllowed
    rw [hb]
    exact hg
  have hreason : pd.extestBlockedReason = liveReason := by
    unfold extestBlockedReason
    rw [hb]
    simp only
    unfold deviceAllowsLiveExtest at hg ⊢
    split at hg
    · rw [if_pos ‹_›]
    · cases hg
  unfold guarded
  rw [hb]
  simp only [hallowed]
  rw [if_neg (by decide), fail, hreason]

/-- When the guard allows EXTEST and something is staged, the operation goes ahead. -/
theorem guarded_of_allowed {pd : PinDriver σ} {dev : BSDLDevice} (hb : pd.bsdl = some dev)
    (hg : (deviceAllowsLiveExtest dev).1 = true) (hne : pd.bsrData ≠ [])
    (body : BSDLDevice → Method (PinDriver σ) Bool) : guarded T body pd = body dev pd := by
  have hallowed : pd.extestAllowed = true := by
    unfold extestAllowed
    rw [hb]
    exact hg
  unfold guarded
  rw [hb]
  simp only [hallowed, if_true]
  rw [if_neg (by simpa using hne)]

end PinDriver

end OwlTap.BoundaryScan
