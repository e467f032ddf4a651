import OwlTap.Ila.IlaDriver
import OwlTap.Ila.IlaTap
import OwlTap.Jtag.BypassedChain

/-!
# The backend of the dedicated access port

`ChainIlaTapBackend` reaches `ila_tap` as a device of its own: it loads the opcode into that
device's instruction register, with the other devices in BYPASS, and puts the bits of a scan
after one bit for each device nearer TDO.
-/

namespace OwlTap.Ila

open OwlTap Ftdi Jtag

/-- The backend, with the chain that it refers to. -/
structure ChainIlaTapBackend (σ : Type) where
  /-- The chain. -/
  chain : JtagChain σ
  /-- The device of the chain that is the logic analyser. -/
  deviceIndex : ℤ
  /-- The last error message. -/
  lastError : String := ""

/-- The bits of the scan, between the other devices' BYPASS bits. -/
def placeDr (deviceIndex : ℤ) (tdi : List Byte) (drBits : ℕ) :
    List ChainDevice → (i : ℤ) → (pos : ℕ) → List Byte → List Byte
  | [], _, _, fullTdi => fullTdi
  | _ :: devs, i, pos, fullTdi =>
    if i = deviceIndex then
      placeDr deviceIndex tdi drBits devs (i + 1) (pos + drBits) (orBits (bitAt tdi) pos drBits fullTdi)
    else placeDr deviceIndex tdi drBits devs (i + 1) (pos + 1) fullTdi

namespace ChainIlaTapBackend

variable {σ : Type} (T : Target σ)

/-- A call on the chain. -/
def onChain {α : Type} (m : Method (JtagChain σ) α) : Method (ChainIlaTapBackend σ) α :=
  Method.on (fun b => b.chain) (fun b chain => { b with chain }) m

/-- Return with an error. -/
def fail {α : Type} (msg : ChainIlaTapBackend σ → String) (result : α) : Method (ChainIlaTapBackend σ) α := fun b =>
  some (result, { b with lastError := msg b })

/-- Load the instruction. -/
def selectIr (opcode : BitVec 32) : Method (ChainIlaTapBackend σ) Bool := fun b =>
  (do
    if ← onChain (JtagChain.selectInstruction T b.deviceIndex opcode) then pure true
    else fail (fun b => "selectInstruction failed: " ++ b.chain.lastError) false : Method (ChainIlaTapBackend σ) Bool) b

/-- Scan some bits; those that come out. A read past a buffer is undefined. -/
def shiftDr (drBits : ℕ) (tdi : List Byte) : Method (ChainIlaTapBackend σ) (Bool × List Byte) := fun b =>
  if b.chain.devices = [] then fail (fun _ => "No devices in chain") (false, []) b
  else
    let totalDr := drBits + b.chain.bypassBits
    let skipBefore := b.deviceIndex.toNat
    if (b.chain.deviceAt b.deviceIndex).isSome ∧ 8 * tdi.length < drBits then none
    else
      let fullTdi := placeDr b.deviceIndex tdi drBits b.chain.devices 0 0 (List.replicate ((totalDr + 7) / 8) 0)
      (do
        let (ok, fullTdo) ← onChain (JtagChain.onTap (TapController.shiftDR T (some fullTdi) [] totalDr))
        if ok then
          if 8 * fullTdo.length < skipBefore + drBits then Method.ofOption none
          else pure (true, orBits (fun i => bitAt fullTdo (skipBefore + i)) 0 drBits
            (List.replicate ((drBits + 7) / 8) 0))
        else fail (fun b => "shiftDR failed: " ++ b.chain.tap.lastError) (false, []) :
          Method (ChainIlaTapBackend σ) (Bool × List Byte)) b

/-- The backend, as the driver sees it; batches are the default ones. -/
def backend : IlaTapBackend (ChainIlaTapBackend σ) where
  selectIr := selectIr T
  shiftDr := shiftDr T
  shiftDrBatch := IlaTapBackend.shiftDrBatchDefault (shiftDr T)
  lastError := ChainIlaTapBackend.lastError

end ChainIlaTapBackend

/-- The bits are put after one bit for each device before the logic analyser. -/
theorem placeDr_eq (k : ℕ) (tdi : List Byte) (drBits : ℕ) (devs : List ChainDevice) (i pos : ℕ) (fullTdi : List Byte) :
    placeDr k tdi drBits devs i pos fullTdi =
      if i ≤ k ∧ k < i + devs.length then orBits (bitAt tdi) (pos + (k - i)) drBits fullTdi else fullTdi := by
  induction devs generalizing i pos fullTdi with
  | nil => rw [placeDr, if_neg (by rw [List.length_nil]; omega)]
  | cons dev devs ih =>
    have hcast : (i : ℤ) + 1 = ((i + 1 : ℕ) : ℤ) := by omega
    rw [placeDr, hcast, ih, ih, List.length_cons]
    by_cases hik : i = k
    · subst hik
      rw [if_pos rfl, if_neg (by omega), if_pos (by omega), Nat.sub_self, Nat.add_zero]
    · rw [if_neg (by omega)]
      by_cases hlt : i ≤ k ∧ k < i + (devs.length + 1)
      · rw [if_pos (by omega), if_pos hlt, show pos + 1 + (k - (i + 1)) = pos + (k - i) by omega]
      · rw [if_neg (by omega), if_neg hlt]

/-! ### On a chain -/

/-- A device on the chain of a dedicated access port: one with a boundary register, or an `ila_tap`. -/
abbrev TapCore : Type := BoundaryDevice ⊕ IlaTap

/-- Their test logic. -/
abbrev tapLogic : TestLogic TapCore := BoundaryDevice.logic.sum IlaTap.logic

/-- The hardware of the chain. -/
abbrev tapTarget : Target (List (Device TapCore)) := Target.chain tapLogic

/-- A device whose instruction register has all ones. -/
def AllOnes : TapCore → Prop :=
  Sum.elim (fun d => d.instruction = some (List.replicate d.spec.irWidth true)) fun d => d.irLatched = 0x1F

theorem boundaryDevice_hasBypass :
    BoundaryDevice.logic.HasBypass fun d => d.instruction = some (List.replicate d.spec.irWidth true) where
  updateIr _ := rfl
  capture _ h := BoundaryDevice.captureDr_bypass h
  updateDr _ _ h := h

theorem IlaTap.hasBypass : IlaTap.logic.HasBypass fun d => d.irLatched = 0x1F where
  updateIr _ := rfl
  capture d h := by
    show d.captureDr = _
    rw [captureDr, selected, h]
    rfl
  updateDr _ _ h := h

theorem tapLogic_hasBypass : tapLogic.HasBypass AllOnes := boundaryDevice_hasBypass.sum IlaTap.hasBypass

end OwlTap.Ila
