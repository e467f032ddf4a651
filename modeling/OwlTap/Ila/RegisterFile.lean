import OwlTap.Base.Ring
import OwlTap.Ila.IlaDriver

/-!
# The register file behind the driver

The driver is written against a register for each instruction: what a scan captures is the
register of the instruction that is selected, and READ_DATA goes on to the next address
with every sample read. `RegisterFile` is that machine, and a backend. `IlaOp.effect` says
what the operations of the driver do to it, in terms of what the driver and its caller can
tell (`IlaView`).
-/

namespace OwlTap.Ila

open OwlTap

variable {addrW : ℕ}

/-- One register for each instruction. -/
structure RegisterFile (addrW : ℕ) where
  /-- The parameters of the core. -/
  params : IlaParams
  /-- The registers; the opcode kept is that of the instruction selected. -/
  regs : IlaRegs 32 addrW
  /-- What the sample clock domain shows. -/
  side : SampleSide 32 addrW
  /-- The control pulses asked for, in order. -/
  pulses : List CtrlBit

/-- The control pulses that the write of a word to CTRL asks for. -/
def ctrlPulses (opcode : BitVec 5) (data : BitVec 32) : List CtrlBit :=
  if opcode = Opcode.ctrl then [.arm, .stop, .reset, .force].filter fun k => data.getLsbD k.index else []

namespace RegisterFile

/-- Select an instruction; the signal definitions start with the first. -/
def select (opcode : BitVec 5) (f : RegisterFile addrW) : RegisterFile addrW :=
  { f with regs := { f.regs with storedIr := opcode, sigDefIdx := 0 } }

/-- What a scan captures. -/
def read (f : RegisterFile addrW) : BitVec 32 :=
  f.regs.captureData f.params (f.side.mem f.regs.rdAddr) f.side.status

/-- The next signal definition: a scan of SIG_DEF goes round. -/
def nextSigDef (f : RegisterFile addrW) : BitVec 4 :=
  if f.regs.storedIr = Opcode.sigDef then
    if f.regs.sigDefIdx < BitVec.ofNat 4 (f.params.sigCount - 1) then f.regs.sigDefIdx + 1 else 0
  else f.regs.sigDefIdx

/-- What a scan updates. -/
def update (data : BitVec 32) (f : RegisterFile addrW) : RegisterFile addrW :=
  { f with
    regs := { f.regs.write f.regs.storedIr data with sigDefIdx := f.nextSigDef }
    pulses := f.pulses ++ ctrlPulses f.regs.storedIr data }

/-- A scan of some bits. -/
def shiftDr (drBits : ℕ) (tdi : List Byte) : Method (RegisterFile addrW) (Bool × List Byte) := fun f =>
  if 8 * tdi.length < drBits then none
  else some ((true, packBits ((List.range drBits).map f.read.getLsbD)), f.update (ofBits 32 (bits tdi drBits)))

/-- The register file as a backend of the driver. -/
def backend : IlaTapBackend (RegisterFile addrW) where
  selectIr opcode f := some (true, f.select (opcode.setWidth 5))
  shiftDr := shiftDr
  shiftDrBatch := IlaTapBackend.shiftDrBatchDefault shiftDr
  lastError _ := ""

end RegisterFile

/-! ### What the driver and its caller can tell -/

/-- The registers without the opcode of the last scan and the signal definition to be read next. -/
def IlaRegs.settings (r : IlaRegs 32 addrW) : IlaRegs 32 addrW := { r with storedIr := 0, sigDefIdx := 0 }

/-- What the driver believes, and what it has done to the core. -/
structure IlaView (addrW : ℕ) where
  /-- What is believed about the core. -/
  caps : IlaCaps
  /-- The last error message. -/
  lastError : String
  /-- The registers. -/
  regs : IlaRegs 32 addrW
  /-- The control pulses. -/
  pulses : List CtrlBit

/-- What `probe` learns about a core. -/
def capsOf (P : IlaParams) (addrW : ℕ) : IlaCaps :=
  { IlaCaps.ofConfig (configVal P 32 addrW) with idcode := P.idcodeVal }

/-- Why `configureTrigger` refuses, if it does. -/
def TriggerSetup.refusal (t : TriggerSetup) (caps : IlaCaps) : Option String :=
  if caps.depth ≤ t.preSamples.toNat then some "pre_samples must be < DEPTH"
  else if caps.version < 2 ∧ (t.riseMask ≠ 0 ∨ t.fallMask ≠ 0) then some "edge trigger requires ILA IP version >= 2"
  else if caps.version < 3 ∧ (t.mask2 ≠ 0 ∨ t.val2 ≠ 0 ∨ t.orMode) then
    some "OR-mode trigger requires ILA IP version >= 3"
  else none

/-- The registers that a setup is written to; the version says which there are. -/
def TriggerSetup.apply (t : TriggerSetup) (version : ℕ) (r : IlaRegs 32 addrW) : IlaRegs 32 addrW :=
  { r with
    trigMask := t.mask
    trigValue := t.value
    preSamples := t.preSamples.setWidth addrW
    trigRiseMask := if 2 ≤ version then t.riseMask else r.trigRiseMask
    trigFallMask := if 2 ≤ version then t.fallMask else r.trigFallMask
    trigMask2 := if 3 ≤ version then t.mask2 else r.trigMask2
    trigVal2 := if 3 ≤ version then t.val2 else r.trigVal2
    trigOrMode := if 3 ≤ version then t.orMode else r.trigOrMode }

namespace IlaOp

/-- The operation reads samples: any number but none. -/
def ReadsSamples : IlaOp → Prop
  | .readSamples count => count ≠ some 0
  | _ => False

instance (op : IlaOp) : Decidable op.ReadsSamples := by
  cases op <;> unfold ReadsSamples <;> infer_instance

/-- What an operation returns, and what it does, when nothing fails. -/
def effect (P : IlaParams) (side : SampleSide 32 addrW) (op : IlaOp) (v : IlaView addrW) : IlaReply × IlaView addrW :=
  match op with
  | .probe => (.caps true (capsOf P addrW), { v with caps := capsOf P addrW })
  | .readIdcode => (.idcode (some P.idcodeVal), v)
  | .readSignalDefs =>
    if v.caps.sigCount = 0 then
      (.signalDefs false [], { v with lastError := "sig_count is 0; no SIG_DEF entries available" })
    else
      (.signalDefs true ((List.range v.caps.sigCount).map fun i => .ofWord (sigDefVal P (BitVec.ofNat 4 i))), v)
  | .configureTrigger t =>
    match t.refusal v.caps with
    | some e => (.done false, { v with lastError := e })
    | none => (.done true, { v with regs := t.apply v.caps.version v.regs })
  | .arm => (.done true, { v with pulses := v.pulses ++ [.arm] })
  | .stop => (.done true, { v with pulses := v.pulses ++ [.stop] })
  | .resetCapture => (.done true, { v with pulses := v.pulses ++ [.reset] })
  | .forceTrigger => (.done true, { v with pulses := v.pulses ++ [.force] })
  | .readStatus => (.status true side.status, v)
  | .setReadAddr addr =>
    if v.caps.depth ≤ addr.toNat then (.done false, { v with lastError := "addr >= DEPTH" })
    else (.done true, { v with regs := { v.regs with rdAddr := addr.setWidth addrW } })
  | .readSamples count =>
    let n := (count.getD (BitVec.ofNat 32 v.caps.depth)).toNat
    (.samples true (Ring.read side.mem v.regs.rdAddr n),
      { v with regs := { v.regs with rdAddr := v.regs.rdAddr + BitVec.ofNat addrW n } })

end IlaOp

end OwlTap.Ila
