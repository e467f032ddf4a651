import Mathlib.Data.List.GetD
import OwlTap.Base.Tap

/-!
# The access port of the logic analyser

`ila_bscane2_top` is reached through the BSCANE2 primitive of the FPGA: while the USERn
instruction is in force, the data register of the FPGA's TAP is a frame of an opcode and a
data word. CAPTURE loads the frame with the opcode of the scan before and the register that
this opcode selects; UPDATE takes the new opcode and writes the register that it selects.

The TCK domain is modelled cycle by cycle (`AccessPort.clock`). What CAPTURE and UPDATE do
are functions of the registers, `IlaRegs.captureFrame` and `IlaRegs.latch`.
-/

namespace OwlTap.Ila

/-- The lowest `w` bits of a string of bits, least significant bit first. -/
def ofBits (w : ℕ) (bits : List Bool) : BitVec w := (BitVec.ofBoolListLE bits).setWidth w

/-- A word as a string of bits, least significant bit first. -/
def toBits {w : ℕ} (x : BitVec w) : List Bool := (List.range w).map x.getLsbD

@[simp] theorem length_toBits {w : ℕ} (x : BitVec w) : (toBits x).length = w := by simp [toBits]

@[simp] theorem getLsbD_ofBits (w : ℕ) (bits : List Bool) (i : ℕ) :
    (ofBits w bits).getLsbD i = (decide (i < w) && bits.getD i false) := by
  simp [ofBits, BitVec.getLsbD_setWidth]

@[simp] theorem ofBits_toBits {w : ℕ} (x : BitVec w) : ofBits w (toBits x) = x := by
  apply BitVec.eq_of_getLsbD_eq
  intro i hi
  rw [getLsbD_ofBits, List.getD_eq_getElem _ _ (by simpa using hi)]
  simp [toBits, hi]

theorem getD_toBits {w : ℕ} (x : BitVec w) (i : ℕ) : (toBits x).getD i false = x.getLsbD i := by
  by_cases hi : i < w
  · rw [List.getD_eq_getElem _ _ (by simpa using hi)]
    simp [toBits]
  · rw [List.getD_eq_default _ _ (by simpa using hi), BitVec.getLsbD_of_ge x i (by omega)]

theorem toBits_ofBits {w : ℕ} {xs : List Bool} (h : xs.length = w) : toBits (ofBits w xs) = xs := by
  apply List.ext_getElem (by rw [length_toBits, h])
  intro i h₁ h₂
  have hi : i < w := by rwa [length_toBits] at h₁
  rw [← List.getD_eq_getElem _ false h₁, getD_toBits, getLsbD_ofBits, List.getD_eq_getElem _ _ h₂]
  simp [hi]

/-- The low bits of a word, one by one. -/
theorem ofBits_range {m : ℕ} (n : ℕ) (x : BitVec m) : ofBits n ((List.range n).map x.getLsbD) = x.setWidth n := by
  apply BitVec.eq_of_getLsbD_eq
  intro i hi
  rw [getLsbD_ofBits, List.getD_eq_getElem _ _ (by simpa using hi), BitVec.getLsbD_setWidth]
  simp

/-! ### BSCANE2 -/

/-- The registers of `BSCANE2`, as its simulation model has them. -/
structure Bscane2 where
  /-- The state of the TAP. -/
  state : TapState
  /-- The instruction in force. -/
  irReg : BitVec 6
  /-- The instruction register. -/
  irShift : List Bool
  deriving DecidableEq

namespace Bscane2

/-- The USERn opcode of a scan chain. -/
def userOpcode : ℕ → BitVec 6
  | 1 => 0x02
  | 2 => 0x03
  | 3 => 0x22
  | 4 => 0x23
  | _ => 0x02

/-- After power-up. -/
def reset : Bscane2 := ⟨.testLogicReset, 0x3F, toBits (0x3F : BitVec 6)⟩

/-- One TCK cycle. -/
def clock (c : Pins) (b : Bscane2) : Bscane2 where
  state := b.state.next c.tms
  irReg := if b.state = .updateIr then ofBits 6 b.irShift else b.irReg
  irShift :=
    if b.state = .captureIr then toBits (0x01 : BitVec 6)
    else if b.state = .shiftIr then b.irShift.tail ++ [c.tdi]
    else b.irShift

/-- The USERn instruction is in force. -/
def active (userChain : ℕ) (b : Bscane2) : Bool := b.irReg == userOpcode userChain

/-- The output CAPTURE. -/
def capture (userChain : ℕ) (b : Bscane2) : Bool := b.active userChain && b.state == .captureDr

/-- The output SHIFT. -/
def shift (userChain : ℕ) (b : Bscane2) : Bool := b.active userChain && b.state == .shiftDr

/-- The output UPDATE. -/
def update (userChain : ℕ) (b : Bscane2) : Bool := b.active userChain && b.state == .updateDr

end Bscane2

/-! ### Registers -/

/-- The bits of the CTRL register, each a pulse. -/
inductive CtrlBit where
  | arm | stop | reset | force
  deriving DecidableEq, Repr

namespace CtrlBit

instance : Fintype CtrlBit where
  elems := {arm, stop, reset, force}
  complete k := by cases k <;> decide

/-- The place of the bit in the data word. -/
def index : CtrlBit → ℕ
  | arm => 0
  | stop => 1
  | reset => 2
  | force => 3

end CtrlBit

/-- The parameters of an instance, but for the widths. -/
structure IlaParams where
  /-- The scan chain of the BSCANE2 primitive. -/
  jtagChain : ℕ := 1
  /-- The number of channels. -/
  numCh : ℕ := 1
  /-- The identity. -/
  idcodeVal : BitVec 32 := 0xA17A0001
  /-- The number of signal definitions. -/
  sigCount : ℕ := 1
  /-- The highest bit of each signal. -/
  sigHi : ℕ → BitVec 8 := fun i => if i = 0 then 31 else 0
  /-- The lowest bit. -/
  sigLo : ℕ → BitVec 8 := fun _ => 0
  /-- The format. -/
  sigFmt : ℕ → BitVec 4 := fun _ => 0

/-! The opcodes of the registers. -/

namespace Opcode

def idcode : BitVec 5 := 0x01
def config : BitVec 5 := 0x02
def sigDef : BitVec 5 := 0x03
def ctrl : BitVec 5 := 0x08
def status : BitVec 5 := 0x09
def trigMask : BitVec 5 := 0x0A
def trigVal : BitVec 5 := 0x0B
def readAddr : BitVec 5 := 0x0C
def readData : BitVec 5 := 0x0D
def preSamples : BitVec 5 := 0x0E
def trigRise : BitVec 5 := 0x0F
def trigFall : BitVec 5 := 0x10
def trigMask2 : BitVec 5 := 0x11
def trigVal2 : BitVec 5 := 0x12
def trigCtrl : BitVec 5 := 0x13

end Opcode

/-- The registers that a scan can write. -/
structure IlaRegs (dataW addrW : ℕ) where
  /-- The opcode of the last scan. -/
  storedIr : BitVec 5
  /-- The signal definition to be read next. -/
  sigDefIdx : BitVec 4
  /-- Group A: the bits compared. -/
  trigMask : BitVec dataW
  /-- Group A: their values. -/
  trigValue : BitVec dataW
  /-- Group A: the bits that may rise. -/
  trigRiseMask : BitVec dataW
  /-- Group A: the bits that may fall. -/
  trigFallMask : BitVec dataW
  /-- Group B: the bits compared. -/
  trigMask2 : BitVec dataW
  /-- Group B: their values. -/
  trigVal2 : BitVec dataW
  /-- One of the groups is enough. -/
  trigOrMode : Bool
  /-- The samples before the trigger. -/
  preSamples : BitVec addrW
  /-- The address to be read. -/
  rdAddr : BitVec addrW
  deriving DecidableEq

/-- The status of the capture. -/
structure IlaStatus where
  /-- Waiting for the trigger. -/
  armed : Bool
  /-- The trigger has come. -/
  triggered : Bool
  /-- The capture is complete. -/
  full : Bool
  deriving DecidableEq, Repr

/-- What the sample clock domain shows: the words of the memory, and the status. -/
structure SampleSide (dataW addrW : ℕ) where
  /-- The memory. -/
  mem : BitVec addrW → BitVec dataW
  /-- The status. -/
  status : IlaStatus

variable {dataW addrW : ℕ} (P : IlaParams)

/-- CONFIG: version 3, and what the host has to know. -/
def configVal (dataW addrW : ℕ) : BitVec 32 :=
  0x03#8 ++ BitVec.ofNat 4 P.numCh ++ BitVec.ofNat 4 P.sigCount ++ BitVec.ofNat 6 (dataW - 1) ++ 0#2 ++
    BitVec.ofNat 8 addrW

/-- A signal definition. -/
def sigDefVal (idx : BitVec 4) : BitVec 32 :=
  P.sigFmt idx.toNat ++ 0#4 ++ P.sigHi idx.toNat ++ P.sigLo idx.toNat ++ 0xFF#8

/-- STATUS. -/
def IlaStatus.val (s : IlaStatus) : BitVec dataW := ofBits dataW [s.armed, s.triggered, s.full]

/-- The opcode in a frame. -/
def frameOpcode (frame : List Bool) : BitVec 5 := ofBits 5 frame

/-- The data word in a frame. -/
def frameData (dataW : ℕ) (frame : List Bool) : BitVec dataW := ofBits dataW (frame.drop 5)

/-- The pulses that a frame asks for. -/
def ctrlOf (frame : List Bool) (k : CtrlBit) : Bool :=
  frameOpcode frame == Opcode.ctrl && (frame.drop 5).getD k.index false

namespace IlaRegs

/-- The registers after TEST-LOGIC-RESET. -/
def reset : IlaRegs dataW addrW :=
  ⟨Opcode.idcode, 0, 0, 0, 0, 0, 0, 0, false, BitVec.ofNat addrW (2 ^ addrW / 4), 0⟩

/-- The register that the opcode of the last scan selects. -/
def captureData (rdData : BitVec dataW) (status : IlaStatus) (r : IlaRegs dataW addrW) : BitVec dataW :=
  if r.storedIr = Opcode.idcode then P.idcodeVal.setWidth dataW
  else if r.storedIr = Opcode.config then (configVal P dataW addrW).setWidth dataW
  else if r.storedIr = Opcode.sigDef then (sigDefVal P r.sigDefIdx).setWidth dataW
  else if r.storedIr = Opcode.status then status.val
  else if r.storedIr = Opcode.trigMask then r.trigMask
  else if r.storedIr = Opcode.trigVal then r.trigValue
  else if r.storedIr = Opcode.readAddr then r.rdAddr.setWidth dataW
  else if r.storedIr = Opcode.readData then rdData
  else if r.storedIr = Opcode.preSamples then r.preSamples.setWidth dataW
  else if r.storedIr = Opcode.trigRise then r.trigRiseMask
  else if r.storedIr = Opcode.trigFall then r.trigFallMask
  else if r.storedIr = Opcode.trigMask2 then r.trigMask2
  else if r.storedIr = Opcode.trigVal2 then r.trigVal2
  else if r.storedIr = Opcode.trigCtrl then ofBits dataW [r.trigOrMode]
  else 0

/-- CAPTURE: the opcode of the last scan, and the register that it selects. -/
def captureFrame (rdData : BitVec dataW) (status : IlaStatus) (r : IlaRegs dataW addrW) : List Bool :=
  toBits r.storedIr ++ toBits (r.captureData P rdData status)

/-- The next signal definition: a new opcode starts with the first, and the same one goes round. -/
def nextSigDef (opcode : BitVec 5) (r : IlaRegs dataW addrW) : BitVec 4 :=
  if opcode ≠ r.storedIr then 0
  else if opcode = Opcode.sigDef then
    if r.sigDefIdx < BitVec.ofNat 4 (P.sigCount - 1) then r.sigDefIdx + 1 else 0
  else r.sigDefIdx

/-- The write of a data word to the register that an opcode selects. -/
def write (opcode : BitVec 5) (data : BitVec dataW) (r : IlaRegs dataW addrW) : IlaRegs dataW addrW :=
  if opcode = Opcode.trigMask then { r with trigMask := data }
  else if opcode = Opcode.trigVal then { r with trigValue := data }
  else if opcode = Opcode.readAddr then { r with rdAddr := data.setWidth addrW }
  else if opcode = Opcode.readData then { r with rdAddr := r.rdAddr + 1 }
  else if opcode = Opcode.preSamples then { r with preSamples := data.setWidth addrW }
  else if opcode = Opcode.trigRise then { r with trigRiseMask := data }
  else if opcode = Opcode.trigFall then { r with trigFallMask := data }
  else if opcode = Opcode.trigMask2 then { r with trigMask2 := data }
  else if opcode = Opcode.trigVal2 then { r with trigVal2 := data }
  else if opcode = Opcode.trigCtrl then { r with trigOrMode := data.getLsbD 0 }
  else r

/-- UPDATE: the new opcode, and the write to the register that it selects. -/
def latch (frame : List Bool) (r : IlaRegs dataW addrW) : IlaRegs dataW addrW :=
  write (frameOpcode frame) (frameData dataW frame)
    { r with sigDefIdx := r.nextSigDef P (frameOpcode frame), storedIr := frameOpcode frame }

end IlaRegs

/-! ### The TCK domain -/

/-- The TCK domain of `ila_bscane2_top`, but for the pulse synchronisers. -/
structure AccessPort (dataW addrW : ℕ) where
  /-- BSCANE2. -/
  bscan : Bscane2
  /-- The registers. -/
  regs : IlaRegs dataW addrW
  /-- The frame. -/
  drShift : List Bool
  /-- The control pulses. -/
  ctrl : CtrlBit → Bool
  /-- The word read from the memory. -/
  rdData : BitVec dataW
  /-- The status, after the first stage of its synchroniser. -/
  statusM : IlaStatus
  /-- The status. -/
  sts : IlaStatus

namespace AccessPort

/-- After power-up. -/
def reset : AccessPort dataW addrW :=
  ⟨.reset, .reset, List.replicate (dataW + 5) false, fun _ => false, 0, ⟨false, false, false⟩, ⟨false, false, false⟩⟩

/-- TEST-LOGIC-RESET clears the registers at once, and as long as it lasts. -/
def clear (a : AccessPort dataW addrW) : AccessPort dataW addrW :=
  { a with regs := .reset, ctrl := fun _ => false, statusM := ⟨false, false, false⟩, sts := ⟨false, false, false⟩ }

/-- One TCK cycle without a reset. -/
def clockNoReset (side : SampleSide dataW addrW) (c : Pins) (a : AccessPort dataW addrW) : AccessPort dataW addrW where
  bscan := a.bscan.clock c
  regs := if a.bscan.update P.jtagChain then a.regs.latch P a.drShift else a.regs
  drShift :=
    if a.bscan.capture P.jtagChain then a.regs.captureFrame P a.rdData a.sts
    else if a.bscan.shift P.jtagChain then a.drShift.tail ++ [c.tdi]
    else a.drShift
  ctrl := fun k => a.bscan.update P.jtagChain && ctrlOf a.drShift k
  rdData := side.mem a.regs.rdAddr
  statusM := side.status
  sts := a.statusM

/-- One TCK cycle. -/
def clock (side : SampleSide dataW addrW) (c : Pins) (a : AccessPort dataW addrW) : AccessPort dataW addrW :=
  if a.bscan.state = .testLogicReset ∨ a.bscan.state.next c.tms = .testLogicReset then (a.clockNoReset P side c).clear
  else a.clockNoReset P side c

/-- What the FPGA's TAP drives on TDO. -/
def tdo (a : AccessPort dataW addrW) : Bool :=
  if a.bscan.shift P.jtagChain then a.drShift.headD false else true

end AccessPort

end OwlTap.Ila
