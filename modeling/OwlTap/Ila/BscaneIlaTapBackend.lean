import OwlTap.Ila.IlaDriver
import OwlTap.Jtag.JtagChain
import OwlTap.Jtag.ShiftDRRepeat

/-!
# The BSCANE2 backend

`BscaneIlaTapBackend` reaches the core through a USERn scan chain of the FPGA's TAP: every
access is the scan of a frame of 37 bits, in which the opcode comes before the data. A
register is captured one scan after its opcode; so a priming scan with zeros goes before
the scan of an opcode that the hardware is not known to hold.
-/

namespace OwlTap.Ila

open OwlTap Ftdi Jtag

/-- The opcodes of USER1 to USER4. -/
def kUserOpcodes : ℕ → BitVec 32
  | 1 => 0x02
  | 2 => 0x03
  | 3 => 0x22
  | 4 => 0x23
  | _ => 0x00

/-- Total frame width: 5-bit opcode and 32-bit data. -/
def kFrameBits : ℕ := 37

/-- The backend, with the chain that it refers to. -/
structure BscaneIlaTapBackend (σ : Type) where
  /-- The chain. -/
  chain : JtagChain σ
  /-- The device of the chain that is the FPGA. -/
  plTapIndex : ℤ
  /-- The scan chain, 1 to 4. -/
  userChain : ℕ
  /-- The opcode to embed in the next frame. -/
  pendingIr : BitVec 32 := 0x01
  /-- The opcode that the hardware holds after the last UPDATE; 0xFF is none. -/
  storedIrInHw : BitVec 32 := 0xFF
  /-- The last error message. -/
  lastError : String := ""

/-- The frame that goes between the other devices' BYPASS bits. -/
def placeFrame (plTapIndex : ℤ) (frame : List Byte) : List ChainDevice → (i : ℤ) → (bitPos : ℕ) → List Byte → List Byte
  | [], _, _, fullTdi => fullTdi
  | _ :: devs, i, bitPos, fullTdi =>
    if i = plTapIndex then
      placeFrame plTapIndex frame devs (i + 1) (bitPos + kFrameBits) (orBits (bitAt frame) bitPos kFrameBits fullTdi)
    else placeFrame plTapIndex frame devs (i + 1) (bitPos + 1) fullTdi

namespace BscaneIlaTapBackend

variable {σ : Type} (T : Target σ)

/-- The constructor: an impossible scan chain is taken as the first. -/
def create (chain : JtagChain σ) (plTapIndex userChain : ℤ) : BscaneIlaTapBackend σ :=
  { chain, plTapIndex, userChain := if userChain < 1 ∨ userChain > 4 then 1 else userChain.toNat }

/-- A call on the controller of the chain. -/
def onTap {α : Type} (m : Method (TapController σ) α) : Method (BscaneIlaTapBackend σ) α :=
  Method.on (fun b => b.chain) (fun b chain => { b with chain }) (JtagChain.onTap m)

/-- Return with an error. -/
def fail {α : Type} (msg : BscaneIlaTapBackend σ → String) (result : α) : Method (BscaneIlaTapBackend σ) α := fun b =>
  some (result, { b with lastError := msg b })

/-- Issue the USERn instruction to the FPGA. -/
def selectUser : Method (BscaneIlaTapBackend σ) Bool := fun b =>
  Method.on (fun b => b.chain) (fun b chain => { b with chain })
    (JtagChain.selectInstruction T b.plTapIndex (kUserOpcodes b.userChain)) b

/-- Cache the opcode, and put USERn in force. -/
def selectIr (opcode : BitVec 32) : Method (BscaneIlaTapBackend σ) Bool := do
  modify fun b => { b with pendingIr := opcode &&& 0x1F }
  if ← selectUser T then pure true
  else fail (fun b => "USER" ++ toString b.userChain ++ " selectInstruction failed: " ++ b.chain.lastError) false

/-- How many bits the chain has, with the FPGA's frame in it. -/
def totalDr (b : BscaneIlaTapBackend σ) : ℕ := kFrameBits + b.chain.devices.length - 1

/-- Where the data of the frame begins: after the bits of the devices before the FPGA, and the opcode. -/
def dataStart (b : BscaneIlaTapBackend σ) : ℕ := b.plTapIndex.toNat + 5

/-- The frame: the opcode, and then the data. -/
def frameTdi (pendingIr : BitVec 32) (data32 : List Byte) : List Byte :=
  orBits (bitAt data32) 5 32 ((pendingIr &&& 0x1F).setWidth 8 :: List.replicate ((kFrameBits + 7) / 8 - 1) 0)

/-- Perform one frame scan with the pending opcode and four bytes of data; the four bytes captured. -/
def doRawFrameShift (data32 : List Byte) : Method (BscaneIlaTapBackend σ) (Bool × List Byte) := fun b =>
  let fullTdi := placeFrame b.plTapIndex (frameTdi b.pendingIr data32) b.chain.devices 0 0
    (List.replicate ((b.totalDr + 7) / 8) 0)
  (do
    let (ok, fullTdo) ← onTap (TapController.shiftDR T (some fullTdi) [] b.totalDr)
    if ok then
      if 8 * fullTdo.length < b.dataStart + 32 then Method.ofOption none
      else pure (true, orBits (fun i => bitAt fullTdo (b.dataStart + i)) 0 32 (List.replicate 5 0))
    else fail (fun b => "shiftDR failed: " ++ b.chain.tap.lastError) (false, []) :
      Method (BscaneIlaTapBackend σ) (Bool × List Byte)) b

/-- A priming scan, if the hardware is not known to hold the pending opcode. -/
def prime : Method (BscaneIlaTapBackend σ) Bool := fun b =>
  if b.storedIrInHw ≠ b.pendingIr then
    (do
      let (ok, _) ← doRawFrameShift T [0, 0, 0, 0]
      if ok then
        modify fun b => { b with storedIrInHw := b.pendingIr }
        pure true
      else pure false : Method (BscaneIlaTapBackend σ) Bool) b
  else some (true, b)

/-- Scan the register of the pending opcode. -/
def shiftDr (drBits : ℕ) (tdi : List Byte) : Method (BscaneIlaTapBackend σ) (Bool × List Byte) := do
  if ← prime T then
    let dataBits := min drBits 32
    if 8 * tdi.length < dataBits then Method.ofOption none
    else
      let (ok, rawTdo) ← doRawFrameShift T (orBits (bitAt tdi) 0 dataBits [0, 0, 0, 0])
      if ok then
        modify fun b => { b with storedIrInHw := b.pendingIr }
        pure (true, orBits (bitAt rawTdo) 0 dataBits (List.replicate ((drBits + 7) / 8) 0))
      else pure (false, [])
  else pure (false, [])

/-- The data of the scans of a batch, each in bytes of its own. -/
def unpackScans (rawFlat : List Byte) (rawBytes outBytes dataStart dataBits count : ℕ) : List Byte :=
  ((List.range count).map fun i =>
    orBits (fun j => bitAt (rawFlat.drop (i * rawBytes)) (dataStart + j)) 0 dataBits
      (List.replicate outBytes 0)).flatten

/-- Scan so many times, in batches; a read or write past a buffer is undefined. -/
def shiftDrBatch (count : ℤ) (drBits : ℕ) (tdi : List Byte) : Method (BscaneIlaTapBackend σ) (Bool × List Byte) := fun b =>
  if count ≤ 0 then some ((true, []), b)
  else
    let dataBits := min drBits 32
    let skip := b.plTapIndex.toNat
    let rawBytes := (b.totalDr + 7) / 8
    if 8 * tdi.length < dataBits ∨ 8 * rawBytes < b.dataStart + dataBits then none
    else
      let fullTdi := orBits (bitAt tdi) (skip + 5) dataBits
        (orBits b.pendingIr.getLsbD skip 5 (List.replicate rawBytes 0))
      (do
        if ← prime T then
          let (ok, rawFlat) ← onTap (TapController.shiftDRRepeat T count.toNat b.totalDr (some fullTdi))
          if ok then
            modify fun b => { b with storedIrInHw := b.pendingIr }
            if rawFlat.length < count.toNat * rawBytes then Method.ofOption none
            else pure (true, unpackScans rawFlat rawBytes ((drBits + 7) / 8) b.dataStart dataBits count.toNat)
          else fail (fun b => b.chain.tap.lastError) (false, [])
        else pure (false, []) : Method (BscaneIlaTapBackend σ) (Bool × List Byte)) b

/-- The backend, as the driver sees it. -/
def backend : IlaTapBackend (BscaneIlaTapBackend σ) where
  selectIr := selectIr T
  shiftDr := shiftDr T
  shiftDrBatch := shiftDrBatch T
  lastError := BscaneIlaTapBackend.lastError

end BscaneIlaTapBackend

end OwlTap.Ila
