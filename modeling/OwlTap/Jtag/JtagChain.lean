import OwlTap.Bsdl.Parser
import OwlTap.Jtag.TapController

/-!
# The JTAG chain on the host

`JtagChain` keeps the list of the devices on the chain, device 0 nearest TDO, and builds
the scans that reach one of them while the others are in BYPASS.
-/

namespace OwlTap.Jtag

open OwlTap Ftdi Bsdl

/-- A single device in a JTAG chain. -/
structure ChainDevice where
  /-- Position in the chain, 0 closest to TDO. -/
  position : ℕ
  /-- Device IDCODE, 0 for BYPASS. -/
  idcode : BitVec 32
  /-- Instruction register length. -/
  irLength : ℕ
  /-- Path of the BSDL file. -/
  bsdlFile : Text := []
  /-- Parsed BSDL data. -/
  bsdl : Option BSDLDevice := none

/-- A JTAG chain with one or more devices. -/
structure JtagChain (σ : Type) where
  /-- The controller. -/
  tap : TapController σ
  /-- The devices. -/
  devices : List ChainDevice
  /-- The last error message. -/
  lastError : String

/-- How many bits `detectDevices` reads: 8 devices with an IDCODE. -/
def maxBits : ℕ := 8 * 32

/-- The IDCODE at a position of the bits read; past the last of them it has zeros. -/
def idcodeAt (tdo : List Byte) (bitPos : ℕ) : BitVec 32 :=
  (List.range 32).foldl (fun idcode i =>
    if bitPos + i < maxBits ∧ bitAt tdo (bitPos + i) then idcode ||| 1#32 <<< i else idcode) 0

/-- The instruction register length, from the manufacturer: 4 for ARM, or else 6. -/
def irLengthOf (idcode : BitVec 32) : ℕ := if idcode >>> 1 &&& 0x7FF = 0x23B then 4 else 6

/-- Whether the next 32 bits, as far as they were read, are all 0. -/
def allZero (tdo : List Byte) (bitPos : ℕ) : Bool :=
  (List.range 32).all fun i => !(decide (bitPos + i < maxBits) && bitAt tdo (bitPos + i))

/-- Parse IDCODEs from the bit stream; each pass takes a bit at least. -/
def decodeDevices (tdo : List Byte) : (fuel bitPos devicePos : ℕ) → List ChainDevice
  | 0, _, _ => []
  | fuel + 1, bitPos, devicePos =>
    if maxBits ≤ bitPos ∨ tdo.length ≤ bitPos / 8 then []
    else if bitAt tdo bitPos = false then
      -- a BYPASS device, or the end of the chain
      if allZero tdo bitPos then []
      else ⟨devicePos, 0, 1, [], none⟩ :: decodeDevices tdo fuel (bitPos + 1) (devicePos + 1)
    else
      let idcode := idcodeAt tdo bitPos
      if idcode = 0xFFFFFFFF then []
      else ⟨devicePos, idcode, irLengthOf idcode, [], none⟩ :: decodeDevices tdo fuel (bitPos + 32) (devicePos + 1)

/-- A byte as two hexadecimal digits. -/
def hexByte (b : Byte) : String :=
  String.ofList ([b.toNat / 16, b.toNat % 16].map fun n => (Nat.digitChar n).toUpper)

/-- The first TDO bytes, for the record. -/
def rawTdo (tdo : List Byte) : String := (tdo.take 8).foldl (fun s b => s ++ hexByte b ++ " ") "Raw TDO: "

/-- The opcode of BYPASS: all ones. -/
def bypassOpcode (irLength : ℕ) : BitVec 32 := BitVec.ofNat 32 (2 ^ irLength - 1)

/-- The opcode that the device at position `i` gets. -/
def opcodeFor (deviceIndex : ℤ) (instruction : BitVec 32) (i : ℤ) (dev : ChainDevice) : BitVec 32 :=
  if i = deviceIndex then instruction else bypassOpcode dev.irLength

/-- Build the bits of the instruction registers, device by device. -/
def fillIR (deviceIndex : ℤ) (instruction : BitVec 32) : List ChainDevice → (i : ℤ) → (bitPos : ℕ) →
    List Byte → List Byte
  | [], _, _, irData => irData
  | dev :: devs, i, bitPos, irData =>
    fillIR deviceIndex instruction devs (i + 1) (bitPos + dev.irLength)
      (orBits (opcodeFor deviceIndex instruction i dev).getLsbD bitPos dev.irLength irData)

namespace JtagChain

variable {σ : Type} (T : Target σ)

/-- A call on the controller. -/
def onTap {α : Type} (m : Method (TapController σ) α) : Method (JtagChain σ) α :=
  Method.on JtagChain.tap (fun ch tap => { ch with tap }) m

/-- Return with an error. -/
def fail {α : Type} (msg : JtagChain σ → String) (result : α) : Method (JtagChain σ) α := fun ch =>
  some (result, { ch with lastError := msg ch })

/-- Auto-detect devices in the chain by reading IDCODEs; how many there are. -/
def detectDevices : Method (JtagChain σ) ℕ := do
  modify fun ch => { ch with devices := [] }
  if ← onTap (TapController.reset T) then
    if ← onTap (TapController.clkIdle T 10) then
      let (ok, tdo) ← onTap (TapController.readDR T [] maxBits)
      if ok then
        modify fun ch => { ch with lastError := rawTdo tdo }
        let devices := decodeDevices tdo (maxBits + 1) 0 0
        modify fun ch => { ch with devices, lastError := if devices = [] then ch.lastError else "" }
        pure devices.length
      else fail (fun ch => "DR read failed: " ++ ch.tap.lastError) 0
    else fail (fun ch => "RTI idle failed: " ++ ch.tap.lastError) 0
  else fail (fun ch => "TAP reset failed: " ++ ch.tap.lastError) 0

/-- The device at an index, if there is one. -/
def deviceAt (ch : JtagChain σ) (deviceIndex : ℤ) : Option ChainDevice :=
  if 0 ≤ deviceIndex then ch.devices[deviceIndex.toNat]? else none

/-- Load a BSDL file, with the given contents, for a specific device in the chain. -/
def loadBsdl (deviceIndex : ℤ) (bsdlPath : Text) (contents : Option Text) : Method (JtagChain σ) Bool := fun ch =>
  match ch.deviceAt deviceIndex with
  | none => fail (fun _ => "Invalid device index") false ch
  | some dev =>
    (BSDLParser.parseFile bsdlPath contents).bind fun
      | .error e => fail (fun _ => "Failed to parse BSDL: " ++ e) false ch
      | .ok bsdl =>
        let dev := { dev with irLength := bsdl.instructionLength, bsdlFile := bsdlPath, bsdl := some bsdl }
        some (true, { ch with devices := ch.devices.set deviceIndex.toNat dev })

/-- Total length of the instruction registers. -/
def totalIRLength (devices : List ChainDevice) : ℕ := (devices.map ChainDevice.irLength).sum

/-- Shift an instruction into a specific device's instruction register; the others get BYPASS. -/
def selectInstruction (deviceIndex : ℤ) (instruction : BitVec 32) : Method (JtagChain σ) Bool := fun ch =>
  match ch.deviceAt deviceIndex with
  | none => fail (fun _ => "Invalid device index") false ch
  | some _ =>
    -- a shift of the opcode by more than 31 bits
    if ch.devices.any fun dev => 32 < dev.irLength then none
    else
      let totalIr := totalIRLength ch.devices
      let irData := fillIR deviceIndex instruction ch.devices 0 0 (List.replicate ((totalIr + 7) / 8) 0)
      onTap (TapController.shiftIR T (some irData) totalIr) ch

/-- The bits of the other devices: one each. -/
def bypassBits (ch : JtagChain σ) : ℕ := ch.devices.length - 1

/-- Read the boundary scan register of a specific device into `bsrData`: all of it, or its low
`partialBits` bits. The other devices are in BYPASS; the lower ones' bits come out first. -/
def readBSR (deviceIndex : ℤ) (bsrData : List Byte) (partialBits : ℕ) :
    Method (JtagChain σ) (Bool × List Byte) := fun ch =>
  match ch.deviceAt deviceIndex with
  | none => fail (fun _ => "Invalid device index") (false, bsrData) ch
  | some dev =>
    match dev.bsdl with
    | none => fail (fun _ => "BSDL not loaded for device") (false, bsrData) ch
    | some bsdl =>
      let readLen := if 0 < partialBits ∧ partialBits < bsdl.boundaryLength then partialBits else bsdl.boundaryLength
      (do
        let (ok, fullDr) ← onTap (TapController.readDR T [] (readLen + ch.bypassBits))
        if ok then
          let bsrData := bsrData.take ((readLen + 7) / 8) ++ List.replicate ((readLen + 7) / 8 - bsrData.length) 0
          pure (true, orBits (fun b => bitAt fullDr (deviceIndex.toNat + b)) 0 readLen bsrData)
        else fail (fun ch => ch.tap.lastError) (false, bsrData) : Method (JtagChain σ) (Bool × List Byte)) ch

/-- Write the boundary scan register of a specific device; the others get a 0 each. -/
def writeBSR (deviceIndex : ℤ) (bsrData : List Byte) (bsrBits : ℕ) : Method (JtagChain σ) Bool := fun ch =>
  match ch.deviceAt deviceIndex with
  | none => fail (fun _ => "Invalid device index") false ch
  | some _ =>
    if 8 * bsrData.length < bsrBits then none
    else
      let totalDr := bsrBits + ch.bypassBits
      let fullDr := orBits (bitAt bsrData) deviceIndex.toNat bsrBits (List.replicate ((totalDr + 7) / 8) 0)
      onTap (TapController.shiftDROut T (some fullDr) totalDr) ch

/-- Read a raw data register from a specific device. -/
def readDataDR (deviceIndex : ℤ) (drBits : ℕ) (tdoData : List Byte) :
    Method (JtagChain σ) (Bool × List Byte) := fun ch =>
  match ch.deviceAt deviceIndex with
  | none => fail (fun _ => "Invalid device index") (false, tdoData) ch
  | some _ =>
    if drBits = 0 then fail (fun _ => "dr_bits must be positive") (false, tdoData) ch
    else
      let totalDr := drBits + ch.bypassBits
      (do
        let (ok, fullTdo) ← onTap (TapController.shiftDR T (some (List.replicate ((totalDr + 7) / 8) 0)) [] totalDr)
        if ok then
          pure (true, orBits (fun b => bitAt fullTdo (deviceIndex.toNat + b)) 0 drBits
            (List.replicate ((drBits + 7) / 8) 0))
        else fail (fun ch => ch.tap.lastError) (false, tdoData) : Method (JtagChain σ) (Bool × List Byte)) ch

end JtagChain

end OwlTap.Jtag
