import OwlTap.Base.Find
import OwlTap.Jtag.JtagChain

/-!
# FPGA configuration over JTAG

`PlConfig` takes the PL of a 7-series device or Zynq through JPROGRAM, CFG_IN with the bitstream,
and JSTART, and then polls the STAT register. What the steps answered is recorded beside
(`PlConfig.Record`).
-/

namespace OwlTap.Config

open OwlTap Ftdi Bsdl Jtag

/-! ### Constants -/

/-- PL TAP instruction opcodes. -/
def PlIr.cfgOut : BitVec 32 := 0x04
@[inherit_doc PlIr.cfgOut]
def PlIr.cfgIn : BitVec 32 := 0x05
@[inherit_doc PlIr.cfgOut]
def PlIr.jprogram : BitVec 32 := 0x0B
@[inherit_doc PlIr.cfgOut]
def PlIr.jstart : BitVec 32 := 0x0C
@[inherit_doc PlIr.cfgOut]
def PlIr.bypass : BitVec 32 := 0x3F

/-- Configuration packets: the sync word. -/
def PlCfgPkt.syncWord : BitVec 32 := 0xAA995566
/-- Type 1 NOP. -/
def PlCfgPkt.noop : BitVec 32 := 0x20000000
/-- Read the STAT register. -/
def PlCfgPkt.readStat : BitVec 32 := 0x2800E001

/-- A word as hexadecimal digits. -/
def hexWord (w : BitVec 32) : String :=
  hexByte (w.extractLsb' 24 8) ++ hexByte (w.extractLsb' 16 8) ++ hexByte (w.extractLsb' 8 8) ++ hexByte (w.extractLsb' 0 8)

/-- Decoded STAT register fields. -/
structure Status where
  /-- STAT[14]: DONE pin. -/
  done : Bool := false
  /-- STAT[13]: internal DONE released. -/
  releaseDone : Bool := false
  /-- STAT[12]: INIT_B pin. -/
  initB : Bool := false
  /-- STAT[11]: initialization complete. -/
  initComplete : Bool := false
  /-- STAT[4]: End of Startup. -/
  eos : Bool := false
  /-- STAT[0]: CRC error. -/
  crcError : Bool := false
  /-- Raw STAT value. -/
  raw : BitVec 32 := 0
  deriving DecidableEq, Repr

/-- What the steps of a configuration answered. -/
structure Record where
  /-- The instruction and data scans of the sequence up to the start-up. -/
  shifts : List Bool := []
  /-- Its clock bursts. -/
  bursts : List Bool := []
  /-- The STAT reads after it: the word, unless the read failed. -/
  reads : List (Option (BitVec 32)) := []
  deriving DecidableEq, Repr

/-- The configuration engine. -/
structure PlConfig (σ : Type) where
  /-- The chain. -/
  chain : JtagChain σ
  /-- Index of the PL TAP. -/
  deviceIndex : ℤ
  /-- The last error message. -/
  lastError : String := ""
  /-- What the steps of the last configuration answered. -/
  record : Record := {}

/-! ### The bitstream -/

/-- Reverse the bit order within a byte. -/
def bitReverseByte (b : Byte) : Byte :=
  let b := (b &&& 0xF0) >>> 4 ||| (b &&& 0x0F) <<< 4
  let b := (b &&& 0xCC) >>> 2 ||| (b &&& 0x33) <<< 2
  (b &&& 0xAA) >>> 1 ||| (b &&& 0x55) <<< 1

/-- Decode raw STAT register value. -/
def decodeStatus (raw : BitVec 32) : Status where
  raw := raw
  done := raw.getLsbD 14
  releaseDone := raw.getLsbD 13
  initB := raw.getLsbD 12
  initComplete := raw.getLsbD 11
  eos := raw.getLsbD 4
  crcError := raw.getLsbD 0

/-- The sync word in a bitstream. -/
def sync : List Byte := [0xAA, 0x99, 0x55, 0x66]

/-- Load a bitstream file, with the given contents: every byte from the sync word on, or from the beginning if there
is none, is bit-reversed. -/
def loadBitstream (contents : Option (List Byte)) : Option (List Byte) :=
  match contents with
  | none => none
  | some raw =>
    if raw = [] then none
    else
      let start := (indexOf sync raw).getD 0
      some ((raw.drop start).map bitReverseByte)

/-- The packet that asks for the STAT register. -/
def buildStatReadPacket : List Byte :=
  let words : List (BitVec 32) :=
    [PlCfgPkt.noop, PlCfgPkt.syncWord, PlCfgPkt.noop, PlCfgPkt.noop, PlCfgPkt.readStat, PlCfgPkt.noop, PlCfgPkt.noop,
      PlCfgPkt.noop, PlCfgPkt.noop]
  words.flatMap fun w =>
    [bitReverseByte (w.extractLsb' 24 8), bitReverseByte (w.extractLsb' 16 8), bitReverseByte (w.extractLsb' 8 8),
      bitReverseByte (w.extractLsb' 0 8)]

/-- `buf.resize(n, 0)`. -/
def resize (buf : List Byte) (n : ℕ) : List Byte := buf.take n ++ List.replicate (n - buf.length) 0

/-- `static_cast<int>` of a `size_t`. -/
def toInt (n : ℕ) : ℤ := (BitVec.ofNat 32 n).toInt

namespace PlConfig

variable {σ : Type} (T : Target σ)

/-- A call on the chain. -/
def onChain {α : Type} (m : Method (JtagChain σ) α) : Method (PlConfig σ) α :=
  Method.on PlConfig.chain (fun p chain => { p with chain }) m

/-- Return with an error. -/
def fail {α : Type} (msg : PlConfig σ → String) (result : α) : Method (PlConfig σ) α := fun p =>
  some (result, { p with lastError := msg p })

/-- Load a PL instruction while putting other devices in BYPASS. -/
def loadInstruction (opcode : BitVec 32) : Method (PlConfig σ) Bool := fun p =>
  (do
    if ← onChain (JtagChain.selectInstruction T p.deviceIndex opcode) then pure true
    else fail (fun p => p.chain.lastError) false : Method (PlConfig σ) Bool) p

/-- `chain_.tap().clkIdle(cycles)`, whatever it answers. -/
def clkIdle (cycles : ℕ) : Method (PlConfig σ) Unit := do
  let _ ← onChain (JtagChain.onTap (TapController.clkIdle T cycles))
  pure ()

/-- How many other devices there are. -/
def bypassCount (p : PlConfig σ) : ℕ :=
  ((List.range p.chain.devices.length).filter fun i : ℕ => decide ((i : ℤ) ≠ p.deviceIndex)).length

/-- The STAT bits among those read. -/
def statRaw (rawTdo : List Byte) : BitVec 32 :=
  (List.range 32).foldl (fun stat b =>
    if b < 8 * rawTdo.length ∧ bitAt rawTdo b then stat ||| 1#32 <<< b else stat) 0

/-- Read and decode the PL STAT register via JTAG. -/
def readStatus : Method (PlConfig σ) (Option Status) := do
  if ← loadInstruction T PlIr.cfgIn then
    clkIdle T 16
    let bypassCount ← fun p => some (p.bypassCount, p)
    let totalPktBits := 8 * buildStatReadPacket.length + bypassCount
    let pkt := resize buildStatReadPacket ((totalPktBits + 7) / 8)
    if ← onChain (JtagChain.onTap (TapController.shiftDROut T (some pkt) totalPktBits)) then
      clkIdle T 16
      if ← loadInstruction T PlIr.cfgOut then
        clkIdle T 16
        let index ← fun p => some (p.deviceIndex, p)
        let (ok, rawTdo) ← onChain (JtagChain.readDataDR T index 32 [])
        if ok then pure (some (decodeStatus (statRaw rawTdo)))
        else fail (fun p => p.chain.lastError) none
      else pure none
    else fail (fun p => p.chain.tap.lastError) none
  else pure none

/-! ### The sequence -/

/-- A scan of the sequence. -/
def scanStep (m : Method (PlConfig σ) Bool) : Method (PlConfig σ) Bool := do
  let ok ← m
  modify fun p => { p with record := { p.record with shifts := p.record.shifts ++ [ok] } }
  pure ok

/-- A clock burst of the sequence: `chain_.tap().clkIdle(cycles)`, whatever it answers. -/
def burst (cycles : ℕ) : Method (PlConfig σ) Unit := do
  let ok ← onChain (JtagChain.onTap (TapController.clkIdle T cycles))
  modify fun p => { p with record := { p.record with bursts := p.record.bursts ++ [ok] } }

/-- Clock RUN-TEST/IDLE while the PL clears; the name is not what it does. -/
def waitInitB (timeoutCycles : ℕ) : Method (PlConfig σ) Bool := do
  burst T timeoutCycles
  pure true

/-- Steps 2 to 4: clear the configuration memory, and select CFG_IN. -/
def selectCfgIn : Method (PlConfig σ) Bool := do
  if ← scanStep (loadInstruction T PlIr.jprogram) then
    burst T 16
    if ← waitInitB T 600000 then
      if ← scanStep (loadInstruction T PlIr.cfgIn) then
        burst T 2
        pure true
      else pure false
    else pure false
  else pure false

/-- Step 4: shift the bitstream, with one more bit for each other device. The counts are `int`; nothing is done
(`none`) when they overflow or the buffer's size is negative. -/
def shiftBitstream (body : List Byte) : Method (PlConfig σ) Bool := fun p =>
  let totalDrBits := toInt (8 * body.length) + p.bypassCount
  let tdiBytes := (totalDrBits + 7).tdiv 8
  if 2 ^ 31 ≤ totalDrBits + 7 ∨ tdiBytes < 0 then none
  else
    (do
      if ← onChain (JtagChain.onTap (TapController.shiftDROut T (some (resize body tdiBytes.toNat)) totalDrBits.toNat)) then
        pure true
      else fail (fun p => "Bitstream DR shift failed: " ++ p.chain.tap.lastError) false : Method (PlConfig σ) Bool) p

/-- Step 5: clock the startup sequence. -/
def startUp : Method (PlConfig σ) Bool := do
  if ← scanStep (loadInstruction T PlIr.jstart) then
    burst T 16384
    if ← scanStep (loadInstruction T PlIr.bypass) then
      burst T 16
      pure true
    else pure false
  else pure false

/-- A bit as a digit. -/
def digit (b : Bool) : String := if b then "1" else "0"

/-- Step 6: poll until DONE or a CRC error is seen, at most this many times. The last status read and whether any was
not zero, or `none` when DONE was seen. -/
def poll : (attempts : ℕ) → (status : Status) → (anyNonzero : Bool) → Method (PlConfig σ) (Option (Status × Bool))
  | 0, status, anyNonzero => pure (some (status, anyNonzero))
  | attempts + 1, status, anyNonzero => do
    let s ← readStatus T
    modify fun p => { p with record := { p.record with reads := p.record.reads ++ [s.map Status.raw] } }
    match s with
    | some s =>
      let anyNonzero := anyNonzero || s.raw != 0
      if s.done then
        fail (fun _ => "OK (STAT=0x" ++ hexWord s.raw ++ " DONE=1 INIT_B=" ++ digit s.initB ++ " EOS=" ++ digit s.eos ++ ")") none
      else if s.crcError then pure (some (s, anyNonzero))
      else
        clkIdle T 6000
        poll attempts s anyNonzero
    | none =>
      clkIdle T 6000
      poll attempts status anyNonzero

/-- Step 6: verify DONE. -/
def verify : Method (PlConfig σ) Bool := do
  match ← poll T 10 {} false with
  | none => pure true
  | some (status, anyNonzero) =>
    if status.crcError then
      fail (fun _ => "Configuration failed: CRC error (STAT=0x" ++ hexWord status.raw ++ ")") false
    else if !anyNonzero then fail (fun _ => "OK (config port locked post-DONE; STAT readback returns 0)") true
    else if status.raw = 0 then fail (fun _ => "OK (DONE asserted between polls; config port now locked)") true
    else
      fail (fun _ => "Configuration failed: DONE not asserted (STAT=0x" ++ hexWord status.raw ++ " INIT_B=" ++
        digit status.initB ++ " INIT_COMPLETE=" ++ digit status.initComplete ++ " EOS=" ++ digit status.eos ++
        " CRC_ERR=" ++ digit status.crcError ++ ")") false

/-- Program the PL from a file with the given contents. -/
def program (bitstreamPath : String) (contents : Option (List Byte)) : Method (PlConfig σ) Bool := do
  modify fun p => { p with record := {} }
  match loadBitstream contents with
  | none => fail (fun _ => "Failed to load bitstream: " ++ bitstreamPath) false
  | some body =>
    if body = [] then fail (fun _ => "Empty bitstream") false
    else if ← selectCfgIn T then
      if ← scanStep (shiftBitstream T body) then
        if ← startUp T then verify T
        else pure false
      else pure false
    else pure false

end PlConfig

end OwlTap.Config
