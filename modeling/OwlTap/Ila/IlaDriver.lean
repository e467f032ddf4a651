import OwlTap.Base.Bits
import OwlTap.Base.Method
import OwlTap.Ila.Bscane2Top

/-!
# The driver of the logic analyser

`IlaDriver` reads and writes the registers of the core, one instruction each, through an
`IlaTapBackend`. It believes the defaults about the core until `probe` has read CONFIG.
-/

namespace OwlTap.Ila

open OwlTap

/-- `IlaTapBackend`: how the driver reaches the core. -/
structure IlaTapBackend (β : Type) where
  /-- Load a 5-bit instruction opcode. -/
  selectIr : BitVec 32 → Method β Bool
  /-- Shift some bits of `tdi` through the data register; the bits that come out. -/
  shiftDr : ℕ → List Byte → Method β (Bool × List Byte)
  /-- Scan so many times with the same `tdi`; the bits that come out, scan by scan. -/
  shiftDrBatch : ℤ → ℕ → List Byte → Method β (Bool × List Byte)
  /-- The last error message. -/
  lastError : β → String

/-- A value that there may not be. -/
def Method.ofOption {s α : Type} (o : Option α) : Method s α := fun x => o.map fun a => (a, x)

namespace IlaTapBackend

/-- The loop of the default `shiftDrBatch`; `memcpy` takes a whole scan's bytes. -/
def shiftDrLoop {β : Type} (shiftDr : Method β (Bool × List Byte)) (bytesPer : ℕ) :
    ℕ → List Byte → Method β (Bool × List Byte)
  | 0, flatTdo => pure (true, flatTdo)
  | count + 1, flatTdo => do
    let (ok, tdo) ← shiftDr
    if ok then
      if tdo.length < bytesPer then Method.ofOption none
      else shiftDrLoop shiftDr bytesPer count (flatTdo ++ tdo.take bytesPer)
    else pure (false, flatTdo)

/-- Default: calls `shiftDr` in a loop. A negative count is a vector longer than there is room for. -/
def shiftDrBatchDefault {β : Type} (shiftDr : ℕ → List Byte → Method β (Bool × List Byte)) (count : ℤ) (drBits : ℕ)
    (tdi : List Byte) : Method β (Bool × List Byte) :=
  if count < 0 then Method.ofOption none
  else shiftDrLoop (shiftDr drBits tdi) ((drBits + 7) / 8) count.toNat []

end IlaTapBackend

/-- Capability information, with the defaults that hold until `probe` runs. -/
structure IlaCaps where
  /-- IP version. -/
  version : ℕ := 0
  /-- Number of channels. -/
  numCh : ℕ := 1
  /-- Number of signal definitions. -/
  sigCount : ℕ := 0
  /-- Width of a sample. -/
  dataW : ℕ := 32
  /-- Width of an address. -/
  addrW : ℕ := 10
  /-- Number of samples. -/
  depth : ℕ := 1024
  /-- The CONFIG word. -/
  raw : BitVec 32 := 0
  /-- The identity. -/
  idcode : BitVec 32 := 0
  /-- CONFIG has been read. -/
  probed : Bool := false
  deriving DecidableEq, Repr

/-- `kDepth`. -/
def kDepth : ℕ := 1024

/-- Some bits of a word: `(raw >> lo) & (2 ^ w - 1)`. -/
def field (raw : BitVec 32) (lo w : ℕ) : ℕ := raw.toNat / 2 ^ lo % 2 ^ w

/-- The fields of the CONFIG word. -/
def IlaCaps.ofConfig (raw : BitVec 32) : IlaCaps where
  version := field raw 24 8
  numCh := field raw 20 4
  sigCount := field raw 16 4
  dataW := field raw 10 6 + 1
  addrW := field raw 0 8
  depth := if field raw 0 8 = 0 ∨ 20 < field raw 0 8 then kDepth else 2 ^ field raw 0 8
  raw := raw
  probed := decide (field raw 24 8 ≠ 0)

/-- A signal lane. -/
structure IlaSignalEntry where
  /-- The highest bit. -/
  hi : ℕ
  /-- The lowest bit. -/
  lo : ℕ
  /-- The format. -/
  fmt : ℕ
  /-- The index of its name. -/
  nameIdx : ℕ
  deriving DecidableEq, Repr

/-- The fields of a SIG_DEF word. -/
def IlaSignalEntry.ofWord (word : BitVec 32) : IlaSignalEntry :=
  ⟨field word 16 8, field word 8 8, field word 28 4, field word 0 8⟩

/-- The bits of the STATUS word. -/
def IlaStatus.ofWord (v : BitVec 32) : IlaStatus := ⟨v.getLsbD 0, v.getLsbD 1, v.getLsbD 2⟩

/-- `%08X`. -/
def hexWord (x : BitVec 32) : String :=
  String.ofList ((List.range 8).reverse.map fun i => (Nat.digitChar (x.toNat / 16 ^ i % 16)).toUpper)

/-- The arguments of `configureTrigger`. -/
structure TriggerSetup where
  /-- Group A: the bits compared. -/
  mask : BitVec 32
  /-- Their values. -/
  value : BitVec 32
  /-- The bits that may rise. -/
  riseMask : BitVec 32 := 0
  /-- The bits that may fall. -/
  fallMask : BitVec 32 := 0
  /-- Group B: the bits compared. -/
  mask2 : BitVec 32 := 0
  /-- Their values. -/
  val2 : BitVec 32 := 0
  /-- One of the groups is enough. -/
  orMode : Bool := false
  /-- The samples before the trigger. -/
  preSamples : BitVec 16
  deriving DecidableEq, Repr

/-- Host-side driver. -/
structure IlaDriver (β : Type) where
  /-- The backend. -/
  backend : β
  /-- What is believed about the core. -/
  caps : IlaCaps := {}
  /-- The last error message. -/
  lastError : String := ""

namespace IlaDriver

/-! The opcodes of the instructions. -/

def kIrIdcode : BitVec 32 := 0x01
def kIrConfig : BitVec 32 := 0x02
def kIrSigDef : BitVec 32 := 0x03
def kIrCtrl : BitVec 32 := 0x08
def kIrStatus : BitVec 32 := 0x09
def kIrTrigMask : BitVec 32 := 0x0A
def kIrTrigVal : BitVec 32 := 0x0B
def kIrReadAddr : BitVec 32 := 0x0C
def kIrReadData : BitVec 32 := 0x0D
def kIrPreSamples : BitVec 32 := 0x0E
def kIrTrigRise : BitVec 32 := 0x0F
def kIrTrigFall : BitVec 32 := 0x10
def kIrTrigMask2 : BitVec 32 := 0x11
def kIrTrigVal2 : BitVec 32 := 0x12
def kIrTrigCtrl : BitVec 32 := 0x13

/-! The bits of CTRL. -/

def kCtrlArm : BitVec 32 := 0x1
def kCtrlStop : BitVec 32 := 0x2
def kCtrlReset : BitVec 32 := 0x4
def kCtrlForce : BitVec 32 := 0x8

/-- The low bits of a value in a buffer; a shift by 64 bits or more is undefined. -/
def packBits (val : BitVec 32) (bits : ℕ) : Option (List Byte) :=
  if 64 < bits then none else some (orBits val.getLsbD 0 bits (List.replicate ((bits + 7) / 8) 0))

/-- The low bits of a buffer as a value; a shift by 32 bits or more is undefined. -/
def unpackBits (buf : List Byte) (bits : ℕ) : Option (BitVec 32) :=
  (List.range bits).foldlM (fun v i => (buf[i / 8]?).bind fun b =>
    if b.getLsbD (i % 8) then if 32 ≤ i then none else some (v ||| 1#32 <<< i) else some v) 0

variable {β : Type} (B : IlaTapBackend β)

/-- A call on the backend. -/
def onBackend {α : Type} (m : Method β α) : Method (IlaDriver β) α :=
  Method.on backend (fun d backend => { d with backend }) m

/-- Return with the backend's error. -/
def backendError {α : Type} (result : α) : Method (IlaDriver β) α := fun d =>
  some (result, { d with lastError := B.lastError d.backend })

/-- Return with an error. -/
def fail {α : Type} (msg : String) (result : α) : Method (IlaDriver β) α := fun d =>
  some (result, { d with lastError := msg })

/-- `if (!backend_.selectIr(opcode)) { last_error_ = backend_.lastError(); return false; }`. -/
def selectIr (opcode : BitVec 32) : Method (IlaDriver β) Bool := do
  if ← onBackend (B.selectIr opcode) then pure true else backendError B false

/-- Shift a value through the data register; the value that comes out, if that succeeds. -/
def shiftDrInt (drBits : ℕ) (tdiVal : BitVec 32) : Method (IlaDriver β) (Option (BitVec 32)) := do
  let tdiBuf ← Method.ofOption (packBits tdiVal drBits)
  let (ok, tdoBuf) ← onBackend (B.shiftDr drBits tdiBuf)
  if ok then
    let tdoVal ← Method.ofOption (unpackBits tdoBuf drBits)
    pure (some tdoVal)
  else backendError B none

/-- Select a register and shift a value through it. -/
def access (opcode : BitVec 32) (drBits : ℕ) (tdiVal : BitVec 32) : Method (IlaDriver β) (Option (BitVec 32)) := do
  if ← selectIr B opcode then shiftDrInt B drBits tdiVal else pure none

/-- The same, when what comes out is not used. -/
def write (opcode : BitVec 32) (drBits : ℕ) (tdiVal : BitVec 32) : Method (IlaDriver β) Bool := do
  pure (← access B opcode drBits tdiVal).isSome

/-- Read the identity. -/
def readIdcode : Method (IlaDriver β) (Option (BitVec 32)) := access B kIrIdcode 32 0

/-- Read the CONFIG register and cache capabilities; `out` is set once CONFIG has been read. -/
def probe (out : IlaCaps) : Method (IlaDriver β) (Bool × IlaCaps) := do
  -- warm-up scan; result may be unreliable
  let _ ← readIdcode B
  match ← access B kIrConfig 32 0 with
  | none => pure (false, out)
  | some raw =>
    let c := IlaCaps.ofConfig raw
    if c.probed then
      let idcode ← readIdcode B
      let c := { c with idcode := idcode.getD 0 }
      modify fun d => { d with caps := c }
      pure (true, c)
    else fun d => fail ("ILA CONFIG not supported (raw=0x" ++ hexWord raw ++ ")") (false, d.caps) d

/-- The loop of `readSignalDefs`. -/
def signalDefsLoop : ℕ → List IlaSignalEntry → Method (IlaDriver β) (Bool × List IlaSignalEntry)
  | 0, out => pure (true, out)
  | count + 1, out => do
    match ← shiftDrInt B 32 0 with
    | none => pure (false, out)
    | some word => signalDefsLoop count (out ++ [.ofWord word])

/-- Read the signal-lane definitions. -/
def readSignalDefs (out : List IlaSignalEntry) : Method (IlaDriver β) (Bool × List IlaSignalEntry) := fun d =>
  if d.caps.sigCount = 0 then fail "sig_count is 0; no SIG_DEF entries available" (false, out) d
  else (do
    if ← selectIr B kIrSigDef then signalDefsLoop B d.caps.sigCount [] else pure (false, out) :
      Method (IlaDriver β) (Bool × List IlaSignalEntry)) d

/-- The registers of version 2: edges. -/
def writeEdges (caps : IlaCaps) (t : TriggerSetup) : Method (IlaDriver β) Bool :=
  if 2 ≤ caps.version then
    Method.andThen (write B kIrTrigRise caps.dataW t.riseMask) <| write B kIrTrigFall caps.dataW t.fallMask
  else pure true

/-- The registers of version 3: group B. -/
def writeGroupB (caps : IlaCaps) (t : TriggerSetup) : Method (IlaDriver β) Bool :=
  if 3 ≤ caps.version then
    Method.andThen (write B kIrTrigMask2 caps.dataW t.mask2) <|
    Method.andThen (write B kIrTrigVal2 caps.dataW t.val2) <|
    write B kIrTrigCtrl caps.dataW (if t.orMode then 1 else 0)
  else pure true

/-- The registers of a trigger. Those that an older version does not have are skipped. -/
def writeTrigger (caps : IlaCaps) (t : TriggerSetup) : Method (IlaDriver β) Bool :=
  Method.andThen (write B kIrTrigMask caps.dataW t.mask) <|
  Method.andThen (write B kIrTrigVal caps.dataW t.value) <|
  Method.andThen (write B kIrPreSamples caps.addrW (t.preSamples.setWidth 32)) <|
  Method.andThen (writeEdges B caps t) <| writeGroupB B caps t

/-- Configure the trigger. -/
def configureTrigger (t : TriggerSetup) : Method (IlaDriver β) Bool := fun d =>
  if d.caps.depth ≤ t.preSamples.toNat then fail "pre_samples must be < DEPTH" false d
  else if d.caps.version < 2 ∧ (t.riseMask ≠ 0 ∨ t.fallMask ≠ 0) then
    fail "edge trigger requires ILA IP version >= 2" false d
  else if d.caps.version < 3 ∧ (t.mask2 ≠ 0 ∨ t.val2 ≠ 0 ∨ t.orMode) then
    fail "OR-mode trigger requires ILA IP version >= 3" false d
  else writeTrigger B d.caps t d

/-- A write to CTRL. -/
def control (bits : BitVec 32) : Method (IlaDriver β) Bool := write B kIrCtrl 4 bits

def arm : Method (IlaDriver β) Bool := control B kCtrlArm
def stop : Method (IlaDriver β) Bool := control B kCtrlStop
def resetCapture : Method (IlaDriver β) Bool := control B kCtrlReset
def forceTrigger : Method (IlaDriver β) Bool := control B kCtrlForce

/-- Read the status into `out`. -/
def readStatus (out : IlaStatus) : Method (IlaDriver β) (Bool × IlaStatus) := do
  match ← access B kIrStatus 8 0 with
  | none => pure (false, out)
  | some v => pure (true, .ofWord v)

/-- Set the address that READ_DATA reads next. -/
def setReadAddr (addr : BitVec 16) : Method (IlaDriver β) Bool := fun d =>
  if d.caps.depth ≤ addr.toNat then fail "addr >= DEPTH" false d
  else write B kIrReadAddr d.caps.addrW (addr.setWidth 32) d

/-- The samples in what a batch returns; a read past its end is undefined. -/
def unpackSamples (flatTdo : List Byte) (dataW count : ℕ) : Option (List (BitVec 32)) :=
  (List.range count).mapM fun i =>
    if flatTdo.length < (i + 1) * ((dataW + 7) / 8) then none
    else unpackBits ((flatTdo.drop (i * ((dataW + 7) / 8))).take ((dataW + 7) / 8)) dataW

/-- Read so many samples into `out`: `DEPTH` of them, if it is not said how many. The batch gets the
count as an `int`. -/
def readSamples (count : Option (BitVec 32)) (out : List (BitVec 32)) :
    Method (IlaDriver β) (Bool × List (BitVec 32)) := fun d =>
  let count := count.getD (BitVec.ofNat 32 d.caps.depth)
  (do
    if ← selectIr B kIrReadData then
      let (ok, flatTdo) ← onBackend (B.shiftDrBatch count.toInt d.caps.dataW [0, 0, 0, 0])
      if ok then
        let samples ← Method.ofOption (unpackSamples flatTdo d.caps.dataW count.toNat)
        pure (true, samples)
      else backendError B (false, out)
    else pure (false, out) : Method (IlaDriver β) (Bool × List (BitVec 32))) d

end IlaDriver

/-! ### Sessions -/

/-- The operations of the driver. -/
inductive IlaOp where
  | probe
  | readIdcode
  | readSignalDefs
  | configureTrigger (t : TriggerSetup)
  | arm
  | stop
  | resetCapture
  | forceTrigger
  | readStatus
  | setReadAddr (addr : BitVec 16)
  | readSamples (count : Option (BitVec 32))
  deriving DecidableEq, Repr

/-- What an operation returns: whether it succeeded, and its results. -/
inductive IlaReply where
  | done (ok : Bool)
  | caps (ok : Bool) (c : IlaCaps)
  | idcode (v : Option (BitVec 32))
  | signalDefs (ok : Bool) (entries : List IlaSignalEntry)
  | status (ok : Bool) (s : IlaStatus)
  | samples (ok : Bool) (samples : List (BitVec 32))
  deriving DecidableEq, Repr

namespace IlaDriver

variable {β : Type} (B : IlaTapBackend β)

/-- Run one operation, with results that have been cleared. -/
def exec : IlaOp → Method (IlaDriver β) IlaReply
  | .probe => do
    let (ok, c) ← probe B {}
    pure (.caps ok c)
  | .readIdcode => do pure (.idcode (← readIdcode B))
  | .readSignalDefs => do
    let (ok, entries) ← readSignalDefs B []
    pure (.signalDefs ok entries)
  | .configureTrigger t => do pure (.done (← configureTrigger B t))
  | .arm => do pure (.done (← arm B))
  | .stop => do pure (.done (← stop B))
  | .resetCapture => do pure (.done (← resetCapture B))
  | .forceTrigger => do pure (.done (← forceTrigger B))
  | .readStatus => do
    let (ok, s) ← readStatus B ⟨false, false, false⟩
    pure (.status ok s)
  | .setReadAddr addr => do pure (.done (← setReadAddr B addr))
  | .readSamples count => do
    let (ok, samples) ← readSamples B count []
    pure (.samples ok samples)

/-- Run operations one after the other; what they return. -/
def session : List IlaOp → Method (IlaDriver β) (List IlaReply)
  | [] => pure []
  | op :: ops => do
    let reply ← exec B op
    pure (reply :: (← session ops))

end IlaDriver

end OwlTap.Ila
