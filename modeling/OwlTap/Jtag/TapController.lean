import OwlTap.Ftdi.FtdiDevice

/-!
# The TAP controller on the host

`TapController` moves the hardware's TAP by sending TMS sequences, and keeps in
`state` the state it believes the hardware is in: the hardware cannot be asked.
-/

namespace OwlTap.Jtag

open OwlTap Ftdi

/-! ### Paths -/

/-- TAP state transition table: the next state for TMS=0 and for TMS=1. -/
def kTapTransitions : TapState → TapState × TapState
  | .testLogicReset => (.runTestIdle, .testLogicReset)
  | .runTestIdle => (.runTestIdle, .selectDrScan)
  | .selectDrScan => (.captureDr, .selectIrScan)
  | .captureDr => (.shiftDr, .exit1Dr)
  | .shiftDr => (.shiftDr, .exit1Dr)
  | .exit1Dr => (.pauseDr, .updateDr)
  | .pauseDr => (.pauseDr, .exit2Dr)
  | .exit2Dr => (.shiftDr, .updateDr)
  | .updateDr => (.runTestIdle, .selectDrScan)
  | .selectIrScan => (.captureIr, .testLogicReset)
  | .captureIr => (.shiftIr, .exit1Ir)
  | .shiftIr => (.shiftIr, .exit1Ir)
  | .exit1Ir => (.pauseIr, .updateIr)
  | .pauseIr => (.pauseIr, .exit2Ir)
  | .exit2Ir => (.shiftIr, .updateIr)
  | .updateIr => (.runTestIdle, .selectDrScan)

/-- The host's table is the standard's state diagram. -/
theorem kTapTransitions_eq_next (s : TapState) : kTapTransitions s = (s.next false, s.next true) := by
  cases s <;> rfl

/-- An entry of the search queue: a state, and the TMS bits that lead to it. -/
structure PathEntry where
  /-- The state. -/
  state : TapState
  /-- The TMS bits, first one lowest. -/
  tms : Byte
  /-- How many. -/
  length : ℕ

/-- The body of the search's inner loop: follow one value of TMS from `cur`. The path, when
that reaches `dst`, or else the queue and the visited states. -/
def follow (dst : TapState) (cur : PathEntry) (tmsVal : Bool) (queue : List PathEntry)
    (visited : List TapState) : (Byte × ℕ) ⊕ (List PathEntry × List TapState) :=
  let next := if tmsVal then (kTapTransitions cur.state).2 else (kTapTransitions cur.state).1
  let newTms := cur.tms ||| (if tmsVal then 1#8 else 0#8) <<< cur.length
  let newLen := cur.length + 1
  if next = dst then .inl (newTms, newLen)
  else if next ∉ visited ∧ newLen < 7 then .inr (queue ++ [⟨next, newTms, newLen⟩], next :: visited)
  else .inr (queue, visited)

/-- The search loop; the queue holds each state at most once, so 16 passes are enough.
The fallback goes through TEST-LOGIC-RESET. -/
def search (dst : TapState) : ℕ → List PathEntry → List TapState → Byte × ℕ
  | 0, _, _ | _, [], _ => (0x1F, 5)
  | fuel + 1, cur :: queue, visited =>
    match follow dst cur false queue visited with
    | .inl path => path
    | .inr (queue, visited) =>
      match follow dst cur true queue visited with
      | .inl path => path
      | .inr (queue, visited) => search dst fuel queue visited

/-- The TMS bits that lead from one state to another, first one lowest, and how many. -/
def computeTmsPath (src dst : TapState) : Byte × ℕ :=
  if src = dst then (0, 0) else search dst 16 [⟨src, 0, 0⟩] [src]

/-- The TMS values of a path, in order. -/
def tmsPath (src dst : TapState) : List Bool :=
  (List.range (computeTmsPath src dst).2).map (computeTmsPath src dst).1.getLsbD

/-- The path to `dst` has at most the 7 steps that the search looks for. The three pairs
left out need 8. -/
def Fits (src dst : TapState) : Prop :=
  ¬(dst = .exit2Ir ∧ (src = .captureDr ∨ src = .shiftDr ∨ src = .pauseDr))

instance (src dst : TapState) : Decidable (Fits src dst) := inferInstanceAs (Decidable (¬_))

theorem Fits.of_ne (src : TapState) {dst : TapState} (h : dst ≠ .exit2Ir) : Fits src dst :=
  fun hf => h hf.1

/-- A path is one TMS command. -/
theorem computeTmsPath_length {src dst : TapState} (h : src ≠ dst) :
    1 ≤ (computeTmsPath src dst).2 ∧ (computeTmsPath src dst).2 ≤ 7 := by
  revert src dst; decide +kernel

/-- A path that fits leads where it should, and the others lead to TEST-LOGIC-RESET. -/
theorem run_tmsPath (src dst : TapState) :
    src.run (tmsPath src dst) = if Fits src dst then dst else .testLogicReset := by
  revert src dst; decide +kernel

/-- A SHIFT state is entered with TMS low. -/
theorem computeTmsPath_last {src dst : TapState} (h : src ≠ dst) (hs : dst.IsShift) :
    (computeTmsPath src dst).1.getLsbD ((computeTmsPath src dst).2 - 1) = false := by
  revert src dst; decide +kernel

/-- On the way to a SHIFT state it is not passed. -/
theorem shift_notMem_tmsPath (src : TapState) (reg : Register) :
    reg.shift ∉ src.visits (tmsPath src reg.shift) := by
  revert src; cases reg <;> decide +kernel

/-- From RUN-TEST/IDLE the way to a SHIFT state passes one CAPTURE. -/
theorem count_capture_tmsPath (reg : Register) :
    (TapState.visits .runTestIdle (tmsPath .runTestIdle reg.shift)).count reg.capture = 1 := by
  cases reg <;> decide +kernel

/-- The way from EXIT1 to RUN-TEST/IDLE passes UPDATE. -/
theorem tmsPath_exit1 (reg : Register) : tmsPath reg.exit1 .runTestIdle = [true, false] := by
  cases reg <;> decide +kernel

/-! ### The controller -/

/-- High-level TAP controller. -/
structure TapController (σ : Type) where
  /-- The device. -/
  device : FtdiDevice σ
  /-- The state the hardware is believed to be in. -/
  state : TapState
  /-- The last error message. -/
  lastError : String

/-- `tdi ? tdi[i] : 0`. -/
def byteOrZero (tdi : Ptr) (i : ℕ) : Option Byte :=
  match tdi with
  | none => some 0
  | some buf => buf[i]?

/-- The commands that clock `bitCount` bits in a SHIFT state and leave it with the last one:
bulk bytes, then remaining bits, then the last bit with TMS=1. -/
def scanCommands (tdi : Ptr) (bitCount : ℕ) (readBack : Bool) (cmd : MpsseCommandBuffer) :
    Option MpsseCommandBuffer := do
  let bulkBits := bitCount - 1
  let bulkBytes := bulkBits / 8
  let bulkRemaining := bulkBits % 8
  let shift := fun data n => if readBack then MpsseCommandBuffer.shiftInOut data n
    else MpsseCommandBuffer.shiftOut data n
  let cmd ← if bulkBytes > 0 then shift tdi (bulkBytes * 8) cmd else some cmd
  let cmd ← if bulkRemaining > 0 then
      (byteOrZero tdi bulkBytes).bind fun rest => shift (some [rest]) bulkRemaining cmd
    else some cmd
  let lastByte ← byteOrZero tdi ((bitCount - 1) / 8)
  some (cmd.clockTms 0x01 1 (lastByte.getLsbD ((bitCount - 1) % 8)) readBack)

/-- Copy a byte's first `n` bits into byte `k` of the output, bit by bit. -/
def orByte (out : List Byte) (k n : ℕ) (b : Byte) : List Byte :=
  (List.range n).foldl (fun out i => if b.getLsbD i then out.modify k (· ||| 1#8 <<< i) else out) out

/-- Reassemble TDO data from the raw bytes of a scan. -/
def reassemble (tdoData : List Byte) (bitCount : ℕ) (raw : List Byte) : List Byte :=
  let bulkBytes := (bitCount - 1) / 8
  let bulkRemaining := (bitCount - 1) % 8
  let outBytes := (bitCount + 7) / 8
  let out := tdoData.take outBytes ++ List.replicate (outBytes - tdoData.length) 0
  let (out, rawIdx) :=
    if 0 < bulkBytes ∧ bulkBytes ≤ raw.length then (raw.take bulkBytes ++ out.drop bulkBytes, bulkBytes)
    else (out, 0)
  let (out, rawIdx) :=
    if 0 < bulkRemaining ∧ rawIdx < raw.length then
      -- bit-mode reads come back left-aligned
      (orByte out bulkBytes bulkRemaining (raw.getD rawIdx 0 >>> (8 - bulkRemaining)), rawIdx + 1)
    else (out, rawIdx)
  if rawIdx < raw.length ∧ (raw.getD rawIdx 0).getLsbD 7 then
    out.modify ((bitCount - 1) / 8) (· ||| 1#8 <<< ((bitCount - 1) % 8))
  else out

namespace TapController

variable {σ : Type} (T : Target σ)

/-- `device_.transfer(cmd, raw)`, and the device's error when that fails. -/
def exchange (cmd : MpsseCommandBuffer) : Method (TapController σ) (Bool × List Byte) := fun c =>
  (FtdiDevice.transfer T cmd c.device).map fun (r, d) =>
    (r, { c with device := d, lastError := if r.1 then c.lastError else d.lastError })

/-- `device_.write(cmd)`, and the device's error when that fails. -/
def send (cmd : MpsseCommandBuffer) : Method (TapController σ) Bool := do
  let r ← exchange T cmd
  pure r.1

/-- `state_ = s`. -/
def setState (s : TapState) : Method (TapController σ) Unit := fun c => some ((), { c with state := s })

/-- Force TAP to TEST-LOGIC-RESET by clocking TMS=1 five times, and move to RUN-TEST-IDLE. -/
def reset : Method (TapController σ) Bool := do
  if ← send T (((({} : MpsseCommandBuffer).clockTms 0x1F 5 false false)).clockTms 0x00 1 false false) then
    setState .runTestIdle
    pure true
  else pure false

/-- Transition TAP to specified state. -/
def gotoState (target : TapState) : Method (TapController σ) Bool := fun c =>
  if c.state = target then some (true, c)
  else
    let (tmsBits, pathLen) := computeTmsPath c.state target
    if pathLen = 0 then some (true, c)
    else
      (do
        if ← send T (({} : MpsseCommandBuffer).clockTms tmsBits pathLen false false) then
          setState target
          pure true
        else pure false : Method (TapController σ) Bool) c

/-- The loop of `clkIdle`: TMS=0 in groups of up to 7; `fuel` bounds the passes. -/
def idleLoop : (fuel cycles : ℕ) → Method (TapController σ) Bool
  | 0, _ => pure true
  | fuel + 1, cycles =>
    if cycles = 0 then pure true
    else
      let n := if cycles > 7 then 7 else cycles
      Method.andThen (send T (({} : MpsseCommandBuffer).clockTms 0x00 n false false))
        (idleLoop fuel (cycles - n))

/-- Clock RUN-TEST-IDLE for N cycles. -/
def clkIdle (cycles : ℕ) : Method (TapController σ) Bool :=
  Method.andThen (gotoState T .runTestIdle) (idleLoop T cycles cycles)

/-- Execute a shift operation in the current SHIFT state. -/
def doShift (tdiData : Ptr) (tdoData : List Byte) (bitCount : ℕ) (readBack : Bool) :
    Method (TapController σ) (Bool × List Byte) := fun c =>
  if bitCount = 0 then some ((true, tdoData), c)
  else
    (scanCommands tdiData bitCount readBack {}).bind fun cmd =>
      if readBack then
        (exchange T cmd.sendImmediate c).map fun ((ok, raw), c) =>
          ((ok, if ok then reassemble tdoData bitCount raw else tdoData), c)
      else (send T cmd.sendImmediate c).map fun (ok, c) => ((ok, tdoData), c)

/-- The scan that `shiftIR` and the two `shiftDR` share: move to the SHIFT state, shift, note
that the last bit has left it, move to RUN-TEST-IDLE. -/
def scan (reg : Register) (tdiData : Ptr) (tdoData : List Byte) (bitCount : ℕ) (readBack : Bool) :
    Method (TapController σ) (Bool × List Byte) := do
  if bitCount = 0 then pure (false, tdoData)
  else if ← gotoState T reg.shift then
    let (ok, tdo) ← doShift T tdiData tdoData bitCount readBack
    if ok then
      setState reg.exit1
      let ok ← gotoState T .runTestIdle
      pure (ok, tdo)
    else pure (false, tdo)
  else pure (false, tdoData)

/-- Shift data into the Instruction Register. -/
def shiftIR (irData : Ptr) (irBits : ℕ) : Method (TapController σ) Bool := do
  let r ← scan T .ir irData [] irBits false
  pure r.1

/-- Shift data through the Data Register with readback. -/
def shiftDR (tdiData : Ptr) (tdoData : List Byte) (drBits : ℕ) :
    Method (TapController σ) (Bool × List Byte) :=
  scan T .dr tdiData tdoData drBits true

/-- Shift data through the Data Register without readback. -/
def shiftDROut (tdiData : Ptr) (drBits : ℕ) : Method (TapController σ) Bool := do
  let r ← scan T .dr tdiData [] drBits false
  pure r.1

/-- Read data from Data Register (shift in zeros on TDI). -/
def readDR (tdoData : List Byte) (drBits : ℕ) : Method (TapController σ) (Bool × List Byte) :=
  shiftDR T (some (List.replicate ((drBits + 7) / 8) 0)) tdoData drBits

end TapController

end OwlTap.Jtag
