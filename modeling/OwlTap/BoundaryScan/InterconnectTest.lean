import OwlTap.BoundaryScan.PinDriver
import OwlTap.BoundaryScan.Scanner

/-!
# The interconnect test

A net list says which pin drives a net and which pins receive it. For each net the test
drives the driver pin low, then high, samples every receiver's device and compares.

All scanners and drivers of a test refer to one chain (`Bench`). With what a step returns comes
what is not in the source: the chain before and after each sampling.
-/

namespace OwlTap.BoundaryScan

open OwlTap Ftdi Bsdl Jtag

/-! ### Net lists -/

/-- A single pin reference: device index in the chain, and BSDL pin name. -/
structure DevPin where
  /-- The device. -/
  deviceIndex : ℤ := 0
  /-- BSDL port name, in uppercase. -/
  pin : Text := []
  deriving DecidableEq

/-- One net entry from an .ict file. -/
structure NetDef where
  /-- Logical net name. -/
  name : Text
  /-- The device and pin that drives the net. -/
  driver : DevPin
  /-- Expected receivers. -/
  receivers : List DevPin
  deriving DecidableEq

/-- Without the whitespace around it. -/
def trimStr (s : Text) : Text :=
  ((s.dropWhile BSDLParser.isSpace).reverse.dropWhile BSDLParser.isSpace).reverse

/-- Parse `devIndex:pin_name`. -/
def parseDevPin (token : Text) : Except String DevPin :=
  if ':' ∉ token then .error ("expected 'dev:pin' but got '" ++ String.ofList token ++ "'")
  else
    let idxStr := token.takeWhile (· ≠ ':')
    let pinStr := (token.dropWhile (· ≠ ':')).tail
    if idxStr = [] ∨ pinStr = [] then .error ("malformed 'dev:pin' token '" ++ String.ofList token ++ "'")
    else
      match BSDLParser.stoi idxStr with
      | none => .error ("invalid device index '" ++ String.ofList idxStr ++ "'")
      | some deviceIndex => .ok ⟨deviceIndex, pinStr.map Char.toUpper⟩

/-- The words of a line. -/
def words (line : Text) : List Text := (line.splitOnP BSDLParser.isSpace).filter (· ≠ [])

/-- The error of a line. -/
def lineError (lineNo : ℕ) (msg : String) : String := s!"line {lineNo}: " ++ msg

/-- Parse a line's words: name, driver, receivers. -/
def parseNet : List Text → Except String NetDef
  | name :: driver :: receiver :: receivers => do
    let driver ← parseDevPin driver
    let receivers ← (receiver :: receivers).mapM parseDevPin
    .ok ⟨name, driver, receivers⟩
  | _ => .error "need at least: name driver receiver"

/-- Parse the lines of a file, from line `lineNo` on. -/
def parseLines : (lineNo : ℕ) → List Text → Except String (List NetDef)
  | _, [] => .ok []
  | lineNo, line :: lines =>
    -- strip comment
    let line := trimStr (line.takeWhile (· ≠ '#'))
    if line = [] then parseLines (lineNo + 1) lines
    else
      match parseNet (words line) with
      | .error e => .error (lineError lineNo e)
      | .ok net => (parseLines (lineNo + 1) lines).map (net :: ·)

/-- Parse an .ict file, given what reading it yields. -/
def parseIctFile (path : Text) (contents : Option Text) : Except String (List NetDef) :=
  match contents with
  | none => .error ("cannot open file: " ++ String.ofList path)
  | some contents => parseLines 1 (contents.splitOn '\n')

/-! ### Results -/

/-- The result for one value. -/
structure NetTestStep where
  /-- 0 or 1. -/
  drivenValue : ℤ
  /-- What was observed, indexed as the receivers. -/
  observed : List PinState
  /-- All receivers observed the driven value. -/
  pass : Bool
  deriving DecidableEq

/-- Per-net test result. -/
structure NetResult where
  /-- Logical net name. -/
  name : Text
  /-- Two steps: drive 0, drive 1. -/
  steps : List NetTestStep
  /-- Both passed. -/
  pass : Bool
  deriving DecidableEq

/-- The result of a test. -/
structure InterconnectResult where
  /-- One result for each net. -/
  nets : List NetResult
  /-- How many passed. -/
  passCount : ℕ
  /-- How many failed. -/
  failCount : ℕ
  deriving DecidableEq

/-! ### The test -/

/-- A chain with scanners and drivers for its devices; an entry may be a null pointer. -/
structure Bench (σ : Type) where
  /-- JTAG chain manager. -/
  chain : JtagChain σ
  /-- One scanner for each device. -/
  scanners : List (Option ScannerData)
  /-- One driver for each device. -/
  drivers : List (Option DriverData)

/-- `i < xs.size() && xs[i] != nullptr`, with what is there; a negative index is before the vector. -/
def entry {α : Type} (xs : List (Option α)) (i : ℤ) : Option (Option α) :=
  if i < 0 then none else some (xs[i.toNat]?).join

/-- One sampling of a device, with the chain when it began and when it ended. -/
structure Sampling (σ : Type) where
  /-- The device. -/
  device : ℤ
  /-- The chain when it began. -/
  before : JtagChain σ
  /-- Its result. -/
  scan : ScanResult
  /-- The chain when it ended. -/
  after : JtagChain σ

/-- A step, with the samplings that it made. -/
structure StepRun (σ : Type) where
  /-- The result. -/
  step : NetTestStep
  /-- The samplings, none of a device twice. -/
  samples : List (Sampling σ)

/-- The result of `getPin` for a receiver, if its device has been sampled. -/
def observe {σ : Type} (samples : List (Sampling σ)) (recv : DevPin) : PinState :=
  match samples.find? fun s => s.device = recv.deviceIndex with
  | none => .unknown
  | some s => s.scan.getPin recv.pin

/-- `(driven_val == 0) ? PinState::LOW : PinState::HIGH`. -/
def expectedState (drivenVal : ℤ) : PinState := if drivenVal = 0 then .low else .high

namespace Bench

variable {σ : Type} (T : Target σ)

/-- A call on a driver. -/
def onDriver {α : Type} (i : ℕ) (data : DriverData) (m : Method (PinDriver σ) α) : Method (Bench σ) α :=
  Method.on (fun b => { (b.drivers[i]?).join.getD data with chain := b.chain })
    (fun b pd => { b with chain := pd.chain, drivers := b.drivers.set i (some pd.toDriverData) }) m

/-- A call on a scanner. -/
def onScanner {α : Type} (i : ℕ) (data : ScannerData) (m : Method (Scanner σ) α) : Method (Bench σ) α :=
  Method.on (fun b => { (b.scanners[i]?).join.getD data with chain := b.chain })
    (fun b sc => { b with chain := sc.chain, scanners := b.scanners.set i (some sc.toScannerData) }) m

/-- Drive the output pin; whether that went well. -/
def drive (driver : DevPin) (drivenVal : ℤ) : Method (Bench σ) Bool := fun b =>
  match entry b.drivers driver.deviceIndex with
  | none => none
  | some none => some (false, b)
  | some (some data) =>
    (do
      let i := driver.deviceIndex.toNat
      if ← onDriver i data fun pd => some (pd.extestAllowed, pd) then
        -- the result of setting the pin is not looked at
        let _ ← onDriver i data (PinDriver.setPin T driver.pin drivenVal)
        onDriver i data (PinDriver.applyOutputs T)
      else pure false : Method (Bench σ) Bool) b

/-- Sample a receiver's device, unless that has been done. -/
def sampleReceiver (samples : List (Sampling σ)) (recv : DevPin) : Method (Bench σ) (List (Sampling σ)) := fun b =>
  if samples.any fun s => s.device = recv.deviceIndex then some (samples, b)
  else
    match entry b.scanners recv.deviceIndex with
    | none => none
    | some none => some (samples, b)
    | some (some data) =>
      (onScanner recv.deviceIndex.toNat data (Scanner.sample T) b).map fun (scan, b') =>
        (samples ++ [⟨recv.deviceIndex, b.chain, scan, b'.chain⟩], b')

/-- Sample each receiver device once. -/
def sampleReceivers : List DevPin → List (Sampling σ) → Method (Bench σ) (List (Sampling σ))
  | [], samples => pure samples
  | recv :: recvs, samples => do
    let samples ← sampleReceiver T samples recv
    sampleReceivers recvs samples

/-- Drive a value on a net, and observe its receivers. -/
def runStep (net : NetDef) (drivenVal : ℤ) : Method (Bench σ) (StepRun σ) := do
  if ← drive T net.driver drivenVal then
    let samples ← sampleReceivers T net.receivers []
    let observed := net.receivers.map (observe samples)
    pure ⟨⟨drivenVal, observed, observed.all (· = expectedState drivenVal)⟩, samples⟩
  else
    -- cannot drive: mark all receivers unknown and fail
    pure ⟨⟨drivenVal, net.receivers.map fun _ => .unknown, false⟩, []⟩

/-- Both steps of a net. -/
def runNet (net : NetDef) : Method (Bench σ) (NetDef × List (StepRun σ)) := do
  let low ← runStep T net 0
  let high ← runStep T net 1
  pure (net, [low, high])

/-- The nets, one after the other. -/
def runNets : List NetDef → Method (Bench σ) (List (NetDef × List (StepRun σ)))
  | [] => pure []
  | net :: nets => do
    let run ← runNet T net
    let runs ← runNets nets
    pure (run :: runs)

end Bench

/-- The result of a net. -/
def NetResult.ofRun {σ : Type} (run : NetDef × List (StepRun σ)) : NetResult :=
  ⟨run.1.name, run.2.map StepRun.step, run.2.all fun r => r.step.pass⟩

/-- The result of a test, net by net. -/
def InterconnectResult.ofNets (nets : List NetResult) : InterconnectResult :=
  ⟨nets, nets.countP NetResult.pass, nets.countP fun r => !r.pass⟩

/-- Runs an interconnect test: for each net, drives 0 then 1 on the driver pin and observes all receivers. -/
def runInterconnectTest {σ : Type} (T : Target σ) (nets : List NetDef) : Method (Bench σ) InterconnectResult := do
  let runs ← Bench.runNets T nets
  pure (.ofNets (runs.map NetResult.ofRun))

/-! ### The report -/

/-- A state in the report. -/
def PinState.report : PinState → String
  | .low => "LOW"
  | .high => "HIGH"
  | .unknown => "UNK"

/-- A step in the report. -/
def reportStep (net : NetDef) (step : NetTestStep) : String :=
  s!"  drive={step.drivenValue} : " ++
    " ".intercalate ((net.receivers.zip step.observed).map fun (recv, state) =>
      String.ofList recv.pin ++ "=" ++ state.report) ++
    (if step.observed.length < net.receivers.length ∧ step.observed ≠ [] then " " else "") ++
    (if step.pass then " OK" else " FAIL") ++ "\n"

/-- Format a plain-text report from an interconnect result. -/
def formatInterconnectReport (result : InterconnectResult) (nets : List NetDef) : String :=
  "=== Interconnect Test Report ===\n" ++
    s!"Total: {result.nets.length}  PASS: {result.passCount}  FAIL: {result.failCount}\n\n" ++
    String.join ((result.nets.zip nets).map fun (nr, net) =>
      (if nr.pass then "[PASS] " else "[FAIL] ") ++ String.ofList nr.name ++ "\n" ++
        String.join (nr.steps.map (reportStep net)))

end OwlTap.BoundaryScan
