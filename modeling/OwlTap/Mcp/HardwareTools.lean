import OwlTap.Hardware.HardwareContext
import OwlTap.Ila.IlaDriver
import OwlTap.Mcp.CaptureTools
import OwlTap.Script.ScriptEngine

/-!
# The tools that use the boundary register

The tasks that these tools submit, each as it runs on the hardware context: a result, or the text of
the exception that it throws. The context keeps a scanner and a driver for each device that has been
asked for; only a new detection of the devices and the closing of the hardware drop them.
-/

namespace OwlTap.Hardware.HardwareContext

open OwlTap Ftdi Bsdl Jtag BoundaryScan

variable {σ : Type} (T : Target σ)

/-- A call on the chain. -/
def onChain {α : Type} (m : Method (JtagChain σ) α) : Method (HardwareContext σ) α :=
  Method.on chain (fun ctx chain => { ctx with chain }) m

/-- Whether there is a device with this index. -/
def hasDevice (ctx : HardwareContext σ) (deviceIndex : ℤ) : Bool :=
  0 ≤ deviceIndex ∧ deviceIndex < ctx.chain.devices.length

/-- The scanner of a device, made when there is none. -/
def scanner (ctx : HardwareContext σ) (deviceIndex : ℤ) : Except String ScannerData :=
  match ctx.scanners.lookup deviceIndex with
  | some data => .ok data
  | none => if ctx.hasDevice deviceIndex then .ok { deviceIndex } else .error "scanner: device_index out of range"

/-- With what is left of a scanner. -/
def setScanner (ctx : HardwareContext σ) (deviceIndex : ℤ) (sc : Scanner σ) : HardwareContext σ :=
  { ctx with chain := sc.chain, scanners := ctx.scanners.insert deviceIndex sc.toScannerData }

/-- With what is left of a driver. -/
def setPinDriver (ctx : HardwareContext σ) (deviceIndex : ℤ) (pd : PinDriver σ) : HardwareContext σ :=
  { ctx with chain := pd.chain, pinDrivers := ctx.pinDrivers.insert deviceIndex pd.toDriverData }

/-- The driver of a device, made when there is none; this takes a sample. -/
def pinDriver (deviceIndex : ℤ) : Method (HardwareContext σ) (Except String DriverData) := fun ctx =>
  match ctx.pinDrivers.lookup deviceIndex with
  | some data => some (.ok data, ctx)
  | none =>
    if ctx.hasDevice deviceIndex then
      (PinDriver.create T ctx.chain deviceIndex).map fun pd => (.ok pd.toDriverData, ctx.setPinDriver deviceIndex pd)
    else some (.error "pinDriver: device_index out of range", ctx)

end OwlTap.Hardware.HardwareContext

namespace OwlTap.Mcp

open OwlTap Ftdi Bsdl Jtag BoundaryScan Hardware Script

variable {σ : Type} (T : Target σ)

/-- What a task ends with: a result, or the text of an exception. -/
abbrev Response := Except String Json

/-- A task that uses the scanner of a device. -/
def withScanner (deviceIndex : ℤ) (body : Method (Scanner σ) Response) : Method (HardwareContext σ) Response := fun ctx =>
  match ctx.scanner deviceIndex with
  | .error what => some (.error what, ctx)
  | .ok data => (body { data with chain := ctx.chain }).map fun (r, sc) => (r, ctx.setScanner deviceIndex sc)

/-- A task that uses the driver of a device. -/
def withPinDriver (deviceIndex : ℤ) (body : Method (PinDriver σ) Response) : Method (HardwareContext σ) Response := do
  match ← HardwareContext.pinDriver T deviceIndex with
  | .error what => pure (.error what)
  | .ok data => fun ctx => (body { data with chain := ctx.chain }).map fun (r, pd) => (r, ctx.setPinDriver deviceIndex pd)

/-! ### Devices -/

def idcodeStr (id : BitVec 32) : String := "0x" ++ Ila.hexWord id

/-- A device, as `read_idcode` shows it. -/
def deviceToJson (dev : ChainDevice) : List (String × Json) :=
  [("position", .int dev.position), ("idcode", .str (idcodeStr dev.idcode)), ("ir_length", .int dev.irLength)]

/-- Whether its model is loaded. -/
def loadedToJson (dev : ChainDevice) : List (String × Json) := [("bsdl_loaded", .bool dev.bsdl.isSome)]

/-- The name of its model. -/
def entityName (dev : ChainDevice) : String := dev.bsdl.elim "" fun bsdl => String.ofList bsdl.entityName

/-- How many devices there are, and each of them. -/
def devicesToJson (n : ℕ) (devices : List ChainDevice) (toJson : ChainDevice → List (String × Json)) : Json :=
  .obj [("device_count", .int n), ("devices", .arr (devices.map fun dev => .obj (toJson dev)))]

/-- Detect the devices, and drop the scanners and drivers. -/
def detect (toJson : ChainDevice → List (String × Json)) : Method (HardwareContext σ) Response := do
  let n ← HardwareContext.onChain (JtagChain.detectDevices T)
  modify HardwareContext.resetDeviceObjects
  fun ctx => some (.ok (devicesToJson n ctx.chain.devices toJson), ctx)

def readIdcode : Method (HardwareContext σ) Response := detect T deviceToJson

def detectDevices : Method (HardwareContext σ) Response := detect T fun dev => deviceToJson dev ++ loadedToJson dev

/-- With the contents of the file, if it can be read. -/
def loadBsdl (deviceIndex : ℤ) (bsdlPath : Text) (contents : Option Text) : Method (HardwareContext σ) Response := do
  if ← HardwareContext.onChain (JtagChain.loadBsdl deviceIndex bsdlPath contents) then
    fun ctx =>
      some (.ok (.obj [("ok", .bool true), ("device_index", .int deviceIndex), ("bsdl_path", .str (String.ofList bsdlPath)),
        ("entity", .str ((ctx.chain.deviceAt deviceIndex).elim "" entityName))]), ctx)
  else fun ctx => some (.error ctx.chain.lastError, ctx)

def listDevices : Method (HardwareContext σ) Response := fun ctx =>
  some (.ok (devicesToJson ctx.chain.devices.length ctx.chain.devices fun dev =>
    deviceToJson dev ++ loadedToJson dev ++ if dev.bsdl.isSome then [("entity", .str (entityName dev))] else []), ctx)

/-! ### Pins -/

def pinsToJson (pins : List Text) : Json := .arr (pins.map fun name => .str (String.ofList name))

def listPins (deviceIndex : ℤ) : Method (HardwareContext σ) Response :=
  withScanner deviceIndex fun sc =>
    some (.ok (.obj [("device_index", .int deviceIndex), ("observable", pinsToJson sc.getObservablePins),
      ("drivable", pinsToJson sc.getDrivablePins)]), sc)

def setPin (deviceIndex : ℤ) (pinName : Text) (value : ℤ) : Method (HardwareContext σ) Response :=
  withPinDriver T deviceIndex do
    let ok ← if value < 0 then PinDriver.setPinHighZ T pinName else PinDriver.setPin T pinName value
    if ok then
      if ← PinDriver.applyOutputs T then
        pure (.ok (.obj [("ok", .bool true), ("device_index", .int deviceIndex), ("pin_name", .str (String.ofList pinName)),
          ("value", .int value)]))
      else fun pd => some (.error pd.lastError, pd)
    else fun pd => some (.error pd.lastError, pd)

/-- The task of `hardware/sample_bsr`: it clears any filter left by an earlier capture. -/
def sampleBsr (deviceIndex : ℤ) : Method (HardwareContext σ) Response :=
  withScanner deviceIndex do
    modify (Scanner.setDecodeFilter [])
    let result ← Scanner.sample T
    fun sc =>
      some (if sc.lastError ≠ "" then .error sc.lastError
        else .ok (.obj [("device_index", .int deviceIndex), ("pins", scanResultToJson result),
          ("raw_bsr", rawBsrToJson result.rawBsr)]), sc)

/-! ### Captures -/

/-- What a pass of the loop of `capture_start` finds: whether the job is to be cancelled, and two times. -/
structure CapturePass where
  cancelRequested : Bool
  now : ℕ
  stamp : ℕ

/-- A task's result or exception. -/
def endingResult : Jobs.Ending → Except String Json
  | .returned result => .ok result
  | .threw what => .error what
  | .threwUnknown => .error "unknown exception in hardware task"

/-- The loop, and what comes after it; nothing if it has not ended yet after these passes. -/
def CaptureTask.run (preSamples : ℕ → ℕ) (p : CaptureParams) :
    List CapturePass → Method (CaptureTask σ) Response
  | [], _ => none
  | pass :: passes, t =>
    (t.look pass.cancelRequested).bind fun t =>
      if t.point = .ended then (t.ending p).map fun ending => (endingResult ending, t)
      else
        (t.tick T preSamples pass.now pass.stamp).bind fun t =>
          t.report.bind fun (_, t) => run preSamples p passes t

/-- The task of `capture_start`, from its parameters, the time when it begins, and the passes of its loop. -/
def captureStart (preSamples : ℕ → ℕ) (p : CaptureParams) (now : ℕ) (passes : List CapturePass) : Method (HardwareContext σ) Response :=
  withScanner p.devIdx fun sc =>
    (CaptureTask.run T preSamples p passes (.begin p now sc)).map fun (r, t) => (r, t.scanner)

/-! ### Scripts -/

/-- What the script host of `run_script` refers to. -/
structure McpScriptHost (σ : Type) where
  /-- The scanner. -/
  scanner : ScannerData
  /-- The driver. -/
  driver : DriverData
  /-- The chain to which they belong. -/
  chain : JtagChain σ

namespace McpScriptHost

/-- The scanner, with its chain. -/
def onScanner {α : Type} (m : Method (Scanner σ) α) : Method (McpScriptHost σ) α :=
  Method.on (fun h => { h.scanner with chain := h.chain })
    (fun h sc => { h with scanner := sc.toScannerData, chain := sc.chain }) m

/-- The driver, with its chain. -/
def onDriver {α : Type} (m : Method (PinDriver σ) α) : Method (McpScriptHost σ) α :=
  Method.on (fun h => { h.driver with chain := h.chain })
    (fun h pd => { h with driver := pd.toDriverData, chain := pd.chain }) m

/-- Whether a call on the driver has succeeded, and its error if not. -/
def status (m : Method (PinDriver σ) Bool) : Method (McpScriptHost σ) (Bool × String) :=
  onDriver do
    let ok ← m
    fun pd => some ((ok, if ok then "" else pd.lastError), pd)

/-- The host. -/
def host : ScriptHost (McpScriptHost σ) where
  sample := onScanner (McpScriptHost.sample T)
  setPin pinName value := status (PinDriver.setPin T pinName value)
  setPinHighZ pinName := status (PinDriver.setPinHighZ T pinName)
  applyOutputs := status (PinDriver.applyOutputs T)
  resetToSafe := onDriver fun pd => some ((), pd.resetToSafe)
  sleepMs _ := pure (true, "")

/-- The scanner and the driver of a device. -/
def «open» (deviceIndex : ℤ) : Method (HardwareContext σ) (Except String (McpScriptHost σ)) := fun ctx =>
  match ctx.scanner deviceIndex with
  | .error what => some (.error what, ctx)
  | .ok scanner =>
    (HardwareContext.pinDriver T deviceIndex (ctx.setScanner deviceIndex { scanner with chain := ctx.chain })).map
      fun (driver, ctx) => (driver.map fun driver => ⟨scanner, driver, ctx.chain⟩, ctx)

/-- The context, with what is left of them. -/
def close (deviceIndex : ℤ) (h : McpScriptHost σ) (ctx : HardwareContext σ) : HardwareContext σ :=
  { ctx with
    chain := h.chain
    scanners := ctx.scanners.insert deviceIndex h.scanner
    pinDrivers := ctx.pinDrivers.insert deviceIndex h.driver }

end McpScriptHost

/-- What `run_script` answers. -/
def scriptResultToJson (r : ScriptResult) : Json :=
  .obj [("success", .bool r.success), ("failed_line", .int r.failedLine), ("output", .str r.output),
    ("total_expects", .int r.totalExpects), ("failed_expects", .int r.failedExpects)]

def runScript (deviceIndex : ℤ) (script : Text) : Method (HardwareContext σ) Response := do
  match ← McpScriptHost.open T deviceIndex with
  | .error what => pure (.error what)
  | .ok h => fun ctx =>
    (ScriptEngine.run (McpScriptHost.host T) script h).map fun (r, h) => (.ok (scriptResultToJson r), h.close deviceIndex ctx)

end OwlTap.Mcp
