import OwlTap.Base.Json
import OwlTap.Capture.CaptureSession

/-!
# The tools that sample

Three callers take a sample and then look at the scanner's last error to see whether it failed:
the tool `read_pin`, the host on which `run_script` runs a script, and a capture session.
-/

namespace OwlTap.Mcp

open OwlTap Bsdl Ftdi Jtag BoundaryScan

/-- The name of a pin state. -/
def pinStateStr : PinState → String
  | .low => "low"
  | .high => "high"
  | .unknown => "unknown"

/-- What `read_pin` answers. -/
def readPinResult (deviceIndex : ℤ) (pinName : Text) (result : ScanResult) : Json :=
  .obj [("device_index", .int deviceIndex), ("pin_name", .str (String.ofList pinName)),
    ("state", .str (pinStateStr (result.getPin pinName)))]

variable {σ : Type} (T : Target σ)

/-- The task of `read_pin`, with the scanner of the device: a result, or an exception. -/
def readPin (deviceIndex : ℤ) (pinName : Text) : Method (Scanner σ) (Except String Json) := do
  let result ← Scanner.sample T
  fun sc => some (if sc.lastError ≠ "" then .error sc.lastError else .ok (readPinResult deviceIndex pinName result), sc)

/-- `McpScriptHost::sample`: whether it succeeded, the result and the error. -/
def McpScriptHost.sample : Method (Scanner σ) (Bool × ScanResult × String) := do
  let result ← Scanner.sample T
  fun sc => some ((sc.lastError = "", result, sc.lastError), sc)

end OwlTap.Mcp
