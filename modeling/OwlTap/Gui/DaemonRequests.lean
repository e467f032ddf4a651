import OwlTap.BoundaryScan.Scanner
import OwlTap.Base.Json
import OwlTap.Base.Throwing
import OwlTap.Gui.IlaPanel
import OwlTap.Ila.IlaDriver

/-!
# What the GUI does with the daemon's answers

The code around the requests that the GUI sends to the daemon, from the answer on: a JSON value, or
what `GuiDaemonClient::call` throws. Each is the body of a `try`, and what its `catch` does. The GUI
is in daemon mode, without a driver, scanner and pin driver of its own.
-/

namespace OwlTap.Gui

open OwlTap Bsdl BoundaryScan Ila

/-! ### The state -/

/-- The ILA panel in daemon mode. -/
structure DaemonPanel extends IlaPanel where
  /-- Caps received via `ila/probe`. -/
  capsRemote : IlaCaps := {}
  preSamples : ℤ := 256
  triggerDirty : Bool := false
  statusValid : Bool := false
  lastError : String := ""
  samples : List (BitVec 32) := []
  hasSamples : Bool := false
  rtlSigDefsLoaded : Bool := false

/-- What is used of the window's state. -/
structure AppWindow where
  statusMessage : String := ""
  bsdlDeviceIndex : ℤ := -1
  /-- `config_.bsdl_path`. -/
  bsdlPath : String := ""
  observable : List String := []
  drivable : List String := []
  pinReadback : ScanResult := {}
  pinReadbackError : String := ""
  extestOutputsActive : Bool := false
  programPlSuccess : Bool := false
  programPlError : String := ""

/-- The GUI. -/
structure GuiState where
  panel : DaemonPanel
  window : AppWindow := {}

/-- Code that may throw, and leaves the state then as it is at that point. -/
abbrev GuiM := Throwing GuiState

/-! ### The panel -/

namespace DaemonPanel

def activeDepth (p : DaemonPanel) : ℤ :=
  (BitVec.ofNat 32 (if p.capsRemote.depth ≠ 0 then p.capsRemote.depth else kDepth)).toInt

def resetSignalDefs (p : DaemonPanel) : DaemonPanel :=
  let dw : ℤ := if p.capsRemote.probed then p.capsRemote.dataW else 32
  { p with signals := [⟨dw - 1, 0⟩], laneTriggers := [{}] }

end DaemonPanel

/-- `static_cast<uint8_t>`. -/
def toUInt8 (n : ℤ) : ℕ := (BitVec.ofInt 8 n).toNat

/-- One signal definition. -/
def readSignalDef (e : Json) : Except String IlaSignalDef := do
  let hi ← e.value Json.getInt "hi" 31
  let lo ← e.value Json.getInt "lo" 0
  let _ ← e.value Json.getInt "name_idx" 0xFF
  let _ ← e.value Json.getInt "fmt" 0
  return ⟨hi, lo⟩

/-- `pollCaps`, with the answer to `ila/probe`. -/
def pollCaps (answer : Except String Json) : GuiM Unit := do
  modify fun g => { g with panel.capsRemote := {}, panel.lastError := "" }
  let r ← answer
  let version ← r.value Json.getInt "version" 0
  modify fun g => { g with panel.capsRemote.version := toUInt8 version }
  let numCh ← r.value Json.getInt "num_ch" 1
  modify fun g => { g with panel.capsRemote.numCh := toUInt8 numCh }
  let sigCount ← r.value Json.getInt "sig_count" 0
  modify fun g => { g with panel.capsRemote.sigCount := toUInt8 sigCount }
  let dataW ← r.value Json.getInt "data_w" 32
  modify fun g => { g with panel.capsRemote.dataW := toUInt8 dataW }
  let addrW ← r.value Json.getInt "addr_w" 10
  modify fun g => { g with panel.capsRemote.addrW := toUInt8 addrW }
  let depth ← r.value Json.getUInt32 "depth" 1024
  modify fun g => { g with panel.capsRemote.depth := depth.toNat }
  let raw ← r.value Json.getUInt32 "raw" 0
  modify fun g => { g with panel.capsRemote.raw := raw }
  let idcode ← r.value Json.getUInt32 "idcode" 0
  modify fun g => { g with panel.capsRemote.idcode := idcode, panel.capsRemote.probed := true }
  modify fun g =>
    if g.panel.activeDepth ≤ g.panel.preSamples then { g with panel.preSamples := g.panel.activeDepth.tdiv 4 } else g
  match r.get? "signal_defs" with
  | some (.arr defs) =>
    modify fun g => { g with panel.signals := [] }
    for e in defs do
      let d ← readSignalDef e
      modify fun g => { g with panel.signals := g.panel.signals ++ [d] }
    modify fun g => { g with
      panel.laneTriggers := g.panel.signals.map fun _ => {}
      panel.rtlSigDefsLoaded := true }
  | _ => modify fun g => { g with panel := { g.panel with rtlSigDefsLoaded := false }.resetSignalDefs }

/-- `doArm`, up to its call of `pollStatus`, with the answer to `ila/arm`. -/
def doArm (answer : Except String Json) : GuiM Unit := do
  let _ ← answer
  modify fun g => { g with panel.lastError := "", panel.triggerDirty := false }

/-- `doStop`, `doForce` and `doReset`, with the answers to `ila/stop`, `ila/force_trigger` and `ila/reset`. -/
def doControl (answer : Except String Json) : GuiM Unit := do
  let _ ← answer
  modify fun g => { g with panel.lastError := "" }

/-- `doRead`, with the answer to `ila/read_samples`. -/
def doRead (answer : Except String Json) : GuiM Unit := do
  let r ← answer
  -- the text is what `last_error_` is set to, as in the `catch`
  if !(← r.value Json.getBool "ok" false) then throw (← r.value Json.getString "error" "read failed")
  modify fun g => { g with panel.samples := [] }
  match r.get? "samples" with
  | some (.arr samples) =>
    for v in samples do
      let sample ← v.getUInt32
      modify fun g => { g with panel.samples := g.panel.samples ++ [sample] }
  | _ => pure ()
  modify fun g => { g with panel.lastError := "", panel.hasSamples := !g.panel.samples.isEmpty }

/-! ### The window -/

/-- The items of an array of strings with a key. -/
def readNames (key : String) (j : Json) : Except String (List String) :=
  match j.get? key with
  | some (.arr names) => names.mapM Json.getString
  | _ => .ok []

/-- The part of `onOpenBsdl` that comes with the answer to `hardware/load_bsdl`, which is not looked at. -/
def openBsdl (answer : Except String Json) : GuiM Unit := do
  let _ ← answer

/-- What `onOpenBsdl` does at the end. -/
def recordPins (path : String) (observable drivable : List String) (g : GuiState) : GuiState :=
  { g with
    window.observable := observable
    window.drivable := drivable
    window.bsdlDeviceIndex := 0
    window.bsdlPath := path
    window.extestOutputsActive := false
    window.statusMessage := s!"BSDL loaded via daemon. {observable.length} observable / {drivable.length} drivable pins." }

/-- The part that comes with the answer to `hardware/list_pins`. -/
def openBsdlPins (path : String) (answer : Except String Json) : GuiM Unit := do
  let pinsJson ← answer
  let observable ← readNames "observable" pinsJson
  let drivable ← readNames "drivable" pinsJson
  modify (recordPins path observable drivable)

/-- The state of a pin, from its name. -/
def pinStateOfName (name : String) : PinState :=
  if name = "high" then .high else if name = "low" then .low else .unknown

/-- `refreshPinReadback(true)`, with the answer to `hardware/sample_bsr`. -/
def refreshPinReadback (answer : Except String Json) : GuiM Unit := do
  let result ← answer
  modify fun g => { g with window.pinReadback := {} }
  match result.get? "pins" with
  | some (.obj pins) =>
    for (key, v) in pins.reverse do
      let name ← v.getString
      modify fun g => { g with
        window.pinReadback.pinStates := g.window.pinReadback.pinStates.insert key.toList (pinStateOfName name) }
  | _ => pure ()
  match result.get? "raw_bsr" with
  | some (.arr bytes) =>
    for byte in bytes do
      match byte with
      | .int n => modify fun g => { g with window.pinReadback.rawBsr := g.window.pinReadback.rawBsr ++ [BitVec.ofInt 8 n] }
      | _ => pure ()
  | _ => pure ()
  modify fun g => { g with
    window.pinReadbackError := ""
    window.extestOutputsActive := false
    window.statusMessage := s!"Pin readback via daemon: {g.window.pinReadback.pinStates.keys.length} pins." }

/-- What the thread of `onProgramPl` does with the answer to `hardware/program_pl`. -/
def programPl (answer : Except String Json) : GuiM Unit := do
  let result ← answer
  -- the text is what `program_pl_error_` is set to, as in the `catch`
  if !(← result.value Json.getBool "ok" false) then throw (← result.value Json.getString "error" "Unknown error")
  modify fun g => { g with window.programPlError := "", window.programPlSuccess := true }

/-! ### The requests -/

/-- A request that goes through `submitSync`. -/
inductive GuiRequest where
  | loadBsdl
  | listPins (path : String)
  | sampleBsr
  | ilaProbe
  | ilaArm
  | ilaStop
  | ilaForce
  | ilaReset
  | ilaReadSamples
  | programPl

namespace GuiRequest

/-- How the daemon labels the job. -/
def label : GuiRequest → String
  | loadBsdl => "load_bsdl"
  | listPins _ => "list_pins"
  | sampleBsr => "hardware/sample_bsr"
  | ilaProbe => "ila/probe"
  | ilaArm => "ila/arm"
  | ilaStop => "ila/stop"
  | ilaForce => "ila/force_trigger"
  | ilaReset => "ila/reset"
  | ilaReadSamples => "ila/read_samples"
  | programPl => "hardware/program_pl"

/-- How many milliseconds the daemon waits for it. -/
def timeoutMs : GuiRequest → ℕ
  | loadBsdl | ilaProbe | ilaArm => 5000
  | listPins _ => 1000
  | sampleBsr => 2000
  | ilaStop | ilaForce | ilaReset => 3000
  | ilaReadSamples => 10000
  | programPl => 120000

/-- The body of the `try`. -/
def body : GuiRequest → Except String Json → GuiM Unit
  | loadBsdl => openBsdl
  | listPins path => openBsdlPins path
  | sampleBsr => refreshPinReadback
  | ilaProbe => pollCaps
  | ilaArm => doArm
  | ilaStop | ilaForce | ilaReset => doControl
  | ilaReadSamples => doRead
  | programPl => Gui.programPl

/-- The `catch`. -/
def onError : GuiRequest → String → GuiState → GuiState
  | loadBsdl, e, g | listPins _, e, g => { g with window.statusMessage := "BSDL load error: " ++ e }
  | sampleBsr, e, g => { g with window.pinReadbackError := e, window.statusMessage := "Readback failed: " ++ e }
  | ilaProbe, e, g => { g with panel := { g.panel with lastError := e }.resetSignalDefs }
  | ilaArm, e, g | ilaStop, e, g | ilaForce, e, g | ilaReset, e, g | ilaReadSamples, e, g =>
    { g with panel.lastError := e }
  | programPl, e, g => { g with window.programPlError := e, window.programPlSuccess := false }

/-- What follows in any case. -/
def after : GuiRequest → GuiState → GuiState
  | ilaReset, g => { g with panel.statusValid := false, panel.hasSamples := false }
  | _, g => g

/-- What the GUI does with the answer to a request. -/
def handle (r : GuiRequest) (answer : Except String Json) (g : GuiState) : GuiState :=
  match (r.body answer).run.run g with
  | (.ok (), g) => r.after g
  | (.error e, g) => r.after (r.onError e g)

/-- The GUI goes on as after a success. -/
def GoesOn (r : GuiRequest) (answer : Except String Json) (g : GuiState) : Prop :=
  ((r.body answer).run.run g).1 = .ok ()

/-- What the GUI shows after a success. -/
def Marked : GuiRequest → GuiState → Prop
  | loadBsdl, _ => True
  | listPins path, g => g.window.bsdlDeviceIndex = 0 ∧ g.window.bsdlPath = path
  | sampleBsr, g => g.window.pinReadbackError = ""
  | ilaProbe, g => g.panel.capsRemote.probed = true ∧ g.panel.lastError = ""
  | ilaArm, g => g.panel.lastError = "" ∧ g.panel.triggerDirty = false
  | ilaStop, g | ilaForce, g | ilaReset, g | ilaReadSamples, g => g.panel.lastError = ""
  | programPl, g => g.window.programPlError = "" ∧ g.window.programPlSuccess = true

end GuiRequest

/-- `onOpenBsdl`: the pins are asked for when nothing has been thrown. -/
def onOpenBsdl (path : String) (loaded listed : Except String Json) (g : GuiState) : GuiState :=
  match (GuiRequest.loadBsdl.body loaded).run.run g with
  | (.ok (), g) => (GuiRequest.listPins path).handle listed g
  | (.error e, g) => GuiRequest.loadBsdl.onError e g

end OwlTap.Gui
