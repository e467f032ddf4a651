import OwlTap.Base.Json
import OwlTap.Base.Steps

/-!
# The daemon process controller

`DaemonProcessController` starts the daemon as a child process, reads what it writes in two threads,
and stops it. One thread calls `start` and `stop` and destroys the object at the end; the steps are
the sections under its mutex and what the thread does with the reader threads. In between the
readers take the child's lines, and the child exits when it likes. The log is left out.
-/

namespace OwlTap.Gui

/-! ### The status -/

/-- How the daemon is. -/
inductive DaemonState where
  | off | starting | running | stopping | error
  deriving DecidableEq

/-- What the controller says of the daemon. -/
structure DaemonStatus where
  state : DaemonState := .off
  mcpPort : BitVec 16 := 0
  guiPort : BitVec 16 := 0
  errorMessage : String := ""

/-- An event that the daemon writes to its standard output. -/
inductive DaemonEvent where
  | ready (mcpPort guiPort : BitVec 16)
  | error (message : String)
  | stopped

/-- A port number. -/
def readPort (key : String) (j : Json) : Except String (BitVec 16) :=
  j.value (fun v => v.number.map (BitVec.ofInt 16)) key 0

/-- The event of a line, which is what it is parsed to; `none` for other text. What throws is ignored. -/
def DaemonEvent.ofLine (line : Option Json) : Option DaemonEvent := do
  let j ← line
  let evt ← (← j.get? "event").getString.toOption
  if evt = "ready" then
    let mcpP ← (readPort "mcp_port" j).toOption
    let guiP ← (readPort "gui_port" j).toOption
    return .ready mcpP guiP
  else if evt = "error" then
    return .error (← (j.value Json.getString "message" "daemon error").toOption)
  else if evt = "stopped" then return .stopped
  else none

/-! ### The controller -/

/-- A thread object. -/
inductive Thread where
  /-- It has no thread. -/
  | empty
  /-- Its thread runs. -/
  | live
  /-- Its thread has returned, and has not been joined. -/
  | finished
  deriving DecidableEq

/-- `joinable()`. -/
def Thread.Joinable (t : Thread) : Prop := t ≠ .empty

instance (t : Thread) : Decidable t.Joinable := inferInstanceAs (Decidable (_ ≠ _))

/-- Where the thread that uses the controller is. -/
inductive CallerPoint where
  /-- In no call. -/
  | idle
  /-- `start` has looked at the state; `dirty` says what it has found, and is not part of the code. -/
  | checked (dirty : Bool)
  /-- It has created the process. -/
  | created (dirty : Bool)
  /-- It has stored the handles. -/
  | stored
  /-- It has assigned the first reader thread. -/
  | assigned
  /-- `stop` has set the state. -/
  | joining
  /-- It has joined the first reader thread. -/
  | joinedReader
  /-- It has joined both. -/
  | joined
  /-- It has returned. -/
  | returned
  /-- The object has been destroyed. -/
  | destroyed
  deriving DecidableEq

/-- The controller. A handle is the number of the child that it belongs to. -/
structure Controller where
  status : DaemonStatus := {}
  readerThread : Thread := .empty
  stderrThread : Thread := .empty
  processHandle : Option ℕ := none
  stdoutRd : Option ℕ := none
  stderrRd : Option ℕ := none
  /-- How many children there have been. -/
  children : ℕ := 0
  /-- Whether the last one has exited. -/
  exited : Bool := true
  caller : CallerPoint := .idle
  /-- Whether the object is being destroyed. -/
  destroying : Bool := false
  /-- A thread object has been assigned or destroyed while it was joinable. -/
  terminated : Bool := false
  /-- A handle has been overwritten before it was closed; not part of the code. -/
  overwritten : Bool := false
  /-- The daemon has said that it has stopped, which has set the state to off; not part of the code. -/
  offByEvent : Bool := false
  /-- The ports of the current child's last ready event; not part of the code. -/
  ready : Option (BitVec 16 × BitVec 16) := none

/-- What can happen next. -/
inductive ControllerAction where
  /-- `start` is called, and looks at the state. -/
  | start
  /-- It creates the pipes and the process, or fails. -/
  | create (ok : Bool)
  /-- It stores the handles and sets the state. -/
  | store
  /-- It assigns the first reader thread. -/
  | assignReader
  /-- It assigns the second one, and returns. -/
  | assignStderr
  /-- `stop` is called, by the destructor or not, and looks at the state. -/
  | stop (destroying : Bool)
  /-- It joins the first reader thread. -/
  | joinReader
  /-- It joins the second one. -/
  | joinStderr
  /-- It closes the handles, sets the state and returns. -/
  | close
  /-- The thread objects are destroyed. -/
  | destruct
  /-- The child exits, by itself or because it has been told to. -/
  | exit
  /-- The first reader takes a line. -/
  | line (line : Option Json)
  /-- It comes to the end. -/
  | readerEof
  /-- The second reader comes to the end. -/
  | stderrEof

namespace Controller

def setReady (mcpP guiP : BitVec 16) (c : Controller) : Controller :=
  { c with status := { c.status with state := .running, mcpPort := mcpP, guiPort := guiP }, ready := some (mcpP, guiP) }

def setError (msg : String) (c : Controller) : Controller :=
  if c.status.state = .starting ∨ c.status.state = .running then
    { c with status := { c.status with state := .error, errorMessage := msg } }
  else c

def setOff (c : Controller) : Controller :=
  if c.status.state = .starting ∨ c.status.state = .running then
    { c with status := { c.status with state := .off, mcpPort := 0 }, offByEvent := true }
  else c

/-- What `readerThreadFn` does with a line. -/
def onLine (line : Option Json) (c : Controller) : Controller :=
  match DaemonEvent.ofLine line with
  | some (.ready mcpP guiP) => c.setReady mcpP guiP
  | some (.error message) => c.setError message
  | some .stopped => c.setOff
  | none => c

/-- The caller can call something. -/
def Free (c : Controller) : Prop := (c.caller = .idle ∨ c.caller = .returned) ∧ c.destroying = false

instance (c : Controller) : Decidable c.Free := inferInstanceAs (Decidable (_ ∧ _))

/-- The state that `start` finds was set to off neither at the beginning nor by `stop`. -/
def dirty (c : Controller) : Bool := c.status.state ≠ .off || c.offByEvent

/-- The sections of `start`. -/
def stepStart (c : Controller) : ControllerAction → Option Controller
  | .start =>
    if ¬c.Free then none
    else if c.status.state ≠ .off ∧ c.status.state ≠ .error then some { c with caller := .idle }
    else some { c with status.errorMessage := "", caller := .checked c.dirty }
  | .create ok =>
    match c.caller with
    | .checked dirty => some { c with caller := if ok then .created dirty else .idle }
    | _ => none
  | .store =>
    match c.caller with
    | .created _ =>
      some { c with
        processHandle := some c.children
        stdoutRd := some c.children
        stderrRd := some c.children
        children := c.children + 1
        exited := false
        status := { c.status with state := .starting, mcpPort := 0 }
        overwritten := c.overwritten || c.processHandle.isSome || c.stdoutRd.isSome || c.stderrRd.isSome
        ready := none
        caller := .stored }
    | _ => none
  | .assignReader =>
    if c.caller ≠ .stored then none
    else if c.readerThread.Joinable then some { c with terminated := true }
    else some { c with readerThread := .live, caller := .assigned }
  | .assignStderr =>
    if c.caller ≠ .assigned then none
    else if c.stderrThread.Joinable then some { c with terminated := true }
    else some { c with stderrThread := .live, caller := .idle }
  | _ => none

/-- The sections of `stop` and of the destructor. A thread that still runs cannot be joined yet. -/
def stepStop (c : Controller) : ControllerAction → Option Controller
  | .stop destroying =>
    if ¬c.Free then none
    else if c.status.state = .off ∨ c.status.state = .stopping then some { c with caller := .returned, destroying }
    else some { c with status.state := .stopping, caller := .joining, destroying }
  | .joinReader =>
    if c.caller ≠ .joining ∨ c.readerThread = .live then none
    else some { c with readerThread := .empty, caller := .joinedReader }
  | .joinStderr =>
    if c.caller ≠ .joinedReader ∨ c.stderrThread = .live then none
    else some { c with stderrThread := .empty, caller := .joined }
  | .close =>
    if c.caller ≠ .joined then none
    else
      some { c with
        processHandle := none
        stdoutRd := none
        stderrRd := none
        status := { c.status with state := .off, mcpPort := 0 }
        offByEvent := false
        caller := .returned }
  | .destruct =>
    if c.caller ≠ .returned ∨ c.destroying = false then none
    else if c.readerThread.Joinable ∨ c.stderrThread.Joinable then some { c with terminated := true }
    else some { c with caller := .destroyed }
  | _ => none

/-- What the child and the readers do. -/
def stepChild (c : Controller) : ControllerAction → Option Controller
  | .exit => if c.exited then none else some { c with exited := true }
  | .line line => if c.readerThread = .live then some (c.onLine line) else none
  | .readerEof =>
    if c.readerThread = .live ∧ c.exited then
      some { c.setError "daemon exited unexpectedly" with readerThread := .finished }
    else none
  | .stderrEof => if c.stderrThread = .live ∧ c.exited then some { c with stderrThread := .finished } else none
  | _ => none

/-- One step; `none` when it cannot happen. Nothing happens when the program has been terminated. -/
def step (c : Controller) (a : ControllerAction) : Option Controller :=
  if c.terminated then none
  else
    match a with
    | .start | .create _ | .store | .assignReader | .assignStderr => c.stepStart a
    | .stop _ | .joinReader | .joinStderr | .close | .destruct => c.stepStop a
    | .exit | .line _ | .readerEof | .stderrEof => c.stepChild a

end Controller

end OwlTap.Gui
