import OwlTap.Jobs.HardwareExecutor

/-!
# The bridge to the executor

`ExecutorBridge::submitSync` submits a task, looks at the job every ten milliseconds until it is
over, and gives up when its time has passed: it then answers with the job's id. Between the steps
of such a call the executor may do anything that it can do.
-/

namespace OwlTap.Mcp

open OwlTap Jobs

/-- Where a call of `submitSync` is. -/
inductive SyncCall where
  /-- It has not been called. -/
  | uncalled
  /-- In `executor_.submit`. -/
  | submitting (call : ℕ)
  /-- Before the look at the job. -/
  | looking (handle deadline : ℕ)
  /-- Before the look at the clock. -/
  | timing (handle deadline : ℕ)
  /-- It has returned or thrown. -/
  | replied (reply : Except String Json)

/-- The job that a call waits for. -/
def SyncCall.handle? : SyncCall → Option ℕ
  | looking handle _ | timing handle _ => some handle
  | _ => none

/-- The executor, with a call of `submitSync`. -/
structure ExecutorBridge where
  executor : HardwareExecutor := .fresh
  call : SyncCall := .uncalled

/-- What can happen next. -/
inductive BridgeAction where
  /-- A step of the executor, which may be one of this call's in `executor_.submit`. -/
  | executor (a : Action)
  /-- The call, which looks whether the executor is running. -/
  | submitSync
  /-- `executor_.submit` returns or throws. -/
  | submitted (now : ℕ)
  /-- A look at the job. -/
  | snapshot
  /-- A look at the clock. -/
  | clock (now : ℕ)

/-- What a look at a job that is over leads to. -/
def syncReply (snap : Snapshot) : Option (Except String Json) :=
  match snap.state with
  | .complete => some (.ok (if snap.result = .null then .obj [] else snap.result))
  | .failed => some (.error (if snap.error = "" then "hardware task failed" else snap.error))
  | .cancelled => some (.error "job was cancelled")
  | .queued | .running => none

/-- The answer of a call whose time has passed. -/
def timeoutReply (id : String) : Json := .obj [("job_id", .str id)]

namespace ExecutorBridge

/-- One step of a call with a label that waits so many milliseconds; `none` when it cannot happen. -/
def step (label : String) (timeout : ℕ) (b : ExecutorBridge) : BridgeAction → Option ExecutorBridge
  | .executor a => (b.executor.step a).map fun executor => { b with executor }
  | .submitSync =>
    match b.call with
    | .uncalled =>
      (b.executor.step (.submit label)).map fun executor => ⟨executor, .submitting b.executor.submits.length⟩
    | _ => none
  | .submitted now =>
    match b.call with
    | .submitting call =>
      match b.executor.submits[call]? with
      | some (.returned handle) => some { b with call := .looking handle (now + timeout) }
      | some .refused => some { b with call := .replied (.error "HardwareExecutor is not running") }
      | _ => none
    | _ => none
  | .snapshot =>
    match b.call with
    | .looking handle deadline =>
      (b.executor.snapshot handle).map fun snap =>
        { b with call := (syncReply snap).elim (.timing handle deadline) .replied }
    | _ => none
  | .clock now =>
    match b.call with
    | .timing handle deadline =>
      if deadline ≤ now then
        (b.executor.jobs[handle]?).map fun job => { b with call := .replied (.ok (timeoutReply job.id)) }
      else some { b with call := .looking handle deadline }
    | _ => none

end ExecutorBridge

end OwlTap.Mcp
