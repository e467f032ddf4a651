import Mathlib.Data.List.AList
import OwlTap.Base.Json
import OwlTap.Base.Steps
import OwlTap.Hardware.HardwareExecutor

/-!
# The executor, section by section

`OwlTap.Hardware.HardwareExecutor` takes what a thread does to the hardware as one step. Here the
steps are the sections of the code that no other thread can come between: the clients' calls of
`submit`, `tryCancel`, `requestCancel` and `shutdown`, and what the worker does with the queue and
with the job that it runs. Any of them can come next. What the task does to the hardware is left
out; it may report progress, and it ends as it likes.
-/

namespace OwlTap.Jobs

open OwlTap.Hardware (JobState)

/-! ### Jobs -/

/-- How a task ends. -/
inductive Ending where
  /-- It returns a result. -/
  | returned (result : Json)
  /-- It throws an exception. -/
  | threw (what : String)
  /-- It throws something else. -/
  | threwUnknown

/-- The error of a task that has failed. -/
def Ending.error : Ending → Option String
  | .returned _ => none
  | .threw what => some what
  | .threwUnknown => some "unknown exception in hardware task"

/-- A job. -/
structure HardwareJob where
  /-- Its id. -/
  id : String
  /-- A name for people. -/
  label : String := ""
  /-- How far it is. -/
  state : JobState := .queued
  /-- What its task has reported last. -/
  progress : Json := .null
  /-- Its result. -/
  result : Json := .null
  /-- Its error. -/
  error : String := ""
  /-- Whether a client wants it cancelled. -/
  cancelRequested : Bool := false
  /-- How its task has ended; not part of the code. -/
  ended : Option Ending := none

/-- What a client sees of a job. -/
structure Snapshot where
  id : String
  state : JobState
  progress : Json
  result : Json
  error : String

namespace HardwareJob

def setState (job : HardwareJob) (state : JobState) : HardwareJob := { job with state }

def setProgress (job : HardwareJob) (progress : Json) : HardwareJob := { job with progress }

def setResult (job : HardwareJob) (result : Json) : HardwareJob := { job with result }

def setError (job : HardwareJob) (error : String) : HardwareJob := { job with error }

def requestCancel (job : HardwareJob) : HardwareJob := { job with cancelRequested := true }

def snapshot (job : HardwareJob) : Snapshot := ⟨job.id, job.state, job.progress, job.result, job.error⟩

end HardwareJob

/-- The name of a state. -/
def jobStateName : JobState → String
  | .queued => "queued"
  | .running => "running"
  | .complete => "complete"
  | .failed => "failed"
  | .cancelled => "cancelled"

/-- A snapshot, as it is sent to a client. -/
def snapshotToJson (snap : Snapshot) : Json :=
  .obj ([("job_id", .str snap.id), ("state", .str (jobStateName snap.state))] ++
    (if snap.progress = .null then [] else [("progress", snap.progress)]) ++
    (if snap.result = .null then [] else [("result", snap.result)]) ++
    (if snap.error = "" then [] else [("error", .str snap.error)]))

/-! ### The worker -/

/-- Where the worker is in its loop. -/
inductive Worker where
  /-- At the queue. -/
  | waiting
  /-- It has taken a job from the queue. -/
  | taken (handle : ℕ)
  /-- The job was cancelled before it started. -/
  | skipping (handle : ℕ)
  /-- The job is to be run. -/
  | starting (handle : ℕ)
  /-- In the task. -/
  | executing (handle : ℕ)
  /-- The task has returned. -/
  | returned (handle : ℕ) (result : Json)
  /-- The task has returned, but the job was cancelled. -/
  | cancelling (handle : ℕ)
  /-- The result is to be kept. -/
  | storing (handle : ℕ) (result : Json)
  /-- The result has been kept. -/
  | completing (handle : ℕ)
  /-- The task has thrown. -/
  | failing (handle : ℕ) (what : String)
  /-- The error has been kept. -/
  | reporting (handle : ℕ)
  /-- It has left the loop. -/
  | left

/-- A section of the worker's that concerns the job it has taken. -/
inductive WorkerAction where
  /-- Look whether the job is cancelled. -/
  | check
  /-- Set the state to running and begin the task. -/
  | begin
  /-- The task reports progress. -/
  | progress (p : Json)
  /-- The task ends. -/
  | finish (ending : Ending)
  /-- Keep the result or the error. -/
  | store
  /-- Set the last state. -/
  | settle

/-- The jobs begun by a section that concerns this one. -/
def WorkerAction.begins : WorkerAction → ℕ → List ℕ
  | .begin, h => [h]
  | _, _ => []

/-- The jobs that the worker is through with after it. -/
def WorkerAction.settles : WorkerAction → ℕ → List ℕ
  | .settle, h => [h]
  | _, _ => []

namespace Worker

/-- The job that it has taken. -/
def handle? : Worker → Option ℕ
  | waiting | left => none
  | taken h | skipping h | starting h | executing h | returned h _ | cancelling h | storing h _ | completing h
  | failing h _ | reporting h => some h

/-- Where the worker goes, and what becomes of its job. -/
def work : Worker → WorkerAction → HardwareJob → Option (Worker × HardwareJob)
  | taken h, .check, job => some (if job.cancelRequested then skipping h else starting h, job)
  | skipping _, .settle, job => some (waiting, job.setState .cancelled)
  | starting h, .begin, job => some (executing h, job.setState .running)
  | executing h, .progress p, job => some (executing h, job.setProgress p)
  | executing h, .finish (.returned result), job =>
    some (returned h result, { job with ended := some (.returned result) })
  | executing h, .finish (.threw what), job => some (failing h what, { job with ended := some (.threw what) })
  | executing h, .finish .threwUnknown, job =>
    some (failing h "unknown exception in hardware task", { job with ended := some .threwUnknown })
  | returned h result, .check, job => some (if job.cancelRequested then cancelling h else storing h result, job)
  | cancelling _, .settle, job => some (waiting, job.setState .cancelled)
  | storing h result, .store, job => some (completing h, job.setResult result)
  | completing _, .settle, job => some (waiting, job.setState .complete)
  | failing h what, .store, job => some (reporting h, job.setError what)
  | reporting _, .settle, job => some (waiting, job.setState .failed)
  | _, _, _ => none

end Worker

/-! ### The executor -/

/-- Where a client is in a call of `submit`. -/
inductive SubmitCall where
  /-- The executor was running. -/
  | checked (label : String)
  /-- The job has been registered. -/
  | registered (handle : ℕ)
  /-- The job has been put in the queue, and the call returns. -/
  | returned (handle : ℕ)
  /-- The executor was not running: the call throws. -/
  | refused

/-- Where a client is in its call of `shutdown`. -/
inductive ShutdownCall where
  /-- It has not been called. -/
  | uncalled
  /-- The executor was running. -/
  | checked
  /-- The flag is set. -/
  | flagged
  /-- The worker has been joined. -/
  | joined
  /-- The call has returned. -/
  | returned
  deriving DecidableEq

/-- The executor and the calls on it. A job's handle is its place in `jobs`, a call's its place in `submits`. -/
structure HardwareExecutor where
  /-- Whether jobs are accepted. -/
  running : Bool
  /-- Whether the worker is to stop. -/
  stopFlag : Bool := false
  /-- The jobs to run, first one first. -/
  queue : List ℕ := []
  /-- The jobs by id. -/
  jobRegistry : AList fun _ : String => ℕ := ∅
  /-- The worker. -/
  worker : Worker
  /-- All jobs. -/
  jobs : List HardwareJob := []
  /-- The calls of `submit`. -/
  submits : List SubmitCall := []
  /-- The call of `shutdown`. -/
  shutdownCall : ShutdownCall := .uncalled
  /-- The jobs that have been put in the queue, in order; not part of the code. -/
  enqueued : List ℕ := []
  /-- The jobs whose task has been begun, in order; not part of the code. -/
  started : List ℕ := []
  /-- The jobs that the worker is through with; not part of the code. -/
  settled : List ℕ := []

/-- What can happen next. -/
inductive Action where
  /-- A client calls `submit`, which looks whether the executor is running. -/
  | submit (label : String)
  /-- Such a call makes a job with a new id and registers it. -/
  | register (call : ℕ) (id : String)
  /-- It puts the job in the queue. -/
  | enqueue (call : ℕ)
  /-- A client wants a job cancelled. -/
  | requestCancel (handle : ℕ)
  /-- The same by the job's id. -/
  | tryCancel (id : String)
  /-- The worker takes the first job of the queue. -/
  | pop
  /-- The worker goes on with its job. -/
  | work (action : WorkerAction)
  /-- The worker leaves its loop. -/
  | leave
  /-- A client calls `shutdown`, which looks whether the executor is running. -/
  | shutdown
  /-- It sets the flag. -/
  | setStopFlag
  /-- It joins the worker. -/
  | join
  /-- It clears `running`, and returns. -/
  | clearRunning

namespace HardwareExecutor

/-- The worker has been started. -/
def fresh : HardwareExecutor := { running := true, worker := .waiting }

/-- `handle->snapshot()`. -/
def snapshot (x : HardwareExecutor) (handle : ℕ) : Option Snapshot := (x.jobs[handle]?).map HardwareJob.snapshot

/-- The snapshot of the job with an id. -/
def poll (x : HardwareExecutor) (id : String) : Option Snapshot := (x.jobRegistry.lookup id).bind x.snapshot

/-- Cancel a job. -/
def requestCancel (x : HardwareExecutor) (handle : ℕ) : HardwareExecutor :=
  { x with jobs := x.jobs.modify handle HardwareJob.requestCancel }

/-- The worker goes on with its job. -/
def work (x : HardwareExecutor) (a : WorkerAction) : Option HardwareExecutor :=
  x.worker.handle?.bind fun h => (x.jobs[h]?).bind fun job => (x.worker.work a job).map fun (worker, job) =>
    { x with
      worker
      jobs := x.jobs.set h job
      started := x.started ++ a.begins h
      settled := x.settled ++ a.settles h }

/-- One step; `none` when it cannot happen. -/
def step (x : HardwareExecutor) : Action → Option HardwareExecutor
  | .submit label =>
    some { x with submits := x.submits ++ [if x.running then .checked label else .refused] }
  | .register call id =>
    match x.submits[call]? with
    | some (.checked label) =>
      if ∃ job ∈ x.jobs, job.id = id then none
      else
        some { x with
          jobs := x.jobs ++ [{ id, label }]
          jobRegistry := x.jobRegistry.insert id x.jobs.length
          submits := x.submits.set call (.registered x.jobs.length) }
    | _ => none
  | .enqueue call =>
    match x.submits[call]? with
    | some (.registered handle) =>
      some { x with
        queue := x.queue ++ [handle]
        submits := x.submits.set call (.returned handle)
        enqueued := x.enqueued ++ [handle] }
    | _ => none
  | .requestCancel handle => some (x.requestCancel handle)
  | .tryCancel id =>
    match x.jobRegistry.lookup id with
    | some handle => some (x.requestCancel handle)
    | none => some x
  | .pop =>
    match x.worker, x.queue with
    | .waiting, handle :: queue => some { x with queue, worker := .taken handle }
    | _, _ => none
  | .work a => x.work a
  | .leave =>
    match x.worker, x.queue with
    | .waiting, [] => if x.stopFlag then some { x with worker := .left } else none
    | _, _ => none
  | .shutdown =>
    if x.shutdownCall = .uncalled then
      some { x with shutdownCall := if x.running then .checked else .returned }
    else none
  | .setStopFlag =>
    if x.shutdownCall = .checked then some { x with stopFlag := true, shutdownCall := .flagged } else none
  | .join =>
    match x.shutdownCall, x.worker with
    | .flagged, .left => some { x with shutdownCall := .joined }
    | _, _ => none
  | .clearRunning =>
    if x.shutdownCall = .joined then some { x with running := false, shutdownCall := .returned } else none

end HardwareExecutor

end OwlTap.Jobs
