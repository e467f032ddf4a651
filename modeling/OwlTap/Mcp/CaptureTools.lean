import OwlTap.Jobs.HardwareExecutor
import OwlTap.Mcp.PinTools

/-!
# The capture tools

`capture_start` submits a task that runs a capture session until it is complete or the job is to
be cancelled, `capture_stop` wants the job cancelled, and `get_samples` returns a snapshot of it.
The steps are the sections of the worker's and of the task's code between which `capture_stop` can
come. Opening the hardware, finding the scanner or making room for the samples may fail.
-/

namespace OwlTap.Mcp

open OwlTap Bsdl Ftdi Jtag BoundaryScan Capture Jobs

/-! ### Samples as they are sent -/

def scanResultToJson (r : ScanResult) : Json :=
  .obj (r.pinStates.entries.map fun e => (String.ofList e.1, .str (pinStateStr e.2)))

def rawBsrToJson (rawBsr : List Byte) : Json := .arr (rawBsr.map fun byte => .int byte.toNat)

/-- One item of `samplesToJson`. -/
def frameToJson (f : SampleFrame) : Json :=
  .obj [("timestamp_us", .int f.timestamp), ("trigger_point", .bool f.triggerPoint), ("pins", scanResultToJson f.data),
    ("raw_bsr", rawBsrToJson f.data.rawBsr)]

def samplesToJson (frames : List SampleFrame) : Json := .arr (frames.map frameToJson)

/-- `static_cast<int>(n)`, as a value. -/
def intToJson (n : ℕ) : Json := .int (BitVec.ofNat 32 n).toInt

/-! ### The task -/

/-- What `capture_start` has read from its parameters. -/
structure CaptureParams where
  devIdx : ℤ
  bufDepth : ℤ := 1000
  interval : ℤ := 1000
  tmode : TriggerMode := .freeRun
  pinFilter : List Text := []

/-- Where the task is in its loop. -/
inductive LoopPoint where
  /-- At the condition of the loop. -/
  | looking
  /-- Before the tick. -/
  | ticking
  /-- Before the report. -/
  | reporting
  /-- The loop has ended. -/
  | ended
  deriving DecidableEq

/-- The task of `capture_start`. -/
structure CaptureTask (σ : Type) where
  /-- `cs`. -/
  session : CaptureSession
  /-- `sc`. -/
  scanner : Scanner σ
  lastReportedCount : ℕ := 0
  /-- Where it is. -/
  point : LoopPoint := .looking
  /-- Whether the loop has seen that the job is to be cancelled; not part of the code. -/
  stopped : Bool := false
  /-- Whether the last tick has taken a sample; not part of the code. -/
  fresh : Bool := false
  /-- The samples taken; not part of the code. -/
  taken : List SampleFrame := []

namespace CaptureTask

variable {σ : Type}

/-- What comes before the loop. -/
def begin (p : CaptureParams) (now : ℕ) (scanner : Scanner σ) : CaptureTask σ :=
  let cs : CaptureSession := {}
  let cs := cs.setBufferDepth (p.bufDepth % 2 ^ 64).toNat
  let cs := cs.setSampleInterval (p.interval % 2 ^ 32).toNat
  let cs := { cs with trigger.mode := p.tmode }
  { session := cs.start now, scanner := scanner.setDecodeFilter p.pinFilter }

/-- The condition of the loop, and whether the job is to be cancelled. -/
def look (cancelRequested : Bool) (t : CaptureTask σ) : Option (CaptureTask σ) :=
  if t.point ≠ .looking then none
  else if t.session.state = .complete ∨ t.session.state = .stopped then some { t with point := .ended }
  else if cancelRequested then some { t with session := t.session.stop, point := .ended, stopped := true }
  else some { t with point := .ticking }

/-- The tick. -/
def tick (T : Target σ) (preSamples : ℕ → ℕ) (now stamp : ℕ) (t : CaptureTask σ) : Option (CaptureTask σ) :=
  if t.point ≠ .ticking then none
  else
    (CaptureSession.tick T preSamples now stamp (t.session, t.scanner)).map fun (took, session, scanner) =>
      { t with
        session
        scanner
        point := .reporting
        fresh := took
        taken :=
          if took then t.taken ++ [⟨stamp, session.prevSample, t.session.fires session.prevSample⟩] else t.taken }

/-- `kProgressBatchSize`. -/
def kProgressBatchSize : ℕ := 20

/-- Whether the samples are reported. -/
def reports (t : CaptureTask σ) : Prop :=
  t.lastReportedCount + kProgressBatchSize ≤ t.session.count ∨ 0 < t.session.count ∧ t.lastReportedCount = 0

instance (t : CaptureTask σ) : Decidable t.reports := inferInstanceAs (Decidable (_ ∨ _))

/-- The report of progress. -/
def report (t : CaptureTask σ) : Option (Json × CaptureTask σ) :=
  let n := t.session.count
  if t.point ≠ .reporting then none
  else if t.reports then
    some (.obj [("state", .str "capturing"), ("count", intToJson n), ("samples", samplesToJson t.session.getSamples)],
      { t with lastReportedCount := n, point := .looking })
  else some (.obj [("state", .str "capturing"), ("count", intToJson n)], { t with point := .looking })

/-- What comes after the loop. -/
def ending (p : CaptureParams) (t : CaptureTask σ) : Option Ending :=
  if t.point ≠ .ended then none
  else if t.session.lastError ≠ "" then some (.threw t.session.lastError)
  else
    some (.returned (.obj [("device_index", .int p.devIdx), ("sample_count", intToJson t.session.count),
      ("samples", samplesToJson t.session.getSamples)]))

end CaptureTask

/-! ### The job -/

/-- The worker with a job of `capture_start`. -/
structure CaptureJob (σ : Type) where
  worker : Worker
  job : HardwareJob
  /-- The task, once it is in its loop. -/
  task : Option (CaptureTask σ) := none

/-- What can happen next. -/
inductive CaptureAction (σ : Type) where
  /-- `capture_stop`. -/
  | requestCancel
  /-- The worker begins the task, which finds the scanner or throws. -/
  | begin (now : ℕ) (found : Except String (Scanner σ))
  /-- The task looks whether to go on. -/
  | look
  /-- The task ticks. -/
  | tick (now stamp : ℕ)
  /-- The task reports progress. -/
  | report
  /-- The task ends. -/
  | finish
  /-- The worker looks whether the job is cancelled. -/
  | check
  /-- The worker keeps the result or the error. -/
  | store
  /-- The worker sets the last state. -/
  | settle

namespace CaptureJob

variable {σ : Type}

/-- The worker has taken the job from the queue. -/
def taken (handle : ℕ) (id : String) : CaptureJob σ :=
  { worker := .taken handle, job := { id, label := "capture_start" } }

/-- The worker goes on with the job. -/
def work (a : WorkerAction) (s : CaptureJob σ) : Option (CaptureJob σ) :=
  (s.worker.work a s.job).map fun (worker, job) => { s with worker, job }

/-- One step; `none` when it cannot happen. -/
def step (T : Target σ) (preSamples : ℕ → ℕ) (p : CaptureParams) (s : CaptureJob σ) :
    CaptureAction σ → Option (CaptureJob σ)
  | .requestCancel => some { s with job := s.job.requestCancel }
  | .begin now found =>
    (s.work .begin).bind fun s =>
      match found with
      | .error what => s.work (.finish (.threw what))
      | .ok scanner => some { s with task := some (.begin p now scanner) }
  | .look => (s.task.bind (CaptureTask.look s.job.cancelRequested)).map fun t => { s with task := some t }
  | .tick now stamp => (s.task.bind (CaptureTask.tick T preSamples now stamp)).map fun t => { s with task := some t }
  | .report =>
    (s.task.bind CaptureTask.report).bind fun (progress, t) => { s with task := some t }.work (.progress progress)
  | .finish => (s.task.bind (CaptureTask.ending p)).bind fun ending => s.work (.finish ending)
  | .check => s.work .check
  | .store => s.work .store
  | .settle => s.work .settle

/-- What `get_samples` returns. -/
def getSamples (s : CaptureJob σ) : Json := snapshotToJson s.job.snapshot

end CaptureJob

/-- The samples in an object that has them. -/
def samplesOf (j : Option Json) : List Json := ((j.bind (Json.get? "samples")).elim [] Json.items)

/-- The samples in a reply of `get_samples`: those of the result and those of the progress. -/
def samplesIn (reply : Json) : List Json := samplesOf (reply.get? "result") ++ samplesOf (reply.get? "progress")

end OwlTap.Mcp
