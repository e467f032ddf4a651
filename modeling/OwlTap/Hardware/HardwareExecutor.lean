import OwlTap.Hardware.HardwareContext
import OwlTap.Jtag.FailedScans

/-!
# The hardware executor

One worker thread runs the tasks of a queue, one after the other, on a `HardwareContext`. It
opens the device when a task needs it, and closes it when the queue has been empty for a while,
so that other processes can have it; what they do to the TAP meanwhile is the environment's
choice. A task may make any calls on the controller.
-/

namespace OwlTap.Hardware

open OwlTap Ftdi Jtag

/-! ### Jobs -/

/-- The state of a job. -/
inductive JobState where
  | queued | running | complete | failed | cancelled
  deriving DecidableEq, Repr

/-- A job, as its clients see it. -/
structure HardwareJob where
  /-- Its id. -/
  id : String
  /-- A name for people. -/
  label : String
  /-- How far it is. -/
  state : JobState := .queued
  /-- The result, as JSON text. -/
  result : Option String := none
  /-- The error, if it failed. -/
  error : String := ""
  /-- Whether a client wants it cancelled. -/
  cancelRequested : Bool := false

/-- How a task ends. -/
inductive Ending where
  /-- It returns a result. -/
  | returned (result : String)
  /-- It throws an exception. -/
  | threw (what : String)
  /-- It throws something else. -/
  | threwUnknown

/-- The job of a task that has ended. -/
def HardwareJob.end (job : HardwareJob) : Ending → HardwareJob
  | .returned result =>
    if job.cancelRequested then { job with state := .cancelled }
    else { job with result := some result, state := .complete }
  | .threw what => { job with error := what, state := .failed }
  | .threwUnknown => { job with error := "unknown exception in hardware task", state := .failed }

/-! ### The executor -/

/-- What the worker thread is doing. -/
inductive Worker where
  /-- There is none. -/
  | absent
  /-- It waits for a job. -/
  | waiting
  /-- It runs the task of a job. -/
  | executing (handle : ℕ)
  deriving DecidableEq

/-- The single-threaded hardware execution queue. A job's handle is its place in `jobs`. -/
structure HardwareExecutor (σ : Type) where
  /-- The hardware. -/
  context : HardwareContext σ
  /-- Whether jobs are accepted. -/
  running : Bool := false
  /-- Whether the worker is to stop. -/
  stopFlag : Bool := false
  /-- The worker. -/
  worker : Worker := .absent
  /-- All jobs ever submitted. -/
  jobs : List HardwareJob := []
  /-- The jobs to run, first one first. -/
  queue : List ℕ := []
  /-- The jobs by id. -/
  jobRegistry : AList fun _ : String => ℕ := ∅
  /-- Close the device when there have been no jobs for so many milliseconds; 0 means never. -/
  idleCloseTimeout : ℕ := 0

/-- What can happen next. -/
inductive Action where
  /-- A client opens the hardware and starts the worker. -/
  | start (w : D2xx) (outcomes : List Outcome)
  /-- A client starts the worker. -/
  | startWorker
  /-- A client submits a task. -/
  | submit (id label : String)
  /-- A client wants a job cancelled. -/
  | tryCancel (id : String)
  /-- A client asks the worker to stop, and waits for it. -/
  | shutdown
  /-- The worker has stopped. -/
  | joined
  /-- The worker has waited long enough. -/
  | idle
  /-- The worker takes the first job. -/
  | take (w : D2xx) (outcomes : List Outcome)
  /-- The task makes a call on the controller. -/
  | call (call : Call) (outcomes : List Outcome)
  /-- The task ends. -/
  | finish (ending : Ending)
  /-- The worker leaves its loop. -/
  | exit
  /-- Another process clocks the hardware. -/
  | foreign (pins : List Pins)

namespace HardwareExecutor

variable {σ : Type} (T : Target σ)

/-- An executor fresh from its constructor, for a link to the given hardware. -/
def new (config : AppConfig) (link : Link σ) (idleCloseTimeout : ℕ) : HardwareExecutor σ :=
  { context := .new config link, idleCloseTimeout }

/-- `context_->open()`, with what the USB does to its transfers. -/
def openContext (x : HardwareExecutor σ) (w : D2xx) (outcomes : List Outcome) :
    Option (String × HardwareExecutor σ) :=
  ((x.context.setTap (x.context.tap.withOutcomes outcomes)).open T w).map fun (err, context) =>
    (err, { x with context })

/-- Change a job. -/
def setJob (x : HardwareExecutor σ) (handle : ℕ) (f : HardwareJob → HardwareJob) : HardwareExecutor σ :=
  { x with jobs := x.jobs.modify handle f }

/-- Whether a client wants the job cancelled. -/
def isCancelRequested (x : HardwareExecutor σ) (handle : ℕ) : Bool :=
  (x.jobs[handle]?).any HardwareJob.cancelRequested

/-- Run a job: open the hardware if need be, and begin the task. -/
def begin (x : HardwareExecutor σ) (handle : ℕ) (w : D2xx) (outcomes : List Outcome) : Option (HardwareExecutor σ) :=
  let x := x.setJob handle fun job => { job with state := .running }
  if x.context.isOpen then some { x with worker := .executing handle }
  else
    (x.openContext T w outcomes).map fun (openErr, x) =>
      if openErr ≠ "" then x.setJob handle fun job => job.end (.threw ("hardware open failed: " ++ openErr))
      else { x with worker := .executing handle }

/-- One step; `none` when it cannot happen. -/
def step (x : HardwareExecutor σ) : Action → Option (HardwareExecutor σ)
  | .start w outcomes =>
    if x.running then some x
    else
      (x.openContext T w outcomes).map fun (err, x) =>
        if err ≠ "" then x else { x with stopFlag := false, worker := .waiting, running := true }
  | .startWorker =>
    if x.running then some x else some { x with stopFlag := false, worker := .waiting, running := true }
  | .submit id label =>
    if x.running then
      some { x with
        jobs := x.jobs ++ [{ id, label }]
        queue := x.queue ++ [x.jobs.length]
        jobRegistry := x.jobRegistry.insert id x.jobs.length }
    else some x
  | .tryCancel id =>
    match x.jobRegistry.lookup id with
    | none => some x
    | some handle => some (x.setJob handle fun job => { job with cancelRequested := true })
  | .shutdown => if x.running then some { x with stopFlag := true } else some x
  | .joined =>
    if x.running ∧ x.stopFlag ∧ x.worker = .absent then some { x with running := false, context := x.context.close }
    else none
  | .idle =>
    if x.worker = .waiting ∧ 0 < x.idleCloseTimeout ∧ x.queue = [] ∧ x.stopFlag = false then
      some (if x.context.isOpen then { x with context := x.context.close } else x)
    else none
  | .take w outcomes =>
    match x.worker, x.queue with
    | .waiting, handle :: queue =>
      let x := { x with queue }
      if x.isCancelRequested handle then some (x.setJob handle fun job => { job with state := .cancelled })
      else x.begin T handle w outcomes
    | _, _ => none
  | .call call outcomes =>
    match x.worker with
    | .executing _ =>
      (call.exec T (x.context.tap.withOutcomes outcomes)).map fun (_, tap) =>
        { x with context := x.context.setTap tap }
    | _ => none
  | .finish ending =>
    match x.worker with
    | .executing handle => some { x.setJob handle (·.end ending) with worker := .waiting }
    | _ => none
  | .exit => if x.worker = .waiting ∧ x.stopFlag ∧ x.queue = [] then some { x with worker := .absent } else none
  | .foreign pins =>
    if x.context.isOpen then none
    else
      let link := x.context.ftdi.link
      some { x with
        context := x.context.setFtdi { x.context.ftdi with link := { link with port := link.port.run T pins } } }

end HardwareExecutor

/-- One step of a run. -/
structure Turn (σ : Type) where
  /-- Before. -/
  before : HardwareExecutor σ
  /-- What happens. -/
  action : Action
  /-- After. -/
  after : HardwareExecutor σ

/-- A run, in any order of the steps that can happen. -/
inductive Turns {σ : Type} (T : Target σ) : HardwareExecutor σ → List (Turn σ) → Prop where
  /-- Nothing happens. -/
  | nil (x : HardwareExecutor σ) : Turns T x []
  /-- A step, and a run from there. -/
  | cons {t : Turn σ} {turns : List (Turn σ)} :
      t.before.step T t.action = some t.after → Turns T t.after turns → Turns T t.before (t :: turns)

/-- The run in which these things happen in this order. -/
def HardwareExecutor.perform {σ : Type} (T : Target σ) : HardwareExecutor σ → List Action → Option (List (Turn σ))
  | _, [] => some []
  | x, a :: actions => (x.step T a).bind fun y => (y.perform T actions).map (⟨x, a, y⟩ :: ·)

theorem HardwareExecutor.map_action_perform {σ : Type} {T : Target σ} {x : HardwareExecutor σ} {actions : List Action}
    {turns : List (Turn σ)} (h : x.perform T actions = some turns) : turns.map Turn.action = actions := by
  induction actions generalizing x turns with
  | nil =>
    obtain rfl := Option.some.inj h
    rfl
  | cons a actions ih =>
    obtain ⟨y, -, h⟩ := Option.bind_eq_some_iff.mp h
    obtain ⟨rest, hrest, rfl⟩ := Option.map_eq_some_iff.mp h
    rw [List.map_cons, ih hrest]

theorem Turns.of_perform {σ : Type} {T : Target σ} {x : HardwareExecutor σ} {actions : List Action}
    {turns : List (Turn σ)} (h : x.perform T actions = some turns) : Turns T x turns := by
  induction actions generalizing x turns with
  | nil =>
    obtain rfl := Option.some.inj h
    exact .nil x
  | cons a actions ih =>
    obtain ⟨y, hstep, h⟩ := Option.bind_eq_some_iff.mp h
    obtain ⟨rest, hrest, rfl⟩ := Option.map_eq_some_iff.mp h
    exact .cons (t := ⟨x, a, y⟩) hstep (ih hrest)

end OwlTap.Hardware
