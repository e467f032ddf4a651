import OwlTap.Base.RingBuffer
import OwlTap.BoundaryScan.Scanner

/-!
# Capture sessions

A `CaptureSession` samples a device whenever its interval has elapsed, and keeps the last samples
in a ring buffer, until the buffer is full or, when it waits for a trigger, until enough samples
have followed the trigger. `steady_clock` is read as a number of microseconds. What part of the
buffer comes before the trigger is a product of floating-point numbers, so it is a parameter.
-/

namespace OwlTap.Capture

open OwlTap Bsdl Ftdi Jtag BoundaryScan

/-! ### Triggers -/

/-- Edge type for trigger conditions. -/
inductive TriggerEdge where
  | rising | falling | either
  deriving DecidableEq

/-- Trigger condition type. -/
inductive TriggerType where
  | edge | level
  deriving DecidableEq

/-- Operating mode for trigger. -/
inductive TriggerMode where
  | freeRun | single | normal
  deriving DecidableEq

/-- A single trigger condition. -/
structure TriggerCondition where
  pinName : Text
  type : TriggerType := .edge
  edge : TriggerEdge := .rising
  /-- For level triggers. -/
  level : PinState := .high

/-- Evaluates trigger conditions against sample data. -/
structure TriggerEngine where
  mode : TriggerMode := .freeRun
  conditions : List TriggerCondition := []
  triggered : Bool := false
  armed : Bool := false

namespace TriggerEngine

/-- Arm the trigger. -/
def arm (t : TriggerEngine) : TriggerEngine := { t with triggered := false, armed := true }

def evaluateEdge (cond : TriggerCondition) (prev curr : ScanResult) : Bool :=
  let prevState := prev.getPin cond.pinName
  let currState := curr.getPin cond.pinName
  if prevState = .unknown ∨ currState = .unknown then false
  else
    let rising := decide (prevState = .low ∧ currState = .high)
    let falling := decide (prevState = .high ∧ currState = .low)
    match cond.edge with
    | .rising => rising
    | .falling => falling
    | .either => rising || falling

def evaluateLevel (cond : TriggerCondition) (curr : ScanResult) : Bool := curr.getPin cond.pinName = cond.level

/-- Whether a condition is met. -/
def met (prev curr : ScanResult) (cond : TriggerCondition) : Bool :=
  match cond.type with
  | .edge => evaluateEdge cond prev curr
  | .level => evaluateLevel cond curr

/-- Evaluate trigger conditions against two consecutive scan results: all must be met. -/
def evaluate (t : TriggerEngine) (prev curr : ScanResult) : Bool × TriggerEngine :=
  if t.mode = .freeRun then (true, t)
  else if t.armed = false then (false, t)
  else if t.triggered ∧ t.mode = .single then (false, t)
  else if t.conditions = [] then (true, t)
  else if t.conditions.all (met prev curr) then (true, { t with triggered := true })
  else (false, t)

end TriggerEngine

/-! ### Sessions -/

/-- A sample. -/
structure SampleFrame where
  timestamp : ℕ := 0
  data : ScanResult := {}
  /-- True if trigger fired on this sample. -/
  triggerPoint : Bool := false

/-- Capture engine state. -/
inductive CaptureState where
  | stopped | running | waitingTrigger | triggered | complete
  deriving DecidableEq

/-- Capture state machine, driven by calls of `tick`. -/
structure CaptureSession where
  trigger : TriggerEngine := {}
  bufferDepth : ℕ := 10000
  sampleIntervalUs : ℕ := 1000
  buffer : List SampleFrame := []
  writePos : ℕ := 0
  count : ℕ := 0
  postTriggerRemaining : ℕ := 0
  state : CaptureState := .stopped
  nextSampleTime : ℕ := 0
  prevSample : ScanResult := {}
  hasPrev : Bool := false
  lastError : String := ""

namespace CaptureSession

def setBufferDepth (depth : ℕ) (cs : CaptureSession) : CaptureSession :=
  { cs with bufferDepth := if depth < 1 then 1 else depth }

def setSampleInterval (intervalUs : ℕ) (cs : CaptureSession) : CaptureSession :=
  { cs with sampleIntervalUs := if intervalUs < 100 then 100 else intervalUs }

/-- Arm and start capture. -/
def start (now : ℕ) (cs : CaptureSession) : CaptureSession :=
  { cs with
    buffer := cs.buffer.take cs.bufferDepth ++ List.replicate (cs.bufferDepth - cs.buffer.length) {}
    writePos := 0
    count := 0
    hasPrev := false
    lastError := ""
    trigger := cs.trigger.arm
    state := if cs.trigger.mode = .freeRun ∨ cs.trigger.mode = .single then .running else .waitingTrigger
    nextSampleTime := now }

/-- Stop capture immediately. -/
def stop (cs : CaptureSession) : CaptureSession := { cs with state := .stopped }

/-- Write a sample into the ring buffer. -/
def appendSample (stamp : ℕ) (result : ScanResult) (triggerPoint : Bool) (cs : CaptureSession) : CaptureSession :=
  let buffer := if cs.buffer = [] then List.replicate cs.bufferDepth {} else cs.buffer
  { cs with
    buffer := buffer.set cs.writePos ⟨stamp, result, triggerPoint⟩
    writePos := (cs.writePos + 1) % cs.bufferDepth
    count := if cs.count < cs.bufferDepth then cs.count + 1 else cs.count }

/-- `--post_trigger_remaining_`. -/
def decrement (cs : CaptureSession) : CaptureSession :=
  { cs with postTriggerRemaining := (cs.postTriggerRemaining + 2 ^ 64 - 1) % 2 ^ 64 }

/-- What a sample does. -/
def takeSample (preSamples : ℕ → ℕ) (stamp : ℕ) (result : ScanResult) (cs : CaptureSession) : CaptureSession :=
  let cs : CaptureSession := match cs.state with
    | .running =>
      if cs.trigger.mode = .single then { cs.appendSample stamp result false with state := .complete }
      else
        let cs := cs.appendSample stamp result false
        if cs.bufferDepth ≤ cs.count then { cs with state := .complete } else cs
    | .waitingTrigger =>
      let (fired, trigger) := if cs.hasPrev then cs.trigger.evaluate cs.prevSample result else (false, cs.trigger)
      let cs := { cs with trigger }
      if fired then
        -- how many samples to collect after the trigger
        let cs := { cs with postTriggerRemaining := (cs.bufferDepth + 2 ^ 64 - preSamples cs.bufferDepth) % 2 ^ 64 }
        let cs := (cs.appendSample stamp result true).decrement
        { cs with state := if 0 < cs.postTriggerRemaining then .triggered else .complete }
      else cs.appendSample stamp result false
    | .triggered =>
      let cs := cs.appendSample stamp result false
      let cs := if 0 < cs.postTriggerRemaining then cs.decrement else cs
      if cs.postTriggerRemaining = 0 then { cs with state := .complete } else cs
    | .stopped | .complete => cs
  { cs with prevSample := result, hasPrev := true }

/-- Take a sample if the interval has elapsed; whether one was taken. -/
def tick {σ : Type} (T : Target σ) (preSamples : ℕ → ℕ) (now stamp : ℕ) : Method (CaptureSession × Scanner σ) Bool :=
  fun (cs, sc) =>
    if cs.state = .stopped ∨ cs.state = .complete then some (false, cs, sc)
    else if now < cs.nextSampleTime then some (false, cs, sc)
    else
      let cs := { cs with nextSampleTime := now + cs.sampleIntervalUs }
      (Scanner.sample T sc).map fun (result, sc) =>
        if sc.lastError ≠ "" then (false, { cs with lastError := sc.lastError, state := .stopped }, sc)
        else (true, cs.takeSample preSamples stamp result, sc)

/-- The samples in the buffer, the oldest first. -/
def getSamples (cs : CaptureSession) : List SampleFrame :=
  if cs.count = 0 then []
  else if cs.count < cs.bufferDepth then cs.buffer.take cs.count
  else (List.range cs.bufferDepth).map fun i => cs.buffer.getD ((cs.writePos + i) % cs.bufferDepth) {}

/-! ### The ring buffer -/

/-- The trigger fires on a sample. -/
def fires (cs : CaptureSession) (result : ScanResult) : Bool :=
  cs.state = .waitingTrigger && cs.hasPrev && (cs.trigger.evaluate cs.prevSample result).1

/-- The samples taken are those in the buffer, except for those that have been overwritten. -/
structure Holds (cs : CaptureSession) (taken : List SampleFrame) : Prop where
  /-- There is a place for a sample. -/
  pos : 0 < cs.bufferDepth
  /-- The buffer has as many places as it is deep. -/
  length : cs.buffer.length = cs.bufferDepth
  /-- Where the next sample is written. -/
  writePos : cs.writePos = taken.length % cs.bufferDepth
  /-- How many samples there are. -/
  count : cs.count = min taken.length cs.bufferDepth
  /-- The last samples are where they were written. -/
  stored : ∀ j, taken.length ≤ j + cs.bufferDepth → j < taken.length →
    cs.buffer[j % cs.bufferDepth]? = taken[j]?

theorem Holds.ring {cs : CaptureSession} {taken : List SampleFrame} (h : cs.Holds taken) :
    RingBuffer.Keeps cs.bufferDepth cs.buffer taken := ⟨h.pos, h.length, h.stored⟩

theorem Holds.appendSample {cs : CaptureSession} {taken : List SampleFrame} (h : cs.Holds taken) (stamp : ℕ)
    (result : ScanResult) (triggerPoint : Bool) :
    (cs.appendSample stamp result triggerPoint).Holds (taken ++ [⟨stamp, result, triggerPoint⟩]) := by
  have hbuffer : cs.buffer ≠ [] := fun e => by
    have := h.length
    rw [e, List.length_nil] at this
    exact absurd this.symm h.pos.ne'
  have hlen : (taken ++ [(⟨stamp, result, triggerPoint⟩ : SampleFrame)]).length = taken.length + 1 := by
    rw [List.length_append, List.length_singleton]
  have hring := h.ring.write ⟨stamp, result, triggerPoint⟩
  rw [← h.writePos] at hring
  unfold CaptureSession.appendSample
  simp only [if_neg hbuffer]
  constructor
  case pos => exact h.pos
  case length => exact hring.length
  case writePos => rw [hlen, h.writePos, Nat.mod_add_mod]
  case count =>
    rw [hlen]
    show (if cs.count < cs.bufferDepth then cs.count + 1 else cs.count) = min (taken.length + 1) cs.bufferDepth
    have := h.count
    split <;> omega
  case stored => exact hring.stored

/-- The samples read are the last ones taken. -/
theorem Holds.getSamples {cs : CaptureSession} {taken : List SampleFrame} (h : cs.Holds taken) :
    cs.getSamples = taken.drop (taken.length - cs.bufferDepth) := by
  have hcount := h.count
  have hpos := h.pos
  unfold CaptureSession.getSamples
  by_cases hzero : cs.count = 0
  · have hnil : taken = [] := List.length_eq_zero_iff.mp (by omega)
    rw [if_pos hzero, hnil, List.drop_nil]
  rw [if_neg hzero]
  by_cases hfew : cs.count < cs.bufferDepth
  · have hall : cs.count = taken.length := by omega
    rw [if_pos hfew, hall, h.ring.take (by omega), show taken.length - cs.bufferDepth = 0 by omega, List.drop_zero]
  · rw [if_neg hfew, h.writePos]
    exact h.ring.readAll _ (by omega)

theorem Holds.congr {cs cs' : CaptureSession} {taken : List SampleFrame} (h : cs.Holds taken)
    (hd : cs'.bufferDepth = cs.bufferDepth) (hb : cs'.buffer = cs.buffer) (hw : cs'.writePos = cs.writePos)
    (hc : cs'.count = cs.count) : cs'.Holds taken where
  pos := hd ▸ h.pos
  length := by rw [hb, hd, h.length]
  writePos := by rw [hw, hd, h.writePos]
  count := by rw [hc, hd, h.count]
  stored := by rw [hb, hd]; exact h.stored

theorem holds_start {cs : CaptureSession} (h : 0 < cs.bufferDepth) (now : ℕ) : (cs.start now).Holds [] where
  pos := h
  length := by
    simp only [start, List.length_append, List.length_take, List.length_replicate]
    omega
  writePos := (Nat.zero_mod _).symm
  count := (Nat.zero_min _).symm
  stored _ _ hlt := absurd hlt (Nat.not_lt_zero _)

/-- What a sample leaves as an appended sample leaves it. -/
structure Appends (a b : CaptureSession) : Prop where
  depth : b.bufferDepth = a.bufferDepth
  buffer : b.buffer = a.buffer
  writePos : b.writePos = a.writePos
  count : b.count = a.count
  lastError : b.lastError = a.lastError
  running : b.state ≠ .stopped

/-- A session that goes on appends the sample, and does not stop. -/
theorem takeSample_spec {cs : CaptureSession} (hstop : cs.state ≠ .stopped) (hcomplete : cs.state ≠ .complete)
    (preSamples : ℕ → ℕ) (stamp : ℕ) (result : ScanResult) :
    Appends (cs.appendSample stamp result (cs.fires result)) (cs.takeSample preSamples stamp result) := by
  cases hs : cs.state with
  | stopped => exact absurd hs hstop
  | complete => exact absurd hs hcomplete
  | running =>
    have hfires : cs.fires result = false := by
      unfold fires
      rw [hs]
      rfl
    rw [hfires]
    unfold takeSample
    simp only [hs]
    split
    · exact ⟨rfl, rfl, rfl, rfl, rfl, nofun⟩
    · split
      · exact ⟨rfl, rfl, rfl, rfl, rfl, nofun⟩
      · exact ⟨rfl, rfl, rfl, rfl, rfl, hstop⟩
  | waitingTrigger =>
    have hfires : cs.fires result =
        (if cs.hasPrev then cs.trigger.evaluate cs.prevSample result else (false, cs.trigger)).1 := by
      unfold fires
      rw [hs]
      cases cs.hasPrev <;> rfl
    rw [hfires]
    unfold takeSample
    simp only [hs]
    generalize (if cs.hasPrev then cs.trigger.evaluate cs.prevSample result else (false, cs.trigger)) = p
    cases p.1 with
    | false => exact ⟨rfl, rfl, rfl, rfl, rfl, nofun⟩
    | true =>
      refine ⟨rfl, rfl, rfl, rfl, rfl, ?_⟩
      rw [if_pos rfl]
      dsimp only
      split <;> exact nofun
  | triggered =>
    have hfires : cs.fires result = false := by
      unfold fires
      rw [hs]
      rfl
    rw [hfires]
    unfold takeSample
    simp only [hs]
    split
    · split
      · exact ⟨rfl, rfl, rfl, rfl, rfl, nofun⟩
      · exact ⟨rfl, rfl, rfl, rfl, rfl, hstop⟩
    · split
      · exact ⟨rfl, rfl, rfl, rfl, rfl, nofun⟩
      · exact ⟨rfl, rfl, rfl, rfl, rfl, hstop⟩

variable {σ : Type} {T : Target σ} {preSamples : ℕ → ℕ} {now stamp : ℕ} {cs cs' : CaptureSession} {sc sc' : Scanner σ}
  {took : Bool}

/-- What a tick does: nothing, or a sample that fails or one that is appended. -/
theorem tick_cases (ht : tick T preSamples now stamp (cs, sc) = some (took, cs', sc')) :
    took = false ∧ cs' = cs ∨
    took = false ∧ (∃ next error, cs' = { cs with nextSampleTime := next, lastError := error, state := .stopped }) ∨
    took = true ∧ cs.state ≠ .stopped ∧ ∃ next, Appends
      ({ cs with nextSampleTime := next }.appendSample stamp cs'.prevSample (cs.fires cs'.prevSample)) cs' := by
  unfold CaptureSession.tick at ht
  simp only at ht
  split at ht
  · obtain ⟨rfl, rfl, -⟩ := ht
    exact .inl ⟨rfl, rfl⟩
  case isFalse hrun =>
  obtain ⟨hstop, hcomplete⟩ := not_or.mp hrun
  split at ht
  · obtain ⟨rfl, rfl, -⟩ := ht
    exact .inl ⟨rfl, rfl⟩
  obtain ⟨⟨result, sc₁⟩, -, ht⟩ := Option.map_eq_some_iff.mp ht
  dsimp only at ht
  split at ht
  · obtain ⟨rfl, rfl, -⟩ := ht
    exact .inr (.inl ⟨rfl, _, _, rfl⟩)
  · obtain ⟨rfl, rfl, -⟩ := ht
    have hstop' : { cs with nextSampleTime := now + cs.sampleIntervalUs }.state ≠ .stopped := hstop
    exact .inr (.inr ⟨rfl, hstop, _, takeSample_spec hstop' hcomplete preSamples stamp result⟩)

/-- A tick that takes no sample leaves the buffer as it is; what it takes is appended. -/
theorem Holds.tick {taken : List SampleFrame} (h : cs.Holds taken)
    (ht : tick T preSamples now stamp (cs, sc) = some (took, cs', sc')) :
    cs'.Holds (if took then taken ++ [⟨stamp, cs'.prevSample, cs.fires cs'.prevSample⟩] else taken) := by
  obtain ⟨rfl, rfl⟩ | ⟨rfl, next, error, rfl⟩ | ⟨rfl, -, next, happ⟩ := tick_cases ht
  · exact h
  · exact h.congr rfl rfl rfl rfl
  · have h' : ({ cs with nextSampleTime := next } : CaptureSession).Holds taken := h.congr rfl rfl rfl rfl
    exact (h'.appendSample stamp cs'.prevSample _).congr happ.depth happ.buffer happ.writePos happ.count

/-- A session with an error is stopped. -/
theorem stopped_of_tick (h : cs.lastError ≠ "" → cs.state = .stopped)
    (ht : tick T preSamples now stamp (cs, sc) = some (took, cs', sc')) :
    cs'.lastError ≠ "" → cs'.state = .stopped := by
  obtain ⟨-, rfl⟩ | ⟨-, next, error, rfl⟩ | ⟨-, hstop, next, happ⟩ := tick_cases ht
  · exact h
  · exact fun _ => rfl
  · rw [happ.lastError]
    exact fun e => absurd (h e) hstop

end CaptureSession

end OwlTap.Capture
