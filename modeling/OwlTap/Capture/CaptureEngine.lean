import OwlTap.Base.RingBuffer
import OwlTap.Capture.CaptureSession

/-!
# The capture engine

A `CaptureEngine` captures in a thread of its own: a loop samples, looks whether the trigger fires,
and stores a frame in the ring buffer, which is guarded by a lock. A client polls for what is new,
with a counter of its own, at any time between the sections that hold the lock. How many samples
follow a trigger is a product of floating-point numbers, so it is a parameter. The callback and the
sample rate are left out.
-/

namespace OwlTap.Capture

open OwlTap Bsdl BoundaryScan

/-- Periodically reads pin states and stores them in a ring buffer. -/
structure CaptureEngine where
  trigger : TriggerEngine := {}
  bufferDepth : {n : ℕ // 100 ≤ n} := ⟨10000, by decide⟩
  buffer : List SampleFrame := []
  writePos : ℕ := 0
  count : ℕ := 0
  /-- Monotonic write counter. -/
  totalWritten : ℕ := 0
  postTriggerRemaining : ℕ := 0
  state : CaptureState := .stopped
  lastError : String := ""

namespace CaptureEngine

/-- Set the buffer depth while stopped. -/
def setBufferDepth (depth : ℕ) (e : CaptureEngine) : CaptureEngine :=
  if e.state ≠ .stopped then e else { e with bufferDepth := ⟨max depth 100, Nat.le_max_right _ _⟩ }

/-- Start capturing. -/
def start (ready : Bool) (e : CaptureEngine) : Bool × CaptureEngine :=
  if e.state ≠ .stopped then (false, { e with lastError := "Capture already running" })
  else if ready = false then (false, { e with lastError := "Scanner not ready" })
  else
    (true, { e with
      buffer := e.buffer.take e.bufferDepth ++ List.replicate (e.bufferDepth - e.buffer.length) {}
      writePos := 0
      count := 0
      totalWritten := 0
      trigger := e.trigger.arm
      state := if e.trigger.mode = .freeRun ∨ e.trigger.mode = .single then .running else .waitingTrigger })

/-- The loop, when it has stopped. -/
def stop (e : CaptureEngine) : CaptureEngine := { e with state := .stopped }

/-- Clear all captured samples while stopped. -/
def clearSamples (e : CaptureEngine) : CaptureEngine :=
  if e.state ≠ .stopped then e
  else { e with writePos := 0, count := 0, totalWritten := 0, postTriggerRemaining := 0 }

/-- Evaluate the trigger; how many samples follow it is fixed when it fires. -/
def judge (postSamples : ℕ → ℕ) (prevResult : Option ScanResult) (result : ScanResult) (e : CaptureEngine) :
    Bool × CaptureEngine :=
  let (fired, trigger) := match e.state, prevResult with
    | .waitingTrigger, some prev => e.trigger.evaluate prev result
    | _, _ => (false, e.trigger)
  (fired,
    if fired then { e with trigger, state := .triggered, postTriggerRemaining := postSamples e.bufferDepth }
    else { e with trigger })

/-- Count down after the trigger, and re-arm it for the next time. -/
def countDown (e : CaptureEngine) : CaptureEngine :=
  if e.state = .triggered then
    if e.postTriggerRemaining = 0 then { e with trigger := e.trigger.arm, state := .waitingTrigger }
    else { e with postTriggerRemaining := e.postTriggerRemaining - 1 }
  else e

/-- Store a frame in the ring buffer. -/
def writeFrame (frame : SampleFrame) (e : CaptureEngine) : CaptureEngine :=
  { e with
    buffer := e.buffer.set e.writePos frame
    writePos := (e.writePos + 1) % e.buffer.length
    count := if e.count < e.buffer.length then e.count + 1 else e.count
    totalWritten := e.totalWritten + 1 }

/-- All captured samples. -/
def getSamples (e : CaptureEngine) : List SampleFrame :=
  if e.count < e.buffer.length then e.buffer.take e.count
  else (List.range e.buffer.length).map fun i => e.buffer.getD ((e.writePos + i) % e.buffer.length) {}

/-- The samples written since the last call, and how many have been written by now. -/
def getNewSamples (lastTotal : ℕ) (e : CaptureEngine) : List SampleFrame × ℕ :=
  if e.totalWritten ≤ lastTotal then ([], lastTotal)
  else
    let newCount := e.totalWritten - lastTotal
    -- the ring has wrapped since the last call: a full copy
    if e.buffer.length < newCount then
      ((List.range e.buffer.length).map fun i => e.buffer.getD ((e.writePos + i) % e.buffer.length) {}, e.totalWritten)
    else
      ((List.range newCount).map fun i => e.buffer.getD ((lastTotal + i) % e.buffer.length) {}, e.totalWritten)

/-- The most recent sample. -/
def getLatestSample (e : CaptureEngine) : SampleFrame :=
  if e.count = 0 then {}
  else e.buffer.getD (if e.writePos = 0 then e.buffer.length - 1 else e.writePos - 1) {}

end CaptureEngine

/-! ### The capture loop -/

/-- Where the loop is. -/
inductive LoopPoint where
  /-- Before a sample. -/
  | sampling
  /-- Before the section that stores the frame of a sample that was judged in the given state. -/
  | storing (frame : SampleFrame) (current : CaptureState)
  /-- It has been left. -/
  | left

/-- The thread. -/
structure CaptureLoop where
  engine : CaptureEngine
  /-- The sample before, if there is one. -/
  prevResult : Option ScanResult := none
  point : LoopPoint := .sampling

namespace CaptureLoop

/-- A sample and what the trigger makes of it. -/
def sample (postSamples : ℕ → ℕ) (stamp : ℕ) (result : ScanResult) (l : CaptureLoop) : Option CaptureLoop :=
  match l.point with
  | .sampling =>
    let (fired, e) := l.engine.judge postSamples l.prevResult result
    if e.state = .triggered ∧ e.postTriggerRemaining = 0 ∧ e.trigger.mode = .single then
      -- stop the capture
      some { l with engine := { e with state := .complete }, point := .left }
    else
      some { engine := e.countDown, prevResult := some result, point := .storing ⟨stamp, result, fired⟩ e.state }
  | _ => none

/-- Store the frame; a snapshot ends the loop. -/
def store (l : CaptureLoop) : Option (SampleFrame × CaptureLoop) :=
  match l.point with
  | .storing frame current =>
    let e := l.engine.writeFrame frame
    some (frame,
      if e.trigger.mode = .single ∧ current = .running then
        { l with engine := { e with state := .complete }, point := .left }
      else { l with engine := e, point := .sampling })
  | _ => none

end CaptureLoop

/-! ### A run with a client -/

/-- A run of the engine since its start, with a client that polls: the frames written, how many there
were at each poll, what the polls returned, and the client's counter. -/
inductive Polled (postSamples : ℕ → ℕ) :
    List SampleFrame → List ℕ → List SampleFrame → ℕ → CaptureLoop → Prop where
  /-- The engine is started. -/
  | start {e e' : CaptureEngine} {ready : Bool} : e.start ready = (true, e') →
      Polled postSamples [] [] [] 0 { engine := e' }
  /-- The loop takes a sample. -/
  | sample {written received : List SampleFrame} {polls : List ℕ} {lastTotal stamp : ℕ} {result : ScanResult}
      {l l' : CaptureLoop} : Polled postSamples written polls received lastTotal l →
      l.sample postSamples stamp result = some l' → Polled postSamples written polls received lastTotal l'
  /-- The loop stores a frame. -/
  | store {written received : List SampleFrame} {polls : List ℕ} {lastTotal : ℕ} {frame : SampleFrame}
      {l l' : CaptureLoop} : Polled postSamples written polls received lastTotal l →
      l.store = some (frame, l') → Polled postSamples (written ++ [frame]) polls received lastTotal l'
  /-- The client polls. -/
  | poll {written received new : List SampleFrame} {polls : List ℕ} {lastTotal total : ℕ} {l : CaptureLoop} :
      Polled postSamples written polls received lastTotal l → l.engine.getNewSamples lastTotal = (new, total) →
      Polled postSamples written (polls ++ [written.length]) (received ++ new) total l

/-- The `i`-th frame is there for the first poll that comes after it: of the frames written by then, it
is among the last, as many as the ring has places. -/
def inTime (size : ℕ) (polls : List ℕ) (i : ℕ) : Bool :=
  match polls.find? (i < ·) with
  | some total => total ≤ i + size
  | none => false

namespace CaptureEngine

/-! ### The ring buffer -/

/-- The engine's ring has the last of the frames written, and its counters agree with them. -/
structure Holds (e : CaptureEngine) (written : List SampleFrame) : Prop where
  ring : RingBuffer.Keeps e.bufferDepth e.buffer written
  writePos : e.writePos = written.length % e.bufferDepth
  count : e.count = min written.length e.bufferDepth
  total : e.totalWritten = written.length

theorem holds_start {e e' : CaptureEngine} {ready : Bool} (h : e.start ready = (true, e')) : e'.Holds [] := by
  unfold start at h
  split at h
  · cases h
  split at h
  · cases h
  · obtain ⟨-, rfl⟩ := Prod.mk.inj h
    have hpos : 0 < (e.bufferDepth : ℕ) := lt_of_lt_of_le (by decide) e.bufferDepth.property
    refine ⟨.nil hpos ?_, (Nat.zero_mod _).symm, (Nat.zero_min _).symm, rfl⟩
    simp only [List.length_append, List.length_take, List.length_replicate]
    omega

variable {e e' : CaptureEngine} {written : List SampleFrame}

theorem Holds.writeFrame (h : e.Holds written) (frame : SampleFrame) :
    (e.writeFrame frame).Holds (written ++ [frame]) := by
  have hlen : (written ++ [frame]).length = written.length + 1 := by rw [List.length_append, List.length_singleton]
  constructor
  case ring =>
    have := h.ring.write frame
    rwa [← h.writePos] at this
  case writePos =>
    show (e.writePos + 1) % e.buffer.length = _ % (e.bufferDepth : ℕ)
    rw [hlen, h.writePos, h.ring.length, Nat.mod_add_mod]
  case count =>
    show (if e.count < e.buffer.length then e.count + 1 else e.count) = min _ (e.bufferDepth : ℕ)
    have := h.count
    rw [hlen, h.ring.length]
    split <;> omega
  case total =>
    show e.totalWritten + 1 = _
    rw [hlen, h.total]

/-- What the ring does not depend on may change. -/
theorem Holds.congr (h : e.Holds written) (hd : e'.bufferDepth = e.bufferDepth) (hb : e'.buffer = e.buffer)
    (hw : e'.writePos = e.writePos) (hc : e'.count = e.count) (ht : e'.totalWritten = e.totalWritten) :
    e'.Holds written where
  ring := by rw [hd, hb]; exact h.ring
  writePos := by rw [hw, hd, h.writePos]
  count := by rw [hc, hd, h.count]
  total := ht.trans h.total

/-- The samples are the last ones written. -/
theorem Holds.getSamples (h : e.Holds written) :
    e.getSamples = written.drop (written.length - e.bufferDepth) := by
  have hcount := h.count
  unfold CaptureEngine.getSamples
  rw [h.ring.length, h.writePos]
  split
  · have hall : e.count = written.length := by omega
    rw [hall, h.ring.take (by omega), Nat.sub_eq_zero_of_le (by omega), List.drop_zero]
  · exact h.ring.readAll _ (by omega)

/-- A poll returns what has been written since the last one and has not been overwritten. -/
theorem Holds.getNewSamples (h : e.Holds written) {lastTotal : ℕ} (hl : lastTotal ≤ written.length) :
    e.getNewSamples lastTotal =
      (written.drop (max lastTotal (written.length - e.bufferDepth)), written.length) := by
  have hdepth := h.ring.pos
  unfold CaptureEngine.getNewSamples
  rw [h.total, h.ring.length, h.writePos]
  dsimp only
  split
  · obtain rfl : lastTotal = written.length := by omega
    rw [max_eq_left (Nat.sub_le _ _), List.drop_length]
  split
  · rw [h.ring.readAll _ (by omega), max_eq_right (by omega)]
  · rw [h.ring.read _ (Nat.add_sub_cancel' hl) (by omega), max_eq_left (by omega)]

/-- The latest sample is the last one written. -/
theorem Holds.getLatestSample (h : e.Holds written) (hne : written ≠ []) :
    some e.getLatestSample = written.getLast? := by
  have hpos : 0 < written.length := List.length_pos_iff.mpr hne
  have hdepth := h.ring.pos
  have hlast := h.ring.last hne
  unfold CaptureEngine.getLatestSample
  rw [if_neg (by rw [h.count]; omega), h.ring.length, h.writePos, List.getD_eq_getElem?_getD, hlast]
  cases hw : written.getLast? with
  | none => exact absurd (List.getLast?_eq_none_iff.mp hw) hne
  | some frame => rfl

end CaptureEngine

/-! ### What the client has received -/

theorem filterMap_range_congr {α : Type} {f g : ℕ → Option α} {n : ℕ} (h : ∀ i < n, f i = g i) :
    (List.range n).filterMap f = (List.range n).filterMap g :=
  List.filterMap_congr fun i hi => h i (List.mem_range.mp hi)

/-- The elements of a list from an index on. -/
theorem filterMap_range_drop {α : Type} (l : List α) (m : ℕ) :
    ((List.range l.length).filterMap fun i => if m ≤ i then l[i]? else none) = l.drop m := by
  induction l using List.reverseRecOn with
  | nil => simp
  | append_singleton l x ih =>
    have hold : ((List.range l.length).filterMap fun i => if m ≤ i then (l ++ [x])[i]? else none) = l.drop m := by
      rw [← ih]
      refine filterMap_range_congr fun i hi => ?_
      rw [List.getElem?_append_left hi]
    rw [List.length_append, List.length_singleton, List.range_succ, List.filterMap_append, hold, List.filterMap_cons,
      List.filterMap_nil, List.getElem?_concat_length]
    by_cases hm : m ≤ l.length
    · rw [if_pos hm, List.drop_append_of_le_length hm]
    · rw [if_neg hm, List.drop_eq_nil_of_le (by omega), List.drop_eq_nil_of_le (by simp; omega)]
      rfl

/-- What is left out before an index comes before what is left out from there on. -/
theorem filterMap_range_split {α : Type} (f g : ℕ → Option α) {n m : ℕ} (hm : m ≤ n) :
    ((List.range n).filterMap fun i => if i < m then f i else g i) =
      (List.range m).filterMap f ++ (List.range n).filterMap fun i => if m ≤ i then g i else none := by
  obtain ⟨k, rfl⟩ := Nat.exists_eq_add_of_le hm
  have hlow : ((List.range m).filterMap fun i => if m ≤ i then g i else none) = [] := by
    refine List.filterMap_eq_nil_iff.mpr fun i hi => ?_
    rw [if_neg (Nat.not_le_of_lt (List.mem_range.mp hi))]
  rw [List.range_add, List.filterMap_append, List.filterMap_append, hlow, List.nil_append, List.filterMap_map,
    List.filterMap_map]
  congr 1
  · exact filterMap_range_congr fun i hi => if_pos hi
  · refine filterMap_range_congr fun i _ => ?_
    simp only [Function.comp, if_neg (Nat.not_lt_of_le (Nat.le_add_right m i)), if_pos (Nat.le_add_right m i)]

/-- The frames that were in time for the polls so far. -/
def delivered (size : ℕ) (polls : List ℕ) (written : List SampleFrame) : List SampleFrame :=
  (List.range written.length).filterMap fun i => if inTime size polls i then written[i]? else none

/-- A frame that is written after the last poll has not been delivered. -/
theorem delivered_write {size : ℕ} {polls : List ℕ} {written : List SampleFrame} (hpolls : ∀ t ∈ polls, t ≤ written.length)
    (frame : SampleFrame) : delivered size polls (written ++ [frame]) = delivered size polls written := by
  have hnot : inTime size polls written.length = false := by
    unfold inTime
    rw [List.find?_eq_none.mpr fun t ht => by simpa using hpolls t ht]
  unfold delivered
  rw [List.length_append, List.length_singleton, List.range_succ, List.filterMap_append, List.filterMap_cons, hnot]
  simp only [Bool.false_eq_true, if_false, List.filterMap_nil, List.append_nil]
  refine filterMap_range_congr fun i hi => ?_
  rw [List.getElem?_append_left hi]

/-- The last poll. -/
def lastPoll (polls : List ℕ) : ℕ := polls.getLast?.getD 0

/-- A poll delivers the frames since the last one that have not been overwritten. -/
theorem delivered_poll {size : ℕ} {polls : List ℕ} {written : List SampleFrame} (hpolls : ∀ t ∈ polls, t ≤ lastPoll polls)
    (hlast : lastPoll polls ≤ written.length) :
    delivered size (polls ++ [written.length]) written =
      delivered size polls written ++ written.drop (max (lastPoll polls) (written.length - size)) := by
  have hbefore : ∀ i < lastPoll polls, inTime size (polls ++ [written.length]) i = inTime size polls i := by
    intro i hi
    have hmem : lastPoll polls ∈ polls := by
      unfold lastPoll at hi ⊢
      cases hget : polls.getLast? with
      | none => rw [hget] at hi; exact absurd hi (Nat.not_lt_zero _)
      | some t => exact List.mem_of_getLast? hget
    have hsome : (polls.find? (i < ·)).isSome := List.find?_isSome.mpr ⟨_, hmem, by simpa using hi⟩
    obtain ⟨t, ht⟩ := Option.isSome_iff_exists.mp hsome
    unfold inTime
    rw [List.find?_append, ht]
    rfl
  have hnone : ∀ i, lastPoll polls ≤ i → polls.find? (i < ·) = none := fun i hi =>
    List.find?_eq_none.mpr fun t ht => by simpa using (hpolls t ht).trans hi
  have hold : delivered size polls written = (List.range (lastPoll polls)).filterMap fun i =>
      if inTime size polls i then written[i]? else none := by
    have hsplit := filterMap_range_split (fun i => if inTime size polls i then written[i]? else none)
      (fun _ => none) hlast
    simp only [ite_self, List.filterMap_none, List.append_nil] at hsplit
    rw [← hsplit]
    refine filterMap_range_congr fun i _ => ?_
    by_cases hi : i < lastPoll polls
    · rw [if_pos hi]
    · have hnot : inTime size polls i = false := by
        unfold inTime
        rw [hnone i (Nat.le_of_not_lt hi)]
      rw [if_neg hi, hnot]
      rfl
  have hnew : delivered size (polls ++ [written.length]) written = (List.range written.length).filterMap fun i =>
      if i < lastPoll polls then (if inTime size polls i then written[i]? else none)
      else if written.length ≤ i + size then written[i]? else none := by
    refine filterMap_range_congr fun i hi => ?_
    by_cases hl : i < lastPoll polls
    · rw [if_pos hl, hbefore i hl]
    · rw [if_neg hl]
      have hfirst : [written.length].find? (i < ·) = some written.length := by simpa using hi
      unfold inTime
      rw [List.find?_append, hnone i (Nat.le_of_not_lt hl), Option.none_or, hfirst]
      simp
  rw [hnew, filterMap_range_split _ _ hlast, ← hold, ← filterMap_range_drop]
  congr 1
  refine filterMap_range_congr fun i _ => ?_
  by_cases h₁ : lastPoll polls ≤ i
  · by_cases h₂ : written.length ≤ i + size
    · rw [if_pos h₁, if_pos h₂, if_pos (by omega)]
    · rw [if_pos h₁, if_neg h₂, if_neg (by omega)]
  · rw [if_neg h₁, if_neg (by omega)]

/-! ### The run -/

namespace CaptureLoop

variable {postSamples : ℕ → ℕ} {stamp : ℕ} {result : ScanResult} {l l' : CaptureLoop} {written : List SampleFrame}

/-- Sampling and judging leave the ring and its size alone. -/
theorem holds_sample (h : l.engine.Holds written) (hs : l.sample postSamples stamp result = some l') :
    l'.engine.Holds written ∧ l'.engine.bufferDepth = l.engine.bufferDepth := by
  have hjudge : ∀ prev, (l.engine.judge postSamples prev result).2.Holds written ∧
      (l.engine.judge postSamples prev result).2.bufferDepth = l.engine.bufferDepth := by
    intro prev
    unfold CaptureEngine.judge
    dsimp only
    generalize (match l.engine.state, prev with
      | .waitingTrigger, some p => l.engine.trigger.evaluate p result
      | _, _ => (false, l.engine.trigger)) = fired
    split <;> exact ⟨h.congr rfl rfl rfl rfl rfl, rfl⟩
  have hcount : ∀ e : CaptureEngine, e.Holds written → e.countDown.Holds written ∧ e.countDown.bufferDepth = e.bufferDepth := by
    intro e he
    unfold CaptureEngine.countDown
    split
    · split <;> exact ⟨he.congr rfl rfl rfl rfl rfl, rfl⟩
    · exact ⟨he, rfl⟩
  unfold sample at hs
  split at hs
  · dsimp only at hs
    split at hs
    · obtain rfl := Option.some.inj hs
      exact ⟨(hjudge _).1.congr rfl rfl rfl rfl rfl, (hjudge _).2⟩
    · obtain rfl := Option.some.inj hs
      exact ⟨(hcount _ (hjudge _).1).1, (hcount _ (hjudge _).1).2.trans (hjudge _).2⟩
  · cases hs

/-- Storing a frame leaves the size of the ring alone. -/
theorem holds_store {frame : SampleFrame} (h : l.engine.Holds written) (hs : l.store = some (frame, l')) :
    l'.engine.Holds (written ++ [frame]) ∧ l'.engine.bufferDepth = l.engine.bufferDepth := by
  unfold store at hs
  split at hs
  · obtain ⟨rfl, rfl⟩ := Prod.mk.inj (Option.some.inj hs)
    split
    · exact ⟨(h.writeFrame _).congr rfl rfl rfl rfl rfl, rfl⟩
    · exact ⟨h.writeFrame _, rfl⟩
  · cases hs

end CaptureLoop

variable {postSamples : ℕ → ℕ} {written received : List SampleFrame} {polls : List ℕ} {lastTotal : ℕ} {l : CaptureLoop}

theorem Polled.holds (h : Polled postSamples written polls received lastTotal l) : l.engine.Holds written := by
  induction h with
  | start hs => exact CaptureEngine.holds_start hs
  | sample _ hs ih => exact (CaptureLoop.holds_sample ih hs).1
  | store _ hs ih => exact (CaptureLoop.holds_store ih hs).1
  | poll _ _ ih => exact ih

/-- The client's counter is the number of frames at its last poll. -/
theorem Polled.polls_le (h : Polled postSamples written polls received lastTotal l) :
    lastTotal = lastPoll polls ∧ lastTotal ≤ written.length ∧ ∀ t ∈ polls, t ≤ lastTotal := by
  induction h with
  | start => exact ⟨rfl, Nat.zero_le _, nofun⟩
  | sample _ _ ih => exact ih
  | store _ _ ih =>
    refine ⟨ih.1, ih.2.1.trans ?_, ih.2.2⟩
    rw [List.length_append]
    exact Nat.le_add_right _ _
  | poll hrun hp ih =>
    rw [hrun.holds.getNewSamples ih.2.1] at hp
    obtain ⟨-, rfl⟩ := Prod.mk.inj hp
    refine ⟨?_, le_refl _, fun t ht => ?_⟩
    · rw [lastPoll, List.getLast?_concat, Option.getD_some]
    · rcases List.mem_append.mp ht with ht | ht
      · exact (ih.2.2 t ht).trans ih.2.1
      · exact (List.mem_singleton.mp ht).le

theorem Polled.received_eq (h : Polled postSamples written polls received lastTotal l) :
    received = delivered l.engine.bufferDepth polls written := by
  induction h with
  | start => rfl
  | sample hrun hs ih => rw [(CaptureLoop.holds_sample hrun.holds hs).2, ih]
  | store hrun hs ih =>
    obtain ⟨-, hle, hpolls⟩ := hrun.polls_le
    rw [(CaptureLoop.holds_store hrun.holds hs).2, ih, delivered_write fun t ht => (hpolls t ht).trans hle]
  | poll hrun hp ih =>
    obtain ⟨hlast, hle, hpolls⟩ := hrun.polls_le
    rw [hrun.holds.getNewSamples hle, hlast] at hp
    obtain ⟨rfl, -⟩ := Prod.mk.inj hp
    rw [ih, delivered_poll (fun t ht => hlast ▸ hpolls t ht) (hlast ▸ hle)]

/-- At every moment of a run the polls have returned, in order, the frames that were in time for them:
each frame once, unless it had been overwritten at the first poll after it; the client's counter is the
number of frames written when it polled last; a poll with the counter 0 returns all samples; and
the position and the count of the ring follow from the number of frames written. -/
theorem polls_complete (h : Polled postSamples written polls received lastTotal l) :
    (received = (List.range written.length).filterMap fun i =>
      if inTime l.engine.buffer.length polls i then written[i]? else none) ∧
    lastTotal = polls.getLast?.getD 0 ∧ (l.engine.getNewSamples 0).1 = l.engine.getSamples ∧
    l.engine.totalWritten = written.length ∧ l.engine.writePos = l.engine.totalWritten % l.engine.buffer.length ∧
    l.engine.count = min l.engine.totalWritten l.engine.buffer.length := by
  have hholds := h.holds
  have hlen := hholds.ring.length
  refine ⟨?_, h.polls_le.1, ?_, hholds.total, ?_, ?_⟩
  · rw [hlen]
    exact h.received_eq
  · rw [hholds.getNewSamples (Nat.zero_le _), hholds.getSamples, Nat.zero_max]
  · rw [hlen, hholds.total, hholds.writePos]
  · rw [hlen, hholds.total, hholds.count]

/-- One frame, and a poll after it. -/
theorem one_frame_polled : ∃ frame received l, Polled id [frame] [1] received 1 l ∧ received = [frame] := by
  have hstarts : ({} : CaptureEngine).start true = (true, (({} : CaptureEngine).start true).2) := rfl
  have hstart : Polled id [] [] [] 0 { engine := (({} : CaptureEngine).start true).2 } := .start hstarts
  have hsample := hstart.sample (show CaptureLoop.sample id 0 {} _ = some _ from rfl)
  obtain ⟨frame, l, hstore⟩ : ∃ frame l, Polled id [frame] [] [] 0 l := ⟨_, _, hsample.store rfl⟩
  have hrun := hstore.poll (hstore.holds.getNewSamples (Nat.zero_le _))
  refine ⟨frame, _, l, hrun, ?_⟩
  rw [(polls_complete hrun).1]
  have hlen := hrun.holds.ring.length
  have hpos := hrun.holds.ring.pos
  simp [inTime, hlen, Nat.one_le_iff_ne_zero, hpos.ne']

end OwlTap.Capture
