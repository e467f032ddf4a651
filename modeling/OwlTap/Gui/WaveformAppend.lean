import OwlTap.Gui.WaveformView
import Mathlib.Tactic.Linarith
import Mathlib.Tactic.Ring

/-!
# The waveform that grows

After a run of appended samples a view is to be what `setData` makes of the cached samples, up to one
shift of all times (`Agrees`). The lanes always are (`Shows.append`). The marker is if and only if at each call
the first trigger among the cached samples is not evicted, or the next one that is left has its time, and, where
none is cached and buses alone are shown, no trigger arrives (`throughout_iff`).
-/

namespace OwlTap.Gui

open OwlTap Bsdl BoundaryScan Capture

/-! ### What is shown -/

/-- A view shows samples, with their times after a first one. -/
structure Shows (signals : List Text) (buses : List BusDefinition) (t0 : ℕ) (samples : List SampleFrame)
    (v : WaveformView) : Prop where
  lanes : v.lanes = (selected signals buses).map (Shown.fill v.signalAliases t0 samples)
  start : v.t0 = t0
  laneSignals : v.laneSignals = signals
  laneBusNames : v.laneBusNames = buses.map (·.name)
  still : v.autoScroll = false

/-- Times are moved. -/
def SignalLane.shift (s : ℚ) (lane : SignalLane) : SignalLane := { lane with times := lane.times.map (· + s) }

/-- A view is what `setData` makes of the cached samples, up to one shift of all times. -/
def Agrees (signals : List Text) (buses : List BusDefinition) (s : Refresh) : Prop :=
  ∃ shift : ℚ, s.view.lanes = (s.view.setData signals buses s.cachedSamples).lanes.map (SignalLane.shift shift) ∧
    s.view.trigger.shown = (s.view.setData signals buses s.cachedSamples).trigger.shown.map (· + shift)

variable {signals : List Text} {buses : List BusDefinition} {aliases : AList fun _ : Text => Text} {t0 : ℕ}

/-! ### One lane -/

/-- A lane is built from samples of which none is clipped, and the first trigger among them is seen. -/
theorem buildSamples {clip : ℚ} (item : Shown) (done rest : List SampleFrame) (start : ℕ) (mark : TriggerMark)
    (hclip : ∀ frame ∈ rest, ¬usAfter t0 frame < clip) :
    ((rest.zipIdx start).foldl (WaveformView.buildSample t0 clip item) (item.fill aliases t0 done, mark)).1 =
        item.fill aliases t0 (done ++ rest) ∧
      ((rest.zipIdx start).foldl (WaveformView.buildSample t0 clip item) (item.fill aliases t0 done, mark)).2.shown =
        mark.shown.or ((firstTrigger rest).map (usAfter t0)) := by
  induction rest generalizing done start mark with
  | nil =>
    rw [List.append_nil]
    exact ⟨rfl, Option.or_none.symm⟩
  | cons frame rest ih =>
    obtain ⟨hframe, hrest⟩ := List.forall_mem_cons.mp hclip
    have hstep : WaveformView.buildSample t0 clip item (item.fill aliases t0 done, mark) (frame, start) =
        (item.fill aliases t0 (done ++ [frame]), mark.see frame start (usAfter t0 frame)) := by
      rw [WaveformView.buildSample]
      dsimp only
      rw [if_neg hframe, Shown.push_fill]
    obtain ⟨hlane, hmark⟩ := ih (done ++ [frame]) (start + 1) (mark.see frame start (usAfter t0 frame)) hrest
    rw [List.zipIdx_cons, List.foldl_cons, hstep, hlane, hmark, List.append_assoc, List.singleton_append,
      TriggerMark.shown_see mark frame (Int.natCast_nonneg start), firstTrigger_cons, Option.or_assoc]
    refine ⟨rfl, congrArg _ ?_⟩
    cases frame.triggerPoint <;> rfl

theorem buildLane_fill {clip : ℚ} {samples : List SampleFrame} (hclip : ∀ frame ∈ samples, ¬usAfter t0 frame < clip)
    (item : Shown) (mark : TriggerMark) :
    (WaveformView.buildLane t0 clip samples item (item.lane aliases) mark).1 = item.fill aliases t0 samples ∧
      (WaveformView.buildLane t0 clip samples item (item.lane aliases) mark).2.shown =
        mark.shown.or ((firstTrigger samples).map (usAfter t0)) := by
  have hall := @buildSamples aliases t0 clip item [] samples 0 mark hclip
  rw [Shown.fill_nil] at hall
  exact hall

/-- A signal's lane looks for a trigger. -/
def Shown.looks : Shown → Bool
  | .signal _ => true
  | .bus _ => false

/-- A lane grows by new samples; if it is a signal's, the first trigger among them is seen. -/
theorem appendSamples (item : Shown) (done rest : List SampleFrame) (mark : TriggerMark) :
    (rest.foldl (WaveformView.appendSample t0 item) (item.fill aliases t0 done, mark)).1 =
        item.fill aliases t0 (done ++ rest) ∧
      (rest.foldl (WaveformView.appendSample t0 item) (item.fill aliases t0 done, mark)).2.shown =
        if item.looks then mark.shown.or ((firstTrigger rest).map (usAfter t0)) else mark.shown := by
  induction rest generalizing done mark with
  | nil =>
    rw [List.append_nil]
    refine ⟨rfl, ?_⟩
    cases item.looks
    · rfl
    · exact Option.or_none.symm
  | cons frame rest ih =>
    cases item with
    | signal sig =>
      have hlength : (0 : ℤ) ≤ ((Shown.signal sig).fill aliases t0 (done ++ [frame])).times.length - 1 := by
        rw [Shown.fill_times, List.length_map, List.length_append, List.length_singleton]
        omega
      have hstep : WaveformView.appendSample t0 (.signal sig) ((Shown.signal sig).fill aliases t0 done, mark) frame =
          ((Shown.signal sig).fill aliases t0 (done ++ [frame]), mark.see frame
            (((Shown.signal sig).fill aliases t0 (done ++ [frame])).times.length - 1) (usAfter t0 frame)) := by
        rw [WaveformView.appendSample]
        dsimp only
        rw [Shown.push_fill]
      obtain ⟨hlane, hmark⟩ := ih (done ++ [frame]) (mark.see frame
        (((Shown.signal sig).fill aliases t0 (done ++ [frame])).times.length - 1) (usAfter t0 frame))
      rw [List.foldl_cons, hstep, hlane, hmark, List.append_assoc, List.singleton_append,
        TriggerMark.shown_see mark frame hlength, firstTrigger_cons]
      have hlooks : (Shown.signal sig).looks = true := rfl
      refine ⟨rfl, ?_⟩
      rw [if_pos hlooks, if_pos hlooks, Option.or_assoc]
      cases frame.triggerPoint <;> rfl
    | bus b =>
      have hstep : WaveformView.appendSample t0 (.bus b) ((Shown.bus b).fill aliases t0 done, mark) frame =
          ((Shown.bus b).fill aliases t0 (done ++ [frame]), mark) := by
        rw [WaveformView.appendSample]
        dsimp only
        rw [Shown.push_fill]
      obtain ⟨hlane, hmark⟩ := ih (done ++ [frame]) mark
      rw [List.foldl_cons, hstep, hlane, hmark, List.append_assoc]
      exact ⟨rfl, rfl⟩

/-! ### All lanes -/

theorem or_or_self {α : Type} (a b : Option α) : (a.or b).or b = a.or b := by
  cases a <;> cases b <;> rfl

/-- All lanes are built, and the first trigger is seen if there is a lane. -/
theorem buildLanes_fill {clip : ℚ} {samples : List SampleFrame} (hclip : ∀ frame ∈ samples, ¬usAfter t0 frame < clip)
    (items : List Shown) (lanes : List SignalLane) (mark : TriggerMark) :
    (WaveformView.buildLanes t0 clip samples aliases items (lanes, mark)).1 =
        lanes ++ items.map (Shown.fill aliases t0 samples) ∧
      (WaveformView.buildLanes t0 clip samples aliases items (lanes, mark)).2.shown =
        if items = [] then mark.shown else mark.shown.or ((firstTrigger samples).map (usAfter t0)) := by
  induction items generalizing lanes mark with
  | nil => exact ⟨(List.append_nil lanes).symm, rfl⟩
  | cons item items ih =>
    obtain ⟨hlane, hmark⟩ := @buildLane_fill aliases t0 clip samples hclip item mark
    obtain ⟨hlanes, hmarks⟩ := ih (lanes ++ [item.fill aliases t0 samples])
      (WaveformView.buildLane t0 clip samples item (item.lane aliases) mark).2
    have hstep : WaveformView.buildLanes t0 clip samples aliases (item :: items) (lanes, mark) =
        WaveformView.buildLanes t0 clip samples aliases items (lanes ++ [item.fill aliases t0 samples],
          (WaveformView.buildLane t0 clip samples item (item.lane aliases) mark).2) := by
      rw [← hlane]
      rfl
    rw [hstep, hlanes, hmarks, hmark, List.map_cons, List.append_assoc, List.singleton_append,
      if_neg (List.cons_ne_nil item items)]
    refine ⟨rfl, ?_⟩
    split
    · rfl
    · exact or_or_self _ _

/-- All lanes grow, and the first new trigger is seen if there is a signal's. -/
theorem appendLanes_fill (done newFrames : List SampleFrame) (items : List Shown) (mark : TriggerMark) :
    (WaveformView.appendLanes t0 newFrames items (items.map (Shown.fill aliases t0 done)) mark).1 =
        items.map (Shown.fill aliases t0 (done ++ newFrames)) ∧
      (WaveformView.appendLanes t0 newFrames items (items.map (Shown.fill aliases t0 done)) mark).2.shown =
        if items.any Shown.looks then mark.shown.or ((firstTrigger newFrames).map (usAfter t0)) else mark.shown := by
  induction items generalizing mark with
  | nil => exact ⟨rfl, rfl⟩
  | cons item items ih =>
    obtain ⟨hlane, hmark⟩ := @appendSamples aliases t0 item done newFrames mark
    obtain ⟨hlanes, hmarks⟩ := ih (newFrames.foldl (WaveformView.appendSample t0 item) (item.fill aliases t0 done, mark)).2
    rw [List.map_cons, WaveformView.appendLanes]
    dsimp only
    rw [hlane, hlanes, hmarks, hmark, List.map_cons, List.any_cons]
    refine ⟨rfl, ?_⟩
    cases item.looks <;> cases items.any Shown.looks
    · rfl
    · rfl
    · rfl
    · exact or_or_self _ _

theorem selected_ne_nil (h : signals ≠ [] ∨ buses ≠ []) : selected signals buses ≠ [] := by
  intro hnil
  obtain ⟨hsignals, hbuses⟩ := List.append_eq_nil_iff.mp hnil
  exact h.elim (fun hs => hs (List.map_eq_nil_iff.mp hsignals)) fun hb => hb (List.map_eq_nil_iff.mp hbuses)

/-- A lane that looks for a trigger is a signal's. -/
theorem any_looks (signals : List Text) (buses : List BusDefinition) :
    (selected signals buses).any Shown.looks = decide (signals ≠ []) := by
  have hbuses : (buses.map Shown.bus).any Shown.looks = false := by
    rw [List.any_map, List.any_eq_false]
    exact fun _ _ => Bool.false_ne_true
  rw [selected, List.any_append, hbuses, Bool.or_false]
  cases signals with
  | nil => rfl
  | cons sig signals => rfl

/-- What `setData` makes of samples of which none is before the first. -/
theorem setData_shows (h : signals ≠ [] ∨ buses ≠ []) {first : SampleFrame} {rest : List SampleFrame}
    (hafter : ∀ frame ∈ first :: rest, 0 ≤ usAfter first.timestamp frame) {v : WaveformView} (hstill : v.autoScroll = false) :
    Shows signals buses first.timestamp (first :: rest) (v.setData signals buses (first :: rest)) ∧
      (v.setData signals buses (first :: rest)).signalAliases = v.signalAliases ∧
      (v.setData signals buses (first :: rest)).trigger.shown =
        (firstTrigger (first :: rest)).map (usAfter first.timestamp) := by
  have hclip : ∀ frame ∈ first :: rest, ¬usAfter first.timestamp frame < -1 := by
    intro frame hframe hlt
    have hle := hafter frame hframe
    linarith
  have hitems := selected_ne_nil h
  have hnot : ¬(signals = [] ∧ buses = []) := by
    rintro ⟨rfl, rfl⟩
    exact hitems rfl
  have hstart : ∀ us, (v.select signals buses).clipStart us = -1 := by
    intro us
    refine if_neg fun hand => ?_
    rw [WaveformView.select, hstill] at hand
    exact Bool.false_ne_true hand.1
  obtain ⟨hlanes, hmark⟩ := @buildLanes_fill v.signalAliases first.timestamp (-1) (first :: rest) hclip
    (selected signals buses) [] {}
  rw [if_neg hitems] at hmark
  rw [WaveformView.setData]
  dsimp only
  rw [if_neg hnot, hstart]
  exact ⟨⟨hlanes, rfl, rfl, rfl, hstill⟩, rfl, hmark⟩

variable {samples : List SampleFrame} {v : WaveformView}

theorem Shows.evictFront (hv : Shows signals buses t0 samples v) (n : ℕ) :
    Shows signals buses t0 (samples.drop n) (v.evictFront n) ∧ (v.evictFront n).trigger = v.trigger := by
  rw [WaveformView.evictFront]
  split
  case isTrue =>
    refine ⟨⟨?_, hv.start, hv.laneSignals, hv.laneBusNames, hv.still⟩, rfl⟩
    dsimp only
    rw [hv.lanes, List.map_map]
    exact List.map_congr_left fun item _ => Shown.evict_fill n samples item
  case isFalse hn =>
    rw [Nat.eq_zero_of_not_pos hn, List.drop_zero]
    exact ⟨hv, rfl⟩

theorem Shows.grow (hv : Shows signals buses t0 samples v) (newFrames : List SampleFrame) :
    Shows signals buses t0 (samples ++ newFrames) (v.grow signals buses newFrames) ∧
      (v.grow signals buses newFrames).trigger.shown =
        if signals ≠ [] then v.trigger.shown.or ((firstTrigger newFrames).map (usAfter t0)) else v.trigger.shown := by
  have hstart := hv.start
  subst hstart
  obtain ⟨hlanes, hmark⟩ := @appendLanes_fill v.signalAliases v.t0 samples newFrames (selected signals buses) v.trigger
  rw [any_looks, ← hv.lanes] at hmark
  rw [← hv.lanes] at hlanes
  refine ⟨⟨hlanes, rfl, hv.laneSignals, hv.laneBusNames, hv.still⟩, hmark.trans ?_⟩
  by_cases hsignals : signals = []
  · rw [if_neg (not_not_intro hsignals), if_neg (by simpa using hsignals)]
  · rw [if_pos hsignals, if_pos (decide_eq_true hsignals)]

/-- What `appendData` makes of a view of samples. -/
theorem Shows.append (h : signals ≠ [] ∨ buses ≠ []) (hv : Shows signals buses t0 samples v)
    {newFrames : List SampleFrame} (hnew : newFrames ≠ []) (n : ℕ) :
    ∃ v', v.appendData signals buses newFrames n = some v' ∧ Shows signals buses t0 (samples.drop n ++ newFrames) v' ∧
      v'.trigger.shown =
        if signals ≠ [] then v.trigger.shown.or ((firstTrigger newFrames).map (usAfter t0)) else v.trigger.shown := by
  obtain ⟨hkept, htrigger⟩ := hv.evictFront n
  obtain ⟨hgrown, hmark⟩ := hkept.grow newFrames
  rw [htrigger] at hmark
  refine ⟨_, ?_, hgrown, hmark⟩
  have hlanes : ¬(v.lanes = [] ∧ (signals ≠ [] ∨ buses ≠ [])) := by
    rintro ⟨hnone, -⟩
    rw [hv.lanes, List.map_eq_nil_iff] at hnone
    exact selected_ne_nil h hnone
  rw [WaveformView.appendData, if_neg (not_not_intro hv.laneSignals.symm), if_neg (not_not_intro hv.laneBusNames.symm),
    if_neg hlanes]
  exact if_neg hnew

/-! ### Times -/

/-- Whole microseconds are counted exactly. -/
theorem usAfter_eq {frame : SampleFrame} (h0 : 1000 ∣ t0) (hframe : 1000 ∣ frame.timestamp) :
    usAfter t0 frame = (frame.timestamp / 1000 : ℕ) - (t0 / 1000 : ℕ) := by
  obtain ⟨a, ha⟩ := hframe
  obtain ⟨b, rfl⟩ := h0
  have hdiff : (frame.timestamp : ℤ) - (1000 * b : ℕ) = 1000 * ((a : ℤ) - b) := by
    rw [ha]
    push_cast
    ring
  rw [usAfter, hdiff, Int.mul_tdiv_cancel_left _ (by decide), ha, Nat.mul_div_cancel_left _ (by decide),
    Nat.mul_div_cancel_left _ (by decide)]
  push_cast
  rfl

theorem usAfter_nonneg {frame : SampleFrame} (h0 : 1000 ∣ t0) (hframe : 1000 ∣ frame.timestamp)
    (hle : t0 ≤ frame.timestamp) : 0 ≤ usAfter t0 frame := by
  have hle' : ((t0 / 1000 : ℕ) : ℚ) ≤ (frame.timestamp / 1000 : ℕ) := Nat.cast_le.mpr (Nat.div_le_div_right hle)
  rw [usAfter_eq h0 hframe]
  linarith

/-- A lane whose first time is another is moved. -/
theorem Shown.fill_shift {t0' : ℕ} {s : ℚ} (h : ∀ frame ∈ samples, usAfter t0 frame = usAfter t0' frame + s) (item : Shown) :
    item.fill aliases t0 samples = (item.fill aliases t0' samples).shift s := by
  have htimes : samples.map (usAfter t0) = (samples.map (usAfter t0')).map (· + s) := by
    rw [List.map_map]
    exact List.map_congr_left h
  cases item <;> simp only [fill, SignalLane.shift, htimes]

/-- A view of cached samples agrees with what is rebuilt from them if and only if its marker is at their first
trigger. -/
theorem agrees_iff (h : signals ≠ [] ∨ buses ≠ []) {first : SampleFrame} {rest : List SampleFrame}
    (hv : Shows signals buses t0 (first :: rest) v) (h0 : 1000 ∣ t0)
    (hwhole : ∀ frame ∈ first :: rest, 1000 ∣ frame.timestamp)
    (hsorted : ∀ frame ∈ first :: rest, first.timestamp ≤ frame.timestamp) :
    Agrees signals buses ⟨first :: rest, v⟩ ↔ v.trigger.shown = (firstTrigger (first :: rest)).map (usAfter t0) := by
  have hfirst := hwhole first List.mem_cons_self
  have hafter : ∀ frame ∈ first :: rest, 0 ≤ usAfter first.timestamp frame := fun frame hframe =>
    usAfter_nonneg hfirst (hwhole frame hframe) (hsorted frame hframe)
  have hmove : ∀ frame ∈ first :: rest, usAfter t0 frame = usAfter first.timestamp frame + usAfter t0 first := by
    intro frame hframe
    rw [usAfter_eq h0 (hwhole frame hframe), usAfter_eq hfirst (hwhole frame hframe), usAfter_eq h0 hfirst]
    ring
  have hmarks : ((firstTrigger (first :: rest)).map (usAfter first.timestamp)).map (· + usAfter t0 first) =
      (firstTrigger (first :: rest)).map (usAfter t0) := by
    rw [Option.map_map]
    cases hfind : firstTrigger (first :: rest) with
    | none => rfl
    | some frame => exact congrArg some (hmove frame (List.mem_of_find?_eq_some hfind)).symm
  obtain ⟨hset, haliases, hmark⟩ := setData_shows h hafter hv.still
  have hrebuilt : (v.setData signals buses (first :: rest)).lanes =
      (selected signals buses).map (Shown.fill v.signalAliases first.timestamp (first :: rest)) := by
    rw [hset.lanes, haliases]
  constructor
  · -- The first time of a lane says what the shift is.
    rintro ⟨shift, hlanes, htrigger⟩
    dsimp only at hlanes htrigger
    rw [hv.lanes, hrebuilt, List.map_map] at hlanes
    obtain ⟨item, items, hitems⟩ := List.exists_cons_of_ne_nil (selected_ne_nil h)
    rw [hitems, List.map_cons, List.map_cons] at hlanes
    have htimes := congrArg SignalLane.times (List.cons.inj hlanes).1
    have htimes' : (first :: rest).map (usAfter t0) = ((first :: rest).map (usAfter first.timestamp)).map (· + shift) := by
      rw [← @Shown.fill_times v.signalAliases t0 _ item, htimes, ← @Shown.fill_times v.signalAliases first.timestamp _ item]
      rfl
    have hhead := (List.cons.inj htimes').1
    have hzero := hmove first List.mem_cons_self
    have hshift : shift = usAfter t0 first := by linarith
    rw [htrigger, hmark, hshift, hmarks]
  · intro hmarker
    refine ⟨usAfter t0 first, ?_, ?_⟩
    · rw [hv.lanes, hrebuilt, List.map_map]
      exact List.map_congr_left fun item _ => Shown.fill_shift hmove item
    · rw [hmarker, hmark, hmarks]

/-! ### A run of calls -/

/-- The cached samples after a call. -/
def nextCached (depth : ℕ) (cached newFrames : List SampleFrame) : List SampleFrame :=
  if newFrames = [] then cached else (cached ++ newFrames).drop ((cached ++ newFrames).length - depth)

/-- A call keeps the marker: the first cached trigger is not evicted, or the next that is left has its time; or there is
none, and none arrives while no signal's lane looks for it. -/
def KeepsMarker (depth : ℕ) (signals : List Text) (cached newFrames : List SampleFrame) : Prop :=
  match firstTrigger cached with
  | some frame => (firstTrigger (nextCached depth cached newFrames)).map (·.timestamp) = some frame.timestamp
  | none => signals ≠ [] ∨ firstTrigger newFrames = none

/-- Each call of a run keeps the marker. -/
def MarkerKept (depth : ℕ) (signals : List Text) : List SampleFrame → List (List SampleFrame) → Prop
  | _, [] => True
  | cached, newFrames :: calls =>
    KeepsMarker depth signals cached newFrames ∧ MarkerKept depth signals (nextCached depth cached newFrames) calls

/-- After each call of a run the view agrees. -/
def Throughout (depth : ℕ) (allSelected signals : List Text) (buses : List BusDefinition) :
    Refresh → List (List SampleFrame) → Prop
  | _, [] => True
  | s, newFrames :: calls =>
    Agrees signals buses (refreshFromCapture depth allSelected buses s newFrames) ∧
      Throughout depth allSelected signals buses (refreshFromCapture depth allSelected buses s newFrames) calls

variable {depth : ℕ} {allSelected : List Text} {s : Refresh} {newFrames : List SampleFrame}

theorem nextCached_eq {cached : List SampleFrame} (hroom : newFrames.length ≤ depth) :
    ∃ n, nextCached depth cached newFrames = cached.drop n ++ newFrames := by
  rw [nextCached]
  split
  case isTrue hnil => exact ⟨0, by rw [hnil, List.drop_zero, List.append_nil]⟩
  case isFalse =>
    refine ⟨(cached ++ newFrames).length - depth, List.drop_append_of_le_length ?_⟩
    rw [List.length_append]
    omega

/-- The view shows the cached samples after a call, with the marker that it had or the first new trigger. -/
theorem Shows.refresh (h : signals ≠ [] ∨ buses ≠ []) (hv : Shows signals buses t0 s.cachedSamples s.view)
    (hroom : newFrames.length ≤ depth)
    (hfixed : ∀ frame ∈ newFrames, allSelected.filter (· ∈ frame.data.pinStates) = signals) :
    (refreshFromCapture depth allSelected buses s newFrames).cachedSamples = nextCached depth s.cachedSamples newFrames ∧
      Shows signals buses t0 (nextCached depth s.cachedSamples newFrames)
        (refreshFromCapture depth allSelected buses s newFrames).view ∧
      (refreshFromCapture depth allSelected buses s newFrames).view.trigger.shown =
        if signals ≠ [] then s.view.trigger.shown.or ((firstTrigger newFrames).map (usAfter t0))
        else s.view.trigger.shown := by
  rw [refreshFromCapture, nextCached]
  by_cases hnew : newFrames = []
  · subst hnew
    rw [if_pos rfl, if_pos rfl]
    refine ⟨rfl, hv, ?_⟩
    split
    · exact Option.or_none.symm
    · rfl
  · obtain ⟨last, hlast⟩ : ∃ last, newFrames.getLast? = some last := ⟨_, List.getLast?_eq_some_getLast hnew⟩
    have hdrop : (s.cachedSamples ++ newFrames).drop ((s.cachedSamples ++ newFrames).length - depth) =
        s.cachedSamples.drop ((s.cachedSamples ++ newFrames).length - depth) ++ newFrames := by
      refine List.drop_append_of_le_length ?_
      rw [List.length_append]
      omega
    have hcaptured : capturedSignals allSelected
        (s.cachedSamples.drop ((s.cachedSamples ++ newFrames).length - depth) ++ newFrames) = signals := by
      rw [capturedSignals, List.getLast?_append_of_ne_nil _ hnew, hlast]
      exact hfixed last (List.mem_of_getLast? hlast)
    obtain ⟨v', happend, hshows, hmark⟩ := hv.append h hnew ((s.cachedSamples ++ newFrames).length - depth)
    rw [if_neg hnew, if_neg hnew]
    dsimp only
    rw [hdrop, hcaptured, happend, Option.getD_some]
    exact ⟨rfl, hshows, hmark⟩

/-- A call keeps the marker if and only if it is at the first trigger of the cached samples after it. -/
theorem keepsMarker_iff {cached : List SampleFrame} (h0 : 1000 ∣ t0) (hwhole : ∀ frame ∈ cached ++ newFrames, 1000 ∣ frame.timestamp)
    (hroom : newFrames.length ≤ depth) :
    (if signals ≠ [] then ((firstTrigger cached).map (usAfter t0)).or ((firstTrigger newFrames).map (usAfter t0))
      else (firstTrigger cached).map (usAfter t0)) =
        (firstTrigger (nextCached depth cached newFrames)).map (usAfter t0) ↔
      KeepsMarker depth signals cached newFrames := by
  obtain ⟨n, hnext⟩ := @nextCached_eq depth newFrames cached hroom
  have hsubset : ∀ frame ∈ nextCached depth cached newFrames, frame ∈ cached ++ newFrames := by
    rw [hnext]
    intro frame hframe
    exact List.mem_append.mpr ((List.mem_append.mp hframe).imp_left List.mem_of_mem_drop)
  have hsame : ∀ a ∈ cached ++ newFrames, ∀ b ∈ cached ++ newFrames,
      usAfter t0 a = usAfter t0 b ↔ a.timestamp = b.timestamp := by
    intro a ha b hb
    obtain ⟨m, hm⟩ := hwhole a ha
    obtain ⟨k, hk⟩ := hwhole b hb
    rw [usAfter_eq h0 ⟨m, hm⟩, usAfter_eq h0 ⟨k, hk⟩, sub_left_inj, Nat.cast_inj]
    omega
  rw [KeepsMarker]
  cases hfirst : firstTrigger cached with
  | some frame =>
    have hmem : frame ∈ cached ++ newFrames := List.mem_append_left _ (List.mem_of_find?_eq_some hfirst)
    have hmark : (if signals ≠ [] then ((some frame).map (usAfter t0)).or ((firstTrigger newFrames).map (usAfter t0))
        else (some frame).map (usAfter t0)) = some (usAfter t0 frame) := by
      split <;> rfl
    rw [hmark]
    dsimp only
    cases hleft : firstTrigger (nextCached depth cached newFrames) with
    | none => exact iff_of_false (Option.some_ne_none _) (Option.some_ne_none _).symm
    | some other =>
      have hother := hsubset other (List.mem_of_find?_eq_some hleft)
      rw [Option.map_some, Option.map_some, Option.some_inj, Option.some_inj, eq_comm]
      exact hsame other hother frame hmem
  | none =>
    have hleft : firstTrigger (cached.drop n) = none := by
      rw [firstTrigger, List.find?_eq_none] at hfirst ⊢
      exact fun frame hframe => hfirst frame (List.mem_of_mem_drop hframe)
    rw [hnext, firstTrigger_append, hleft, Option.none_or, Option.map_none, Option.none_or]
    by_cases hsignals : signals = []
    · rw [if_neg (not_not_intro hsignals), eq_comm, Option.map_eq_none_iff]
      exact ⟨Or.inr, fun h => h.resolve_left fun hne => hne hsignals⟩
    · rw [if_pos hsignals]
      exact iff_of_true rfl (Or.inl hsignals)

/-- A run keeps its agreement if and only if each of its calls keeps the marker. -/
theorem throughout_of_shows (h : signals ≠ [] ∨ buses ≠ []) (h0 : 1000 ∣ t0) {calls : List (List SampleFrame)}
    (hv : Shows signals buses t0 s.cachedSamples s.view) (hne : s.cachedSamples ≠ [])
    (hmark : s.view.trigger.shown = (firstTrigger s.cachedSamples).map (usAfter t0))
    (hroom : ∀ newFrames ∈ calls, newFrames.length ≤ depth)
    (hfixed : ∀ frame ∈ calls.flatten, allSelected.filter (· ∈ frame.data.pinStates) = signals)
    (hsorted : (s.cachedSamples ++ calls.flatten).Pairwise fun a b => a.timestamp ≤ b.timestamp)
    (hwhole : ∀ frame ∈ s.cachedSamples ++ calls.flatten, 1000 ∣ frame.timestamp) :
    Throughout depth allSelected signals buses s calls ↔ MarkerKept depth signals s.cachedSamples calls := by
  induction calls generalizing s with
  | nil => exact Iff.rfl
  | cons newFrames calls ih =>
    obtain ⟨hroom, hrooms⟩ := List.forall_mem_cons.mp hroom
    rw [List.flatten_cons] at hfixed hsorted hwhole
    obtain ⟨hnow, hlater⟩ := List.forall_mem_append.mp hfixed
    rw [← List.append_assoc] at hsorted hwhole
    obtain ⟨hcached, hshows, hmarker⟩ := hv.refresh h hroom hnow
    obtain ⟨n, hnext⟩ := @nextCached_eq depth newFrames s.cachedSamples hroom
    have hnextNe : nextCached depth s.cachedSamples newFrames ≠ [] := by
      by_cases hnew : newFrames = []
      · rw [nextCached, if_pos hnew]
        exact hne
      · rw [hnext]
        exact List.append_ne_nil_of_right_ne_nil _ hnew
    have hsub : (nextCached depth s.cachedSamples newFrames ++ calls.flatten).Sublist
        (s.cachedSamples ++ newFrames ++ calls.flatten) := by
      rw [hnext]
      exact ((List.drop_sublist n _).append_right newFrames).append_right _
    have hsorted' := hsorted.sublist hsub
    have hwhole' : ∀ frame ∈ nextCached depth s.cachedSamples newFrames ++ calls.flatten, 1000 ∣ frame.timestamp :=
      fun frame hframe => hwhole frame (hsub.subset hframe)
    rw [hmark] at hmarker
    have hstep : Agrees signals buses (refreshFromCapture depth allSelected buses s newFrames) ↔
        KeepsMarker depth signals s.cachedSamples newFrames := by
      rw [← keepsMarker_iff h0 (fun frame hframe => hwhole frame (List.mem_append_left _ hframe)) hroom, ← hmarker]
      obtain ⟨first, rest, hcons⟩ := List.exists_cons_of_ne_nil hnextNe
      rw [hcons] at hcached hshows hsorted' hwhole' ⊢
      have hagrees := agrees_iff h hshows h0 (fun frame hframe => hwhole' frame (List.mem_append_left _ hframe)) ?_
      · rw [← hagrees, ← hcached]
      · have hfirst := (List.pairwise_cons.mp hsorted').1
        exact List.forall_mem_cons.mpr ⟨le_rfl, fun frame hframe => hfirst frame (List.mem_append_left _ hframe)⟩
    rw [Throughout, MarkerKept, hstep]
    refine and_congr_right fun hkeeps => ?_
    rw [← hcached] at hshows hnextNe hsorted' hwhole' ⊢
    refine ih hshows hnextNe ?_ hrooms hlater hsorted' hwhole'
    rw [hmarker, hcached]
    exact (keepsMarker_iff h0 (fun frame hframe => hwhole frame (List.mem_append_left _ hframe)) hroom).mpr hkeeps

/-- For samples in order at whole microseconds, a fixed selection and calls with at most as many new samples as the
buffer is deep, the view that grows agrees with the rebuilt one after each call if and only if each call keeps the
marker. -/
theorem throughout_iff (depth : ℕ) (allSelected signals : List Text) (buses : List BusDefinition)
    (initial : List SampleFrame) (calls : List (List SampleFrame)) (v : WaveformView)
    (hselected : signals ≠ [] ∨ buses ≠ []) (hstill : v.autoScroll = false) (hinitial : initial ≠ [])
    (hroom : ∀ newFrames ∈ calls, newFrames.length ≤ depth)
    (hfixed : ∀ frame ∈ calls.flatten, allSelected.filter (· ∈ frame.data.pinStates) = signals)
    (hsorted : (initial ++ calls.flatten).Pairwise fun a b => a.timestamp ≤ b.timestamp)
    (hwhole : ∀ frame ∈ initial ++ calls.flatten, 1000 ∣ frame.timestamp) :
    Throughout depth allSelected signals buses ⟨initial, v.setData signals buses initial⟩ calls ↔
      MarkerKept depth signals initial calls := by
  obtain ⟨first, rest, rfl⟩ := List.exists_cons_of_ne_nil hinitial
  have hfirst := hwhole first List.mem_cons_self
  have hafter : ∀ frame ∈ first :: rest, 0 ≤ usAfter first.timestamp frame := by
    intro frame hframe
    refine usAfter_nonneg hfirst (hwhole frame (List.mem_append_left _ hframe)) ?_
    rcases List.mem_cons.mp hframe with rfl | hframe
    · exact le_rfl
    · exact (List.pairwise_cons.mp hsorted).1 frame (List.mem_append_left _ hframe)
  obtain ⟨hshows, -, hmark⟩ := setData_shows hselected hafter hstill
  exact throughout_of_shows hselected hfirst hshows hinitial hmark hroom hfixed hsorted hwhole

/-- A sample of one signal that is high. -/
def highSample (timestamp : ℕ) (triggerPoint : Bool) : SampleFrame :=
  { timestamp, data := { pinStates := AList.singleton ['a'] .high }, triggerPoint }

theorem throughout_roomy :
    Throughout 2 [['a']] [['a']] [] ⟨[highSample 0 true], WaveformView.setData [['a']] [] [highSample 0 true] {}⟩
        [[highSample 1000 false]] ↔
      MarkerKept 2 [['a']] [highSample 0 true] [[highSample 1000 false]] :=
  throughout_iff 2 [['a']] [['a']] [] [highSample 0 true] [[highSample 1000 false]] {} (Or.inl (List.cons_ne_nil _ _)) rfl
    (List.cons_ne_nil _ _) (by decide) (List.forall_mem_singleton.mpr (by decide)) (List.pairwise_pair.mpr (by decide))
    (List.forall_mem_cons.mpr ⟨by decide, List.forall_mem_singleton.mpr (by decide)⟩)

/-- The marker stays when its sample is evicted. -/
theorem marker_outlives_trigger :
    ([highSample 0 true] ++ [[highSample 1000 false]].flatten).Pairwise (fun a b => a.timestamp ≤ b.timestamp) ∧
      ¬Throughout 1 [['a']] [['a']] [] ⟨[highSample 0 true], WaveformView.setData [['a']] [] [highSample 0 true] {}⟩
        [[highSample 1000 false]] := by
  have hselected : ([['a']] : List Text) ≠ [] ∨ ([] : List BusDefinition) ≠ [] := Or.inl (List.cons_ne_nil _ _)
  have hafter : ∀ frame ∈ [highSample 0 true], 0 ≤ usAfter 0 frame :=
    List.forall_mem_singleton.mpr (usAfter_nonneg ⟨0, rfl⟩ ⟨0, rfl⟩ le_rfl)
  have hsorted : ([highSample 0 true] ++ [[highSample 1000 false]].flatten).Pairwise
      (fun a b => a.timestamp ≤ b.timestamp) := List.pairwise_pair.mpr (by decide)
  obtain ⟨hshows, -, hmark⟩ := @setData_shows [['a']] [] hselected (highSample 0 true) [] hafter {} rfl
  refine ⟨hsorted, fun hrun => ?_⟩
  have hstart : 1000 ∣ (highSample 0 true).timestamp := dvd_zero 1000
  have hkept : MarkerKept 1 [['a']] [highSample 0 true] [[highSample 1000 false]] := by
    refine (throughout_of_shows hselected hstart hshows (List.cons_ne_nil _ _) hmark (by decide)
      (List.forall_mem_singleton.mpr (by decide)) hsorted ?_).mp hrun
    exact List.forall_mem_cons.mpr ⟨by decide, List.forall_mem_singleton.mpr (by decide)⟩
  exact absurd hkept.1 (Option.some_ne_none _).symm

end OwlTap.Gui
