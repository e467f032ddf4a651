import OwlTap.Base.Greedy
import OwlTap.Capture.CaptureEngine

/-!
# Which frames are marked

In NORMAL mode the loop of a `CaptureEngine` evaluates its trigger on each frame and the one before,
marks the frame on which it fires, counts the frames that follow it, and then re-arms. So the frames
that it marks are the greedy selection of those that meet all conditions, with the frames that follow
a trigger as the hold-off (`marked_iff`).
-/

namespace OwlTap.Capture

open BoundaryScan

/-! ### What qualifies -/

/-- A condition is met by two samples that follow each other. -/
def TriggerCondition.Holds (cond : TriggerCondition) (prev curr : ScanResult) : Prop :=
  match cond.type with
  | .edge =>
    cond.edge ≠ .falling ∧ prev.getPin cond.pinName = .low ∧ curr.getPin cond.pinName = .high ∨
      cond.edge ≠ .rising ∧ prev.getPin cond.pinName = .high ∧ curr.getPin cond.pinName = .low
  | .level => curr.getPin cond.pinName = cond.level

theorem TriggerEngine.met_iff (prev curr : ScanResult) (cond : TriggerCondition) :
    met prev curr cond = true ↔ cond.Holds prev curr := by
  unfold met TriggerCondition.Holds
  cases cond.type with
  | level => exact decide_eq_true_iff
  | edge =>
    unfold evaluateEdge
    dsimp only
    generalize prev.getPin cond.pinName = p
    generalize curr.getPin cond.pinName = c
    cases cond.edge <;> cases p <;> cases c <;> decide

/-- A frame and the one before it meet all conditions. -/
def Qualifies (conditions : List TriggerCondition) (frames : List SampleFrame) (j : ℕ) : Prop :=
  ∃ prev curr, 1 ≤ j ∧ frames[j - 1]? = some prev ∧ frames[j]? = some curr ∧
    ∀ cond ∈ conditions, cond.Holds prev.data curr.data

/-- Later frames do not matter. -/
theorem qualifies_append {conditions : List TriggerCondition} {frames : List SampleFrame} (more : List SampleFrame) {j : ℕ}
    (hj : j < frames.length) : Qualifies conditions (frames ++ more) j ↔ Qualifies conditions frames j := by
  unfold Qualifies
  rw [List.getElem?_append_left hj, List.getElem?_append_left (by omega)]

/-- The frame that is added qualifies when the conditions are met by it and the last one. -/
theorem qualifies_concat {conditions : List TriggerCondition} {frames : List SampleFrame} {prev frame : SampleFrame}
    (hprev : frames.getLast? = some prev) :
    Qualifies conditions (frames ++ [frame]) frames.length ↔ ∀ cond ∈ conditions, cond.Holds prev.data frame.data := by
  have hpos : 0 < frames.length := List.length_pos_of_mem (List.mem_of_getLast? hprev)
  have hlast : (frames ++ [frame])[frames.length - 1]? = some prev := by
    rw [List.getElem?_append_left (by omega), ← List.getLast?_eq_getElem?, hprev]
  unfold Qualifies
  rw [hlast, List.getElem?_concat_length]
  constructor
  · rintro ⟨p, c, -, hp, hc, hall⟩
    obtain rfl := Option.some.inj hp
    obtain rfl := Option.some.inj hc
    exact hall
  · exact fun hall => ⟨prev, frame, hpos, rfl, rfl, hall⟩

theorem not_qualifies_zero {conditions : List TriggerCondition} {frames : List SampleFrame} :
    ¬Qualifies conditions frames 0 := fun ⟨_, _, h, _⟩ => absurd h (by decide)

/-! ### One frame -/

/-- An armed trigger in normal mode fires when all conditions are met, and stays armed. -/
theorem TriggerEngine.evaluate_normal {t : TriggerEngine} (hmode : t.mode = .normal) (harmed : t.armed = true)
    (prev curr : ScanResult) :
    ((t.evaluate prev curr).1 = true ↔ ∀ cond ∈ t.conditions, cond.Holds prev curr) ∧
      (t.evaluate prev curr).2.mode = .normal ∧ (t.evaluate prev curr).2.armed = true ∧
      (t.evaluate prev curr).2.conditions = t.conditions := by
  have hall : (t.conditions.all (met prev curr) = true) ↔ ∀ cond ∈ t.conditions, cond.Holds prev curr := by
    rw [List.all_eq_true]
    exact forall₂_congr fun cond _ => met_iff prev curr cond
  unfold evaluate
  rw [if_neg (by rw [hmode]; decide), if_neg (by rw [harmed]; decide), if_neg (by rw [hmode]; exact fun h => absurd h.2 (by decide))]
  by_cases hnil : t.conditions = []
  · rw [if_pos hnil]
    exact ⟨⟨fun _ => by rw [hnil]; exact nofun, fun _ => rfl⟩, hmode, harmed, rfl⟩
  rw [if_neg hnil]
  by_cases hmet : t.conditions.all (met prev curr) = true
  · rw [if_pos hmet]
    exact ⟨⟨fun _ => hall.mp hmet, fun _ => rfl⟩, hmode, harmed, rfl⟩
  · rw [if_neg hmet]
    exact ⟨⟨nofun, fun h => absurd (hall.mpr h) hmet⟩, hmode, harmed, rfl⟩

/-- The trigger is armed in normal mode, for these conditions, and so many frames fit in the ring. -/
structure Armed (conditions : List TriggerCondition) (depth : ℕ) (e : CaptureEngine) : Prop where
  mode : e.trigger.mode = .normal
  armed : e.trigger.armed = true
  conditions : e.trigger.conditions = conditions
  depth : e.bufferDepth = depth

/-- Before frame `n` the engine waits for the trigger, or counts the frames that follow it. -/
def Stands (holds : ℕ → Prop) (q n : ℕ) (e : CaptureEngine) : Prop :=
  e.state = .waitingTrigger ∧ Greedy.Waits holds q n ∨
    e.state = .triggered ∧ Greedy.Counts holds q n (e.postTriggerRemaining + 1)

variable {postSamples : ℕ → ℕ} {conditions : List TriggerCondition} {depth n : ℕ} {e : CaptureEngine}

/-- Unless the engine waits and there is a sample before, nothing is evaluated. -/
theorem judge_idle {prev : Option ScanResult} {result : ScanResult} (h : e.state = .waitingTrigger → prev = none) :
    e.judge postSamples prev result = (false, e) := by
  obtain ⟨trigger, bufferDepth, buffer, writePos, count, totalWritten, remaining, state, lastError⟩ := e
  cases state
  case waitingTrigger =>
    rw [h rfl]
    rfl
  all_goals rfl

theorem judge_waiting (hs : e.state = .waitingTrigger) (p result : ScanResult) :
    e.judge postSamples (some p) result =
      ((e.trigger.evaluate p result).1,
        if (e.trigger.evaluate p result).1 then
          { e with
            trigger := (e.trigger.evaluate p result).2
            state := .triggered
            postTriggerRemaining := postSamples e.bufferDepth }
        else { e with trigger := (e.trigger.evaluate p result).2 }) := by
  obtain ⟨trigger, bufferDepth, buffer, writePos, count, totalWritten, remaining, state, lastError⟩ := e
  obtain rfl : state = .waitingTrigger := hs
  rfl

theorem judge_mode (prev : Option ScanResult) (result : ScanResult) :
    (e.judge postSamples prev result).2.trigger.mode = e.trigger.mode := by
  have hevaluate : ∀ (t : TriggerEngine) p, (t.evaluate p result).2.mode = t.mode := fun t p => by
    unfold TriggerEngine.evaluate
    repeat' split
    all_goals rfl
  by_cases hidle : e.state = .waitingTrigger → prev = none
  · rw [judge_idle hidle]
  · obtain ⟨hs, hp⟩ := Classical.not_imp.mp hidle
    obtain ⟨p, rfl⟩ := Option.ne_none_iff_exists'.mp hp
    rw [judge_waiting hs]
    dsimp only
    split <;> exact hevaluate _ p

theorem countDown_mode : e.countDown.trigger.mode = e.trigger.mode := by
  unfold CaptureEngine.countDown
  repeat' split
  all_goals rfl

/-- After a frame of a hold-off the engine counts on, or waits again. -/
theorem stands_countDown {holds : ℕ → Prop} {q : ℕ} (harmed : Armed conditions depth e) (hs : e.state = .triggered)
    (hc : Greedy.Counts holds q n e.postTriggerRemaining) :
    Armed conditions depth e.countDown ∧ Stands holds q n e.countDown := by
  unfold CaptureEngine.countDown
  rw [if_pos hs]
  by_cases hzero : e.postTriggerRemaining = 0
  · rw [if_pos hzero]
    rw [hzero] at hc
    exact ⟨⟨harmed.mode, rfl, harmed.conditions, harmed.depth⟩, .inl ⟨rfl, hc.done⟩⟩
  · rw [if_neg hzero]
    obtain ⟨r, hr⟩ := Nat.exists_eq_succ_of_ne_zero hzero
    refine ⟨⟨harmed.mode, harmed.armed, harmed.conditions, harmed.depth⟩, .inr ⟨hs, ?_⟩⟩
    rw [hr] at hc ⊢
    exact hc

/-- A frame is marked when it is selected, and then the next one is to come. -/
theorem stands_frame {holds : ℕ → Prop} (harmed : Armed conditions depth e) (h : Stands holds (postSamples depth) n e)
    {prev : Option ScanResult} {result : ScanResult}
    (hn : holds n ↔ ∃ p, prev = some p ∧ ∀ cond ∈ conditions, cond.Holds p result) (hprev : prev = none ↔ n = 0) :
    ((e.judge postSamples prev result).1 = true ↔ Greedy.Selected holds (postSamples depth) n) ∧
      Armed conditions depth (e.judge postSamples prev result).2.countDown ∧
      Stands holds (postSamples depth) (n + 1) (e.judge postSamples prev result).2.countDown := by
  obtain ⟨hs, hw⟩ | ⟨hs, hc⟩ := h
  · have hwaits : ∀ e : CaptureEngine, e.state = .waitingTrigger → e.countDown = e := fun e he => by
      unfold CaptureEngine.countDown
      rw [if_neg (by rw [he]; decide)]
    cases prev with
    | none =>
      -- the first frame has none before it
      obtain rfl := hprev.mp rfl
      have hnot : ¬holds 0 := fun h0 => by
        obtain ⟨p, hp, -⟩ := hn.mp h0
        cases hp
      rw [judge_idle fun _ => rfl, hwaits e hs]
      exact ⟨⟨nofun, fun hsel => absurd hsel.here.1 hnot⟩, harmed, .inl ⟨hs, hw.pass fun _ => hnot⟩⟩
    | some p =>
      have hpos : 1 ≤ n := Nat.one_le_iff_ne_zero.mpr fun h0 => by cases hprev.mpr h0
      obtain ⟨hfires, hmode, harm, hconds⟩ := TriggerEngine.evaluate_normal harmed.mode harmed.armed p result
      have hmet : (e.trigger.evaluate p result).1 = true ↔ holds n := by
        rw [hfires, hn, harmed.conditions]
        exact ⟨fun h => ⟨p, rfl, h⟩, fun ⟨p', hp, h⟩ => Option.some.inj hp ▸ h⟩
      rw [judge_waiting hs, hw.selected_iff hpos]
      by_cases hfire : (e.trigger.evaluate p result).1 = true
      · rw [if_pos hfire]
        have hcount := hw.take hpos (hmet.mp hfire)
        rw [← harmed.depth] at hcount ⊢
        have hnext := stands_countDown (e := { e with
            trigger := (e.trigger.evaluate p result).2
            state := .triggered
            postTriggerRemaining := postSamples e.bufferDepth })
          ⟨hmode, harm, hconds.trans harmed.conditions, rfl⟩ rfl hcount
        exact ⟨hmet, hnext.1, hnext.2⟩
      · rw [if_neg hfire, hwaits _ (by exact hs)]
        exact ⟨hmet, ⟨hmode, harm, hconds.trans harmed.conditions, harmed.depth⟩,
          .inl ⟨hs, hw.pass fun _ => mt hmet.mpr hfire⟩⟩
  · rw [judge_idle fun he => absurd (hs.symm.trans he) (by decide)]
    have hnext := stands_countDown harmed hs hc.pass
    exact ⟨⟨nofun, fun hsel => absurd hsel hc.not_selected⟩, hnext.1, hnext.2⟩

/-! ### The run -/

namespace CaptureLoop

variable {stamp : ℕ} {result : ScanResult} {l l' : CaptureLoop} {frame : SampleFrame} {written : List SampleFrame}

/-- The frames that have been judged: those written, and one that is still to be stored. -/
def judged (l : CaptureLoop) (written : List SampleFrame) : List SampleFrame :=
  match l.point with
  | .storing frame _ => written ++ [frame]
  | _ => written

/-- A frame does not change the mode of the trigger. -/
theorem mode_sample (h : l.sample postSamples stamp result = some l') :
    l'.engine.trigger.mode = l.engine.trigger.mode := by
  unfold sample at h
  split at h
  · dsimp only at h
    split at h
    · obtain rfl := Option.some.inj h
      exact judge_mode ..
    · obtain rfl := Option.some.inj h
      exact countDown_mode.trans (judge_mode ..)
  · cases h

theorem mode_store (h : l.store = some (frame, l')) : l'.engine.trigger.mode = l.engine.trigger.mode := by
  unfold store at h
  split at h
  · obtain ⟨-, rfl⟩ := Prod.mk.inj (Option.some.inj h)
    split <;> rfl
  · cases h

/-- The loop in normal mode: what it knows of the frame before, and which frames it has marked. -/
structure Marks (postSamples : ℕ → ℕ) (written : List SampleFrame) (l : CaptureLoop) : Prop where
  armed : Armed l.engine.trigger.conditions l.engine.bufferDepth l.engine
  prev : l.prevResult = (l.judged written).getLast?.map SampleFrame.data
  marks : ∀ holds : ℕ → Prop,
    (∀ j < (l.judged written).length, holds j ↔ Qualifies l.engine.trigger.conditions (l.judged written) j) →
      Stands holds (postSamples l.engine.bufferDepth) (l.judged written).length l.engine ∧
        ∀ j frame, (l.judged written)[j]? = some frame →
          (frame.triggerPoint = true ↔ Greedy.Selected holds (postSamples l.engine.bufferDepth) j)

/-- What a new frame changes, whatever stands for the frames that qualify. -/
theorem Marks.stands_next (h : Marks postSamples written l) (hjudged : l.judged written = written) {holds : ℕ → Prop}
    {new : SampleFrame} (hdata : new.data = result)
    (hq : ∀ j < (written ++ [new]).length,
      holds j ↔ Qualifies l.engine.trigger.conditions (written ++ [new]) j) :
    (∀ j frame, written[j]? = some frame →
        (frame.triggerPoint = true ↔ Greedy.Selected holds (postSamples l.engine.bufferDepth) j)) ∧
      ((l.engine.judge postSamples l.prevResult result).1 = true ↔
        Greedy.Selected holds (postSamples l.engine.bufferDepth) written.length) ∧
      Armed l.engine.trigger.conditions l.engine.bufferDepth
        (l.engine.judge postSamples l.prevResult result).2.countDown ∧
      Stands holds (postSamples l.engine.bufferDepth) (written.length + 1)
        (l.engine.judge postSamples l.prevResult result).2.countDown := by
  obtain ⟨harmed, hprev, hmarks⟩ := h
  rw [hjudged] at hprev hmarks
  have hlast := hq written.length (by rw [List.length_append, List.length_singleton]; omega)
  have hold : ∀ j < written.length, holds j ↔ Qualifies l.engine.trigger.conditions written j := fun j hj =>
    (hq j (by rw [List.length_append]; omega)).trans (qualifies_append _ hj)
  have hn : holds written.length ↔ ∃ p, l.prevResult = some p ∧
      ∀ cond ∈ l.engine.trigger.conditions, cond.Holds p result := by
    rw [hlast, hprev]
    cases hget : written.getLast? with
    | none =>
      rw [List.getLast?_eq_none_iff.mp hget]
      exact ⟨fun h => absurd h not_qualifies_zero, fun ⟨_, h, _⟩ => by cases h⟩
    | some p =>
      rw [qualifies_concat hget, hdata]
      exact ⟨fun h => ⟨p.data, rfl, h⟩, fun ⟨_, hp, h⟩ => Option.some.inj hp ▸ h⟩
  have hfirst : l.prevResult = none ↔ written.length = 0 := by
    rw [hprev, Option.map_eq_none_iff, List.getLast?_eq_none_iff, List.length_eq_zero_iff]
  obtain ⟨hstands, hmarked⟩ := hmarks holds hold
  exact ⟨hmarked, stands_frame harmed hstands hn hfirst⟩

theorem Marks.sample (h : Marks postSamples written l) (hs : l.sample postSamples stamp result = some l') :
    Marks postSamples written l' := by
  have hmode := mode_sample hs
  unfold CaptureLoop.sample at hs
  split at hs
  next hpoint =>
    have hjudged : l.judged written = written := by rw [judged, hpoint]
    dsimp only at hs
    have hnormal : (l.engine.judge postSamples l.prevResult result).2.trigger.mode ≠ .single := by
      rw [judge_mode, h.armed.mode]
      decide
    rw [if_neg fun hsingle => hnormal hsingle.2.2] at hs
    obtain rfl := Option.some.inj hs
    obtain ⟨fired, hfired⟩ : ∃ fired, (l.engine.judge postSamples l.prevResult result).1 = fired := ⟨_, rfl⟩
    rw [hfired]
    have hdata : (⟨stamp, result, fired⟩ : SampleFrame).data = result := rfl
    have harmed := (h.stands_next hjudged hdata fun _ _ => Iff.rfl).2.2.1
    refine ⟨⟨harmed.mode, harmed.armed, rfl, rfl⟩, ?_, fun holds hq => ?_⟩
    · show _ = Option.map _ (written ++ [_]).getLast?
      rw [List.getLast?_concat]
      rfl
    · dsimp only [judged] at hq ⊢
      rw [harmed.conditions] at hq
      obtain ⟨hold, hnew, -, hstands⟩ := h.stands_next hjudged hdata hq
      rw [harmed.depth, List.length_append, List.length_singleton]
      refine ⟨hstands, fun j frame hj => ?_⟩
      rcases Nat.lt_trichotomy j written.length with hlt | rfl | hgt
      · rw [List.getElem?_append_left hlt] at hj
        exact hold j frame hj
      · rw [List.getElem?_concat_length] at hj
        obtain rfl := Option.some.inj hj
        rw [← hnew, hfired]
      · rw [List.getElem?_eq_none (by rw [List.length_append, List.length_singleton]; omega)] at hj
        cases hj
  · cases hs

theorem Marks.store (h : Marks postSamples written l) (hs : l.store = some (frame, l')) :
    Marks postSamples (written ++ [frame]) l' := by
  unfold CaptureLoop.store at hs
  split at hs
  next stored current hpoint =>
    obtain ⟨rfl, hl'⟩ := Prod.mk.inj (Option.some.inj hs)
    have hmode : (l.engine.writeFrame stored).trigger.mode ≠ .single := by
      rw [show (l.engine.writeFrame stored).trigger = l.engine.trigger from rfl, h.armed.mode]
      decide
    rw [if_neg fun hsnap => hmode hsnap.1] at hl'
    subst hl'
    have hjudged : l.judged written = written ++ [stored] := by rw [judged, hpoint]
    obtain ⟨harmed, hprev, hmarks⟩ := h
    rw [hjudged] at hprev hmarks
    exact ⟨⟨harmed.mode, harmed.armed, rfl, rfl⟩, hprev, hmarks⟩
  · cases hs

end CaptureLoop

variable {written received : List SampleFrame} {polls : List ℕ} {lastTotal : ℕ} {l : CaptureLoop}

theorem Polled.marks (h : Polled postSamples written polls received lastTotal l)
    (hmode : l.engine.trigger.mode = .normal) : l.Marks postSamples written := by
  induction h with
  | @start e e' ready hs =>
    unfold CaptureEngine.start at hs
    split at hs
    · cases hs
    split at hs
    · cases hs
    · obtain ⟨-, rfl⟩ := Prod.mk.inj hs
      have hmode : e.trigger.mode = .normal := hmode
      refine ⟨⟨hmode, rfl, rfl, rfl⟩, rfl, fun holds _ => ⟨.inl ⟨?_, Greedy.waits_zero⟩, nofun⟩⟩
      exact if_neg (by rw [hmode]; decide)
  | sample _ hs ih => exact (ih ((CaptureLoop.mode_sample hs).symm.trans hmode)).sample hs
  | store _ hs ih => exact (ih ((CaptureLoop.mode_store hs).symm.trans hmode)).store hs
  | poll _ _ ih => exact ih hmode

/-- **The frames that are marked.** At every moment of a run in normal mode the marked frames are the greedy
selection: the first that qualifies, and after each the first that qualifies when the frames that follow a
trigger have passed. -/
theorem marked_iff (h : Polled postSamples written polls received lastTotal l)
    (hmode : l.engine.trigger.mode = .normal) (j : ℕ) (frame : SampleFrame) (hj : written[j]? = some frame) :
    frame.triggerPoint = true ↔
      Greedy.Selected (Qualifies l.engine.trigger.conditions written) (postSamples l.engine.bufferDepth) j := by
  obtain ⟨-, -, hmarks⟩ := h.marks hmode
  obtain ⟨hlt, -⟩ := List.getElem?_eq_some_iff.mp hj
  have hjudged : ∃ more, l.judged written = written ++ more := by
    unfold CaptureLoop.judged
    split
    · exact ⟨_, rfl⟩
    · exact ⟨[], (List.append_nil written).symm⟩
  obtain ⟨more, hmore⟩ := hjudged
  rw [hmore] at hmarks
  have hsame : ∀ i ≤ j, Qualifies l.engine.trigger.conditions (written ++ more) i ↔
      Qualifies l.engine.trigger.conditions written i := fun i hi => qualifies_append more (by omega)
  have hmark := (hmarks _ fun _ _ => Iff.rfl).2 j frame (by rwa [List.getElem?_append_left hlt])
  exact hmark.trans ⟨fun h => h.congr hsame, fun h => h.congr fun i hi => (hsame i hi).symm⟩

/-- Without conditions the second frame is marked. -/
theorem second_frame_marked : ∃ first second l, Polled id [first, second] [] [] 0 l ∧
    (second.triggerPoint = true ↔
      Greedy.Selected (Qualifies l.engine.trigger.conditions [first, second]) (id l.engine.bufferDepth.val) 1) ∧
    second.triggerPoint = true := by
  let engine : CaptureEngine := { trigger := { mode := .normal } }
  have hstarts : engine.start true = (true, (engine.start true).2) := rfl
  have hstart : Polled id [] [] [] 0 { engine := (engine.start true).2 } := .start hstarts
  have hsample := hstart.sample (show CaptureLoop.sample id 0 {} _ = some _ from rfl)
  have hstore := hsample.store (show CaptureLoop.store _ = some (⟨0, {}, false⟩, _) from rfl)
  have hsample' := hstore.sample (show CaptureLoop.sample id 1 {} _ = some _ from rfl)
  have hrun := hsample'.store (show CaptureLoop.store _ = some (⟨1, {}, true⟩, _) from rfl)
  exact ⟨_, _, _, hrun, marked_iff hrun rfl 1 _ rfl, rfl⟩

end OwlTap.Capture
