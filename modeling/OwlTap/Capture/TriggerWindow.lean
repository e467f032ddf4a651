import OwlTap.BoundaryScan.FilteredScan
import OwlTap.Capture.CaptureSession

/-!
# The capture window around a trigger

What a session in normal mode has captured when it is complete. The trigger sets the number of
samples that are still to come, an unsigned number that is decremented for the trigger's own
sample; `postTrigger` is what is left of it then. When the whole buffer is to come before the
trigger, nothing is left to decrement, and the number wraps around.
-/

namespace OwlTap.Capture

open OwlTap Bsdl Ftdi Jtag BoundaryScan

namespace CaptureSession

variable {σ : Type} {T : Target σ} {preSamples : ℕ → ℕ} {now stamp : ℕ} {cs₀ cs cs' : CaptureSession}
  {sc sc' : Scanner σ} {took : Bool} {taken before after : List SampleFrame} {trig : SampleFrame}

/-! ### Ticks without a failure -/

/-- The session when a sample is due. -/
def due (now : ℕ) (cs : CaptureSession) : CaptureSession := { cs with nextSampleTime := now + cs.sampleIntervalUs }

/-- A tick that sets no error does nothing, or takes a sample. -/
theorem tick_successful (ht : tick T preSamples now stamp (cs, sc) = some (took, cs', sc')) (he : cs'.lastError = "") :
    took = false ∧ cs' = cs ∨
    took = true ∧ cs.state ≠ .stopped ∧ cs.state ≠ .complete ∧
      cs' = (cs.due now).takeSample preSamples stamp cs'.prevSample := by
  unfold tick at ht
  simp only at ht
  split at ht
  · obtain ⟨rfl, rfl, -⟩ := ht
    exact .inl ⟨rfl, rfl⟩
  case isFalse hrun =>
  obtain ⟨hstop, hcomplete⟩ := not_or.mp hrun
  split at ht
  · obtain ⟨rfl, rfl, -⟩ := ht
    exact .inl ⟨rfl, rfl⟩
  obtain ⟨⟨result, sc₁⟩, -, ht⟩ := Option.map_eq_some_iff.mp ht
  dsimp only at ht
  split at ht
  next hfailed =>
    obtain ⟨rfl, rfl, -⟩ := ht
    exact absurd he hfailed
  · obtain ⟨rfl, rfl, -⟩ := ht
    exact .inr ⟨rfl, hstop, hcomplete, rfl⟩

/-- What has been captured since a start by ticks of which none has failed: the samples that were
taken, each marked when the trigger fired on it. -/
inductive Sampled (T : Target σ) (preSamples : ℕ → ℕ) (cs₀ : CaptureSession) :
    List SampleFrame → CaptureSession → Prop where
  /-- Nothing yet. -/
  | start (now : ℕ) : Sampled T preSamples cs₀ [] (cs₀.start now)
  /-- A tick that takes no sample. -/
  | early {taken : List SampleFrame} {cs cs' : CaptureSession} {now stamp : ℕ} {sc sc' : Scanner σ} :
      Sampled T preSamples cs₀ taken cs → tick T preSamples now stamp (cs, sc) = some (false, cs', sc') →
      cs'.lastError = "" → Sampled T preSamples cs₀ taken cs'
  /-- A tick that takes one. -/
  | sample {taken : List SampleFrame} {cs cs' : CaptureSession} {now stamp : ℕ} {sc sc' : Scanner σ} :
      Sampled T preSamples cs₀ taken cs → tick T preSamples now stamp (cs, sc) = some (true, cs', sc') →
      cs'.lastError = "" →
      Sampled T preSamples cs₀ (taken ++ [⟨stamp, cs'.prevSample, cs.fires cs'.prevSample⟩]) cs'

theorem Sampled.depth (h : Sampled T preSamples cs₀ taken cs) : cs.bufferDepth = cs₀.bufferDepth := by
  induction h with
  | start => rfl
  | early _ ht he ih =>
    obtain ⟨-, rfl⟩ | ⟨hf, -⟩ := tick_successful ht he
    · exact ih
    · cases hf
  | @sample taken cs cs' now stamp sc sc' _ ht he ih =>
    obtain ⟨hf, -⟩ | ⟨-, hstop, hcomplete, e⟩ := tick_successful ht he
    · cases hf
    · have hstop' : (cs.due now).state ≠ .stopped := hstop
      rw [e]
      exact (takeSample_spec hstop' hcomplete _ _ _).depth.trans ih

theorem Sampled.holds (h : Sampled T preSamples cs₀ taken cs) (hd : 0 < cs₀.bufferDepth) : cs.Holds taken := by
  induction h with
  | start now => exact holds_start hd now
  | early _ ht _ ih => exact ih.tick ht
  | sample _ ht _ ih => exact ih.tick ht

/-! ### Counting down -/

/-- How many samples are to follow the trigger's own: `depth - pre`, decremented once. -/
def postTrigger (depth pre : ℕ) : ℕ := ((depth + 2 ^ 64 - pre) % 2 ^ 64 + 2 ^ 64 - 1) % 2 ^ 64

theorem postTrigger_of_lt {depth pre : ℕ} (hd : depth < 2 ^ 64) (hp : pre < depth) :
    postTrigger depth pre = depth - pre - 1 := by
  unfold postTrigger
  omega

/-- With the whole buffer before the trigger the counter wraps around. -/
theorem postTrigger_self (depth : ℕ) : postTrigger depth depth = 2 ^ 64 - 1 := by
  unfold postTrigger
  omega

theorem decrement_remaining (cs : CaptureSession) :
    cs.decrement.postTriggerRemaining = (cs.postTriggerRemaining + 2 ^ 64 - 1) % 2 ^ 64 := rfl

theorem appendSample_remaining (stamp : ℕ) (result : ScanResult) (triggerPoint : Bool) (cs : CaptureSession) :
    (cs.appendSample stamp result triggerPoint).postTriggerRemaining = cs.postTriggerRemaining := rfl

/-- Where a session in normal mode stands. -/
inductive Phase (count : ℕ) (cs : CaptureSession) : List SampleFrame → Prop where
  /-- The trigger has not fired. -/
  | waiting {taken : List SampleFrame} : cs.state = .waitingTrigger → (∀ f ∈ taken, f.triggerPoint = false) →
      Phase count cs taken
  /-- It has, and samples follow. -/
  | counting {before after : List SampleFrame} {trig : SampleFrame} :
      (∀ f ∈ before ++ after, f.triggerPoint = false) → trig.triggerPoint = true →
      cs.postTriggerRemaining + after.length = count →
      cs.state = (if cs.postTriggerRemaining = 0 then .complete else .triggered) →
      Phase count cs (before ++ trig :: after)

/-- A sample while the session waits. -/
theorem takeSample_waiting (hs : cs.state = .waitingTrigger) (preSamples : ℕ → ℕ) (stamp : ℕ) (result : ScanResult) :
    ((cs.takeSample preSamples stamp result).state, (cs.takeSample preSamples stamp result).postTriggerRemaining) =
      if cs.fires result then
        (if 0 < postTrigger cs.bufferDepth (preSamples cs.bufferDepth) then .triggered else .complete,
          postTrigger cs.bufferDepth (preSamples cs.bufferDepth))
      else (.waitingTrigger, cs.postTriggerRemaining) := by
  have hfires : cs.fires result =
      (if cs.hasPrev then cs.trigger.evaluate cs.prevSample result else (false, cs.trigger)).1 := by
    unfold fires
    rw [hs]
    cases cs.hasPrev <;> rfl
  rw [hfires]
  unfold takeSample
  simp only [hs]
  generalize (if cs.hasPrev then cs.trigger.evaluate cs.prevSample result else (false, cs.trigger)) = p
  cases p.1 with
  | false => rfl
  | true =>
    simp only [if_true, decrement_remaining, appendSample_remaining, postTrigger]
    congr 1

/-- A sample after the trigger. -/
theorem takeSample_triggered (hs : cs.state = .triggered) (hr : 0 < cs.postTriggerRemaining)
    (hmax : cs.postTriggerRemaining < 2 ^ 64) (preSamples : ℕ → ℕ) (stamp : ℕ) (result : ScanResult) :
    cs.fires result = false ∧
      (cs.takeSample preSamples stamp result).postTriggerRemaining = cs.postTriggerRemaining - 1 ∧
      (cs.takeSample preSamples stamp result).state =
        if cs.postTriggerRemaining - 1 = 0 then .complete else .triggered := by
  have hdec : (cs.postTriggerRemaining + 2 ^ 64 - 1) % 2 ^ 64 = cs.postTriggerRemaining - 1 := by omega
  have hfires : cs.fires result = false := by
    unfold fires
    rw [hs]
    rfl
  unfold takeSample
  simp only [hs, appendSample_remaining, if_pos hr, decrement, hdec]
  refine ⟨hfires, ?_, ?_⟩
  · split <;> rfl
  · split
    · rfl
    · exact hs

theorem Sampled.phase (h : Sampled T preSamples cs₀ taken cs) (hmode : cs₀.trigger.mode = .normal) :
    Phase (postTrigger cs₀.bufferDepth (preSamples cs₀.bufferDepth)) cs taken := by
  induction h with
  | start =>
    refine .waiting ?_ nofun
    unfold CaptureSession.start
    simp [hmode]
  | early _ ht he ih =>
    obtain ⟨-, rfl⟩ | ⟨hf, -⟩ := tick_successful ht he
    · exact ih
    · cases hf
  | @sample taken cs cs' now stamp sc sc' hrun ht he ih =>
    obtain ⟨hf, -⟩ | ⟨-, -, hcomplete, e⟩ := tick_successful ht he
    · cases hf
    have hdepth := hrun.depth
    generalize cs'.prevSample = result at e ⊢
    subst e
    cases ih with
    | waiting hs hnone =>
      have hdue : (cs.due now).state = .waitingTrigger := hs
      have hnext := takeSample_waiting hdue preSamples stamp result
      rw [show (cs.due now).bufferDepth = cs₀.bufferDepth from hdepth,
        show (cs.due now).fires result = cs.fires result from rfl] at hnext
      by_cases hfires : cs.fires result = true
      · rw [if_pos hfires, Prod.mk.injEq] at hnext
        refine @Phase.counting _ _ taken [] _ (by rwa [List.append_nil]) hfires hnext.2 ?_
        rw [hnext.1, hnext.2]
        rcases Nat.eq_zero_or_pos (postTrigger cs₀.bufferDepth (preSamples cs₀.bufferDepth)) with hz | hz
        · rw [if_neg (by omega), if_pos hz]
        · rw [if_pos hz, if_neg (by omega)]
      · rw [if_neg hfires, Prod.mk.injEq] at hnext
        refine .waiting hnext.1 fun f hf => ?_
        rcases List.mem_append.mp hf with hf | hf
        · exact hnone f hf
        · rw [List.mem_singleton.mp hf]
          exact eq_false_of_ne_true hfires
    | @counting before after trig hnone htrig hcount hs =>
      have hr : 0 < cs.postTriggerRemaining := by
        refine Nat.pos_of_ne_zero fun hz => hcomplete ?_
        rw [hs, if_pos hz]
      rw [if_neg hr.ne'] at hs
      have hmax : cs.postTriggerRemaining < 2 ^ 64 := by
        have : postTrigger cs₀.bufferDepth (preSamples cs₀.bufferDepth) < 2 ^ 64 := Nat.mod_lt _ (by decide)
        omega
      have hdue : (cs.due now).state = .triggered := hs
      obtain ⟨hfires, hrem, hstate⟩ := takeSample_triggered hdue hr hmax preSamples stamp result
      have hnot : cs.fires result = false := hfires
      rw [List.append_assoc, List.cons_append, hnot]
      refine .counting (fun f hf => ?_) htrig ?_ ?_
      · rcases List.mem_append.mp hf with hf | hf
        · exact hnone f (List.mem_append_left _ hf)
        · rcases List.mem_append.mp hf with hf | hf
          · exact hnone f (List.mem_append_right _ hf)
          · rw [List.mem_singleton.mp hf]
      · rw [hrem, List.length_append, List.length_singleton]
        show cs.postTriggerRemaining - 1 + (after.length + 1) = _
        omega
      · rw [hstate, hrem]

/-! ### The window -/

/-- The window of a capture of the given depth, of which `pre` samples are to come before the trigger:
what the buffer has when the session is complete, and when that is. -/
structure Windowed (depth pre : ℕ) (before : List SampleFrame) (trig : SampleFrame) (after : List SampleFrame)
    (cs : CaptureSession) : Prop where
  /-- The trigger fired once. -/
  once : ∀ f ∈ before ++ after, f.triggerPoint = false
  /-- From the trigger on the session takes no more samples than are to come. -/
  length_le : after.length + 1 ≤ max 1 (depth - pre)
  /-- Before it has them it goes on, … -/
  triggered : after.length + 1 < max 1 (depth - pre) → cs.state = .triggered
  /-- … and then it is complete. -/
  complete : after.length + 1 = max 1 (depth - pre) → cs.state = .complete
  /-- The samples in order: those just before the trigger, the trigger's own, and those after it. -/
  samples : cs.state = .complete → cs.getSamples =
    before.drop (before.length - min pre (min before.length (depth - 1))) ++ trig :: after
  /-- One of them is marked. -/
  marked : cs.state = .complete → cs.getSamples.filter SampleFrame.triggerPoint = [trig]

/-- A window in which one sample is marked. -/
theorem filter_triggerPoint (h : ∀ f ∈ before ++ after, f.triggerPoint = false) (ht : trig.triggerPoint = true) (n : ℕ) :
    (before.drop n ++ trig :: after).filter SampleFrame.triggerPoint = [trig] := by
  have hbefore : (before.drop n).filter SampleFrame.triggerPoint = [] := by
    refine List.filter_eq_nil_iff.mpr fun f hf => ?_
    rw [h f (List.mem_append_left _ (List.mem_of_mem_drop hf))]
    exact Bool.false_ne_true
  have hafter : after.filter SampleFrame.triggerPoint = [] := by
    refine List.filter_eq_nil_iff.mpr fun f hf => ?_
    rw [h f (List.mem_append_right _ hf)]
    exact Bool.false_ne_true
  rw [List.filter_append, List.filter_cons_of_pos ht, hbefore, hafter, List.nil_append]

/-- In one way only can a list with one marked sample be cut at it. -/
theorem cut_unique {before' after' : List SampleFrame} {trig' : SampleFrame}
    (h : ∀ f ∈ before ++ after, f.triggerPoint = false) (ht' : trig'.triggerPoint = true)
    (e : before' ++ trig' :: after' = before ++ trig :: after) : before' = before ∧ trig' = trig ∧ after' = after := by
  induction before' generalizing before with
  | nil =>
    cases before with
    | nil =>
      obtain ⟨rfl, rfl⟩ := List.cons.inj e
      exact ⟨rfl, rfl, rfl⟩
    | cons f before =>
      obtain ⟨rfl, -⟩ := List.cons.inj e
      rw [h _ List.mem_cons_self] at ht'
      cases ht'
  | cons f' before' ih =>
    cases before with
    | nil =>
      -- the marked sample would be among those after the other
      obtain ⟨-, he⟩ := List.cons.inj e
      have hmem : trig' ∈ after := he ▸ List.mem_append_right _ List.mem_cons_self
      rw [h trig' hmem] at ht'
      cases ht'
    | cons f before =>
      obtain ⟨rfl, he⟩ := List.cons.inj e
      obtain ⟨rfl, rfl, rfl⟩ := ih (fun f hf => h f (List.mem_cons_of_mem _ hf)) he
      exact ⟨rfl, rfl, rfl⟩

/-- Once the trigger has fired, the capture has its window if and only if not the whole buffer is to
come before the trigger. -/
theorem normal_window_iff (hmode : cs₀.trigger.mode = .normal) (hd : 0 < cs₀.bufferDepth)
    (hd64 : cs₀.bufferDepth < 2 ^ 64) (hp : preSamples cs₀.bufferDepth ≤ cs₀.bufferDepth)
    (h : Sampled T preSamples cs₀ (before ++ trig :: after) cs) (ht : trig.triggerPoint = true) :
    Windowed cs₀.bufferDepth (preSamples cs₀.bufferDepth) before trig after cs ↔
      preSamples cs₀.bufferDepth < cs₀.bufferDepth := by
  have hphase := h.phase hmode
  have hholds := (h.holds hd).getSamples
  have hdepth := h.depth
  generalize hpre : preSamples cs₀.bufferDepth = pre at *
  generalize hdep : cs₀.bufferDepth = depth at *
  generalize htaken : before ++ trig :: after = taken at *
  cases hphase with
  | waiting _ hnone =>
    rw [hnone trig (htaken ▸ List.mem_append_right _ List.mem_cons_self)] at ht
    cases ht
  | counting hnone htrig hcount hs =>
    obtain ⟨rfl, rfl, rfl⟩ := cut_unique hnone ht htaken
    constructor
    · -- with `pre = depth` the session would be complete with the trigger's own sample
      intro hw
      by_contra hnot
      obtain rfl : pre = depth := by omega
      rw [postTrigger_self] at hcount
      have hlen := hw.length_le
      have hcomplete := hw.complete (by omega)
      rw [hs, if_neg (by omega)] at hcomplete
      cases hcomplete
    · intro hlt
      rw [postTrigger_of_lt hd64 hlt] at hcount
      have hsamples : cs.state = .complete → cs.getSamples =
          before.drop (before.length - min pre (min before.length (depth - 1))) ++ trig :: after := by
        intro hcomplete
        have hzero : cs.postTriggerRemaining = 0 := by
          by_contra hne
          rw [hs, if_neg hne] at hcomplete
          cases hcomplete
        rw [hholds, hdepth, List.length_append, List.length_cons]
        have hcut : before.length + (after.length + 1) - depth =
            before.length - min pre (min before.length (depth - 1)) := by omega
        rw [hcut, List.drop_append_of_le_length (Nat.sub_le _ _)]
      refine ⟨hnone, by omega, fun hfew => ?_, fun hall => ?_, hsamples, fun hcomplete => ?_⟩
      · rw [hs, if_neg (by omega)]
      · rw [hs, if_pos (by omega)]
      · rw [hsamples hcomplete]
        exact filter_triggerPoint hnone htrig _

/-! ### A capture of one sample -/

/-- A session that waits for a trigger without conditions, with room for one sample. -/
def oneSample : CaptureSession := { trigger := { mode := .normal }, bufferDepth := 1 }

/-- What its first two ticks take, the errors that they leave, and whether the trigger fires on the second sample. -/
def twoTicks (preSamples : ℕ → ℕ) : Option (Bool × String × Bool × String × Bool) :=
  (tick (Target.chain BoundaryDevice.logic) preSamples 0 0 (oneSample.start 0, Scanner.twoPinsScanner)).bind
    fun (took₁, x₁) => (tick (Target.chain BoundaryDevice.logic) preSamples 1000 1000 x₁).map
      fun (took₂, x₂) => (took₁, x₁.1.lastError, took₂, x₂.1.lastError, x₁.1.fires x₂.1.prevSample)

theorem exists_fired (preSamples : ℕ → ℕ) (h : twoTicks preSamples = some (true, "", true, "", true)) :
    ∃ before trig cs, Sampled (Target.chain BoundaryDevice.logic) preSamples oneSample (before ++ trig :: []) cs ∧
      trig.triggerPoint = true := by
  obtain ⟨⟨took₁, cs₁, sc₁⟩, h₁, h⟩ := Option.bind_eq_some_iff.mp h
  obtain ⟨⟨took₂, cs₂, sc₂⟩, h₂, h⟩ := Option.map_eq_some_iff.mp h
  simp only [Prod.mk.injEq] at h
  obtain ⟨rfl, he₁, rfl, he₂, hfires⟩ := h
  exact ⟨_, _, cs₂, ((Sampled.start 0).sample h₁ he₁).sample h₂ he₂, hfires⟩

theorem oneSample_windowed : ∃ before trig cs,
    Sampled (Target.chain BoundaryDevice.logic) (fun _ => 0) oneSample (before ++ trig :: []) cs ∧
      Windowed 1 0 before trig [] cs := by
  obtain ⟨before, trig, cs, h, ht⟩ := exists_fired (fun _ => 0) (by decide +kernel)
  exact ⟨before, trig, cs, h, (normal_window_iff rfl (by decide) (by decide) (by decide) h ht).mpr (by decide)⟩

/-- With the whole buffer before the trigger the session is not complete when the trigger fires, and
the next sample overwrites the trigger's. -/
theorem oneSample_not_windowed : ∃ before trig cs,
    Sampled (Target.chain BoundaryDevice.logic) id oneSample (before ++ trig :: []) cs ∧ trig.triggerPoint = true ∧
      cs.state = .triggered ∧ cs.postTriggerRemaining = 2 ^ 64 - 1 ∧ ¬Windowed 1 1 before trig [] cs := by
  obtain ⟨before, trig, cs, h, ht⟩ := exists_fired id (by decide +kernel)
  have hphase := h.phase rfl
  generalize htaken : before ++ trig :: [] = taken at hphase
  cases hphase with
  | waiting _ hnone =>
    rw [hnone trig (htaken ▸ List.mem_append_right _ List.mem_cons_self)] at ht
    cases ht
  | counting hnone htrig hcount hs =>
    obtain ⟨rfl, rfl, rfl⟩ := cut_unique hnone ht htaken
    have hrem : cs.postTriggerRemaining = 2 ^ 64 - 1 := hcount.trans (postTrigger_self 1)
    rw [hrem, if_neg (by decide)] at hs
    refine ⟨before, trig, cs, h, ht, hs, hrem, fun hw => ?_⟩
    rw [hw.complete rfl] at hs
    cases hs

end CaptureSession

end OwlTap.Capture
