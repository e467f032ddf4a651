import OwlTap.Capture.TriggerMarks

/-!
# SINGLE triggers

In SINGLE mode a trigger fires at most once between two arms, on the first pair of samples that
meets all conditions, and remembers that it has fired, as long as no pair is evaluated while it is
armed without conditions (`disciplined_iff`): without conditions it fires on every pair, and
remembers nothing.
-/

namespace OwlTap.Capture

open BoundaryScan

namespace TriggerEngine

/-- Drop the conditions, and disarm. -/
def clearConditions (t : TriggerEngine) : TriggerEngine :=
  { t with conditions := [], triggered := false, armed := false }

/-- Whether it has fired since it was armed. -/
def hasTriggered (t : TriggerEngine) : Bool := t.triggered

end TriggerEngine

/-! ### Calls -/

/-- A call on a trigger. -/
inductive TriggerCall where
  | evaluate (prev curr : ScanResult)
  | arm
  | clearConditions

/-- A call that has returned. -/
inductive TriggerEvent where
  | evaluated (prev curr : ScanResult) (fired : Bool)
  | armed
  | cleared

/-- A trigger, and the calls on it that have returned, the last first. -/
structure TriggerRun where
  history : List TriggerEvent
  engine : TriggerEngine

namespace TriggerRun

/-- A trigger in SINGLE mode on which there has been no call. -/
def single (conditions : List TriggerCondition) : TriggerRun := ⟨[], { mode := .single, conditions }⟩

/-- One more call. -/
def step (run : TriggerRun) : TriggerCall → TriggerRun
  | .evaluate prev curr =>
    let (fired, engine) := run.engine.evaluate prev curr
    ⟨.evaluated prev curr fired :: run.history, engine⟩
  | .arm => ⟨.armed :: run.history, run.engine.arm⟩
  | .clearConditions => ⟨.cleared :: run.history, run.engine.clearConditions⟩

/-- The run of some calls. -/
def calls (conditions : List TriggerCondition) (calls : List TriggerCall) : TriggerRun :=
  calls.foldl step (single conditions)

theorem calls_concat (conditions : List TriggerCondition) (cs : List TriggerCall) (c : TriggerCall) :
    calls conditions (cs ++ [c]) = (calls conditions cs).step c := by
  rw [calls, List.foldl_append]
  rfl

end TriggerRun

/-! ### What a history says -/

namespace TriggerEvent

/-- There has been an arm, and no clear after it. -/
def Armed : List TriggerEvent → Prop
  | [] | cleared :: _ => False
  | armed :: _ => True
  | evaluated _ _ _ :: h => Armed h

/-- The conditions in force: none once they have been cleared. -/
def inForce (conditions : List TriggerCondition) : List TriggerEvent → List TriggerCondition
  | [] => conditions
  | cleared :: _ => []
  | _ :: h => inForce conditions h

/-- The pairs that have been evaluated since the last arm or clear. -/
def pairs : List TriggerEvent → List (ScanResult × ScanResult)
  | evaluated prev curr _ :: h => (prev, curr) :: pairs h
  | _ => []

/-- What `evaluate` has returned since the last arm or clear. -/
def returned : List TriggerEvent → List Bool
  | evaluated _ _ fired :: h => fired :: returned h
  | _ => []

/-- What it has returned since the last arm, cleared or not. -/
def returnedSinceArm : List TriggerEvent → List Bool
  | [] | armed :: _ => []
  | cleared :: h => returnedSinceArm h
  | evaluated _ _ fired :: h => fired :: returnedSinceArm h

end TriggerEvent

open TriggerEvent

/-- A pair meets all conditions. -/
def AllHold (conditions : List TriggerCondition) (pair : ScanResult × ScanResult) : Prop :=
  ∀ cond ∈ conditions, cond.Holds pair.1 pair.2

/-- The discipline of a SINGLE trigger: what it has returned, and what it remembers of it. -/
structure Disciplined (conditions : List TriggerCondition) (run : TriggerRun) : Prop where
  /-- It fires at most once after an arm. -/
  once : (returnedSinceArm run.history).count true ≤ 1
  /-- It fires when it is armed, on the first pair since that meets all conditions. -/
  first : ∀ prev curr fired h, evaluated prev curr fired :: h <:+ run.history →
    (fired = true ↔ TriggerEvent.Armed h ∧ AllHold (inForce conditions h) (prev, curr) ∧
      ∀ pair ∈ pairs h, ¬AllHold (inForce conditions h) pair)
  /-- It has triggered if it has fired since the last arm or clear. -/
  remembers : run.engine.hasTriggered = true ↔ true ∈ returned run.history

/-- No pair is evaluated while the trigger is armed without conditions. -/
def Conditioned (conditions : List TriggerCondition) (cs : List TriggerCall) : Prop :=
  ∀ pre prev curr, pre ++ [.evaluate prev curr] <+: cs →
    (TriggerRun.calls conditions pre).engine.armed = true → (TriggerRun.calls conditions pre).engine.conditions ≠ []

/-! ### The invariant -/

/-- What the engine holds of its history. -/
structure Follows (conditions : List TriggerCondition) (run : TriggerRun) : Prop where
  mode : run.engine.mode = .single
  conditions_eq : run.engine.conditions = inForce conditions run.history
  armed_iff : run.engine.armed = true ↔ TriggerEvent.Armed run.history
  /-- When armed, it has fired if a pair has met all conditions. -/
  triggered_iff : TriggerEvent.Armed run.history →
    (run.engine.triggered = true ↔ ∃ pair ∈ pairs run.history, AllHold (inForce conditions run.history) pair)
  /-- Once cleared, it has not. -/
  not_triggered : ¬TriggerEvent.Armed run.history → run.engine.triggered = false
  /-- When armed, what it has returned shows whether it has fired. -/
  count_eq : TriggerEvent.Armed run.history →
    (returnedSinceArm run.history).count true = if run.engine.triggered then 1 else 0
  /-- Without conditions it has not fired. -/
  unconditioned : run.engine.conditions = [] → run.engine.triggered = false

theorem follows_single (conditions : List TriggerCondition) : Follows conditions (.single conditions) where
  mode := rfl
  conditions_eq := rfl
  armed_iff := iff_of_false Bool.false_ne_true id
  triggered_iff h := h.elim
  not_triggered _ := rfl
  count_eq h := h.elim
  unconditioned _ := rfl

/-- A SINGLE trigger that does not lack conditions fires when it is armed, has not fired, and all of them are met. -/
theorem TriggerEngine.evaluate_single {t : TriggerEngine} (hmode : t.mode = .single)
    (hconditions : t.armed = true → t.conditions ≠ []) (prev curr : ScanResult) :
    ∃ fired, t.evaluate prev curr = (fired, { t with triggered := t.triggered || fired }) ∧
      (fired = true ↔ t.armed = true ∧ t.triggered = false ∧ AllHold t.conditions (prev, curr)) := by
  have hmet : t.conditions.all (met prev curr) = true ↔ AllHold t.conditions (prev, curr) := by
    rw [List.all_eq_true]
    exact forall₂_congr fun cond _ => met_iff prev curr cond
  obtain ⟨mode, conditions, triggered, armed⟩ := t
  obtain rfl : mode = .single := hmode
  cases armed with
  | false => exact ⟨false, by rw [Bool.or_false]; rfl, iff_of_false Bool.false_ne_true fun h => Bool.false_ne_true h.1⟩
  | true =>
    cases triggered with
    | true => exact ⟨false, rfl, iff_of_false Bool.false_ne_true fun h => Bool.false_ne_true h.2.1.symm⟩
    | false =>
      have heval : evaluate ⟨.single, conditions, false, true⟩ prev curr =
          if conditions = [] then (true, ⟨.single, conditions, false, true⟩)
          else if conditions.all (met prev curr) then (true, ⟨.single, conditions, true, true⟩)
          else (false, ⟨.single, conditions, false, true⟩) := rfl
      rw [heval, if_neg (hconditions rfl)]
      cases hall : conditions.all (met prev curr) with
      | false =>
        refine ⟨false, rfl, iff_of_false Bool.false_ne_true fun h => ?_⟩
        exact Bool.false_ne_true (hall.symm.trans (hmet.mpr h.2.2))
      | true => exact ⟨true, rfl, iff_of_true rfl ⟨rfl, rfl, hmet.mp hall⟩⟩

/-- A call keeps the invariant, unless it evaluates a pair on a trigger that is armed without conditions. -/
theorem Follows.step {conditions : List TriggerCondition} {run : TriggerRun} (hf : Follows conditions run) {c : TriggerCall}
    (hc : ∀ prev curr, c = .evaluate prev curr → run.engine.armed = true → run.engine.conditions ≠ []) :
    Follows conditions (run.step c) := by
  cases c with
  | arm =>
    exact
      { mode := hf.mode
        conditions_eq := hf.conditions_eq
        armed_iff := iff_of_true rfl trivial
        triggered_iff := fun _ => iff_of_false Bool.false_ne_true fun ⟨_, hm, _⟩ => List.not_mem_nil hm
        not_triggered := fun h => absurd trivial h
        count_eq := fun _ => rfl
        unconditioned := fun _ => rfl }
  | clearConditions =>
    exact
      { mode := hf.mode
        conditions_eq := rfl
        armed_iff := iff_of_false Bool.false_ne_true id
        triggered_iff := fun h => h.elim
        not_triggered := fun _ => rfl
        count_eq := fun h => h.elim
        unconditioned := fun _ => rfl }
  | evaluate prev curr =>
    obtain ⟨fired, he, hfired⟩ := TriggerEngine.evaluate_single hf.mode (hc prev curr rfl) prev curr
    have hstep : run.step (.evaluate prev curr) =
        ⟨.evaluated prev curr fired :: run.history, { run.engine with triggered := run.engine.triggered || fired }⟩ := by
      rw [TriggerRun.step, he]
    rw [hf.conditions_eq, hf.armed_iff] at hfired
    rw [hstep]
    refine ⟨hf.mode, hf.conditions_eq, hf.armed_iff, fun harmed => ?_, fun harmed => ?_, fun harmed => ?_,
      fun hnil => ?_⟩
    · have hold := hf.triggered_iff harmed
      rw [Bool.or_eq_true, hold, hfired]
      constructor
      · rintro (⟨pair, hm, hall⟩ | ⟨-, -, hall⟩)
        · exact ⟨pair, List.mem_cons_of_mem _ hm, hall⟩
        · exact ⟨_, List.mem_cons_self, hall⟩
      · rintro ⟨pair, hm, hall⟩
        rcases List.mem_cons.mp hm with rfl | hm
        · cases ht : run.engine.triggered with
          | true => exact .inl (hold.mp ht)
          | false => exact .inr ⟨harmed, rfl, hall⟩
        · exact .inl ⟨pair, hm, hall⟩
    · have hnot : fired = false := Bool.eq_false_iff.mpr fun h => harmed (hfired.mp h).1
      rw [hnot, Bool.or_false]
      exact hf.not_triggered harmed
    · have hcount := hf.count_eq harmed
      cases ht : run.engine.triggered with
      | true =>
        have hnot : fired = false := by
          rw [ht] at hfired
          exact Bool.eq_false_iff.mpr fun h => Bool.false_ne_true (hfired.mp h).2.1.symm
        rw [ht] at hcount
        rw [hnot, returnedSinceArm, List.count_cons_of_ne Bool.false_ne_true, hcount]
        rfl
      | false =>
        rw [ht] at hcount
        cases fired with
        | true => rw [returnedSinceArm, List.count_cons_self, hcount]; rfl
        | false => rw [returnedSinceArm, List.count_cons_of_ne Bool.false_ne_true, hcount]; rfl
    · have hnot : fired = false :=
        Bool.eq_false_iff.mpr fun h => hc prev curr rfl (hf.armed_iff.mpr (hfired.mp h).1) hnil
      rw [hnot, Bool.or_false]
      exact hf.unconditioned hnil

/-- So every run follows its history, as long as no pair is evaluated while the trigger is armed without conditions. -/
theorem Conditioned.follows {conditions : List TriggerCondition} {cs : List TriggerCall} (h : Conditioned conditions cs) :
    Follows conditions (.calls conditions cs) := by
  induction cs using List.reverseRecOn with
  | nil => exact follows_single conditions
  | append_singleton cs c ih =>
    rw [TriggerRun.calls_concat]
    refine (ih fun pre prev curr hp => h pre prev curr (hp.trans (List.prefix_append _ _))).step fun prev curr he => ?_
    exact h cs prev curr (he ▸ List.prefix_refl _)

/-! ### The discipline -/

/-- The next call keeps the discipline. -/
theorem Disciplined.step {conditions : List TriggerCondition} {run : TriggerRun} (hd : Disciplined conditions run)
    (hf : Follows conditions run) {c : TriggerCall}
    (hc : ∀ prev curr, c = .evaluate prev curr → run.engine.armed = true → run.engine.conditions ≠ []) :
    Disciplined conditions (run.step c) := by
  have hf' := hf.step hc
  cases c with
  | arm =>
    refine ⟨Nat.zero_le _, fun prev curr fired h hs => ?_, iff_of_false Bool.false_ne_true List.not_mem_nil⟩
    rcases List.suffix_cons_iff.mp hs with he | hs
    · cases he
    · exact hd.first prev curr fired h hs
  | clearConditions =>
    refine ⟨hd.once, fun prev curr fired h hs => ?_, iff_of_false Bool.false_ne_true List.not_mem_nil⟩
    rcases List.suffix_cons_iff.mp hs with he | hs
    · cases he
    · exact hd.first prev curr fired h hs
  | evaluate prev curr =>
    obtain ⟨fired, he, hfired⟩ := TriggerEngine.evaluate_single hf.mode (hc prev curr rfl) prev curr
    have hstep : run.step (.evaluate prev curr) =
        ⟨.evaluated prev curr fired :: run.history, { run.engine with triggered := run.engine.triggered || fired }⟩ := by
      rw [TriggerRun.step, he]
    rw [hf.conditions_eq, hf.armed_iff] at hfired
    rw [hstep] at hf' ⊢
    refine ⟨?_, fun prev' curr' fired' h hs => ?_, ?_⟩
    · by_cases harmed : TriggerEvent.Armed run.history
      · rw [hf'.count_eq harmed]
        split <;> decide
      · have hnot : fired = false := Bool.eq_false_iff.mpr fun h => harmed (hfired.mp h).1
        rw [hnot, returnedSinceArm, List.count_cons_of_ne Bool.false_ne_true]
        exact hd.once
    · rcases List.suffix_cons_iff.mp hs with he | hs
      · obtain ⟨he, rfl⟩ := List.cons.inj he
        cases he
        rw [hfired]
        refine and_congr_right fun harmed => ?_
        rw [and_comm, ← Bool.not_eq_true, hf.triggered_iff harmed]
        simp only [not_exists, not_and]
      · exact hd.first prev' curr' fired' h hs
    · show (run.engine.triggered || fired) = true ↔ true ∈ fired :: returned run.history
      rw [Bool.or_eq_true, List.mem_cons, or_comm, eq_comm]
      exact or_congr_right hd.remembers

theorem disciplined_single (conditions : List TriggerCondition) : Disciplined conditions (.single conditions) where
  once := Nat.zero_le _
  first prev curr fired h hs := by
    have := List.suffix_nil.mp hs
    cases this
  remembers := iff_of_false Bool.false_ne_true List.not_mem_nil

theorem Conditioned.disciplined {conditions : List TriggerCondition} {cs : List TriggerCall} (h : Conditioned conditions cs) :
    Disciplined conditions (.calls conditions cs) := by
  induction cs using List.reverseRecOn with
  | nil => exact disciplined_single conditions
  | append_singleton cs c ih =>
    have hcs : Conditioned conditions cs := fun pre prev curr hp => h pre prev curr (hp.trans (List.prefix_append _ _))
    rw [TriggerRun.calls_concat]
    exact (ih hcs).step hcs.follows fun prev curr he => h cs prev curr (he ▸ List.prefix_refl _)

/-- A SINGLE trigger is disciplined throughout a run if and only if no pair is evaluated while it is armed without
conditions. -/
theorem disciplined_iff (conditions : List TriggerCondition) (cs : List TriggerCall) :
    (∀ pre, pre <+: cs → Disciplined conditions (.calls conditions pre)) ↔ Conditioned conditions cs := by
  constructor
  · intro h
    induction cs using List.reverseRecOn with
    | nil =>
      intro pre prev curr hp
      have := List.prefix_nil.mp hp
      simp at this
    | append_singleton cs c ih =>
      have hcs := ih fun pre hp => h pre (hp.trans (List.prefix_append _ _))
      intro pre prev curr hp harmed hnil
      rcases List.prefix_concat_iff.mp hp with he | hp
      · obtain ⟨rfl, hc⟩ := List.append_inj' he rfl
        obtain rfl := List.head_eq_of_cons_eq hc
        have hd := h (pre ++ [.evaluate prev curr]) (List.prefix_refl _)
        have htriggered := hcs.follows.unconditioned hnil
        have heval : (TriggerRun.calls conditions pre).engine.evaluate prev curr =
            (true, (TriggerRun.calls conditions pre).engine) := by
          have hfree : (TriggerRun.calls conditions pre).engine.mode ≠ .freeRun := by rw [hcs.follows.mode]; decide
          rw [TriggerEngine.evaluate, if_neg hfree, harmed, if_neg Bool.true_eq_false.mp, htriggered, hnil]
          rfl
        rw [TriggerRun.calls_concat, TriggerRun.step, heval] at hd
        exact Bool.false_ne_true (htriggered.symm.trans (hd.remembers.mpr List.mem_cons_self))
      · exact hcs pre prev curr hp harmed hnil
  · intro h pre hp
    exact Conditioned.disciplined fun pre' prev curr hp' => h pre' prev curr (hp'.trans hp)

/-- Without conditions a SINGLE trigger fires on two pairs, and has not triggered. -/
theorem unconditioned_fires_again :
    ¬Disciplined [] (.calls [] [.arm, .evaluate {} {}, .evaluate {} {}]) ∧
      (TriggerRun.calls [] [.arm, .evaluate {} {}]).engine.hasTriggered = false :=
  ⟨fun h => absurd h.once (by decide), rfl⟩

end OwlTap.Capture
