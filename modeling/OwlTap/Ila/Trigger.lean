import OwlTap.Ila.CaptureFsm

/-!
# The trigger comparator with the capture state machine

`ila_trigger` registers its match, and `ila_capture_fsm` looks at it in the cycles with a
valid sample: the match of a sample is seen in the next cycle or not at all, and a pulse on
`force_trig` only together with a sample. So a trigger is taken if and only if it is
followed up in time (`SampleCore.keeps_iff`).
-/

namespace OwlTap.Ila

variable {dataW addrW : ℕ}

/-- The configuration of the comparator. -/
structure TriggerConfig (dataW : ℕ) where
  /-- Group A: the bits compared. -/
  mask : BitVec dataW
  /-- Group A: their values. -/
  value : BitVec dataW
  /-- Group A: the bits that may rise. -/
  riseMask : BitVec dataW := 0
  /-- Group A: the bits that may fall. -/
  fallMask : BitVec dataW := 0
  /-- Group B: the bits compared. -/
  mask2 : BitVec dataW := 0
  /-- Group B: their values. -/
  val2 : BitVec dataW := 0
  /-- One of the groups is enough. -/
  orMode : Bool := false

namespace TriggerConfig

/-- Group A is in use. -/
def trigActiveA (cfg : TriggerConfig dataW) : Bool := cfg.mask != 0 || cfg.riseMask != 0 || cfg.fallMask != 0

/-- Group A matches, on levels and on an edge since the sample before. -/
def matchA (cfg : TriggerConfig dataW) (prevData dataIn : BitVec dataW) : Bool :=
  cfg.trigActiveA &&
    (cfg.mask == 0 || dataIn &&& cfg.mask == cfg.value &&& cfg.mask) &&
    (cfg.riseMask == 0 && cfg.fallMask == 0 ||
      ~~~prevData &&& dataIn &&& cfg.riseMask != 0 || prevData &&& ~~~dataIn &&& cfg.fallMask != 0)

/-- Group B is in use. -/
def trigActiveB (cfg : TriggerConfig dataW) : Bool := cfg.mask2 != 0

/-- Group B matches, on levels. -/
def matchB (cfg : TriggerConfig dataW) (dataIn : BitVec dataW) : Bool :=
  cfg.trigActiveB && (cfg.mask2 == 0 || dataIn &&& cfg.mask2 == cfg.val2 &&& cfg.mask2)

/-- The trigger equation. -/
def fire (cfg : TriggerConfig dataW) (prevData dataIn : BitVec dataW) : Bool :=
  if cfg.orMode then cfg.matchA prevData dataIn || cfg.matchB dataIn
  else (!cfg.trigActiveA || cfg.matchA prevData dataIn) && (!cfg.trigActiveB || cfg.matchB dataIn) &&
    (cfg.trigActiveA || cfg.trigActiveB)

/-- Group A by its documentation: levels and an edge, of those that are configured. -/
def EquationA (cfg : TriggerConfig dataW) (prevData dataIn : BitVec dataW) : Prop :=
  (cfg.mask ≠ 0 ∨ cfg.riseMask ≠ 0 ∨ cfg.fallMask ≠ 0) ∧
    (cfg.mask = 0 ∨ dataIn &&& cfg.mask = cfg.value &&& cfg.mask) ∧
    (cfg.riseMask = 0 ∧ cfg.fallMask = 0 ∨ ~~~prevData &&& dataIn &&& cfg.riseMask ≠ 0 ∨
      prevData &&& ~~~dataIn &&& cfg.fallMask ≠ 0)

/-- Group B by its documentation. -/
def EquationB (cfg : TriggerConfig dataW) (dataIn : BitVec dataW) : Prop :=
  cfg.mask2 ≠ 0 ∧ dataIn &&& cfg.mask2 = cfg.val2 &&& cfg.mask2

/-- The trigger equation by its documentation: in OR mode one of the groups, otherwise each group in
use, and one is. -/
def Equation (cfg : TriggerConfig dataW) (prevData dataIn : BitVec dataW) : Prop :=
  if cfg.orMode then cfg.EquationA prevData dataIn ∨ cfg.EquationB dataIn
  else (cfg.trigActiveA = true → cfg.EquationA prevData dataIn) ∧ (cfg.trigActiveB = true → cfg.EquationB dataIn) ∧
    (cfg.trigActiveA = true ∨ cfg.trigActiveB = true)

theorem matchA_eq_true_iff (cfg : TriggerConfig dataW) (prevData dataIn : BitVec dataW) :
    cfg.matchA prevData dataIn = true ↔ cfg.EquationA prevData dataIn := by
  simp only [matchA, trigActiveA, EquationA, Bool.and_eq_true_iff, Bool.or_eq_true_iff, bne_iff_ne, beq_iff_eq,
    ne_eq, or_assoc, and_assoc]

theorem matchB_eq_true_iff (cfg : TriggerConfig dataW) (dataIn : BitVec dataW) :
    cfg.matchB dataIn = true ↔ cfg.EquationB dataIn := by
  simp only [matchB, trigActiveB, EquationB, Bool.and_eq_true_iff, Bool.or_eq_true_iff, bne_iff_ne, beq_iff_eq]
  exact ⟨fun ⟨h, h'⟩ => ⟨h, h'.resolve_left h⟩, fun ⟨h, h'⟩ => ⟨h, .inr h'⟩⟩

/-- The comparator computes the documented equation. -/
theorem fire_eq_true_iff (cfg : TriggerConfig dataW) (prevData dataIn : BitVec dataW) :
    cfg.fire prevData dataIn = true ↔ cfg.Equation prevData dataIn := by
  have himp : ∀ a b : Bool, (!a || b) = true ↔ (a = true → b = true) := by decide
  rw [fire, Equation]
  split
  · rw [Bool.or_eq_true_iff, matchA_eq_true_iff, matchB_eq_true_iff]
  · rw [Bool.and_eq_true_iff, Bool.and_eq_true_iff, himp, himp, Bool.or_eq_true_iff, matchA_eq_true_iff,
      matchB_eq_true_iff, and_assoc]

end TriggerConfig

/-- The registers of `ila_trigger`. -/
structure IlaTrigger (dataW : ℕ) where
  /-- The last valid sample. -/
  prevData : BitVec dataW
  /-- The output, `match`. -/
  matched : Bool
  deriving DecidableEq, Repr

/-- One cycle of the sample clock. -/
def IlaTrigger.clock (cfg : TriggerConfig dataW) (dataIn : BitVec dataW) (validIn : Bool) (t : IlaTrigger dataW) :
    IlaTrigger dataW where
  prevData := if validIn then dataIn else t.prevData
  matched := validIn && cfg.fire t.prevData dataIn

/-- The inputs of the core in one cycle of the sample clock. -/
structure SampleInputs (dataW : ℕ) where
  /-- A pulse to begin a capture. -/
  arm : Bool := false
  /-- A pulse to end it. -/
  stop : Bool := false
  /-- A pulse to drop it. -/
  reset : Bool := false
  /-- A pulse to trigger without a match. -/
  force : Bool := false
  /-- There is a sample. -/
  dataValid : Bool := false
  /-- The sample. -/
  dataIn : BitVec dataW := 0
  deriving DecidableEq, Repr

/-- The comparator and the state machine together. -/
structure SampleCore (dataW addrW : ℕ) where
  /-- The comparator. -/
  trig : IlaTrigger dataW
  /-- The state machine. -/
  fsm : CaptureFsm addrW
  deriving DecidableEq, Repr

namespace SampleCore

/-- The registers after a reset. -/
def reset : SampleCore dataW addrW := ⟨⟨0, false⟩, .reset⟩

/-- What the state machine sees: the comparator's output is a cycle old. -/
def fsmInputs (i : SampleInputs dataW) (c : SampleCore dataW addrW) : CaptureFsm.Inputs :=
  ⟨i.arm, i.stop, i.reset, i.force, i.dataValid, c.trig.matched⟩

/-- One cycle of the sample clock. -/
def clock (cfg : TriggerConfig dataW) (p : BitVec addrW) (i : SampleInputs dataW) (c : SampleCore dataW addrW) :
    SampleCore dataW addrW :=
  ⟨c.trig.clock cfg i.dataIn i.dataValid, c.fsm.clock p (c.fsmInputs i)⟩

/-- The core after a run. -/
def run (cfg : TriggerConfig dataW) (p : BitVec addrW) (c : SampleCore dataW addrW) (ins : List (SampleInputs dataW)) :
    SampleCore dataW addrW :=
  ins.foldl (fun c i => c.clock cfg p i) c

section

variable (cfg : TriggerConfig dataW) (p : BitVec addrW)

theorem run_append (c : SampleCore dataW addrW) (a b : List (SampleInputs dataW)) :
    c.run cfg p (a ++ b) = (c.run cfg p a).run cfg p b :=
  List.foldl_append

/-- Neither a stop nor a reset. -/
def Undisturbed (ins : List (SampleInputs dataW)) : Prop := ∀ i ∈ ins, i.stop = false ∧ i.reset = false

instance (ins : List (SampleInputs dataW)) : Decidable (Undisturbed ins) :=
  inferInstanceAs (Decidable (∀ i ∈ ins, i.stop = false ∧ i.reset = false))

/-- A valid sample satisfies the documented trigger equation. -/
def Fires (c : SampleCore dataW addrW) (e : SampleInputs dataW) : Prop :=
  e.dataValid = true ∧ cfg.Equation c.trig.prevData e.dataIn

/-- The trigger has been taken. -/
def Taken (c : SampleCore dataW addrW) : Prop := c.fsm.state = .triggered ∨ c.fsm.state = .full

instance (c : SampleCore dataW addrW) : Decidable (Taken c) := inferInstanceAs (Decidable (_ ∨ _))

/-- Whatever asks for the trigger while the core is armed: a sample or a pulse in cycle `e`, and
the next valid sample `v` after a gap; neither a stop nor a reset comes. -/
structure Request (c : SampleCore dataW addrW) (ins before gap : List (SampleInputs dataW))
    (e v : SampleInputs dataW) : Prop where
  /-- Where it is in the run. -/
  split : ∃ after, ins = before ++ e :: gap ++ v :: after
  /-- The core is armed. -/
  armed : (c.run cfg p before).fsm.state = .armed
  /-- A sample satisfies the equation, or there is a pulse. -/
  asks : (c.run cfg p before).Fires cfg e ∨ e.force = true
  /-- There are no samples in the gap. -/
  empty : ∀ i ∈ gap, i.dataValid = false
  /-- The next one. -/
  next : v.dataValid = true
  /-- No stop, no reset. -/
  undisturbed : Undisturbed (e :: gap ++ [v])

/-- In a run no trigger is lost: whatever asks for one, it is taken at the latest with the next valid
sample. -/
def Keeps (c : SampleCore dataW addrW) (ins : List (SampleInputs dataW)) : Prop :=
  ∀ before gap e v, Request cfg p c ins before gap e v → (c.run cfg p (before ++ e :: gap ++ [v])).Taken

/-- In a run every request is followed up: the sample that satisfies the equation by a sample in the
very next cycle; or a trigger is taken in the cycle of the request itself, which has a sample, by a
match of the cycle before or by a pulse; or there is a pulse with the next sample. -/
def FollowedUp (c : SampleCore dataW addrW) (ins : List (SampleInputs dataW)) : Prop :=
  ∀ before gap e v, Request cfg p c ins before gap e v →
    (c.run cfg p before).Fires cfg e ∧ gap = [] ∨
      e.dataValid = true ∧ ((c.run cfg p before).trig.matched = true ∨ e.force = true) ∨ v.force = true

/-! ### One cycle, and a gap -/

/-- A cycle in ARMED. -/
theorem clock_armed {c : SampleCore dataW addrW} (hs : c.fsm.state = .armed) {i : SampleInputs dataW}
    (hi : i.stop = false ∧ i.reset = false) :
    (c.clock cfg p i).fsm.state =
      if i.dataValid && (c.trig.matched || i.force) then .triggered else .armed := by
  show CaptureFsm.nextState p (c.fsmInputs i) c.fsm = _
  simp [CaptureFsm.nextState, hs, fsmInputs, hi]

/-- Once taken, the trigger stays so until a reset or a new `arm`. -/
theorem Taken.clock {c : SampleCore dataW addrW} (h : c.fsm.state = .triggered) {i : SampleInputs dataW}
    (hi : i.stop = false ∧ i.reset = false) :
    (c.clock cfg p i).fsm.state = .triggered ∨ i.dataValid = true ∧ (c.clock cfg p i).fsm.state = .full := by
  have hstate : (c.clock cfg p i).fsm.state = CaptureFsm.nextState p (c.fsmInputs i) c.fsm := rfl
  rw [hstate, CaptureFsm.nextState, h]
  by_cases hv : i.dataValid = true
  · by_cases hfull : (CaptureFsm.postTarget p).setWidth addrW ≤ c.fsm.postCnt + 1
    · exact .inr ⟨hv, by simpa [fsmInputs, hi, hv] using hfull⟩
    · exact .inl (by simpa [fsmInputs, hi, hv] using hfull)
  · simp [fsmInputs, hi, hv]

/-- A gap without samples changes nothing but the comparator's output, which it clears. -/
theorem run_gap {c : SampleCore dataW addrW} (hs : c.fsm.state = .armed ∨ c.fsm.state = .triggered)
    {gap : List (SampleInputs dataW)} (hg : ∀ i ∈ gap, i.dataValid = false) (hu : Undisturbed gap) :
    (c.run cfg p gap).fsm.state = c.fsm.state ∧
      (c.run cfg p gap).trig.matched = (decide (gap = []) && c.trig.matched) := by
  induction gap generalizing c with
  | nil => exact ⟨rfl, by simp [run]⟩
  | cons i gap ih =>
    have hi := hg i List.mem_cons_self
    have hui := hu i List.mem_cons_self
    have hstate : (c.clock cfg p i).fsm.state = c.fsm.state := by
      rcases hs with h | h
      · rw [clock_armed cfg p h hui, hi, h]; rfl
      · rcases Taken.clock cfg p h hui with h' | ⟨h', -⟩
        · rw [h', h]
        · simp [hi] at h'
    have hmatched : (c.clock cfg p i).trig.matched = false := by simp [SampleCore.clock, IlaTrigger.clock, hi]
    obtain ⟨hrun, hout⟩ := ih (c := c.clock cfg p i) (by rwa [hstate]) (fun j hj => hg j (List.mem_cons_of_mem _ hj))
      (fun j hj => hu j (List.mem_cons_of_mem _ hj))
    refine ⟨hrun.trans hstate, ?_⟩
    have : (c.run cfg p (i :: gap)).trig.matched = ((c.clock cfg p i).run cfg p gap).trig.matched := rfl
    rw [this, hout, hmatched]
    simp

/-- Whether a request is answered. -/
theorem taken_iff {c : SampleCore dataW addrW} {ins before gap : List (SampleInputs dataW)} {e v : SampleInputs dataW}
    (h : Request cfg p c ins before gap e v) :
    (c.run cfg p (before ++ e :: gap ++ [v])).Taken ↔
      (c.run cfg p before).Fires cfg e ∧ gap = [] ∨
        e.dataValid = true ∧ ((c.run cfg p before).trig.matched = true ∨ e.force = true) ∨ v.force = true := by
  have hue : e.stop = false ∧ e.reset = false := h.undisturbed e (by simp)
  have huv : v.stop = false ∧ v.reset = false := h.undisturbed v (by simp)
  have hug : Undisturbed gap := fun i hi => h.undisturbed i (by simp [hi])
  have hsplit : c.run cfg p (before ++ e :: gap ++ [v]) =
      ((((c.run cfg p before).clock cfg p e).run cfg p gap).clock cfg p v) := by
    rw [List.append_assoc, run_append]
    show ((c.run cfg p before).clock cfg p e).run cfg p (gap ++ [v]) = _
    rw [run_append]
    rfl
  have hfirst := clock_armed cfg p h.armed hue
  have hmatch : ((c.run cfg p before).clock cfg p e).trig.matched =
      (e.dataValid && cfg.fire (c.run cfg p before).trig.prevData e.dataIn) := rfl
  rw [hsplit]
  by_cases hnow : (e.dataValid && ((c.run cfg p before).trig.matched || e.force)) = true
  · -- the trigger is taken in the cycle of the request
    rw [if_pos hnow] at hfirst
    obtain ⟨hgap, -⟩ := run_gap cfg p (.inr hfirst) h.empty hug
    have htaken := Taken.clock cfg p (hgap.trans hfirst) huv
    rw [Bool.and_eq_true_iff, Bool.or_eq_true_iff] at hnow
    exact ⟨fun _ => .inr (.inl hnow), fun _ => htaken.imp id And.right⟩
  · rw [if_neg hnow] at hfirst
    obtain ⟨hgap, hout⟩ := run_gap cfg p (.inl hfirst) h.empty hug
    rw [Taken, clock_armed cfg p (hgap.trans hfirst) huv, h.next, Bool.true_and, hout, hmatch]
    rw [Bool.and_eq_true_iff, Bool.or_eq_true_iff] at hnow
    by_cases hlate : (decide (gap = []) && (e.dataValid && cfg.fire (c.run cfg p before).trig.prevData e.dataIn) ||
        v.force) = true
    · rw [if_pos hlate]
      simp only [Bool.or_eq_true_iff, Bool.and_eq_true_iff, decide_eq_true_eq] at hlate
      refine ⟨fun _ => ?_, fun _ => .inl rfl⟩
      rcases hlate with ⟨hg, hf⟩ | hf
      · exact .inl ⟨⟨hf.1, (cfg.fire_eq_true_iff _ _).mp hf.2⟩, hg⟩
      · exact .inr (.inr hf)
    · rw [if_neg hlate]
      simp only [Bool.or_eq_true_iff, Bool.and_eq_true_iff, decide_eq_true_eq] at hlate
      refine ⟨fun ht => absurd ht (by decide), fun hf => absurd ?_ hlate⟩
      rcases hf with ⟨hf, hg⟩ | hf | hf
      · exact .inl ⟨hg, hf.1, (cfg.fire_eq_true_iff _ _).mpr hf.2⟩
      · exact absurd hf hnow
      · exact .inr hf

/-- **No lost trigger.** A run loses no trigger if and only if every request is followed up in time. -/
theorem keeps_iff (c : SampleCore dataW addrW) (ins : List (SampleInputs dataW)) :
    Keeps cfg p c ins ↔ FollowedUp cfg p c ins :=
  forall_congr' fun _ => forall_congr' fun _ => forall_congr' fun _ => forall_congr' fun _ =>
    forall_congr' fun h => taken_iff cfg p h

end

/-- A sample that matches, and the next one a cycle later than it could be; and a pulse between two
samples. -/
theorem not_keeps_gap :
    ¬Keeps (⟨1, 1, 0, 0, 0, 0, false⟩ : TriggerConfig 32) (0 : BitVec 2) reset
        [{ arm := true }, { dataValid := true, dataIn := 1 }, {}, { dataValid := true, dataIn := 0 }] ∧
      ¬Keeps (⟨1, 1, 0, 0, 0, 0, false⟩ : TriggerConfig 32) (0 : BitVec 2) reset
        [{ arm := true }, { force := true }, { dataValid := true, dataIn := 0 }] := by
  constructor
  · intro h
    refine absurd (h [{ arm := true }] [{}] { dataValid := true, dataIn := 1 } { dataValid := true, dataIn := 0 }
      ⟨⟨[], rfl⟩, by decide, .inl ⟨rfl, (TriggerConfig.fire_eq_true_iff _ _ _).mp (by decide)⟩, by decide, rfl, by decide⟩) (by decide)
  · intro h
    refine absurd (h [{ arm := true }] [] { force := true } { dataValid := true, dataIn := 0 }
      ⟨⟨[], rfl⟩, by decide, .inr rfl, by decide, rfl, by decide⟩) (by decide)

end SampleCore

end OwlTap.Ila
