import OwlTap.Ila.Trigger

/-!
# The trigger over a stream

`ila_trigger` sees a stream of inputs, valid ones and others, with gaps of any length. Its register
holds the last valid sample, or zero before the first (`IlaTrigger.prevData_run`), so an edge is one
between two valid samples that follow each other, however far apart they are. `Documented` is the
trigger equation read bit by bit, and the output after a cycle is whether the input of that cycle
was valid and satisfies it (`IlaTrigger.matched_iff`).
-/

namespace OwlTap.Ila

variable {dataW : ℕ}

/-! ### The equation, bit by bit -/

namespace TriggerConfig

variable (cfg : TriggerConfig dataW)

/-- The bits of a sample that a mask compares have their values. -/
def LevelOk (mask value dataIn : BitVec dataW) : Prop := ∀ i, mask.getLsbD i = true → dataIn.getLsbD i = value.getLsbD i

/-- A bit that may rise has risen, or one that may fall has fallen; or no edge is asked for. -/
def EdgeOk (prevData dataIn : BitVec dataW) : Prop :=
  (cfg.riseMask = 0 ∧ cfg.fallMask = 0) ∨
    (∃ i, cfg.riseMask.getLsbD i = true ∧ prevData.getLsbD i = false ∧ dataIn.getLsbD i = true) ∨
    ∃ i, cfg.fallMask.getLsbD i = true ∧ prevData.getLsbD i = true ∧ dataIn.getLsbD i = false

/-- Group A is in use. -/
def ActiveA : Prop := cfg.mask ≠ 0 ∨ cfg.riseMask ≠ 0 ∨ cfg.fallMask ≠ 0

/-- Group B is in use. -/
def ActiveB : Prop := cfg.mask2 ≠ 0

/-- The documented equation: level and edge in group A, level in group B, and their combination. -/
def Documented (prevData dataIn : BitVec dataW) : Prop :=
  if cfg.orMode then
    cfg.ActiveA ∧ LevelOk cfg.mask cfg.value dataIn ∧ cfg.EdgeOk prevData dataIn ∨
      cfg.ActiveB ∧ LevelOk cfg.mask2 cfg.val2 dataIn
  else
    (cfg.ActiveA → LevelOk cfg.mask cfg.value dataIn ∧ cfg.EdgeOk prevData dataIn) ∧
      (cfg.ActiveB → LevelOk cfg.mask2 cfg.val2 dataIn) ∧ (cfg.ActiveA ∨ cfg.ActiveB)

theorem ne_zero_iff_exists (x : BitVec dataW) : x ≠ 0 ↔ ∃ i, x.getLsbD i = true := by
  constructor
  · intro hx
    by_contra hnone
    push Not at hnone
    refine hx (BitVec.eq_of_getLsbD_eq fun i _ => ?_)
    rw [BitVec.ofNat_eq_ofNat, BitVec.getLsbD_zero]
    exact eq_false_of_ne_true (hnone i)
  · rintro ⟨i, hi⟩ rfl
    rw [BitVec.ofNat_eq_ofNat, BitVec.getLsbD_zero] at hi
    cases hi

/-- The masked words are equal when the bits are. -/
theorem levelOk_iff (mask value dataIn : BitVec dataW) :
    (mask = 0 ∨ dataIn &&& mask = value &&& mask) ↔ LevelOk mask value dataIn := by
  have hbit : ∀ i, (dataIn &&& mask).getLsbD i = (value &&& mask).getLsbD i ↔
      (mask.getLsbD i = true → dataIn.getLsbD i = value.getLsbD i) := fun i => by
    rw [BitVec.getLsbD_and, BitVec.getLsbD_and]
    cases mask.getLsbD i <;> simp
  constructor
  · rintro (rfl | h) i hi
    · exact absurd rfl ((ne_zero_iff_exists _).mpr ⟨i, hi⟩)
    · exact (hbit i).mp (congrArg (·.getLsbD i) h) hi
  · intro h
    exact .inr (BitVec.eq_of_getLsbD_eq fun i _ => (hbit i).mpr (h i))

theorem edgeOk_iff (prevData dataIn : BitVec dataW) :
    (cfg.riseMask = 0 ∧ cfg.fallMask = 0 ∨ ~~~prevData &&& dataIn &&& cfg.riseMask ≠ 0 ∨
      prevData &&& ~~~dataIn &&& cfg.fallMask ≠ 0) ↔ cfg.EdgeOk prevData dataIn := by
  -- a bit of a mask that is set is one of the word's
  have hlt : ∀ {mask : BitVec dataW} {i : ℕ}, mask.getLsbD i = true → i < dataW := fun h => BitVec.lt_of_getLsbD h
  have hrise : ~~~prevData &&& dataIn &&& cfg.riseMask ≠ 0 ↔
      ∃ i, cfg.riseMask.getLsbD i = true ∧ prevData.getLsbD i = false ∧ dataIn.getLsbD i = true := by
    rw [ne_zero_iff_exists]
    refine exists_congr fun i => ?_
    rw [BitVec.getLsbD_and, BitVec.getLsbD_and, BitVec.getLsbD_not, Bool.and_eq_true_iff, Bool.and_eq_true_iff,
      Bool.and_eq_true_iff, decide_eq_true_iff, Bool.not_eq_true']
    exact ⟨fun ⟨⟨⟨_, h₁⟩, h₂⟩, h₃⟩ => ⟨h₃, h₁, h₂⟩, fun ⟨h₃, h₁, h₂⟩ => ⟨⟨⟨hlt h₃, h₁⟩, h₂⟩, h₃⟩⟩
  have hfall : prevData &&& ~~~dataIn &&& cfg.fallMask ≠ 0 ↔
      ∃ i, cfg.fallMask.getLsbD i = true ∧ prevData.getLsbD i = true ∧ dataIn.getLsbD i = false := by
    rw [ne_zero_iff_exists]
    refine exists_congr fun i => ?_
    rw [BitVec.getLsbD_and, BitVec.getLsbD_and, BitVec.getLsbD_not, Bool.and_eq_true_iff, Bool.and_eq_true_iff,
      Bool.and_eq_true_iff, decide_eq_true_iff, Bool.not_eq_true']
    exact ⟨fun ⟨⟨h₁, _, h₂⟩, h₃⟩ => ⟨h₃, h₁, h₂⟩, fun ⟨h₃, h₁, h₂⟩ => ⟨⟨h₁, hlt h₃, h₂⟩, h₃⟩⟩
  rw [hrise, hfall]
  rfl

/-- The equation on words is the documented one. -/
theorem equation_iff (prevData dataIn : BitVec dataW) : cfg.Equation prevData dataIn ↔ cfg.Documented prevData dataIn := by
  have hA : cfg.trigActiveA = true ↔ cfg.ActiveA := by
    simp only [trigActiveA, ActiveA, Bool.or_eq_true_iff, bne_iff_ne, or_assoc]
  have hB : cfg.trigActiveB = true ↔ cfg.ActiveB := by
    rw [trigActiveB, bne_iff_ne]
    rfl
  have hgroupA : cfg.EquationA prevData dataIn ↔
      cfg.ActiveA ∧ LevelOk cfg.mask cfg.value dataIn ∧ cfg.EdgeOk prevData dataIn := by
    rw [EquationA, levelOk_iff, edgeOk_iff, ActiveA]
  have hgroupB : cfg.EquationB dataIn ↔ cfg.ActiveB ∧ LevelOk cfg.mask2 cfg.val2 dataIn := by
    rw [EquationB, ← levelOk_iff]
    exact ⟨fun h => ⟨h.1, .inr h.2⟩, fun h => ⟨h.1, h.2.resolve_left h.1⟩⟩
  rw [Equation, Documented, hA, hB, hgroupA, hgroupB]
  split
  · rfl
  · have himp : ∀ p q : Prop, (p → p ∧ q) ↔ (p → q) := fun _ _ => ⟨fun h hp => (h hp).2, fun h hp => ⟨hp, h hp⟩⟩
    rw [himp, himp]

end TriggerConfig

/-! ### Streams -/

/-- One input of the comparator: whether it is valid, and the sample. -/
abbrev StreamInput (dataW : ℕ) := Bool × BitVec dataW

/-- The last valid sample of a stream; zero if there is none. -/
def lastValid (ins : List (StreamInput dataW)) : BitVec dataW := ((ins.filter Prod.fst).getLast?.map Prod.snd).getD 0

theorem lastValid_append (ins : List (StreamInput dataW)) (i : StreamInput dataW) :
    lastValid (ins ++ [i]) = if i.1 then i.2 else lastValid ins := by
  obtain ⟨valid, data⟩ := i
  rw [lastValid, List.filter_append]
  cases valid with
  | true => simp
  | false => simp [lastValid]

namespace IlaTrigger

/-- The registers after a reset. -/
def reset : IlaTrigger dataW := ⟨0, false⟩

/-- The registers after a stream of inputs. -/
def run (cfg : TriggerConfig dataW) (t : IlaTrigger dataW) (ins : List (StreamInput dataW)) : IlaTrigger dataW :=
  ins.foldl (fun t i => t.clock cfg i.2 i.1) t

variable (cfg : TriggerConfig dataW)

theorem run_append (t : IlaTrigger dataW) (ins : List (StreamInput dataW)) (i : StreamInput dataW) :
    run cfg t (ins ++ [i]) = (run cfg t ins).clock cfg i.2 i.1 := List.foldl_append

/-- The register holds the last valid sample. -/
theorem prevData_run (ins : List (StreamInput dataW)) : (run cfg reset ins).prevData = lastValid ins := by
  induction ins using List.reverseRecOn with
  | nil => rfl
  | append_singleton ins i ih =>
    rw [run_append, lastValid_append, ← ih]
    rfl

/-- **The trigger over a stream.** Whatever came before, the output after a cycle is high if and only if the input
of the cycle was valid and satisfied the documented equation, with its edges since the last valid sample before. -/
theorem matched_iff (ins : List (StreamInput dataW)) (i : StreamInput dataW) :
    (run cfg reset (ins ++ [i])).matched = true ↔ i.1 = true ∧ cfg.Documented (lastValid ins) i.2 := by
  rw [run_append, ← prevData_run cfg, ← TriggerConfig.equation_iff, ← TriggerConfig.fire_eq_true_iff,
    ← Bool.and_eq_true_iff]
  rfl

/-- An edge over a gap, in which the data are high but not valid. -/
example : (run (⟨0, 0, 1, 0, 0, 0, false⟩ : TriggerConfig 8) reset [(true, 0), (false, 1), (false, 1), (true, 1)]).matched = true := by
  decide

end IlaTrigger

/-! ### In the core -/

/-- The comparator of the core sees the samples of its inputs. -/
theorem SampleCore.trig_run {addrW : ℕ} (cfg : TriggerConfig dataW) (p : BitVec addrW) (c : SampleCore dataW addrW)
    (ins : List (SampleInputs dataW)) :
    (c.run cfg p ins).trig = c.trig.run cfg (ins.map fun i => (i.dataValid, i.dataIn)) := by
  induction ins generalizing c with
  | nil => rfl
  | cons i ins ih => exact ih (c.clock cfg p i)

end OwlTap.Ila
