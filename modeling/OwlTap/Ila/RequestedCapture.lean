import OwlTap.Ila.GeneratedCores
import OwlTap.Ila.Trigger

/-!
# The capture that a tool requests

`ila_run_capture` drops an earlier capture, configures a trigger that it calls match-all, arms the
core, forces the trigger if it is asked to, and waits until the capture is full. To the comparator
a trigger without a mask is not in use, and never fires; so the capture is left to the pulse that
forces it, which counts only in a cycle with a sample.
-/

namespace OwlTap.Ila

variable {dataW addrW : ℕ}

/-- The trigger that the registers configure. -/
def IlaRegs.trigger (r : IlaRegs dataW addrW) : TriggerConfig dataW where
  mask := r.trigMask
  value := r.trigValue
  riseMask := r.trigRiseMask
  fallMask := r.trigFallMask
  mask2 := r.trigMask2
  val2 := r.trigVal2
  orMode := r.trigOrMode

/-- The setup that the tool calls match-all. -/
def matchAll (pre : BitVec 16) : TriggerSetup := { mask := 0, value := 0, preSamples := pre }

/-- In the registers of a core, which is of version 3, it is a trigger that compares nothing. -/
theorem trigger_matchAll (pre : BitVec 16) (r : IlaRegs dataW addrW) :
    ((matchAll pre).stored 3 r).trigger = ⟨0, 0, 0, 0, 0, 0, false⟩ := by
  simp [TriggerSetup.stored, matchAll, IlaRegs.trigger]

/-- Such a trigger never fires. -/
theorem fire_matchAll (pre : BitVec 16) (r : IlaRegs dataW addrW) (prevData dataIn : BitVec dataW) :
    ((matchAll pre).stored 3 r).trigger.fire prevData dataIn = false := by
  simp [trigger_matchAll, TriggerConfig.fire, TriggerConfig.trigActiveA, TriggerConfig.trigActiveB]

/-! ### The cycles of a request -/

/-- A cycle of the sample clock while the registers may change. -/
structure SetupCycle (dataW addrW : ℕ) where
  /-- The trigger. -/
  cfg : TriggerConfig dataW
  /-- The samples before it. -/
  pre : BitVec addrW
  /-- The inputs. -/
  ins : SampleInputs dataW

/-- What the sample clock domain sees of a request. -/
structure CaptureRequest (dataW addrW : ℕ) where
  /-- The trigger is to be forced. -/
  force : Bool
  /-- The cycle with the pulse that drops the earlier capture. -/
  resetCycle : SetupCycle dataW addrW
  /-- There is no pulse to begin one in it. -/
  reset_pulse : resetCycle.ins.reset = true ∧ resetCycle.ins.arm = false
  /-- The cycles while the trigger is configured. -/
  configuring : List (SetupCycle dataW addrW)
  /-- There are no pulses in them. -/
  quiet : ∀ c ∈ configuring, c.ins.arm = false ∧ c.ins.stop = false ∧ c.ins.reset = false ∧ c.ins.force = false
  /-- The cycle with the pulse that arms the core. -/
  armCycle : SampleInputs dataW
  /-- There is no pulse to end or drop the capture in it. -/
  arm_pulse : armCycle.arm = true ∧ armCycle.stop = false ∧ armCycle.reset = false
  /-- The cycles after it. -/
  stream : ℕ → SampleInputs dataW
  /-- There is no pulse in them but to force the trigger. -/
  undisturbed : ∀ n, (stream n).arm = false ∧ (stream n).stop = false ∧ (stream n).reset = false
  /-- That pulse comes if it is to. -/
  forced : force = true ↔ armCycle.force = true ∨ ∃ n, (stream n).force = true
  /-- It comes once. -/
  once : ∀ n m, (stream n).force = true → (stream m).force = true → n = m
  /-- There are unboundedly many samples. -/
  valid : ∀ n, ∃ m, n ≤ m ∧ (stream m).dataValid = true

namespace SampleCore

/-- The core after `n` cycles of a stream. -/
def after (cfg : TriggerConfig dataW) (p : BitVec addrW) (stream : ℕ → SampleInputs dataW) (c : SampleCore dataW addrW) :
    ℕ → SampleCore dataW addrW
  | 0 => c
  | n + 1 => (after cfg p stream c n).clock cfg p (stream n)

/-- The core after the cycles of a request up to the one that arms it. -/
def prepared (q : CaptureRequest dataW addrW) (cfg : TriggerConfig dataW) (p : BitVec addrW)
    (c : SampleCore dataW addrW) : SampleCore dataW addrW :=
  ((q.resetCycle :: q.configuring).foldl (fun c s => c.clock s.cfg s.pre s.ins) c).clock cfg p q.armCycle

/-- With the registers as they are configured the capture is full at some time. -/
def Completes (q : CaptureRequest dataW addrW) (r : IlaRegs dataW addrW) (c : SampleCore dataW addrW) : Prop :=
  ∃ n, (after r.trigger r.preSamples q.stream (prepared q r.trigger r.preSamples c) n).fsm.state = .full

/-! ### Before the samples -/

/-- A pulse drops a capture in any state. -/
theorem clock_reset (cfg : TriggerConfig dataW) (p : BitVec addrW) (c : SampleCore dataW addrW) {i : SampleInputs dataW}
    (h : i.reset = true ∧ i.arm = false) : (c.clock cfg p i).fsm.state = .idle := by
  show CaptureFsm.nextState p (c.fsmInputs i) c.fsm = _
  cases hs : c.fsm.state <;> simp [CaptureFsm.nextState, hs, fsmInputs, h]

/-- Without a pulse that arms it, the core stays idle. -/
theorem clock_idle (cfg : TriggerConfig dataW) (p : BitVec addrW) {c : SampleCore dataW addrW} {i : SampleInputs dataW}
    (hs : c.fsm.state = .idle) (h : i.arm = false) : (c.clock cfg p i).fsm.state = .idle := by
  show CaptureFsm.nextState p (c.fsmInputs i) c.fsm = _
  simp [CaptureFsm.nextState, hs, fsmInputs, h]

theorem foldl_idle {cycles : List (SetupCycle dataW addrW)} (hquiet : ∀ s ∈ cycles, s.ins.arm = false)
    {c : SampleCore dataW addrW} (hs : c.fsm.state = .idle) :
    (cycles.foldl (fun c s => c.clock s.cfg s.pre s.ins) c).fsm.state = .idle := by
  induction cycles generalizing c with
  | nil => exact hs
  | cons s cycles ih =>
    exact ih (fun s hm => hquiet s (List.mem_cons_of_mem _ hm)) (clock_idle s.cfg s.pre hs (hquiet s List.mem_cons_self))

/-- The core is armed, whatever state it was in before; with a trigger that does not fire its comparator
shows no match. -/
theorem prepared_armed (q : CaptureRequest dataW addrW) {cfg : TriggerConfig dataW} (p : BitVec addrW)
    (c : SampleCore dataW addrW) (hfire : ∀ prevData dataIn, cfg.fire prevData dataIn = false) :
    (prepared q cfg p c).fsm.state = .armed ∧ (prepared q cfg p c).fsm.postCnt = 0 ∧
      (prepared q cfg p c).trig.matched = false := by
  have hidle : ((q.resetCycle :: q.configuring).foldl (fun c s => c.clock s.cfg s.pre s.ins) c).fsm.state = .idle :=
    foldl_idle (fun s hs => (q.quiet s hs).1) (clock_reset _ _ c q.reset_pulse)
  unfold prepared
  generalize (q.resetCycle :: q.configuring).foldl (fun c s => c.clock s.cfg s.pre s.ins) c = c₁ at hidle ⊢
  have hnext : CaptureFsm.nextState p (c₁.fsmInputs q.armCycle) c₁.fsm = .armed := by
    simp [CaptureFsm.nextState, hidle, fsmInputs, q.arm_pulse.1]
  refine ⟨hnext, ?_, ?_⟩
  · show (CaptureFsm.clock p (c₁.fsmInputs q.armCycle) c₁.fsm).postCnt = 0
    simp [CaptureFsm.clock, hnext, hidle]
  · show (q.armCycle.dataValid && cfg.fire _ _) = false
    rw [hfire, Bool.and_false]

/-! ### The samples -/

section

variable {cfg : TriggerConfig dataW} {p : BitVec addrW} {stream : ℕ → SampleInputs dataW} {c : SampleCore dataW addrW}

theorem after_add (n k : ℕ) : after cfg p stream c (n + k) = after cfg p (fun j => stream (n + j)) (after cfg p stream c n) k := by
  induction k with
  | zero => rfl
  | succ k ih =>
    rw [← Nat.add_assoc, after, ih, after]

/-- Until a forcing pulse and a sample come together, an armed core whose trigger does not fire stays armed. -/
theorem after_armed (hfire : ∀ prevData dataIn, cfg.fire prevData dataIn = false)
    (hquiet : ∀ n, (stream n).stop = false ∧ (stream n).reset = false) (hs : c.fsm.state = .armed)
    (hcnt : c.fsm.postCnt = 0) (hm : c.trig.matched = false) {n : ℕ}
    (hnone : ∀ k < n, ¬((stream k).force = true ∧ (stream k).dataValid = true)) :
    (after cfg p stream c n).fsm.state = .armed ∧ (after cfg p stream c n).fsm.postCnt = 0 ∧
      (after cfg p stream c n).trig.matched = false := by
  induction n with
  | zero => exact ⟨hs, hcnt, hm⟩
  | succ n ih =>
    obtain ⟨hs', hcnt', hm'⟩ := ih fun k hk => hnone k (Nat.lt_succ_of_lt hk)
    have hstate : ((after cfg p stream c n).clock cfg p (stream n)).fsm.state = .armed := by
      rw [clock_armed cfg p hs' (hquiet n), hm', Bool.false_or, if_neg]
      rw [Bool.and_eq_true_iff]
      exact fun h => hnone n (Nat.lt_succ_self n) h.symm
    refine ⟨hstate, ?_, ?_⟩
    · have hne : (CaptureFsm.clock p ((after cfg p stream c n).fsmInputs (stream n)) (after cfg p stream c n).fsm).state ≠
          .idle := fun h => by
        have : CaptureState.armed = .idle := hstate.symm.trans h
        cases this
      exact (CaptureFsm.clock_armed p _ hs' hne).2.1.trans hcnt'
    · show ((stream n).dataValid && cfg.fire _ _) = false
      rw [hfire, Bool.and_false]

/-- Once triggered, the core counts the samples until it is full. -/
theorem exists_full (hquiet : ∀ n, (stream n).stop = false ∧ (stream n).reset = false)
    (hvalid : ∀ n, ∃ m, n ≤ m ∧ (stream m).dataValid = true) (hs : c.fsm.state = .triggered) (hcnt : c.fsm.postCnt = 0) :
    ∃ n, (after cfg p stream c n).fsm.state = .full := by
  by_contra hnever
  rw [not_exists] at hnever
  have htriggered : ∀ n, (after cfg p stream c n).fsm.state = .triggered := by
    intro n
    induction n with
    | zero => exact hs
    | succ n ih => exact (Taken.clock cfg p ih (hquiet n)).resolve_right fun h => hnever (n + 1) h.2
  -- what a cycle does to the counter
  have hstep : ∀ n, (after cfg p stream c (n + 1)).fsm.postCnt =
        (if (stream n).dataValid then (after cfg p stream c n).fsm.postCnt + 1 else (after cfg p stream c n).fsm.postCnt) ∧
      ((stream n).dataValid = true →
        ¬(CaptureFsm.postTarget p).setWidth addrW ≤ (after cfg p stream c n).fsm.postCnt + 1) := by
    intro n
    have hne : (CaptureFsm.clock p ((after cfg p stream c n).fsmInputs (stream n)) (after cfg p stream c n).fsm).state ≠
        .idle := fun h => by
      have : CaptureState.triggered = .idle := (htriggered (n + 1)).symm.trans h
      cases this
    obtain ⟨-, hcount, -, -, hfull⟩ := CaptureFsm.clock_triggered p _ (htriggered n) hne
    exact ⟨hcount, fun hv hle => hnever (n + 1) ((hfull (hquiet n).1).mpr ⟨hv, hle⟩)⟩
  -- the counter grows with each sample, and stays below the target
  have hgrow : ∀ k, ∃ n, k ≤ (after cfg p stream c n).fsm.postCnt.toNat ∧
      (after cfg p stream c n).fsm.postCnt.toNat < max 1 ((CaptureFsm.postTarget p).setWidth addrW).toNat := by
    intro k
    induction k with
    | zero =>
      refine ⟨0, Nat.zero_le _, ?_⟩
      rw [after, hcnt]
      exact lt_of_lt_of_le Nat.zero_lt_one (Nat.le_max_left _ _)
    | succ k ih =>
      obtain ⟨n, hk, hmax⟩ := ih
      have hfirst : ∃ j, (stream (n + j)).dataValid = true := by
        obtain ⟨m, hm, hv⟩ := hvalid n
        exact ⟨m - n, by rwa [Nat.add_sub_cancel' hm]⟩
      -- up to the next sample the counter stays
      have hstay : ∀ j ≤ Nat.find hfirst, (after cfg p stream c (n + j)).fsm.postCnt = (after cfg p stream c n).fsm.postCnt := by
        intro j hj
        induction j with
        | zero => rfl
        | succ j ihj =>
          rw [← Nat.add_assoc, (hstep (n + j)).1, if_neg (Nat.find_min hfirst hj)]
          exact ihj (Nat.le_of_succ_le hj)
      have hv := Nat.find_spec hfirst
      obtain ⟨hcount, hlow⟩ := hstep (n + Nat.find hfirst)
      have hlow := hlow hv
      rw [if_pos hv] at hcount
      rw [hstay _ (le_refl _)] at hcount hlow
      have hlt : ((after cfg p stream c n).fsm.postCnt + 1).toNat < ((CaptureFsm.postTarget p).setWidth addrW).toNat :=
        Nat.lt_of_not_le hlow
      have hT : ((CaptureFsm.postTarget p).setWidth addrW).toNat < 2 ^ addrW := BitVec.isLt _
      have hnowrap := CaptureFsm.toNat_add_one (b := (after cfg p stream c n).fsm.postCnt) (by omega)
      refine ⟨n + Nat.find hfirst + 1, ?_, ?_⟩
      · rw [hcount]
        omega
      · rw [hcount]
        omega
  obtain ⟨n, hk, hmax⟩ := hgrow (((CaptureFsm.postTarget p).setWidth addrW).toNat + 1)
  omega

end

/-! ### The capture -/

/-- Without a forcing pulse and a sample together the core stays armed. -/
theorem not_completes_of_apart (q : CaptureRequest dataW addrW) (pre : BitVec 16) (r : IlaRegs dataW addrW)
    (c : SampleCore dataW addrW) (hnone : ∀ n, ¬((q.stream n).force = true ∧ (q.stream n).dataValid = true)) :
    ¬Completes q ((matchAll pre).stored 3 r) c := by
  rintro ⟨n, hfull⟩
  have hfire := fire_matchAll pre r
  obtain ⟨hs, hcnt, hm⟩ := prepared_armed q ((matchAll pre).stored 3 r).preSamples c hfire
  have harmed := after_armed (p := ((matchAll pre).stored 3 r).preSamples) (n := n) hfire
    (fun n => (q.undisturbed n).2) hs hcnt hm fun k _ => hnone k
  rw [harmed.1] at hfull
  cases hfull

/-- The requested capture is completed if and only if the pulse that forces the trigger comes in a cycle
with a sample: whatever state the core was in, and however many samples there are. -/
theorem requested_capture_iff (q : CaptureRequest dataW addrW) (pre : BitVec 16) (r : IlaRegs dataW addrW)
    (c : SampleCore dataW addrW) :
    Completes q ((matchAll pre).stored 3 r) c ↔ ∃ n, (q.stream n).force = true ∧ (q.stream n).dataValid = true := by
  constructor
  · intro hfull
    by_contra hnone
    exact not_completes_of_apart q pre r c (not_exists.mp hnone) hfull
  · intro hex
    have hfire := fire_matchAll pre r
    have hquiet : ∀ n, (q.stream n).stop = false ∧ (q.stream n).reset = false := fun n => (q.undisturbed n).2
    unfold Completes
    generalize ((matchAll pre).stored 3 r).trigger = cfg at hfire ⊢
    generalize ((matchAll pre).stored 3 r).preSamples = p
    obtain ⟨hs, hcnt, hm⟩ := prepared_armed q p c hfire
    obtain ⟨hs', hcnt', hm'⟩ := after_armed (p := p) (n := Nat.find hex) hfire hquiet hs hcnt hm fun k hk => Nat.find_min hex hk
    obtain ⟨hforce, hvalid⟩ := Nat.find_spec hex
    -- the pulse and the sample together trigger the core
    have htrig : (after cfg p q.stream (prepared q cfg p c) (Nat.find hex + 1)).fsm.state = .triggered := by
      rw [after, clock_armed cfg p hs' (hquiet _), hforce, hvalid, Bool.or_true]
      rfl
    have hcount : (after cfg p q.stream (prepared q cfg p c) (Nat.find hex + 1)).fsm.postCnt = 0 := by
      refine (CaptureFsm.clock_armed p _ hs' fun h => ?_).2.1.trans hcnt'
      have : CaptureState.triggered = .idle := htrig.symm.trans h
      cases this
    obtain ⟨n, hfull⟩ := exists_full (fun k => hquiet (Nat.find hex + 1 + k)) (fun k => by
      obtain ⟨m, hm, hv⟩ := q.valid (Nat.find hex + 1 + k)
      exact ⟨m - (Nat.find hex + 1), by omega, by rwa [Nat.add_sub_cancel' (by omega)]⟩) htrig hcount
    exact ⟨Nat.find hex + 1 + n, by rwa [after_add]⟩

/-- A request on a new core, with a sample in each cycle from the given one on. -/
def requestOf (force : Bool) (first : ℕ) : CaptureRequest 32 2 where
  force := force
  resetCycle := ⟨⟨0, 0, 0, 0, 0, 0, false⟩, 0, { reset := true }⟩
  reset_pulse := ⟨rfl, rfl⟩
  configuring := []
  quiet := nofun
  armCycle := { arm := true }
  arm_pulse := ⟨rfl, rfl, rfl⟩
  stream n := { force := force && n == 0, dataValid := decide (first ≤ n) }
  undisturbed _ := ⟨rfl, rfl, rfl⟩
  forced := by
    refine ⟨fun h => .inr ⟨0, by simp [h]⟩, ?_⟩
    rintro (h | ⟨n, h⟩)
    · cases h
    · exact (Bool.and_eq_true_iff.mp h).1
  once n m hn hm := by
    simp only [Bool.and_eq_true_iff, beq_iff_eq] at hn hm
    exact hn.2.trans hm.2.symm
  valid n := ⟨max n first, Nat.le_max_left _ _, decide_eq_true (Nat.le_max_right _ _)⟩

/-- Without the force the capture is not completed by any number of samples, and with it not when the
pulse comes a cycle before the first of them. -/
theorem not_completes :
    ¬Completes (requestOf false 0) ((matchAll 0).stored 3 IlaRegs.reset) reset ∧
      ¬Completes (requestOf true 1) ((matchAll 0).stored 3 IlaRegs.reset) reset := by
  constructor
  · refine not_completes_of_apart _ _ _ _ fun n h => ?_
    cases h.1
  · refine not_completes_of_apart _ _ _ _ fun n h => ?_
    have hn : n = 0 := by simpa [requestOf] using h.1
    subst hn
    cases h.2

end SampleCore

end OwlTap.Ila
