import OwlTap.Jtag.Tracking

/-!
# Runs of the controller

The controller's public operations as data (`Op`), and runs of them. One lemma says
what a successful operation does (`Op.exec_spec`); everything about runs follows from
it by induction.
-/

namespace OwlTap.Jtag

open OwlTap Ftdi

variable {σ : Type} {T : Target σ}

/-- The operations of a `TapController`. -/
inductive Op where
  | reset
  | gotoState (target : TapState)
  | clkIdle (cycles : ℕ)
  | shiftIR (irData : List Byte) (irBits : ℕ)
  | shiftDR (tdiData : List Byte) (drBits : ℕ)
  | shiftDROut (tdiData : List Byte) (drBits : ℕ)
  | readDR (drBits : ℕ)

/-- The arguments of a scan. -/
structure ScanArgs where
  /-- The register scanned. -/
  reg : Register
  /-- The bits shifted in. -/
  buf : List Byte
  /-- How many. -/
  bits : ℕ
  /-- Whether TDO is read. -/
  read : Bool

namespace Op

/-- The operation, with the TDO bytes it returns. -/
def exec (T : Target σ) : Op → Method (TapController σ) (Bool × List Byte)
  | reset => do pure (← TapController.reset T, [])
  | gotoState target => do pure (← TapController.gotoState T target, [])
  | clkIdle cycles => do pure (← TapController.clkIdle T cycles, [])
  | shiftIR irData irBits => do pure (← TapController.shiftIR T (some irData) irBits, [])
  | shiftDR tdiData drBits => TapController.shiftDR T (some tdiData) [] drBits
  | shiftDROut tdiData drBits => do pure (← TapController.shiftDROut T (some tdiData) drBits, [])
  | readDR drBits => TapController.readDR T [] drBits

/-- The scan that an operation makes. -/
def scanArgs : Op → Option ScanArgs
  | shiftIR irData irBits => some ⟨.ir, irData, irBits, false⟩
  | shiftDR tdiData drBits => some ⟨.dr, tdiData, drBits, true⟩
  | shiftDROut tdiData drBits => some ⟨.dr, tdiData, drBits, false⟩
  | readDR drBits => some ⟨.dr, List.replicate ((drBits + 7) / 8) 0, drBits, true⟩
  | _ => none

/-- The pins that the operation clocks, from the state the TAP is in. -/
def track (src : TapState) : Op → List Pins
  | reset => TapController.resetPins
  | gotoState target => pathPins src target
  | clkIdle cycles => pathPins src .runTestIdle ++ List.replicate cycles ⟨false, false⟩
  | shiftIR irData irBits => TapController.scanTrack src .ir irData irBits
  | shiftDR tdiData drBits | shiftDROut tdiData drBits => TapController.scanTrack src .dr tdiData drBits
  | readDR drBits => TapController.scanTrack src .dr (List.replicate ((drBits + 7) / 8) 0) drBits

/-- The state that the host notes. -/
def endState : Op → TapState
  | gotoState target => target
  | _ => .runTestIdle

/-- The operation's moves are no longer than the search for paths goes. -/
def Fits (src : TapState) : Op → Prop
  | gotoState target => Jtag.Fits src target
  | _ => True

instance (src : TapState) (op : Op) : Decidable (op.Fits src) := by
  cases op <;> unfold Fits <;> infer_instance

/-- The bytes a scan returns. -/
def result (T : Target σ) (c : TapController σ) (op : Op) : List Byte :=
  match op.scanArgs with
  | some ⟨reg, buf, bits, true⟩ => packBits (TapController.trackSamples T c reg buf bits)
  | _ => []

/-- A scan has at least one bit, and a byte of the buffer for each eight. -/
def Enabled (op : Op) : Prop := ∀ a, op.scanArgs = some a → 1 ≤ a.bits ∧ bytesFor a.bits ≤ a.buf.length

/-- The transfer that reads a scan's bits back brings them all. -/
def Answered (c : TapController σ) (op : Op) : Prop :=
  ∀ a, op.scanArgs = some a → a.read = true →
    ((c.device.outcomes.drop (if c.state = a.reg.shift then 0 else 1)).headD .whole).Answers (replyLength a.bits)

theorem Answered.of_delivers {c : TapController σ} (h : c.device.Delivers) (op : Op) : op.Answered c :=
  fun _ _ _ => h.answers_drop _ _

/-- What an operation does, from a state in which the host knows where the TAP is. -/
theorem exec_spec {c : TapController σ} (op : Op) (hs : c.Synced) (hd : c.device.NoCut) (he : op.Enabled)
    (ha : op.Answered c) :
    ∃ d m, op.exec T c = some ((true, op.result T c), ⟨d, op.endState, c.lastError⟩) ∧
      (op.Fits c.state → (⟨d, op.endState, c.lastError⟩ : TapController σ).Synced) ∧
      FtdiDevice.Clocked T c.device d (op.track c.state) ∧ d.outcomes = c.device.outcomes.drop m := by
  have hscan : ∀ a, op.scanArgs = some a → ∃ d, TapController.scan T a.reg (some a.buf) [] a.bits a.read c =
        some ((true, op.result T c), ⟨d, .runTestIdle, c.lastError⟩) ∧
      (⟨d, .runTestIdle, c.lastError⟩ : TapController σ).Synced ∧
      FtdiDevice.Clocked T c.device d (TapController.scanTrack c.state a.reg a.buf a.bits) ∧
      d.outcomes = c.device.outcomes.drop (if c.state = a.reg.shift then 2 else 3) := by
    intro a h
    obtain ⟨reg, buf, bits, read⟩ := a
    obtain ⟨hn, hb⟩ := he _ h
    obtain ⟨d, e, hs', hc, ho⟩ := TapController.scan_spec (T := T) reg hn hb read hs hd (by
      cases read
      · exact hd.answers_drop _
      · exact ha _ h rfl)
    refine ⟨d, ?_, hs', hc, ho⟩
    rw [e, result, h]
    cases read <;> rfl
  cases op with
  | reset =>
    obtain ⟨d, e, hs', hc, ho⟩ := TapController.reset_spec (T := T) hs.waits hd
    exact ⟨d, 1, by rw [exec, Method.bind_of_eq _ e]; rfl, fun _ => hs', hc, ho⟩
  | gotoState target =>
    obtain ⟨d, t, e, hw, ht, hc, ho⟩ := TapController.gotoState_spec (T := T) target hs hd
    exact ⟨d, _, by rw [exec, Method.bind_of_eq _ e]; rfl,
      fun hf => TapController.gotoState_synced hs hf hw ht hc, hc, ho⟩
  | clkIdle cycles =>
    obtain ⟨d, m, e, hs', hc, ho⟩ := TapController.clkIdle_spec (T := T) cycles hs hd
    exact ⟨d, m, by rw [exec, Method.bind_of_eq _ e]; rfl, fun _ => hs', hc, ho⟩
  | shiftIR irData irBits =>
    obtain ⟨d, e, hs', hc, ho⟩ := hscan _ rfl
    refine ⟨d, _, ?_, fun _ => hs', hc, ho⟩
    have e' : TapController.shiftIR T (some irData) irBits c = _ := Method.bind_of_eq _ e
    rw [exec, Method.bind_of_eq _ e']; rfl
  | shiftDR tdiData drBits =>
    obtain ⟨d, e, hs', hc, ho⟩ := hscan _ rfl
    exact ⟨d, _, e, fun _ => hs', hc, ho⟩
  | shiftDROut tdiData drBits =>
    obtain ⟨d, e, hs', hc, ho⟩ := hscan _ rfl
    refine ⟨d, _, ?_, fun _ => hs', hc, ho⟩
    have e' : TapController.shiftDROut T (some tdiData) drBits c = _ := Method.bind_of_eq _ e
    rw [exec, Method.bind_of_eq _ e']; rfl
  | readDR drBits =>
    obtain ⟨d, e, hs', hc, ho⟩ := hscan _ rfl
    exact ⟨d, _, e, fun _ => hs', hc, ho⟩

/-- A successful scan had bits to shift, and a buffer to take them from. -/
theorem enabled_of_exec {c c' : TapController σ} {op : Op} {tdo : List Byte}
    (h : op.exec T c = some ((true, tdo), c')) : op.Enabled := by
  intro a ha
  cases op with
  | reset | gotoState | clkIdle => cases ha
  | shiftIR irData irBits =>
    cases ha
    obtain ⟨ok, c₁, h₁, h₂⟩ := Method.bind_eq_some.mp h
    obtain ⟨⟨ok', tdo'⟩, c₂, h₃, h₄⟩ := Method.bind_eq_some.mp h₁
    cases h₂
    cases h₄
    exact TapController.enabled_of_scan h₃
  | shiftDR tdiData drBits => cases ha; exact TapController.enabled_of_scan h
  | shiftDROut tdiData drBits =>
    cases ha
    obtain ⟨ok, c₁, h₁, h₂⟩ := Method.bind_eq_some.mp h
    obtain ⟨⟨ok', tdo'⟩, c₂, h₃, h₄⟩ := Method.bind_eq_some.mp h₁
    cases h₂
    cases h₄
    exact TapController.enabled_of_scan h₃
  | readDR drBits => cases ha; exact TapController.enabled_of_scan h

end Op

/-! ### Runs -/

/-- One step of a run: an operation, and the controller before and after. -/
structure Step (σ : Type) where
  /-- Before. -/
  before : TapController σ
  /-- The operation. -/
  op : Op
  /-- After. -/
  after : TapController σ

/-- A run of successful operations. -/
inductive Run (T : Target σ) : TapController σ → List (Step σ) → Prop where
  /-- No operation. -/
  | nil (c : TapController σ) : Run T c []
  /-- An operation that succeeds, and a run from there. -/
  | cons {c c' : TapController σ} {op : Op} {tdo : List Byte} {steps : List (Step σ)} :
      op.exec T c = some ((true, tdo), c') → Run T c' steps → Run T c (⟨c, op, c'⟩ :: steps)

/-- The states of a scan of `n` bits that begins in `src`: a way to the SHIFT state that does
not pass it, `n` cycles there, EXIT1 and UPDATE; one CAPTURE on the way if it began in
RUN-TEST/IDLE. -/
def ScanShape (reg : Register) (n : ℕ) (src : TapState) (states : List TapState) : Prop :=
  ∃ way, states = way ++ List.replicate n reg.shift ++ [reg.exit1, reg.update] ∧ reg.shift ∉ way ∧
    (src = .runTestIdle → way.count reg.capture = 1)

/-- After the step the host knows where the TAP is; and if it was a scan, the TAP took the
scan's course and came to rest in RUN-TEST/IDLE. -/
def Step.Conforms (s : Step σ) : Prop :=
  s.after.device.link.port.state = s.after.state ∧
    ∀ a, s.op.scanArgs = some a → s.after.state = .runTestIdle ∧
      ∃ cycles, s.after.device.link.trace = s.before.device.link.trace ++ cycles ∧
        ScanShape a.reg a.bits s.before.device.link.port.state (cycles.map Cycle.state)

/-- The states of a scan's track. -/
theorem scanShape_scanTrack (src : TapState) (reg : Register) (buf : List Byte) {n : ℕ} (hn : 1 ≤ n) :
    ScanShape reg n src (src.visits ((TapController.scanTrack src reg buf n).map Pins.tms)) := by
  have hway : src.run (tmsPath src reg.shift) = reg.shift := by
    rw [run_tmsPath, if_pos (Fits.of_ne _ (by cases reg <;> decide))]
  have hback : reg.exit1.visits [true, false] = [reg.exit1, reg.update] := by cases reg <;> rfl
  refine ⟨src.visits (tmsPath src reg.shift), ?_, shift_notMem_tmsPath src reg, ?_⟩
  · rw [TapController.scanTrack, List.map_append, List.map_append, map_tms_pathPins, map_tms_pathPins,
      TapState.visits_append, TapState.visits_append, hway, TapController.run_scanPins,
      TapController.visits_scanPins reg.isShift_shift _ hn, tmsPath_exit1, hback, List.append_assoc]
  · rintro rfl
    exact count_capture_tmsPath reg

/-- A step from a state in which the host knows where the TAP is conforms if and only if its
path fits, and then the host knows again. -/
theorem Step.conforms_iff {s : Step σ} {tdo : List Byte} (hs : s.before.Synced) (hd : s.before.device.Delivers)
    (h : s.op.exec T s.before = some ((true, tdo), s.after)) :
    (s.Conforms ↔ s.op.Fits s.before.state) ∧ (s.op.Fits s.before.state → s.after.Synced) ∧
      s.after.device.Delivers := by
  obtain ⟨c, op, c'⟩ := s
  simp only at hs hd h ⊢
  have he := Op.enabled_of_exec h
  obtain ⟨d, m, e, hs', hc, ho⟩ := Op.exec_spec (T := T) op hs hd.noCut he (.of_delivers hd op)
  obtain ⟨-, rfl⟩ : _ ∧ c' = ⟨d, op.endState, c.lastError⟩ := by
    rw [e] at h; simpa [eq_comm] using h
  refine ⟨⟨?_, ?_⟩, hs', fun o hm => hd o (List.mem_of_mem_drop (ho ▸ hm))⟩
  · -- a path that does not fit ends in TEST-LOGIC-RESET
    rintro ⟨hst, -⟩
    cases op with
    | gotoState target =>
      by_contra hf
      have hst : d.link.port.state = target := hst
      have hf : ¬Jtag.Fits c.state target := hf
      rw [hc.state, hs.state, Op.track, map_tms_pathPins, run_tmsPath, if_neg hf] at hst
      obtain ⟨rfl, -⟩ := not_not.mp hf
      cases hst
    | _ => trivial
  · intro hf
    refine ⟨(hs' hf).state, fun a ha => ⟨?_, _, hc.trace, ?_⟩⟩
    · cases op <;> first | rfl | cases ha
    · have htrack : op.track c.state = TapController.scanTrack c.state a.reg a.buf a.bits := by
        cases op <;> cases ha <;> rfl
      rw [Port.map_state_cycles, htrack, hs.state]
      exact scanShape_scanTrack _ _ _ (he a ha).1

/-- From a state in which the host knows where the TAP is, the steps of a run conform if and
only if their paths fit. -/
theorem Run.conforms_iff {c : TapController σ} {steps : List (Step σ)} (hs : c.Synced) (hd : c.device.Delivers)
    (h : Run T c steps) : (∀ s ∈ steps, s.Conforms) ↔ ∀ s ∈ steps, s.op.Fits s.before.state := by
  induction h with
  | nil => simp
  | @cons c c' op tdo steps he _ ih =>
    obtain ⟨hiff, hs', hd'⟩ := Step.conforms_iff (s := ⟨c, op, c'⟩) hs hd he
    rw [List.forall_mem_cons, List.forall_mem_cons, hiff]
    exact and_congr_right fun hf => ih (hs' hf) hd'

/-- **The state is tracked.** From a freshly opened device, after a successful `reset` and any
run of successful operations, the host's state is the hardware's after every operation, and every
scan takes its course, if and only if no step moves along a path that does not fit. -/
theorem run_tracks {c₀ c₁ : TapController σ} {t : Bool} (hw : c₀.device.Waits t) (hd : c₀.device.Delivers)
    (hr : TapController.reset T c₀ = some (true, c₁)) {steps : List (Step σ)} (h : Run T c₁ steps) :
    c₁.device.link.port.state = c₁.state ∧
      ((∀ s ∈ steps, s.Conforms) ↔ ∀ s ∈ steps, s.op.Fits s.before.state) := by
  obtain ⟨d, e, hs, -, ho⟩ := TapController.reset_spec (T := T) hw hd.noCut
  obtain rfl : c₁ = ⟨d, .runTestIdle, c₀.lastError⟩ := by rw [e] at hr; simpa [eq_comm] using hr
  have hd' : d.Delivers := hd.of_outcomes (by rw [ho, List.drop_one])
  exact ⟨hs.state, h.conforms_iff hs hd'⟩

/-- A controller fresh from its constructor, on a wire. -/
def fresh : TapController Unit := ⟨.waiting true ⟨.testLogicReset, ()⟩ [], .testLogicReset, ""⟩

theorem fresh_delivers : fresh.device.Delivers := by simp [FtdiDevice.Delivers, fresh, FtdiDevice.waiting]

theorem fresh_reset : ∃ d, TapController.reset Target.wire fresh = some (true, ⟨d, .runTestIdle, ""⟩) ∧
    (⟨d, .runTestIdle, ""⟩ : TapController Unit).Synced ∧ d.Delivers := by
  obtain ⟨d, e, hs, -, ho⟩ := TapController.reset_spec (T := Target.wire)
    (FtdiDevice.waits_waiting true _ _) fresh_delivers.noCut
  exact ⟨d, e, hs, fresh_delivers.of_outcomes (by rw [ho, List.drop_one])⟩

theorem run_tracks_fresh :
    ∃ c₁ c₂ tdo, TapController.reset Target.wire fresh = some (true, c₁) ∧
      Op.exec Target.wire (.readDR 12) c₁ = some ((true, tdo), c₂) ∧ Step.Conforms ⟨c₁, .readDR 12, c₂⟩ := by
  obtain ⟨d₁, e₁, hs₁, hd₁⟩ := fresh_reset
  obtain ⟨d₂, m, e₂, -⟩ := Op.exec_spec (T := Target.wire) (.readDR 12) hs₁ hd₁.noCut
    (by rintro a ⟨⟩; decide) (.of_delivers hd₁ _)
  have h := (run_tracks (FtdiDevice.waits_waiting true _ _) fresh_delivers e₁ (.cons e₂ (.nil _))).2.mpr
    (by simp [Op.Fits])
  exact ⟨_, _, _, e₁, e₂, h _ List.mem_cons_self⟩

/-- From SHIFT-DR the path to EXIT2-IR has 8 steps: the host notes EXIT2-IR, and the hardware is
in TEST-LOGIC-RESET. -/
theorem gotoState_exit2Ir_loses_track :
    ∃ c₁ c₂ c₃, TapController.reset Target.wire fresh = some (true, c₁) ∧
      TapController.gotoState Target.wire .shiftDr c₁ = some (true, c₂) ∧
      TapController.gotoState Target.wire .exit2Ir c₂ = some (true, c₃) ∧
      c₃.state = .exit2Ir ∧ c₃.device.link.port.state = .testLogicReset := by
  obtain ⟨d₁, e₁, hs₁, hd₁⟩ := fresh_reset
  obtain ⟨d₂, t₂, e₂, hw₂, ht₂, hc₂, ho₂⟩ := TapController.gotoState_spec (T := Target.wire) .shiftDr hs₁ hd₁.noCut
  have hs₂ := TapController.gotoState_synced hs₁ (Fits.of_ne _ (by decide)) hw₂ ht₂ hc₂
  have hd₂ : d₂.Delivers := fun o h => hd₁ o (List.mem_of_mem_drop (ho₂ ▸ h))
  obtain ⟨d₃, t₃, e₃, -, -, hc₃, -⟩ := TapController.gotoState_spec (T := Target.wire) .exit2Ir hs₂ hd₂.noCut
  refine ⟨_, _, _, e₁, e₂, e₃, rfl, ?_⟩
  rw [hc₃.state, hs₂.state, map_tms_pathPins, run_tmsPath]
  rfl

end OwlTap.Jtag
