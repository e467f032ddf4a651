import OwlTap.Jtag.Scan

/-!
# The host's state is the hardware's

Every successful operation of the controller, from a state in which the host knows
where the TAP is (`Synced`), clocks exactly the pins one expects and leaves the host
knowing where the TAP is; except that `gotoState` cannot find the three longest paths.
-/

namespace OwlTap.Jtag

open OwlTap Ftdi

variable {σ : Type} {T : Target σ}

/-- The pins of a path. -/
def pathPins (src dst : TapState) : List Pins := (tmsPath src dst).map (⟨·, false⟩)

@[simp] theorem map_tms_pathPins (src dst : TapState) : (pathPins src dst).map Pins.tms = tmsPath src dst := by
  rw [pathPins, List.map_map]
  exact List.map_id _

theorem pathPins_self (s : TapState) : pathPins s s = [] := by
  simp [pathPins, tmsPath, computeTmsPath]

/-- A TMS command that does not read clocks its pattern, TDI low. -/
theorem runs_silentTms (p : Byte) {k : ℕ} (hk : 1 ≤ k ∧ k ≤ 7) (c : MpsseCommandBuffer) :
    ∃ bs, c.clockTms p k false false = c.append bs 0 ∧ bs ≠ [] ∧ ∀ t,
      Runs t bs (p.getLsbD (k - 1))
        (((List.range k).map fun i => (⟨p.getLsbD i, false⟩ : Pins)).map (.clk · false)) := by
  obtain ⟨bs, e, hne, hr⟩ := MpsseCommandBuffer.runs_clockTms p hk false false c
  refine ⟨bs, e, hne, fun t => ?_⟩
  have h := hr t
  rw [if_neg (by decide), List.append_nil] at h
  rwa [List.map_map]

/-- A path is one TMS command. -/
theorem runs_path {src dst : TapState} (h : src ≠ dst) (c : MpsseCommandBuffer) :
    ∃ bs, c.clockTms (computeTmsPath src dst).1 (computeTmsPath src dst).2 false false = c.append bs 0 ∧
      bs ≠ [] ∧ ∀ t, Runs t bs ((computeTmsPath src dst).1.getLsbD ((computeTmsPath src dst).2 - 1))
        ((pathPins src dst).map (.clk · false)) := by
  obtain ⟨bs, e, hne, hr⟩ := runs_silentTms (computeTmsPath src dst).1 (computeTmsPath_length h) c
  refine ⟨bs, e, hne, fun t => ?_⟩
  have h := hr t
  rwa [show (List.range (computeTmsPath src dst).2).map (fun i =>
    (⟨(computeTmsPath src dst).1.getLsbD i, false⟩ : Pins)) = pathPins src dst by
      rw [pathPins, tmsPath, List.map_map]; rfl] at h

namespace TapController

/-- The chip waits for a command, the state believed is the real one, and in a SHIFT state
TMS has stayed low. -/
structure Synced (c : TapController σ) : Prop where
  /-- The chip waits. -/
  waits : c.device.Waits c.device.link.chip.tms
  /-- The state is the hardware's. -/
  state : c.device.link.port.state = c.state
  /-- The level of TMS. -/
  tms : c.state.IsShift → c.device.link.chip.tms = false

theorem Synced.of_waits {c : TapController σ} {t : Bool} (hw : c.device.Waits t)
    (hs : c.device.link.port.state = c.state) (ht : c.state.IsShift → t = false) : c.Synced := by
  obtain rfl : t = c.device.link.chip.tms := hw.tms.symm
  exact ⟨hw, hs, ht⟩

/-! ### Sending -/

/-- Whole commands that are not answered are sent. -/
theorem send_runs {c : TapController σ} {t t' : Bool} (cmd : MpsseCommandBuffer) {ms : List Micro}
    (hw : c.device.Waits t) (hd : c.device.NoCut) (hne : cmd.buffer ≠ []) (hr : Runs t cmd.buffer t' ms)
    (hx : cmd.expectedReadBytes = 0)
    (ha : (answers c.device.link.sr ms (c.device.samples T (pinsOf ms))).2 = []) :
    ∃ d, send T cmd c = some (true, { c with device := d }) ∧ d.Waits t' ∧
      FtdiDevice.Clocked T c.device d (pinsOf ms) ∧ d.outcomes = c.device.outcomes.tail := by
  obtain ⟨d, e, hw', hc, ho⟩ := FtdiDevice.transfer_answered hw hne hr (by rw [ha, hx]; rfl)
    (by rw [hx]; exact hd.answers)
  refine ⟨d, ?_, hw', hc, ho⟩
  rw [send, Method.bind_of_eq _ (show exchange T cmd c = some ((true, _), { c with device := d }) by
    rw [exchange, e]; rfl)]
  rfl

/-- TMS commands are sent. -/
theorem send_tms {c : TapController σ} {t : Bool} (p : Byte) {k : ℕ} (hk : 1 ≤ k ∧ k ≤ 7)
    (hw : c.device.Waits t) (hd : c.device.NoCut) :
    ∃ d, send T (({} : MpsseCommandBuffer).clockTms p k false false) c = some (true, { c with device := d }) ∧
      d.Waits (p.getLsbD (k - 1)) ∧
      FtdiDevice.Clocked T c.device d ((List.range k).map fun i => ⟨p.getLsbD i, false⟩) ∧
      d.outcomes = c.device.outcomes.tail := by
  obtain ⟨bs, e, hne, hr⟩ := runs_silentTms p hk {}
  generalize (List.range k).map (fun i => (⟨p.getLsbD i, false⟩ : Pins)) = cs at hr ⊢
  obtain ⟨d, es, hw', hc, ho⟩ := send_runs (T := T) (MpsseCommandBuffer.append {} bs 0) hw hd
    (by simpa using hne) (hr t) rfl (by rw [answers_silent])
  rw [pinsOf_map_clk] at hc
  exact ⟨d, by rw [e]; exact es, hw', hc, ho⟩

/-! ### Moving -/

/-- `gotoState` clocks the path. -/
theorem gotoState_spec {c : TapController σ} (dst : TapState) (hs : c.Synced) (hd : c.device.NoCut) :
    ∃ d t, gotoState T dst c = some (true, ⟨d, dst, c.lastError⟩) ∧ d.Waits t ∧ (dst.IsShift → t = false) ∧
      FtdiDevice.Clocked T c.device d (pathPins c.state dst) ∧
      d.outcomes = c.device.outcomes.drop (if c.state = dst then 0 else 1) := by
  by_cases h : c.state = dst
  · subst h
    refine ⟨c.device, _, ?_, hs.waits, hs.tms, ?_, by simp⟩
    · rw [gotoState, if_pos rfl]
    · rw [pathPins_self]; exact FtdiDevice.Clocked.refl _
  · have hk := computeTmsPath_length h
    obtain ⟨d, e, hw, hc, ho⟩ := send_tms (T := T) (computeTmsPath c.state dst).1 hk hs.waits hd
    refine ⟨d, _, ?_, hw, computeTmsPath_last h, ?_, ?_⟩
    · rw [gotoState, if_neg h]
      simp only
      rw [if_neg (by omega), Method.bind_of_eq _ e]
      rfl
    · simpa only [pathPins, tmsPath, List.map_map, Function.comp_def] using hc
    · rw [if_neg h, ho, List.drop_one]

/-- A path that fits leads from a state the host knows to a state the host knows. -/
theorem gotoState_synced {c : TapController σ} {dst : TapState} {d : FtdiDevice σ} {t : Bool} (hs : c.Synced)
    (hf : Fits c.state dst) (hw : d.Waits t) (ht : dst.IsShift → t = false)
    (hc : FtdiDevice.Clocked T c.device d (pathPins c.state dst)) :
    (⟨d, dst, c.lastError⟩ : TapController σ).Synced :=
  .of_waits hw (by rw [hc.state, hs.state, map_tms_pathPins, run_tmsPath, if_pos hf]) ht

/-- The pins of `reset`. -/
def resetPins : List Pins := List.replicate 5 ⟨true, false⟩ ++ [⟨false, false⟩]

/-- `reset` reaches RUN-TEST/IDLE from wherever the hardware is. -/
theorem reset_spec {c : TapController σ} {t : Bool} (hw : c.device.Waits t) (hd : c.device.NoCut) :
    ∃ d, reset T c = some (true, ⟨d, .runTestIdle, c.lastError⟩) ∧
      (⟨d, .runTestIdle, c.lastError⟩ : TapController σ).Synced ∧
      FtdiDevice.Clocked T c.device d resetPins ∧ d.outcomes = c.device.outcomes.drop 1 := by
  have hms : Runs t ((({} : MpsseCommandBuffer).clockTms 0x1F 5 false false).clockTms 0x00 1 false false).buffer
      false (resetPins.map (.clk · false)) :=
    (runs_tms t 0x1F (by decide : 1 ≤ 5 ∧ 5 ≤ 7) false false).append
      (runs_tms true 0x00 (by decide : 1 ≤ 1 ∧ 1 ≤ 7) false false)
  obtain ⟨d, e, hw', hc, ho⟩ := send_runs (T := T) _ hw hd (by decide) hms rfl (by rw [answers_silent])
  rw [pinsOf_map_clk] at hc
  refine ⟨d, ?_, .of_waits hw' ?_ (fun _ => rfl), hc, by rw [ho, List.drop_one]⟩
  · rw [reset, Method.bind_of_eq _ e]; rfl
  · show d.link.port.state = .runTestIdle
    rw [hc.state, show resetPins.map Pins.tms = [true, true, true, true, true] ++ [false] from rfl,
      TapState.run_append, TapState.run_five_ones]
    rfl

/-- The loop of `clkIdle` stays in RUN-TEST/IDLE. -/
theorem idleLoop_spec {c : TapController σ} (fuel : ℕ) {cycles : ℕ} (hf : cycles ≤ fuel) (hs : c.Synced)
    (hi : c.state = .runTestIdle) (hd : c.device.NoCut) :
    ∃ d m, idleLoop T fuel cycles c = some (true, { c with device := d }) ∧
      ({ c with device := d } : TapController σ).Synced ∧
      FtdiDevice.Clocked T c.device d (List.replicate cycles ⟨false, false⟩) ∧
      d.outcomes = c.device.outcomes.drop m := by
  induction fuel generalizing c cycles with
  | zero =>
    obtain rfl : cycles = 0 := by omega
    exact ⟨c.device, 0, rfl, hs, .refl _, rfl⟩
  | succ fuel ih =>
    by_cases h0 : cycles = 0
    · subst h0
      exact ⟨c.device, 0, rfl, hs, .refl _, rfl⟩
    · -- one group, and the rest by induction
      obtain ⟨k, hk⟩ : ∃ k, k = if cycles > 7 then 7 else cycles := ⟨_, rfl⟩
      have hle : 1 ≤ k ∧ k ≤ 7 ∧ k ≤ cycles := by split at hk <;> omega
      obtain ⟨d, e, hw, hc, ho⟩ := send_tms (T := T) 0x00 (show 1 ≤ k ∧ k ≤ 7 by omega) hs.waits hd
      have hpins : ((List.range k).map fun i => (⟨(0x00 : Byte).getLsbD i, false⟩ : Pins)) =
          List.replicate k ⟨false, false⟩ := by
        rw [List.eq_replicate_iff]; simp
      rw [hpins] at hc
      have hs' : ({ c with device := d } : TapController σ).Synced := by
        refine .of_waits hw ?_ fun h => absurd h (by rw [hi]; decide)
        rw [hc.state, hs.state, hi, List.map_replicate]
        exact TapState.Stays.run_replicate (by decide) k
      have hd' : d.NoCut := hd.of_outcomes ho
      obtain ⟨d', m, e', hs'', hc', ho'⟩ := ih (c := { c with device := d })
        (show cycles - k ≤ fuel by omega) hs' hi hd'
      refine ⟨d', m + 1, ?_, hs'', ?_, ?_⟩
      · rw [idleLoop, if_neg h0]
        simp only [← hk]
        rw [Method.andThen_of_true _ e, e']
      · have := hc.trans hc'
        rwa [← List.replicate_add, Nat.add_sub_cancel' hle.2.2] at this
      · rw [ho', ho, ← List.drop_one, List.drop_drop, Nat.add_comm]

/-- `clkIdle` moves to RUN-TEST/IDLE and stays there. -/
theorem clkIdle_spec {c : TapController σ} (cycles : ℕ) (hs : c.Synced) (hd : c.device.NoCut) :
    ∃ d m, clkIdle T cycles c = some (true, ⟨d, .runTestIdle, c.lastError⟩) ∧
      (⟨d, .runTestIdle, c.lastError⟩ : TapController σ).Synced ∧
      FtdiDevice.Clocked T c.device d
        (pathPins c.state .runTestIdle ++ List.replicate cycles ⟨false, false⟩) ∧
      d.outcomes = c.device.outcomes.drop m := by
  obtain ⟨d₁, t₁, e₁, hw₁, ht₁, hc₁, ho₁⟩ := gotoState_spec (T := T) .runTestIdle hs hd
  have hs₁ := gotoState_synced hs (Fits.of_ne _ (by decide)) hw₁ ht₁ hc₁
  have hd₁ : d₁.NoCut := fun o h => hd o (List.mem_of_mem_drop (ho₁ ▸ h))
  obtain ⟨d₂, m, e₂, hs₂, hc₂, ho₂⟩ := idleLoop_spec (T := T) cycles (le_refl cycles) hs₁ rfl hd₁
  refine ⟨d₂, _, ?_, hs₂, hc₁.trans hc₂, by rw [ho₂, ho₁, List.drop_drop]⟩
  rw [clkIdle, Method.andThen_of_true _ e₁, e₂]

/-! ### Shifting -/

/-- What the command buffer of `doShift` does: it clocks the pins of the scan, and its answers
are a reply to the samples, as many bytes as expected. -/
theorem runs_doShift {buf : List Byte} {n : ℕ} (hn : 1 ≤ n) (hb : bytesFor n ≤ buf.length) (read : Bool) :
    ∃ cmd ms, (scanCommands (some buf) n read {}).map MpsseCommandBuffer.sendImmediate = some cmd ∧
      Runs false cmd.buffer true ms ∧ cmd.buffer ≠ [] ∧ pinsOf ms = scanPins buf n ∧
      cmd.expectedReadBytes = (if read then replyLength n else 0) ∧
      ∀ sr r, r.length = n → if read then IsReply r (answers sr ms r).2 else (answers sr ms r).2 = [] := by
  obtain ⟨bs, ms, e, hr, hp, ha⟩ := runs_scanCommands hn hb read {}
  refine ⟨_, ms, by rw [e]; rfl, ?_, ?_, hp, ?_, ha⟩
  · have := hr.append (runs_sendImmediate true)
    simpa [MpsseCommandBuffer.append, MpsseCommandBuffer.sendImmediate] using this
  · simp [MpsseCommandBuffer.append, MpsseCommandBuffer.sendImmediate]
  · cases read <;> simp [MpsseCommandBuffer.append, MpsseCommandBuffer.sendImmediate]

/-- The samples of a scan of the first `n` bits of `buf`. -/
def scanSamples (T : Target σ) (d : FtdiDevice σ) (buf : List Byte) (n : ℕ) : List Bool :=
  d.samples T (scanPins buf n)

theorem length_scanSamples (d : FtdiDevice σ) (buf : List Byte) {n : ℕ} (hn : 1 ≤ n) :
    (scanSamples T d buf n).length = n := by
  rw [scanSamples, FtdiDevice.length_samples, length_scanPins _ hn]

/-- `doShift` clocks the pins of the scan, and returns the samples, packed. -/
theorem doShift_spec {c : TapController σ} {buf : List Byte} {n : ℕ} (hn : 1 ≤ n) (hb : bytesFor n ≤ buf.length)
    (read : Bool) (hw : c.device.Waits false)
    (ho : (c.device.outcomes.headD .whole).Answers (if read then replyLength n else 0)) :
    ∃ d, doShift T (some buf) [] n read c =
        some ((true, if read then packBits (scanSamples T c.device buf n) else []), { c with device := d }) ∧
      d.Waits true ∧ FtdiDevice.Clocked T c.device d (scanPins buf n) ∧
      d.outcomes = c.device.outcomes.tail := by
  obtain ⟨cmd, ms, e, hr, hne, hp, hx, ha⟩ := runs_doShift hn hb read
  have ha := ha c.device.link.sr (scanSamples T c.device buf n) (length_scanSamples _ _ hn)
  have hl : (answers c.device.link.sr ms (c.device.samples T (pinsOf ms))).2.length = cmd.expectedReadBytes := by
    rw [hp, ← scanSamples, hx]
    cases read
    · simp only [Bool.false_eq_true, if_false] at ha ⊢; rw [ha]; rfl
    · simp only [if_true] at ha ⊢; rw [ha.length, length_scanSamples _ _ hn]
  obtain ⟨d, et, hw', hc, hout⟩ := FtdiDevice.transfer_answered hw hne hr hl (by rw [hx]; exact ho)
  rw [hp] at hc
  rw [hp, ← scanSamples] at et
  obtain ⟨cmd', e', rfl⟩ := Option.map_eq_some_iff.mp e
  have hex : exchange T cmd'.sendImmediate c =
      some ((true, (answers c.device.link.sr ms (scanSamples T c.device buf n)).2), { c with device := d }) := by
    rw [exchange, et]; rfl
  refine ⟨d, ?_, hw', hc, hout⟩
  rw [doShift, if_neg (by omega), e', Option.bind_some]
  cases read
  · simp only [Bool.false_eq_true, if_false]
    rw [send, Method.bind_of_eq _ hex]; rfl
  · simp only [if_true] at ha ⊢
    rw [hex, Option.map_some]
    have := reassemble_reply ha
    rw [length_scanSamples _ _ hn] at this
    simp [this]

theorem map_tms_scanPins (buf : List Byte) (n : ℕ) :
    (scanPins buf n).map Pins.tms = List.replicate (n - 1) false ++ [true] := by
  have hf : (bits buf (n - 1)).map (Pins.tms ∘ (⟨false, ·⟩)) = List.replicate (n - 1) false := by
    rw [List.eq_replicate_iff]; simp
  rw [scanPins, List.map_append, List.map_map, hf]; rfl

theorem map_tdi_scanPins (buf : List Byte) {n : ℕ} (hn : 1 ≤ n) : (scanPins buf n).map Pins.tdi = bits buf n := by
  obtain ⟨m, rfl⟩ : ∃ m, n = m + 1 := ⟨n - 1, by omega⟩
  rw [scanPins, List.map_append, List.map_map, Nat.add_sub_cancel, bits_succ]
  exact congrArg (· ++ [bitAt buf m]) (List.map_id _)

/-- A scan shifts in each of its cycles. -/
theorem visits_scanPins {s : TapState} (h : s.IsShift) (buf : List Byte) {n : ℕ} (hn : 1 ≤ n) :
    s.visits ((scanPins buf n).map Pins.tms) = List.replicate n s := by
  rw [map_tms_scanPins, TapState.visits_append, h.stays.visits_replicate, h.stays.run_replicate]
  obtain ⟨m, rfl⟩ : ∃ m, n = m + 1 := ⟨n - 1, by omega⟩
  rw [Nat.add_sub_cancel, List.replicate_succ']; rfl

/-- A controller that knows that its hardware is in the given state. -/
def knowing (s : TapState) : TapController Unit := ⟨.waiting false ⟨s, ()⟩ [], s, ""⟩

theorem knowing_synced (s : TapState) : (knowing s).Synced :=
  ⟨FtdiDevice.waits_waiting _ _ _, rfl, fun _ => rfl⟩

/-- The pins of a whole scan: the way to the SHIFT state, the bits, the way back. -/
def scanTrack (src : TapState) (reg : Register) (buf : List Byte) (n : ℕ) : List Pins :=
  pathPins src reg.shift ++ (scanPins buf n ++ pathPins reg.exit1 .runTestIdle)

/-- The samples of a scan that begins with the way to its SHIFT state. -/
def trackSamples (T : Target σ) (c : TapController σ) (reg : Register) (buf : List Byte) (n : ℕ) : List Bool :=
  ((c.device.link.port.run T (pathPins c.state reg.shift)).cycles T (scanPins buf n)).map Cycle.tdo

theorem length_trackSamples (c : TapController σ) (reg : Register) (buf : List Byte) {n : ℕ} (hn : 1 ≤ n) :
    (trackSamples T c reg buf n).length = n := by
  rw [trackSamples, List.length_map, Port.length_cycles, length_scanPins _ hn]

/-- A scan's bits leave the SHIFT state with the last one. -/
theorem run_scanPins (reg : Register) (buf : List Byte) (n : ℕ) :
    reg.shift.run ((scanPins buf n).map Pins.tms) = reg.exit1 := by
  rw [map_tms_scanPins, TapState.run_append, reg.isShift_shift.stays.run_replicate]
  cases reg <;> rfl

/-- A scan clocks its track, returns the samples, packed, and ends in RUN-TEST/IDLE. -/
theorem scan_spec {c : TapController σ} (reg : Register) {buf : List Byte} {n : ℕ} (hn : 1 ≤ n)
    (hb : bytesFor n ≤ buf.length) (read : Bool) (hs : c.Synced) (hd : c.device.NoCut)
    (ho : ((c.device.outcomes.drop (if c.state = reg.shift then 0 else 1)).headD .whole).Answers
      (if read then replyLength n else 0)) :
    ∃ d, scan T reg (some buf) [] n read c =
        some ((true, if read then packBits (trackSamples T c reg buf n) else []), ⟨d, .runTestIdle, c.lastError⟩) ∧
      (⟨d, .runTestIdle, c.lastError⟩ : TapController σ).Synced ∧
      FtdiDevice.Clocked T c.device d (scanTrack c.state reg buf n) ∧
      d.outcomes = c.device.outcomes.drop (if c.state = reg.shift then 2 else 3) := by
  obtain ⟨d₁, t₁, e₁, hw₁, ht₁, hc₁, ho₁⟩ := gotoState_spec (T := T) reg.shift hs hd
  obtain rfl := ht₁ reg.isShift_shift
  have hst₁ : d₁.link.port.state = reg.shift := by
    rw [hc₁.state, hs.state, map_tms_pathPins, run_tmsPath, if_pos (Fits.of_ne _ (by cases reg <;> decide))]
  obtain ⟨d₂, e₂, hw₂, hc₂, ho₂⟩ := doShift_spec (T := T) (c := ⟨d₁, reg.shift, c.lastError⟩) hn hb read hw₁
    (by rw [ho₁]; exact ho)
  have hs₂ : (⟨d₂, reg.exit1, c.lastError⟩ : TapController σ).Synced :=
    .of_waits hw₂ (by rw [hc₂.state, hst₁, run_scanPins])
      fun h => absurd h reg.not_isShift_exit1
  have hd₂ : d₂.NoCut := fun o h => hd o <| by
    rw [ho₂, ho₁] at h
    exact List.mem_of_mem_drop (List.mem_of_mem_tail h)
  obtain ⟨d₃, t₃, e₃, hw₃, ht₃, hc₃, ho₃⟩ := gotoState_spec (T := T) .runTestIdle hs₂ hd₂
  refine ⟨d₃, ?_, ?_, hc₁.trans (hc₂.trans hc₃), ?_⟩
  · rw [scan, if_neg (by omega), Method.bind_of_eq _ e₁, if_pos rfl, Method.bind_of_eq _ e₂]
    simp only [if_true]
    rw [Method.bind_of_eq _ (show setState reg.exit1 _ = some ((), ⟨d₂, reg.exit1, c.lastError⟩) from rfl),
      Method.bind_of_eq _ e₃, Method.pure_apply, scanSamples, FtdiDevice.samples, hc₁.port, trackSamples]
  · refine .of_waits hw₃ ?_ ht₃
    rw [hc₃.state, hs₂.state, map_tms_pathPins, run_tmsPath, if_pos (Fits.of_ne _ (by decide))]
  · rw [ho₃, ho₂, ho₁, if_neg (show ¬reg.exit1 = .runTestIdle by cases reg <;> decide), ← List.drop_one, List.drop_drop, List.drop_drop]
    split <;> rfl

/-- A scan, when every transfer goes through whole. -/
theorem scan_delivered {c : TapController σ} (reg : Register) {buf : List Byte} {n : ℕ} (hn : 1 ≤ n)
    (hb : bytesFor n ≤ buf.length) (read : Bool) (hs : c.Synced) (hd : c.device.Delivers) :
    ∃ d, scan T reg (some buf) [] n read c =
        some ((true, if read then packBits (trackSamples T c reg buf n) else []), ⟨d, .runTestIdle, c.lastError⟩) ∧
      (⟨d, .runTestIdle, c.lastError⟩ : TapController σ).Synced ∧
      FtdiDevice.Clocked T c.device d (scanTrack c.state reg buf n) ∧ d.Delivers := by
  obtain ⟨d, e, hs', hc, ho⟩ := scan_spec (T := T) reg hn hb read hs hd.noCut (hd.answers_drop _ _)
  exact ⟨d, e, hs', hc, fun o h => hd o (List.mem_of_mem_drop (ho ▸ h))⟩

/-- `shiftIR`, when every transfer goes through whole. -/
theorem shiftIR_delivered {c : TapController σ} {buf : List Byte} {n : ℕ} (hn : 1 ≤ n)
    (hb : bytesFor n ≤ buf.length) (hs : c.Synced) (hd : c.device.Delivers) :
    ∃ d, shiftIR T (some buf) n c = some (true, ⟨d, .runTestIdle, c.lastError⟩) ∧
      (⟨d, .runTestIdle, c.lastError⟩ : TapController σ).Synced ∧
      FtdiDevice.Clocked T c.device d (scanTrack c.state .ir buf n) ∧ d.Delivers := by
  obtain ⟨d, e, h⟩ := scan_delivered (T := T) .ir hn hb false hs hd
  exact ⟨d, by rw [shiftIR, Method.bind_of_eq _ e]; rfl, h⟩

/-- `shiftDR` with readback, when every transfer goes through whole. -/
theorem shiftDR_delivered {c : TapController σ} {buf : List Byte} {n : ℕ} (hn : 1 ≤ n)
    (hb : bytesFor n ≤ buf.length) (hs : c.Synced) (hd : c.device.Delivers) :
    ∃ d, shiftDR T (some buf) [] n c =
        some ((true, packBits (trackSamples T c .dr buf n)), ⟨d, .runTestIdle, c.lastError⟩) ∧
      (⟨d, .runTestIdle, c.lastError⟩ : TapController σ).Synced ∧
      FtdiDevice.Clocked T c.device d (scanTrack c.state .dr buf n) ∧ d.Delivers :=
  scan_delivered (T := T) .dr hn hb true hs hd

/-- `shiftDR` without readback, when every transfer goes through whole. -/
theorem shiftDROut_delivered {c : TapController σ} {buf : List Byte} {n : ℕ} (hn : 1 ≤ n)
    (hb : bytesFor n ≤ buf.length) (hs : c.Synced) (hd : c.device.Delivers) :
    ∃ d, shiftDROut T (some buf) n c = some (true, ⟨d, .runTestIdle, c.lastError⟩) ∧
      (⟨d, .runTestIdle, c.lastError⟩ : TapController σ).Synced ∧
      FtdiDevice.Clocked T c.device d (scanTrack c.state .dr buf n) ∧ d.Delivers := by
  obtain ⟨d, e, h⟩ := scan_delivered (T := T) .dr hn hb false hs hd
  exact ⟨d, by rw [shiftDROut, Method.bind_of_eq _ e]; rfl, h⟩

/-- A successful scan had bits to shift, and a buffer to take them from. -/
theorem enabled_of_scan {c c' : TapController σ} {reg : Register} {buf tdo : List Byte} {n : ℕ} {read : Bool}
    (h : scan T reg (some buf) [] n read c = some ((true, tdo), c')) : 1 ≤ n ∧ bytesFor n ≤ buf.length := by
  by_cases h0 : n = 0
  · rw [scan, if_pos h0, Method.pure_apply] at h
    simp at h
  refine ⟨by omega, ?_⟩
  rw [scan, if_neg h0] at h
  obtain ⟨ok, c₁, -, h⟩ := Method.bind_eq_some.mp h
  cases ok
  · simp [Method.pure_apply] at h
  · obtain ⟨r, c₂, hd, -⟩ := Method.bind_eq_some.mp h
    rw [doShift, if_neg h0] at hd
    obtain ⟨cmd, hcmd, -⟩ := Option.bind_eq_some_iff.mp hd
    exact le_of_scanCommands (by omega) hcmd

end TapController

end OwlTap.Jtag
