import OwlTap.Jtag.Captures

/-!
# What holds at every moment

The record of the TCK cycles, replayed on the hardware as it was, says what the hardware was
before and after each of them (`momentsSince`). A device changes its state when the TAP passes
UPDATE-DR, UPDATE-IR or TEST-LOGIC-RESET: so during a scan from rest the devices are in the
states in which the scan found them until they are in those in which it leaves them.
-/

namespace OwlTap

namespace Port

variable {σ : Type} (T : Target σ)

/-- The hardware at every moment of a run: before each cycle, and after the last. -/
def moments : Port σ → List Pins → List σ
  | p, [] => [p.target]
  | p, c :: cs => p.target :: moments (p.clock T c) cs

theorem target_mem_moments (p : Port σ) (cs : List Pins) : p.target ∈ p.moments T cs := by
  cases cs with
  | nil => exact List.mem_singleton_self _
  | cons c cs => exact List.mem_cons_self

theorem target_run_mem_moments (p : Port σ) (cs : List Pins) : (p.run T cs).target ∈ p.moments T cs := by
  induction cs generalizing p with
  | nil => exact List.mem_singleton_self _
  | cons c cs ih => exact List.mem_cons_of_mem _ (ih (p.clock T c))

/-- The moments of a run and of what follows. -/
theorem mem_moments_append {p : Port σ} {a b : List Pins} {m : σ} :
    m ∈ p.moments T (a ++ b) ↔ m ∈ p.moments T a ∨ m ∈ (p.run T a).moments T b := by
  induction a generalizing p with
  | nil =>
    refine ⟨.inr, ?_⟩
    rintro (h | h)
    · obtain rfl := List.mem_singleton.mp h
      exact target_mem_moments T p b
    · exact h
  | cons c a ih =>
    rw [List.cons_append, moments, moments, List.mem_cons, List.mem_cons, ih, run_cons, or_assoc]

end Port

namespace Ftdi.FtdiDevice

variable {σ : Type} {T : Target σ} {d₁ d₂ : FtdiDevice σ}

/-- The hardware at every moment from one to another: the cycles recorded between them, replayed. -/
def momentsSince (T : Target σ) (d₁ d₂ : FtdiDevice σ) : List σ :=
  d₁.link.port.moments T ((d₂.link.trace.drop d₁.link.trace.length).map Cycle.pins)

theorem Clocked.momentsSince {cs : List Pins} (h : Clocked T d₁ d₂ cs) :
    FtdiDevice.momentsSince T d₁ d₂ = d₁.link.port.moments T cs := by
  rw [FtdiDevice.momentsSince, h.trace, List.drop_left, Port.map_pins_cycles]

end Ftdi.FtdiDevice

/-! ### When devices change -/

/-- The states of the TAP in which devices change theirs. -/
def TapState.Changes (s : TapState) : Prop := s = .updateDr ∨ s = .updateIr ∨ s = .testLogicReset

instance (s : TapState) : Decidable s.Changes := inferInstanceAs (Decidable (_ ∨ _))

namespace Chain

variable {δ : Type} (L : TestLogic δ)

/-- In the other states a cycle leaves the devices' states alone. -/
theorem map_core_clock_of_not_changes {p : Port (List (Device δ))} (h : ¬p.state.Changes) (c : Pins) :
    (p.clock (Target.chain L) c).target.map Device.core = p.target.map Device.core := by
  by_cases hs : p.state.IsShift
  · exact (clock_shift L hs c).2.2
  · obtain ⟨s, ch⟩ := p
    cases s with
    | shiftDr => exact absurd (.inl rfl) hs
    | shiftIr => exact absurd (.inr rfl) hs
    | updateDr => exact absurd (.inl rfl) h
    | updateIr => exact absurd (.inr (.inl rfl)) h
    | testLogicReset => exact absurd (.inr (.inr rfl)) h
    | captureDr | captureIr => exact List.map_map
    | _ => rfl

/-- So does a run that stays in them. -/
theorem map_core_moments {p : Port (List (Device δ))} {cs : List Pins}
    (h : ∀ s ∈ p.state.visits (cs.map Pins.tms), ¬s.Changes) :
    ∀ m ∈ p.moments (Target.chain L) cs, m.map Device.core = p.target.map Device.core := by
  induction cs generalizing p with
  | nil =>
    intro m hm
    rw [List.mem_singleton.mp hm]
  | cons c cs ih =>
    intro m hm
    rw [List.map_cons, TapState.visits] at h
    rcases List.mem_cons.mp hm with rfl | hm
    · rfl
    · have hclock := map_core_clock_of_not_changes L (h _ List.mem_cons_self) c
      rw [ih (p := p.clock (Target.chain L) c) (fun s hs => h s (List.mem_cons_of_mem _ hs)) m hm, hclock]

end Chain

namespace Jtag

open Ftdi

variable {δ : Type} (L : TestLogic δ)

/-! ### Scans of a chain -/

/-- A scan from rest but for its last cycle. -/
theorem not_changes_scan (reg : Register) (buf : List Byte) {n : ℕ} (hn : 1 ≤ n) :
    ∀ s ∈ TapState.runTestIdle.visits
        ((pathPins .runTestIdle reg.shift ++ (scanPins buf n ++ [(⟨true, false⟩ : Pins)])).map Pins.tms), ¬s.Changes := by
  have hpath : TapState.runTestIdle.run ((pathPins .runTestIdle reg.shift).map Pins.tms) = reg.shift := by
    rw [map_tms_pathPins]
    cases reg <;> decide +kernel
  intro s hs
  rw [List.map_append, List.map_append, TapState.visits_append, TapState.visits_append, hpath,
    TapController.visits_scanPins reg.isShift_shift buf hn, TapController.run_scanPins, List.mem_append, List.mem_append] at hs
  rcases hs with hs | hs | hs
  · rw [map_tms_pathPins] at hs
    revert s
    cases reg <;> decide +kernel
  · obtain rfl := (List.mem_replicate.mp hs).2
    cases reg <;> decide
  · obtain rfl := List.mem_singleton.mp hs
    cases reg <;> decide

/-- At every moment of a scan from rest the devices are as they were, or as they will be. -/
theorem moments_scanTrack (ch : List (Device δ)) (reg : Register) (buf : List Byte) {n : ℕ} (hn : 1 ≤ n) :
    ∀ m ∈ (⟨.runTestIdle, ch⟩ : Port _).moments (Target.chain L) (TapController.scanTrack .runTestIdle reg buf n),
      m.map Device.core = ch.map Device.core ∨
        m = ((⟨.runTestIdle, ch⟩ : Port _).run (Target.chain L) (TapController.scanTrack .runTestIdle reg buf n)).target := by
  have hback : pathPins reg.exit1 .runTestIdle = [⟨true, false⟩] ++ [⟨false, false⟩] := by
    rw [pathPins, tmsPath_exit1]
    rfl
  have hsplit : TapController.scanTrack .runTestIdle reg buf n =
      (pathPins .runTestIdle reg.shift ++ (scanPins buf n ++ [⟨true, false⟩])) ++ [⟨false, false⟩] := by
    rw [TapController.scanTrack, hback, List.append_assoc, List.append_assoc]
  have hquiet := Chain.map_core_moments L (p := ⟨.runTestIdle, ch⟩) (not_changes_scan reg buf hn)
  intro m hm
  rw [hsplit] at hm ⊢
  set before := pathPins .runTestIdle reg.shift ++ (scanPins buf n ++ [⟨true, false⟩]) with hbefore
  rcases (Port.mem_moments_append _).mp hm with hm | hm
  · exact .inl (hquiet m hm)
  · rcases List.mem_cons.mp hm with rfl | hm
    · exact .inl (hquiet _ (Port.target_run_mem_moments _ _ _))
    · rw [List.mem_singleton.mp hm]
      exact .inr (congrArg Port.target (Port.run_append (Target.chain L) _ before [⟨false, false⟩]).symm)

namespace TapController

/-- From one moment to another the hardware was clocked, and the devices' states had a property all the time. -/
def Throughout (P : List δ → Prop) (c c' : TapController (List (Device δ))) : Prop :=
  ∃ cs, FtdiDevice.Clocked (Target.chain L) c.device c'.device cs ∧
    ∀ m ∈ c.device.link.port.moments (Target.chain L) cs, P (m.map Device.core)

variable {L} {P : List δ → Prop} {c c' c'' : TapController (List (Device δ))}

theorem Throughout.refl (h : P c.cores) : Throughout L P c c :=
  ⟨[], .refl _, fun m hm => by rwa [List.mem_singleton.mp hm]⟩

theorem Throughout.trans (h : Throughout L P c c') (h' : Throughout L P c' c'') : Throughout L P c c'' := by
  obtain ⟨cs, hc, hP⟩ := h
  obtain ⟨cs', hc', hP'⟩ := h'
  refine ⟨cs ++ cs', hc.trans hc', fun m hm => ?_⟩
  rcases (Port.mem_moments_append _).mp hm with hm | hm
  · exact hP m hm
  · exact hP' m (by rwa [hc.port])

/-- At the end the states have the property. -/
theorem Throughout.cores (h : Throughout L P c c') : P c'.cores := by
  obtain ⟨cs, hc, hP⟩ := h
  rw [TapController.cores, hc.port]
  exact hP _ (Port.target_run_mem_moments _ _ _)

/-- The record shows it. -/
theorem Throughout.moments (h : Throughout L P c c') :
    ∀ m ∈ FtdiDevice.momentsSince (Target.chain L) c.device c'.device, P (m.map Device.core) := by
  obtain ⟨cs, hc, hP⟩ := h
  rwa [hc.momentsSince]

namespace AtRest

/-- A scan of any number of bits: as many come out, every device is updated with some bits, and what holds before
and after holds all the time. -/
theorem scan_throughout (L : TestLogic δ) (h : c.AtRest) (reg : Register) {buf : List Byte} {n : ℕ} (hn : 1 ≤ n)
    (hb : bytesFor n ≤ buf.length) (read : Bool) :
    ∃ c' tdo ys, TapController.scan (Target.chain L) reg (some buf) [] n read c = some ((true, tdo), c') ∧ c'.AtRest ∧
      ys.length = c.cores.length ∧ c'.cores = List.zipWith (L.update reg) c.cores ys ∧
      (read = true → tdo.length = bytesFor n) ∧ ∀ P : List δ → Prop, P c.cores → P c'.cores → Throughout L P c c' := by
  obtain ⟨c', tdo, ys, e, hr, hlen, hcores, -⟩ := h.scan_any L reg hn hb read
  obtain ⟨d, e', -, hc, -⟩ := scan_delivered (T := Target.chain L) reg hn hb read h.synced h.delivers
  obtain ⟨hout, rfl⟩ := Prod.mk.inj (Option.some.inj (e.symm.trans e'))
  refine ⟨_, tdo, ys, e, hr, hlen, hcores, fun hread => ?_, fun P hP hP' => ⟨_, hc, fun m hm => ?_⟩⟩
  · rw [(Prod.mk.inj hout).2, if_pos hread, length_packBits, length_trackSamples _ _ _ hn]
  · rw [h.idle, h.port] at hm
    rcases moments_scanTrack L _ reg buf hn m hm with hm | hm
    · rw [hm]
      exact hP
    · have hport := hc.port
      rw [h.idle, h.port] at hport
      rw [hm, ← hport]
      exact hP'

/-- A few cycles in RUN-TEST/IDLE. -/
theorem clkIdle_throughout (L : TestLogic δ) (h : c.AtRest) (cycles : ℕ) :
    ∃ c', TapController.clkIdle (Target.chain L) cycles c = some (true, c') ∧ c'.AtRest ∧ c'.cores = c.cores ∧
      ∀ P : List δ → Prop, P c.cores → Throughout L P c c' := by
  obtain ⟨d, m, e, hs, hc, ho⟩ := clkIdle_spec (T := Target.chain L) cycles h.synced h.delivers.noCut
  rw [h.idle, pathPins_self, List.nil_append] at hc
  refine ⟨_, e, ⟨hs, rfl, fun o hm => h.delivers o (List.mem_of_mem_drop (ho ▸ hm))⟩, ?_, fun P hP => ⟨_, hc, fun m hm => ?_⟩⟩
  · rw [TapController.cores, hc.port, h.port, run_idle]
    rfl
  · rw [h.port] at hm
    rw [Chain.map_core_moments L (fun s hs => ?_) m hm]
    · exact hP
    · have hstays : TapState.runTestIdle.Stays := rfl
      rw [List.map_replicate, hstays.visits_replicate] at hs
      rw [(List.mem_replicate.mp hs).2]
      decide

end AtRest

end TapController

end Jtag

end OwlTap
