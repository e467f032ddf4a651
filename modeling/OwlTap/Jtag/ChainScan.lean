import OwlTap.Base.Chain
import OwlTap.Jtag.JtagChain
import OwlTap.Jtag.Tracking

/-!
# Scans of a chain of devices

A scan of a chain shifts the bits through the registers in series and updates every
device with what is then in its register.
-/

namespace OwlTap.Jtag

open OwlTap Ftdi

variable {δ : Type} (L : TestLogic δ)

/-- The chain when a scan begins to shift: the way to the SHIFT state has been taken. -/
def shiftStart (p : Port (List (Device δ))) (reg : Register) : Port (List (Device δ)) :=
  p.run (Target.chain L) (pathPins p.state reg.shift)

theorem state_shiftStart (p : Port (List (Device δ))) (reg : Register) :
    (shiftStart L p reg).state = reg.shift := by
  rw [shiftStart, Port.state_run, map_tms_pathPins, run_tmsPath, if_pos (Fits.of_ne _ (by cases reg <;> decide))]

/-- From RUN-TEST/IDLE the way to the SHIFT state captures. -/
theorem shiftStart_idle (ch : List (Device δ)) (reg : Register) :
    shiftStart L ⟨.runTestIdle, ch⟩ reg = ⟨reg.shift, ch.map (Device.capture L reg)⟩ := by
  cases reg
  · have : pathPins .runTestIdle Register.dr.shift = [⟨true, false⟩, ⟨false, false⟩, ⟨false, false⟩] := by
      decide +kernel
    rw [shiftStart, this]; rfl
  · have : pathPins .runTestIdle Register.ir.shift =
        [⟨true, false⟩, ⟨true, false⟩, ⟨false, false⟩, ⟨false, false⟩] := by decide +kernel
    rw [shiftStart, this]; rfl

/-- In RUN-TEST/IDLE nothing happens while TMS is low. -/
theorem run_idle (ch : List (Device δ)) (n : ℕ) :
    (⟨.runTestIdle, ch⟩ : Port _).run (Target.chain L) (List.replicate n ⟨false, false⟩) = ⟨.runTestIdle, ch⟩ := by
  induction n with
  | zero => rfl
  | succ n ih => exact ih

/-- The way from EXIT1 to RUN-TEST/IDLE updates. -/
theorem run_exit1 (ch : List (Device δ)) (reg : Register) :
    (⟨reg.exit1, ch⟩ : Port _).run (Target.chain L) (pathPins reg.exit1 .runTestIdle) =
      ⟨.runTestIdle, ch.map (Device.update L reg)⟩ := by
  rw [pathPins, tmsPath_exit1]
  cases reg <;> rfl

/-- A scan of a chain: the samples are what leaves the registers in series, and every device is
updated with what is then in its register. -/
theorem run_scanTrack (p : Port (List (Device δ))) (reg : Register) (buf : List Byte) {n : ℕ} (hn : 1 ≤ n) :
    ((shiftStart L p reg).cycles (Target.chain L) (scanPins buf n)).map Cycle.tdo =
        (Series.shifts ((shiftStart L p reg).target.map Device.reg) (bits buf n)).2 ∧
      p.run (Target.chain L) (TapController.scanTrack p.state reg buf n) =
        ⟨.runTestIdle, (Device.withRegs (shiftStart L p reg).target
          (Series.shifts ((shiftStart L p reg).target.map Device.reg) (bits buf n)).1).map (Device.update L reg)⟩ := by
  have hstate := state_shiftStart L p reg
  have hshift : (shiftStart L p reg).state.IsShift := hstate ▸ reg.isShift_shift
  obtain ⟨houts, hregs, hcores⟩ := Chain.run_shift L (scanPins buf n) hshift
    (by rw [TapController.visits_scanPins hshift buf hn, length_scanPins buf hn])
  rw [TapController.map_tdi_scanPins buf hn] at houts hregs
  refine ⟨houts, ?_⟩
  have hend : (shiftStart L p reg).run (Target.chain L) (scanPins buf n) =
      ⟨reg.exit1, Device.withRegs (shiftStart L p reg).target
        (Series.shifts ((shiftStart L p reg).target.map Device.reg) (bits buf n)).1⟩ := by
    have hl : (Series.shifts ((shiftStart L p reg).target.map Device.reg) (bits buf n)).1.length =
        (shiftStart L p reg).target.length := by
      rw [Series.length_shifts, List.length_map]
    have hst : ((shiftStart L p reg).run (Target.chain L) (scanPins buf n)).state = reg.exit1 := by
      rw [Port.state_run, hstate, TapController.run_scanPins]
    have htg : ((shiftStart L p reg).run (Target.chain L) (scanPins buf n)).target =
        Device.withRegs (shiftStart L p reg).target
          (Series.shifts ((shiftStart L p reg).target.map Device.reg) (bits buf n)).1 :=
      Device.list_ext (by rw [hcores, Device.map_core_withRegs hl]) (by rw [hregs, Device.map_reg_withRegs hl])
    rw [← hst, ← htg]
  rw [TapController.scanTrack, Port.run_append, Port.run_append, ← shiftStart, hend, run_exit1]

namespace TapController

/-- A scan of as many bits as the registers hold when it begins to shift: these bits come out, each
register takes its part of the bits shifted in, and every device updates with it. -/
theorem scan_chain {c : TapController (List (Device δ))} (hs : c.Synced) (hd : c.device.Delivers) (reg : Register)
    {buf : List Byte} {n : ℕ} (hn : 1 ≤ n) (hb : bytesFor n ≤ buf.length) (read : Bool) {ys : List (List Bool)}
    (hbits : bits buf n = ys.flatten)
    (hys : ys.map List.length = ((shiftStart L c.device.link.port reg).target.map Device.reg).map List.length) :
    ∃ c', scan (Target.chain L) reg (some buf) [] n read c =
        some ((true, if read then packBits ((shiftStart L c.device.link.port reg).target.map Device.reg).flatten else []),
          c') ∧ c'.Synced ∧ c'.state = .runTestIdle ∧ c'.device.Delivers ∧
      c'.device.link.port.target.map Device.reg = ys ∧
      c'.device.link.port.target.map Device.core =
        List.zipWith (L.update reg) ((shiftStart L c.device.link.port reg).target.map Device.core) ys ∧
      c'.lastError = c.lastError := by
  obtain ⟨d, e, hs', hc, hd'⟩ := scan_delivered (T := Target.chain L) reg hn hb read hs hd
  obtain ⟨houts, hrun⟩ := run_scanTrack L c.device.link.port reg buf hn
  have hl : ys.length = (shiftStart L c.device.link.port reg).target.length := by simpa using congrArg List.length hys
  rw [hbits, Series.shifts_of_length hys] at houts hrun
  refine ⟨_, ?_, hs', rfl, hd', ?_, ?_, rfl⟩
  · rw [e, trackSamples, ← hs.state, ← shiftStart, houts]
  · rw [hc.port, ← hs.state, hrun]
    exact (Device.map_reg_update L reg _).trans (Device.map_reg_withRegs hl)
  · rw [hc.port, ← hs.state, hrun]
    exact Device.map_core_update L reg _ _

end TapController

end OwlTap.Jtag
