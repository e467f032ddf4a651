import OwlTap.Ila.Bscane2Top
import OwlTap.Jtag.ChainScan

/-!
# The FPGA on a chain

To a scan, the access port is a device whose data register is the frame while USERn is in
force: CAPTURE loads it from the registers (`IlaCore.capture`), and UPDATE takes it
(`IlaCore.update`). `AccessPort.scan` says that the TCK domain of the HDL does this with
every scan that begins in RUN-TEST/IDLE, whatever the sample clock domain shows on the way.
-/

namespace OwlTap.Ila

open OwlTap Ftdi Jtag

variable {dataW addrW : ℕ}

/-- What scans see of an instance of `ila_bscane2_top`, and change in it. -/
structure IlaCore (dataW addrW : ℕ) where
  /-- Its parameters. -/
  params : IlaParams
  /-- The registers. -/
  regs : IlaRegs dataW addrW
  /-- How many frames have been scanned. -/
  time : ℕ
  /-- What the sample clock domain shows to each of them. -/
  side : ℕ → SampleSide dataW addrW
  /-- The control pulses that they have asked for, in order. -/
  pulses : List CtrlBit

/-- The control pulses that a frame asks for, in the order of their bits. -/
def pulsesOf (frame : List Bool) : List CtrlBit := [.arm, .stop, .reset, .force].filter (ctrlOf frame)

namespace IlaCore

/-- CAPTURE. -/
def capture (c : IlaCore dataW addrW) : List Bool :=
  c.regs.captureFrame c.params ((c.side c.time).mem c.regs.rdAddr) (c.side c.time).status

/-- UPDATE. -/
def update (c : IlaCore dataW addrW) (frame : List Bool) : IlaCore dataW addrW :=
  { c with regs := c.regs.latch c.params frame, time := c.time + 1, pulses := c.pulses ++ pulsesOf frame }

@[simp] theorem length_capture (c : IlaCore dataW addrW) : c.capture.length = 5 + dataW := by
  simp [capture, IlaRegs.captureFrame]

end IlaCore

/-- The FPGA. -/
structure FpgaTap (dataW addrW : ℕ) where
  /-- What it presents after a reset. -/
  identity : List Bool
  /-- The instruction in force; none after a reset. -/
  instruction : Option (BitVec 6)
  /-- The logic analyser. -/
  core : IlaCore dataW addrW

namespace FpgaTap

/-- USERn is in force. -/
def Active (d : FpgaTap dataW addrW) : Prop := d.instruction = some (Bscane2.userOpcode d.core.params.jtagChain)

instance (d : FpgaTap dataW addrW) : Decidable d.Active := inferInstanceAs (Decidable (_ = _))

/-- The data register that is selected, and what it captures. -/
def captureDr (d : FpgaTap dataW addrW) : List Bool :=
  if d.Active then d.core.capture else if d.instruction = none then d.identity else [false]

/-- UPDATE-DR. -/
def updateDr (d : FpgaTap dataW addrW) (bits : List Bool) : FpgaTap dataW addrW :=
  { d with core := if d.Active then d.core.update bits else d.core }

/-- UPDATE-IR. -/
def updateIr (d : FpgaTap dataW addrW) (bits : List Bool) : FpgaTap dataW addrW :=
  { d with instruction := some (ofBits 6 bits) }

/-- The test logic of the FPGA. -/
def logic : TestLogic (FpgaTap dataW addrW) where
  irWidth _ := 6
  capture
    | .ir, _ => toBits (0x01 : BitVec 6)
    | .dr, d => d.captureDr
  update
    | .ir, d, bits => d.updateIr bits
    | .dr, d, bits => d.updateDr bits
  reset d := { d with instruction := none, core := { d.core with regs := .reset } }
  identity d := d.identity
  length_capture_ir _ := length_toBits _
  irWidth_update _ _ _ := rfl
  irWidth_reset _ := rfl
  capture_reset d := by simp [captureDr, Active]
  identity_update r d bits := by cases r <;> rfl
  identity_reset _ := rfl

end FpgaTap

/-! ### The HDL -/

namespace AccessPort

variable (P : IlaParams)

/-- The TCK domain after a string of cycles, each with what the sample clock domain shows in it. -/
def run (a : AccessPort dataW addrW) (cs : List (SampleSide dataW addrW × Pins)) : AccessPort dataW addrW :=
  cs.foldl (fun a c => a.clock P c.1 c.2) a

/-- What the FPGA's TAP drives on TDO in the cycles of a string. -/
def outs : AccessPort dataW addrW → List (SampleSide dataW addrW × Pins) → List Bool
  | _, [] => []
  | a, c :: cs => a.tdo P :: outs (a.clock P c.1 c.2) cs

theorem outs_append (a : AccessPort dataW addrW) (cs ds : List (SampleSide dataW addrW × Pins)) :
    outs P a (cs ++ ds) = outs P a cs ++ outs P (a.run P cs) ds := by
  induction cs generalizing a with
  | nil => rfl
  | cons c cs ih => exact congrArg _ (ih _)

@[simp] theorem length_outs (a : AccessPort dataW addrW) (cs : List (SampleSide dataW addrW × Pins)) :
    (outs P a cs).length = cs.length := by
  induction cs generalizing a with
  | nil => rfl
  | cons c cs ih => exact congrArg (· + 1) (ih _)

theorem run_append (a : AccessPort dataW addrW) (cs ds : List (SampleSide dataW addrW × Pins)) :
    a.run P (cs ++ ds) = (a.run P cs).run P ds :=
  List.foldl_append

/-- Away from TEST-LOGIC-RESET a cycle does not reset. -/
theorem clock_eq {a : AccessPort dataW addrW} {s : SampleSide dataW addrW} {c : Pins}
    (h : a.bscan.state ≠ .testLogicReset ∧ a.bscan.state.next c.tms ≠ .testLogicReset) :
    a.clock P s c = a.clockNoReset P s c := by
  rw [clock, if_neg (by rintro (h' | h'); exacts [h.1 h', h.2 h'])]

/-- In SHIFT-DR the frame takes TDI in at its end. -/
theorem clock_shift {a : AccessPort dataW addrW} (hu : a.bscan.active P.jtagChain = true)
    (hs : a.bscan.state = .shiftDr) (hd : a.drShift ≠ []) (c : SampleSide dataW addrW × Pins) :
    Series.shift [a.drShift] c.2.tdi = ([(a.clock P c.1 c.2).drShift], a.tdo P) ∧
      (a.clock P c.1 c.2).regs = a.regs ∧
      (a.clock P c.1 c.2).bscan = { a.bscan with state := TapState.shiftDr.next c.2.tms } := by
  have hc : a.clock P c.1 c.2 = a.clockNoReset P c.1 c.2 := by
    apply clock_eq
    rw [hs]
    cases c.2.tms <;> decide
  rw [hc]
  refine ⟨?_, ?_, ?_⟩
  · obtain ⟨b, r, hr⟩ := List.exists_cons_of_ne_nil hd
    have htdo : a.tdo P = a.drShift.headD false := by simp [tdo, Bscane2.shift, hu, hs]
    have hdr : (a.clockNoReset P c.1 c.2).drShift = a.drShift.tail ++ [c.2.tdi] := by
      simp [clockNoReset, Bscane2.capture, Bscane2.shift, hu, hs]
    rw [htdo, hdr, hr]
    rfl
  · simp [clockNoReset, Bscane2.update, hs]
  · simp [clockNoReset, Bscane2.clock, hs]

/-- The frame shifts like a register of its own. -/
theorem run_shift {a : AccessPort dataW addrW} (hu : a.bscan.active P.jtagChain = true)
    (hs : a.bscan.state = .shiftDr) (hd : a.drShift ≠ []) {cs : List (SampleSide dataW addrW × Pins)}
    (hv : TapState.shiftDr.visits (cs.map (·.2.tms)) = List.replicate cs.length .shiftDr) :
    Series.shifts [a.drShift] (cs.map (·.2.tdi)) = ([(a.run P cs).drShift], outs P a cs) ∧
      (a.run P cs).regs = a.regs ∧
      (a.run P cs).bscan = { a.bscan with state := TapState.shiftDr.run (cs.map (·.2.tms)) } := by
  induction cs generalizing a with
  | nil =>
    refine ⟨rfl, rfl, ?_⟩
    show a.bscan = { a.bscan with state := .shiftDr }
    rw [← hs]
  | cons c cs ih =>
    obtain ⟨hshift, hregs, hbscan⟩ := clock_shift P hu hs hd c
    have hsplit : Series.shifts [a.drShift] ((c :: cs).map (·.2.tdi)) =
        ((Series.shifts [(a.clock P c.1 c.2).drShift] (cs.map (·.2.tdi))).1,
          a.tdo P :: (Series.shifts [(a.clock P c.1 c.2).drShift] (cs.map (·.2.tdi))).2) := by
      rw [List.map_cons, Series.shifts, hshift]
    cases cs with
    | nil => exact ⟨hsplit, hregs, hbscan⟩
    | cons c' cs =>
      have htail : (TapState.shiftDr.next c.2.tms).visits ((c' :: cs).map (·.2.tms)) =
          List.replicate (c' :: cs).length .shiftDr := (List.cons.inj hv).2
      have hstate : TapState.shiftDr.next c.2.tms = .shiftDr := (List.cons.inj htail).1
      have hne : (a.clock P c.1 c.2).drShift ≠ [] := by
        have hl := Series.map_length_shift [a.drShift] c.2.tdi
        rw [hshift] at hl
        intro h0
        rw [h0] at hl
        exact hd (List.length_eq_zero_iff.mp (List.cons.inj hl).1.symm)
      obtain ⟨hshifts, hregs', hbscan'⟩ := ih (a := a.clock P c.1 c.2) (by rw [hbscan]; exact hu)
        (by rw [hbscan]; exact hstate) hne (by rw [← hstate]; rw [hstate] at htail ⊢; exact htail)
      refine ⟨?_, hregs'.trans hregs, ?_⟩
      · rw [hsplit, hshifts]
        rfl
      · rw [hbscan] at hbscan'
        refine hbscan'.trans ?_
        rw [List.map_cons (l := c' :: cs), TapState.run_cons, hstate]

/-- The way from RUN-TEST/IDLE to SHIFT-DR loads the frame: with the word that the memory shows in its second
cycle, and with the status of its first. -/
theorem run_toShift {a : AccessPort dataW addrW} (hu : a.bscan.active P.jtagChain = true)
    (hs : a.bscan.state = .runTestIdle) (s₁ s₂ s₃ : SampleSide dataW addrW) :
    let b := a.run P [(s₁, ⟨true, false⟩), (s₂, ⟨false, false⟩), (s₃, ⟨false, false⟩)]
    b.drShift = a.regs.captureFrame P (s₂.mem a.regs.rdAddr) s₁.status ∧ b.regs = a.regs ∧
      b.bscan = { a.bscan with state := .shiftDr } := by
  have h₁ : a.clock P s₁ ⟨true, false⟩ = a.clockNoReset P s₁ ⟨true, false⟩ := by
    apply clock_eq
    rw [hs]
    decide
  have hs₁ : (a.clock P s₁ ⟨true, false⟩).bscan.state = .selectDrScan := by
    rw [h₁]
    simp [clockNoReset, Bscane2.clock, hs, TapState.next]
  have h₂ := clock_eq P (a := a.clock P s₁ ⟨true, false⟩) (s := s₂) (c := ⟨false, false⟩) (by rw [hs₁]; decide)
  have hs₂ : ((a.clock P s₁ ⟨true, false⟩).clock P s₂ ⟨false, false⟩).bscan.state = .captureDr := by
    rw [h₂]
    simp [clockNoReset, Bscane2.clock, hs₁, TapState.next]
  have h₃ := clock_eq P (a := (a.clock P s₁ ⟨true, false⟩).clock P s₂ ⟨false, false⟩) (s := s₃)
    (c := ⟨false, false⟩) (by rw [hs₂]; decide)
  show (((a.clock P s₁ ⟨true, false⟩).clock P s₂ ⟨false, false⟩).clock P s₃ ⟨false, false⟩).drShift = _ ∧
    (((a.clock P s₁ ⟨true, false⟩).clock P s₂ ⟨false, false⟩).clock P s₃ ⟨false, false⟩).regs = _ ∧
    (((a.clock P s₁ ⟨true, false⟩).clock P s₂ ⟨false, false⟩).clock P s₃ ⟨false, false⟩).bscan = _
  rw [h₃, h₂, h₁]
  simp only [Bscane2.active] at hu
  simp [clockNoReset, Bscane2.clock, Bscane2.capture, Bscane2.update, Bscane2.active, hs, hu, TapState.next]

/-- The way from EXIT1-DR to RUN-TEST/IDLE takes the frame. -/
theorem run_toIdle {a : AccessPort dataW addrW} (hu : a.bscan.active P.jtagChain = true)
    (hs : a.bscan.state = .exit1Dr) (s₁ s₂ : SampleSide dataW addrW) :
    let b := a.run P [(s₁, ⟨true, false⟩), (s₂, ⟨false, false⟩)]
    b.regs = a.regs.latch P a.drShift ∧ b.ctrl = ctrlOf a.drShift ∧
      b.bscan = { a.bscan with state := .runTestIdle } := by
  have h₁ : a.clock P s₁ ⟨true, false⟩ = a.clockNoReset P s₁ ⟨true, false⟩ := by
    apply clock_eq
    rw [hs]
    decide
  have hs₁ : (a.clock P s₁ ⟨true, false⟩).bscan.state = .updateDr := by
    rw [h₁]
    simp [clockNoReset, Bscane2.clock, hs, TapState.next]
  have h₂ := clock_eq P (a := a.clock P s₁ ⟨true, false⟩) (s := s₂) (c := ⟨false, false⟩) (by rw [hs₁]; decide)
  show ((a.clock P s₁ ⟨true, false⟩).clock P s₂ ⟨false, false⟩).regs = _ ∧
    ((a.clock P s₁ ⟨true, false⟩).clock P s₂ ⟨false, false⟩).ctrl = _ ∧
    ((a.clock P s₁ ⟨true, false⟩).clock P s₂ ⟨false, false⟩).bscan = _
  rw [h₂, h₁]
  simp only [Bscane2.active] at hu
  simp [clockNoReset, Bscane2.clock, Bscane2.capture, Bscane2.update, Bscane2.shift, Bscane2.active, hs, hu,
    TapState.next]

/-- A data scan from RUN-TEST/IDLE with USERn in force: the frame that is loaded shifts in series with what
comes in, and the frame that is there at the end is taken, with one cycle of its control pulses. -/
theorem scan {a : AccessPort dataW addrW} (hu : a.bscan.active P.jtagChain = true)
    (hs : a.bscan.state = .runTestIdle) {buf : List Byte} {n : ℕ} (hn : 1 ≤ n)
    {cs : List (SampleSide dataW addrW × Pins)}
    (hcs : cs.map Prod.snd = TapController.scanTrack .runTestIdle .dr buf n) :
    ∃ s₁ s₂ sides frame, cs.map Prod.fst = s₁ :: s₂ :: sides ∧
      Series.shifts [a.regs.captureFrame P (s₂.mem a.regs.rdAddr) s₁.status] (bits buf n) =
        ([frame], ((outs P a cs).drop 3).take n) ∧
      (a.run P cs).regs = a.regs.latch P frame ∧ (a.run P cs).ctrl = ctrlOf frame ∧
      (a.run P cs).bscan = a.bscan := by
  have hto : pathPins .runTestIdle Register.dr.shift = [⟨true, false⟩, ⟨false, false⟩, ⟨false, false⟩] := by
    decide +kernel
  rw [TapController.scanTrack, hto, pathPins, tmsPath_exit1] at hcs
  obtain ⟨pre, rest, rfl, hpre, hrest⟩ := List.map_eq_append_iff.mp hcs
  obtain ⟨mid, post, rfl, hmid, hpost⟩ := List.map_eq_append_iff.mp hrest
  obtain ⟨s₁, s₂, s₃, rfl⟩ : ∃ s₁ s₂ s₃, pre = [(s₁, ⟨true, false⟩), (s₂, ⟨false, false⟩), (s₃, ⟨false, false⟩)] := by
    obtain ⟨⟨s₁, c₁⟩, ⟨s₂, c₂⟩, ⟨s₃, c₃⟩, rfl⟩ := List.length_eq_three.mp (by simpa using congrArg List.length hpre)
    simp only [List.map_cons, List.map_nil, List.cons.injEq, and_true] at hpre
    obtain ⟨rfl, rfl, rfl⟩ := hpre
    exact ⟨s₁, s₂, s₃, rfl⟩
  obtain ⟨s₄, s₅, rfl⟩ : ∃ s₄ s₅, post = [(s₄, ⟨true, false⟩), (s₅, ⟨false, false⟩)] := by
    obtain ⟨⟨s₄, c₄⟩, ⟨s₅, c₅⟩, rfl⟩ := List.length_eq_two.mp (by simpa using congrArg List.length hpost)
    simp only [List.map_cons, List.map_nil, List.cons.injEq, and_true] at hpost
    obtain ⟨rfl, rfl⟩ := hpost
    exact ⟨s₄, s₅, rfl⟩
  have htms : mid.map (·.2.tms) = (scanPins buf n).map Pins.tms := by rw [← hmid, List.map_map]; rfl
  have htdi : mid.map (·.2.tdi) = bits buf n := by
    rw [← TapController.map_tdi_scanPins buf hn, ← hmid, List.map_map]
    rfl
  have hlen : mid.length = n := by rw [← length_scanPins buf hn, ← hmid, List.length_map]
  obtain ⟨hload, hregs₁, hbscan₁⟩ := run_toShift P hu hs s₁ s₂ s₃
  have hvisits : TapState.shiftDr.visits (mid.map (·.2.tms)) = List.replicate mid.length .shiftDr := by
    rw [htms, hlen]
    exact TapController.visits_scanPins (.inl rfl) buf hn
  obtain ⟨hshift, hregs₂, hbscan₂⟩ := run_shift P (a := a.run P [(s₁, ⟨true, false⟩), (s₂, ⟨false, false⟩),
    (s₃, ⟨false, false⟩)]) (by rw [hbscan₁]; exact hu) (by rw [hbscan₁])
    (by rw [hload]; simp [IlaRegs.captureFrame, toBits]) hvisits
  rw [htms, show (TapState.shiftDr : TapState) = Register.dr.shift from rfl, TapController.run_scanPins] at hbscan₂
  obtain ⟨hregs₃, hctrl, hbscan₃⟩ := run_toIdle P (a := (a.run P [(s₁, ⟨true, false⟩), (s₂, ⟨false, false⟩),
    (s₃, ⟨false, false⟩)]).run P mid) (by rw [hbscan₂, hbscan₁]; exact hu) (by rw [hbscan₂]; rfl) s₄ s₅
  refine ⟨s₁, s₂, _, ((a.run P [(s₁, ⟨true, false⟩), (s₂, ⟨false, false⟩), (s₃, ⟨false, false⟩)]).run P mid).drShift,
    rfl, ?_, ?_, ?_, ?_⟩
  · rw [htdi, hload] at hshift
    have hl : (outs P (a.run P [(s₁, ⟨true, false⟩), (s₂, ⟨false, false⟩), (s₃, ⟨false, false⟩)]) mid).length = n := by
      rw [length_outs, hlen]
    rw [hshift, outs_append, outs_append]
    show _ = (_, ((outs P _ mid ++ _).take n))
    rw [List.take_left' hl]
  · rw [run_append, run_append, hregs₃, hregs₂, hregs₁]
  · rw [run_append, run_append, hctrl]
  · rw [run_append, run_append, hbscan₃, hbscan₂, hbscan₁, ← hs]

/-- **The device is what the HDL does.** With USERn in force, the same registers, and the sample clock domain's
word and status of the first two cycles, a data scan from RUN-TEST/IDLE gets the same bits out of the FPGA and
leaves the same registers. -/
theorem scan_refines {a : AccessPort dataW addrW} {d : FpgaTap dataW addrW} (hu : a.bscan.active P.jtagChain = true)
    (hs : a.bscan.state = .runTestIdle) {buf : List Byte} {n : ℕ} (hn : 1 ≤ n)
    {cs : List (SampleSide dataW addrW × Pins)}
    (hcs : cs.map Prod.snd = TapController.scanTrack .runTestIdle .dr buf n) (hd : d.Active) (hP : d.core.params = P)
    (hr : d.core.regs = a.regs)
    (hside : ∀ s₁ s₂ sides, cs.map Prod.fst = s₁ :: s₂ :: sides → d.core.side d.core.time = ⟨s₂.mem, s₁.status⟩)
    (reg : List Bool) :
    ((shiftStart FpgaTap.logic ⟨.runTestIdle, [⟨d, reg⟩]⟩ .dr).cycles (Target.chain FpgaTap.logic)
        (scanPins buf n)).map Cycle.tdo = ((outs P a cs).drop 3).take n ∧
      ((⟨.runTestIdle, [⟨d, reg⟩]⟩ : Port _).run (Target.chain FpgaTap.logic)
        (TapController.scanTrack .runTestIdle .dr buf n)).target.map (·.core.core.regs) = [(a.run P cs).regs] := by
  obtain ⟨s₁, s₂, sides, frame, hfst, hshifts, hregs, -, -⟩ := scan P hu hs hn hcs
  obtain ⟨houts, hrun⟩ := run_scanTrack FpgaTap.logic ⟨.runTestIdle, [⟨d, reg⟩]⟩ .dr buf hn
  have hcapture : (shiftStart FpgaTap.logic ⟨.runTestIdle, [⟨d, reg⟩]⟩ .dr).target.map Device.reg =
      [a.regs.captureFrame P (s₂.mem a.regs.rdAddr) s₁.status] := by
    rw [shiftStart_idle]
    show [d.captureDr] = _
    rw [FpgaTap.captureDr, if_pos hd, IlaCore.capture, hside s₁ s₂ sides hfst, hP, hr]
  rw [hcapture, hshifts] at houts hrun
  refine ⟨houts, ?_⟩
  rw [hrun, hregs, shiftStart_idle]
  show [(d.updateDr frame).core.regs] = _
  rw [FpgaTap.updateDr, if_pos hd, IlaCore.update, hP, hr]

end AccessPort

end OwlTap.Ila
