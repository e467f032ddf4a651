import OwlTap.Base.Chain
import OwlTap.Ila.Bscane2Top

/-!
# The dedicated access port of the logic analyser

`ila_tap` is a TAP of its own, with an instruction register of 5 bits. Each instruction
selects a data register with a shift register of its own length, and an opcode that is not
in the list selects BYPASS. Nothing but the optional TRST pin resets the data registers:
TEST-LOGIC-RESET puts IDCODE in force, and that is all.

The HDL is modelled cycle by cycle (`IlaTapHdl.clock`), with every shift register. To the
chain it is a device with one register between TDI and TDO (`IlaTap.logic`), and
`IlaTapHdl.Tracks.run` says that the two do the same in every string of cycles.
-/

namespace OwlTap.Ila

open OwlTap

/-! ### Instructions and registers -/

/-- The data registers. -/
inductive TapReg where
  | idcode | config | sigDef | ctrl | status | trigMask | trigVal | readAddr | readData | preSamples
  | trigRise | trigFall | trigMask2 | trigVal2 | trigCtrl | bypass
  deriving DecidableEq, Repr

namespace TapReg

instance : Fintype TapReg where
  elems := {idcode, config, sigDef, ctrl, status, trigMask, trigVal, readAddr, readData, preSamples,
    trigRise, trigFall, trigMask2, trigVal2, trigCtrl, bypass}
  complete r := by cases r <;> decide

/-- The opcode of the instruction that selects the register. -/
def opcode : TapReg → BitVec 5
  | idcode => Opcode.idcode
  | config => Opcode.config
  | sigDef => Opcode.sigDef
  | ctrl => Opcode.ctrl
  | status => Opcode.status
  | trigMask => Opcode.trigMask
  | trigVal => Opcode.trigVal
  | readAddr => Opcode.readAddr
  | readData => Opcode.readData
  | preSamples => Opcode.preSamples
  | trigRise => Opcode.trigRise
  | trigFall => Opcode.trigFall
  | trigMask2 => Opcode.trigMask2
  | trigVal2 => Opcode.trigVal2
  | trigCtrl => Opcode.trigCtrl
  | bypass => 0x1F

/-- The register that an opcode selects. -/
def ofOpcode (ir : BitVec 5) : TapReg :=
  ([idcode, config, sigDef, ctrl, status, trigMask, trigVal, readAddr, readData, preSamples, trigRise, trigFall,
    trigMask2, trigVal2, trigCtrl].find? fun r => r.opcode == ir).getD bypass

@[simp] theorem ofOpcode_opcode (r : TapReg) : ofOpcode r.opcode = r := by
  revert r; decide

end TapReg

/-- The registers that a scan can write, and the signal definition to be read next. -/
structure IlaTapRegs (dataW addrW : ℕ) where
  /-- Group A: the bits compared. -/
  maskReg : BitVec dataW
  /-- Group A: their values. -/
  valReg : BitVec dataW
  /-- Group A: the bits that may rise. -/
  riseReg : BitVec dataW
  /-- Group A: the bits that may fall. -/
  fallReg : BitVec dataW
  /-- The samples before the trigger. -/
  preReg : BitVec 16
  /-- Group B: the bits compared. -/
  mask2Reg : BitVec dataW
  /-- Group B: their values. -/
  val2Reg : BitVec dataW
  /-- One of the groups is enough. -/
  orModeReg : Bool
  /-- The address to be read. -/
  addrReg : BitVec addrW
  /-- The signal definition to be read next. -/
  sigDefIdx : BitVec 4
  deriving DecidableEq

/-- The inputs of the module: the status, and the word that the memory shows. -/
structure IlaTapInputs (dataW : ℕ) where
  /-- The status, synchronised. -/
  sts : IlaStatus
  /-- The word at the address to be read. -/
  rdData : BitVec dataW

namespace IlaTapRegs

variable {dataW addrW : ℕ} (P : IlaParams)

/-- After TRST. -/
def reset : IlaTapRegs dataW addrW := ⟨0, 0, 0, 0, BitVec.ofNat 16 (2 ^ addrW / 4), 0, 0, false, 0, 0⟩

/-- What CAPTURE-DR loads into the shift register of a data register. -/
def capture (i : IlaTapInputs dataW) (r : IlaTapRegs dataW addrW) : TapReg → List Bool
  | .idcode => toBits P.idcodeVal
  | .config => toBits (configVal P dataW addrW)
  | .sigDef => toBits (sigDefVal P r.sigDefIdx)
  | .status => toBits (i.sts.val : BitVec 8)
  | .trigMask => toBits r.maskReg
  | .trigVal => toBits r.valReg
  | .trigRise => toBits r.riseReg
  | .trigFall => toBits r.fallReg
  | .trigMask2 => toBits r.mask2Reg
  | .trigVal2 => toBits r.val2Reg
  | .trigCtrl => toBits (ofBits dataW [r.orModeReg])
  | .preSamples => toBits r.preReg
  | .readAddr => toBits r.addrReg
  | .readData => toBits i.rdData
  | .ctrl => toBits (0 : BitVec 4)
  | .bypass => [false]

/-- What UPDATE-DR does with what is in the shift register of a data register. -/
def update (bits : List Bool) (r : IlaTapRegs dataW addrW) : TapReg → IlaTapRegs dataW addrW
  | .trigMask => { r with maskReg := ofBits dataW bits }
  | .trigVal => { r with valReg := ofBits dataW bits }
  | .trigRise => { r with riseReg := ofBits dataW bits }
  | .trigFall => { r with fallReg := ofBits dataW bits }
  | .trigMask2 => { r with mask2Reg := ofBits dataW bits }
  | .trigVal2 => { r with val2Reg := ofBits dataW bits }
  | .trigCtrl => { r with orModeReg := bits.getD 0 false }
  | .preSamples => { r with preReg := ofBits 16 bits }
  | .readAddr => { r with addrReg := ofBits addrW bits }
  | .readData => { r with addrReg := r.addrReg + 1 }
  | .sigDef =>
    { r with sigDefIdx := if r.sigDefIdx < BitVec.ofNat 4 (P.sigCount - 1) then r.sigDefIdx + 1 else 0 }
  | .idcode | .config | .ctrl | .status | .bypass => r

end IlaTapRegs

/-- The control pulses that UPDATE-DR makes. -/
def tapCtrlOf (r : TapReg) (bits : List Bool) (k : CtrlBit) : Bool := r == .ctrl && bits.getD k.index false

/-! ### The HDL -/

/-- The state of `ila_tap`. -/
structure IlaTapHdl (dataW addrW : ℕ) where
  /-- The state of the TAP. -/
  state : TapState
  /-- The instruction register. -/
  irShift : List Bool
  /-- The instruction in force. -/
  irLatched : BitVec 5
  /-- The shift register of each data register. -/
  shift : TapReg → List Bool
  /-- The registers. -/
  regs : IlaTapRegs dataW addrW
  /-- The control pulses. -/
  ctrl : CtrlBit → Bool

namespace IlaTapHdl

variable {dataW addrW : ℕ} (P : IlaParams)

/-- After TRST. -/
def reset : IlaTapHdl dataW addrW where
  state := .testLogicReset
  irShift := List.replicate 5 false
  irLatched := Opcode.idcode
  shift
    | .idcode => toBits P.idcodeVal
    | .config => toBits (configVal P dataW addrW)
    | .sigDef => List.replicate 32 false
    | .ctrl => List.replicate 4 false
    | .status => List.replicate 8 false
    | .preSamples => List.replicate 16 false
    | .readAddr => List.replicate addrW false
    | .bypass => [false]
    | _ => List.replicate dataW false
  regs := .reset
  ctrl _ := false

/-- The data register that is selected. -/
def selected (h : IlaTapHdl dataW addrW) : TapReg := TapReg.ofOpcode h.irLatched

/-- One TCK cycle. -/
def clock (i : IlaTapInputs dataW) (c : Pins) (h : IlaTapHdl dataW addrW) : IlaTapHdl dataW addrW where
  state := h.state.next c.tms
  irShift :=
    if h.state = .captureIr then toBits (0x01 : BitVec 5)
    else if h.state = .shiftIr then (ShiftRegister.shift h.irShift c.tdi).1
    else h.irShift
  irLatched :=
    if h.state = .testLogicReset then Opcode.idcode
    else if h.state = .updateIr then ofBits 5 h.irShift
    else h.irLatched
  shift :=
    if h.state = .captureDr then Function.update h.shift h.selected (h.regs.capture P i h.selected)
    else if h.state = .shiftDr then
      Function.update h.shift h.selected (ShiftRegister.shift (h.shift h.selected) c.tdi).1
    else h.shift
  regs :=
    if h.state = .updateIr then { h.regs with sigDefIdx := 0 }
    else if h.state = .updateDr then h.regs.update P (h.shift h.selected) h.selected
    else h.regs
  ctrl k := h.state == .updateDr && tapCtrlOf h.selected (h.shift h.selected) k

/-- What it drives on TDO: the output is enabled in the SHIFT states. -/
def tdo (c : Pins) (h : IlaTapHdl dataW addrW) : Bool :=
  if h.state = .shiftIr then (ShiftRegister.shift h.irShift c.tdi).2
  else if h.state = .shiftDr then (ShiftRegister.shift (h.shift h.selected) c.tdi).2
  else c.tdi

end IlaTapHdl

/-! ### The device -/

/-- What scans see of an instance of `ila_tap`, and change in it. -/
structure IlaTap where
  /-- The width of a sample. -/
  dataW : ℕ
  /-- The width of an address. -/
  addrW : ℕ
  /-- The other parameters. -/
  params : IlaParams
  /-- The instruction in force. -/
  irLatched : BitVec 5
  /-- The registers. -/
  regs : IlaTapRegs dataW addrW
  /-- How many data registers have been updated. -/
  time : ℕ
  /-- What the inputs show to each CAPTURE-DR. -/
  inputs : ℕ → IlaTapInputs dataW
  /-- The control pulses that have been made, in order. -/
  pulses : List CtrlBit

namespace IlaTap

/-- The data register that is selected. -/
def selected (d : IlaTap) : TapReg := TapReg.ofOpcode d.irLatched

/-- CAPTURE-DR. -/
def captureDr (d : IlaTap) : List Bool := d.regs.capture d.params (d.inputs d.time) d.selected

/-- UPDATE-DR. -/
def updateDr (d : IlaTap) (bits : List Bool) : IlaTap :=
  { d with
    regs := d.regs.update d.params bits d.selected
    time := d.time + 1
    pulses := d.pulses ++ [.arm, .stop, .reset, .force].filter (tapCtrlOf d.selected bits) }

/-- UPDATE-IR. -/
def updateIr (d : IlaTap) (bits : List Bool) : IlaTap :=
  { d with irLatched := ofBits 5 bits, regs := { d.regs with sigDefIdx := 0 } }

/-- The test logic of `ila_tap`. -/
def logic : TestLogic IlaTap where
  irWidth _ := 5
  capture
    | .ir, _ => toBits (0x01 : BitVec 5)
    | .dr, d => d.captureDr
  update
    | .ir, d, bits => d.updateIr bits
    | .dr, d, bits => d.updateDr bits
  reset d := { d with irLatched := Opcode.idcode }
  identity d := toBits d.params.idcodeVal
  length_capture_ir _ := length_toBits _
  irWidth_update _ _ _ := rfl
  irWidth_reset _ := rfl
  capture_reset _ := rfl
  identity_update r d bits := by cases r <;> rfl
  identity_reset _ := rfl

/-- An instance after TRST, whose inputs show nothing. -/
def powered (dataW addrW : ℕ) (params : IlaParams) : IlaTap :=
  ⟨dataW, addrW, params, Opcode.idcode, .reset, 0, fun _ => ⟨⟨false, false, false⟩, 0⟩, []⟩

@[simp] theorem updateDr_irLatched (d : IlaTap) (bits : List Bool) : (d.updateDr bits).irLatched = d.irLatched := rfl

@[simp] theorem updateDr_params (d : IlaTap) (bits : List Bool) : (d.updateDr bits).params = d.params := rfl

@[simp] theorem updateIr_params (d : IlaTap) (bits : List Bool) : (d.updateIr bits).params = d.params := rfl

end IlaTap

/-! ### The device is what the HDL does -/

/-- The states between CAPTURE-DR and UPDATE-DR, in which the data register is in the chain. -/
def InDr (s : TapState) : Prop := s = .shiftDr ∨ s = .exit1Dr ∨ s = .pauseDr ∨ s = .exit2Dr ∨ s = .updateDr

instance (s : TapState) : Decidable (InDr s) := inferInstanceAs (Decidable (_ ∨ _))

theorem inDr_next {s : TapState} {tms : Bool} (h : InDr (s.next tms)) :
    s = .captureDr ∨ s = .shiftDr ∨ s = .exit1Dr ∨ s = .pauseDr ∨ s = .exit2Dr := by
  revert s tms; decide

namespace IlaTapHdl

variable {dataW addrW : ℕ} (P : IlaParams) (inputs : ℕ → IlaTapInputs dataW)

/-- The device that the HDL is, after so many updates and with these pulses behind it. -/
def device (h : IlaTapHdl dataW addrW) (time : ℕ) (pulses : List CtrlBit) : IlaTap :=
  ⟨dataW, addrW, P, h.irLatched, h.regs, time, inputs, pulses⟩

/-- The device on a chain of its own is where the HDL is. -/
structure Tracks (h : IlaTapHdl dataW addrW) (time : ℕ) (pulses : List CtrlBit) (p : Port (List (Device IlaTap))) :
    Prop where
  /-- The TAPs are in step. -/
  state : p.state = h.state
  /-- What is between TDI and TDO is the shift register that is selected. -/
  target : ∃ reg, p.target = [⟨h.device P inputs time pulses, reg⟩] ∧ (Chain.InIr h.state → reg = h.irShift) ∧
    (InDr h.state → reg = h.shift h.selected)

variable {P inputs} {h : IlaTapHdl dataW addrW} {time : ℕ} {pulses : List CtrlBit} {p : Port (List (Device IlaTap))}

/-- What the host samples is what the HDL drives. -/
theorem Tracks.cycle_tdo (ht : Tracks P inputs h time pulses p) (hs : h.state.IsShift) (c : Pins) :
    (p.cycle (Target.chain IlaTap.logic) c).tdo = h.tdo c := by
  obtain ⟨hstate, reg, htarget, hir, hdr⟩ := ht
  obtain ⟨s, ch⟩ := p
  obtain rfl : s = h.state := hstate
  obtain rfl : ch = _ := htarget
  rcases hs with hs | hs
  · rw [hs] at hdr
    rw [hdr (by decide), tdo, if_neg (by rw [hs]; decide), if_pos hs, hs]
    rfl
  · rw [hs] at hir
    rw [hir (by decide), tdo, if_pos hs, hs]
    rfl

/-- One TCK cycle: in CAPTURE-DR the HDL is shown what the device is. -/
theorem Tracks.clock (ht : Tracks P inputs h time pulses p) {i : IlaTapInputs dataW}
    (hi : h.state = .captureDr → i = inputs time) (c : Pins) :
    Tracks P inputs (h.clock P i c) (if h.state = .updateDr then time + 1 else time)
      (pulses ++ [.arm, .stop, .reset, .force].filter (h.clock P i c).ctrl) (p.clock (Target.chain IlaTap.logic) c) := by
  obtain ⟨hstate, reg, htarget, hir, hdr⟩ := ht
  obtain ⟨s', ch⟩ := p
  subst htarget
  subst hstate
  have hpulses : h.state ≠ .updateDr → pulses ++ [CtrlBit.arm, .stop, .reset, .force].filter (h.clock P i c).ctrl =
      pulses := fun hne => by
    have : (h.clock P i c).ctrl = fun _ => false := by
      funext k
      simp [IlaTapHdl.clock, hne]
    rw [this, List.filter_false, List.append_nil]
  obtain ⟨s, irShift, irLatched, shift, regs, ctrl⟩ := h
  change Chain.InIr s → reg = irShift at hir
  change InDr s → reg = shift (TapReg.ofOpcode irLatched) at hdr
  change s ≠ .updateDr → _ at hpulses
  change s = .captureDr → i = inputs time at hi
  refine ⟨by cases s <;> rfl, ?_⟩
  show ∃ reg', _ ∧ (Chain.InIr (s.next c.tms) → _) ∧ (InDr (s.next c.tms) → _)
  cases s with
  | testLogicReset | runTestIdle | selectDrScan | selectIrScan =>
    refine ⟨reg, ?_, fun h => absurd (Chain.inIr_next h) (by decide), fun h => absurd (inDr_next h) (by decide)⟩
    rw [hpulses (by decide)]
    rfl
  | captureDr =>
    refine ⟨regs.capture P (inputs time) (TapReg.ofOpcode irLatched), ?_, fun h => absurd (Chain.inIr_next h) (by decide),
      fun _ => ?_⟩
    · rw [hpulses (by decide)]
      rfl
    · rw [hi rfl]
      exact (Function.update_self (TapReg.ofOpcode irLatched) _ shift).symm
  | shiftDr =>
    refine ⟨(ShiftRegister.shift reg c.tdi).1, ?_, fun h => absurd (Chain.inIr_next h) (by decide), fun _ => ?_⟩
    · rw [hpulses (by decide)]
      rfl
    · rw [hdr (by decide)]
      exact (Function.update_self (TapReg.ofOpcode irLatched) _ shift).symm
  | exit1Dr | pauseDr | exit2Dr =>
    refine ⟨reg, ?_, fun h => absurd (Chain.inIr_next h) (by decide), fun _ => hdr (by decide)⟩
    rw [hpulses (by decide)]
    rfl
  | updateDr =>
    refine ⟨reg, ?_, fun h => absurd (Chain.inIr_next h) (by decide), fun h => absurd (inDr_next h) (by decide)⟩
    rw [hdr (by decide)]
    rfl
  | captureIr =>
    refine ⟨toBits (0x01 : BitVec 5), ?_, fun _ => rfl, fun h => absurd (inDr_next h) (by decide)⟩
    rw [hpulses (by decide)]
    rfl
  | shiftIr =>
    refine ⟨(ShiftRegister.shift reg c.tdi).1, ?_, fun _ => ?_, fun h => absurd (inDr_next h) (by decide)⟩
    · rw [hpulses (by decide)]
      rfl
    · rw [hir (by decide)]
      rfl
  | exit1Ir | pauseIr | exit2Ir =>
    refine ⟨reg, ?_, fun _ => hir (by decide), fun h => absurd (inDr_next h) (by decide)⟩
    rw [hpulses (by decide)]
    rfl
  | updateIr =>
    refine ⟨reg, ?_, fun h => absurd (Chain.inIr_next h) (by decide), fun h => absurd (inDr_next h) (by decide)⟩
    rw [hpulses (by decide), hir (by decide)]
    rfl

/-- The module after a string of cycles, each with its inputs. -/
def run (P : IlaParams) (h : IlaTapHdl dataW addrW) (cs : List (IlaTapInputs dataW × Pins)) : IlaTapHdl dataW addrW :=
  cs.foldl (fun h c => h.clock P c.1 c.2) h

/-- Every CAPTURE-DR of a string of cycles is shown the inputs of its turn. -/
def Shows (inputs : ℕ → IlaTapInputs dataW) : ℕ → TapState → List (IlaTapInputs dataW × Pins) → Prop
  | _, _, [] => True
  | time, s, c :: cs =>
    (s = .captureDr → c.1 = inputs time) ∧ Shows inputs (if s = .updateDr then time + 1 else time) (s.next c.2.tms) cs

/-- **The device is what the HDL does**, over every string of cycles. -/
theorem Tracks.run {cs : List (IlaTapInputs dataW × Pins)} (ht : Tracks P inputs h time pulses p)
    (hs : Shows inputs time h.state cs) :
    ∃ time' pulses', Tracks P inputs (h.run P cs) time' pulses' (p.run (Target.chain IlaTap.logic) (cs.map Prod.snd)) := by
  induction cs generalizing h time pulses p with
  | nil => exact ⟨time, pulses, ht⟩
  | cons c cs ih => exact ih (ht.clock hs.1 c.2) hs.2

/-- After TRST the device is the one that has just been powered. -/
theorem tracks_reset (P : IlaParams) (inputs : ℕ → IlaTapInputs dataW) (reg : List Bool) :
    Tracks P inputs (.reset P : IlaTapHdl dataW addrW) 0 []
      ⟨.testLogicReset, [⟨⟨dataW, addrW, P, Opcode.idcode, .reset, 0, inputs, []⟩, reg⟩]⟩ :=
  ⟨rfl, reg, rfl, fun h => absurd (show Chain.InIr .testLogicReset from h) (by decide),
    fun h => absurd (show InDr .testLogicReset from h) (by decide)⟩

end IlaTapHdl

end OwlTap.Ila
