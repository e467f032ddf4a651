import OwlTap.Ila.ChainIlaTapBackend
import OwlTap.Ila.FreshBackend
import OwlTap.Ila.IlaGenerator
import OwlTap.Jtag.BypassedChain

/-!
# Cores of any geometry behind the backend

The backend scans 37 bits for the frame of a core, whatever its width. The frame register of
a core of `w` bits has `w + 5`, and keeps the last of them: so with fewer than 32 bits the
opcode leaves the register again before UPDATE (`lost_opcode`).

`GeometryWorks` is what a core of some geometry is to do on some chain: take every frame as
the host means it, and do for every operation of the driver what that is for.
-/

namespace OwlTap.Ila

open OwlTap Ftdi Jtag

/-! ### The chain -/

/-- A device on a chain: one with a boundary register, or an FPGA with a core. -/
abbrev GeneratedCore (dataW addrW : ℕ) : Type := BoundaryDevice ⊕ FpgaTap dataW addrW

/-- Their test logic. -/
abbrev generatedLogic (dataW addrW : ℕ) : TestLogic (GeneratedCore dataW addrW) :=
  BoundaryDevice.logic.sum FpgaTap.logic

/-- The hardware of the chain. -/
abbrev generatedTarget (dataW addrW : ℕ) : Target (List (Device (GeneratedCore dataW addrW))) :=
  Target.chain (generatedLogic dataW addrW)

/-- The backend on the chain. -/
abbrev GeneratedBackend (dataW addrW : ℕ) : Type := BscaneIlaTapBackend (List (Device (GeneratedCore dataW addrW)))

variable {dataW addrW : ℕ}

/-- The device is in BYPASS. -/
def Bypassed : GeneratedCore dataW addrW → Prop :=
  Sum.elim (fun d => d.instruction = some (List.replicate d.spec.irWidth true))
    fun d => d.instruction = some (ofBits 6 (List.replicate 6 true))

theorem FpgaTap.hasBypass : (FpgaTap.logic : TestLogic (FpgaTap dataW addrW)).HasBypass fun d =>
    d.instruction = some (ofBits 6 (List.replicate 6 true)) where
  updateIr _ := rfl
  capture d h := by
    have hactive : ¬d.Active := fun ha =>
      userOpcode_ne_bypass _ (Option.some.inj ((ha : d.instruction = _).symm.trans h))
    show d.captureDr = _
    rw [captureDr, if_neg hactive, if_neg (by rw [h]; nofun)]
  updateDr _ _ h := h

theorem generatedLogic_hasBypass : (generatedLogic dataW addrW).HasBypass Bypassed :=
  boundaryDevice_hasBypass.sum FpgaTap.hasBypass

/-- The chain is at rest, the host knows it, and device `k` is the FPGA, in state `d`, whose scan chain is the
backend's. -/
structure Hosts (k : ℕ) (d : FpgaTap dataW addrW) (b : GeneratedBackend dataW addrW) : Prop where
  /-- The chain is at rest. -/
  rest : b.chain.tap.AtRest
  /-- The host knows the lengths of the instruction registers. -/
  widths : b.chain.KnowsWidths (generatedLogic dataW addrW)
  /-- The backend's device. -/
  index : b.plTapIndex = k
  /-- It is the FPGA. -/
  fpga : b.chain.tap.cores[k]? = some (.inr d)
  /-- The scan chain. -/
  userChain : b.userChain = d.core.params.jtagChain
  /-- It is one of four. -/
  range : 1 ≤ b.userChain ∧ b.userChain ≤ 4

/-- USERn is in force, and the other devices are in BYPASS. -/
structure Addresses (k : ℕ) (d : FpgaTap dataW addrW) (b : GeneratedBackend dataW addrW) : Prop
    extends Hosts k d b where
  /-- USERn is in force. -/
  active : d.Active
  /-- The other devices are in BYPASS. -/
  alone : Alone Bypassed k (.inr d) b.chain.tap.cores

/-! ### What is to be done -/

/-- The register that a scan of the core captures. -/
def IlaCore.selected (c : IlaCore dataW addrW) : BitVec dataW :=
  c.regs.captureData c.params ((c.side c.time).mem c.regs.rdAddr) (c.side c.time).status

/-- A scan gives the core a frame with the opcode and the data of the host, and returns the register that the core
captures. -/
def Delivers (k : ℕ) (d : FpgaTap dataW addrW) (b : GeneratedBackend dataW addrW) : Prop :=
  ∀ data32 : List Byte, ∃ raw b' frame,
    BscaneIlaTapBackend.doRawFrameShift (generatedTarget dataW addrW) data32 b = some ((true, raw), b') ∧
      Addresses k { d with core := d.core.update frame } b' ∧
      frameOpcode frame = b.pendingIr.setWidth 5 ∧ frameData dataW frame = ofBits dataW (bits data32 dataW) ∧
      bits raw dataW = toBits d.core.selected

/-- The core has the registers `r` now, but for the opcode of the last scan and the signal definition to be read
next, and has been asked for some more pulses. -/
def IlaCore.Becomes (r : IlaRegs dataW addrW) (pulses : List CtrlBit) (c c' : IlaCore dataW addrW) : Prop :=
  { c'.regs with storedIr := r.storedIr, sigDefIdx := r.sigDefIdx } = r ∧ c'.pulses = c.pulses ++ pulses

/-- The registers with a setup in them; the version says which are written. -/
def TriggerSetup.stored (t : TriggerSetup) (version : ℕ) (r : IlaRegs dataW addrW) : IlaRegs dataW addrW :=
  { r with
    trigMask := t.mask.setWidth dataW
    trigValue := t.value.setWidth dataW
    preSamples := t.preSamples.setWidth addrW
    trigRiseMask := if 2 ≤ version then t.riseMask.setWidth dataW else r.trigRiseMask
    trigFallMask := if 2 ≤ version then t.fallMask.setWidth dataW else r.trigFallMask
    trigMask2 := if 3 ≤ version then t.mask2.setWidth dataW else r.trigMask2
    trigVal2 := if 3 ≤ version then t.val2.setWidth dataW else r.trigVal2
    trigOrMode := if 3 ≤ version then t.orMode else r.trigOrMode }

/-- How many samples are asked for. -/
def sampleCount (count : Option (BitVec 32)) (caps : IlaCaps) : BitVec 32 := count.getD (BitVec.ofNat 32 caps.depth)

/-- What an operation is to return, to let the driver believe, and to do to the core, when the driver believes
`caps`. -/
def IlaOp.Achieves (op : IlaOp) (caps : IlaCaps) (reply : IlaReply) (caps' : IlaCaps) (c c' : IlaCore dataW addrW) :
    Prop :=
  match op with
  | .probe =>
    reply = .caps true caps' ∧ caps'.raw = configVal c.params dataW addrW ∧ caps'.dataW = dataW ∧
      caps'.addrW = addrW ∧ caps'.depth = 2 ^ addrW ∧ caps'.probed = true ∧ c.Becomes c.regs [] c'
  | .readIdcode => reply = .idcode (some c.params.idcodeVal) ∧ caps' = caps ∧ c.Becomes c.regs [] c'
  | .readSignalDefs =>
    reply = (if caps.sigCount = 0 then .signalDefs false [] else .signalDefs true
      ((List.range caps.sigCount).map fun i => .ofWord (sigDefVal c.params (BitVec.ofNat 4 i)))) ∧ caps' = caps ∧
      c.Becomes c.regs [] c'
  | .configureTrigger t =>
    if (t.refusal caps).isSome then reply = .done false ∧ caps' = caps ∧ c.Becomes c.regs [] c'
    else reply = .done true ∧ caps' = caps ∧ c.Becomes (t.stored caps.version c.regs) [] c' ∧
      (caps.probed → caps.version = 3 ∧ c'.regs.preSamples.toNat = t.preSamples.toNat)
  | .arm => reply = .done true ∧ caps' = caps ∧ c.Becomes c.regs [.arm] c'
  | .stop => reply = .done true ∧ caps' = caps ∧ c.Becomes c.regs [.stop] c'
  | .resetCapture => reply = .done true ∧ caps' = caps ∧ c.Becomes c.regs [.reset] c'
  | .forceTrigger => reply = .done true ∧ caps' = caps ∧ c.Becomes c.regs [.force] c'
  | .readStatus => reply = .status true (c'.side (c'.time - 1)).status ∧ caps' = caps ∧ c.Becomes c.regs [] c'
  | .setReadAddr addr =>
    if caps.depth ≤ addr.toNat then reply = .done false ∧ caps' = caps ∧ c.Becomes c.regs [] c'
    else reply = .done true ∧ caps' = caps ∧ c.Becomes { c.regs with rdAddr := addr.setWidth addrW } [] c' ∧
      (caps.probed → c'.regs.rdAddr.toNat = addr.toNat)
  | .readSamples count =>
    caps' = caps ∧ ∃ j, reply = .samples true ((List.range (sampleCount count caps).toNat).map fun i =>
      ((c.side (c.time + j + i)).mem (c.regs.rdAddr + BitVec.ofNat addrW j + BitVec.ofNat addrW i)).setWidth 32)

/-- The number of samples that an operation reads is that of an `int`. -/
def IlaOp.Counts (caps : IlaCaps) : IlaOp → Prop
  | .readSamples count => (sampleCount count caps).toNat < 2 ^ 31
  | _ => True

/-- A core works behind the backend on a chain: every scan delivers, and after any session of the driver every
operation achieves what it is for. -/
structure GeometryWorks (k : ℕ) (d : FpgaTap dataW addrW) (b : GeneratedBackend dataW addrW) : Prop where
  /-- The scans. -/
  delivers : ∀ (d₁ : FpgaTap dataW addrW) (b₁ : GeneratedBackend dataW addrW), Addresses k d₁ b₁ →
    d₁.core.params = d.core.params → Delivers k d₁ b₁
  /-- The operations. -/
  achieves : ∀ ops replies e, IlaDriver.session (BscaneIlaTapBackend.backend (generatedTarget dataW addrW)) ops
      { backend := b } = some (replies, e) → ∀ op : IlaOp, op.Counts e.caps →
    ∃ (reply : IlaReply) (e' : IlaDriver (GeneratedBackend dataW addrW)) (d₁ d₂ : FpgaTap dataW addrW),
    IlaDriver.exec (BscaneIlaTapBackend.backend (generatedTarget dataW addrW)) op e = some (reply, e') ∧
      Hosts k d₁ e.backend ∧ Hosts k d₂ e'.backend ∧ d₁.core.params = d.core.params ∧
      op.Achieves e.caps reply e'.caps d₁.core d₂.core

namespace Hosts

variable {k : ℕ} {d : FpgaTap dataW addrW} {b : GeneratedBackend dataW addrW}

theorem kUserOpcodes_eq (h : Hosts k d b) :
    (kUserOpcodes b.userChain).setWidth 6 = Bscane2.userOpcode d.core.params.jtagChain := by
  rw [← h.userChain]
  obtain ⟨h1, h4⟩ := h.range
  have : b.userChain = 1 ∨ b.userChain = 2 ∨ b.userChain = 3 ∨ b.userChain = 4 := by omega
  rcases this with e | e | e | e <;> rw [e] <;> decide

/-- `selectIr` puts USERn in force, and the other devices in BYPASS. -/
theorem selectIr (h : Hosts k d b) (opcode : BitVec 32) :
    ∃ b', BscaneIlaTapBackend.selectIr (generatedTarget dataW addrW) opcode b = some (true, b') ∧
      b'.pendingIr = opcode &&& 0x1F ∧
      Addresses k { d with instruction := some (Bscane2.userOpcode d.core.params.jtagChain) } b' := by
  obtain ⟨tap, e, hrest, hwidths, halone, hlen⟩ := JtagChain.selectInstruction_alone generatedLogic_hasBypass h.rest
    h.widths h.fpga (kUserOpcodes b.userChain)
  have hd : (generatedLogic dataW addrW).update .ir (.inr d)
      ((List.range ((generatedLogic dataW addrW).irWidth (.inr d))).map (kUserOpcodes b.userChain).getLsbD) =
      .inr { d with instruction := some (Bscane2.userOpcode d.core.params.jtagChain) } := by
    show Sum.inr (d.updateIr ((List.range 6).map (kUserOpcodes b.userChain).getLsbD)) = _
    rw [FpgaTap.updateIr, ofBits_range, h.kUserOpcodes_eq]
  rw [hd] at halone
  refine ⟨{ b with chain := { b.chain with tap }, pendingIr := opcode &&& 0x1F }, ?_, rfl,
    ⟨⟨hrest, hwidths, h.index, halone.device, h.userChain, h.range⟩, rfl, halone⟩⟩
  have hsel : BscaneIlaTapBackend.selectUser (generatedTarget dataW addrW) { b with pendingIr := opcode &&& 0x1F } =
      some (true, { b with chain := { b.chain with tap }, pendingIr := opcode &&& 0x1F }) := by
    show Method.on _ _ (JtagChain.selectInstruction _ b.plTapIndex (kUserOpcodes b.userChain)) _ = _
    rw [h.index]
    exact Method.on_of_eq _ e
  rw [BscaneIlaTapBackend.selectIr, Method.modify_bind, Method.bind_of_eq _ hsel]
  rfl

end Hosts

namespace Addresses

variable {k : ℕ} {d : FpgaTap dataW addrW} {b : GeneratedBackend dataW addrW}

theorem length_devices (h : Addresses k d b) : b.chain.devices.length = b.chain.tap.cores.length :=
  h.widths.length (generatedLogic dataW addrW)

theorem totalDr_eq (h : Addresses k d b) : b.totalDr = kFrameBits + (b.chain.tap.cores.length - 1) := by
  have := h.alone.lt_length
  rw [BscaneIlaTapBackend.totalDr, h.length_devices]
  omega

/-- The scan that the backend builds has the frame for the FPGA and a 0 for the others. -/
theorem bits_fullTdi (h : Addresses k d b) (data32 : List Byte) :
    bits (placeFrame b.plTapIndex (BscaneIlaTapBackend.frameTdi b.pendingIr data32) b.chain.devices 0 0
        (List.replicate ((b.totalDr + 7) / 8) 0)) b.totalDr =
      (lanes b.chain.tap.cores.length k (frameOf (b.pendingIr.setWidth 5) (ofBits 32 (bits data32 32)))).flatten := by
  have hplace := placeFrame_eq k (BscaneIlaTapBackend.frameTdi b.pendingIr data32) b.chain.devices 0 0
    (List.replicate ((b.totalDr + 7) / 8) 0)
  have hk := h.alone.lt_length
  rw [if_pos (by rw [h.length_devices]; omega), Nat.sub_zero, Nat.zero_add, ← h.index] at hplace
  refine (congrArg (bits · b.totalDr) hplace).trans ?_
  rw [h.totalDr_eq, bits_orBits_lanes hk, bits_frameTdi]

/-- A raw frame scan leaves the last bits of the 37 in the frame register. -/
theorem doRawFrameShift (h : Addresses k d b) (hw : dataW ≤ 32) (data32 : List Byte) :
    ∃ raw b', BscaneIlaTapBackend.doRawFrameShift (generatedTarget dataW addrW) data32 b = some ((true, raw), b') ∧
      b'.chain.tap.cores[k]? = some (.inr (d.updateDr
        ((frameOf (b.pendingIr.setWidth 5) (ofBits 32 (bits data32 32))).drop (32 - dataW)))) := by
  set v := frameOf (b.pendingIr.setWidth 5) (ofBits 32 (bits data32 32)) with hv
  have hlen : v.length = kFrameBits := length_frameOf _ _
  have hcapture : (generatedLogic dataW addrW).capture .dr (.inr d) = d.core.capture := if_pos h.active
  have hbuf : bytesFor (v.length + (b.chain.tap.cores.length - 1)) ≤ (placeFrame b.plTapIndex
      (BscaneIlaTapBackend.frameTdi b.pendingIr data32) b.chain.devices 0 0
      (List.replicate ((b.totalDr + 7) / 8) 0)).length := by
    rw [length_placeFrame, List.length_replicate, hlen, ← h.totalDr_eq, bytesFor]
  obtain ⟨tap, e, -, halone, -⟩ := JtagChain.scan_alone generatedLogic_hasBypass h.rest h.alone
    (v := v) (by rw [hlen, kFrameBits]; omega) hbuf (by rw [hlen, ← h.totalDr_eq]; exact h.bits_fullTdi data32)
  rw [hlen, ← h.totalDr_eq] at e
  set tdo := packBits (((lanes b.chain.tap.cores.length k ((generatedLogic dataW addrW).capture .dr (.inr d))).flatten ++
    (lanes b.chain.tap.cores.length k v).flatten).take b.totalDr) with htdo
  have hcall : BscaneIlaTapBackend.onTap (TapController.shiftDR (generatedTarget dataW addrW)
      (some (placeFrame b.plTapIndex (BscaneIlaTapBackend.frameTdi b.pendingIr data32) b.chain.devices 0 0
        (List.replicate ((b.totalDr + 7) / 8) 0))) [] b.totalDr) b =
      some ((true, tdo), { b with chain := { b.chain with tap } }) :=
    Method.on_of_eq _ (JtagChain.onTap_of_eq e)
  have hroom : ¬8 * tdo.length < b.dataStart + 32 := by
    have hl : b.totalDr ≤ 8 * tdo.length := by
      rw [htdo, length_packBits]
      refine Nat.le_trans ?_ (le_bytesFor _)
      rw [List.length_take, List.length_append, length_flatten_lanes h.alone.lt_length,
        length_flatten_lanes h.alone.lt_length, hlen, ← h.totalDr_eq]
      omega
    have := h.totalDr_eq
    have hk := h.alone.lt_length
    rw [BscaneIlaTapBackend.dataStart, h.index, Int.toNat_natCast]
    rw [kFrameBits] at this
    omega
  refine ⟨orBits (fun i => bitAt tdo (b.dataStart + i)) 0 32 (List.replicate 5 0), { b with chain := { b.chain with tap } },
    ?_, ?_⟩
  · rw [BscaneIlaTapBackend.doRawFrameShift, Method.bind_of_eq _ hcall]
    show (ite _ (Method.ofOption none) _ : Method (BscaneIlaTapBackend _) _) _ = _
    rw [if_neg hroom]
    rfl
  · have hpassed : passed (b.chain.tap.cores.length - 1) ((generatedLogic dataW addrW).capture .dr (.inr d)) v =
        v.drop (32 - dataW) := by
      have hold : ((generatedLogic dataW addrW).capture .dr (.inr d)).length = 5 + dataW := by
        rw [hcapture, IlaCore.length_capture]
      rw [passed_of_le _ (by rw [hold, hlen, kFrameBits]; omega), hold, hlen, kFrameBits,
        show 37 - (5 + dataW) = 32 - dataW by omega]
    rw [hpassed] at halone
    exact halone.device

end Addresses

section Full

variable {k : ℕ} {d : FpgaTap 32 addrW} {b : GeneratedBackend 32 addrW}

theorem Hosts.linked (h : Hosts k d b) : Linked k d b := ⟨h.rest, h.widths, h.index, h.fpga, h.userChain, h.range⟩

theorem bypassed_iff (d : GeneratedCore 32 addrW) : Bypassed d ↔ InBypass d := by
  cases d <;> exact Iff.rfl

theorem Addresses.selected (h : Addresses k d b) : Selected k d b :=
  { h.linked with
    active := h.active
    bypassed := fun i hi hne => (bypassed_iff _).mp (h.alone.bypassed i hi hne) }

variable {c c' : IlaCore 32 addrW}

theorem IlaCore.becomes_iff {r : IlaRegs 32 addrW} {ks : List CtrlBit} :
    c.Becomes r ks c' ↔ c'.regs.settings = r.settings ∧ c'.pulses = c.pulses ++ ks :=
  and_congr_left fun _ => ⟨congrArg IlaRegs.settings,
    congrArg fun x : IlaRegs 32 addrW => { x with storedIr := r.storedIr, sigDefIdx := r.sigDefIdx }⟩

theorem IlaCore.Same.becomes (h : c.Same c') : c.Becomes c.regs [] c' :=
  becomes_iff.mpr ⟨h.1, by rw [h.2, List.append_nil]⟩

theorem IlaCore.Pulsed.becomes {k : CtrlBit} (h : c.Pulsed k c') : c.Becomes c.regs [k] c' := becomes_iff.mpr h

theorem TriggerSetup.settings_stored (t : TriggerSetup) (version : ℕ) (r : IlaRegs 32 addrW) :
    (t.stored version r).settings = t.apply version r.settings := by
  simp [stored, apply, IlaRegs.settings]

/-- What an operation is for is what it is to achieve, when `probe` can tell the depth. -/
theorem IlaOp.Meets.achieves {op : IlaOp} {caps caps' : IlaCaps} {reply : IlaReply} (hw : 1 ≤ addrW ∧ addrW ≤ 20)
    (h : op.Meets caps reply c c') (hop : ¬op.ReadsSamples)
    (hcaps : caps' = if op = .probe then capsOf c.params addrW else caps) : op.Achieves caps reply caps' c c' := by
  cases op with
  | probe =>
    obtain ⟨-, hdata, haddr, -, hdepth, hprobed⟩ :=
      IlaDriver.capsOf_fields c.params (show 1 ≤ addrW ∧ addrW ≤ 32 from ⟨hw.1, by omega⟩)
    rw [if_pos rfl] at hcaps
    subst hcaps
    exact ⟨h.1, rfl, hdata, haddr, hdepth.trans (if_neg (by omega)), hprobed, h.2.becomes⟩
  | readIdcode => exact ⟨h.1, hcaps, h.2.becomes⟩
  | readSignalDefs => exact ⟨h.1, hcaps, h.2.becomes⟩
  | configureTrigger t =>
    rw [IlaOp.Meets] at h
    rw [IlaOp.Achieves]
    split
    · next hr =>
      rw [if_pos hr] at h
      exact ⟨h.1, hcaps, h.2.becomes⟩
    · next hr =>
      rw [if_neg hr] at h
      obtain ⟨hreply, hset, hpulses, hpre⟩ := h
      refine ⟨hreply, hcaps, IlaCore.becomes_iff.mpr ⟨?_, by rw [hpulses, List.append_nil]⟩, hpre⟩
      rw [hset, t.settings_stored]
  | arm => exact ⟨h.1, hcaps, h.2.becomes⟩
  | stop => exact ⟨h.1, hcaps, h.2.becomes⟩
  | resetCapture => exact ⟨h.1, hcaps, h.2.becomes⟩
  | forceTrigger => exact ⟨h.1, hcaps, h.2.becomes⟩
  | readStatus => exact ⟨h.1, hcaps, h.2.becomes⟩
  | setReadAddr addr =>
    rw [IlaOp.Meets] at h
    rw [IlaOp.Achieves]
    split
    · next hge =>
      rw [if_pos hge] at h
      exact ⟨h.1, hcaps, h.2.becomes⟩
    · next hge =>
      rw [if_neg hge] at h
      obtain ⟨hreply, hset, hpulses, haddr⟩ := h
      exact ⟨hreply, hcaps, IlaCore.becomes_iff.mpr ⟨hset, by rw [hpulses, List.append_nil]⟩, haddr⟩
  | readSamples count =>
    obtain rfl : count = some 0 := not_not.mp hop
    exact ⟨hcaps, 0, h.1⟩

namespace IlaDriver

variable {s : Option (BitVec 5)} {e : IlaDriver (GeneratedBackend 32 addrW)} {f : RegisterFile addrW}

end IlaDriver

end Full

/-! ### Addresses -/

namespace GeometryWorks

variable {k : ℕ} {d : FpgaTap dataW addrW} {b : GeneratedBackend dataW addrW}

/-- After `probe`, an address below the depth is set. -/
theorem setReadAddr (h : GeometryWorks k d b) (addr : BitVec 16) :
    ∃ caps reply e d', IlaDriver.session (BscaneIlaTapBackend.backend (generatedTarget dataW addrW))
        [.probe, .setReadAddr addr] { backend := b } = some ([.caps true caps, reply], e) ∧ Hosts k d' e.backend ∧
      (reply = .done true → d'.core.regs.rdAddr.toNat = addr.toNat) ∧
      (addr.toNat < 2 ^ addrW → reply = .done true) := by
  obtain ⟨reply₁, e₁, d₀, d₁, hexec₁, -, -, -, hach₁⟩ := h.achieves [] [] { backend := b } rfl .probe trivial
  obtain ⟨rfl, -, -, -, hdepth, hprobed, -⟩ := hach₁
  have hs₁ : IlaDriver.session (BscaneIlaTapBackend.backend (generatedTarget dataW addrW)) [.probe] { backend := b } =
      some ([.caps true e₁.caps], e₁) := by
    rw [IlaDriver.session_cons hexec₁]
    rfl
  obtain ⟨reply₂, e₂, d₁', d₂, hexec₂, h₁, h₂, hP, hach₂⟩ := h.achieves [.probe] _ e₁ hs₁ (.setReadAddr addr) trivial
  have hs₂ : IlaDriver.session (BscaneIlaTapBackend.backend (generatedTarget dataW addrW))
      [.probe, .setReadAddr addr] { backend := b } = some ([.caps true e₁.caps, reply₂], e₂) := by
    rw [IlaDriver.session_cons hexec₁, IlaDriver.session_cons hexec₂]
    rfl
  refine ⟨e₁.caps, reply₂, e₂, d₂, hs₂, h₂, ?_⟩
  rw [IlaOp.Achieves, hdepth] at hach₂
  split at hach₂
  · next hge =>
    obtain ⟨rfl, -⟩ := hach₂
    exact ⟨nofun, fun hlt => by omega⟩
  · obtain ⟨rfl, -, -, haddr⟩ := hach₂
    exact ⟨fun _ => haddr hprobed, fun _ => rfl⟩

end GeometryWorks

/-! ### Generated cores -/

/-- Device `k` is an FPGA with the core that the generator makes for a configuration, behind the backend. -/
structure Generated (config : IlaGeneratorConfig) (k : ℕ) (d : FpgaTap config.dataW config.addrW)
    (b : GeneratedBackend config.dataW config.addrW) : Prop extends Hosts k d b where
  /-- The parameters are those of the instance. -/
  params : d.core.params = config.params

/-- An FPGA with the core of a configuration, after a reset. -/
def generatedFpga (config : IlaGeneratorConfig) : FpgaTap config.dataW config.addrW :=
  ⟨List.replicate 32 false, none, ⟨config.params, .reset, 0, fun _ => ⟨fun _ => 0, ⟨false, false, false⟩⟩, []⟩⟩

/-- The FPGA nearest TDO, and an ARM DAP behind it. -/
def generatedChain (config : IlaGeneratorConfig) :
    JtagChain (List (Device (GeneratedCore config.dataW config.addrW))) :=
  JtagChain.idle [⟨0, 0x13722093, 6, [], none⟩, ⟨1, 0x4BA00477, 4, [], none⟩]
    [⟨.inr (generatedFpga config), []⟩, ⟨.inl (.powered JtagChain.dapSpec), []⟩]

theorem generated_generatedChain (config : IlaGeneratorConfig) :
    Generated config 0 (generatedFpga config) (.create (generatedChain config) (0 : ℕ) 1) where
  rest := ⟨JtagChain.idle_synced _ _, rfl, JtagChain.idle_delivers _ _⟩
  widths := ⟨rfl, by simp [BscaneIlaTapBackend.create, generatedChain, JtagChain.idle]⟩
  index := rfl
  fpga := rfl
  userChain := rfl
  range := ⟨le_refl 1, (by decide : 1 ≤ 4)⟩
  params := rfl

end OwlTap.Ila
