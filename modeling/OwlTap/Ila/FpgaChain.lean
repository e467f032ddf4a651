import OwlTap.Base.BoundaryDevice
import OwlTap.Ila.BscaneIlaTapBackend
import OwlTap.Ila.FpgaTap
import OwlTap.Jtag.RestingChain

/-!
# The backend on a chain

On a chain at rest, with the FPGA at any position among devices of any number, the backend's
operations are functions of the core alone: `selectIr` puts USERn in force and the other
devices in BYPASS, and a frame scan returns what the core captures and updates it with the
frame (`Selected.doRawFrameShift`).
-/

namespace OwlTap.Ila

open OwlTap Ftdi Jtag

variable {addrW : ℕ}

/-- A device on the chain of an FPGA: one with a boundary register, or an FPGA. -/
abbrev ChainCore (addrW : ℕ) : Type := BoundaryDevice ⊕ FpgaTap 32 addrW

/-- Their test logic. -/
abbrev chainLogic : TestLogic (ChainCore addrW) := BoundaryDevice.logic.sum FpgaTap.logic

/-- The hardware of the chain. -/
abbrev chainTarget : Target (List (Device (ChainCore addrW))) := Target.chain chainLogic

/-! ### BYPASS -/

/-- The device is in BYPASS. -/
def InBypass : ChainCore addrW → Prop
  | .inl d => d.instruction = some (List.replicate d.spec.irWidth true)
  | .inr d => d.instruction = some (ofBits 6 (List.replicate 6 true))

theorem userOpcode_ne_bypass (n : ℕ) : Bscane2.userOpcode n ≠ ofBits 6 (List.replicate 6 true) := by
  rw [Bscane2.userOpcode.eq_def]
  split <;> decide

theorem InBypass.capture {d : ChainCore addrW} (h : InBypass d) : chainLogic.capture .dr d = [false] := by
  cases d with
  | inl d => exact BoundaryDevice.captureDr_bypass h
  | inr d =>
    have hactive : ¬d.Active := fun ha =>
      userOpcode_ne_bypass _ (Option.some.inj ((ha : d.instruction = _).symm.trans h))
    have hne : d.instruction ≠ none := fun hn => by
      rw [show d.instruction = _ from h] at hn
      cases hn
    show d.captureDr = _
    rw [FpgaTap.captureDr, if_neg hactive, if_neg hne]

theorem InBypass.updateDr {d : ChainCore addrW} (h : InBypass d) (bits : List Bool) :
    InBypass (chainLogic.update .dr d bits) := by
  cases d with
  | inl d => exact h
  | inr d => exact h

theorem inBypass_updateIr (d : ChainCore addrW) :
    InBypass (chainLogic.update .ir d (List.replicate (chainLogic.irWidth d) true)) := by
  cases d with
  | inl d => rfl
  | inr d => rfl

/-- Updates of the devices keep the lengths of their instruction registers. -/
theorem irWidths_update (r : Register) {cores : List (ChainCore addrW)} {ys : List (List Bool)}
    (hys : ys.length = cores.length) :
    (List.zipWith (chainLogic.update r) cores ys).map chainLogic.irWidth = cores.map chainLogic.irWidth := by
  apply List.ext_getElem
  · simp [hys]
  · intro i h₁ h₂
    simp only [List.getElem_map, List.getElem_zipWith]
    exact chainLogic.irWidth_update r _ _

theorem irWidths_updates {cores : List (ChainCore addrW)} {ys : List (List Bool)} (hys : ys.length = cores.length) (i : ℕ) :
    (TapController.AtRest.updates chainLogic ys i cores).map chainLogic.irWidth = cores.map chainLogic.irWidth := by
  induction i generalizing cores with
  | zero => rfl
  | succ i ih =>
    rw [TapController.AtRest.updates_succ, ih (by rw [List.length_zipWith, hys, Nat.min_self]), irWidths_update .dr hys]

/-! ### The chain -/

/-- The chain is at rest, the host knows it, and device `k` is the FPGA, in state `d`, whose scan chain is the
backend's. -/
structure Linked (k : ℕ) (d : FpgaTap 32 addrW) (b : BscaneIlaTapBackend (List (Device (ChainCore addrW)))) : Prop where
  /-- The chain is at rest. -/
  rest : b.chain.tap.AtRest
  /-- The host knows the lengths of the instruction registers. -/
  widths : b.chain.KnowsWidths chainLogic
  /-- The backend's device. -/
  index : b.plTapIndex = k
  /-- It is the FPGA. -/
  fpga : b.chain.tap.cores[k]? = some (.inr d)
  /-- The scan chain. -/
  userChain : b.userChain = d.core.params.jtagChain
  /-- It is one of four. -/
  range : 1 ≤ b.userChain ∧ b.userChain ≤ 4

/-- Device `k` is the FPGA, in state `d` and with USERn in force; the other devices are in BYPASS. -/
structure Presents (k : ℕ) (d : FpgaTap 32 addrW) (cores : List (ChainCore addrW)) : Prop where
  /-- Device `k` is the FPGA. -/
  fpga : cores[k]? = some (.inr d)
  /-- USERn is in force. -/
  active : d.Active
  /-- The other devices are in BYPASS. -/
  bypassed : ∀ i (h : i < cores.length), i ≠ k → InBypass cores[i]

/-- USERn is in force on the chain, and the other devices are in BYPASS. -/
structure Selected (k : ℕ) (d : FpgaTap 32 addrW) (b : BscaneIlaTapBackend (List (Device (ChainCore addrW)))) : Prop
    extends Linked k d b, Presents k d b.chain.tap.cores

namespace Linked

variable {k : ℕ} {d : FpgaTap 32 addrW} {b : BscaneIlaTapBackend (List (Device (ChainCore addrW)))}

theorem lt_cores (h : Linked k d b) : k < b.chain.tap.cores.length := (List.getElem?_eq_some_iff.mp h.fpga).1

theorem getElem_cores (h : Linked k d b) (_ : k < b.chain.tap.cores.length) : b.chain.tap.cores[k] = .inr d :=
  (List.getElem?_eq_some_iff.mp h.fpga).2

theorem length_devices (h : Linked k d b) : b.chain.devices.length = b.chain.tap.cores.length :=
  h.widths.length chainLogic

theorem lt_devices (h : Linked k d b) : k < b.chain.devices.length := h.length_devices ▸ h.lt_cores

theorem irLength_eq (h : Linked k d b) {i : ℕ} (hi : i < b.chain.devices.length) (hi' : i < b.chain.tap.cores.length) :
    b.chain.devices[i].irLength = chainLogic.irWidth b.chain.tap.cores[i] := by
  have hget := congrArg (·[i]?) h.widths.widths
  simp only [List.getElem?_map, List.getElem?_eq_getElem hi, List.getElem?_eq_getElem hi', Option.map_some,
    Option.some.injEq] at hget
  exact hget

/-- The opcodes of the host are those of the hardware. -/
theorem kUserOpcodes_eq (h : Linked k d b) :
    (kUserOpcodes b.userChain).setWidth 6 = Bscane2.userOpcode d.core.params.jtagChain := by
  rw [← h.userChain]
  obtain ⟨h1, h4⟩ := h.range
  have : b.userChain = 1 ∨ b.userChain = 2 ∨ b.userChain = 3 ∨ b.userChain = 4 := by omega
  rcases this with e | e | e | e <;> rw [e] <;> decide

/-- `selectIr` puts USERn in force, and the other devices in BYPASS. -/
theorem selectIr (h : Linked k d b) (opcode : BitVec 32) :
    ∃ chain, BscaneIlaTapBackend.selectIr chainTarget opcode b =
        some (true, { b with chain, pendingIr := opcode &&& 0x1F }) ∧
      Selected k { d with instruction := some (Bscane2.userOpcode d.core.params.jtagChain) }
        { b with chain, pendingIr := opcode &&& 0x1F } := by
  obtain ⟨tap, e, hrest, hcores⟩ := JtagChain.selectInstruction_rest chainLogic h.rest h.widths h.lt_devices
    (kUserOpcodes b.userChain)
  have hlen : (placed k (kUserOpcodes b.userChain) b.chain.devices).length = b.chain.tap.cores.length := by
    rw [placed, List.length_mapIdx, h.length_devices]
  have hget : ∀ i (hi : i < b.chain.tap.cores.length),
      tap.cores[i]? = some (chainLogic.update .ir b.chain.tap.cores[i]
        (if i = k then (List.range (chainLogic.irWidth b.chain.tap.cores[i])).map (kUserOpcodes b.userChain).getLsbD
          else List.replicate (chainLogic.irWidth b.chain.tap.cores[i]) true)) := by
    intro i hi
    have hi' : i < b.chain.devices.length := by rw [h.length_devices]; exact hi
    rw [hcores, List.getElem?_zipWith, List.getElem?_eq_getElem hi, placed, List.getElem?_mapIdx,
      List.getElem?_eq_getElem hi', Option.map_some, h.irLength_eq hi' hi]
  refine ⟨{ b.chain with tap }, ?_, ⟨⟨hrest, ⟨?_, h.widths.range⟩, h.index, ?_, h.userChain, h.range⟩, rfl, ?_⟩⟩
  · have hsel : BscaneIlaTapBackend.selectUser chainTarget { b with pendingIr := opcode &&& 0x1F } =
        some (true, { b with chain := { b.chain with tap }, pendingIr := opcode &&& 0x1F }) := by
      show Method.on _ _ (JtagChain.selectInstruction chainTarget b.plTapIndex (kUserOpcodes b.userChain)) _ = _
      rw [h.index]
      exact Method.on_of_eq _ e
    rw [BscaneIlaTapBackend.selectIr, Method.modify_bind, Method.bind_of_eq _ hsel]
    rfl
  · exact h.widths.widths.trans ((congrArg (List.map chainLogic.irWidth) hcores).trans (irWidths_update .ir hlen)).symm
  · refine (hget k h.lt_cores).trans ?_
    rw [if_pos rfl, h.getElem_cores h.lt_cores, ← h.kUserOpcodes_eq]
    show some (Sum.inr ({ d with instruction := some (ofBits 6 ((List.range 6).map (kUserOpcodes b.userChain).getLsbD)) } :
      FpgaTap 32 addrW)) = _
    rw [ofBits_range]
  · intro i hi hne
    change i < tap.cores.length at hi
    have hi' : i < b.chain.tap.cores.length := by
      have := congrArg List.length hcores
      rw [List.length_zipWith, hlen] at this
      omega
    have hcore : tap.cores[i] = chainLogic.update .ir b.chain.tap.cores[i]
        (List.replicate (chainLogic.irWidth b.chain.tap.cores[i]) true) := by
      have := hget i hi'
      rwa [if_neg hne, List.getElem?_eq_getElem hi, Option.some.injEq] at this
    show InBypass tap.cores[i]
    rw [hcore]
    exact inBypass_updateIr _

end Linked

/-! ### Frames -/

/-- The bits of a frame. -/
def frameOf (opcode : BitVec 5) (data : BitVec 32) : List Bool := toBits opcode ++ toBits data

@[simp] theorem length_frameOf (opcode : BitVec 5) (data : BitVec 32) : (frameOf opcode data).length = kFrameBits := by
  simp [frameOf, kFrameBits]

theorem drop_frameOf (opcode : BitVec 5) (data : BitVec 32) : (frameOf opcode data).drop 5 = toBits data :=
  List.drop_left' (length_toBits opcode)

@[simp] theorem frameOpcode_frameOf (opcode : BitVec 5) (data : BitVec 32) : frameOpcode (frameOf opcode data) = opcode := by
  apply BitVec.eq_of_getLsbD_eq
  intro i hi
  rw [frameOpcode, getLsbD_ofBits, frameOf, List.getD_append _ _ _ _ (by simpa using hi),
    List.getD_eq_getElem _ _ (by simpa using hi)]
  simp [toBits, hi]

@[simp] theorem frameData_frameOf (opcode : BitVec 5) (data : BitVec 32) : frameData 32 (frameOf opcode data) = data := by
  rw [frameData, drop_frameOf, ofBits_toBits]

theorem getD_frameOf (opcode : BitVec 5) (data : BitVec 32) (i : ℕ) :
    (frameOf opcode data).getD i false = if i < 5 then opcode.getLsbD i else data.getLsbD (i - 5) := by
  by_cases hi : i < 5
  · rw [frameOf, List.getD_append _ _ _ _ (by simpa using hi), getD_toBits, if_pos hi]
  · rw [frameOf, List.getD_append_right _ _ _ _ (by simpa using hi), getD_toBits, length_toBits, if_neg hi]

/-- The bits of the frame that the backend builds. -/
theorem bits_frameTdi (pendingIr : BitVec 32) (data32 : List Byte) :
    bits (BscaneIlaTapBackend.frameTdi pendingIr data32) kFrameBits =
      frameOf (pendingIr.setWidth 5) (ofBits 32 (bits data32 32)) := by
  apply List.ext_getElem (by simp)
  intro j h₁ h₂
  have hj : j < 37 := by simpa [kFrameBits] using h₁
  have hbuf : 5 + 32 ≤ 8 * ((pendingIr &&& 0x1F).setWidth 8 :: List.replicate ((kFrameBits + 7) / 8 - 1) 0 : List Byte).length := by
    simp [kFrameBits]
  rw [getElem_bits, BscaneIlaTapBackend.frameTdi, bitAt_orBits _ _ hbuf, ← List.getD_eq_getElem _ false h₂, getD_frameOf]
  by_cases h5 : j < 5
  · have hmask : (0x1F : BitVec 32).getLsbD j = true := by
      have : j = 0 ∨ j = 1 ∨ j = 2 ∨ j = 3 ∨ j = 4 := by omega
      rcases this with rfl | rfl | rfl | rfl | rfl <;> rfl
    rw [if_pos h5, bitAt_cons_of_lt _ _ (by omega), BitVec.getLsbD_setWidth, BitVec.getLsbD_and, hmask]
    simp [h5, show j < 8 by omega, show ¬5 ≤ j by omega]
  · have hzero : bitAt ((pendingIr &&& 0x1F).setWidth 8 :: List.replicate ((kFrameBits + 7) / 8 - 1) 0) j = false := by
      by_cases h8 : j < 8
      · have hmask : (0x1F : BitVec 32).getLsbD j = false := by
          have : j = 5 ∨ j = 6 ∨ j = 7 := by omega
          rcases this with rfl | rfl | rfl <;> rfl
        rw [bitAt_cons_of_lt _ _ h8, BitVec.getLsbD_setWidth, BitVec.getLsbD_and, hmask]
        simp
      · obtain ⟨i, rfl⟩ : ∃ i, j = 8 + i := ⟨j - 8, by omega⟩
        rw [bitAt_cons_add]
        exact bitAt_replicate_zero _ i
    have hdata : (bits data32 32).getD (j - 5) false = bitAt data32 (j - 5) := by
      rw [List.getD_eq_getElem _ _ (by rw [length_bits]; omega), getElem_bits]
    rw [if_neg h5, hzero, getLsbD_ofBits, hdata]
    simp [show 5 ≤ j by omega, show j < 37 from hj, show j - 5 < 32 by omega]

theorem bitAt_frameTdi (pendingIr : BitVec 32) (data32 : List Byte) {i : ℕ} (hi : i < kFrameBits) :
    bitAt (BscaneIlaTapBackend.frameTdi pendingIr data32) i =
      if i < 5 then pendingIr.getLsbD i else bitAt data32 (i - 5) := by
  have hbit : bitAt (BscaneIlaTapBackend.frameTdi pendingIr data32) i =
      (frameOf (pendingIr.setWidth 5) (ofBits 32 (bits data32 32))).getD i false := by
    rw [← bits_frameTdi, List.getD_eq_getElem _ _ (by rwa [length_bits]), getElem_bits]
  rw [kFrameBits] at hi
  rw [hbit, getD_frameOf]
  by_cases h5 : i < 5
  · rw [if_pos h5, if_pos h5, BitVec.getLsbD_setWidth, decide_eq_true h5, Bool.true_and]
  · rw [if_neg h5, if_neg h5, getLsbD_ofBits, List.getD_eq_getElem _ _ (by rw [length_bits]; omega), getElem_bits,
      decide_eq_true (by omega), Bool.true_and]

/-- The frame is put after one bit for each device before the FPGA. -/
theorem placeFrame_eq (k : ℕ) (frame : List Byte) (devs : List ChainDevice) (i bitPos : ℕ) (fullTdi : List Byte) :
    placeFrame k frame devs i bitPos fullTdi =
      if i ≤ k ∧ k < i + devs.length then orBits (bitAt frame) (bitPos + (k - i)) kFrameBits fullTdi else fullTdi := by
  induction devs generalizing i bitPos fullTdi with
  | nil => rw [placeFrame, if_neg (by rw [List.length_nil]; omega)]
  | cons dev devs ih =>
    have hcast : (i : ℤ) + 1 = ((i + 1 : ℕ) : ℤ) := by omega
    rw [placeFrame, hcast, ih, ih, List.length_cons]
    by_cases hik : i = k
    · subst hik
      rw [if_pos rfl, if_neg (by omega), if_pos (by omega), Nat.sub_self, Nat.add_zero]
    · rw [if_neg (by omega)]
      by_cases hlt : i ≤ k ∧ k < i + (devs.length + 1)
      · rw [if_pos (by omega), if_pos hlt, show bitPos + 1 + (k - (i + 1)) = bitPos + (k - i) by omega]
      · rw [if_neg (by omega), if_neg hlt]

@[simp] theorem length_placeFrame (k : ℤ) (frame : List Byte) (devs : List ChainDevice) (i : ℤ) (bitPos : ℕ)
    (fullTdi : List Byte) : (placeFrame k frame devs i bitPos fullTdi).length = fullTdi.length := by
  induction devs generalizing i bitPos fullTdi with
  | nil => rfl
  | cons dev devs ih =>
    rw [placeFrame]
    split
    · rw [ih, length_orBits]
    · rw [ih]

/-- The register that the core captures. -/
def IlaCore.captureData (c : IlaCore 32 addrW) : BitVec 32 :=
  c.regs.captureData c.params ((c.side c.time).mem c.regs.rdAddr) (c.side c.time).status

theorem IlaCore.capture_eq (c : IlaCore 32 addrW) : c.capture = frameOf c.regs.storedIr c.captureData := rfl

namespace Presents

variable {k : ℕ} {d : FpgaTap 32 addrW} {cores : List (ChainCore addrW)}

theorem lt_cores (h : Presents k d cores) : k < cores.length := (List.getElem?_eq_some_iff.mp h.fpga).1

theorem getElem_cores (h : Presents k d cores) (_ : k < cores.length) : cores[k] = .inr d :=
  (List.getElem?_eq_some_iff.mp h.fpga).2

/-- What the FPGA captures is in line with a bit of every other device. -/
theorem captures (h : Presents k d cores) :
    InLine k kFrameBits (cores.map (chainLogic.capture .dr)) ∧
      (cores.map (chainLogic.capture .dr))[k]? = some d.core.capture := by
  have hk : chainLogic.capture .dr (.inr d) = d.core.capture := if_pos h.active
  constructor
  · apply List.ext_getElem
    · simp
    · intro i h₁ h₂
      have hi : i < cores.length := by simpa using h₁
      simp only [List.getElem_map, List.getElem_range]
      by_cases hik : i = k
      · subst hik
        rw [if_pos rfl, h.getElem_cores hi, hk, IlaCore.length_capture]
        rfl
      · rw [if_neg hik, (h.bypassed i hi hik).capture]
        rfl
  · rw [List.getElem?_map, h.fpga, Option.map_some, hk]

/-- How many bits the devices capture. -/
theorem length_captures (h : Presents k d cores) {frame : List Bool} (hlen : frame.length = kFrameBits) :
    (lanes cores.length k frame).map List.length = cores.map fun d => (chainLogic.capture .dr d).length := by
  have hline := h.captures.1
  rw [InLine, List.length_map, List.map_map] at hline
  rw [map_length_lanes, hlen]
  exact hline.symm

/-- Where the data word is in what comes out. -/
theorem bitAt_captures (h : Presents k d cores) {i : ℕ} (hi : i < 32) :
    k + 5 + i < (cores.map (chainLogic.capture .dr)).flatten.length ∧
      bitAt (packBits (cores.map (chainLogic.capture .dr)).flatten) (k + 5 + i) = d.core.captureData.getLsbD i := by
  obtain ⟨hline, hget⟩ := h.captures
  obtain ⟨hk, hcap⟩ := List.getElem?_eq_some_iff.mp hget
  obtain ⟨hlt, hbit⟩ := hline.getD_flatten hk (show 5 + i < kFrameBits by rw [kFrameBits]; omega)
  rw [Nat.add_assoc]
  refine ⟨hlt, ?_⟩
  rw [bitAt_packBits, hbit, hcap, IlaCore.capture_eq, getD_frameOf, if_neg (by omega), Nat.add_sub_cancel_left]

/-- The FPGA takes a frame. -/
theorem update (h : Presents k d cores) (frame : List Bool) :
    Presents k { d with core := d.core.update frame }
      (List.zipWith (chainLogic.update .dr) cores (lanes cores.length k frame)) := by
  have hlen : (lanes cores.length k frame).length = cores.length := length_lanes _ _ _
  refine ⟨?_, h.active, fun i hi hne => ?_⟩
  · rw [List.getElem?_zipWith, h.fpga, List.getElem?_eq_getElem (by rw [hlen]; exact h.lt_cores), getElem_lanes, if_pos rfl]
    show some (Sum.inr (d.updateDr frame)) = _
    rw [FpgaTap.updateDr, if_pos h.active]
  · have hi' : i < cores.length := by
      rw [List.length_zipWith, hlen] at hi
      omega
    rw [List.getElem_zipWith, getElem_lanes, if_neg hne]
    exact (h.bypassed i hi' hne).updateDr [false]

/-- The FPGA takes the same frame over and over. -/
theorem updates (h : Presents k d cores) (frame : List Bool) (i : ℕ) :
    Presents k { d with core := (fun c => IlaCore.update c frame)^[i] d.core }
      (TapController.AtRest.updates chainLogic (lanes cores.length k frame) i cores) := by
  induction i generalizing d cores with
  | zero => exact h
  | succ i ih =>
    have hlen : (List.zipWith (chainLogic.update .dr) cores (lanes cores.length k frame)).length = cores.length := by
      rw [List.length_zipWith, length_lanes, Nat.min_self]
    have := ih (h.update frame)
    rw [hlen] at this
    rw [TapController.AtRest.updates_succ, Function.iterate_succ_apply]
    exact this

end Presents

namespace Selected

variable {k : ℕ} {d : FpgaTap 32 addrW} {b : BscaneIlaTapBackend (List (Device (ChainCore addrW)))}

theorem totalDr_eq (h : Selected k d b) : b.totalDr = kFrameBits + (b.chain.devices.length - 1) := by
  have := h.lt_devices
  rw [BscaneIlaTapBackend.totalDr]
  omega

/-- The devices of the chain have taken something. -/
theorem of_presents (h : Selected k d b) {core : IlaCore 32 addrW} {tap : TapController (List (Device (ChainCore addrW)))}
    (hrest : tap.AtRest) (hp : Presents k { d with core } tap.cores)
    (hw : tap.cores.map chainLogic.irWidth = b.chain.tap.cores.map chainLogic.irWidth)
    (hc : core.params = d.core.params) :
    Selected k { d with core } { b with chain := { b.chain with tap } } :=
  { hp with
    rest := hrest
    widths := ⟨h.widths.widths.trans hw.symm, h.widths.range⟩
    index := h.index
    userChain := by rw [hc]; exact h.userChain
    range := h.range }

/-- The FPGA takes a frame. -/
theorem update (h : Selected k d b) {frame : List Bool} {tap : TapController (List (Device (ChainCore addrW)))}
    (hrest : tap.AtRest)
    (hcores : tap.cores = List.zipWith (chainLogic.update .dr) b.chain.tap.cores
      (lanes b.chain.devices.length k frame)) :
    Selected k { d with core := d.core.update frame } { b with chain := { b.chain with tap } } := by
  have hlen : (lanes b.chain.devices.length k frame).length = b.chain.tap.cores.length := by
    rw [length_lanes, h.length_devices]
  refine h.of_presents hrest ?_ ?_ rfl
  · rw [hcores, h.length_devices]
    exact h.toPresents.update frame
  · rw [hcores, irWidths_update .dr hlen]

/-- How many bits the devices capture. -/
theorem length_captures (h : Selected k d b) {frame : List Bool} (hlen : frame.length = kFrameBits) :
    (lanes b.chain.devices.length k frame).map List.length =
      b.chain.tap.cores.map fun d => (chainLogic.capture .dr d).length := by
  rw [h.length_devices]
  exact h.toPresents.length_captures hlen

theorem dataStart_eq (h : Selected k d b) : b.dataStart = k + 5 := by
  rw [BscaneIlaTapBackend.dataStart, h.index, Int.toNat_natCast]

/-- The scan that the backend builds gives the FPGA the frame and the others a 0. -/
theorem bits_fullTdi (h : Selected k d b) (data32 : List Byte) :
    bits (placeFrame b.plTapIndex (BscaneIlaTapBackend.frameTdi b.pendingIr data32) b.chain.devices 0 0
        (List.replicate ((b.totalDr + 7) / 8) 0)) b.totalDr =
      (lanes b.chain.devices.length k (frameOf (b.pendingIr.setWidth 5) (ofBits 32 (bits data32 32)))).flatten := by
  have hplace := placeFrame_eq k (BscaneIlaTapBackend.frameTdi b.pendingIr data32) b.chain.devices 0 0
    (List.replicate ((b.totalDr + 7) / 8) 0)
  have hk := h.lt_devices
  rw [if_pos (by omega), Nat.sub_zero, Nat.zero_add, ← h.index] at hplace
  refine (congrArg (bits · b.totalDr) hplace).trans ?_
  rw [h.totalDr_eq, bits_orBits_lanes h.lt_devices, bits_frameTdi]

/-- A raw frame scan returns the register that the core captures, and the core takes the frame. -/
theorem doRawFrameShift (h : Selected k d b) (data32 : List Byte) :
    ∃ tap raw, BscaneIlaTapBackend.doRawFrameShift chainTarget data32 b =
        some ((true, raw), { b with chain := { b.chain with tap } }) ∧
      Selected k { d with core := d.core.update (frameOf (b.pendingIr.setWidth 5) (ofBits 32 (bits data32 32))) }
        { b with chain := { b.chain with tap } } ∧ ∀ i < 32, bitAt raw i = d.core.captureData.getLsbD i := by
  obtain ⟨tap, e, hrest, hcores, -⟩ := h.rest.scan chainLogic .dr (n := b.totalDr)
    (by have := h.totalDr_eq; simp only [kFrameBits] at this; omega)
    (by rw [length_placeFrame, List.length_replicate, bytesFor]) true (h.bits_fullTdi data32)
    (h.length_captures (length_frameOf _ _))
  have hcall : BscaneIlaTapBackend.onTap (TapController.shiftDR chainTarget (some (placeFrame b.plTapIndex
      (BscaneIlaTapBackend.frameTdi b.pendingIr data32) b.chain.devices 0 0 (List.replicate ((b.totalDr + 7) / 8) 0)))
      [] b.totalDr) b = some ((true, packBits (b.chain.tap.cores.map (chainLogic.capture .dr)).flatten),
        { b with chain := { b.chain with tap } }) :=
    Method.on_of_eq _ (JtagChain.onTap_of_eq e)
  have hroom : ¬8 * (packBits (b.chain.tap.cores.map (chainLogic.capture .dr)).flatten).length < b.dataStart + 32 := by
    have := (h.toPresents.bitAt_captures (show 31 < 32 by decide)).1
    have := le_bytesFor (b.chain.tap.cores.map (chainLogic.capture .dr)).flatten.length
    rw [length_packBits, h.dataStart_eq]
    omega
  refine ⟨tap, orBits (fun i => bitAt (packBits (b.chain.tap.cores.map (chainLogic.capture .dr)).flatten)
    (b.dataStart + i)) 0 32 (List.replicate 5 0), ?_, h.update hrest hcores, fun i hi => ?_⟩
  · rw [BscaneIlaTapBackend.doRawFrameShift, Method.bind_of_eq _ hcall]
    show (ite _ (Method.ofOption none) _ : Method (BscaneIlaTapBackend _) _) _ = _
    rw [if_neg hroom]
    rfl
  · rw [bitAt_orBits_zeros _ (by decide), Nat.sub_zero, h.dataStart_eq, (h.toPresents.bitAt_captures hi).2]
    simp [hi]

end Selected

end OwlTap.Ila
