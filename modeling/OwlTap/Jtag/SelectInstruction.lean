import Mathlib.Algebra.Order.BigOperators.Group.List
import Mathlib.Algebra.Order.Group.Nat
import OwlTap.Base.BoundaryDevice
import OwlTap.Jtag.ChainScan

/-!
# Instructions reach their registers

The loop that builds the bits of the instruction registers puts each device's opcode where
its register is in the chain, whatever the lengths; so after the scan the device selected
holds its opcode, and every other one BYPASS.
-/

namespace OwlTap.Jtag

open OwlTap Ftdi

/-- The bits of a device's opcode, the one nearest TDO first. -/
def opcodeBits (deviceIndex : ℤ) (instruction : BitVec 32) (i : ℤ) (dev : ChainDevice) : List Bool :=
  (List.range dev.irLength).map (opcodeFor deviceIndex instruction i dev).getLsbD

/-- What the instruction registers should hold, from device `i` on. -/
def opcodeList (deviceIndex : ℤ) (instruction : BitVec 32) : (i : ℤ) → List ChainDevice → List (List Bool)
  | _, [] => []
  | i, dev :: devs => opcodeBits deviceIndex instruction i dev :: opcodeList deviceIndex instruction (i + 1) devs

theorem map_length_opcodeList (k : ℤ) (op : BitVec 32) (i : ℤ) (devs : List ChainDevice) :
    (opcodeList k op i devs).map List.length = devs.map ChainDevice.irLength := by
  induction devs generalizing i with
  | nil => rfl
  | cons dev devs ih => simp [opcodeList, opcodeBits, ih]

theorem length_flatten_opcodeList (k : ℤ) (op : BitVec 32) (i : ℤ) (devs : List ChainDevice) :
    (opcodeList k op i devs).flatten.length = JtagChain.totalIRLength devs := by
  rw [List.length_flatten, map_length_opcodeList, JtagChain.totalIRLength]

/-- The loop writes the opcodes one after the other from `bitPos` on, and nothing before it. -/
theorem bitAt_fillIR (k : ℤ) (op : BitVec 32) (devs : List ChainDevice) (i : ℤ) {bitPos : ℕ} {buf : List Byte}
    (hl : bitPos + JtagChain.totalIRLength devs ≤ 8 * buf.length) (hz : ∀ j, bitPos ≤ j → bitAt buf j = false) (j : ℕ) :
    bitAt (fillIR k op devs i bitPos buf) j =
      if j < bitPos then bitAt buf j else (opcodeList k op i devs).flatten.getD (j - bitPos) false := by
  induction devs generalizing i bitPos buf with
  | nil =>
    rw [fillIR]
    split
    · rfl
    · rw [hz j (by omega)]; rfl
  | cons dev devs ih =>
    rw [JtagChain.totalIRLength, List.map_cons, List.sum_cons] at hl
    have hor : ∀ j, bitAt (orBits (opcodeFor k op i dev).getLsbD bitPos dev.irLength buf) j = _ := fun j =>
      bitAt_orBits (opcodeFor k op i dev).getLsbD bitPos (by omega) j
    have hlen : (opcodeBits k op i dev).length = dev.irLength := by simp [opcodeBits]
    rw [fillIR, ih (i + 1) (by rw [length_orBits, JtagChain.totalIRLength]; omega)
      (fun j hj => by rw [hor, hz j (by omega)]; simp; omega), opcodeList, List.flatten_cons]
    by_cases h₁ : j < bitPos
    · rw [if_pos (by omega), if_pos h₁, hor]
      simp; omega
    · rw [if_neg h₁]
      by_cases h₂ : j < bitPos + dev.irLength
      · rw [if_pos h₂, hor, hz j (by omega), List.getD_append _ _ _ _ (by omega)]
        have hb : j - bitPos < dev.irLength := by omega
        simp [opcodeBits, hb, h₂, Nat.le_of_not_lt h₁]
      · rw [if_neg h₂, List.getD_append_right _ _ _ _ (by omega), hlen, Nat.sub_sub]

@[simp] theorem length_fillIR (k : ℤ) (op : BitVec 32) (devs : List ChainDevice) (i : ℤ) (bitPos : ℕ)
    (buf : List Byte) : (fillIR k op devs i bitPos buf).length = buf.length := by
  induction devs generalizing i bitPos buf with
  | nil => rfl
  | cons dev devs ih => rw [fillIR, ih, length_orBits]

/-- The bits that are shifted are the opcodes, device by device. -/
theorem bits_irData (k : ℤ) (op : BitVec 32) (devs : List ChainDevice) :
    bits (fillIR k op devs 0 0 (List.replicate ((JtagChain.totalIRLength devs + 7) / 8) 0))
      (JtagChain.totalIRLength devs) = (opcodeList k op 0 devs).flatten := by
  have hl : 0 + JtagChain.totalIRLength devs ≤
      8 * (List.replicate ((JtagChain.totalIRLength devs + 7) / 8) (0 : Byte)).length := by
    rw [List.length_replicate, Nat.zero_add]
    exact le_bytesFor _
  apply List.ext_getElem (by rw [length_bits, length_flatten_opcodeList])
  intro j h₁ h₂
  rw [getElem_bits, bitAt_fillIR k op devs 0 hl fun j _ => bitAt_replicate_zero _ j, if_neg (Nat.not_lt_zero j),
    Nat.sub_zero, List.getD_eq_getElem _ _ h₂]

/-- BYPASS is all ones. -/
theorem bypassOpcode_bits {n : ℕ} (h : n ≤ 32) :
    (List.range n).map (bypassOpcode n).getLsbD = List.replicate n true := by
  apply List.ext_getElem (by simp)
  intro i h₁ h₂
  simp only [List.length_map, List.length_range] at h₁
  simp [bypassOpcode, BitVec.getLsbD_ofNat, Nat.testBit_two_pow_sub_one]
  omega

theorem opcodeList_eq (k : ℕ) (op : BitVec 32) {devs : List ChainDevice} (h : ∀ dev ∈ devs, dev.irLength ≤ 32)
    (i : ℕ) : opcodeList k op i devs = devs.mapIdx fun j dev =>
      if i + j = k then (List.range dev.irLength).map op.getLsbD else List.replicate dev.irLength true := by
  induction devs generalizing i with
  | nil => rfl
  | cons dev devs ih =>
    have ih := ih (fun d hd => h d (List.mem_cons_of_mem _ hd)) (i + 1)
    rw [opcodeList, List.mapIdx_cons, show (i : ℤ) + 1 = ((i + 1 : ℕ) : ℤ) by push_cast; rfl, ih]
    congr 1
    · by_cases hi : i = k
      · simp [opcodeBits, opcodeFor, hi]
      · rw [if_neg (by omega), opcodeBits, opcodeFor, if_neg (by exact_mod_cast hi),
          bypassOpcode_bits (h dev List.mem_cons_self)]
    · congr 1
      funext j dev
      rw [show i + 1 + j = i + (j + 1) by omega]

namespace JtagChain

variable {δ : Type} (L : TestLogic δ)

/-- A call on the controller, when it is known what the controller does. -/
theorem onTap_of_eq {σ α : Type} {m : Method (TapController σ) α} {c : JtagChain σ} {a : α} {tap : TapController σ}
    (h : m c.tap = some (a, tap)) : onTap m c = some (a, { c with tap }) :=
  Method.on_of_eq _ h

theorem deviceAt_of_lt {σ : Type} {c : JtagChain σ} {k : ℕ} (hk : k < c.devices.length) :
    c.deviceAt k = some c.devices[k] := by
  rw [deviceAt, if_pos (Int.natCast_nonneg k), Int.toNat_natCast, List.getElem?_eq_getElem hk]

/-- `selectInstruction` is one scan. -/
theorem selectInstruction_eq {σ : Type} (T : Target σ) {c : JtagChain σ} (h32 : ∀ dev ∈ c.devices, dev.irLength ≤ 32)
    {k : ℕ} (hk : k < c.devices.length) (op : BitVec 32) :
    selectInstruction T k op c = onTap (TapController.shiftIR T
      (some (fillIR k op c.devices 0 0 (List.replicate ((totalIRLength c.devices + 7) / 8) 0)))
      (totalIRLength c.devices)) c := by
  have hany : ¬(c.devices.any fun dev => 32 < dev.irLength) = true := by
    rw [List.any_eq_true]
    rintro ⟨dev, hm, h⟩
    have := h32 dev hm
    simp only [decide_eq_true_eq] at h
    omega
  rw [selectInstruction, deviceAt_of_lt hk]
  exact if_neg hany

theorem totalIRLength_pos {devices : List ChainDevice} (h1 : ∀ dev ∈ devices, 1 ≤ dev.irLength) {k : ℕ}
    (hk : k < devices.length) : 1 ≤ totalIRLength devices :=
  le_trans (h1 _ (List.getElem_mem hk)) (List.le_sum_of_mem (List.mem_map_of_mem (List.getElem_mem hk)))

theorem bytesFor_le_irData (k : ℤ) (op : BitVec 32) (devices : List ChainDevice) :
    bytesFor (totalIRLength devices) ≤
      (fillIR k op devices 0 0 (List.replicate ((totalIRLength devices + 7) / 8) 0)).length := by
  rw [length_fillIR, List.length_replicate]
  exact le_refl _

/-- What `selectInstruction` does when the transfers go through. -/
theorem selectInstruction_delivered {σ : Type} {T : Target σ} {c : JtagChain σ} (hs : c.tap.Synced)
    (hd : c.tap.device.Delivers) (hlen : ∀ dev ∈ c.devices, 1 ≤ dev.irLength ∧ dev.irLength ≤ 32) {k : ℕ}
    (hk : k < c.devices.length) (op : BitVec 32) :
    ∃ d buf, selectInstruction T k op c = some (true, { c with tap := ⟨d, .runTestIdle, c.tap.lastError⟩ }) ∧
      (⟨d, .runTestIdle, c.tap.lastError⟩ : TapController σ).Synced ∧ d.Delivers ∧
      bits buf (totalIRLength c.devices) = (opcodeList k op 0 c.devices).flatten ∧ 1 ≤ totalIRLength c.devices ∧
      FtdiDevice.Clocked T c.tap.device d (TapController.scanTrack c.tap.state .ir buf (totalIRLength c.devices)) := by
  have hpos := totalIRLength_pos (fun dev h => (hlen dev h).1) hk
  obtain ⟨d, e, hs', hc, hd'⟩ :=
    TapController.shiftIR_delivered (T := T) hpos (bytesFor_le_irData k op c.devices) hs hd
  refine ⟨d, _, ?_, hs', hd', bits_irData k op c.devices, hpos, hc⟩
  rw [selectInstruction_eq T (fun dev h => (hlen dev h).2) hk]
  exact onTap_of_eq e

/-- **Instructions are placed.** On a chain whose instruction registers are as long as the host
believes, 1 to 32 bits each, `selectInstruction` leaves the low bits of the opcode in the register
of the device selected, bit 0 nearest TDO, and ones in every other one, and every device updates
its instruction with what is in its register. -/
theorem selectInstruction_places {c : JtagChain (List (Device δ))} (hs : c.tap.Synced)
    (hd : c.tap.device.Delivers) (hc : Chain.Consistent L c.tap.device.link.port)
    (hw : c.devices.map ChainDevice.irLength = c.tap.device.link.port.target.map fun d => L.irWidth d.core)
    (hlen : ∀ dev ∈ c.devices, 1 ≤ dev.irLength ∧ dev.irLength ≤ 32) {k : ℕ} (hk : k < c.devices.length)
    (op : BitVec 32) :
    ∃ c' cores placed, selectInstruction (Target.chain L) k op c = some (true, c') ∧
      (placed = c.devices.mapIdx fun i dev =>
        if i = k then (List.range dev.irLength).map op.getLsbD else List.replicate dev.irLength true) ∧
      c'.tap.device.link.port.state = .runTestIdle ∧
      c'.tap.device.link.port.target.map Device.reg = placed ∧
      c'.tap.device.link.port.target.map Device.core = List.zipWith (L.update .ir) cores placed := by
  obtain ⟨d, buf, e, hs', hd', hbits, hpos, hcl⟩ := selectInstruction_delivered (T := Target.chain L) hs hd hlen hk op
  have hrun := (run_scanTrack L c.tap.device.link.port .ir buf hpos).2
  have hlens : (opcodeList k op 0 c.devices).map List.length =
      ((shiftStart L c.tap.device.link.port .ir).target.map Device.reg).map List.length := by
    have hir := hc.run L (pathPins c.tap.device.link.port.state Register.ir.shift)
      (.inl (state_shiftStart L c.tap.device.link.port .ir))
    rw [Chain.irWidths_run, ← hw] at hir
    rw [map_length_opcodeList, List.map_map]
    exact hir.symm
  rw [hs.state, hbits, Series.shifts_of_length hlens, ← hcl.port] at hrun
  have hl : (opcodeList k op 0 c.devices).length = (shiftStart L c.tap.device.link.port .ir).target.length := by
    simpa using congrArg List.length hlens
  refine ⟨_, (shiftStart L c.tap.device.link.port .ir).target.map Device.core, opcodeList k op 0 c.devices, e, ?_,
    congrArg Port.state hrun, ?_, ?_⟩
  · have := opcodeList_eq k op (fun dev h => (hlen dev h).2) 0
    simp only [Nat.zero_add] at this
    exact this
  · have := congrArg (fun p => (Port.target p).map Device.reg) hrun
    exact this.trans ((Device.map_reg_update L .ir _).trans (Device.map_reg_withRegs hl))
  · have := congrArg (fun p => (Port.target p).map Device.core) hrun
    exact this.trans (Device.map_core_update L .ir _ _)

/-- A host that knows that its chain is in RUN-TEST/IDLE. -/
def idle (devices : List ChainDevice) (ch : List (Device δ)) : JtagChain (List (Device δ)) :=
  ⟨⟨.waiting false ⟨.runTestIdle, ch⟩ [], .runTestIdle, ""⟩, devices, ""⟩

theorem idle_synced (devices : List ChainDevice) (ch : List (Device δ)) : (idle devices ch).tap.Synced :=
  ⟨FtdiDevice.waits_waiting _ _ _, rfl, fun _ => rfl⟩

theorem idle_delivers (devices : List ChainDevice) (ch : List (Device δ)) : (idle devices ch).tap.device.Delivers := by
  simp [FtdiDevice.Delivers, idle, FtdiDevice.waiting]

theorem idle_consistent (devices : List ChainDevice) (ch : List (Device δ)) :
    Chain.Consistent L (idle devices ch).tap.device.link.port :=
  fun h => absurd (show Chain.InIr .runTestIdle from h) (by decide)

/-- A PL TAP of 6 bits. -/
def plSpec : BoundarySpec :=
  ⟨6, List.replicate 6 false, [true, false, false, false, false, false], 3,
    (List.range 32).map (0x13722093#32).getLsbD, by decide, by decide⟩

/-- An ARM DAP of 4 bits. -/
def dapSpec : BoundarySpec :=
  ⟨4, List.replicate 4 false, [true, false, false, false], 1, [false], by decide, by decide⟩

/-- A PL TAP nearest TDO, and an ARM DAP behind it. -/
def twoSpecs : List BoundarySpec := [plSpec, dapSpec]

/-- The two devices, as the host knows them. -/
def two : JtagChain (List (Device BoundaryDevice)) :=
  idle [⟨0, 0x13722093, 6, [], none⟩, ⟨1, 0x4BA00477, 4, [], none⟩] (twoSpecs.map fun spec => ⟨.powered spec, []⟩)

theorem selectInstruction_two :
    ∃ c', selectInstruction (Target.chain BoundaryDevice.logic) (0 : ℕ) 0x26 two = some (true, c') ∧
      c'.tap.device.link.port.target.map Device.reg =
        [[false, true, true, false, false, true], [true, true, true, true]] := by
  have hlen : ∀ dev ∈ two.devices, 1 ≤ dev.irLength ∧ dev.irLength ≤ 32 := by
    simp [two, idle]
  obtain ⟨c', -, placed, e, rfl, -, hreg, -⟩ := selectInstruction_places BoundaryDevice.logic (c := two)
    (idle_synced _ _) (idle_delivers _ _) (idle_consistent _ _ _) rfl hlen (show 0 < 2 by decide) 0x26
  exact ⟨c', e, hreg⟩

end JtagChain

end OwlTap.Jtag
