import OwlTap.Ila.ChainIlaTapBackend
import OwlTap.Ila.DriverEffect

/-!
# Register writes to the dedicated access port

On a chain whose instruction lengths the host knows, a write of the driver is one scan of the
data register of one `ila_tap`, with the other devices in BYPASS (`makes_write`). The driver
scans as many bits as it believes the register to have. For PRE_SAMPLES it takes the width of
an address, while the register of the HDL has 16 bits whatever the address; what the register
holds then is `passed`.
-/

namespace OwlTap.Ila

open OwlTap Ftdi Jtag

/-- Device `k` of `n` is the `ila_tap` of the backend, in state `d`; the chain is at rest, and the host knows the
lengths of its instruction registers. -/
structure OnChain (n k : ℕ) (d : IlaTap) (b : ChainIlaTapBackend (List (Device TapCore))) : Prop where
  /-- The chain is at rest. -/
  rest : b.chain.tap.AtRest
  /-- The host knows the lengths of the instruction registers. -/
  widths : b.chain.KnowsWidths tapLogic
  /-- The backend's device. -/
  index : b.deviceIndex = k
  /-- How many devices there are. -/
  length : b.chain.tap.cores.length = n
  /-- Device `k`. -/
  device : b.chain.tap.cores[k]? = some (.inr d)

/-- The instruction of the `ila_tap` is in force, and the other devices are in BYPASS. -/
structure Chosen (n k : ℕ) (d : IlaTap) (b : ChainIlaTapBackend (List (Device TapCore))) : Prop
    extends OnChain n k d b where
  /-- The other devices are in BYPASS. -/
  alone : Alone AllOnes k (.inr d) b.chain.tap.cores

/-- UPDATE-IR with an opcode. -/
def IlaTap.select (opcode : BitVec 5) (d : IlaTap) : IlaTap :=
  { d with irLatched := opcode, regs := { d.regs with sigDefIdx := 0 } }

/-- A write of the bits `v` on a chain of `n` devices. -/
def IlaTap.written (n : ℕ) (opcode : BitVec 5) (v : List Bool) (d : IlaTap) : IlaTap :=
  (d.select opcode).updateDr (passed (n - 1) (d.select opcode).captureDr v)

namespace OnChain

variable {n k : ℕ} {d : IlaTap} {b : ChainIlaTapBackend (List (Device TapCore))}

theorem lt (h : OnChain n k d b) : k < n := h.length ▸ (List.getElem?_eq_some_iff.mp h.device).1

theorem length_devices (h : OnChain n k d b) : b.chain.devices.length = n := (h.widths.length tapLogic).trans h.length

/-- `selectIr` puts the instruction in force, and the other devices in BYPASS. -/
theorem selectIr (h : OnChain n k d b) (opcode : BitVec 32) :
    ∃ b', ChainIlaTapBackend.selectIr tapTarget opcode b = some (true, b') ∧
      Chosen n k (d.select (opcode.setWidth 5)) b' := by
  obtain ⟨tap, e, hrest, hwidths, halone, hlen⟩ := JtagChain.selectInstruction_alone tapLogic_hasBypass h.rest h.widths
    h.device opcode
  have hd : tapLogic.update .ir (.inr d) ((List.range (tapLogic.irWidth (.inr d))).map opcode.getLsbD) =
      .inr (d.select (opcode.setWidth 5)) := by
    show Sum.inr (d.updateIr ((List.range 5).map opcode.getLsbD)) = _
    rw [IlaTap.updateIr, ofBits_range]
    rfl
  rw [hd] at halone
  refine ⟨{ b with chain := { b.chain with tap } }, ?_,
    ⟨⟨hrest, hwidths, h.index, hlen.trans h.length, halone.device⟩, halone⟩⟩
  have hon : ChainIlaTapBackend.onChain (JtagChain.selectInstruction tapTarget b.deviceIndex opcode) b =
      some (true, { b with chain := { b.chain with tap } }) := Method.on_of_eq _ (h.index ▸ e)
  rw [ChainIlaTapBackend.selectIr, Method.bind_of_eq _ hon]
  rfl

end OnChain

namespace Chosen

variable {n k : ℕ} {d : IlaTap} {b : ChainIlaTapBackend (List (Device TapCore))}

/-- A scan of any number of bits. -/
theorem shiftDr (h : Chosen n k d b) {m : ℕ} {tdi : List Byte} (h1 : 1 ≤ m) (htdi : m ≤ 8 * tdi.length) :
    ∃ b' tdo, ChainIlaTapBackend.shiftDr tapTarget m tdi b = some ((true, tdo), b') ∧
      Chosen n k (d.updateDr (passed (n - 1) d.captureDr (bits tdi m))) b' ∧ tdo.length = bytesFor m ∧
      bits tdo m = (d.captureDr ++ List.replicate (n - 1) false ++ bits tdi m).take m := by
  have hk := h.lt
  have hlen := h.length
  have hdevs := h.length_devices
  have hbuf : placeDr b.deviceIndex tdi m b.chain.devices 0 0 (List.replicate ((m + (n - 1) + 7) / 8) 0) =
      orBits (bitAt tdi) k m (List.replicate ((m + (n - 1) + 7) / 8) 0) := by
    have := placeDr_eq k tdi m b.chain.devices 0 0 (List.replicate ((m + (n - 1) + 7) / 8) 0)
    rw [if_pos (by omega), Nat.zero_add, Nat.sub_zero] at this
    rw [h.index]
    exact this
  obtain ⟨buf, hbufdef⟩ : ∃ buf, buf = orBits (bitAt tdi) k m (List.replicate ((m + (n - 1) + 7) / 8) 0) := ⟨_, rfl⟩
  have hbits : bits buf (m + (n - 1)) = (lanes n k (bits tdi m)).flatten := hbufdef ▸ bits_orBits_lanes hk tdi m
  have hroom : buf.length = bytesFor (m + (n - 1)) := by
    rw [hbufdef, length_orBits, List.length_replicate]
    rfl
  obtain ⟨tap, e, hrest, halone, hir⟩ := JtagChain.scan_alone (v := bits tdi m) tapLogic_hasBypass h.rest h.alone
    (by rw [length_bits]; omega) (by rw [length_bits, hlen]; exact hroom.ge) (by rw [length_bits, hlen]; exact hbits)
  rw [length_bits, hlen] at e
  rw [hlen] at halone
  obtain ⟨fullTdo, htdo⟩ : ∃ fullTdo, fullTdo = packBits (((lanes n k (tapLogic.capture .dr (.inr d))).flatten ++
      (lanes n k (bits tdi m)).flatten).take (m + (n - 1))) := ⟨_, rfl⟩
  rw [← htdo] at e
  have hstream : (((lanes n k (tapLogic.capture .dr (.inr d))).flatten ++ (lanes n k (bits tdi m)).flatten).take
      (m + (n - 1))).length = m + (n - 1) := by
    rw [List.length_take, List.length_append, length_flatten_lanes hk, length_flatten_lanes hk, length_bits]
    omega
  have hfull : fullTdo.length = bytesFor (m + (n - 1)) := by rw [htdo, length_packBits, hstream]
  have hcover := le_bytesFor (m + (n - 1))
  refine ⟨{ b with chain := { b.chain with tap } }, orBits (fun i => bitAt fullTdo (k + i)) 0 m
    (List.replicate ((m + 7) / 8) 0), ?_, ⟨⟨hrest, ⟨?_, h.widths.range⟩, h.index, ?_, halone.device⟩, halone⟩, ?_, ?_⟩
  · have hone : ¬b.chain.devices = [] := fun h0 => by
      rw [h0, List.length_nil] at hdevs
      omega
    have hcall : ChainIlaTapBackend.onChain (JtagChain.onTap (TapController.shiftDR tapTarget (some buf) [] (m + (n - 1)))) b =
        some ((true, fullTdo), { b with chain := { b.chain with tap } }) :=
      Method.on_of_eq _ (JtagChain.onTap_of_eq e)
    have hby : b.chain.bypassBits = n - 1 := by rw [JtagChain.bypassBits, hdevs]
    rw [ChainIlaTapBackend.shiftDr, if_neg hone, if_neg (by omega)]
    simp only [hby, hbuf, ← hbufdef]
    rw [Method.bind_of_eq _ hcall]
    simp only [if_true, h.index, Int.toNat_natCast]
    rw [if_neg (by rw [hfull]; omega)]
    rfl
  · exact h.widths.widths.trans hir.symm
  · have := congrArg List.length hir
    rw [List.length_map, List.length_map] at this
    exact this.trans hlen
  · rw [length_orBits, List.length_replicate]
    rfl
  · have hout : (d.captureDr ++ List.replicate (n - 1) false ++ bits tdi m).length = d.captureDr.length + (n - 1) + m := by
      simp [Nat.add_assoc]
    apply List.ext_getElem
    · rw [length_bits, List.length_take, hout]
      omega
    · intro i h₁ h₂
      have hi : i < m := by rwa [length_bits] at h₁
      have hroom' : 0 + m ≤ 8 * (List.replicate ((m + 7) / 8) (0 : Byte)).length := by
        rw [List.length_replicate]
        omega
      rw [getElem_bits, bitAt_orBits _ _ hroom', show bitAt (List.replicate ((m + 7) / 8) (0 : Byte)) i = false from
        bitAt_replicate_zero _ i, htdo, bitAt_packBits, Nat.sub_zero, ← List.getD_eq_getElem _ false h₂]
      have hdrop := congrArg (fun xs => xs.getD i false) (drop_flatten_lanes hk (tapLogic.capture .dr (.inr d)) (bits tdi m))
      simp only [List.getD_eq_getElem?_getD, List.getElem?_drop] at hdrop
      simp only [List.getD_eq_getElem?_getD, List.getElem?_take, if_pos hi, if_pos (show k + i < m + (n - 1) by omega),
        hdrop]
      rw [List.getElem?_append_left (by
        show i < (d.captureDr ++ List.replicate (n - 1) false ++ bits tdi m).length
        omega)]
      simp only [Bool.false_or, Nat.zero_le, hi, Nat.zero_add, decide_true, Bool.and_true, Bool.true_and]
      rfl

end Chosen

/-! ### Writes -/

namespace IlaDriver

/-- What a method of the driver does to the `ila_tap`, when it succeeds; it may be undefined if `wide`. -/
def Makes (n k : ℕ) (wide : Prop) (m : Method (IlaDriver (ChainIlaTapBackend (List (Device TapCore)))) Bool)
    (f : IlaTap → IlaTap) : Prop :=
  ∀ drv d, OnChain n k d drv.backend →
    (wide ∧ m drv = none) ∨ ∃ b', m drv = some (true, { drv with backend := b' }) ∧ OnChain n k (f d) b'

variable {n k : ℕ} {wide : Prop} {m m' : Method (IlaDriver (ChainIlaTapBackend (List (Device TapCore)))) Bool}
  {f g : IlaTap → IlaTap}

/-- One after the other. -/
theorem Makes.andThen (h : Makes n k wide m f) (h' : Makes n k wide m' g) : Makes n k wide (m.andThen m') (g ∘ f) := by
  intro drv d hd
  rcases h drv d hd with ⟨hw, hnone⟩ | ⟨b', e, hd'⟩
  · exact .inl ⟨hw, by rw [Method.andThen, hnone]; rfl⟩
  · rw [Method.andThen_of_true _ e]
    exact h' { drv with backend := b' } (f d) hd'

/-- The bits of a value. -/
def valueBits (bits : ℕ) (v : BitVec 32) : List Bool := (List.range bits).map v.getLsbD

@[simp] theorem length_valueBits (bits : ℕ) (v : BitVec 32) : (valueBits bits v).length = bits := by simp [valueBits]

/-- Selecting an instruction. -/
theorem selectIr_chosen {drv : IlaDriver (ChainIlaTapBackend (List (Device TapCore)))} {d : IlaTap}
    (hd : OnChain n k d drv.backend) (opcode : BitVec 32) :
    ∃ b', selectIr (ChainIlaTapBackend.backend tapTarget) opcode drv = some (true, { drv with backend := b' }) ∧
      Chosen n k (d.select (opcode.setWidth 5)) b' := by
  obtain ⟨b', hsel, hb'⟩ := hd.selectIr opcode
  have hcall : onBackend (ChainIlaTapBackend.selectIr tapTarget opcode) drv = some (true, { drv with backend := b' }) :=
    Method.on_of_eq _ hsel
  refine ⟨b', ?_, hb'⟩
  rw [selectIr]
  exact (Method.bind_of_eq _ hcall).trans rfl

/-- An access is one scan of the register, with as many bits as the driver believes it to have. -/
theorem access_scans {drv : IlaDriver (ChainIlaTapBackend (List (Device TapCore)))} {d : IlaTap}
    (hd : OnChain n k d drv.backend) (opcode : BitVec 32) {len : ℕ} (h1 : 1 ≤ len) (h64 : len ≤ 64) (v : BitVec 32) :
    ∃ b' tdo, access (ChainIlaTapBackend.backend tapTarget) opcode len v drv =
        (unpackBits tdo len).map (fun x => (some x, { drv with backend := b' })) ∧
      OnChain n k (d.written n (opcode.setWidth 5) (valueBits len v)) b' ∧ tdo.length = bytesFor len ∧
      bits tdo len = ((d.select (opcode.setWidth 5)).captureDr ++ List.replicate (n - 1) false ++ valueBits len v).take len := by
  obtain ⟨b₁, hselect, hb₁⟩ := selectIr_chosen hd opcode
  obtain ⟨tdi, hpack, hlen, hbits⟩ := packBits_eq v h64
  have hpure : (Method.ofOption (packBits v len) : Method (IlaDriver _) _) { drv with backend := b₁ } =
      some (tdi, { drv with backend := b₁ }) := by
    rw [Method.ofOption, hpack]
    rfl
  obtain ⟨b₂, tdo, hshift, hb₂, htdo, hread⟩ := hb₁.shiftDr h1 (hlen ▸ le_bytesFor len)
  have hcall : onBackend (ChainIlaTapBackend.shiftDr tapTarget len tdi) { drv with backend := b₁ } =
      some ((true, tdo), { drv with backend := b₂ }) := Method.on_of_eq _ hshift
  rw [hbits] at hb₂ hread
  refine ⟨b₂, tdo, ?_, hb₂.toOnChain, htdo, hread⟩
  rw [access, Method.bind_of_eq _ hselect, if_pos rfl, shiftDrInt, Method.bind_of_eq _ hpure]
  refine (Method.bind_of_eq _ hcall).trans ?_
  show ((Method.ofOption (unpackBits tdo len) >>= fun v => pure (some v)) : Method (IlaDriver _) _) _ = _
  cases hu : unpackBits tdo len <;> rfl

/-- More than 64 bits cannot be packed. -/
theorem access_undefined {drv : IlaDriver (ChainIlaTapBackend (List (Device TapCore)))} {d : IlaTap}
    (hd : OnChain n k d drv.backend) (opcode : BitVec 32) {len : ℕ} (h64 : 64 < len) (v : BitVec 32) :
    access (ChainIlaTapBackend.backend tapTarget) opcode len v drv = none := by
  obtain ⟨b₁, hselect, -⟩ := selectIr_chosen hd opcode
  have hnone : (Method.ofOption (packBits v len) : Method (IlaDriver _) _) { drv with backend := b₁ } = none := by
    rw [Method.ofOption, packBits, if_pos h64]
    rfl
  rw [access, Method.bind_of_eq _ hselect, if_pos rfl, shiftDrInt, Method.bind_of_none _ hnone]

/-- A write is an access of which nothing comes out. -/
theorem makes_write (n k : ℕ) (opcode : BitVec 32) {len : ℕ} (h1 : 1 ≤ len) {wide : Prop} (hwide : 32 < len → wide)
    (v : BitVec 32) :
    Makes n k wide (write (ChainIlaTapBackend.backend tapTarget) opcode len v)
      (IlaTap.written n (opcode.setWidth 5) (valueBits len v)) := by
  intro drv d hd
  have hwrite : write (ChainIlaTapBackend.backend tapTarget) opcode len v drv =
      (access (ChainIlaTapBackend.backend tapTarget) opcode len v drv).map fun r => (r.1.isSome, r.2) := by
    show (access _ opcode len v drv).bind _ = _
    cases access (ChainIlaTapBackend.backend tapTarget) opcode len v drv <;> rfl
  rw [hwrite]
  by_cases h64 : len ≤ 64
  · obtain ⟨b', tdo, e, hb', htdo, -⟩ := access_scans hd opcode h1 h64 v
    rw [e]
    cases hu : unpackBits tdo len with
    | none =>
      refine .inl ⟨hwide ?_, rfl⟩
      by_contra h32
      rw [unpackBits_eq (by omega) htdo.ge] at hu
      cases hu
    | some x => exact .inr ⟨b', rfl, hb'⟩
  · exact .inl ⟨hwide (by omega), by rw [access_undefined hd opcode (by omega) v]; rfl⟩

/-- What the writes of a setup do to the `ila_tap`. -/
def configured (n : ℕ) (caps : IlaCaps) (t : TriggerSetup) (d : IlaTap) : IlaTap :=
  ((((((((d.written n Opcode.trigMask (valueBits caps.dataW t.mask)).written n Opcode.trigVal
    (valueBits caps.dataW t.value)).written n Opcode.preSamples
    (valueBits caps.addrW (t.preSamples.setWidth 32))).written n Opcode.trigRise
    (valueBits caps.dataW t.riseMask)).written n Opcode.trigFall
    (valueBits caps.dataW t.fallMask)).written n Opcode.trigMask2
    (valueBits caps.dataW t.mask2)).written n Opcode.trigVal2
    (valueBits caps.dataW t.val2)).written n Opcode.trigCtrl
    (valueBits caps.dataW (if t.orMode then 1 else 0)))

/-- The writes of a setup, one after the other. -/
theorem makes_writeTrigger (n k : ℕ) {caps : IlaCaps} (hv : 3 ≤ caps.version) (hd : 1 ≤ caps.dataW ∧ caps.dataW ≤ 32)
    (ha : 1 ≤ caps.addrW) (t : TriggerSetup) :
    Makes n k (32 < caps.addrW) (writeTrigger (ChainIlaTapBackend.backend tapTarget) caps t) (configured n caps t) := by
  have hword : ∀ opcode v, Makes n k (32 < caps.addrW)
      (write (ChainIlaTapBackend.backend tapTarget) opcode caps.dataW v)
      (IlaTap.written n (opcode.setWidth 5) (valueBits caps.dataW v)) := fun opcode v =>
    makes_write n k opcode hd.1 (fun h => by omega) v
  have haddr : Makes n k (32 < caps.addrW)
      (write (ChainIlaTapBackend.backend tapTarget) kIrPreSamples caps.addrW (t.preSamples.setWidth 32))
      (IlaTap.written n (kIrPreSamples.setWidth 5) (valueBits caps.addrW (t.preSamples.setWidth 32))) :=
    makes_write n k kIrPreSamples ha id _
  have hedges := (hword kIrTrigRise t.riseMask).andThen (hword kIrTrigFall t.fallMask)
  have hgroupB := (hword kIrTrigMask2 t.mask2).andThen ((hword kIrTrigVal2 t.val2).andThen
    (hword kIrTrigCtrl (if t.orMode then 1 else 0)))
  have hall := (hword kIrTrigMask t.mask).andThen ((hword kIrTrigVal t.value).andThen (haddr.andThen
    (hedges.andThen hgroupB)))
  rw [writeTrigger, writeEdges, if_pos (by omega), writeGroupB, if_pos hv]
  exact hall

end IlaDriver

/-! ### What the registers hold -/

namespace IlaTapRegs

variable {dataW addrW : ℕ} (P : IlaParams) (n : ℕ) (i : IlaTapInputs dataW)

/-- A write of the bits `v` to a register, on a chain of `n` devices. -/
def stored (r : TapReg) (v : List Bool) (regs : IlaTapRegs dataW addrW) : IlaTapRegs dataW addrW :=
  ({ regs with sigDefIdx := 0 } : IlaTapRegs dataW addrW).update P
    (passed (n - 1) (({ regs with sigDefIdx := 0 } : IlaTapRegs dataW addrW).capture P i r) v) r

theorem passed_word (old : BitVec dataW) (x : BitVec 32) :
    passed (n - 1) (toBits old) (IlaDriver.valueBits dataW x) = IlaDriver.valueBits dataW x :=
  passed_of_length _ (by simp)

@[simp] theorem ofBits_valueBits (w : ℕ) (x : BitVec 32) : ofBits w (IlaDriver.valueBits w x) = x.setWidth w :=
  ofBits_range w x

variable (regs : IlaTapRegs dataW addrW) (x : BitVec 32)

theorem stored_trigMask : regs.stored P n i .trigMask (IlaDriver.valueBits dataW x) =
    { regs with maskReg := x.setWidth dataW, sigDefIdx := 0 } := by
  simp [stored, capture, update, passed_word]

theorem stored_trigVal : regs.stored P n i .trigVal (IlaDriver.valueBits dataW x) =
    { regs with valReg := x.setWidth dataW, sigDefIdx := 0 } := by
  simp [stored, capture, update, passed_word]

theorem stored_trigRise : regs.stored P n i .trigRise (IlaDriver.valueBits dataW x) =
    { regs with riseReg := x.setWidth dataW, sigDefIdx := 0 } := by
  simp [stored, capture, update, passed_word]

theorem stored_trigFall : regs.stored P n i .trigFall (IlaDriver.valueBits dataW x) =
    { regs with fallReg := x.setWidth dataW, sigDefIdx := 0 } := by
  simp [stored, capture, update, passed_word]

theorem stored_trigMask2 : regs.stored P n i .trigMask2 (IlaDriver.valueBits dataW x) =
    { regs with mask2Reg := x.setWidth dataW, sigDefIdx := 0 } := by
  simp [stored, capture, update, passed_word]

theorem stored_trigVal2 : regs.stored P n i .trigVal2 (IlaDriver.valueBits dataW x) =
    { regs with val2Reg := x.setWidth dataW, sigDefIdx := 0 } := by
  simp [stored, capture, update, passed_word]

theorem stored_trigCtrl (h1 : 1 ≤ dataW) (orMode : Bool) :
    regs.stored P n i .trigCtrl (IlaDriver.valueBits dataW (if orMode then 1 else 0)) =
      { regs with orModeReg := orMode, sigDefIdx := 0 } := by
  have hbit : (IlaDriver.valueBits dataW (if orMode then 1 else 0)).getD 0 false = orMode := by
    rw [List.getD_eq_getElem _ _ (by rw [IlaDriver.length_valueBits]; exact h1)]
    cases orMode <;> simp [IlaDriver.valueBits]
  simp only [stored, capture, update, passed_word, hbit]

theorem stored_preSamples (v : List Bool) : regs.stored P n i .preSamples v =
    { regs with preReg := ofBits 16 (passed (n - 1) (toBits regs.preReg) v), sigDefIdx := 0 } := rfl

end IlaTapRegs

namespace IlaTap

/-- A write to any register but CTRL makes no control pulse. -/
theorem written_eq {r : TapReg} (hr : r ≠ .ctrl) {opcode : BitVec 5} (ho : r.opcode = opcode) (n : ℕ)
    {dataW addrW : ℕ} (P : IlaParams) (ir : BitVec 5) (regs : IlaTapRegs dataW addrW) (time : ℕ)
    (inputs : ℕ → IlaTapInputs dataW) (pulses : List CtrlBit) (v : List Bool) :
    written n opcode v ⟨dataW, addrW, P, ir, regs, time, inputs, pulses⟩ =
      ⟨dataW, addrW, P, opcode, regs.stored P n (inputs time) r v, time + 1, inputs, pulses⟩ := by
  subst ho
  have hpulses : [CtrlBit.arm, .stop, .reset, .force].filter (tapCtrlOf r
      (passed (n - 1) (({ regs with sigDefIdx := 0 } : IlaTapRegs dataW addrW).capture P (inputs time) r) v)) = [] := by
    rw [show tapCtrlOf r _ = fun _ => false from funext fun k => by simp [tapCtrlOf, hr], List.filter_false]
  simp only [written, select, updateDr, captureDr, selected, TapReg.ofOpcode_opcode, hpulses, List.append_nil,
    IlaTapRegs.stored]

/-- What a setup leaves in the registers. -/
theorem configured_eq (n : ℕ) {caps : IlaCaps} (t : TriggerSetup) {dataW addrW : ℕ} (hw : caps.dataW = dataW)
    (h1 : 1 ≤ dataW) (P : IlaParams) (ir : BitVec 5) (regs : IlaTapRegs dataW addrW) (time : ℕ)
    (inputs : ℕ → IlaTapInputs dataW) (pulses : List CtrlBit) :
    IlaDriver.configured n caps t ⟨dataW, addrW, P, ir, regs, time, inputs, pulses⟩ =
      ⟨dataW, addrW, P, Opcode.trigCtrl,
        ⟨t.mask.setWidth dataW, t.value.setWidth dataW, t.riseMask.setWidth dataW, t.fallMask.setWidth dataW,
          ofBits 16 (passed (n - 1) (toBits regs.preReg) (IlaDriver.valueBits caps.addrW (t.preSamples.setWidth 32))),
          t.mask2.setWidth dataW, t.val2.setWidth dataW, t.orMode, regs.addrReg, 0⟩, time + 8, inputs, pulses⟩ := by
  subst hw
  have hmask := @written_eq .trigMask (by decide) Opcode.trigMask rfl n caps.dataW addrW P
  have hval := @written_eq .trigVal (by decide) Opcode.trigVal rfl n caps.dataW addrW P
  have hpre := @written_eq .preSamples (by decide) Opcode.preSamples rfl n caps.dataW addrW P
  have hrise := @written_eq .trigRise (by decide) Opcode.trigRise rfl n caps.dataW addrW P
  have hfall := @written_eq .trigFall (by decide) Opcode.trigFall rfl n caps.dataW addrW P
  have hmask2 := @written_eq .trigMask2 (by decide) Opcode.trigMask2 rfl n caps.dataW addrW P
  have hval2 := @written_eq .trigVal2 (by decide) Opcode.trigVal2 rfl n caps.dataW addrW P
  have hctrl := @written_eq .trigCtrl (by decide) Opcode.trigCtrl rfl n caps.dataW addrW P
  rw [IlaDriver.configured, hmask, hval, hpre, hrise, hfall, hmask2, hval2, hctrl, IlaTapRegs.stored_trigMask, IlaTapRegs.stored_trigVal, IlaTapRegs.stored_preSamples, IlaTapRegs.stored_trigRise,
    IlaTapRegs.stored_trigFall, IlaTapRegs.stored_trigMask2, IlaTapRegs.stored_trigVal2, IlaTapRegs.stored_trigCtrl _ _ _ _ h1]

end IlaTap

/-! ### PRE_SAMPLES -/

/-- A word that repeats itself is 0. -/
theorem eq_zero_of_shifted {w s : ℕ} {v : BitVec w} (hs : 1 ≤ s) (h : ∀ j, v.getLsbD j = v.getLsbD (j + s)) : v = 0#w := by
  have hrep : ∀ m j, v.getLsbD j = v.getLsbD (j + m * s) := by
    intro m
    induction m with
    | zero => simp
    | succ m ih => exact fun j => by rw [ih, h, Nat.succ_mul, Nat.add_assoc]
  apply BitVec.eq_of_getLsbD_eq
  intro j _
  have hle : w ≤ j + w * s := Nat.le_trans (Nat.le_mul_of_pos_right w hs) (Nat.le_add_left _ _)
  rw [hrep w, BitVec.getLsbD_of_ge v _ hle, BitVec.getLsbD_zero]

theorem lt_two_pow_iff {w : ℕ} (v : BitVec w) (m : ℕ) : v.toNat < 2 ^ m ↔ ∀ j, m ≤ j → v.getLsbD j = false :=
  ⟨fun h _ hj => Nat.testBit_lt_two_pow (Nat.lt_of_lt_of_le h (Nat.pow_le_pow_right (by decide) hj)),
    fun h => Nat.lt_pow_two_of_testBit _ h⟩

/-- PRE_SAMPLES gets the value: its 16 bits are scanned; or the value is 0, and so are the bits of the old one that
stay. -/
def PreArrives (n addrW : ℕ) (old v : BitVec 16) : Prop :=
  addrW = 16 ∨ v = 0#16 ∧ (addrW < 16 → old.toNat < 2 ^ (addrW + (n - 1)))

instance (n addrW : ℕ) (old v : BitVec 16) : Decidable (PreArrives n addrW old v) := inferInstanceAs (Decidable (_ ∨ _))

/-- The bits of PRE_SAMPLES after a scan of `addrW` bits. -/
theorem getLsbD_passed_pre (g addrW : ℕ) (old v : BitVec 16) {i : ℕ} (hi : i < 16) :
    (ofBits 16 (passed g (toBits old) (IlaDriver.valueBits addrW (v.setWidth 32)))).getLsbD i =
      if 16 ≤ addrW + i then v.getLsbD (addrW + i - 16) else old.getLsbD (g + addrW + i) := by
  have hvalue : ∀ j, j < addrW → (IlaDriver.valueBits addrW (v.setWidth 32)).getD j false = v.getLsbD j := fun j hj => by
    rw [IlaDriver.valueBits, List.getD_eq_getElem _ _ (by simpa using hj)]
    simp only [List.getElem_map, List.getElem_range, BitVec.getLsbD_setWidth]
    by_cases h32 : j < 32
    · simp [h32]
    · simp [h32, BitVec.getLsbD_of_ge v j (by omega)]
  rw [getLsbD_ofBits, passed, IlaDriver.length_valueBits]
  simp only [List.getD_eq_getElem?_getD, List.getElem?_drop, hi, decide_true, Bool.true_and]
  simp only [← List.getD_eq_getElem?_getD]
  by_cases hlast : 16 ≤ addrW + i
  · rw [if_pos hlast, List.getD_append_right _ _ _ _ (by simp; omega)]
    simp only [List.length_append, length_toBits, List.length_replicate]
    rw [hvalue _ (by omega)]
    congr 1
    omega
  · rw [if_neg hlast, List.getD_append _ _ _ _ (by simp; omega)]
    by_cases hold : g + addrW + i < 16
    · rw [List.getD_append _ _ _ _ (by simpa using hold), getD_toBits]
    · rw [List.getD_append_right _ _ _ _ (by simpa using hold), BitVec.getLsbD_of_ge old _ (by omega),
        List.getD_eq_getElem?_getD, List.getElem?_replicate]
      split <;> rfl

theorem passed_pre_iff {n addrW : ℕ} {old v : BitVec 16} (hv : v.toNat < 2 ^ addrW) :
    ofBits 16 (passed (n - 1) (toBits old) (IlaDriver.valueBits addrW (v.setWidth 32))) = v ↔ PreArrives n addrW old v := by
  have hbits := @getLsbD_passed_pre (n - 1) addrW old v
  constructor
  · intro h
    rw [h] at hbits
    rcases Nat.lt_trichotomy addrW 16 with hlt | heq | hgt
    · have hzero : v = 0#16 := by
        refine eq_zero_of_shifted (s := 16 - addrW) (by omega) fun j => ?_
        by_cases hj : j + (16 - addrW) < 16
        · have := hbits hj
          rw [if_pos (by omega), show addrW + (j + (16 - addrW)) - 16 = j by omega] at this
          exact this.symm
        · rw [BitVec.getLsbD_of_ge v (j + (16 - addrW)) (by omega), (lt_two_pow_iff v addrW).mp hv j (by omega)]
      refine .inr ⟨hzero, fun _ => (lt_two_pow_iff old _).mpr fun j hj => ?_⟩
      by_cases h16 : j < 16
      · have := hbits (i := j - (n - 1) - addrW) (by omega)
        rw [if_neg (by omega), hzero, BitVec.getLsbD_zero, show n - 1 + addrW + (j - (n - 1) - addrW) = j by omega] at this
        exact this.symm
      · exact BitVec.getLsbD_of_ge old j (by omega)
    · exact .inl heq
    · refine .inr ⟨eq_zero_of_shifted (s := addrW - 16) (by omega) fun j => ?_, fun h => by omega⟩
      by_cases hj : j < 16
      · have := hbits hj
        rwa [if_pos (by omega), show addrW + j - 16 = j + (addrW - 16) by omega] at this
      · rw [BitVec.getLsbD_of_ge v j (by omega), BitVec.getLsbD_of_ge v _ (by omega)]
  · intro h
    apply BitVec.eq_of_getLsbD_eq
    intro i hi
    rw [hbits hi]
    rcases h with rfl | ⟨rfl, hold⟩
    · rw [if_pos (by omega), Nat.add_sub_cancel_left]
    · split
      · rw [BitVec.getLsbD_zero, BitVec.getLsbD_zero]
      · rw [(lt_two_pow_iff old _).mp (hold (by omega)) _ (by omega), BitVec.getLsbD_zero]

/-! ### The claims of the registers -/

/-- What a register holds; those that cannot be written hold nothing. -/
def IlaTap.word (d : IlaTap) : TapReg → ℕ
  | .trigMask => d.regs.maskReg.toNat
  | .trigVal => d.regs.valReg.toNat
  | .trigRise => d.regs.riseReg.toNat
  | .trigFall => d.regs.fallReg.toNat
  | .preSamples => d.regs.preReg.toNat
  | .trigMask2 => d.regs.mask2Reg.toNat
  | .trigVal2 => d.regs.val2Reg.toNat
  | .trigCtrl => d.regs.orModeReg.toNat
  | .readAddr => d.regs.addrReg.toNat
  | .idcode | .config | .sigDef | .ctrl | .status | .readData | .bypass => 0

/-- The registers that a setup is for, and their values. -/
def TriggerSetup.words (t : TriggerSetup) : TapReg → Option ℕ
  | .trigMask => some t.mask.toNat
  | .trigVal => some t.value.toNat
  | .trigRise => some t.riseMask.toNat
  | .trigFall => some t.fallMask.toNat
  | .preSamples => some t.preSamples.toNat
  | .trigMask2 => some t.mask2.toNat
  | .trigVal2 => some t.val2.toNat
  | .trigCtrl => some t.orMode.toNat
  | _ => none

/-- READ_ADDR, and its value. -/
def addressWord (addr : BitVec 16) (r : TapReg) : Option ℕ := if r = .readAddr then some addr.toNat else none

/-- The registers written hold their values, and nothing else has changed. -/
def Holds (words : TapReg → Option ℕ) (d d' : IlaTap) : Prop :=
  (∀ r, d'.word r = (words r).getD (d.word r)) ∧ d'.pulses = d.pulses

/-- The masks and values of a setup have no more bits than a sample. -/
def TriggerSetup.FitsIn (t : TriggerSetup) (dataW : ℕ) : Prop :=
  ∀ x ∈ [t.mask, t.value, t.riseMask, t.fallMask, t.mask2, t.val2], x.toNat < 2 ^ dataW

instance (t : TriggerSetup) (dataW : ℕ) : Decidable (t.FitsIn dataW) := inferInstanceAs (Decidable (∀ _ ∈ _, _))

theorem toNat_setWidth_eq_iff {v : ℕ} (x : BitVec v) (w : ℕ) : (x.setWidth w).toNat = x.toNat ↔ x.toNat < 2 ^ w := by
  rw [BitVec.toNat_setWidth, Nat.mod_eq_iff_lt (Nat.two_pow_pos w).ne']

/-- A setup arrives if and only if its values fit, and PRE_SAMPLES does. -/
theorem holds_configured_iff (n : ℕ) {caps : IlaCaps} (t : TriggerSetup) (d : IlaTap) (hw : caps.dataW = d.dataW)
    (h1 : 1 ≤ d.dataW) (hv : t.preSamples.toNat < 2 ^ caps.addrW) :
    Holds t.words d (IlaDriver.configured n caps t d) ↔
      t.FitsIn d.dataW ∧ PreArrives n caps.addrW d.regs.preReg t.preSamples := by
  obtain ⟨dataW, addrW, P, ir, regs, time, inputs, pulses⟩ := d
  rw [IlaTap.configured_eq n t hw h1, ← passed_pre_iff hv]
  constructor
  · rintro ⟨h, -⟩
    refine ⟨?_, BitVec.eq_of_toNat_eq (h .preSamples)⟩
    simp only [TriggerSetup.FitsIn, List.forall_mem_cons, ← toNat_setWidth_eq_iff]
    exact ⟨h .trigMask, h .trigVal, h .trigRise, h .trigFall, h .trigMask2, h .trigVal2, nofun⟩
  · rintro ⟨hfits, hpre⟩
    simp only [TriggerSetup.FitsIn, List.forall_mem_cons, ← toNat_setWidth_eq_iff] at hfits
    obtain ⟨hmask, hval, hrise, hfall, hmask2, hval2, -⟩ := hfits
    refine ⟨fun r => ?_, rfl⟩
    cases r with
    | trigMask => exact hmask
    | trigVal => exact hval
    | trigRise => exact hrise
    | trigFall => exact hfall
    | trigMask2 => exact hmask2
    | trigVal2 => exact hval2
    | preSamples => exact congrArg BitVec.toNat hpre
    | _ => rfl

/-- The address that is written is in the register. -/
theorem holds_address (n : ℕ) {len : ℕ} (addr : BitVec 16) (d : IlaTap) (hw : len = d.addrW) (ha : addr.toNat < 2 ^ len) :
    Holds (addressWord addr) d (d.written n Opcode.readAddr (IlaDriver.valueBits len (addr.setWidth 32))) := by
  obtain ⟨dataW, addrW, P, ir, regs, time, inputs, pulses⟩ := d
  obtain rfl : len = addrW := hw
  have hpassed : passed (n - 1) (toBits regs.addrReg) (IlaDriver.valueBits len (addr.setWidth 32)) =
      IlaDriver.valueBits len (addr.setWidth 32) := passed_of_length _ (by simp)
  have hstored : ∀ i, regs.stored P n i .readAddr (IlaDriver.valueBits len (addr.setWidth 32)) =
      { regs with addrReg := addr.setWidth len, sigDefIdx := 0 } := fun i => by
    simp [IlaTapRegs.stored, IlaTapRegs.capture, IlaTapRegs.update, hpassed,
      setWidth_setWidth_of_ge addr (show 16 ≤ 32 by decide)]
  rw [IlaTap.written_eq (r := .readAddr) (by decide) (show _ = Opcode.readAddr from rfl), hstored]
  refine ⟨fun r => ?_, rfl⟩
  cases r with
  | readAddr =>
    show (addr.setWidth len).toNat = addr.toNat
    rw [BitVec.toNat_setWidth, Nat.mod_eq_of_lt ha]
  | _ => rfl

namespace IlaDriver

variable {n k : ℕ} {d : IlaTap} {drv : IlaDriver (ChainIlaTapBackend (List (Device TapCore)))} {idcode : BitVec 32}

/-- A driver that has probed an `ila_tap` knows its widths, and accepts no address that does not fit. -/
theorem probed_fields (hdata : 1 ≤ d.dataW ∧ d.dataW ≤ 32) (haddr : 1 ≤ d.addrW ∧ d.addrW ≤ 255)
    (hcaps : drv.caps = { IlaCaps.ofConfig (configVal d.params d.dataW d.addrW) with idcode }) :
    drv.caps.version = 3 ∧ drv.caps.dataW = d.dataW ∧ drv.caps.addrW = d.addrW ∧ drv.caps.depth ≤ 2 ^ d.addrW := by
  obtain ⟨hver, hdw, haw, -, hdepth, -⟩ := ofConfig_fields d.params
    (show 1 ≤ d.dataW ∧ d.dataW ≤ 64 from ⟨hdata.1, by omega⟩) haddr
  rw [hcaps]
  refine ⟨hver, hdw, haw, ?_⟩
  show (IlaCaps.ofConfig (configVal d.params d.dataW d.addrW)).depth ≤ _
  rw [hdepth]
  split
  · exact Nat.le_trans (by decide : kDepth ≤ 2 ^ 20) (Nat.pow_le_pow_right (by decide) (by omega))
  · exact le_refl _

/-- **Register writes.** A driver that has probed an `ila_tap` with samples of up to 32 bits and addresses of any
width, anywhere on a chain whose instruction lengths are known: after a `configureTrigger` that succeeds the registers
hold the setup, and nothing else has changed, if and only if the masks and values fit and PRE_SAMPLES arrives; after a
`setReadAddr` that succeeds they always do. Up to 32 bits of address, both succeed whenever the value is below
`DEPTH`. -/
theorem configureTrigger_reaches_iff (h : OnChain n k d drv.backend) (hdata : 1 ≤ d.dataW ∧ d.dataW ≤ 32)
    (haddr : 1 ≤ d.addrW ∧ d.addrW ≤ 255)
    (hcaps : drv.caps = { IlaCaps.ofConfig (configVal d.params d.dataW d.addrW) with idcode }) :
    (∀ t drv', configureTrigger (ChainIlaTapBackend.backend tapTarget) t drv = some (true, drv') →
      ∃ d', OnChain n k d' drv'.backend ∧
        (Holds t.words d d' ↔ t.FitsIn d.dataW ∧ PreArrives n d.addrW d.regs.preReg t.preSamples)) ∧
    (∀ addr drv', setReadAddr (ChainIlaTapBackend.backend tapTarget) addr drv = some (true, drv') →
      ∃ d', OnChain n k d' drv'.backend ∧ Holds (addressWord addr) d d') ∧
    (d.addrW ≤ 32 →
      (∀ t, t.preSamples.toNat < drv.caps.depth →
        ∃ drv', configureTrigger (ChainIlaTapBackend.backend tapTarget) t drv = some (true, drv')) ∧
      ∀ addr, addr.toNat < drv.caps.depth →
        ∃ drv', setReadAddr (ChainIlaTapBackend.backend tapTarget) addr drv = some (true, drv')) := by
  obtain ⟨hver, hdw, haw, hdepth⟩ := probed_fields hdata haddr hcaps
  -- what is not refused is written
  have htrigger : ∀ t, t.preSamples.toNat < drv.caps.depth →
      configureTrigger (ChainIlaTapBackend.backend tapTarget) t drv =
        writeTrigger (ChainIlaTapBackend.backend tapTarget) drv.caps t drv := fun t ht => by
    rw [configureTrigger, if_neg (by omega), if_neg (by omega), if_neg (by omega)]
  have hset : ∀ addr, addr.toNat < drv.caps.depth →
      setReadAddr (ChainIlaTapBackend.backend tapTarget) addr drv =
        write (ChainIlaTapBackend.backend tapTarget) kIrReadAddr drv.caps.addrW (addr.setWidth 32) drv := fun addr ht => by
    rw [setReadAddr, if_neg (by omega)]
  have hmakes := fun t => makes_writeTrigger n k (show 3 ≤ drv.caps.version by omega) (by omega) (by omega) t drv d h
  have hmakes' := fun addr : BitVec 16 => makes_write n k kIrReadAddr (show 1 ≤ drv.caps.addrW by omega)
    (fun hlt : 32 < drv.caps.addrW => hlt) (addr.setWidth 32) drv d h
  refine ⟨fun t drv' e => ?_, fun addr drv' e => ?_, fun h32 => ⟨fun t ht => ?_, fun addr ht => ?_⟩⟩
  · have ht : t.preSamples.toNat < drv.caps.depth := by
      by_contra hge
      rw [configureTrigger, if_pos (by omega)] at e
      cases e
    rw [htrigger t ht] at e
    rcases hmakes t with ⟨-, hnone⟩ | ⟨b', e', hd'⟩
    · rw [hnone] at e
      cases e
    · rw [e', Option.some.injEq, Prod.mk.injEq] at e
      obtain ⟨-, rfl⟩ := e
      refine ⟨_, hd', ?_⟩
      have hiff := holds_configured_iff n t d hdw hdata.1 (by rw [haw]; omega)
      rwa [haw] at hiff
  · have ht : addr.toNat < drv.caps.depth := by
      by_contra hge
      rw [setReadAddr, if_pos (by omega)] at e
      cases e
    rw [hset addr ht] at e
    rcases hmakes' addr with ⟨-, hnone⟩ | ⟨b', e', hd'⟩
    · rw [hnone] at e
      cases e
    · rw [e', Option.some.injEq, Prod.mk.injEq] at e
      obtain ⟨-, rfl⟩ := e
      exact ⟨_, hd', holds_address n addr d haw (by rw [haw]; omega)⟩
  · rcases hmakes t with ⟨hw, -⟩ | ⟨b', e', -⟩
    · omega
    · exact ⟨_, (htrigger t ht).trans e'⟩
  · rcases hmakes' addr with ⟨hw, -⟩ | ⟨b', e', -⟩
    · omega
    · exact ⟨_, (hset addr ht).trans e'⟩

/-- A register of 32 bits is read. -/
theorem access_reads (h : OnChain n k d drv.backend) (r : TapReg) (opcode : BitVec 32)
    (ho : opcode.setWidth 5 = r.opcode) {x : BitVec 32}
    (hx : ({ d.regs with sigDefIdx := 0 } : IlaTapRegs d.dataW d.addrW).capture d.params (d.inputs d.time) r = toBits x) :
    ∃ b', access (ChainIlaTapBackend.backend tapTarget) opcode 32 0 drv = some (some x, { drv with backend := b' }) ∧
      OnChain n k (d.written n r.opcode (valueBits 32 0)) b' := by
  obtain ⟨b', tdo, e, hb', htdo, hread⟩ := access_scans h opcode (show 1 ≤ 32 by decide) (by decide) 0
  have hcap : (d.select (opcode.setWidth 5)).captureDr = toBits x := by
    rw [← hx, ho]
    show ({ d.regs with sigDefIdx := 0 } : IlaTapRegs d.dataW d.addrW).capture d.params (d.inputs d.time)
      (TapReg.ofOpcode r.opcode) = _
    rw [TapReg.ofOpcode_opcode]
  rw [hcap, List.append_assoc, List.take_left' (length_toBits x)] at hread
  rw [ho] at hb'
  refine ⟨b', ?_, hb'⟩
  rw [e, unpackBits_eq (le_refl 32) htdo.ge, hread, ofBits_toBits]
  rfl

/-- `probe` reads what the `ila_tap` is, and changes nothing in it but the instruction. -/
theorem probe_reads (h : OnChain n k d drv.backend) (out : IlaCaps) :
    ∃ drv' d', probe (ChainIlaTapBackend.backend tapTarget) out drv = some ((true, drv'.caps), drv') ∧
      OnChain n k d' drv'.backend ∧ d'.word = d.word ∧ d'.pulses = d.pulses ∧
      drv'.caps = { IlaCaps.ofConfig (configVal d.params d.dataW d.addrW) with idcode := d.params.idcodeVal } := by
  obtain ⟨dataW, addrW, P, ir, regs, time, inputs, pulses⟩ := d
  have hread := fun r (hr : r ≠ TapReg.ctrl) => @IlaTap.written_eq r hr _ rfl n dataW addrW P
  obtain ⟨b₁, e₁, h₁⟩ := access_reads h .idcode kIrIdcode rfl rfl
  rw [hread .idcode (by decide)] at h₁
  obtain ⟨b₂, e₂, h₂⟩ := @access_reads n k _ { drv with backend := b₁ } h₁ .config kIrConfig rfl _ rfl
  rw [hread .config (by decide)] at h₂
  obtain ⟨b₃, e₃, h₃⟩ := @access_reads n k _ { drv with backend := b₂ } h₂ .idcode kIrIdcode rfl _ rfl
  rw [hread .idcode (by decide)] at h₃
  have hprobed : (IlaCaps.ofConfig (configVal P dataW addrW)).probed = true := by
    show decide (field (configVal P dataW addrW) 24 8 ≠ 0) = true
    rw [field, toNat_configVal]
    exact decide_eq_true (by omega)
  refine ⟨{ drv with backend := b₃, caps := { IlaCaps.ofConfig (configVal P dataW addrW) with idcode := P.idcodeVal } }, _, ?_,
    h₃, funext fun r => ?_, rfl, rfl⟩
  · have e₃' : readIdcode (ChainIlaTapBackend.backend tapTarget) { drv with backend := b₂ } =
        some (some P.idcodeVal, { drv with backend := b₃ }) := e₃
    rw [probe, Method.bind_of_eq _ (show readIdcode _ drv = _ from e₁), Method.bind_of_eq _ e₂]
    simp only [hprobed, if_true]
    rw [Method.bind_of_eq _ e₃']
    rfl
  · cases r <;> rfl

/-! ### An `ila_tap` behind a PL TAP -/

/-- A PL TAP nearest TDO, and an `ila_tap` behind it, as a host knows them that has been told the lengths. -/
def behindPl : JtagChain (List (Device TapCore)) :=
  .idle [⟨0, 0x13722093, 6, [], none⟩, ⟨1, 0xA17A0001, 5, [], none⟩]
    [⟨.inl (.powered JtagChain.plSpec), []⟩, ⟨.inr (.powered 32 10 {}), []⟩]

theorem onChain_behindPl : OnChain 2 1 (.powered 32 10 {}) ⟨behindPl, 1, ""⟩ where
  rest := ⟨JtagChain.idle_synced _ _, rfl, JtagChain.idle_delivers _ _⟩
  widths := ⟨rfl, by simp [behindPl, JtagChain.idle]⟩
  index := rfl
  length := rfl
  device := rfl

/-- What `probe` leaves there. -/
def probedBehindPl : IlaDriver (ChainIlaTapBackend (List (Device TapCore))) :=
  { backend := ⟨behindPl, 1, ""⟩, caps := capsOf {} 10 }

theorem configureTrigger_reaches_behindPl :
    (∀ t drv', configureTrigger (ChainIlaTapBackend.backend tapTarget) t probedBehindPl = some (true, drv') →
      ∃ d', OnChain 2 1 d' drv'.backend ∧
        (Holds t.words (.powered 32 10 {}) d' ↔ t.FitsIn 32 ∧ PreArrives 2 10 256 t.preSamples)) ∧
    (∀ addr drv', setReadAddr (ChainIlaTapBackend.backend tapTarget) addr probedBehindPl = some (true, drv') →
      ∃ d', OnChain 2 1 d' drv'.backend ∧ Holds (addressWord addr) (.powered 32 10 {}) d') ∧
    (10 ≤ 32 →
      (∀ t, t.preSamples.toNat < probedBehindPl.caps.depth →
        ∃ drv', configureTrigger (ChainIlaTapBackend.backend tapTarget) t probedBehindPl = some (true, drv')) ∧
      ∀ addr, addr.toNat < probedBehindPl.caps.depth →
        ∃ drv', setReadAddr (ChainIlaTapBackend.backend tapTarget) addr probedBehindPl = some (true, drv')) :=
  @configureTrigger_reaches_iff 2 1 _ probedBehindPl 0xA17A0001 onChain_behindPl (by decide) (by decide) rfl

/-- A setup with 100 samples before the trigger. -/
def hundredBefore : TriggerSetup := { mask := 0xFF, value := 0x5A, preSamples := 100 }

/-- The host asks for 100 samples before the trigger, and PRE_SAMPLES holds 6400. -/
theorem configureTrigger_shifts_preSamples :
    ((configureTrigger (ChainIlaTapBackend.backend tapTarget) hundredBefore probedBehindPl).map fun r =>
      (r.1, r.2.backend.chain.tap.cores.map (Sum.elim (fun _ => none) fun d => some (d.word .trigMask, d.word .preSamples)))) =
      some (true, [none, some (0xFF, 6400)]) := by
  decide +kernel

end IlaDriver

end OwlTap.Ila
