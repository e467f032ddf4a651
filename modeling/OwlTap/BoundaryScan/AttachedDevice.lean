import OwlTap.BoundaryScan.PinDriver
import OwlTap.Jtag.RestingChain

/-!
# A driver's effect on its device

The scans that a driver makes, as functions of the state of the device that it drives: an
instruction is loaded into it while the others get BYPASS, and then its boundary register
is read, which writes zeros, or written.
-/

namespace OwlTap.BoundaryScan

open OwlTap Ftdi Bsdl Jtag

/-- The model describes the device. -/
structure Describes (dev : BSDLDevice) (spec : BoundarySpec) : Prop where
  /-- The boundary register is as long as the model says. -/
  boundary : dev.boundaryLength = spec.bsrLength
  /-- It has a cell. -/
  cell : 1 ≤ spec.bsrLength
  /-- The opcode of SAMPLE is the model's, if it has one. -/
  sample : ∀ op, dev.sampleOpcode = some op → (List.range spec.irWidth).map op.getLsbD = spec.sample
  /-- So is the opcode of EXTEST. -/
  extest : ∀ op, dev.extestOpcode = some op → (List.range spec.irWidth).map op.getLsbD = spec.extest
  /-- They differ. -/
  ne : spec.sample ≠ spec.extest

/-- All devices but `k` are in BYPASS. -/
def Bypassed (k : ℕ) (cores : List BoundaryDevice) : Prop :=
  ∀ i (h : i < cores.length), i ≠ k → cores[i].instruction = some (List.replicate cores[i].spec.irWidth true)

/-- The chain is at rest, the host knows it, and device `k`, with model `dev`, is in state `d`. -/
structure Attached (c : JtagChain (List (Device BoundaryDevice))) (k : ℕ) (dev : BSDLDevice) (d : BoundaryDevice) :
    Prop where
  /-- The chain is at rest. -/
  rest : c.tap.AtRest
  /-- The host knows the lengths of the instruction registers. -/
  widths : c.KnowsWidths BoundaryDevice.logic
  /-- The model is loaded. -/
  loaded : (c.devices[k]?).bind ChainDevice.bsdl = some dev
  /-- The device. -/
  device : c.tap.cores[k]? = some d
  /-- The model describes it. -/
  describes : Describes dev d.spec

namespace Attached

variable {c : JtagChain (List (Device BoundaryDevice))} {k : ℕ} {dev : BSDLDevice} {d : BoundaryDevice}

theorem lt_devices (h : Attached c k dev d) : k < c.devices.length := by
  obtain ⟨cd, hcd, -⟩ := Option.bind_eq_some_iff.mp h.loaded
  exact (List.getElem?_eq_some_iff.mp hcd).1

theorem lt_cores (h : Attached c k dev d) : k < c.tap.cores.length := (List.getElem?_eq_some_iff.mp h.device).1

theorem getElem_cores (h : Attached c k dev d) (_ : k < c.tap.cores.length) : c.tap.cores[k] = d :=
  (List.getElem?_eq_some_iff.mp h.device).2

theorem bsdl_getElem (h : Attached c k dev d) (_ : k < c.devices.length) : c.devices[k].bsdl = some dev := by
  have := h.loaded
  rwa [List.getElem?_eq_getElem h.lt_devices, Option.bind_some] at this

/-- An update of every device leaves the chain attached. -/
theorem update (h : Attached c k dev d) (r : Register) {tap : TapController (List (Device BoundaryDevice))}
    (hrest : tap.AtRest) {ys : List (List Bool)} (hys : ys.length = c.tap.cores.length) {y : List Bool}
    (hy : ys[k]? = some y)
    (hcores : tap.cores = List.zipWith (BoundaryDevice.logic.update r) c.tap.cores ys) :
    Attached { c with tap } k dev (BoundaryDevice.logic.update r d y) := by
  have hwidths : tap.cores.map BoundaryDevice.logic.irWidth = c.tap.cores.map BoundaryDevice.logic.irWidth := by
    rw [hcores]
    apply List.ext_getElem
    · simp [hys]
    · intro i h₁ h₂
      simp only [List.getElem_map, List.getElem_zipWith]
      exact BoundaryDevice.logic.irWidth_update r _ _
  have hspec : (BoundaryDevice.logic.update r d y).spec = d.spec := by cases r <;> rfl
  refine ⟨hrest, ⟨h.widths.widths.trans hwidths.symm, h.widths.range⟩, h.loaded, ?_, hspec ▸ h.describes⟩
  show tap.cores[k]? = _
  rw [hcores, List.getElem?_zipWith, h.device, hy]

theorem irLength_eq (h : Attached c k dev d) {i : ℕ} (hi : i < c.devices.length) (hi' : i < c.tap.cores.length) :
    c.devices[i].irLength = c.tap.cores[i].spec.irWidth := by
  have hget := congrArg (·[i]?) h.widths.widths
  simp only [List.getElem?_map, List.getElem?_eq_getElem hi, List.getElem?_eq_getElem hi', Option.map_some,
    Option.some.injEq] at hget
  exact hget

/-- An instruction is loaded, and the others get BYPASS. -/
theorem selectInstruction (h : Attached c k dev d) (op : BitVec 32) :
    ∃ tap, JtagChain.selectInstruction (Target.chain BoundaryDevice.logic) k op c = some (true, { c with tap }) ∧
      Attached { c with tap } k dev (d.updateIr ((List.range d.spec.irWidth).map op.getLsbD)) ∧
      Bypassed k tap.cores := by
  have hn := h.widths.length
  obtain ⟨tap, e, hrest, hcores⟩ := JtagChain.selectInstruction_rest BoundaryDevice.logic h.rest h.widths h.lt_devices op
  have hlen : (placed k op c.devices).length = c.tap.cores.length := by rw [placed, List.length_mapIdx, hn]
  refine ⟨tap, e, h.update .ir hrest hlen ?_ hcores, ?_⟩
  · rw [placed, List.getElem?_mapIdx, List.getElem?_eq_getElem h.lt_devices, Option.map_some, if_pos rfl,
      h.irLength_eq h.lt_devices h.lt_cores, h.getElem_cores h.lt_cores]
  · intro i hi hne
    have hi' : i < c.tap.cores.length := by
      rw [hcores, List.length_zipWith, hlen] at hi
      omega
    have hget : tap.cores[i] = (c.tap.cores[i]).updateIr (List.replicate (c.tap.cores[i]).spec.irWidth true) := by
      simp only [hcores, List.getElem_zipWith, placed, List.getElem_mapIdx, if_neg hne]
      rw [h.irLength_eq (hn ▸ hi') hi']
      rfl
    rw [hget]
    rfl

/-- Idle cycles change nothing. -/
theorem clkIdle (h : Attached c k dev d) (hb : Bypassed k c.tap.cores) (cycles : ℕ) :
    ∃ tap, JtagChain.onTap (TapController.clkIdle (Target.chain BoundaryDevice.logic) cycles) c =
        some (true, { c with tap }) ∧ Attached { c with tap } k dev d ∧ Bypassed k tap.cores := by
  obtain ⟨tap, e, hrest, hcores, -⟩ := h.rest.clkIdle BoundaryDevice.logic cycles
  refine ⟨tap, JtagChain.onTap_of_eq e, ⟨hrest, ⟨?_, h.widths.range⟩, h.loaded, ?_, h.describes⟩, hcores ▸ hb⟩
  · exact h.widths.widths.trans (by rw [hcores])
  · exact (by rw [hcores] : tap.cores[k]? = c.tap.cores[k]?).trans h.device

/-- With its boundary register selected and the others in BYPASS, the data registers are in place. -/
theorem selects (h : Attached c k dev d) (hb : Bypassed k c.tap.cores) (hd : d.Boundary) :
    c.Selects BoundaryDevice.logic k dev.boundaryLength := by
  apply List.ext_getElem
  · simp
  · intro i h₁ h₂
    have hi' : i < c.tap.cores.length := by rwa [List.length_map] at h₁
    simp only [List.getElem_map, List.getElem_range]
    show (c.tap.cores[i].captureDr).length = _
    by_cases hi : i = k
    · subst hi
      rw [if_pos rfl, h.getElem_cores hi', BoundaryDevice.captureDr, if_pos hd, h.describes.boundary]
      simp
    · rw [if_neg hi, BoundaryDevice.captureDr_bypass (hb i _ hi)]
      rfl

/-- What is read of the boundary register is what its cells see; to read it is to write zeros. -/
theorem readBSR_inputs (h : Attached c k dev d) (hb : Bypassed k c.tap.cores) (hd : d.Boundary) :
    ∃ tap, JtagChain.readBSR (Target.chain BoundaryDevice.logic) k [] 0 c =
        some ((true, packBits ((List.range d.spec.bsrLength).map (d.inputs d.time))), { c with tap }) ∧
      Attached { c with tap } k dev (d.updateDr (List.replicate dev.boundaryLength false)) := by
  have hn := h.widths.length
  obtain ⟨tap, e, hrest, hcores⟩ := JtagChain.readBSR_captured BoundaryDevice.logic h.rest hn h.lt_devices
    (h.bsdl_getElem h.lt_devices)
    (by rw [h.describes.boundary]; exact h.describes.cell) (h.selects hb hd)
  have hcaptured : (c.tap.cores.map (BoundaryDevice.logic.capture .dr)).getD k [] =
      (List.range d.spec.bsrLength).map (d.inputs d.time) := by
    rw [List.getD_eq_getElem?_getD, List.getElem?_map, h.device]
    exact if_pos hd
  rw [hcaptured] at e
  refine ⟨tap, e, h.update .dr hrest (by rw [length_lanes, hn]) ?_ hcores⟩
  rw [List.getElem?_eq_getElem (by rw [length_lanes]; exact h.lt_devices), getElem_lanes, if_pos rfl]

/-- To read the boundary register is to write zeros. -/
theorem readBSR (h : Attached c k dev d) (hb : Bypassed k c.tap.cores) (hd : d.Boundary) :
    ∃ tap raw, JtagChain.readBSR (Target.chain BoundaryDevice.logic) k [] 0 c = some ((true, raw), { c with tap }) ∧
      Attached { c with tap } k dev (d.updateDr (List.replicate dev.boundaryLength false)) := by
  obtain ⟨tap, e, ha⟩ := h.readBSR_inputs hb hd
  exact ⟨tap, _, e, ha⟩

/-- The boundary register is written. -/
theorem writeBSR (h : Attached c k dev d) (hb : Bypassed k c.tap.cores) (hd : d.Boundary) {data : List Byte}
    (hl : bytesFor dev.boundaryLength ≤ data.length) :
    ∃ tap, JtagChain.writeBSR (Target.chain BoundaryDevice.logic) k data dev.boundaryLength c =
        some (true, { c with tap }) ∧
      Attached { c with tap } k dev (d.updateDr (bits data dev.boundaryLength)) := by
  have hn := h.widths.length
  have hroom : dev.boundaryLength ≤ 8 * data.length := by
    have := le_bytesFor dev.boundaryLength
    omega
  obtain ⟨tap, e, hrest, hcores⟩ := JtagChain.writeBSR_rest BoundaryDevice.logic h.rest hn h.lt_devices hroom
    (by rw [h.describes.boundary]; exact h.describes.cell) (h.selects hb hd)
  refine ⟨tap, e, h.update .dr hrest (by rw [length_lanes, hn]) ?_ hcores⟩
  rw [List.getElem?_eq_getElem (by rw [length_lanes]; exact h.lt_devices), getElem_lanes, if_pos rfl]

end Attached

end OwlTap.BoundaryScan
