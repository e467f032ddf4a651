import Mathlib.Logic.Function.Iterate
import OwlTap.Jtag.BoundaryAccess
import OwlTap.Jtag.ShiftDRRepeat

/-!
# A chain at rest

Between two scans the chain is in RUN-TEST/IDLE, and a scan that goes through takes it
from one rest to the next: every device captures, and then updates with what was shifted
into it. So the operations of the host are functions of the devices' states (`cores`).
-/

namespace OwlTap.Jtag

open OwlTap Ftdi Bsdl

variable {δ : Type} (L : TestLogic δ)

namespace TapController

/-- The chain is in RUN-TEST/IDLE, the host knows that, and transfers go through whole. -/
structure AtRest {σ : Type} (c : TapController σ) : Prop where
  /-- The host knows where the TAP is. -/
  synced : c.Synced
  /-- It is in RUN-TEST/IDLE. -/
  idle : c.state = .runTestIdle
  /-- Transfers go through whole. -/
  delivers : c.device.Delivers

/-- The states of the devices on the chain. -/
def cores (c : TapController (List (Device δ))) : List δ := c.device.link.port.target.map Device.core

@[simp] theorem length_cores (c : TapController (List (Device δ))) :
    c.cores.length = c.device.link.port.target.length := List.length_map _

namespace AtRest

variable {c : TapController (List (Device δ))}

theorem port (h : c.AtRest) : c.device.link.port = ⟨.runTestIdle, c.device.link.port.target⟩ := by
  have := h.synced.state
  rw [h.idle] at this
  rw [← this]

/-- A few cycles in RUN-TEST/IDLE change nothing. -/
theorem clkIdle (h : c.AtRest) (cycles : ℕ) :
    ∃ c', TapController.clkIdle (Target.chain L) cycles c = some (true, c') ∧ c'.AtRest ∧ c'.cores = c.cores ∧
      c'.lastError = c.lastError := by
  obtain ⟨d, m, e, hs, hc, ho⟩ := clkIdle_spec (T := Target.chain L) cycles h.synced h.delivers.noCut
  refine ⟨_, e, ⟨hs, rfl, fun o hm => h.delivers o (List.mem_of_mem_drop (ho ▸ hm))⟩, ?_, rfl⟩
  rw [cores, hc.port, h.idle, pathPins_self, List.nil_append, h.port, run_idle]
  rfl

/-- A scan begins with what the devices capture. -/
theorem start_regs (h : c.AtRest) (reg : Register) :
    (shiftStart L c.device.link.port reg).target.map Device.reg = c.cores.map (L.capture reg) := by
  rw [h.port, shiftStart_idle, cores, List.map_map, List.map_map]
  rfl

/-- Until then their states stay. -/
theorem start_cores (h : c.AtRest) (reg : Register) :
    (shiftStart L c.device.link.port reg).target.map Device.core = c.cores := by
  rw [h.port, shiftStart_idle, cores, List.map_map]
  rfl

/-- A scan of as many bits as the devices capture: what they captured comes out, and each updates
with its part of the bits. -/
theorem scan (h : c.AtRest) (reg : Register) {buf : List Byte} {n : ℕ} (hn : 1 ≤ n) (hb : bytesFor n ≤ buf.length)
    (read : Bool) {ys : List (List Bool)} (hbits : bits buf n = ys.flatten)
    (hys : ys.map List.length = c.cores.map fun d => (L.capture reg d).length) :
    ∃ c', TapController.scan (Target.chain L) reg (some buf) [] n read c =
        some ((true, if read then packBits (c.cores.map (L.capture reg)).flatten else []), c') ∧ c'.AtRest ∧
      c'.cores = List.zipWith (L.update reg) c.cores ys ∧ c'.lastError = c.lastError := by
  obtain ⟨c', e, hs, hi, hd, -, hc, he⟩ := scan_chain L h.synced h.delivers reg hn hb read hbits
    (by rw [h.start_regs, hys, List.map_map]; rfl)
  rw [h.start_regs] at e
  rw [h.start_cores] at hc
  exact ⟨c', e, ⟨hs, hi, hd⟩, hc, he⟩

/-- What the devices make of one scan after the other, each of the same bits. -/
def updates (ys : List (List Bool)) (i : ℕ) (cores : List δ) : List δ :=
  (fun cores => List.zipWith (L.update .dr) cores ys)^[i] cores

theorem updates_succ (ys : List (List Bool)) (i : ℕ) (cores : List δ) :
    updates L ys (i + 1) cores = updates L ys i (List.zipWith (L.update .dr) cores ys) :=
  Function.iterate_succ_apply _ _ _

/-- A data scan between two rests. -/
theorem run_repeatPins (ch : List (Device δ)) {buf : List Byte} {n : ℕ} (hn : 1 ≤ n) {ys : List (List Bool)}
    (hbits : bits buf n = ys.flatten)
    (hys : ys.map List.length = (ch.map Device.core).map fun d => (L.capture .dr d).length) :
    repeatSamples (Target.chain L) ⟨.runTestIdle, ch⟩ buf n = ((ch.map Device.core).map (L.capture .dr)).flatten ∧
      ∃ ch', (⟨.runTestIdle, ch⟩ : Port _).run (Target.chain L) (repeatPins buf n) = ⟨.runTestIdle, ch'⟩ ∧
        ch'.map Device.core = List.zipWith (L.update .dr) (ch.map Device.core) ys := by
  obtain ⟨houts, hrun⟩ := run_scanTrack L ⟨.runTestIdle, ch⟩ .dr buf hn
  have hregs : (shiftStart L ⟨.runTestIdle, ch⟩ .dr).target.map Device.reg = (ch.map Device.core).map (L.capture .dr) := by
    rw [shiftStart_idle, List.map_map, List.map_map]
    rfl
  have hcores : (shiftStart L ⟨.runTestIdle, ch⟩ .dr).target.map Device.core = ch.map Device.core := by
    rw [shiftStart_idle, List.map_map]
    rfl
  rw [hregs, hbits, Series.shifts_of_length (by rw [hys, List.map_map, List.map_map, List.map_map]; rfl)] at houts hrun
  refine ⟨houts, _, hrun, ?_⟩
  rw [Device.map_core_update, hcores]

/-- A batch between two rests. -/
theorem run_batchPins (count : ℕ) (ch : List (Device δ)) {buf : List Byte} {n : ℕ} (hn : 1 ≤ n)
    {ys : List (List Bool)} (hbits : bits buf n = ys.flatten)
    (hys : ∀ i, ys.map List.length = (updates L ys i (ch.map Device.core)).map fun d => (L.capture .dr d).length) :
    repeatResult (Target.chain L) buf n count ⟨.runTestIdle, ch⟩ =
        ((List.range count).map fun i =>
          packBits ((updates L ys i (ch.map Device.core)).map (L.capture .dr)).flatten).flatten ∧
      ∃ ch', (⟨.runTestIdle, ch⟩ : Port _).run (Target.chain L) (batchPins buf n count) = ⟨.runTestIdle, ch'⟩ ∧
        ch'.map Device.core = updates L ys count (ch.map Device.core) := by
  induction count generalizing ch with
  | zero => exact ⟨rfl, ch, rfl, rfl⟩
  | succ count ih =>
    obtain ⟨hsamples, ch₁, hrun₁, hcores₁⟩ := run_repeatPins L ch hn hbits (hys 0)
    obtain ⟨hresult, ch₂, hrun₂, hcores₂⟩ := ih ch₁ fun i => by
      rw [hcores₁, ← updates_succ]
      exact hys (i + 1)
    refine ⟨?_, ch₂, ?_, ?_⟩
    · rw [repeatResult, hsamples, hrun₁, hresult, List.range_succ_eq_map, List.map_cons, List.flatten_cons, hcores₁]
      refine congrArg₂ (· ++ ·) rfl (congrArg List.flatten ?_)
      rw [List.map_map]
      rfl
    · rw [batchPins_succ, Port.run_append, hrun₁, hrun₂]
    · rw [hcores₂, hcores₁, updates_succ]

/-- A batch of scans: what every one of them captures comes out. -/
theorem shiftDRRepeat (h : c.AtRest) {buf : List Byte} {n count : ℕ} (hn : 1 ≤ n) (hb : bytesFor n ≤ buf.length)
    (hcount : count ≠ 0) {ys : List (List Bool)} (hbits : bits buf n = ys.flatten)
    (hys : ∀ i, ys.map List.length = (updates L ys i c.cores).map fun d => (L.capture .dr d).length) :
    ∃ c', TapController.shiftDRRepeat (Target.chain L) count n (some buf) c =
        some ((true, ((List.range count).map fun i =>
          packBits ((updates L ys i c.cores).map (L.capture .dr)).flatten).flatten), c') ∧ c'.AtRest ∧
      c'.cores = updates L ys count c.cores := by
  obtain ⟨ok, out, k, d, e, hcall, hw, hcl, -, hok, hdel⟩ := shiftDRRepeat_spec (T := Target.chain L) hn hb hcount
    h.synced.waits h.delivers.noCut h.delivers.quiet
  obtain ⟨rfl, hd⟩ := hdel h.delivers
  obtain ⟨rfl, rfl⟩ := hok rfl
  obtain ⟨hresult, ch', hrun, hcores⟩ := run_batchPins L k c.device.link.port.target hn hbits hys
  have hport := hcl.port
  rw [h.port, hrun] at hport
  refine ⟨⟨d, .runTestIdle, e⟩, ?_, ⟨.of_waits hw ?_ fun _ => rfl, rfl, hd⟩, ?_⟩
  · rw [hcall, h.port, hresult]
    rfl
  · show d.link.port.state = .runTestIdle
    rw [hport]
  · show d.link.port.target.map Device.core = _
    rw [hport, hcores]
    rfl

end AtRest

end TapController

/-! ### The operations of the host -/

/-- What the instruction registers should hold: device `k` gets the opcode, the others BYPASS. -/
def placed (k : ℕ) (op : BitVec 32) (devices : List ChainDevice) : List (List Bool) :=
  devices.mapIdx fun i dev =>
    if i = k then (List.range dev.irLength).map op.getLsbD else List.replicate dev.irLength true

theorem opcodeList_eq_placed (k : ℕ) (op : BitVec 32) {devices : List ChainDevice}
    (h : ∀ dev ∈ devices, dev.irLength ≤ 32) : opcodeList k op 0 devices = placed k op devices := by
  have := opcodeList_eq k op h 0
  simp only [Nat.zero_add] at this
  exact this

theorem map_length_placed (k : ℕ) (op : BitVec 32) {devices : List ChainDevice}
    (h : ∀ dev ∈ devices, dev.irLength ≤ 32) :
    (placed k op devices).map List.length = devices.map ChainDevice.irLength := by
  rw [← opcodeList_eq_placed k op h, map_length_opcodeList]

namespace JtagChain

variable {c : JtagChain (List (Device δ))}

/-- The host knows the lengths of the instruction registers. -/
structure KnowsWidths (c : JtagChain (List (Device δ))) : Prop where
  /-- They are the devices'. -/
  widths : c.devices.map ChainDevice.irLength = c.tap.cores.map L.irWidth
  /-- They are in the range of an opcode. -/
  range : ∀ dev ∈ c.devices, 1 ≤ dev.irLength ∧ dev.irLength ≤ 32

theorem KnowsWidths.length (h : KnowsWidths L c) : c.devices.length = c.tap.cores.length := by
  have := congrArg List.length h.widths
  rwa [List.length_map, List.length_map] at this

/-- `selectInstruction` updates every device with its instruction. -/
theorem selectInstruction_rest (hr : c.tap.AtRest) (hw : KnowsWidths L c) {k : ℕ} (hk : k < c.devices.length)
    (op : BitVec 32) :
    ∃ tap, selectInstruction (Target.chain L) k op c = some (true, { c with tap }) ∧ tap.AtRest ∧
      tap.cores = List.zipWith (L.update .ir) c.tap.cores (placed k op c.devices) := by
  have h32 : ∀ dev ∈ c.devices, dev.irLength ≤ 32 := fun dev h => (hw.range dev h).2
  have hlens : (placed k op c.devices).map List.length = c.tap.cores.map fun d => (L.capture .ir d).length := by
    rw [map_length_placed k op h32, hw.widths]
    exact List.map_congr_left fun d _ => (L.length_capture_ir d).symm
  obtain ⟨tap, e, hr', hcores, -⟩ := hr.scan L .ir (totalIRLength_pos (fun dev h => (hw.range dev h).1) hk)
    (bytesFor_le_irData k op c.devices) false
    ((bits_irData k op c.devices).trans (congrArg List.flatten (opcodeList_eq_placed k op h32))) hlens
  refine ⟨tap, ?_, hr', hcores⟩
  rw [selectInstruction_eq _ h32 hk]
  refine onTap_of_eq ?_
  rw [TapController.shiftIR, Method.bind_of_eq _ e]
  rfl

/-- Device `k` captures `len` data bits, and the others, in BYPASS, one each. -/
def Selects (c : JtagChain (List (Device δ))) (k len : ℕ) : Prop :=
  c.tap.cores.map (fun d => (L.capture .dr d).length) =
    (List.range c.tap.cores.length).map fun i => if i = k then len else 1

/-- What a scan captures at rest. -/
theorem captured_rest (hr : c.tap.AtRest) : captured L c = c.tap.cores.map (L.capture .dr) := hr.start_regs L .dr

theorem Selects.inLine (hr : c.tap.AtRest) {k len : ℕ} (hs : c.Selects L k len) :
    InLine k len (captured L c) := by
  rw [InLine, captured_rest L hr, List.map_map, List.length_map]
  exact hs

/-- `readBSR` returns what device `k` captures, and updates it with zeros. -/
theorem readBSR_captured (hr : c.tap.AtRest) (hn : c.devices.length = c.tap.cores.length) {k : ℕ}
    (hk : k < c.devices.length) {bsdl : BSDLDevice} (hb : c.devices[k].bsdl = some bsdl) (h1 : 1 ≤ bsdl.boundaryLength)
    (hs : c.Selects L k bsdl.boundaryLength) :
    ∃ tap, readBSR (Target.chain L) k [] 0 c =
        some ((true, packBits ((c.tap.cores.map (L.capture .dr)).getD k [])), { c with tap }) ∧ tap.AtRest ∧
      tap.cores = List.zipWith (L.update .dr) c.tap.cores
        (lanes c.devices.length k (List.replicate bsdl.boundaryLength false)) := by
  obtain ⟨tap, e, h, -, hcores⟩ := readBSR_start L hr.synced hr.delivers (by rw [captured_rest L hr, List.length_map, hn])
    hk hb h1 (hs.inLine L hr)
  rw [hr.start_cores] at hcores
  rw [captured_rest L hr] at e
  exact ⟨tap, e, ⟨h.1, h.2.1, h.2.2⟩, hcores⟩

/-- `readBSR` updates device `k` with zeros. -/
theorem readBSR_rest (hr : c.tap.AtRest) (hn : c.devices.length = c.tap.cores.length) {k : ℕ}
    (hk : k < c.devices.length) {bsdl : BSDLDevice} (hb : c.devices[k].bsdl = some bsdl) (h1 : 1 ≤ bsdl.boundaryLength)
    (hs : c.Selects L k bsdl.boundaryLength) :
    ∃ tap raw, readBSR (Target.chain L) k [] 0 c = some ((true, raw), { c with tap }) ∧ tap.AtRest ∧
      tap.cores = List.zipWith (L.update .dr) c.tap.cores
        (lanes c.devices.length k (List.replicate bsdl.boundaryLength false)) := by
  obtain ⟨tap, e, hrest, hcores⟩ := readBSR_captured L hr hn hk hb h1 hs
  exact ⟨tap, _, e, hrest, hcores⟩

/-- `writeBSR` updates device `k` with the bits of the buffer. -/
theorem writeBSR_rest (hr : c.tap.AtRest) (hn : c.devices.length = c.tap.cores.length) {k : ℕ}
    (hk : k < c.devices.length) {data : List Byte} {len : ℕ} (hd : len ≤ 8 * data.length) (h1 : 1 ≤ len)
    (hs : c.Selects L k len) :
    ∃ tap, writeBSR (Target.chain L) k data len c = some (true, { c with tap }) ∧ tap.AtRest ∧
      tap.cores = List.zipWith (L.update .dr) c.tap.cores (lanes c.devices.length k (bits data len)) := by
  obtain ⟨tap, e, h, -, hcores⟩ := writeBSR_start L hr.synced hr.delivers (by rw [captured_rest L hr, List.length_map, hn])
    hk hd h1 (hs.inLine L hr)
  rw [hr.start_cores] at hcores
  exact ⟨tap, e, ⟨h.1, h.2.1, h.2.2⟩, hcores⟩

end JtagChain

end OwlTap.Jtag
