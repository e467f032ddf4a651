import OwlTap.Base.Simulation
import OwlTap.BoundaryScan.ExtestSessions
import OwlTap.BoundaryScan.Scanner

/-!
# Devices on the bench

Devices with nothing between their boundary registers and the hand that sets their pins: no chain, no
TAP, no adapter. `Workbench` says what their pins are then seen at and driven with. To access one device is
to pass the others over: they get BYPASS.

A driver of a chain at rest does what is done on the bench.
-/

namespace OwlTap

namespace BoundaryDevice

/-- What SAMPLE sees. -/
def seen (d : BoundaryDevice) : List Bool := (List.range d.spec.bsrLength).map (d.inputs (d.time + 1))

/-- The device after it: SAMPLE is in force, and the latches hold zeros. -/
def sampled (d : BoundaryDevice) : BoundaryDevice :=
  (d.updateIr d.spec.sample).updateDr (List.replicate d.spec.bsrLength false)

/-- The device after EXTEST, and then these bits, have been loaded. -/
def driveWith (d : BoundaryDevice) (bits : List Bool) : BoundaryDevice := (d.updateIr d.spec.extest).updateDr bits

/-- The device after an access to another: BYPASS is in force. -/
def passedOver (d : BoundaryDevice) : BoundaryDevice :=
  (d.updateIr (List.replicate d.spec.irWidth true)).updateDr [false]

end BoundaryDevice

namespace BoundaryScan

open OwlTap Ftdi Bsdl Jtag

/-! ### The bench -/

/-- Access one of some devices. -/
def access (k : ℕ) (f : BoundaryDevice → BoundaryDevice) (devices : List BoundaryDevice) : List BoundaryDevice :=
  devices.mapIdx fun i d => if i = k then f d else d.passedOver

/-- The model of a device, if there is such a device and such a model. -/
def modelAt (models : List (Option BSDLDevice)) (deviceIndex : ℤ) : Option BSDLDevice :=
  if 0 ≤ deviceIndex then models[deviceIndex.toNat]?.join else none

/-- Devices on the bench. -/
structure Workbench where
  /-- The devices. -/
  devices : List BoundaryDevice
  /-- What is staged for their boundary registers, once something is. -/
  staged : AList fun _ : ℤ => List Byte := ∅

namespace Workbench

/-- What the pins of a device are seen at. -/
def seen (b : Workbench) (deviceIndex : ℤ) : List Byte :=
  packBits ((b.devices[deviceIndex.toNat]?).elim [] BoundaryDevice.seen)

/-- Access a device. -/
def access (deviceIndex : ℤ) (f : BoundaryDevice → BoundaryDevice) (b : Workbench) : Workbench :=
  { b with devices := BoundaryScan.access deviceIndex.toNat f b.devices }

/-- Stage bits for a device. -/
def stageAs (deviceIndex : ℤ) (staged : List Byte) (b : Workbench) : Workbench :=
  { b with staged := b.staged.insert deviceIndex staged }

/-- What is staged for a device. -/
def stagedAt (b : Workbench) (deviceIndex : ℤ) : List Byte := (b.staged.lookup deviceIndex).getD []

variable (models : List (Option BSDLDevice)) (deviceIndex : ℤ)

/-- Look at the pins of a device. -/
def sample : Method Workbench (Except String ScanResult) := fun b =>
  match modelAt models deviceIndex with
  | none => some (.error "BSDL not loaded", b)
  | some dev =>
    match dev.sampleOpcode with
    | none => some (.error "SAMPLE instruction not found in BSDL", b)
    | some _ => some (.ok (decodeBoundaryScan dev (b.seen deviceIndex)), b.access deviceIndex BoundaryDevice.sampled)

/-- Stage what is seen of the pins, or the safe values if nothing can be. -/
def capture (b : Workbench) : Workbench :=
  match modelAt models deviceIndex with
  | none => b.stageAs deviceIndex []
  | some dev =>
    match dev.sampleOpcode with
    | none => b.stageAs deviceIndex (initBsrFromSafeValues dev)
    | some _ =>
      (b.access deviceIndex BoundaryDevice.sampled).stageAs deviceIndex (applyBsrSnapshot dev (b.seen deviceIndex))

/-- Only a device that may be driven is. -/
def guarded (body : BSDLDevice → Method Workbench (Except String Unit)) : Method Workbench (Except String Unit) := fun b =>
  match modelAt models deviceIndex with
  | none => some (.error "Driver not ready", b)
  | some dev => if (deviceAllowsLiveExtest dev).1 then body dev b else some (.error liveReason, b)

/-- Change what is staged. -/
def stage (f : List Byte → Except String (List Byte)) : Method Workbench (Except String Unit) := fun b =>
  match f (b.stagedAt deviceIndex) with
  | .error e => some (.error e, b)
  | .ok staged => some (.ok (), b.stageAs deviceIndex staged)

def setPin (pinName : Text) (value : ℤ) : Method Workbench (Except String Unit) :=
  guarded models deviceIndex fun dev => stage deviceIndex fun staged => stagePinOutput staged dev pinName value

def setPinHighZ (pinName : Text) : Method Workbench (Except String Unit) :=
  guarded models deviceIndex fun dev => stage deviceIndex fun staged => stagePinHighZ staged dev pinName

/-- Drive the pins with what is staged. -/
def applyOutputs : Method Workbench (Except String Unit) :=
  guarded models deviceIndex fun dev b =>
    match dev.extestOpcode with
    | none => some (.error "EXTEST instruction not found in BSDL", b)
    | some _ =>
      let outputs := bits (b.stagedAt deviceIndex) dev.boundaryLength
      some (.ok (), b.access deviceIndex fun d => d.driveWith outputs)

def resetToSafe (b : Workbench) : Workbench :=
  match modelAt models deviceIndex with
  | none => b
  | some dev => b.stageAs deviceIndex (initBsrFromSafeValues dev)

end Workbench

/-! ### The chain -/

/-- A chain at rest connects devices with these models. -/
structure Wired (models : List (Option BSDLDevice)) (c : JtagChain (List (Device BoundaryDevice)))
    (devices : List BoundaryDevice) : Prop where
  /-- The chain is at rest. -/
  rest : c.tap.AtRest
  /-- The host knows the lengths of the instruction registers. -/
  widths : c.KnowsWidths BoundaryDevice.logic
  /-- The models are loaded. -/
  loaded : c.devices.map ChainDevice.bsdl = models
  /-- The devices. -/
  cores : c.tap.cores = devices
  /-- The models describe them. -/
  describes : ∀ (k : ℕ) (dev : BSDLDevice) (d : BoundaryDevice), models[k]? = some (some dev) → devices[k]? = some d →
    Describes dev d.spec

section

variable {models : List (Option BSDLDevice)} {deviceIndex : ℤ} {c : JtagChain (List (Device BoundaryDevice))}
  {devices : List BoundaryDevice} {dev : BSDLDevice}

theorem Wired.bsdl (h : Wired models c devices) (deviceIndex : ℤ) :
    (c.deviceAt deviceIndex).bind ChainDevice.bsdl = modelAt models deviceIndex := by
  unfold JtagChain.deviceAt modelAt
  rw [← h.loaded, List.getElem?_map]
  split
  · cases c.devices[deviceIndex.toNat]? <;> rfl
  · rfl

theorem exists_of_modelAt (h : modelAt models deviceIndex = some dev) :
    ∃ k : ℕ, deviceIndex = k ∧ models[k]? = some (some dev) := by
  unfold modelAt at h
  split at h
  case isTrue hn => exact ⟨deviceIndex.toNat, (Int.toNat_of_nonneg hn).symm, Option.join_eq_some_iff.mp h⟩
  case isFalse => cases h

/-- A device with a model is attached to the chain. -/
theorem Wired.attached (h : Wired models c devices) {k : ℕ} (hm : models[k]? = some (some dev)) :
    ∃ d, devices[k]? = some d ∧ Attached c k dev d := by
  have hloaded := hm
  rw [← h.loaded, List.getElem?_map] at hloaded
  obtain ⟨cd, hcd, hb⟩ := Option.map_eq_some_iff.mp hloaded
  obtain ⟨hk, -⟩ := List.getElem?_eq_some_iff.mp hcd
  have hk' : k < devices.length := by rwa [← h.cores, ← h.widths.length]
  refine ⟨devices[k], List.getElem?_eq_getElem hk', h.rest, h.widths, ?_, ?_, ?_⟩
  · rw [hcd, Option.bind_some, hb]
  · rw [h.cores, List.getElem?_eq_getElem hk']
  · exact h.describes k dev _ hm (List.getElem?_eq_getElem hk')

/-! ### Accesses -/

theorem zipWith_mapIdx {α β γ : Type} (f : α → β → γ) (g : ℕ → α → β) (l : List α) :
    List.zipWith f l (l.mapIdx g) = l.mapIdx fun i a => f a (g i a) := by
  apply List.ext_getElem
  · simp
  · simp

/-- An instruction is loaded into a device, and BYPASS into the others. -/
theorem Attached.cores_selectInstruction {d : BoundaryDevice} {k : ℕ} (h : Attached c k dev d) {op : BitVec 32}
    {tap : TapController (List (Device BoundaryDevice))}
    (e : JtagChain.selectInstruction (Target.chain BoundaryDevice.logic) k op c = some (true, { c with tap })) :
    tap.cores = c.tap.cores.mapIdx fun i d => d.updateIr
      (if i = k then (List.range d.spec.irWidth).map op.getLsbD else List.replicate d.spec.irWidth true) := by
  obtain ⟨tap', e', -, hcores⟩ :=
    JtagChain.selectInstruction_rest BoundaryDevice.logic h.rest h.widths h.lt_devices op
  obtain rfl : tap' = tap := congrArg (fun r => r.2.tap) (Option.some.inj (e'.symm.trans e))
  have hplaced : placed k op c.devices = c.tap.cores.mapIdx fun i d =>
      if i = k then (List.range d.spec.irWidth).map op.getLsbD else List.replicate d.spec.irWidth true := by
    apply List.ext_getElem
    · rw [placed, List.length_mapIdx, List.length_mapIdx, h.widths.length]
    · intro i h₁ h₂
      have hi : i < c.devices.length := by rwa [placed, List.length_mapIdx] at h₁
      have hi' : i < c.tap.cores.length := by rwa [List.length_mapIdx] at h₂
      simp only [placed, List.getElem_mapIdx, h.irLength_eq hi hi']
  rw [hcores, hplaced, zipWith_mapIdx]
  rfl

theorem lanes_eq_mapIdx (cores : List BoundaryDevice) (k : ℕ) (b : List Bool) :
    lanes cores.length k b = cores.mapIdx fun i _ => if i = k then b else [false] := by
  apply List.ext_getElem
  · simp
  · intro i h₁ h₂
    rw [getElem_lanes, List.getElem_mapIdx]

/-- Idle cycles leave the devices as they are. -/
theorem Attached.cores_clkIdle {d : BoundaryDevice} {k : ℕ} (h : Attached c k dev d) {cycles : ℕ}
    {tap : TapController (List (Device BoundaryDevice))}
    (e : JtagChain.onTap (TapController.clkIdle (Target.chain BoundaryDevice.logic) cycles) c = some (true, { c with tap })) :
    tap.cores = c.tap.cores := by
  obtain ⟨tap', e', -, hcores, -⟩ := h.rest.clkIdle BoundaryDevice.logic cycles
  obtain rfl : tap' = tap := congrArg (fun r => r.2.tap) (Option.some.inj ((JtagChain.onTap_of_eq e').symm.trans e))
  exact hcores

/-- The boundary register of a device is read, and the others are shifted through. -/
theorem Attached.cores_readBSR {d : BoundaryDevice} {k : ℕ} (h : Attached c k dev d) (hb : Bypassed k c.tap.cores)
    (hd : d.Boundary) {tap : TapController (List (Device BoundaryDevice))} {raw : List Byte}
    (e : JtagChain.readBSR (Target.chain BoundaryDevice.logic) k [] 0 c = some ((true, raw), { c with tap })) :
    tap.cores = c.tap.cores.mapIdx fun i d =>
      d.updateDr (if i = k then List.replicate dev.boundaryLength false else [false]) := by
  obtain ⟨tap', e', -, hcores⟩ := JtagChain.readBSR_captured BoundaryDevice.logic h.rest h.widths.length h.lt_devices
    (h.bsdl_getElem h.lt_devices) (by rw [h.describes.boundary]; exact h.describes.cell) (h.selects hb hd)
  obtain rfl : tap' = tap := congrArg (fun r => r.2.tap) (Option.some.inj (e'.symm.trans e))
  rw [hcores, h.widths.length, lanes_eq_mapIdx, zipWith_mapIdx]
  rfl

/-- It is written. -/
theorem Attached.cores_writeBSR {d : BoundaryDevice} {k : ℕ} (h : Attached c k dev d) (hb : Bypassed k c.tap.cores)
    (hd : d.Boundary) {data : List Byte} (hl : bytesFor dev.boundaryLength ≤ data.length)
    {tap : TapController (List (Device BoundaryDevice))}
    (e : JtagChain.writeBSR (Target.chain BoundaryDevice.logic) k data dev.boundaryLength c = some (true, { c with tap })) :
    tap.cores = c.tap.cores.mapIdx fun i d => d.updateDr (if i = k then bits data dev.boundaryLength else [false]) := by
  have hroom : dev.boundaryLength ≤ 8 * data.length := by
    have := le_bytesFor dev.boundaryLength
    omega
  obtain ⟨tap', e', -, hcores⟩ := JtagChain.writeBSR_rest BoundaryDevice.logic h.rest h.widths.length h.lt_devices hroom
    (by rw [h.describes.boundary]; exact h.describes.cell) (h.selects hb hd)
  obtain rfl : tap' = tap := congrArg (fun r => r.2.tap) (Option.some.inj (e'.symm.trans e))
  rw [hcores, h.widths.length, lanes_eq_mapIdx, zipWith_mapIdx]
  rfl

/-- An access is two updates of every device. -/
theorem updates_eq_access {k : ℕ} {d : BoundaryDevice} (hd : devices[k]? = some d) {f : BoundaryDevice → BoundaryDevice}
    {ir : BoundaryDevice → List Bool} {dr : List Bool} (hf : (d.updateIr (ir d)).updateDr dr = f d) :
    ((devices.mapIdx fun i d => d.updateIr (if i = k then ir d else List.replicate d.spec.irWidth true)).mapIdx fun i d =>
      d.updateDr (if i = k then dr else [false])) = access k f devices := by
  rw [List.mapIdx_mapIdx, access]
  apply List.ext_getElem
  · simp
  · intro i h₁ h₂
    rw [List.getElem_mapIdx, List.getElem_mapIdx]
    simp only [Function.comp]
    by_cases hik : i = k
    · subst hik
      have hi : i < devices.length := by rwa [List.length_mapIdx] at h₂
      have hget : devices[i] = d := (List.getElem?_eq_some_iff.mp hd).2
      rw [hget, if_pos rfl, if_pos rfl, if_pos rfl, hf]
    · rw [if_neg hik, if_neg hik, if_neg hik]
      rfl

/-- An access keeps what is fixed about the devices. -/
theorem getElem?_access {k i : ℕ} {f : BoundaryDevice → BoundaryDevice} (hf : ∀ d, (f d).spec = d.spec)
    {d : BoundaryDevice} (h : (access k f devices)[i]? = some d) : ∃ d₀, devices[i]? = some d₀ ∧ d.spec = d₀.spec := by
  rw [access, List.getElem?_mapIdx] at h
  obtain ⟨d₀, hd₀, rfl⟩ := Option.map_eq_some_iff.mp h
  refine ⟨d₀, hd₀, ?_⟩
  split
  · exact hf d₀
  · rfl

/-- A chain whose devices have been accessed. -/
theorem Wired.accessed (h : Wired models c devices) {k : ℕ} {d : BoundaryDevice}
    {tap : TapController (List (Device BoundaryDevice))} (ha : Attached { c with tap } k dev d)
    {f : BoundaryDevice → BoundaryDevice} (hf : ∀ d, (f d).spec = d.spec) (hcores : tap.cores = access k f devices) :
    Wired models { c with tap } (access k f devices) := by
  refine ⟨ha.rest, ha.widths, h.loaded, hcores, fun i dev d hi hd => ?_⟩
  obtain ⟨d₀, hd₀, hspec⟩ := getElem?_access hf hd
  rw [hspec]
  exact h.describes i dev d₀ hi hd₀

/-- The three calls that sample a device. -/
theorem Wired.sampled (h : Wired models c devices) {k : ℕ} (hm : models[k]? = some (some dev)) {op : BitVec 32}
    (hs : dev.sampleOpcode = some op) :
    ∃ d tap₁ tap₂ tap₃, devices[k]? = some d ∧
      JtagChain.selectInstruction (Target.chain BoundaryDevice.logic) k op c = some (true, { c with tap := tap₁ }) ∧
      JtagChain.onTap (TapController.clkIdle (Target.chain BoundaryDevice.logic) 2) { c with tap := tap₁ } =
        some (true, { c with tap := tap₂ }) ∧
      JtagChain.readBSR (Target.chain BoundaryDevice.logic) k [] 0 { c with tap := tap₂ } =
        some ((true, packBits d.seen), { c with tap := tap₃ }) ∧
      Wired models { c with tap := tap₃ } (access k BoundaryDevice.sampled devices) := by
  obtain ⟨d, hd, ha⟩ := h.attached hm
  obtain ⟨tap₁, e₁, h₁, hb₁⟩ := ha.selectInstruction op
  have hc₁ := ha.cores_selectInstruction e₁
  rw [ha.describes.sample op hs] at h₁
  obtain ⟨tap₂, e₂, h₂, hb₂⟩ := h₁.clkIdle hb₁ 2
  have hc₂ : tap₂.cores = tap₁.cores := h₁.cores_clkIdle e₂
  obtain ⟨tap₃, e₃, h₃⟩ := h₂.readBSR_inputs hb₂ (.inr rfl)
  have hc₃ := h₂.cores_readBSR hb₂ (.inr rfl) e₃
  refine ⟨d, tap₁, tap₂, tap₃, hd, e₁, e₂, e₃, h.accessed h₃ (fun _ => rfl) ?_⟩
  have hc₂' : ({ c with tap := tap₂ } : JtagChain _).tap.cores = tap₁.cores := hc₂
  rw [hc₃, hc₂', hc₁, h.cores]
  refine updates_eq_access hd ?_
  rw [ha.describes.sample op hs, ha.describes.boundary]
  rfl

/-- The two calls that drive it. -/
theorem Wired.driven (h : Wired models c devices) {k : ℕ} (hm : models[k]? = some (some dev)) {op : BitVec 32}
    (hs : dev.extestOpcode = some op) {data : List Byte} (hl : bytesFor dev.boundaryLength ≤ data.length) :
    ∃ tap₁ tap₂, JtagChain.selectInstruction (Target.chain BoundaryDevice.logic) k op c =
        some (true, { c with tap := tap₁ }) ∧
      JtagChain.writeBSR (Target.chain BoundaryDevice.logic) k data dev.boundaryLength { c with tap := tap₁ } =
        some (true, { c with tap := tap₂ }) ∧
      Wired models { c with tap := tap₂ } (access k (fun d => d.driveWith (bits data dev.boundaryLength)) devices) := by
  obtain ⟨d, hd, ha⟩ := h.attached hm
  obtain ⟨tap₁, e₁, h₁, hb₁⟩ := ha.selectInstruction op
  have hc₁ := ha.cores_selectInstruction e₁
  rw [ha.describes.extest op hs] at h₁
  obtain ⟨tap₂, e₂, h₂⟩ := h₁.writeBSR hb₁ (.inl rfl) hl
  have hc₂ := h₁.cores_writeBSR hb₁ (.inl rfl) hl e₂
  refine ⟨tap₁, tap₂, e₁, e₂, h.accessed h₂ (fun _ => rfl) ?_⟩
  have hc₁' : ({ c with tap := tap₁ } : JtagChain _).tap.cores = _ := hc₁
  rw [hc₂, hc₁', h.cores]
  refine updates_eq_access hd ?_
  rw [ha.describes.extest op hs]
  rfl

end

/-! ### Drivers -/

section

variable {models : List (Option BSDLDevice)} {i : ℤ} {others : ℤ → Option (List Byte)} {dev : BSDLDevice}

/-- A driver stands for a device on the bench. -/
structure Handles (models : List (Option BSDLDevice)) (i : ℤ) (others : ℤ → Option (List Byte))
    (pd : PinDriver (List (Device BoundaryDevice))) (b : Workbench) : Prop where
  /-- The driver is the one of the device. -/
  index : pd.deviceIndex = i
  /-- The devices are those on the bench. -/
  wired : Wired models pd.chain b.devices
  /-- What is staged is. -/
  staged : b.staged.lookup i = some pd.bsrData
  /-- It covers the boundary register. -/
  room : ∀ dev, modelAt models i = some dev → bytesFor dev.boundaryLength ≤ pd.bsrData.length
  /-- What is staged for other devices. -/
  others : ∀ j, j ≠ i → b.staged.lookup j = others j

/-- A call of the driver does what is done on the bench, and notes the error if it fails. -/
def DoneOn (models : List (Option BSDLDevice)) (i : ℤ) (m : Method (PinDriver (List (Device BoundaryDevice))) Bool)
    (n : Method Workbench (Except String Unit)) : Prop :=
  ∀ others pd b, Handles models i others pd b → ∃ ok pd' b', m pd = some (ok, pd') ∧
    n b = some (if ok then .ok () else .error pd'.lastError, b') ∧ Handles models i others pd' b'

variable {pd : PinDriver (List (Device BoundaryDevice))} {b : Workbench}

theorem Handles.bsdl (h : Handles models i others pd b) : pd.bsdl = modelAt models i := by
  rw [PinDriver.bsdl, h.index]
  exact h.wired.bsdl i

theorem Handles.bsrData_ne_nil (h : Handles models i others pd b) (hm : modelAt models i = some dev) : pd.bsrData ≠ [] := by
  have hl := h.room dev hm
  obtain ⟨k, -, hk⟩ := exists_of_modelAt hm
  obtain ⟨d, -, ha⟩ := h.wired.attached hk
  have hc := ha.describes.cell
  rw [← ha.describes.boundary] at hc
  intro hnil
  rw [hnil, bytesFor, List.length_nil] at hl
  omega

/-- The guards agree. -/
theorem doneOn_guarded {body : BSDLDevice → Method (PinDriver (List (Device BoundaryDevice))) Bool}
    {n : BSDLDevice → Method Workbench (Except String Unit)}
    (h : ∀ dev, modelAt models i = some dev → DoneOn models i (body dev) (n dev)) :
    DoneOn models i (PinDriver.guarded (Target.chain BoundaryDevice.logic) body) (Workbench.guarded models i n) := by
  intro others pd b hpd
  have hb := hpd.bsdl
  rw [Workbench.guarded]
  cases hm : modelAt models i with
  | none =>
    rw [hm] at hb
    refine ⟨false, { pd with lastError := "Driver not ready" }, b, ?_, rfl, hpd.index, hpd.wired, hpd.staged, hpd.room,
      hpd.others⟩
    unfold PinDriver.guarded
    rw [hb]
    rfl
  | some dev =>
    rw [hm] at hb
    cases hg : (deviceAllowsLiveExtest dev).1 with
    | false =>
      simp only [hg]
      exact ⟨false, _, b, PinDriver.guarded_of_blocked _ hb hg _, rfl, hpd.index, hpd.wired, hpd.staged, hpd.room, hpd.others⟩
    | true =>
      simp only [hg]
      rw [PinDriver.guarded_of_allowed _ hb hg (hpd.bsrData_ne_nil hm)]
      exact h dev hm others pd b hpd

/-- With something else staged. -/
theorem Handles.stageAs (h : Handles models i others pd b) {staged : List Byte}
    (hl : ∀ dev, modelAt models i = some dev → bytesFor dev.boundaryLength ≤ staged.length) :
    Handles models i others { pd with bsrData := staged } (b.stageAs i staged) :=
  ⟨h.index, h.wired, AList.lookup_insert _, hl, fun j hj => (AList.lookup_insert_ne hj).trans (h.others j hj)⟩

theorem doneOn_stage {f : List Byte → Except String (List Byte)}
    (hf : ∀ buf buf', f buf = .ok buf' → buf.length ≤ buf'.length) :
    DoneOn models i (PinDriver.stage f) (Workbench.stage i f) := by
  intro others pd b hpd
  have hs : b.stagedAt i = pd.bsrData := by rw [Workbench.stagedAt, hpd.staged, Option.getD_some]
  rw [PinDriver.stage, Workbench.stage, hs]
  cases he : f pd.bsrData with
  | error e => exact ⟨false, _, b, rfl, rfl, hpd.index, hpd.wired, hpd.staged, hpd.room, hpd.others⟩
  | ok buf => exact ⟨true, _, _, rfl, rfl, hpd.stageAs fun dev hm => (hpd.room dev hm).trans (hf _ _ he)⟩

theorem doneOn_setPin (pinName : Text) (value : ℤ) :
    DoneOn models i (PinDriver.setPin (Target.chain BoundaryDevice.logic) pinName value)
      (Workbench.setPin models i pinName value) :=
  doneOn_guarded fun _ _ => doneOn_stage fun _ _ he => length_le_stagePinOutput he

theorem doneOn_setPinHighZ (pinName : Text) :
    DoneOn models i (PinDriver.setPinHighZ (Target.chain BoundaryDevice.logic) pinName)
      (Workbench.setPinHighZ models i pinName) :=
  doneOn_guarded fun _ _ => doneOn_stage fun _ _ he => length_le_stagePinHighZ he

theorem doneOn_applyOutputs :
    DoneOn models i (PinDriver.applyOutputs (Target.chain BoundaryDevice.logic)) (Workbench.applyOutputs models i) := by
  refine doneOn_guarded fun dev hm others pd b hpd => ?_
  unfold PinDriver.driveOutputs
  cases hs : dev.extestOpcode with
  | none =>
    exact ⟨false, { pd with lastError := "EXTEST instruction not found in BSDL" }, b, rfl, rfl, hpd.index, hpd.wired,
      hpd.staged, hpd.room, hpd.others⟩
  | some op =>
    obtain ⟨k, hik, hk⟩ := exists_of_modelAt hm
    obtain ⟨tap₁, tap₂, e₁, e₂, hw⟩ := hpd.wired.driven hk hs (hpd.room dev hm)
    have e₁' := onChain_of_eq pd e₁
    have e₂' := onChain_of_eq { pd with chain := { pd.chain with tap := tap₁ } } e₂
    refine ⟨true, { pd with chain := { pd.chain with tap := tap₂ } }, _, ?_, rfl, hpd.index, ?_, hpd.staged, hpd.room,
      hpd.others⟩
    · simp only [hpd.index, hik]
      rw [Method.bind_of_eq _ e₁', if_pos rfl, Method.bind_of_eq _ e₂', if_pos rfl, Method.pure_apply]
    · rw [Workbench.stagedAt, hpd.staged, Option.getD_some, Workbench.access, hik, Int.toNat_natCast]
      exact hw

theorem Handles.resetToSafe (h : Handles models i others pd b) :
    Handles models i others pd.resetToSafe (b.resetToSafe models i) := by
  unfold PinDriver.resetToSafe PinDriver.initBsrFromSafe Workbench.resetToSafe
  rw [h.bsdl]
  cases hm : modelAt models i with
  | none => exact h
  | some dev =>
    refine h.stageAs fun dev' hm' => ?_
    obtain rfl : dev = dev' := Option.some.inj (hm.symm.trans hm')
    exact bytesFor_le_safeValues dev

/-- With something else on the chain and the bench. -/
theorem Handles.rewired {b' : Workbench} (h : Handles models i others pd b)
    {chain : JtagChain (List (Device BoundaryDevice))} (hw : Wired models chain b'.devices) (hs : b'.staged = b.staged) :
    Handles models i others { pd with chain } b' :=
  ⟨h.index, hw, hs ▸ h.staged, h.room, fun j hj => hs ▸ h.others j hj⟩

/-- Without a SAMPLE opcode a new driver stages the safe values. -/
theorem create_none {c : JtagChain (List (Device BoundaryDevice))} (hb : (c.deviceAt i).bind ChainDevice.bsdl = some dev)
    (hs : dev.sampleOpcode = none) :
    PinDriver.create (Target.chain BoundaryDevice.logic) c i =
      some ⟨⟨i, initBsrFromSafeValues dev, "SAMPLE instruction not found in BSDL"⟩, c⟩ := by
  simp only [PinDriver.create, PinDriver.isReady, PinDriver.captureCurrentState, PinDriver.bsdl, hb, hs]
  unfold PinDriver.fail PinDriver.initBsrFromSafe
  simp [PinDriver.bsdl, hb]

/-- With one it stages what it sees. -/
theorem create_some {c : JtagChain (List (Device BoundaryDevice))} (h : Wired models c b.devices) {k : ℕ}
    (hk : models[k]? = some (some dev)) {op : BitVec 32} (hs : dev.sampleOpcode = some op) :
    ∃ tap, PinDriver.create (Target.chain BoundaryDevice.logic) c k =
        some ⟨⟨k, applyBsrSnapshot dev (b.seen k), ""⟩, { c with tap }⟩ ∧
      Wired models { c with tap } (access k BoundaryDevice.sampled b.devices) := by
  obtain ⟨d, tap₁, tap₂, tap₃, hd, e₁, e₂, e₃, hw⟩ := h.sampled hk hs
  obtain ⟨d', -, ha⟩ := h.attached hk
  obtain ⟨pd₀, hpd₀⟩ : ∃ pd₀ : PinDriver (List (Device BoundaryDevice)), pd₀ = { deviceIndex := k, chain := c } :=
    ⟨_, rfl⟩
  have hb : pd₀.bsdl = some dev := by
    rw [hpd₀]
    exact bsdl_of_attached rfl ha
  have hready : pd₀.isReady = true := by rw [PinDriver.isReady, hb, Option.isSome_some]
  have hseen : b.seen k = packBits d.seen := by
    rw [Workbench.seen, Int.toNat_natCast, hd, Option.elim_some]
  have e₁' := onChain_of_eq { deviceIndex := k, chain := c } e₁
  have e₂' := onChain_of_eq { deviceIndex := k, chain := { c with tap := tap₁ } } e₂
  have e₃' := onChain_of_eq { deviceIndex := k, chain := { c with tap := tap₂ } } e₃
  have hcapture : PinDriver.captureCurrentState (Target.chain BoundaryDevice.logic) pd₀ =
      some (true, ⟨⟨k, applyBsrSnapshot dev (packBits d.seen), ""⟩, { c with tap := tap₃ }⟩) := by
    unfold PinDriver.captureCurrentState
    simp only [hb, hs]
    rw [hpd₀, Method.bind_of_eq _ e₁', if_pos rfl, Method.bind_of_eq _ e₂', Method.bind_of_eq _ e₃', if_pos rfl,
      Method.modify_bind, Method.pure_apply]
    unfold PinDriver.loadSnapshot
    rw [show PinDriver.bsdl (σ := List (Device BoundaryDevice)) ⟨⟨k, [], ""⟩, { c with tap := tap₃ }⟩ = some dev from
      hb ▸ hpd₀ ▸ rfl]
  refine ⟨tap₃, ?_, hw⟩
  rw [PinDriver.create, ← hpd₀]
  show (if pd₀.isReady = true then _ else _) = _
  rw [if_pos hready, hcapture, hseen]
  rfl

/-- A new driver has staged what is seen of the pins. -/
theorem create_handles (others : ℤ → Option (List Byte)) (i : ℤ) {c : JtagChain (List (Device BoundaryDevice))}
    (h : Wired models c b.devices)
    (hothers : ∀ j, j ≠ i → b.staged.lookup j = others j) :
    ∃ pd, PinDriver.create (Target.chain BoundaryDevice.logic) c i = some pd ∧
      Handles models i others pd (b.capture models i) := by
  have hrest : ∀ staged j, j ≠ i → (b.staged.insert i staged).lookup j = others j := fun staged j hj =>
    (AList.lookup_insert_ne hj).trans (hothers j hj)
  have hb := h.bsdl i
  unfold Workbench.capture
  cases hm : modelAt models i with
  | none =>
    rw [hm] at hb
    refine ⟨{ deviceIndex := i, chain := c }, ?_, rfl, h, AList.lookup_insert _, fun dev hm' => ?_, hrest []⟩
    · simp [PinDriver.create, PinDriver.isReady, PinDriver.bsdl, hb]
    · rw [hm] at hm'
      cases hm'
  | some dev =>
    rw [hm] at hb
    cases hs : dev.sampleOpcode with
    | none =>
      simp only [hs]
      refine ⟨_, create_none hb hs, rfl, h, AList.lookup_insert _, fun dev' hm' => ?_, hrest _⟩
      obtain rfl : dev = dev' := Option.some.inj (hm.symm.trans hm')
      exact bytesFor_le_safeValues dev
    | some op =>
      simp only [hs]
      obtain ⟨k, rfl, hk⟩ := exists_of_modelAt hm
      obtain ⟨tap, e, hw⟩ := create_some h hk hs
      refine ⟨_, e, rfl, hw, AList.lookup_insert _, fun dev' hm' => ?_, hrest _⟩
      obtain rfl : dev = dev' := Option.some.inj (hm.symm.trans hm')
      exact bytesFor_le_snapshot dev _

end

end BoundaryScan

end OwlTap
