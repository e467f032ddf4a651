import OwlTap.Mcp.WorkbenchTools

/-!
# One device drives

To access a device is to load BYPASS into the others, so EXTEST is in force in one device of a chain
at most, and only `set_pin` and `run_script` put it in force. What the tools keep is read off the bench,
where an access is one step: a property of the devices that accesses keep is kept by every tool
(`keeps_tool`), and so by every run of tools on the context (`driving_exclusive`).
-/

namespace OwlTap

namespace BoundaryDevice

/-- EXTEST is in force. -/
def InExtest (d : BoundaryDevice) : Prop := d.instruction = some d.spec.extest

theorem not_inExtest_passedOver (d : BoundaryDevice) : ¬d.passedOver.InExtest := by
  intro h
  have h' : some (List.replicate d.spec.irWidth true) = some d.spec.extest := h
  exact d.spec.extest_ne (Option.some.inj h').symm

theorem inExtest_sampled {d : BoundaryDevice} : d.sampled.InExtest ↔ d.spec.sample = d.spec.extest :=
  ⟨fun h => Option.some.inj h, fun h => congrArg some h⟩

/-- Outside EXTEST nothing is driven. -/
theorem driven_passedOver (d : BoundaryDevice) : d.passedOver.driven = d.driven := by
  have h : some (List.replicate d.spec.irWidth true) ≠ some d.spec.extest := fun e =>
    d.spec.extest_ne (Option.some.inj e).symm
  simp [passedOver, updateDr, updateIr, drive, h]

theorem driven_sampled {d : BoundaryDevice} (h : d.spec.sample ≠ d.spec.extest) : d.sampled.driven = d.driven :=
  BoundaryScan.driven_capture h _

end BoundaryDevice

namespace Mcp

open OwlTap Ftdi Bsdl Jtag BoundaryScan Hardware Script

/-! ### What the tools keep -/

/-- The device that a tool is for. -/
def PinTool.device : PinTool → ℤ
  | readPin i _ | setPin i _ _ | sampleBsr i | runScript i _ => i

/-- Whether it may drive the device. -/
def PinTool.Drives : PinTool → Prop
  | setPin _ _ _ | runScript _ _ => True
  | readPin _ _ | sampleBsr _ => False

section

variable {models : List (Option BSDLDevice)} {i : ℤ} {drives : Prop} {P : List BoundaryDevice → Prop}

/-- A property of the devices that the accesses to one of them keep. -/
structure Respects (models : List (Option BSDLDevice)) (i : ℤ) (drives : Prop) (P : List BoundaryDevice → Prop) : Prop where
  /-- When it is sampled. -/
  sampled : ∀ dev, modelAt models i = some dev → ∀ devices, P devices → P (access i.toNat BoundaryDevice.sampled devices)
  /-- When it is driven, if it is. -/
  driven : drives → ∀ dev, modelAt models i = some dev → ∀ devices outputs, P devices →
    P (access i.toNat (fun d => d.driveWith outputs) devices)

/-- The devices on the bench have a property. -/
abbrev OnBench (P : List BoundaryDevice → Prop) (b : Workbench) : Prop := P b.devices

namespace Respects

theorem keeps_sample (h : Respects models i drives P) : Method.Keeps (OnBench P) (Workbench.sample models i) := by
  intro b r b' hb e
  unfold Workbench.sample at e
  cases hm : modelAt models i with
  | none =>
    rw [hm] at e
    obtain ⟨-, rfl⟩ := Prod.mk.inj (Option.some.inj e)
    exact hb
  | some dev =>
    cases hs : dev.sampleOpcode with
    | none =>
      simp only [hm, hs] at e
      obtain ⟨-, rfl⟩ := Prod.mk.inj (Option.some.inj e)
      exact hb
    | some op =>
      simp only [hm, hs] at e
      obtain ⟨-, rfl⟩ := Prod.mk.inj (Option.some.inj e)
      exact h.sampled dev hm _ hb

theorem onBench_capture (h : Respects models i drives P) {b : Workbench} (hb : OnBench P b) :
    OnBench P (b.capture models i) := by
  unfold Workbench.capture
  cases hm : modelAt models i with
  | none => exact hb
  | some dev =>
    cases hs : dev.sampleOpcode with
    | none =>
      simp only [hs]
      exact hb
    | some op =>
      simp only [hs]
      exact h.sampled dev hm _ hb

theorem keeps_takeUp (h : Respects models i drives P) : Method.Keeps (OnBench P) (modify (takeUp models i)) := by
  refine .modify fun b hb => ?_
  unfold takeUp
  split
  · exact hb
  · exact onBench_capture h hb

theorem keeps_guarded {body : BSDLDevice → Method Workbench (Except String Unit)}
    (h : ∀ dev, modelAt models i = some dev → Method.Keeps (OnBench P) (body dev)) :
    Method.Keeps (OnBench P) (Workbench.guarded models i body) := by
  intro b r b' hb e
  unfold Workbench.guarded at e
  cases hm : modelAt models i with
  | none =>
    rw [hm] at e
    obtain ⟨-, rfl⟩ := Prod.mk.inj (Option.some.inj e)
    exact hb
  | some dev =>
    simp only [hm] at e
    split at e
    · exact h dev hm b r b' hb e
    · obtain ⟨-, rfl⟩ := Prod.mk.inj (Option.some.inj e)
      exact hb

/-- To stage is not to touch the devices. -/
theorem keeps_stage (f : List Byte → Except String (List Byte)) : Method.Keeps (OnBench P) (Workbench.stage i f) := by
  intro b r b' hb e
  unfold Workbench.stage at e
  split at e
  · obtain ⟨-, rfl⟩ := Prod.mk.inj (Option.some.inj e)
    exact hb
  · obtain ⟨-, rfl⟩ := Prod.mk.inj (Option.some.inj e)
    exact hb

theorem keeps_setPin (pinName : Text) (value : ℤ) : Method.Keeps (OnBench P) (Workbench.setPin models i pinName value) :=
  keeps_guarded fun _ _ => keeps_stage _

theorem keeps_setPinHighZ (pinName : Text) : Method.Keeps (OnBench P) (Workbench.setPinHighZ models i pinName) :=
  keeps_guarded fun _ _ => keeps_stage _

theorem keeps_applyOutputs (h : Respects models i drives P) (hd : drives) :
    Method.Keeps (OnBench P) (Workbench.applyOutputs models i) := by
  refine keeps_guarded fun dev hm b r b' hb e => ?_
  cases hs : dev.extestOpcode with
  | none =>
    simp only [hs] at e
    obtain ⟨-, rfl⟩ := Prod.mk.inj (Option.some.inj e)
    exact hb
  | some op =>
    simp only [hs] at e
    obtain ⟨-, rfl⟩ := Prod.mk.inj (Option.some.inj e)
    exact h.driven hd dev hm _ _ hb

theorem keeps_resetToSafe : Method.Keeps (OnBench P) (modify (Workbench.resetToSafe models i)) := by
  refine .modify fun b hb => ?_
  unfold Workbench.resetToSafe
  split
  · exact hb
  · exact hb

theorem keeps_workbenchHost (h : Respects models i drives P) (hd : drives) (command : Command) :
    Method.Keeps (OnBench P) ((workbenchHost models i).call command) := by
  cases command with
  | sample => exact .map _ (.map _ (keeps_sample h))
  | read pinName => exact .map _ (.map _ (keeps_sample h))
  | expect pinName expected => exact .map _ (.map _ (keeps_sample h))
  | set pinName drive =>
    cases drive with
    | value v => exact .map _ (.map _ (keeps_setPin pinName v))
    | highZ => exact .map _ (.map _ (keeps_setPinHighZ pinName))
  | highz pinName => exact .map _ (.map _ (keeps_setPinHighZ pinName))
  | apply => exact .map _ (.map _ (keeps_applyOutputs h hd))
  | sleep milliseconds => exact .map _ (.pure _)
  | resetSafe => exact Method.Keeps.bind keeps_resetToSafe fun _ => .map _ (.map _ (keeps_applyOutputs h hd))

theorem keeps_look (h : Respects models i drives P) (toJson : ScanResult → Json) :
    Method.Keeps (OnBench P) (look models i toJson) := by
  unfold look
  split
  · exact .map _ (keeps_sample h)
  · exact .pure _

theorem keeps_drivePin (h : Respects models i drives P) (hd : drives) (pinName : Text) (value : ℤ) :
    Method.Keeps (OnBench P) (drivePin models i pinName value) := by
  unfold drivePin
  split
  · refine Method.Keeps.bind (keeps_takeUp h) fun _ => ?_
    unfold applyStaged
    refine Method.Keeps.bind ?_ fun r => ?_
    · split
      · exact keeps_setPinHighZ pinName
      · exact keeps_setPin pinName value
    · cases r with
      | error e => exact .pure _
      | ok u => exact .map _ (keeps_applyOutputs h hd)
  · exact .pure _

theorem keeps_runOnWorkbench (h : Respects models i drives P) (hd : drives) (script : Text) :
    Method.Keeps (OnBench P) (runOnWorkbench models i script) := by
  unfold runOnWorkbench
  split
  · refine Method.Keeps.bind (keeps_takeUp h) fun _ => ?_
    exact Method.Keeps.bind (ScriptEngine.keeps_run (keeps_workbenchHost h hd) script) fun _ => .pure _
  · exact .pure _

end Respects

/-- What the accesses to its device keep, a tool keeps. -/
theorem keeps_tool {tool : PinTool} (h : Respects models tool.device tool.Drives P) :
    Method.Keeps (OnBench P) (tool.onWorkbench models) := by
  cases tool with
  | readPin i pinName => exact Respects.keeps_look h _
  | setPin i pinName value => exact Respects.keeps_drivePin h trivial pinName value
  | sampleBsr i => exact Respects.keeps_look h _
  | runScript i script => exact Respects.keeps_runOnWorkbench h trivial script

/-! ### What the devices keep -/

/-- The models describe the devices. -/
def Described (models : List (Option BSDLDevice)) (devices : List BoundaryDevice) : Prop :=
  ∀ (k : ℕ) (dev : BSDLDevice) (d : BoundaryDevice), models[k]? = some (some dev) → devices[k]? = some d →
    Describes dev d.spec

/-- EXTEST is in force in one device at most. -/
def OneInExtest (devices : List BoundaryDevice) : Prop :=
  ∀ (j k : ℕ) (d e : BoundaryDevice), devices[j]? = some d → devices[k]? = some e → d.InExtest → e.InExtest → j = k

/-- What the pins of a device have been driven with. -/
def drivenAt (k : ℕ) (devices : List BoundaryDevice) : Option (List (List Bool)) := devices[k]?.map BoundaryDevice.driven

variable {devices : List BoundaryDevice} {f : BoundaryDevice → BoundaryDevice} {k : ℕ}

/-- After an access EXTEST is in force in the device that was accessed, or in none. -/
theorem inExtest_access {j : ℕ} {d : BoundaryDevice} (h : (access k f devices)[j]? = some d) (hd : d.InExtest) : j = k := by
  rw [access, List.getElem?_mapIdx] at h
  obtain ⟨d₀, -, rfl⟩ := Option.map_eq_some_iff.mp h
  by_contra hne
  rw [if_neg hne] at hd
  exact d₀.not_inExtest_passedOver hd

theorem oneInExtest_access : OneInExtest (access k f devices) := fun _ _ _ _ hj hk hd he =>
  (inExtest_access hj hd).trans (inExtest_access hk he).symm

theorem described_access (hf : ∀ d, (f d).spec = d.spec) (h : Described models devices) :
    Described models (access k f devices) := by
  intro i dev d hi hd
  obtain ⟨d₀, hd₀, hspec⟩ := getElem?_access hf hd
  rw [hspec]
  exact h i dev d₀ hi hd₀

/-- An access drives the device that is accessed only. -/
theorem drivenAt_access {j : ℕ} (h : j = k → ∀ d, devices[j]? = some d → (f d).driven = d.driven) :
    drivenAt j (access k f devices) = drivenAt j devices := by
  rw [drivenAt, drivenAt, access, List.getElem?_mapIdx, Option.map_map]
  cases hd : devices[j]? with
  | none => rfl
  | some d =>
    simp only [Option.map_some, Function.comp, Option.some.injEq]
    split
    · rename_i hjk
      exact h hjk d hd
    · exact d.driven_passedOver

/-- A sample drives nothing. -/
theorem drivenAt_sampled (h : Described models devices) {dev : BSDLDevice} (hm : modelAt models i = some dev) (j : ℕ) :
    drivenAt j (access i.toNat BoundaryDevice.sampled devices) = drivenAt j devices := by
  refine drivenAt_access fun hj d hd => BoundaryDevice.driven_sampled ?_
  obtain ⟨n, rfl, hn⟩ := exists_of_modelAt hm
  rw [Int.toNat_natCast] at hj
  exact (h n dev d hn (hj ▸ hd)).ne

theorem respects_oneInExtest : Respects models i drives OneInExtest :=
  ⟨fun _ _ _ _ => oneInExtest_access, fun _ _ _ _ _ _ => oneInExtest_access⟩

/-- A device that is not driven has been driven with what it was driven with before. -/
theorem respects_drivenAt {j : ℕ} (hj : drives → i ≠ j) (x : Option (List (List Bool))) :
    Respects models i drives fun devices => Described models devices ∧ drivenAt j devices = x where
  sampled dev hm devices h :=
    ⟨described_access (fun _ => rfl) h.1, (drivenAt_sampled h.1 hm j).trans h.2⟩
  driven hd dev hm devices outputs h := by
    refine ⟨described_access (fun _ => rfl) h.1, (drivenAt_access fun hjk => ?_).trans h.2⟩
    obtain ⟨n, rfl, -⟩ := exists_of_modelAt hm
    rw [Int.toNat_natCast] at hjk
    exact absurd (congrArg Nat.cast hjk.symm) (hj hd)

/-- EXTEST is not in force in a device. -/
def Released (j : ℕ) (devices : List BoundaryDevice) : Prop := ∀ d, devices[j]? = some d → ¬d.InExtest

/-- A sample releases all devices. -/
theorem released_sampled (h : Described models devices) {dev : BSDLDevice} (hm : modelAt models i = some dev) (j : ℕ) :
    Released j (access i.toNat BoundaryDevice.sampled devices) := by
  intro d hd hex
  obtain ⟨n, rfl, hn⟩ := exists_of_modelAt hm
  rw [Int.toNat_natCast] at hd
  obtain rfl := inExtest_access hd hex
  rw [access, List.getElem?_mapIdx] at hd
  obtain ⟨d₀, hd₀, rfl⟩ := Option.map_eq_some_iff.mp hd
  rw [if_pos rfl] at hex
  exact (h j dev d₀ hn hd₀).ne (BoundaryDevice.inExtest_sampled.mp hex)

/-- A device that is not driven does not get EXTEST. -/
theorem respects_released {j : ℕ} (hj : drives → i ≠ j) :
    Respects models i drives fun devices => Described models devices ∧ Released j devices where
  sampled dev hm devices h := ⟨described_access (fun _ => rfl) h.1, released_sampled h.1 hm j⟩
  driven hd dev hm devices outputs h := by
    refine ⟨described_access (fun _ => rfl) h.1, fun d hget hex => ?_⟩
    obtain ⟨n, rfl, -⟩ := exists_of_modelAt hm
    have hjn := inExtest_access hget hex
    rw [Int.toNat_natCast] at hjn
    exact hj hd (congrArg Nat.cast hjn.symm)

/-- A look that shows something leaves EXTEST in force nowhere. -/
theorem look_releases {b b' : Workbench} (h : Described models b.devices) {toJson : ScanResult → Json} {r : Response}
    (e : look models i toJson b = some (r, b')) (hr : r.isOk = true) : ∀ d ∈ b'.devices, ¬d.InExtest := by
  unfold look at e
  split at e
  case isFalse =>
    obtain ⟨rfl, -⟩ := Prod.mk.inj (Option.some.inj e)
    cases hr
  case isTrue =>
    rw [map_eq_pure_bind] at e
    obtain ⟨r', b₁, es, e⟩ := Method.bind_eq_some.mp e
    obtain ⟨rfl, rfl⟩ := Prod.mk.inj (Option.some.inj e)
    unfold Workbench.sample at es
    cases hm : modelAt models i with
    | none =>
      rw [hm] at es
      obtain ⟨rfl, -⟩ := Prod.mk.inj (Option.some.inj es)
      cases hr
    | some dev =>
      cases hs : dev.sampleOpcode with
      | none =>
        simp only [hm, hs] at es
        obtain ⟨rfl, -⟩ := Prod.mk.inj (Option.some.inj es)
        cases hr
      | some op =>
        simp only [hm, hs] at es
        obtain ⟨-, rfl⟩ := Prod.mk.inj (Option.some.inj es)
        intro d hd
        obtain ⟨j, hj⟩ := List.mem_iff_getElem?.mp hd
        exact released_sampled h hm j d hj

/-! ### Runs -/

variable {ctx : HardwareContext (List (Device BoundaryDevice))} {b : Workbench}

/-- **One device drives.** After any run of the tools that use the pins, with whatever scripts, EXTEST is in force in one device
of the chain at most; the pins of a device have been driven, and EXTEST put in force in it, by `set_pin` and `run_script` for
this device only; and a `read_pin` that shows a state, for whichever device, ends EXTEST in all of them. -/
theorem driving_exclusive (h : Served models ctx b) (h₁ : OneInExtest ctx.chain.tap.cores) (preSamples : ℕ → ℕ)
    (tools : List PinTool) : ∃ responses ctx',
      tools.mapM (fun tool => tool.request.task (Target.chain BoundaryDevice.logic) preSamples) ctx = some (responses, ctx') ∧
      OneInExtest ctx'.chain.tap.cores ∧
      (∀ j : ℕ, (∀ tool ∈ tools, tool.Drives → tool.device ≠ j) →
        drivenAt j ctx'.chain.tap.cores = drivenAt j ctx.chain.tap.cores ∧
        (Released j ctx.chain.tap.cores → Released j ctx'.chain.tap.cores)) ∧
      ∀ i pinName, ∃ r ctx'',
        (PinTool.readPin i pinName).request.task (Target.chain BoundaryDevice.logic) preSamples ctx' = some (r, ctx'') ∧
        (r.isOk = true → ∀ d ∈ ctx''.chain.tap.cores, ¬d.InExtest) := by
  obtain ⟨responses, ctx', b', e, eb, h'⟩ := Method.Simulates.mapM (simulates_tool preSamples) tools ctx b h
  rw [h.wired.cores] at h₁ ⊢
  refine ⟨responses, ctx', e, ?_, fun j hj => ?_, fun i pinName => ?_⟩
  · rw [h'.wired.cores]
    exact Method.Keeps.mapM (fun tool _ => keeps_tool respects_oneInExtest) b responses b' h₁ eb
  · rw [h'.wired.cores]
    refine ⟨?_, fun hr => ?_⟩
    · exact (Method.Keeps.mapM (fun tool ht => keeps_tool (respects_drivenAt (hj tool ht) _)) b responses b'
        ⟨h.wired.describes, rfl⟩ eb).2
    · exact (Method.Keeps.mapM (fun tool ht => keeps_tool (respects_released (hj tool ht))) b responses b'
        ⟨h.wired.describes, hr⟩ eb).2
  · obtain ⟨r, ctx'', b'', e₂, eb₂, h''⟩ := simulates_tool preSamples (.readPin i pinName) ctx' b' h'
    refine ⟨r, ctx'', e₂, fun hr => ?_⟩
    rw [h''.wired.cores]
    exact look_releases h'.wired.describes eb₂ hr

end

/-- In two lamps that are off, whatever is done with the first, the second is not driven. -/
theorem driving_exclusive_lamps : ∃ responses ctx',
    lampTools.mapM (fun tool => tool.request.task (Target.chain BoundaryDevice.logic) id) lampPair =
      some (responses, ctx') ∧
    OneInExtest ctx'.chain.tap.cores ∧
    (∀ j : ℕ, (∀ tool ∈ lampTools, tool.Drives → tool.device ≠ j) →
      drivenAt j ctx'.chain.tap.cores = drivenAt j lampPair.chain.tap.cores ∧
      (Released j lampPair.chain.tap.cores → Released j ctx'.chain.tap.cores)) ∧
    ∀ i pinName, ∃ r ctx'',
      (PinTool.readPin i pinName).request.task (Target.chain BoundaryDevice.logic) id ctx' = some (r, ctx'') ∧
      (r.isOk = true → ∀ d ∈ ctx''.chain.tap.cores, ¬d.InExtest) := by
  refine driving_exclusive lampPair_served ?_ id lampTools
  intro j k d e hj _ hd _
  have hmem : d ∈ [BoundaryDevice.powered lampSpec, BoundaryDevice.powered lampSpec] := List.mem_of_getElem? hj
  obtain rfl : d = BoundaryDevice.powered lampSpec := by simpa using hmem
  cases hd

end Mcp

end OwlTap
