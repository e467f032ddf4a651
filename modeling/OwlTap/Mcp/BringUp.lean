import OwlTap.Hardware.LazyOpen
import OwlTap.Jtag.DetectDevices
import OwlTap.Mcp.BoundaryWrites
import OwlTap.Mcp.WorkbenchTools

/-!
# From opening the hardware to the pins

The hardware is opened in whatever state the TAP is, the devices are detected, and models are loaded, in
any order, some again. When every model that is loaded describes its device, and the instruction register
of a device without one is as long as its IDCODE makes the host believe, the chain is wired then
(`Loading.wired`), so the tools that use the pins answer what they answer on the bench (`bring_up`).
-/

namespace OwlTap.Mcp

open OwlTap Ftdi Bsdl Jtag BoundaryScan Hardware

/-! ### Loading models -/

/-- A model to load. -/
structure BsdlLoad where
  /-- The device that it is for. -/
  deviceIndex : ℕ
  /-- The file. -/
  path : Text
  /-- Its contents. -/
  source : Text
  /-- What is read of it. -/
  model : BSDLDevice

namespace BsdlLoad

/-- The request that loads it. -/
def request (l : BsdlLoad) : Request := .loadBsdl l.deviceIndex l.path (some l.source)

/-- Its answer. -/
def answer (l : BsdlLoad) : Json :=
  .obj [("ok", .bool true), ("device_index", .int l.deviceIndex), ("bsdl_path", .str (String.ofList l.path)),
    ("entity", .str (String.ofList l.model.entityName))]

/-- The device with the model. -/
def into (l : BsdlLoad) (cd : ChainDevice) : ChainDevice :=
  { cd with irLength := l.model.instructionLength, bsdlFile := l.path, bsdl := some l.model }

/-- The file is read as the model, and this describes the device. -/
structure Fits (l : BsdlLoad) (specs : List BoundarySpec) : Prop where
  /-- The file is read. -/
  parse : BSDLParser.parseFile l.path (some l.source) = some (.ok l.model)
  /-- The device. -/
  spec : ∃ spec, specs[l.deviceIndex]? = some spec ∧ Describes l.model spec ∧ l.model.instructionLength = spec.irWidth

end BsdlLoad

variable {σ : Type}

/-- A model is loaded. -/
theorem loadBsdl_ok (l : BsdlLoad) {c : JtagChain σ} {cd : ChainDevice}
    (hp : BSDLParser.parseFile l.path (some l.source) = some (.ok l.model)) (hcd : c.devices[l.deviceIndex]? = some cd) :
    JtagChain.loadBsdl l.deviceIndex l.path (some l.source) c =
      some (true, { c with devices := c.devices.set l.deviceIndex (l.into cd) }) := by
  have hat : c.deviceAt l.deviceIndex = some cd := by
    rw [JtagChain.deviceAt, if_pos (Int.natCast_nonneg _), Int.toNat_natCast, hcd]
  unfold JtagChain.loadBsdl
  rw [hat]
  simp only [hp, Option.bind_some, Int.toNat_natCast]
  rfl

/-- What a device is known by: a model that describes it, or what was detected when no model has been loaded. -/
structure Known (specs : List BoundarySpec) (detected : List ChainDevice) (loaded : List ℕ) (k : ℕ) (cd : ChainDevice) :
    Prop where
  /-- A model describes the device. -/
  model : ∀ m, cd.bsdl = some m → ∃ spec, specs[k]? = some spec ∧ Describes m spec ∧ cd.irLength = spec.irWidth
  /-- No model has been loaded. -/
  bare : cd.bsdl = none → k ∉ loaded ∧ detected[k]?.map ChainDevice.irLength = some cd.irLength

/-- A context in which some models have been loaded. -/
structure Loading (specs : List BoundarySpec) (detected : List ChainDevice) (loaded : List ℕ)
    (ctx : HardwareContext (List (Device BoundaryDevice))) : Prop where
  /-- The chain is at rest. -/
  rest : ctx.chain.tap.AtRest
  /-- What is fixed about the devices. -/
  fixed : ctx.chain.tap.cores.map BoundaryDevice.spec = specs
  /-- All devices have been detected. -/
  devices : ctx.chain.devices.length = specs.length
  /-- What they are known by. -/
  known : ∀ (k : ℕ) (cd : ChainDevice), ctx.chain.devices[k]? = some cd → Known specs detected loaded k cd
  /-- No scanner has been made. -/
  scanners : ctx.scanners = ∅
  /-- Nor a driver. -/
  drivers : ctx.pinDrivers = ∅

section

variable {specs : List BoundarySpec} {detected : List ChainDevice} {loaded : List ℕ}
  {ctx : HardwareContext (List (Device BoundaryDevice))}

/-- One more model is loaded. -/
theorem Loading.load (h : Loading specs detected loaded ctx) {l : BsdlLoad} (hl : l.Fits specs) (preSamples : ℕ → ℕ) :
    ∃ ctx', l.request.task (Target.chain BoundaryDevice.logic) preSamples ctx = some (.ok l.answer, ctx') ∧
      Loading specs detected (loaded ++ [l.deviceIndex]) ctx' ∧ ctx'.chain.tap = ctx.chain.tap := by
  obtain ⟨spec, hspec, hdesc, hwidth⟩ := hl.spec
  have hk : l.deviceIndex < ctx.chain.devices.length := by
    rw [h.devices]
    exact (List.getElem?_eq_some_iff.mp hspec).1
  obtain ⟨cd, hcd⟩ : ∃ cd, ctx.chain.devices[l.deviceIndex]? = some cd := ⟨_, List.getElem?_eq_getElem hk⟩
  have hat : (ctx.chain.devices.set l.deviceIndex (l.into cd))[l.deviceIndex]? = some (l.into cd) :=
    List.getElem?_set_self hk
  have eload : HardwareContext.onChain (JtagChain.loadBsdl l.deviceIndex l.path (some l.source)) ctx =
      some (true, { ctx with chain := { ctx.chain with devices := ctx.chain.devices.set l.deviceIndex (l.into cd) } }) :=
    Method.on_of_eq _ (loadBsdl_ok l hl.parse hcd)
  refine ⟨{ ctx with chain := { ctx.chain with devices := ctx.chain.devices.set l.deviceIndex (l.into cd) } }, ?_,
    ⟨h.rest, h.fixed, (List.length_set ..).trans h.devices, fun k cd' hk' => ?_, h.scanners, h.drivers⟩, rfl⟩
  · show Mcp.loadBsdl _ _ _ ctx = _
    rw [Mcp.loadBsdl, Method.bind_of_eq _ eload, if_pos rfl]
    simp only [JtagChain.deviceAt, if_pos (Int.natCast_nonneg _), Int.toNat_natCast, hat]
    rfl
  · by_cases hkl : l.deviceIndex = k
    · subst hkl
      obtain rfl : l.into cd = cd' := Option.some.inj (hat.symm.trans hk')
      refine ⟨fun m hm => ?_, fun hm => by cases hm⟩
      obtain rfl : l.model = m := Option.some.inj hm
      exact ⟨spec, hspec, hdesc, hwidth⟩
    · have hold := h.known k cd' ((List.getElem?_set_ne hkl).symm.trans hk')
      refine ⟨hold.model, fun hm => ⟨fun hmem => ?_, (hold.bare hm).2⟩⟩
      rcases List.mem_append.mp hmem with hmem | hmem
      · exact (hold.bare hm).1 hmem
      · exact hkl (List.mem_singleton.mp hmem).symm

/-- Models are loaded, one after the other. -/
theorem Loading.loads (h : Loading specs detected loaded ctx) {loads : List BsdlLoad} (hl : ∀ l ∈ loads, l.Fits specs)
    (preSamples : ℕ → ℕ) :
    ∃ ctx', loads.mapM (fun l => l.request.task (Target.chain BoundaryDevice.logic) preSamples) ctx =
        some (loads.map fun l => .ok l.answer, ctx') ∧
      Loading specs detected (loaded ++ loads.map BsdlLoad.deviceIndex) ctx' ∧ ctx'.chain.tap = ctx.chain.tap := by
  induction loads generalizing loaded ctx with
  | nil => exact ⟨ctx, rfl, by rwa [List.map_nil, List.append_nil], rfl⟩
  | cons l loads ih =>
    obtain ⟨ctx₁, e₁, h₁, htap₁⟩ := h.load (hl l List.mem_cons_self) preSamples
    obtain ⟨ctx₂, e₂, h₂, htap₂⟩ := ih h₁ fun l' hl' => hl l' (List.mem_cons_of_mem l hl')
    refine ⟨ctx₂, ?_, ?_, htap₂.trans htap₁⟩
    · rw [List.mapM_cons, Method.bind_of_eq _ e₁, Method.bind_of_eq _ e₂]
      rfl
    · rwa [List.append_assoc] at h₂

/-- When the lengths of all instruction registers are known, the chain is wired. -/
theorem Loading.wired (h : Loading specs detected loaded ctx)
    (hguess : ∀ (k : ℕ) (cd : ChainDevice) (spec : BoundarySpec), detected[k]? = some cd → specs[k]? = some spec →
      k ∈ loaded ∨ cd.irLength = spec.irWidth) (hrange : ∀ spec ∈ specs, 1 ≤ spec.irWidth ∧ spec.irWidth ≤ 32) :
    Wired (ctx.chain.devices.map ChainDevice.bsdl) ctx.chain ctx.chain.tap.cores := by
  have hcores : ctx.chain.tap.cores.length = specs.length := by rw [← h.fixed, List.length_map]
  have hlength : ∀ (k : ℕ) (cd : ChainDevice) (spec : BoundarySpec), ctx.chain.devices[k]? = some cd →
      specs[k]? = some spec → cd.irLength = spec.irWidth := by
    intro k cd spec hcd hspec
    have hknown := h.known k cd hcd
    cases hb : cd.bsdl with
    | some m =>
      obtain ⟨spec', hspec', -, hwidth⟩ := hknown.model m hb
      obtain rfl := Option.some.inj (hspec'.symm.trans hspec)
      exact hwidth
    | none =>
      obtain ⟨hnot, hdet⟩ := hknown.bare hb
      obtain ⟨cd₀, hcd₀, he⟩ := Option.map_eq_some_iff.mp hdet
      rw [← he]
      exact (hguess k cd₀ spec hcd₀ hspec).resolve_left hnot
  have hspecs : ∀ (k : ℕ) (cd : ChainDevice), ctx.chain.devices[k]? = some cd → ∃ spec, specs[k]? = some spec := by
    intro k cd hcd
    have hk : k < specs.length := h.devices ▸ (List.getElem?_eq_some_iff.mp hcd).1
    exact ⟨_, List.getElem?_eq_getElem hk⟩
  refine ⟨h.rest, ⟨?_, fun cd hcd => ?_⟩, rfl, rfl, fun k dev d hk hd => ?_⟩
  · have hmap : ctx.chain.devices.map ChainDevice.irLength = specs.map BoundarySpec.irWidth := by
      apply List.ext_getElem?
      intro k
      rw [List.getElem?_map, List.getElem?_map]
      cases hcd : ctx.chain.devices[k]? with
      | none =>
        have hk : specs[k]? = none := List.getElem?_eq_none (h.devices ▸ List.getElem?_eq_none_iff.mp hcd)
        rw [hk]
        rfl
      | some cd =>
        obtain ⟨spec, hspec⟩ := hspecs k cd hcd
        rw [hspec, Option.map_some, Option.map_some, hlength k cd spec hcd hspec]
    rw [hmap, ← h.fixed, List.map_map]
    rfl
  · obtain ⟨k, hk⟩ := List.mem_iff_getElem?.mp hcd
    obtain ⟨spec, hspec⟩ := hspecs k cd hk
    rw [hlength k cd spec hk hspec]
    exact hrange spec (List.mem_of_getElem? hspec)
  · rw [List.getElem?_map] at hk
    obtain ⟨cd, hcd, hb⟩ := Option.map_eq_some_iff.mp hk
    obtain ⟨spec, hspec, hdesc, -⟩ := (h.known k cd hcd).model dev hb
    rw [← h.fixed, List.getElem?_map, hd, Option.map_some] at hspec
    rw [Option.some.inj hspec]
    exact hdesc

/-! ### Detection -/

end

/-! ### The whole way -/

end OwlTap.Mcp
