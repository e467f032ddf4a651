import OwlTap.Base.BoundaryDevice
import OwlTap.Base.Steps
import OwlTap.BoundaryScan.StagedWrites
import OwlTap.Jtag.RestingChain
import OwlTap.Mcp.FilterHistory

/-!
# What requests write to the boundary register

`set_pin` and `run_script` write the boundary register of a device with the staging buffer of its
driver, which the context keeps from one request to the next. `load_bsdl` replaces the model of the
device and leaves the driver, so the buffer is up to date whenever it is written, unless a model was
replaced while a driver held a buffer that was staged from it (`current_of_reached`).
-/

namespace OwlTap.Mcp

open OwlTap Ftdi Bsdl Jtag BoundaryScan Hardware Script

variable {σ : Type} {T : Target σ}

/-! ### The writes of a request -/

variable (T) in
/-- The driver once `set_pin` has staged the pin, if it comes to that. -/
def stagedPin (deviceIndex : ℤ) (pinName : Text) (value : ℤ) (ctx : HardwareContext σ) : Option (PinDriver σ) := do
  let (.ok data, ctx) ← HardwareContext.pinDriver T deviceIndex ctx | none
  let (true, pd) ← (if value < 0 then PinDriver.setPinHighZ T pinName else PinDriver.setPin T pinName value)
    { data with chain := ctx.chain } | none
  pure pd

variable (T) in
/-- The call of `writeBSR` that a command of a script makes. -/
def McpScriptHost.writeCall (h : McpScriptHost σ) : Command → Option BsrWrite
  | .apply => PinDriver.writeCall T { h.driver with chain := h.chain }
  | .resetSafe => PinDriver.writeCall T (PinDriver.resetToSafe { h.driver with chain := h.chain })
  | _ => none

variable (T) in
/-- The calls of `writeBSR` that a request makes; only pins that are set lead to one. -/
def Request.writes (ctx : HardwareContext σ) : Request → List BsrWrite
  | .setPin deviceIndex pinName value => ((stagedPin T deviceIndex pinName value ctx).bind (PinDriver.writeCall T)).toList
  | .runScript deviceIndex script =>
    match McpScriptHost.open T deviceIndex ctx with
    | some (.ok h, _) => (performed (McpScriptHost.host T) (statements script) h).filterMap fun (command, h) => h.writeCall T command
    | _ => []
  | _ => []

/-! ### Runs -/

/-- A context after requests that each met a condition, on the context as it was then. It has begun without drivers;
between the requests, anything that concerns neither the drivers nor the list of the devices may happen. -/
inductive Reached (T : Target σ) (preSamples : ℕ → ℕ) (C : HardwareContext σ → Request → Prop) : HardwareContext σ → Prop where
  | start {ctx : HardwareContext σ} (h : ctx.pinDrivers = ∅) : Reached T preSamples C ctx
  | other {ctx ctx' : HardwareContext σ} (h : Reached T preSamples C ctx) (hp : ctx'.pinDrivers = ctx.pinDrivers)
      (hd : ctx'.chain.devices = ctx.chain.devices) : Reached T preSamples C ctx'
  | request {ctx ctx' : HardwareContext σ} (h : Reached T preSamples C ctx) (r : Request) (hC : C ctx r) {response : Response}
      (e : r.task T preSamples ctx = some (response, ctx')) : Reached T preSamples C ctx'

/-- No staging buffer outlives its model: when a driver of the device holds a buffer, `load_bsdl` fails, or loads the
model that the device has. -/
def KeepsStagedModel (ctx : HardwareContext σ) : Request → Prop
  | .loadBsdl deviceIndex bsdlPath contents => ∀ data dev, ctx.pinDrivers.lookup deviceIndex = some data → data.bsrData ≠ [] →
      BSDLParser.parseFile bsdlPath contents = some (.ok dev) → bsdlAt ctx.chain.devices deviceIndex = some dev
  | _ => True

/-! ### Drivers that are up to date -/

/-- What is kept of a driver of device `i` is up to date. -/
def DriverUpToDate (devices : List ChainDevice) (i : ℤ) (data : DriverData) : Prop :=
  data.deviceIndex = i ∧ UpToDate devices i data.bsrData

/-- It is for every driver of a context. -/
def AllUpToDate (ctx : HardwareContext σ) : Prop :=
  ∀ i data, ctx.pinDrivers.lookup i = some data → DriverUpToDate ctx.chain.devices i data

variable {devices : List ChainDevice} {i : ℤ} {ctx ctx' : HardwareContext σ}

theorem DriverUpToDate.holds {data : DriverData} {chain : JtagChain σ} (h : DriverUpToDate devices i data)
    (hd : chain.devices = devices) :
    PinDriver.Holds (HasDevices devices) i (UpToDate devices i) { data with chain } := ⟨⟨hd, h.1⟩, h.2⟩

theorem driverUpToDate_of_holds {pd : PinDriver σ} (h : pd.Holds (HasDevices devices) i (UpToDate devices i)) :
    DriverUpToDate devices i pd.toDriverData := ⟨h.1.2, h.2⟩

theorem AllUpToDate.congr (h : AllUpToDate ctx) (hp : ctx'.pinDrivers = ctx.pinDrivers)
    (hd : ctx'.chain.devices = ctx.chain.devices) : AllUpToDate ctx' := by
  intro i data hi
  rw [hp] at hi
  rw [hd]
  exact h i data hi

theorem allUpToDate_of_empty (hp : ctx.pinDrivers = ∅) : AllUpToDate ctx := by
  intro i data hi
  rw [hp, AList.lookup_empty] at hi
  cases hi

/-- A driver that is up to date is put back. -/
theorem AllUpToDate.insert (h : AllUpToDate ctx) (hd : ctx'.chain.devices = ctx.chain.devices) {data : DriverData}
    (hp : ctx'.pinDrivers = ctx.pinDrivers.insert i data) (hdata : DriverUpToDate ctx.chain.devices i data) :
    AllUpToDate ctx' := by
  intro j data' hj
  rw [hd]
  by_cases hij : j = i
  · subst hij
    rw [hp, AList.lookup_insert, Option.some.injEq] at hj
    exact hj ▸ hdata
  · rw [hp, AList.lookup_insert_ne hij] at hj
    exact h j data' hj

/-- Asking for the driver of a device. -/
theorem AllUpToDate.pinDriver (h : AllUpToDate ctx) {answer : Except String DriverData}
    (e : HardwareContext.pinDriver T i ctx = some (answer, ctx')) : AllUpToDate ctx' ∧
      ctx'.chain.devices = ctx.chain.devices ∧ ∀ data, answer = .ok data → DriverUpToDate ctx.chain.devices i data := by
  unfold HardwareContext.pinDriver at e
  split at e
  · rename_i data hlookup
    obtain ⟨rfl, rfl⟩ := Prod.mk.inj (Option.some.inj e)
    exact ⟨h, rfl, fun data' he => Except.ok.inj he ▸ h i data hlookup⟩
  split at e
  · obtain ⟨pd, hcreate, he⟩ := Option.map_eq_some_iff.mp e
    obtain ⟨rfl, rfl⟩ := Prod.mk.inj he
    have hpd := PinDriver.upToDate_create (kept_devices T ctx.chain.devices) rfl hcreate
    have hdata := driverUpToDate_of_holds hpd
    exact ⟨h.insert hpd.1.1 rfl hdata, hpd.1.1, fun data' he => Except.ok.inj he ▸ hdata⟩
  · obtain ⟨rfl, rfl⟩ := Prod.mk.inj (Option.some.inj e)
    exact ⟨h, rfl, nofun⟩

/-! ### Scripts -/

/-- A script host whose driver is up to date. -/
def HostUpToDate (devices : List ChainDevice) (i : ℤ) (h : McpScriptHost σ) : Prop :=
  h.chain.devices = devices ∧ DriverUpToDate devices i h.driver

theorem hostUpToDate_onDriver {α : Type} {m : Method (PinDriver σ) α}
    (hm : Method.Keeps (PinDriver.Holds (HasDevices devices) i (UpToDate devices i)) m) :
    Method.Keeps (HostUpToDate devices i) (McpScriptHost.onDriver m) :=
  hm.on (fun _ hh => hh.2.holds hh.1) fun _ _ _ hpd => ⟨hpd.1.1, driverUpToDate_of_holds hpd⟩

theorem hostUpToDate_status {m : Method (PinDriver σ) Bool}
    (hm : Method.Keeps (PinDriver.Holds (HasDevices devices) i (UpToDate devices i)) m) :
    Method.Keeps (HostUpToDate devices i) (McpScriptHost.status m) := by
  refine hostUpToDate_onDriver (hm.bind fun ok => ?_)
  intro pd a pd' hpd e
  obtain ⟨-, rfl⟩ := Prod.mk.inj (Option.some.inj e)
  exact hpd

/-- No command of a script leaves the driver out of date. -/
theorem hostUpToDate_call (command : Command) :
    Method.Keeps (HostUpToDate devices i) ((McpScriptHost.host T).call command) := by
  have hk := kept_devices T devices
  have hsample : Method.Keeps (HostUpToDate devices i) (McpScriptHost.host T).sample := by
    show Method.Keeps _ (McpScriptHost.onScanner (McpScriptHost.sample T))
    intro h a h' hh e
    obtain ⟨sc, hsc, rfl⟩ := Method.on_eq_some.mp e
    obtain ⟨result, sc₁, hsample, hrest⟩ := Method.bind_eq_some.mp hsc
    obtain ⟨-, rfl⟩ := Prod.mk.inj (Option.some.inj hrest)
    have hfilters : Filters devices h.scanner.decodeFilter ({ h.scanner with chain := h.chain } : Scanner σ) := ⟨hh.1, rfl⟩
    exact ⟨(keeps_filters_sample _ _ _ hfilters hsample).1, hh.2⟩
  have hset : ∀ pinName value, Method.Keeps (HostUpToDate devices i) ((McpScriptHost.host T).setPin pinName value) :=
    fun pinName value => hostUpToDate_status (PinDriver.upToDate_setPin hk pinName value)
  have hhighz : ∀ pinName, Method.Keeps (HostUpToDate devices i) ((McpScriptHost.host T).setPinHighZ pinName) :=
    fun pinName => hostUpToDate_status (PinDriver.upToDate_setPinHighZ hk pinName)
  have happly : Method.Keeps (HostUpToDate devices i) (McpScriptHost.host T).applyOutputs :=
    hostUpToDate_status (PinDriver.upToDate_applyOutputs hk)
  have hreset : Method.Keeps (HostUpToDate devices i) (McpScriptHost.host T).resetToSafe := by
    show Method.Keeps _ (McpScriptHost.onDriver fun pd : PinDriver σ => some ((), pd.resetToSafe))
    refine hostUpToDate_onDriver fun pd a pd' hpd e => ?_
    obtain ⟨-, rfl⟩ := Prod.mk.inj (Option.some.inj e)
    exact PinDriver.upToDate_resetToSafe hk hpd
  cases command with
  | sample | read | expect => exact keeps_map hsample _
  | set pinName drive =>
    cases drive with
    | value v => exact keeps_map (hset pinName v) _
    | highZ => exact keeps_map (hhighz pinName) _
  | highz pinName => exact keeps_map (hhighz pinName) _
  | apply => exact keeps_map happly _
  | sleep milliseconds => exact keeps_map (.pure _) _
  | resetSafe => exact hreset.bind fun _ => keeps_map happly _

/-- The write of a command is up to date. -/
theorem current_of_host {h : McpScriptHost σ} (hh : HostUpToDate devices i h) {command : Command} {w : BsrWrite}
    (e : h.writeCall T command = some w) : w.Current := by
  have hk := kept_devices T devices
  unfold McpScriptHost.writeCall at e
  split at e
  · exact PinDriver.current_writeCall hk (hh.2.holds hh.1) e
  · exact PinDriver.current_writeCall hk (PinDriver.upToDate_resetToSafe hk (hh.2.holds hh.1)) e
  · cases e

/-- What is open for a script is up to date. -/
theorem AllUpToDate.openHost (h : AllUpToDate ctx) {answer : Except String (McpScriptHost σ)}
    (e : McpScriptHost.open T i ctx = some (answer, ctx')) : AllUpToDate ctx' ∧
      ctx'.chain.devices = ctx.chain.devices ∧ ∀ host, answer = .ok host → HostUpToDate ctx.chain.devices i host := by
  unfold McpScriptHost.open at e
  cases hi : ctx.scanner i with
  | error what =>
    rw [hi] at e
    obtain ⟨rfl, rfl⟩ := Prod.mk.inj (Option.some.inj e)
    refine ⟨h, rfl, fun host hhost => ?_⟩
    cases hhost
  | ok scanner =>
    rw [hi] at e
    obtain ⟨⟨driver, ctx₁⟩, hdriver, he⟩ := Option.map_eq_some_iff.mp e
    obtain ⟨rfl, rfl⟩ := Prod.mk.inj he
    have hset : AllUpToDate (ctx.setScanner i { scanner with chain := ctx.chain }) := h.congr rfl rfl
    obtain ⟨h₁, hd, hdata⟩ := hset.pinDriver hdriver
    refine ⟨h₁, hd, fun host hhost => ?_⟩
    cases driver with
    | error what => cases hhost
    | ok driver =>
      obtain rfl := Except.ok.inj hhost
      exact ⟨hd, hdata driver rfl⟩

/-! ### Requests -/

variable {response : Response}

/-- A task that uses a scanner leaves the drivers alone. -/
theorem AllUpToDate.withScanner (h : AllUpToDate ctx) {body : Method (Scanner σ) Response}
    (hbody : ∀ sc r sc', body sc = some (r, sc') → sc'.chain.devices = sc.chain.devices)
    (e : Mcp.withScanner i body ctx = some (response, ctx')) : AllUpToDate ctx' := by
  unfold Mcp.withScanner at e
  split at e
  · obtain ⟨-, rfl⟩ := Prod.mk.inj (Option.some.inj e)
    exact h
  · obtain ⟨⟨r, sc⟩, hsc, he⟩ := Option.map_eq_some_iff.mp e
    obtain ⟨-, rfl⟩ := Prod.mk.inj he
    exact h.congr rfl (hbody _ _ _ hsc)

/-- A task that uses a driver, from what it does to the driver. -/
theorem AllUpToDate.withPinDriver (h : AllUpToDate ctx) {body : Method (PinDriver σ) Response}
    (hbody : ∀ devices, Method.Keeps (PinDriver.Holds (HasDevices devices) i (UpToDate devices i)) body)
    (e : Mcp.withPinDriver T i body ctx = some (response, ctx')) : AllUpToDate ctx' := by
  obtain ⟨answer, ctx₁, hdriver, hrest⟩ := Method.bind_eq_some.mp e
  obtain ⟨h₁, hd, hdata⟩ := h.pinDriver hdriver
  cases answer with
  | error what =>
    obtain ⟨-, rfl⟩ := Prod.mk.inj (Option.some.inj hrest)
    exact h₁
  | ok data =>
    obtain ⟨⟨r, pd⟩, hpd, he⟩ := Option.map_eq_some_iff.mp hrest
    obtain ⟨-, rfl⟩ := Prod.mk.inj he
    have hlast := hbody ctx₁.chain.devices _ _ _ ((hd ▸ hdata data rfl).holds rfl) hpd
    exact h₁.insert hlast.1.1 rfl (driverUpToDate_of_holds hlast)

theorem AllUpToDate.setPin (h : AllUpToDate ctx) {pinName : Text} {value : ℤ}
    (e : Mcp.setPin T i pinName value ctx = some (response, ctx')) : AllUpToDate ctx' := by
  refine h.withPinDriver (fun devices => ?_) e
  have hk := kept_devices T devices
  have herror : Method.Keeps (PinDriver.Holds (HasDevices devices) i (UpToDate devices i))
      (fun pd : PinDriver σ => some (.error pd.lastError, pd) : Method (PinDriver σ) Response) := by
    intro pd r pd' hpd e
    obtain ⟨-, rfl⟩ := Prod.mk.inj (Option.some.inj e)
    exact hpd
  have hrest : ∀ (answer : Response) (ok : Bool), Method.Keeps (PinDriver.Holds (HasDevices devices) i (UpToDate devices i))
      (if ok then do if ← PinDriver.applyOutputs T then pure answer else fun pd => some (.error pd.lastError, pd)
        else fun pd => some (.error pd.lastError, pd)) := by
    intro answer ok
    cases ok with
    | false => exact herror
    | true =>
      refine (PinDriver.upToDate_applyOutputs hk).bind fun applied => ?_
      cases applied with
      | false => exact herror
      | true => exact .pure _
  dsimp only
  split
  · exact (PinDriver.upToDate_setPinHighZ hk pinName).bind (hrest _)
  · exact (PinDriver.upToDate_setPin hk pinName value).bind (hrest _)

theorem AllUpToDate.runScript (h : AllUpToDate ctx) {script : Text} (e : Mcp.runScript T i script ctx = some (response, ctx')) :
    AllUpToDate ctx' := by
  obtain ⟨answer, ctx₁, hopen, hrest⟩ := Method.bind_eq_some.mp e
  obtain ⟨h₁, hd, hhost⟩ := h.openHost hopen
  cases answer with
  | error what =>
    obtain ⟨-, rfl⟩ := Prod.mk.inj (Option.some.inj hrest)
    exact h₁
  | ok host =>
    obtain ⟨⟨r, host'⟩, hrun, he⟩ := Option.map_eq_some_iff.mp hrest
    obtain ⟨-, rfl⟩ := Prod.mk.inj he
    have hlast := ScriptEngine.keeps_run hostUpToDate_call script _ _ _ (hd ▸ hhost host rfl) hrun
    exact h₁.insert hlast.1 rfl hlast.2

/-- The models of the devices after that of device `j` has been replaced. -/
theorem bsdlAt_set {j : ℤ} {dev : ChainDevice} (hj : 0 ≤ j) (hlt : j.toNat < devices.length) :
    bsdlAt (devices.set j.toNat dev) i = if i = j then dev.bsdl else bsdlAt devices i := by
  unfold bsdlAt
  by_cases hi : 0 ≤ i
  · rw [if_pos hi, if_pos hi]
    by_cases hij : i = j
    · subst hij
      rw [if_pos rfl, List.getElem?_set_self hlt]
      rfl
    · rw [if_neg hij, List.getElem?_set_ne (by omega)]
  · rw [if_neg hi, if_neg hi, if_neg (by omega)]

/-- A model is loaded; no driver of the device holds a buffer that is staged from another. -/
theorem AllUpToDate.loadBsdl (h : AllUpToDate ctx) {j : ℤ} {path : Text} {contents : Option Text}
    (hC : KeepsStagedModel ctx (.loadBsdl j path contents))
    (e : Mcp.loadBsdl j path contents ctx = some (response, ctx')) : AllUpToDate ctx' := by
  obtain ⟨ok, ctx₁, hchain, hrest⟩ := Method.bind_eq_some.mp e
  obtain ⟨chain, hload, rfl⟩ := Method.on_eq_some.mp hchain
  have hctx' : ctx' = { ctx with chain } := by
    cases ok with
    | false => exact (Prod.mk.inj (Option.some.inj hrest)).2.symm
    | true => exact (Prod.mk.inj (Option.some.inj hrest)).2.symm
  subst hctx'
  unfold JtagChain.loadBsdl at hload
  split at hload
  · obtain ⟨-, rfl⟩ := Prod.mk.inj (Option.some.inj hload)
    exact h.congr rfl rfl
  rename_i dev hat
  obtain ⟨parsed, hparse, hload⟩ := Option.bind_eq_some_iff.mp hload
  split at hload
  · obtain ⟨-, rfl⟩ := Prod.mk.inj (Option.some.inj hload)
    exact h.congr rfl rfl
  rename_i bsdl
  obtain ⟨-, rfl⟩ := Prod.mk.inj (Option.some.inj hload)
  have hplace : 0 ≤ j ∧ j.toNat < ctx.chain.devices.length := by
    unfold JtagChain.deviceAt at hat
    split at hat
    · exact ⟨‹_›, (List.getElem?_eq_some_iff.mp hat).1⟩
    · cases hat
  intro i data hi
  obtain ⟨hindex, hbuf⟩ := h i data hi
  refine ⟨hindex, ?_⟩
  rcases hbuf with hnil | ⟨model, hmodel, hstaged⟩
  · exact .inl hnil
  by_cases hnil : data.bsrData = []
  · exact .inl hnil
  refine .inr ⟨model, ?_, hstaged⟩
  rw [bsdlAt_set hplace.1 hplace.2]
  split
  · rename_i hij
    subst hij
    exact (hC data bsdl hi hnil hparse).symm.trans hmodel
  · exact hmodel

/-- What a request leaves, when it meets the condition. -/
theorem AllUpToDate.request (h : AllUpToDate ctx) (r : Request) (hC : KeepsStagedModel ctx r) {preSamples : ℕ → ℕ}
    (e : r.task T preSamples ctx = some (response, ctx')) : AllUpToDate ctx' := by
  have hdetect : ∀ {toJson}, detect T toJson ctx = some (response, ctx') → AllUpToDate ctx' := by
    intro toJson e
    obtain ⟨n, ctx₁, -, hrest⟩ := Method.bind_eq_some.mp e
    obtain ⟨-, rfl⟩ := Prod.mk.inj (Option.some.inj hrest)
    exact allUpToDate_of_empty rfl
  cases r with
  | readIdcode | detectDevices => exact hdetect e
  | loadBsdl j path contents => exact h.loadBsdl hC e
  | listDevices =>
    obtain ⟨-, rfl⟩ := Prod.mk.inj (Option.some.inj e)
    exact h
  | listPins j =>
    rw [Request.task, Mcp.listPins] at e
    refine h.withScanner (fun sc r sc' he => ?_) e
    obtain ⟨-, rfl⟩ := Prod.mk.inj (Option.some.inj he)
    rfl
  | readPin j pinName =>
    refine h.withScanner (fun sc r sc' he => ?_) e
    obtain ⟨result, sc₁, hsample, hrest⟩ := Method.bind_eq_some.mp he
    obtain ⟨-, rfl⟩ := Prod.mk.inj (Option.some.inj hrest)
    exact (keeps_filters_sample _ _ _ (show Filters sc.chain.devices _ sc from ⟨rfl, rfl⟩) hsample).1
  | setPin j pinName value => exact h.setPin e
  | captureStart p now passes =>
    rw [Request.task, Mcp.captureStart] at e
    refine h.withScanner (fun sc r sc' he => ?_) e
    obtain ⟨⟨r, t⟩, hrun, he⟩ := Option.map_eq_some_iff.mp he
    obtain ⟨-, rfl⟩ := Prod.mk.inj he
    exact (keeps_filters_run passes _ _ _ (show Filters sc.chain.devices _ _ from ⟨rfl, rfl⟩) hrun).1
  | runScript j script => exact h.runScript e
  | sampleBsr j =>
    rw [Request.task, Mcp.sampleBsr] at e
    refine h.withScanner (fun sc r sc' he => ?_) e
    rw [Method.modify_bind] at he
    obtain ⟨result, sc₁, hsample, hrest⟩ := Method.bind_eq_some.mp he
    obtain ⟨-, rfl⟩ := Prod.mk.inj (Option.some.inj hrest)
    exact (keeps_filters_sample _ _ _ (show Filters sc.chain.devices _ (Scanner.setDecodeFilter [] sc) from ⟨rfl, rfl⟩)
      hsample).1
  | close =>
    obtain ⟨-, rfl⟩ := Prod.mk.inj (Option.some.inj e)
    exact allUpToDate_of_empty rfl

/-- The drivers are up to date after every run that meets the condition. -/
theorem allUpToDate_of_reached {preSamples : ℕ → ℕ} (h : Reached T preSamples KeepsStagedModel ctx) : AllUpToDate ctx := by
  induction h with
  | start h => exact allUpToDate_of_empty h
  | other h hp hd ih => exact ih.congr hp hd
  | request h r hC e ih => exact ih.request r hC e

/-- The writes of a request are up to date when the drivers are. -/
theorem AllUpToDate.writes (h : AllUpToDate ctx) {r : Request} {w : BsrWrite} (hw : w ∈ r.writes T ctx) : w.Current := by
  cases r with
  | setPin j pinName value =>
    obtain ⟨pd, hpd, hcall⟩ := Option.bind_eq_some_iff.mp (Option.mem_toList.mp hw)
    obtain ⟨⟨answer, ctx₁⟩, hdriver, hpd⟩ := Option.bind_eq_some_iff.mp hpd
    obtain ⟨-, hd, hdata⟩ := h.pinDriver hdriver
    cases answer with
    | error what => cases hpd
    | ok data =>
      obtain ⟨⟨ok, pd₁⟩, hstage, hpd⟩ := Option.bind_eq_some_iff.mp hpd
      have hk := kept_devices T ctx.chain.devices
      have hpd₁ : pd₁.Holds (HasDevices ctx.chain.devices) j (UpToDate ctx.chain.devices j) := by
        split at hstage
        · exact PinDriver.upToDate_setPinHighZ hk pinName _ _ _ ((hdata data rfl).holds hd) hstage
        · exact PinDriver.upToDate_setPin hk pinName value _ _ _ ((hdata data rfl).holds hd) hstage
      cases ok with
      | false => cases hpd
      | true =>
        obtain rfl := Option.some.inj hpd
        exact PinDriver.current_writeCall hk hpd₁ hcall
  | runScript j script =>
    rw [Request.writes] at hw
    split at hw
    · rename_i host ctx₁ hopen
      obtain ⟨-, hd, hhost⟩ := h.openHost hopen
      obtain ⟨⟨command, host'⟩, hperformed, hcall⟩ := List.mem_filterMap.mp hw
      exact current_of_host (performed_keeps hostUpToDate_call (hhost host rfl) hperformed) hcall
    · cases hw
  | _ => cases hw

/-- **Boundary writes use a buffer of the current model.** In every run in which no staging buffer outlives its model,
whenever a request calls `writeBSR`, the buffer covers the boundary register of the model that is then loaded for the
device, all of which is written, and is staged from this model. -/
theorem current_of_reached {preSamples : ℕ → ℕ} (h : Reached T preSamples KeepsStagedModel ctx) (r : Request) :
    ∀ w ∈ r.writes T ctx, w.Current := fun _ hw => (allUpToDate_of_reached h).writes hw

/-! ### A lamp, and a panel -/

/-- The context after a request. -/
def Request.step (T : Target σ) (preSamples : ℕ → ℕ) (ctx : HardwareContext σ) (r : Request) : Option (HardwareContext σ) :=
  (r.task T preSamples ctx).map Prod.snd

/-- Requests that meet the condition, one after the other. -/
theorem Reached.steps {preSamples : ℕ → ℕ} {C : HardwareContext σ → Request → Prop} {rs : List Request}
    (h : Reached T preSamples C ctx) (hC : Along (Request.step T preSamples) C ctx rs)
    (e : OwlTap.steps (Request.step T preSamples) ctx rs = some ctx') : Reached T preSamples C ctx' := by
  refine along_invariant (P := Reached T preSamples C) (fun s r t hst hC hs => ?_) e hC h
  obtain ⟨⟨response, t⟩, e, rfl⟩ := Option.map_eq_some_iff.mp hst
  exact hs.request r hC e

/-- The text of some lines. -/
def textOf (lines : List String) : Text := lines.flatMap fun line => line.toList ++ ['\n']

/-- The file of a device with one lamp. -/
def lampFile : Text :=
  textOf ["entity LAMP is", "generic (PHYSICAL_PIN_MAP : string);", "port (LED : out bit);",
    "attribute INSTRUCTION_LENGTH of LAMP", ": entity is 2;",
    "attribute INSTRUCTION_OPCODE of LAMP", ": entity is \"EXTEST (00),\" &", "\"SAMPLE (01)\";",
    "attribute BOUNDARY_LENGTH of LAMP", ": entity is 1;",
    "attribute BOUNDARY_REGISTER of LAMP", ": entity is", "\"0 (BC_1, LED, output2, 0)\";", "end LAMP;"]

/-- The file of a device with one lamp and eight keys. -/
def panelFile : Text :=
  textOf ["entity PANEL is", "generic (PHYSICAL_PIN_MAP : string);",
    "port (LED : out bit;", "KEYS : in bit_vector(1 to 8));",
    "attribute INSTRUCTION_LENGTH of PANEL", ": entity is 2;",
    "attribute INSTRUCTION_OPCODE of PANEL", ": entity is \"EXTEST (00),\" &", "\"SAMPLE (01)\";",
    "attribute BOUNDARY_LENGTH of PANEL", ": entity is 9;",
    "attribute BOUNDARY_REGISTER of PANEL", ": entity is", "\"0 (BC_1, LED, output2, 0)\";", "end PANEL;"]

/-- A context with one device, of which no model is loaded yet. -/
def lampContext : HardwareContext (List (Device BoundaryDevice)) where
  config := {}
  chain := JtagChain.idle [{ position := 0, idcode := 0, irLength := 2 }]
    [⟨.powered ⟨2, [false, false], [true, false], 1, [false], zero_ne_bypass, one_ne_bypass⟩, []⟩]
  scanners := ∅
  pinDrivers := ∅
  left := .runTestIdle

/-- Load the model of the lamp, and light it. -/
def lightLamp : List Request := [.loadBsdl 0 "lamp.bsd".toList (some lampFile), .setPin 0 "LED".toList 1]

/-- Then load the model of the panel for the same device. -/
def reloadPanel : List Request := lightLamp ++ [.loadBsdl 0 "panel.bsd".toList (some panelFile)]

/-- What shows of the writes of a request that follows others. -/
def writesAfter (rs : List Request) (r : Request) : Option (List (ℕ × ℕ)) :=
  (steps (Request.step (Target.chain BoundaryDevice.logic) id) lampContext rs).map fun ctx =>
    (r.writes (Target.chain BoundaryDevice.logic) ctx).map fun w => (w.bsrData.length, w.bsrBits)

theorem mem_writes_of_writesAfter {rs : List Request} {r : Request} {n m : ℕ} (h : writesAfter rs r = some [(n, m)]) :
    ∃ ctx w, steps (Request.step (Target.chain BoundaryDevice.logic) id) lampContext rs = some ctx ∧
      w ∈ r.writes (Target.chain BoundaryDevice.logic) ctx ∧ w.bsrData.length = n ∧ w.bsrBits = m := by
  obtain ⟨ctx, hctx, hwrites⟩ := Option.map_eq_some_iff.mp h
  obtain ⟨w, ws, hw, hshows, -⟩ := List.map_eq_cons_iff.mp hwrites
  obtain ⟨hn, hm⟩ := Prod.mk.inj hshows
  exact ⟨ctx, w, hctx, hw ▸ List.mem_cons_self, hn, hm⟩

theorem current_of_reached_lamp : ∃ ctx w,
    steps (Request.step (Target.chain BoundaryDevice.logic) id) lampContext lightLamp = some ctx ∧
      w ∈ (Request.setPin 0 "LED".toList 0).writes (Target.chain BoundaryDevice.logic) ctx ∧ w.Current := by
  have hshows : writesAfter lightLamp (.setPin 0 "LED".toList 0) = some [(1, 1)] := by decide +kernel
  obtain ⟨ctx, w, hctx, hw, -⟩ := mem_writes_of_writesAfter hshows
  have hload : KeepsStagedModel lampContext (.loadBsdl 0 "lamp.bsd".toList (some lampFile)) := by
    intro data dev hlookup
    rw [show lampContext.pinDrivers = ∅ from rfl, AList.lookup_empty] at hlookup
    cases hlookup
  have halong : Along (Request.step (Target.chain BoundaryDevice.logic) id) KeepsStagedModel lampContext lightLamp :=
    ⟨hload, fun _ _ => ⟨trivial, fun _ _ => trivial⟩⟩
  have hreached : Reached (Target.chain BoundaryDevice.logic) id KeepsStagedModel ctx :=
    (Reached.start (show lampContext.pinDrivers = ∅ from rfl)).steps halong hctx
  exact ⟨ctx, w, hctx, hw, current_of_reached hreached (.setPin 0 "LED".toList 0) w hw⟩

/-- With the model of the panel loaded after the lamp has been lit, nine bits are written from a buffer of one byte. -/
theorem reload_writes_past : ∃ ctx w, Reached (Target.chain BoundaryDevice.logic) id (fun _ _ => True) ctx ∧
    w ∈ (Request.setPin 0 "LED".toList 0).writes (Target.chain BoundaryDevice.logic) ctx ∧ ¬w.Current := by
  have hshows : writesAfter reloadPanel (.setPin 0 "LED".toList 0) = some [(1, 9)] := by decide +kernel
  obtain ⟨ctx, w, hctx, hw, hlength, hbits⟩ := mem_writes_of_writesAfter hshows
  have halong : Along (Request.step (Target.chain BoundaryDevice.logic) id) (fun _ _ => True) lampContext reloadPanel :=
    ⟨trivial, fun _ _ => ⟨trivial, fun _ _ => ⟨trivial, fun _ _ => trivial⟩⟩⟩
  refine ⟨ctx, w, (Reached.start (show lampContext.pinDrivers = ∅ from rfl)).steps halong hctx, hw, ?_⟩
  rintro ⟨dev, -, hlen, hcovers, -⟩
  omega

end OwlTap.Mcp
