import OwlTap.BoundaryScan.DriverRules
import OwlTap.Mcp.HardwareTools

/-!
# The filter that a history leaves

`capture_start` installs its filter in the scanner of the device, where it stays. A later capture
replaces it, `hardware/sample_bsr` clears it, and a new detection of the devices or the closing of
the hardware drops the scanner. No other task changes it (`filter_of_ran`).
-/

namespace OwlTap.Mcp

open OwlTap Ftdi Bsdl Jtag BoundaryScan Capture Hardware Script

variable {σ : Type} {T : Target σ}

/-! ### Requests -/

/-- What is run on the hardware context. -/
inductive Request where
  | readIdcode
  | detectDevices
  | loadBsdl (deviceIndex : ℤ) (bsdlPath : Text) (contents : Option Text)
  | listDevices
  | listPins (deviceIndex : ℤ)
  | readPin (deviceIndex : ℤ) (pinName : Text)
  | setPin (deviceIndex : ℤ) (pinName : Text) (value : ℤ)
  | captureStart (p : CaptureParams) (now : ℕ) (passes : List CapturePass)
  | runScript (deviceIndex : ℤ) (script : Text)
  | sampleBsr (deviceIndex : ℤ)
  /-- The worker closes the hardware when it has been idle. -/
  | close

namespace Request

/-- The task of a request. -/
def task (T : Target σ) (preSamples : ℕ → ℕ) : Request → Method (HardwareContext σ) Response
  | readIdcode => Mcp.readIdcode T
  | detectDevices => Mcp.detectDevices T
  | loadBsdl deviceIndex bsdlPath contents => Mcp.loadBsdl deviceIndex bsdlPath contents
  | listDevices => Mcp.listDevices
  | listPins deviceIndex => Mcp.listPins deviceIndex
  | readPin deviceIndex pinName => withScanner deviceIndex (Mcp.readPin T deviceIndex pinName)
  | setPin deviceIndex pinName value => Mcp.setPin T deviceIndex pinName value
  | captureStart p now passes => Mcp.captureStart T preSamples p now passes
  | runScript deviceIndex script => Mcp.runScript T deviceIndex script
  | sampleBsr deviceIndex => Mcp.sampleBsr T deviceIndex
  | close => fun ctx => some (.ok .null, ctx.close)

/-- What a request answers. -/
def response (T : Target σ) (preSamples : ℕ → ℕ) (r : Request) (ctx : HardwareContext σ) : Option Response :=
  (r.task T preSamples ctx).map Prod.fst

/-- The filter of the scanner of a device after a request, from the filter before it. -/
def filterAfter (deviceIndex : ℤ) (decodeFilter : List Text) : Request → List Text
  | captureStart p _ _ => if p.devIdx = deviceIndex then p.pinFilter.dedup else decodeFilter
  | sampleBsr i => if i = deviceIndex then [] else decodeFilter
  | readIdcode | detectDevices | close => []
  | _ => decodeFilter

end Request

/-- The filter that a history of requests leaves in the scanner of a device. -/
def filterLeft (deviceIndex : ℤ) (history : List Request) : List Text :=
  history.foldl (Request.filterAfter deviceIndex) []

/-- A context after a history of requests. It has begun without scanners; between the requests, anything that does not
concern the scanners and the list of the devices may happen to it and to the hardware. -/
inductive Ran (T : Target σ) (preSamples : ℕ → ℕ) : List Request → HardwareContext σ → Prop where
  | start {ctx : HardwareContext σ} (h : ctx.scanners = ∅) : Ran T preSamples [] ctx
  | other {history : List Request} {ctx ctx' : HardwareContext σ} (h : Ran T preSamples history ctx)
    (hs : ctx'.scanners = ctx.scanners) (hd : ctx'.chain.devices = ctx.chain.devices) : Ran T preSamples history ctx'
  | request {history : List Request} {ctx ctx' : HardwareContext σ} (h : Ran T preSamples history ctx) (r : Request)
    {response : Response} (e : r.task T preSamples ctx = some (response, ctx')) : Ran T preSamples (history ++ [r]) ctx'

/-! ### The devices stay -/

variable {devices : List ChainDevice}

/-- The list of the devices. -/
def HasDevices (devices : List ChainDevice) (c : JtagChain σ) : Prop := c.devices = devices

theorem keeps_onTap {α : Type} (m : Method (TapController σ) α) :
    Method.Keeps (HasDevices devices) (JtagChain.onTap m) := by
  intro c a c' hc e
  obtain ⟨tap, -, rfl⟩ := Method.on_eq_some.mp e
  exact hc

theorem keeps_fail {α : Type} (msg : JtagChain σ → String) (a : α) :
    Method.Keeps (HasDevices devices) (JtagChain.fail msg a) := by
  intro c b c' hc e
  obtain ⟨-, rfl⟩ := Prod.mk.inj (Option.some.inj e)
  exact hc

/-- The accesses of scanners and drivers leave the list as it is. -/
theorem kept_devices (T : Target σ) (devices : List ChainDevice) : Kept T devices (HasDevices devices) := by
  have hselect : ∀ i op, Method.Keeps (HasDevices devices) (JtagChain.selectInstruction T i op) := by
    intro i op c a c' hc e
    unfold JtagChain.selectInstruction at e
    split at e
    · exact keeps_fail _ _ _ _ _ hc e
    · split at e
      · cases e
      · exact keeps_onTap _ _ _ _ hc e
  refine ⟨fun h => h, fun _ _ => hselect _ _, fun _ _ _ => hselect _ _, fun _ => keeps_onTap _, ?_, ?_⟩
  · intro i data part c a c' hc e
    unfold JtagChain.readBSR at e
    split at e
    · exact keeps_fail _ _ _ _ _ hc e
    · split at e
      · exact keeps_fail _ _ _ _ _ hc e
      · refine Method.Keeps.bind (keeps_onTap _) (fun r => ?_) _ _ _ hc e
        obtain ⟨_ | _, full⟩ := r
        · exact keeps_fail _ _
        · exact .pure _
  · intro i data len c a c' hc e
    unfold JtagChain.writeBSR at e
    split at e
    · exact keeps_fail _ _ _ _ _ hc e
    · split at e
      · cases e
      · exact keeps_onTap _ _ _ _ hc e

/-! ### The filter stays -/

/-- A scanner with this filter, of a chain with these devices. -/
def Filters (devices : List ChainDevice) (decodeFilter : List Text) (sc : Scanner σ) : Prop :=
  sc.chain.devices = devices ∧ sc.decodeFilter = decodeFilter

variable {decodeFilter : List Text}

/-- A sample leaves the filter as it is. -/
theorem keeps_filters_sample : Method.Keeps (Filters devices decodeFilter) (Scanner.sample T) := by
  have hchain : ∀ {α : Type} (m : Method (JtagChain σ) α), Method.Keeps (fun sc : Scanner σ => sc.decodeFilter = decodeFilter)
      (Scanner.onChain m) := by
    intro α m sc a sc' hsc e
    obtain ⟨c, -, rfl⟩ := Method.on_eq_some.mp e
    exact hsc
  have hfail : ∀ msg, Method.Keeps (fun sc : Scanner σ => sc.decodeFilter = decodeFilter) (Scanner.fail msg) := by
    intro msg sc a sc' hsc e
    obtain ⟨-, rfl⟩ := Prod.mk.inj (Option.some.inj e)
    exact hsc
  intro sc result sc' hsc e
  refine ⟨(Scanner.keeps_sample (kept_devices T devices) sc result sc' ⟨hsc.1, rfl⟩ e).1, ?_⟩
  have hfilter := hsc.2
  unfold Scanner.sample at e
  split at e
  · exact hfail _ _ _ _ hfilter e
  split at e
  · exact hfail _ _ _ _ hfilter e
  refine Method.Keeps.bind (hchain _) (fun selected => ?_) _ _ _ hfilter e
  cases selected with
  | false => exact hfail _
  | true =>
    refine (hchain _).bind fun _ => (hchain _).bind fun r => ?_
    obtain ⟨_ | _, raw⟩ := r
    · exact hfail _
    · exact .pure _

/-- So does a tick of a capture session. -/
theorem keeps_filters_tick {preSamples : ℕ → ℕ} {now stamp : ℕ} :
    Method.Keeps (fun s : CaptureSession × Scanner σ => Filters devices decodeFilter s.2)
      (CaptureSession.tick T preSamples now stamp) := by
  rintro ⟨cs, sc⟩ took ⟨cs', sc'⟩ hsc e
  unfold CaptureSession.tick at e
  dsimp only at e
  split at e
  · obtain ⟨-, -, rfl⟩ := e
    exact hsc
  split at e
  · obtain ⟨-, -, rfl⟩ := e
    exact hsc
  obtain ⟨⟨result, sc₁⟩, hsample, e⟩ := Option.map_eq_some_iff.mp e
  have hsc₁ := keeps_filters_sample _ _ _ hsc hsample
  dsimp only at e
  split at e
  · obtain ⟨-, -, rfl⟩ := e
    exact hsc₁
  · obtain ⟨-, -, rfl⟩ := e
    exact hsc₁

/-- So does a capture. -/
theorem keeps_filters_run {preSamples : ℕ → ℕ} {p : CaptureParams} (passes : List CapturePass) :
    Method.Keeps (fun t : CaptureTask σ => Filters devices decodeFilter t.scanner) (CaptureTask.run T preSamples p passes) := by
  induction passes with
  | nil => exact fun _ _ _ _ e => nomatch e
  | cons pass passes ih =>
    intro t response t' ht e
    obtain ⟨t₁, hlook, e⟩ := Option.bind_eq_some_iff.mp e
    have ht₁ : Filters devices decodeFilter t₁.scanner := by
      unfold CaptureTask.look at hlook
      split_ifs at hlook <;> obtain rfl := Option.some.inj hlook <;> exact ht
    dsimp only at e
    split at e
    · obtain ⟨ending, -, he⟩ := Option.map_eq_some_iff.mp e
      obtain ⟨-, rfl⟩ := Prod.mk.inj he
      exact ht₁
    · obtain ⟨t₂, htick, e⟩ := Option.bind_eq_some_iff.mp e
      obtain ⟨⟨progress, t₃⟩, hreport, e⟩ := Option.bind_eq_some_iff.mp e
      have ht₂ : Filters devices decodeFilter t₂.scanner := by
        unfold CaptureTask.tick at htick
        split at htick
        · cases htick
        · obtain ⟨⟨took, session, scanner⟩, hsession, rfl⟩ := Option.map_eq_some_iff.mp htick
          exact keeps_filters_tick (t₁.session, t₁.scanner) took (session, scanner) ht₁ hsession
      refine ih t₃ response t' ?_ e
      unfold CaptureTask.report at hreport
      dsimp only at hreport
      split_ifs at hreport <;> obtain ⟨-, rfl⟩ := hreport <;> exact ht₂

/-! ### Drivers and scripts -/

/-- Calls on a driver leave the list of the devices as it is. -/
def DriverKeeps {α : Type} (m : Method (PinDriver σ) α) : Prop :=
  ∀ devices, Method.Keeps (fun pd : PinDriver σ => HasDevices devices pd.chain) m

theorem driverKeeps_of {α : Type} {m : Method (PinDriver σ) α}
    (hm : ∀ devices i, Method.Keeps (PinDriver.Has (HasDevices devices) i) m) : DriverKeeps m :=
  fun devices pd _ _ hpd e => (hm devices pd.deviceIndex _ _ _ ⟨hpd, rfl⟩ e).1

theorem driverKeeps_setPin (pinName : Text) (value : ℤ) : DriverKeeps (PinDriver.setPin T pinName value) :=
  driverKeeps_of fun devices _ => PinDriver.keeps_setPin (kept_devices T devices) pinName value

theorem driverKeeps_setPinHighZ (pinName : Text) : DriverKeeps (PinDriver.setPinHighZ T pinName) :=
  driverKeeps_of fun devices _ => PinDriver.keeps_setPinHighZ (kept_devices T devices) pinName

theorem driverKeeps_applyOutputs : DriverKeeps (PinDriver.applyOutputs T) :=
  driverKeeps_of fun devices _ => PinDriver.keeps_applyOutputs (kept_devices T devices)

/-- What only looks at the driver. -/
theorem driverKeeps_get {α : Type} (f : PinDriver σ → α) : DriverKeeps fun pd : PinDriver σ => some (f pd, pd) := by
  intro devices pd a pd' hpd e
  obtain ⟨-, rfl⟩ := Prod.mk.inj (Option.some.inj e)
  exact hpd

theorem create_devices {chain : JtagChain σ} {i : ℤ} {pd : PinDriver σ} (e : PinDriver.create T chain i = some pd) :
    pd.chain.devices = chain.devices := by
  unfold PinDriver.create at e
  dsimp only at e
  split at e
  · obtain ⟨⟨ok, pd₁⟩, hcapture, rfl⟩ := Option.map_eq_some_iff.mp e
    have hpd₁ := PinDriver.keeps_captureCurrentState (kept_devices T chain.devices) _ _ _
      (show PinDriver.Has (HasDevices chain.devices) i { deviceIndex := i, chain } from ⟨rfl, rfl⟩) hcapture
    cases ok with
    | true => exact hpd₁.1
    | false => exact hpd₁.initBsrFromSafe.1
  · obtain rfl := Option.some.inj e
    rfl

/-- The scanners and the devices of a context. -/
def HasScanners (scanners : AList fun _ : ℤ => ScannerData) (devices : List ChainDevice) (ctx : HardwareContext σ) : Prop :=
  ctx.scanners = scanners ∧ ctx.chain.devices = devices

variable {scanners : AList fun _ : ℤ => ScannerData}

theorem keeps_pinDriver (i : ℤ) : Method.Keeps (HasScanners scanners devices) (HardwareContext.pinDriver T i) := by
  intro ctx a ctx' hctx e
  unfold HardwareContext.pinDriver at e
  split at e
  · obtain ⟨-, rfl⟩ := Prod.mk.inj (Option.some.inj e)
    exact hctx
  split at e
  · obtain ⟨pd, hcreate, he⟩ := Option.map_eq_some_iff.mp e
    obtain ⟨-, rfl⟩ := Prod.mk.inj he
    exact ⟨hctx.1, (create_devices hcreate).trans hctx.2⟩
  · obtain ⟨-, rfl⟩ := Prod.mk.inj (Option.some.inj e)
    exact hctx

theorem keeps_withPinDriver {i : ℤ} {body : Method (PinDriver σ) Response} (hbody : DriverKeeps body) :
    Method.Keeps (HasScanners scanners devices) (withPinDriver T i body) := by
  refine (keeps_pinDriver i).bind fun r => ?_
  cases r with
  | error what => exact .pure _
  | ok data =>
    intro ctx a ctx' hctx e
    obtain ⟨⟨r, pd⟩, hpd, he⟩ := Option.map_eq_some_iff.mp e
    obtain ⟨-, rfl⟩ := Prod.mk.inj he
    exact ⟨hctx.1, hbody devices { data with chain := ctx.chain } _ _ hctx.2 hpd⟩

/-- The task of `set_pin` leaves the scanners alone. -/
theorem keeps_setPin (i : ℤ) (pinName : Text) (value : ℤ) :
    Method.Keeps (HasScanners scanners devices) (setPin T i pinName value) := by
  refine keeps_withPinDriver fun devices => ?_
  have happly : ∀ answer : Response, Method.Keeps (fun pd : PinDriver σ => HasDevices devices pd.chain) (do
      if ← PinDriver.applyOutputs T then pure answer else fun pd => some (.error pd.lastError, pd)) := by
    intro answer
    refine (driverKeeps_applyOutputs devices).bind fun applied => ?_
    cases applied with
    | false => exact driverKeeps_get _ devices
    | true => exact .pure _
  have hrest : ∀ (answer : Response) (ok : Bool), Method.Keeps (fun pd : PinDriver σ => HasDevices devices pd.chain)
      (if ok then do if ← PinDriver.applyOutputs T then pure answer else fun pd => some (.error pd.lastError, pd)
        else fun pd => some (.error pd.lastError, pd)) := by
    intro answer ok
    cases ok with
    | false => exact driverKeeps_get _ devices
    | true => exact happly answer
  dsimp only
  split
  · exact (driverKeeps_setPinHighZ pinName devices).bind (hrest _)
  · exact (driverKeeps_setPin pinName value devices).bind (hrest _)

/-- A script host whose scanner has this filter. -/
def HostFilters (devices : List ChainDevice) (decodeFilter : List Text) (h : McpScriptHost σ) : Prop :=
  h.chain.devices = devices ∧ h.scanner.decodeFilter = decodeFilter

theorem keeps_onDriver {α : Type} {m : Method (PinDriver σ) α} (hm : DriverKeeps m) :
    Method.Keeps (HostFilters devices decodeFilter) (McpScriptHost.onDriver m) :=
  (hm devices).on (fun _ hh => hh.1) fun _ _ hh hpd => ⟨hpd, hh.2⟩

theorem keeps_status {m : Method (PinDriver σ) Bool} (hm : DriverKeeps m) :
    Method.Keeps (HostFilters devices decodeFilter) (McpScriptHost.status m) :=
  keeps_onDriver fun devices => (hm devices).bind fun _ => driverKeeps_get _ devices

theorem keeps_map {s α β : Type} {I : s → Prop} {m : Method s α} (hm : Method.Keeps I m) (f : α → β) :
    Method.Keeps I (f <$> m) := hm.bind fun _ => .pure _

/-- No command of a script changes the filter. -/
theorem keeps_call (command : Command) :
    Method.Keeps (HostFilters devices decodeFilter) ((McpScriptHost.host T).call command) := by
  have hsample : Method.Keeps (HostFilters devices decodeFilter) (McpScriptHost.host T).sample := by
    show Method.Keeps _ (McpScriptHost.onScanner (McpScriptHost.sample T))
    refine Method.Keeps.on (I := Filters devices decodeFilter) ?_ (fun _ hh => hh) fun _ _ _ hsc => hsc
    refine keeps_filters_sample.bind fun result sc a sc' hsc e => ?_
    obtain ⟨-, rfl⟩ := Prod.mk.inj (Option.some.inj e)
    exact hsc
  have hset : ∀ pinName value, Method.Keeps (HostFilters devices decodeFilter) ((McpScriptHost.host T).setPin pinName value) :=
    fun pinName value => keeps_status (driverKeeps_setPin pinName value)
  have hhighz : ∀ pinName, Method.Keeps (HostFilters devices decodeFilter) ((McpScriptHost.host T).setPinHighZ pinName) :=
    fun pinName => keeps_status (driverKeeps_setPinHighZ pinName)
  have happly : Method.Keeps (HostFilters devices decodeFilter) (McpScriptHost.host T).applyOutputs :=
    keeps_status driverKeeps_applyOutputs
  have hreset : Method.Keeps (HostFilters devices decodeFilter) (McpScriptHost.host T).resetToSafe := by
    show Method.Keeps _ (McpScriptHost.onDriver fun pd : PinDriver σ => some ((), pd.resetToSafe))
    refine keeps_onDriver fun devices pd a pd' hpd e => ?_
    obtain ⟨-, rfl⟩ := Prod.mk.inj (Option.some.inj e)
    have hdriver : PinDriver.Has (HasDevices devices) pd.deviceIndex pd := ⟨hpd, rfl⟩
    exact hdriver.initBsrFromSafe.1
  cases command with
  | sample | read | expect => exact keeps_map hsample _
  | set pinName drive =>
    cases drive with
    | value v => exact keeps_map (hset pinName v) _
    | highZ => exact keeps_map (hhighz pinName) _
  | highz pinName => exact keeps_map (hhighz pinName) _
  | apply => exact keeps_map happly _
  | sleep milliseconds => exact keeps_map (.pure _) _
  | resetSafe => exact hreset.bind fun _ => keeps_map happly _

/-! ### Histories -/

/-- The scanner of a device has this filter, if there is one or one can be made. -/
def Leaves (i : ℤ) (decodeFilter : List Text) (ctx : HardwareContext σ) : Prop :=
  ∀ data, ctx.scanner i = .ok data → data.decodeFilter = decodeFilter

variable {i : ℤ} {ctx ctx' : HardwareContext σ}

theorem scanner_congr (hs : ctx'.scanners.lookup i = ctx.scanners.lookup i)
    (hd : ctx'.chain.devices.length = ctx.chain.devices.length) : ctx'.scanner i = ctx.scanner i := by
  unfold HardwareContext.scanner HardwareContext.hasDevice
  rw [hs, hd]

theorem Leaves.congr (h : Leaves i decodeFilter ctx) (hs : ctx'.scanners = ctx.scanners)
    (hd : ctx'.chain.devices.length = ctx.chain.devices.length) : Leaves i decodeFilter ctx' := by
  intro data hdata
  rw [scanner_congr (congrArg (AList.lookup i) hs) hd] at hdata
  exact h data hdata

/-- A context without scanners makes them without a filter. -/
theorem leaves_of_empty (hs : ctx.scanners = ∅) : Leaves i [] ctx := by
  intro data hdata
  unfold HardwareContext.scanner at hdata
  rw [hs, AList.lookup_empty] at hdata
  dsimp only at hdata
  split at hdata
  · obtain rfl := Except.ok.inj hdata
    rfl
  · cases hdata

/-- The scanner of device `i` after the scanner of device `j` has been set. -/
theorem Leaves.setScanner (h : Leaves i decodeFilter ctx) {j : ℤ} {sc : Scanner σ}
    (hd : sc.chain.devices = ctx.chain.devices) {filter : List Text} (hsc : j = i → sc.decodeFilter = filter) :
    Leaves i (if j = i then filter else decodeFilter) (ctx.setScanner j sc) := by
  intro data hdata
  by_cases hij : j = i
  · subst hij
    rw [HardwareContext.scanner, HardwareContext.setScanner, AList.lookup_insert] at hdata
    obtain rfl := Except.ok.inj hdata
    rw [if_pos rfl]
    exact hsc rfl
  · rw [if_neg hij]
    refine h data ?_
    rw [← hdata]
    exact (scanner_congr (AList.lookup_insert_ne (Ne.symm hij)) (congrArg List.length hd)).symm

/-- The scanner of device `j` has the filter that it had. -/
theorem Leaves.setScanner_same (h : Leaves i decodeFilter ctx) {j : ℤ} {sc : Scanner σ}
    (hd : sc.chain.devices = ctx.chain.devices) (hsc : j = i → sc.decodeFilter = decodeFilter) :
    Leaves i decodeFilter (ctx.setScanner j sc) := by
  have hset := h.setScanner hd hsc
  rwa [ite_self] at hset

/-- A task that uses a scanner, with what it makes of its filter. -/
theorem Leaves.withScanner (h : Leaves i decodeFilter ctx) {j : ℤ} {body : Method (Scanner σ) Response}
    {f : List Text → List Text} (hbody : ∀ sc r sc', body sc = some (r, sc') →
      sc'.chain.devices = sc.chain.devices ∧ sc'.decodeFilter = f sc.decodeFilter)
    {response : Response} (e : withScanner j body ctx = some (response, ctx')) :
    Leaves i (if j = i then f decodeFilter else decodeFilter) ctx' := by
  unfold Mcp.withScanner at e
  cases hj : ctx.scanner j with
  | error what =>
    rw [hj] at e
    obtain ⟨-, rfl⟩ := Prod.mk.inj (Option.some.inj e)
    by_cases hij : j = i
    · subst hij
      exact fun data hdata => nomatch hj.symm.trans hdata
    · rwa [if_neg hij]
  | ok data =>
    rw [hj] at e
    obtain ⟨⟨r, sc⟩, hsc, he⟩ := Option.map_eq_some_iff.mp e
    obtain ⟨-, rfl⟩ := Prod.mk.inj he
    obtain ⟨hd, hfilter⟩ := hbody _ _ _ hsc
    refine h.setScanner hd fun hij => ?_
    subst hij
    rw [hfilter, ← h data hj]

/-- A task that uses a scanner without changing its filter. -/
theorem Leaves.withScanner_same (h : Leaves i decodeFilter ctx) {j : ℤ} {body : Method (Scanner σ) Response}
    (hbody : ∀ devices filter, Method.Keeps (Filters devices filter) body) {response : Response}
    (e : Mcp.withScanner j body ctx = some (response, ctx')) : Leaves i decodeFilter ctx' := by
  have hsame := h.withScanner (f := id) (fun sc r sc' he => hbody sc.chain.devices sc.decodeFilter sc r sc' ⟨rfl, rfl⟩ he) e
  rwa [id, ite_self] at hsame

theorem leaves_detect {toJson : ChainDevice → List (String × Json)} {response : Response}
    (e : detect T toJson ctx = some (response, ctx')) : Leaves i [] ctx' := by
  obtain ⟨n, ctx₁, -, hrest⟩ := Method.bind_eq_some.mp e
  obtain ⟨-, rfl⟩ := Prod.mk.inj (Option.some.inj hrest)
  exact leaves_of_empty rfl

theorem Leaves.loadBsdl (h : Leaves i decodeFilter ctx) {j : ℤ} {path : Text} {contents : Option Text} {response : Response}
    (e : Mcp.loadBsdl j path contents ctx = some (response, ctx')) : Leaves i decodeFilter ctx' := by
  obtain ⟨ok, ctx₁, hchain, hrest⟩ := Method.bind_eq_some.mp e
  obtain ⟨chain, hload, rfl⟩ := Method.on_eq_some.mp hchain
  clear hchain
  have hlength : chain.devices.length = ctx.chain.devices.length := by
    unfold JtagChain.loadBsdl at hload
    split at hload
    · obtain ⟨-, rfl⟩ := Prod.mk.inj (Option.some.inj hload)
      rfl
    · obtain ⟨parsed, -, hload⟩ := Option.bind_eq_some_iff.mp hload
      split at hload
      · obtain ⟨-, rfl⟩ := Prod.mk.inj (Option.some.inj hload)
        rfl
      · obtain ⟨-, rfl⟩ := Prod.mk.inj (Option.some.inj hload)
        exact List.length_set
  have h₁ : Leaves i decodeFilter { ctx with chain } := h.congr rfl hlength
  cases ok with
  | false =>
    obtain ⟨-, rfl⟩ := Prod.mk.inj (Option.some.inj hrest)
    exact h₁
  | true =>
    obtain ⟨-, rfl⟩ := Prod.mk.inj (Option.some.inj hrest)
    exact h₁

theorem Leaves.runScript (h : Leaves i decodeFilter ctx) {j : ℤ} {script : Text} {response : Response}
    (e : Mcp.runScript T j script ctx = some (response, ctx')) : Leaves i decodeFilter ctx' := by
  obtain ⟨host, ctx₂, hopen, hrest⟩ := Method.bind_eq_some.mp e
  unfold McpScriptHost.open at hopen
  cases hj : ctx.scanner j with
  | error what =>
    rw [hj] at hopen
    obtain ⟨rfl, rfl⟩ := Prod.mk.inj (Option.some.inj hopen)
    obtain ⟨-, rfl⟩ := Prod.mk.inj (Option.some.inj hrest)
    exact h
  | ok scanner =>
    rw [hj] at hopen
    obtain ⟨⟨driver, ctx₁⟩, hdriver, he⟩ := Option.map_eq_some_iff.mp hopen
    obtain ⟨rfl, rfl⟩ := Prod.mk.inj he
    have hset : Leaves i decodeFilter (ctx.setScanner j { scanner with chain := ctx.chain }) :=
      h.setScanner_same rfl fun hij => h scanner (hij ▸ hj)
    obtain ⟨hs, hd⟩ := keeps_pinDriver j _ _ _ (show HasScanners _ _ _ from ⟨rfl, rfl⟩) hdriver
    have h₁ : Leaves i decodeFilter ctx₁ := hset.congr hs (congrArg List.length hd)
    cases driver with
    | error what =>
      obtain ⟨-, rfl⟩ := Prod.mk.inj (Option.some.inj hrest)
      exact h₁
    | ok driver =>
      obtain ⟨⟨r, host⟩, hrun, he⟩ := Option.map_eq_some_iff.mp hrest
      obtain ⟨-, rfl⟩ := Prod.mk.inj he
      have hhost : HostFilters ctx₁.chain.devices scanner.decodeFilter host :=
        ScriptEngine.keeps_run keeps_call script _ _ _ ⟨rfl, rfl⟩ hrun
      have hlast : Leaves i decodeFilter (ctx₁.setScanner j { host.scanner with chain := host.chain }) :=
        h₁.setScanner_same hhost.1 fun hij => hhost.2.trans (h scanner (hij ▸ hj))
      exact hlast.congr rfl rfl

/-- What a request does to the filter of a device. -/
theorem Leaves.request (h : Leaves i decodeFilter ctx) (r : Request) {preSamples : ℕ → ℕ} {response : Response}
    (e : r.task T preSamples ctx = some (response, ctx')) : Leaves i (r.filterAfter i decodeFilter) ctx' := by
  cases r with
  | readIdcode | detectDevices => exact leaves_detect e
  | loadBsdl j path contents => exact h.loadBsdl e
  | listDevices =>
    obtain ⟨-, rfl⟩ := Prod.mk.inj (Option.some.inj e)
    exact h
  | listPins j =>
    rw [Request.task, Mcp.listPins] at e
    refine h.withScanner_same (fun devices filter sc r sc' hsc e => ?_) e
    obtain ⟨-, rfl⟩ := Prod.mk.inj (Option.some.inj e)
    exact hsc
  | readPin j pinName =>
    refine h.withScanner_same (fun devices filter => keeps_filters_sample.bind fun result sc r sc' hsc e => ?_) e
    obtain ⟨-, rfl⟩ := Prod.mk.inj (Option.some.inj e)
    exact hsc
  | setPin j pinName value =>
    obtain ⟨hs, hd⟩ := keeps_setPin j pinName value _ _ _ (show HasScanners _ _ _ from ⟨rfl, rfl⟩) e
    exact h.congr hs (congrArg List.length hd)
  | captureStart p now passes =>
    rw [Request.task, Mcp.captureStart] at e
    refine h.withScanner (f := fun _ => p.pinFilter.dedup) (fun sc r sc' he => ?_) e
    obtain ⟨⟨r, t⟩, hrun, he⟩ := Option.map_eq_some_iff.mp he
    obtain ⟨-, rfl⟩ := Prod.mk.inj he
    exact keeps_filters_run passes _ _ _ (show Filters _ _ _ from ⟨rfl, rfl⟩) hrun
  | runScript j script => exact h.runScript e
  | sampleBsr j =>
    rw [Request.task, Mcp.sampleBsr] at e
    refine h.withScanner (f := fun _ => []) (fun sc r sc' he => ?_) e
    rw [Method.modify_bind] at he
    obtain ⟨result, sc₁, hsample, hrest⟩ := Method.bind_eq_some.mp he
    obtain ⟨-, rfl⟩ := Prod.mk.inj (Option.some.inj hrest)
    exact keeps_filters_sample _ _ _ (show Filters _ _ (Scanner.setDecodeFilter [] sc) from ⟨rfl, rfl⟩) hsample
  | close =>
    obtain ⟨-, rfl⟩ := Prod.mk.inj (Option.some.inj e)
    exact leaves_of_empty rfl

/-- The filter of a scanner after a history. -/
theorem filter_of_ran {preSamples : ℕ → ℕ} {history : List Request} (h : Ran T preSamples history ctx) :
    Leaves i (filterLeft i history) ctx := by
  induction h with
  | start h => exact leaves_of_empty h
  | other h hs hd ih => exact ih.congr hs (congrArg List.length hd)
  | request h r e ih =>
    rw [filterLeft, List.foldl_append]
    exact ih.request r e

end OwlTap.Mcp
