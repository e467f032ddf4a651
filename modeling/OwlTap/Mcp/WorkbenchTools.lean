import OwlTap.BoundaryScan.Workbench
import OwlTap.Mcp.FilterHistory
import OwlTap.Mcp.SampleErrors

/-!
# Pin tools on the bench

`read_pin`, `set_pin`, `hardware/sample_bsr` and `run_script` on a context whose chain is at rest answer what
the same requests answer on the bench, in any order and whatever scripts say (`pins_served`): a pin is
what its cells see, and what has been staged for a device is what it is driven with.
-/

namespace OwlTap.Mcp

open OwlTap Ftdi Bsdl Jtag BoundaryScan Hardware Script

/-! ### Requests on the bench -/

/-- There is a device with this index. -/
def InRange (models : List (Option BSDLDevice)) (deviceIndex : ℤ) : Prop :=
  0 ≤ deviceIndex ∧ deviceIndex < models.length

instance (models : List (Option BSDLDevice)) (deviceIndex : ℤ) : Decidable (InRange models deviceIndex) :=
  inferInstanceAs (Decidable (_ ∧ _))

/-- The answer of a script host that samples. -/
def sampleAnswer : Except String ScanResult → Bool × ScanResult × String
  | .ok result => (true, result, "")
  | .error e => (false, {}, e)

/-- The answer of a script host that does something else. -/
def statusAnswer : Except String Unit → Bool × String
  | .ok () => (true, "")
  | .error e => (false, e)

/-- What `set_pin` answers. -/
def setPinResult (deviceIndex : ℤ) (pinName : Text) (value : ℤ) : Json :=
  .obj [("ok", .bool true), ("device_index", .int deviceIndex), ("pin_name", .str (String.ofList pinName)), ("value", .int value)]

/-- What `hardware/sample_bsr` answers. -/
def sampleBsrResult (deviceIndex : ℤ) (result : ScanResult) : Json :=
  .obj [("device_index", .int deviceIndex), ("pins", scanResultToJson result), ("raw_bsr", rawBsrToJson result.rawBsr)]

/-- The tools that use the pins. -/
inductive PinTool where
  | readPin (deviceIndex : ℤ) (pinName : Text)
  | setPin (deviceIndex : ℤ) (pinName : Text) (value : ℤ)
  | sampleBsr (deviceIndex : ℤ)
  | runScript (deviceIndex : ℤ) (script : Text)

/-- The request that runs a tool. -/
def PinTool.request : PinTool → Request
  | readPin deviceIndex pinName => .readPin deviceIndex pinName
  | setPin deviceIndex pinName value => .setPin deviceIndex pinName value
  | sampleBsr deviceIndex => .sampleBsr deviceIndex
  | runScript deviceIndex script => .runScript deviceIndex script

section

variable (models : List (Option BSDLDevice)) (deviceIndex : ℤ)

/-- Scripts on the bench. -/
def workbenchHost : ScriptHost Workbench where
  sample := sampleAnswer <$> Workbench.sample models deviceIndex
  setPin pinName value := statusAnswer <$> Workbench.setPin models deviceIndex pinName value
  setPinHighZ pinName := statusAnswer <$> Workbench.setPinHighZ models deviceIndex pinName
  applyOutputs := statusAnswer <$> Workbench.applyOutputs models deviceIndex
  resetToSafe := modify (Workbench.resetToSafe models deviceIndex)
  sleepMs _ := pure (true, "")

/-- Before the first use of a device something is staged for it. -/
def takeUp (b : Workbench) : Workbench :=
  if (b.staged.lookup deviceIndex).isSome then b else b.capture models deviceIndex

/-- Look at the pins, and show what is seen. -/
def look (show_ : ScanResult → Json) : Method Workbench Response :=
  if InRange models deviceIndex then Except.map show_ <$> Workbench.sample models deviceIndex
  else pure (.error "scanner: device_index out of range")

/-- Apply what has been staged. -/
def applyStaged (answer : Json) (staging : Method Workbench (Except String Unit)) : Method Workbench Response := do
  match ← staging with
  | .error e => pure (.error e)
  | .ok () => Except.map (fun _ => answer) <$> Workbench.applyOutputs models deviceIndex

/-- Drive a pin. -/
def drivePin (pinName : Text) (value : ℤ) : Method Workbench Response :=
  if InRange models deviceIndex then do
    modify (takeUp models deviceIndex)
    applyStaged models deviceIndex (setPinResult deviceIndex pinName value)
      (if value < 0 then Workbench.setPinHighZ models deviceIndex pinName
      else Workbench.setPin models deviceIndex pinName value)
  else pure (.error "pinDriver: device_index out of range")

/-- Run a script. -/
def runOnWorkbench (script : Text) : Method Workbench Response :=
  if InRange models deviceIndex then do
    modify (takeUp models deviceIndex)
    let r ← ScriptEngine.run (workbenchHost models deviceIndex) script
    pure (.ok (scriptResultToJson r))
  else pure (.error "scanner: device_index out of range")

end

/-- What a tool does on the bench. -/
def PinTool.onWorkbench (models : List (Option BSDLDevice)) : PinTool → Method Workbench Response
  | readPin deviceIndex pinName => look models deviceIndex (readPinResult deviceIndex pinName)
  | setPin deviceIndex pinName value => drivePin models deviceIndex pinName value
  | sampleBsr deviceIndex => look models deviceIndex (sampleBsrResult deviceIndex)
  | runScript deviceIndex script => runOnWorkbench models deviceIndex script

/-! ### Scanners -/

section

variable {models : List (Option BSDLDevice)} {i : ℤ} {dev : BSDLDevice}

/-- A scanner of a device that has no filter, and no error that does not come again. -/
structure Unfiltered (models : List (Option BSDLDevice)) (i : ℤ) (data : ScannerData) : Prop where
  /-- It is of the device. -/
  index : data.deviceIndex = i
  /-- It decodes all pins. -/
  filter : data.decodeFilter = []
  /-- Where a sample can be taken none has failed. -/
  error : ∀ dev, modelAt models i = some dev → dev.sampleOpcode ≠ none → data.lastError = ""

/-- What a scanner returns. -/
def resultOf : Except String ScanResult → ScanResult
  | .ok result => result
  | .error _ => {}

/-- The error that it notes. -/
def errorOf : Except String ScanResult → String
  | .ok _ => ""
  | .error e => e

/-- A sample that can be taken. -/
theorem sample_some {sc : Scanner (List (Device BoundaryDevice))} {b : Workbench} (h : Unfiltered models i sc.toScannerData)
    (hw : Wired models sc.chain b.devices) (hm : modelAt models i = some dev) {op : BitVec 32}
    (hs : dev.sampleOpcode = some op) :
    ∃ tap, Scanner.sample (Target.chain BoundaryDevice.logic) sc =
        some (decodeBoundaryScan dev (b.seen i), { sc with chain := { sc.chain with tap } }) ∧
      Wired models { sc.chain with tap } (b.access i BoundaryDevice.sampled).devices := by
  obtain ⟨k, rfl, hk⟩ := exists_of_modelAt hm
  obtain ⟨d, tap₁, tap₂, tap₃, hd, e₁, e₂, e₃, hw'⟩ := hw.sampled hk hs
  have hb : sc.bsdlDevice = some dev := by
    rw [Scanner.bsdlDevice, h.index, ← hm]
    exact hw.bsdl k
  have hseen : b.seen k = packBits d.seen := by
    rw [Workbench.seen, Int.toNat_natCast, hd, Option.elim_some]
  have hbits : sc.maxNeededBsrBits = 0 := if_pos h.filter
  rw [← h.index] at e₁ e₃
  rw [← hbits] at e₃
  have hr : decodeBoundaryScan dev (b.seen k) = filterScan sc.decodeFilter (decodeBoundaryScan dev (packBits d.seen)) := by
    rw [filterScan, if_pos h.filter, hseen]
  refine ⟨tap₃, And.left (Scans.sample ⟨dev, op, _, _, _, _, _, hb, hs, e₁, e₂, e₃, hr, rfl⟩), ?_⟩
  rw [Workbench.access, Int.toNat_natCast]
  exact hw'

/-- A scanner sees what is seen on the bench. -/
theorem sample_spec (sc : Scanner (List (Device BoundaryDevice))) {b : Workbench} (h : Unfiltered models i sc.toScannerData)
    (hw : Wired models sc.chain b.devices) :
    ∃ r sc' b', Scanner.sample (Target.chain BoundaryDevice.logic) sc = some (resultOf r, sc') ∧
      Workbench.sample models i b = some (r, b') ∧ (∀ e, r = .error e → e ≠ "") ∧ sc'.lastError = errorOf r ∧
      Unfiltered models i sc'.toScannerData ∧ Wired models sc'.chain b'.devices ∧ b'.staged = b.staged := by
  have hb : sc.bsdlDevice = modelAt models i := by
    rw [Scanner.bsdlDevice, h.index]
    exact hw.bsdl i
  cases hm : modelAt models i with
  | none =>
    rw [hm] at hb
    refine ⟨.error "BSDL not loaded", { sc with lastError := "BSDL not loaded" }, b, ?_, ?_, ?_, rfl, ⟨h.index, h.filter, ?_⟩,
      hw, rfl⟩
    · unfold Scanner.sample
      rw [hb]
      rfl
    · unfold Workbench.sample
      rw [hm]
    · rintro e ⟨⟩
      decide
    · intro dev hm'
      rw [hm] at hm'
      cases hm'
  | some dev =>
    rw [hm] at hb
    cases hs : dev.sampleOpcode with
    | none =>
      refine ⟨.error "SAMPLE instruction not found in BSDL", { sc with lastError := "SAMPLE instruction not found in BSDL" },
        b, ?_, ?_, ?_, rfl, ⟨h.index, h.filter, ?_⟩, hw, rfl⟩
      · unfold Scanner.sample
        simp only [hb, hs]
        rfl
      · simp only [Workbench.sample, hm, hs]
      · rintro e ⟨⟩
        decide
      · intro dev' hm' hs'
        obtain rfl : dev = dev' := Option.some.inj (hm.symm.trans hm')
        exact absurd hs hs'
    | some op =>
      obtain ⟨tap, e, hw'⟩ := sample_some h hw hm hs
      refine ⟨.ok (decodeBoundaryScan dev (b.seen i)), { sc with chain := { sc.chain with tap } }, _, e, ?_,
        (fun e h => by cases h), h.error dev hm (by rw [hs]; exact Option.some_ne_none op), ⟨h.index, h.filter, h.error⟩, hw', rfl⟩
      simp only [Workbench.sample, hm, hs]

/-! ### Scripts -/

variable {others : ℤ → Option (List Byte)}

/-- The host of a script stands for a device on the bench. -/
structure Hosts (models : List (Option BSDLDevice)) (i : ℤ) (others : ℤ → Option (List Byte))
    (h : McpScriptHost (List (Device BoundaryDevice))) (b : Workbench) : Prop where
  /-- Its scanner decodes all pins. -/
  scanner : Unfiltered models i h.scanner
  /-- Its driver stands for the device. -/
  driver : Handles models i others { h.driver with chain := h.chain } b

/-- What a script host makes of a sample. -/
theorem sampleAnswer_eq {r : Except String ScanResult} (h : ∀ e, r = .error e → e ≠ "") :
    sampleAnswer r = (decide (errorOf r = ""), resultOf r, errorOf r) := by
  cases r with
  | ok result => rfl
  | error e =>
    rw [sampleAnswer, errorOf, resultOf, decide_eq_false (h e rfl)]

theorem onScanner_of_eq {σ α : Type} {m : Method (Scanner σ) α} (h : McpScriptHost σ) {a : α} {sc : Scanner σ}
    (e : m { h.scanner with chain := h.chain } = some (a, sc)) :
    McpScriptHost.onScanner m h = some (a, { h with scanner := sc.toScannerData, chain := sc.chain }) := Method.on_of_eq _ e

theorem onDriver_of_eq {σ α : Type} {m : Method (PinDriver σ) α} (h : McpScriptHost σ) {a : α} {pd : PinDriver σ}
    (e : m { h.driver with chain := h.chain } = some (a, pd)) :
    McpScriptHost.onDriver m h = some (a, { h with driver := pd.toDriverData, chain := pd.chain }) := Method.on_of_eq _ e

theorem simulates_sample : Method.Simulates (Hosts models i others)
    (McpScriptHost.host (Target.chain BoundaryDevice.logic)).sample (workbenchHost models i).sample := by
  intro h b hh
  obtain ⟨r, sc', b', e, e', hne, herr, hu, hw, hst⟩ :=
    sample_spec { h.scanner with chain := h.chain } hh.scanner hh.driver.wired
  refine ⟨sampleAnswer r, { h with scanner := sc'.toScannerData, chain := sc'.chain }, b', ?_, ?_, hu, ?_⟩
  · refine onScanner_of_eq h ?_
    rw [McpScriptHost.sample, Method.bind_of_eq _ e, sampleAnswer_eq hne, herr]
  · exact Method.map_of_eq sampleAnswer e'
  · exact hh.driver.rewired hw hst

theorem simulates_status {m : Method (PinDriver (List (Device BoundaryDevice))) Bool}
    {n : Method Workbench (Except String Unit)} (h : DoneOn models i m n) :
    Method.Simulates (Hosts models i others) (McpScriptHost.status m) (statusAnswer <$> n) := by
  intro x b hh
  obtain ⟨ok, pd', b', e, e', hd⟩ := h others _ b hh.driver
  refine ⟨(ok, if ok then "" else pd'.lastError), { x with driver := pd'.toDriverData, chain := pd'.chain }, b', ?_, ?_,
    hh.scanner, hd⟩
  · refine onDriver_of_eq x ?_
    rw [Method.bind_of_eq _ e]
  · refine (Method.map_of_eq statusAnswer e').trans ?_
    cases ok <;> rfl

theorem simulates_resetToSafe : Method.Simulates (Hosts models i others)
    (McpScriptHost.host (Target.chain BoundaryDevice.logic)).resetToSafe (workbenchHost models i).resetToSafe := by
  intro x b hh
  exact ⟨(), _, b.resetToSafe models i, rfl, rfl, hh.scanner, hh.driver.resetToSafe⟩

/-- A command does what it does on the bench. -/
theorem simulates_call (command : Command) : Method.Simulates (Hosts models i others)
    ((McpScriptHost.host (Target.chain BoundaryDevice.logic)).call command) ((workbenchHost models i).call command) := by
  cases command with
  | sample => exact simulates_sample.map _
  | read pinName => exact simulates_sample.map _
  | expect pinName expected => exact simulates_sample.map _
  | set pinName drive =>
    cases drive with
    | value v => exact (simulates_status (doneOn_setPin pinName v)).map _
    | highZ => exact (simulates_status (doneOn_setPinHighZ pinName)).map _
  | highz pinName => exact (simulates_status (doneOn_setPinHighZ pinName)).map _
  | apply => exact (simulates_status doneOn_applyOutputs).map _
  | sleep milliseconds => exact (Method.Simulates.pure _).map _
  | resetSafe => exact simulates_resetToSafe.bind fun _ => (simulates_status doneOn_applyOutputs).map _

/-! ### The context -/

/-- The context stands for the bench. -/
structure Served (models : List (Option BSDLDevice)) (ctx : HardwareContext (List (Device BoundaryDevice))) (b : Workbench) :
    Prop where
  /-- The devices are those on the bench. -/
  wired : Wired models ctx.chain b.devices
  /-- The scanners decode all pins. -/
  scanners : ∀ i data, ctx.scanners.lookup i = some data → InRange models i ∧ Unfiltered models i data
  /-- The drivers have staged what is staged. -/
  drivers : ∀ i data, ctx.pinDrivers.lookup i = some data → InRange models i ∧
    Handles models i (b.staged.lookup ·) { data with chain := ctx.chain } b
  /-- For other devices nothing is. -/
  unused : ∀ i, ctx.pinDrivers.lookup i = none → b.staged.lookup i = none

variable {ctx : HardwareContext (List (Device BoundaryDevice))} {b b' : Workbench}

/-- At first nothing is staged. -/
theorem Served.start (h : Wired models ctx.chain ctx.chain.tap.cores) (hs : ctx.scanners = ∅) (hp : ctx.pinDrivers = ∅) :
    Served models ctx ⟨ctx.chain.tap.cores, ∅⟩ where
  wired := h
  scanners i data e := by
    rw [hs, AList.lookup_empty] at e
    cases e
  drivers i data e := by
    rw [hp, AList.lookup_empty] at e
    cases e
  unused _ _ := AList.lookup_empty _

theorem Served.hasDevice (h : Served models ctx b) (i : ℤ) : ctx.hasDevice i = decide (InRange models i) := by
  have hlen : models.length = ctx.chain.devices.length := by rw [← h.wired.loaded, List.length_map]
  rw [HardwareContext.hasDevice]
  refine decide_eq_decide.mpr ?_
  rw [InRange, hlen]

/-- A device in range has a scanner. -/
theorem Served.scanner (h : Served models ctx b) (hi : InRange models i) :
    ∃ data, ctx.scanner i = .ok data ∧ Unfiltered models i data := by
  unfold HardwareContext.scanner
  cases e : ctx.scanners.lookup i with
  | some data => exact ⟨data, rfl, (h.scanners i data e).2⟩
  | none => exact ⟨{ deviceIndex := i }, by simp [h.hasDevice, hi], rfl, rfl, fun _ _ _ => rfl⟩

/-- One out of range has none. -/
theorem Served.no_scanner (h : Served models ctx b) (hi : ¬InRange models i) :
    ctx.scanner i = .error "scanner: device_index out of range" := by
  unfold HardwareContext.scanner
  cases e : ctx.scanners.lookup i with
  | some data => exact absurd (h.scanners i data e).1 hi
  | none => simp [h.hasDevice, hi]

/-- With what is left of a scanner. -/
theorem Served.setScanner (h : Served models ctx b) (hi : InRange models i) (sc : Scanner (List (Device BoundaryDevice)))
    (hu : Unfiltered models i sc.toScannerData) (hw : Wired models sc.chain b'.devices) (hs : b'.staged = b.staged) :
    Served models (ctx.setScanner i sc) b' where
  wired := hw
  scanners j data e := by
    by_cases hj : j = i
    · subst hj
      obtain rfl : sc.toScannerData = data := Option.some.inj ((AList.lookup_insert _).symm.trans e)
      exact ⟨hi, hu⟩
    · exact h.scanners j data ((AList.lookup_insert_ne hj).symm.trans e)
  drivers j data e := by
    obtain ⟨hj, hd⟩ := h.drivers j data e
    rw [hs]
    exact ⟨hj, hd.rewired hw hs⟩
  unused j e := hs ▸ h.unused j e

/-- With what is left of a driver. -/
theorem Served.setPinDriver (h : Served models ctx b) (hi : InRange models i) {pd : PinDriver (List (Device BoundaryDevice))}
    (hd : Handles models i (b.staged.lookup ·) pd b') : Served models (ctx.setPinDriver i pd) b' where
  wired := hd.wired
  scanners := h.scanners
  drivers j data e := by
    by_cases hj : j = i
    · subst hj
      obtain rfl : pd.toDriverData = data := Option.some.inj ((AList.lookup_insert _).symm.trans e)
      exact ⟨hi, hd.index, hd.wired, hd.staged, hd.room, fun _ _ => rfl⟩
    · obtain ⟨hj', hd'⟩ := h.drivers j data ((AList.lookup_insert_ne hj).symm.trans e)
      exact ⟨hj', hd'.index, hd.wired, (hd.others j hj).trans hd'.staged, hd'.room, fun _ _ => rfl⟩
  unused j e := by
    by_cases hj : j = i
    · subst hj
      exact absurd ((AList.lookup_insert _).symm.trans e) (Option.some_ne_none _)
    · exact (hd.others j hj).trans (h.unused j ((AList.lookup_insert_ne hj).symm.trans e))

/-- A device in range has a driver, and something is staged for it. -/
theorem Served.pinDriver (h : Served models ctx b) (hi : InRange models i) :
    ∃ data ctx', HardwareContext.pinDriver (Target.chain BoundaryDevice.logic) i ctx = some (.ok data, ctx') ∧
      Served models ctx' (takeUp models i b) ∧ ctx'.scanners = ctx.scanners ∧
      Handles models i ((takeUp models i b).staged.lookup ·) { data with chain := ctx'.chain } (takeUp models i b) := by
  unfold HardwareContext.pinDriver takeUp
  cases e : ctx.pinDrivers.lookup i with
  | some data =>
    have hd := (h.drivers i data e).2
    rw [hd.staged]
    exact ⟨data, ctx, rfl, h, rfl, hd⟩
  | none =>
    rw [h.unused i e]
    obtain ⟨pd, hpd, hd⟩ := create_handles (b.staged.lookup ·) i h.wired fun _ _ => rfl
    refine ⟨pd.toDriverData, ctx.setPinDriver i pd, ?_, h.setPinDriver hi hd, rfl, hd.index, hd.wired, hd.staged, hd.room,
      fun _ _ => rfl⟩
    simp [h.hasDevice, hi, hpd]

/-- One out of range has none. -/
theorem Served.no_pinDriver (h : Served models ctx b) (hi : ¬InRange models i) :
    HardwareContext.pinDriver (Target.chain BoundaryDevice.logic) i ctx =
      some (.error "pinDriver: device_index out of range", ctx) := by
  unfold HardwareContext.pinDriver
  cases e : ctx.pinDrivers.lookup i with
  | some data => exact absurd (h.drivers i data e).1 hi
  | none => simp [h.hasDevice, hi]

/-! ### Tools -/

/-- A sample is taken and shown, or its error reported. -/
def showSample {σ : Type} (T : Target σ) (toJson : ScanResult → Json) : Method (Scanner σ) Response := do
  let result ← Scanner.sample T
  fun sc => some (if sc.lastError ≠ "" then .error sc.lastError else .ok (toJson result), sc)

theorem showSample_spec (sc : Scanner (List (Device BoundaryDevice))) (hu : Unfiltered models i sc.toScannerData)
    (hw : Wired models sc.chain b.devices) (toJson : ScanResult → Json) :
    ∃ r sc' b', showSample (Target.chain BoundaryDevice.logic) toJson sc = some (Except.map toJson r, sc') ∧
      Workbench.sample models i b = some (r, b') ∧ Unfiltered models i sc'.toScannerData ∧ Wired models sc'.chain b'.devices ∧
      b'.staged = b.staged := by
  obtain ⟨r, sc', b', e, e', hne, herr, hu', hw', hs⟩ := sample_spec sc hu hw
  refine ⟨r, sc', b', ?_, e', hu', hw', hs⟩
  rw [showSample, Method.bind_of_eq _ e, herr]
  cases r with
  | ok result => rfl
  | error what => rw [errorOf, if_pos (hne what rfl), Except.map]

/-- A tool that looks at the pins. -/
theorem simulates_look (prepare : Scanner (List (Device BoundaryDevice)) → Scanner (List (Device BoundaryDevice)))
    (hp : ∀ sc, Unfiltered models i sc.toScannerData → prepare sc = sc) (toJson : ScanResult → Json) :
    Method.Simulates (Served models)
      (withScanner i (modify prepare >>= fun _ => showSample (Target.chain BoundaryDevice.logic) toJson))
      (look models i toJson) := by
  intro ctx b h
  unfold withScanner look
  by_cases hi : InRange models i
  · obtain ⟨data, e, hu⟩ := h.scanner hi
    obtain ⟨r, sc', b', es, eb, hu', hw', hs⟩ := showSample_spec { data with chain := ctx.chain } hu h.wired toJson
    refine ⟨Except.map toJson r, ctx.setScanner i sc', b', ?_, ?_, h.setScanner hi sc' hu' hw' hs⟩
    · simp only [e]
      rw [Method.modify_bind, hp _ hu, es, Option.map_some]
    · rw [if_pos hi]
      exact Method.map_of_eq _ eb
  · refine ⟨.error "scanner: device_index out of range", ctx, b, ?_, ?_, h⟩
    · rw [h.no_scanner hi]
    · rw [if_neg hi]
      rfl

/-- What has been staged is applied, or the error reported. -/
theorem applyStaged_spec {m : Method (PinDriver (List (Device BoundaryDevice))) Bool}
    {n : Method Workbench (Except String Unit)} (h : DoneOn models i m n) (answer : Json)
    {pd : PinDriver (List (Device BoundaryDevice))} (hd : Handles models i others pd b) :
    ∃ r pd' b', (do
        if ← m then
          if ← PinDriver.applyOutputs (Target.chain BoundaryDevice.logic) then pure (.ok answer)
          else fun pd => some (.error pd.lastError, pd)
        else fun pd => some (.error pd.lastError, pd) : Method (PinDriver (List (Device BoundaryDevice))) Response) pd =
          some (r, pd') ∧
      applyStaged models i answer n b = some (r, b') ∧ Handles models i others pd' b' := by
  obtain ⟨ok, pd₂, b₂, e₂, e₂', hd₂⟩ := h others pd b hd
  unfold applyStaged
  rw [Method.bind_of_eq _ e₂, Method.bind_of_eq _ e₂']
  cases ok with
  | false => exact ⟨_, pd₂, b₂, rfl, rfl, hd₂⟩
  | true =>
    obtain ⟨ok', pd₃, b₃, e₃, e₃', hd₃⟩ := doneOn_applyOutputs others pd₂ b₂ hd₂
    refine ⟨Except.map (fun _ => answer) (if ok' then .ok () else .error pd₃.lastError), pd₃, b₃, ?_, ?_, hd₃⟩
    · rw [if_pos rfl, Method.bind_of_eq _ e₃]
      cases ok' <;> rfl
    · exact Method.map_of_eq _ e₃'

/-- The tool that drives a pin. -/
theorem simulates_drivePin (pinName : Text) (value : ℤ) : Method.Simulates (Served models)
    (Mcp.setPin (Target.chain BoundaryDevice.logic) i pinName value) (drivePin models i pinName value) := by
  intro ctx b h
  unfold Mcp.setPin withPinDriver drivePin
  by_cases hi : InRange models i
  · obtain ⟨data, ctx₁, e, h₁, -, hd⟩ := h.pinDriver hi
    rw [if_pos hi, Method.bind_of_eq _ e, Method.modify_bind]
    by_cases hv : value < 0
    · obtain ⟨r, pd', b', er, eb, hd'⟩ :=
        applyStaged_spec (doneOn_setPinHighZ pinName) (setPinResult i pinName value) hd
      rw [if_pos hv, if_pos hv]
      exact ⟨r, ctx₁.setPinDriver i pd', b', congrArg (Option.map _) er, eb, h₁.setPinDriver hi hd'⟩
    · obtain ⟨r, pd', b', er, eb, hd'⟩ :=
        applyStaged_spec (doneOn_setPin pinName value) (setPinResult i pinName value) hd
      rw [if_neg hv, if_neg hv]
      exact ⟨r, ctx₁.setPinDriver i pd', b', congrArg (Option.map _) er, eb, h₁.setPinDriver hi hd'⟩
  · rw [if_neg hi, Method.bind_of_eq _ (h.no_pinDriver hi)]
    exact ⟨_, ctx, b, rfl, rfl, h⟩

/-- The tool that runs a script. -/
theorem simulates_runScript (script : Text) : Method.Simulates (Served models)
    (Mcp.runScript (Target.chain BoundaryDevice.logic) i script) (runOnWorkbench models i script) := by
  intro ctx b h
  unfold Mcp.runScript runOnWorkbench
  by_cases hi : InRange models i
  · obtain ⟨sc, esc, hu⟩ := h.scanner hi
    have h₀ : Served models (ctx.setScanner i { sc with chain := ctx.chain }) b :=
      h.setScanner hi _ hu h.wired rfl
    obtain ⟨data, ctx₁, e, h₁, -, hd⟩ := h₀.pinDriver hi
    have hopen : McpScriptHost.open (Target.chain BoundaryDevice.logic) i ctx = some (.ok ⟨sc, data, ctx₁.chain⟩, ctx₁) := by
      unfold McpScriptHost.open
      simp only [esc, e, Option.map_some, Except.map]
    have hx₀ : Hosts models i ((takeUp models i b).staged.lookup ·) ⟨sc, data, ctx₁.chain⟩ (takeUp models i b) := ⟨hu, hd⟩
    obtain ⟨r, x, b', er, er', hx⟩ := ScriptEngine.simulates_run simulates_call script _ _ hx₀
    rw [if_pos hi, Method.bind_of_eq _ hopen, Method.modify_bind, Method.bind_of_eq _ er']
    refine ⟨_, x.close i ctx₁, b', ?_, rfl, ?_⟩
    · simp only [er, Option.map_some]
    · have h₂ := h₁.setPinDriver hi hx.driver
      exact h₂.setScanner hi { x.scanner with chain := x.chain } hx.scanner h₂.wired rfl
  · have hopen : McpScriptHost.open (Target.chain BoundaryDevice.logic) i ctx =
        some (.error "scanner: device_index out of range", ctx) := by
      unfold McpScriptHost.open
      rw [h.no_scanner hi]
    rw [if_neg hi, Method.bind_of_eq _ hopen]
    exact ⟨_, ctx, b, rfl, rfl, h⟩

/-- A tool does what it does on the bench. -/
theorem simulates_tool (preSamples : ℕ → ℕ) (tool : PinTool) : Method.Simulates (Served models)
    (tool.request.task (Target.chain BoundaryDevice.logic) preSamples) (tool.onWorkbench models) := by
  cases tool with
  | readPin i pinName => exact simulates_look id (fun _ _ => rfl) (readPinResult i pinName)
  | setPin i pinName value => exact simulates_drivePin pinName value
  | sampleBsr i =>
    refine simulates_look (Scanner.setDecodeFilter []) (fun sc hu => ?_) (sampleBsrResult i)
    rw [Scanner.setDecodeFilter, List.dedup_nil, ← hu.filter]
  | runScript i script => exact simulates_runScript script

end

/-! ### Two lamps -/

/-- The models of two lamps. -/
def pairModels : List (Option BSDLDevice) := [some lampModel, some lampModel]

/-- A context with a chain of two lamps. -/
def lampPair : HardwareContext (List (Device BoundaryDevice)) where
  config := {}
  chain := JtagChain.idle [{ position := 0, idcode := 0, irLength := 2, bsdl := some lampModel },
    { position := 1, idcode := 0, irLength := 2, bsdl := some lampModel }] [⟨.powered lampSpec, []⟩, ⟨.powered lampSpec, []⟩]
  scanners := ∅
  pinDrivers := ∅
  left := .testLogicReset

theorem lampPair_served : Served pairModels lampPair ⟨lampPair.chain.tap.cores, ∅⟩ := by
  refine Served.start ⟨⟨JtagChain.idle_synced _ _, rfl, JtagChain.idle_delivers _ _⟩, ⟨rfl, ?_⟩, rfl, rfl, ?_⟩ rfl rfl
  · simp [lampPair, JtagChain.idle]
  · intro k dev d hk hd
    have hdev : dev ∈ [lampModel, lampModel] := by
      simpa [pairModels] using List.mem_of_getElem? hk
    have hspec : d ∈ [BoundaryDevice.powered lampSpec, BoundaryDevice.powered lampSpec] := List.mem_of_getElem? hd
    obtain rfl : dev = lampModel := by simpa using hdev
    obtain rfl : d = BoundaryDevice.powered lampSpec := by simpa using hspec
    exact lampChain_attached.describes

/-- Light the first lamp, and look at the second. -/
def lampTools : List PinTool := [.setPin 0 "LAMP".toList 1, .readPin 1 "LAMP".toList]

/-- On the bench both tools answer, and the first lamp only is driven: with what the latches held, and with what was staged. -/
example : (lampTools.mapM (PinTool.onWorkbench pairModels) ⟨lampPair.chain.tap.cores, ∅⟩).map
    (fun r => (r.1.map Except.isOk, r.2.devices.map BoundaryDevice.driven)) =
      some ([true, true], [[[false], [true]], []]) := by decide +kernel

end OwlTap.Mcp
