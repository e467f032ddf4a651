import OwlTap.Mcp.CaptureTools
import OwlTap.Mcp.McpServer

/-!
# What the tools read from their parameters

Each hardware tool has a schema and reads its parameters by itself, before anything is submitted to
the executor. What the schemas accept the tools can read, with one exception: the items of
`capture_start`'s filter are not checked (`accepted_submitted`).
-/

namespace OwlTap.Mcp

open OwlTap Capture

/-! ### Typed reads -/

/-- `params[key].get<int>()`. -/
def intAt (key : String) (params : Json) : Except String ℤ := (memberOrNull key params).getInt

/-- `params[key].get<std::string>()`. -/
def stringAt (key : String) (params : Json) : Except String String := (memberOrNull key params).getString

/-- `params.value(key, default)`, for an `int`. -/
def intOr (key : String) (default : ℤ) (params : Json) : Except String ℤ := params.value Json.getInt key default

/-- `params.value(key, default)`, for a `bool`. -/
def boolOr (key : String) (default : Bool) (params : Json) : Except String Bool := params.value Json.getBool key default

/-! ### The calls -/

/-- A device, and how its ILA is accessed. -/
structure IlaTarget where
  devIdx : ℤ
  useBscane : Bool := false
  userChain : ℤ := 1
  deriving DecidableEq

/-- What a tool submits to the executor or asks of it. -/
inductive ToolCall where
  | readIdcode
  | detectDevices
  | loadBsdl (devIdx : ℤ) (bsdlPath : String)
  | listDevices
  | listPins (devIdx : ℤ)
  | readPin (devIdx : ℤ) (pinName : String)
  | setPin (devIdx : ℤ) (pinName : String) (value : ℤ)
  | captureStart (p : CaptureParams)
  | captureStop (jobId : String)
  | getSamples (jobId : String)
  | runScript (devIdx : ℤ) (script : String)
  | programBitstream (devIdx : ℤ) (bitPath : String)
  | readIlaStatus (target : IlaTarget)
  | jobPoll (jobId : String)
  | jobCancel (jobId : String)
  | ilaRunCapture (target : IlaTarget) (force : Bool) (pre timeoutMs : ℤ)

/-- A tool. -/
structure Tool where
  name : String
  description : String
  inputSchema : Json
  /-- What it reads. -/
  read : Json → Except String ToolCall

/-- The schema of an object with these members. -/
def objectSchema (required : List String) (properties : List (String × Json)) : Json :=
  .obj ([("type", .str "object")] ++ (if required = [] then [] else [("required", .arr (required.map .str))]) ++
    [("properties", .obj properties)])

/-- The schema of a type. -/
def typed (type : String) : Json := .obj [("type", .str type)]

/-- The schema of a type, with a description. -/
def described (type description : String) : Json := .obj [("type", .str type), ("description", .str description)]

def readIdcodeTool : Tool where
  name := "read_idcode"
  description := "Read JTAG IDCODEs from all devices in the chain."
  inputSchema := objectSchema [] []
  read _ := return .readIdcode

def detectDevicesTool : Tool where
  name := "detect_devices"
  description := "Re-detect and enumerate all JTAG devices in the chain."
  inputSchema := objectSchema [] []
  read _ := return .detectDevices

def loadBsdlTool : Tool where
  name := "load_bsdl"
  description := "Load a BSDL file for a specific device in the JTAG chain."
  inputSchema := objectSchema ["device_index", "bsdl_path"] [("device_index", typed "integer"), ("bsdl_path", typed "string")]
  read params := do
    let devIdx ← intAt "device_index" params
    let bsdlPath ← stringAt "bsdl_path" params
    return .loadBsdl devIdx bsdlPath

def listDevicesTool : Tool where
  name := "list_devices"
  description := "List currently detected JTAG devices (cached; call detect_devices to refresh)."
  inputSchema := objectSchema [] []
  read _ := return .listDevices

def listPinsTool : Tool where
  name := "list_pins"
  description := "List observable and drivable pins for a device (BSDL must be loaded)."
  inputSchema := objectSchema ["device_index"] [("device_index", typed "integer")]
  read params := do
    let devIdx ← intAt "device_index" params
    return .listPins devIdx

def readPinTool : Tool where
  name := "read_pin"
  description := "Read the current state of a pin via JTAG boundary scan SAMPLE."
  inputSchema := objectSchema ["device_index", "pin_name"] [("device_index", typed "integer"), ("pin_name", typed "string")]
  read params := do
    let devIdx ← intAt "device_index" params
    let pinName ← stringAt "pin_name" params
    return .readPin devIdx pinName

def setPinTool : Tool where
  name := "set_pin"
  description := "Drive a pin to HIGH (1), LOW (0), or HIGH-Z (-1) via EXTEST."
  inputSchema := objectSchema ["device_index", "pin_name", "value"]
    [("device_index", typed "integer"), ("pin_name", typed "string"),
      ("value", described "integer" "0=LOW, 1=HIGH, -1=HIGH-Z")]
  read params := do
    let devIdx ← intAt "device_index" params
    let pinName ← stringAt "pin_name" params
    let value ← intAt "value" params
    return .setPin devIdx pinName value

/-- The trigger mode of a name. -/
def triggerModeOf (mode : String) : TriggerMode :=
  if mode = "single" then .single else if mode = "normal" then .normal else .freeRun

/-- The names of a filter, if there is one. -/
def filterAt (params : Json) : Except String (List Bsdl.Text) :=
  match params.get? "pin_filter" with
  | some (.arr items) => items.mapM fun item => item.getString.map String.toList
  | _ => .ok []

def captureStartTool : Tool where
  name := "capture_start"
  description := "Start a boundary-scan capture session. Returns job_id for async polling."
  inputSchema := objectSchema ["device_index"]
    [("device_index", typed "integer"),
      ("buffer_depth", described "integer" "Number of samples (default 1000)"),
      ("interval_us", described "integer" "Sample interval in microseconds (default 1000)"),
      ("trigger_mode", described "string" "free_run | single | normal (default free_run)"),
      ("pin_filter", .obj [("type", .str "array"), ("items", typed "string"),
        ("description", .str "Only decode these pin names (empty = all pins)")])]
  read params := do
    let devIdx ← intAt "device_index" params
    let bufDepth ← intOr "buffer_depth" 1000 params
    let interval ← intOr "interval_us" 1000 params
    let mode ← params.value Json.getString "trigger_mode" "free_run"
    let pinFilter ← filterAt params
    return .captureStart { devIdx, bufDepth, interval, tmode := triggerModeOf mode, pinFilter }

/-- The schema of the tools that take a job. -/
def jobSchema : Json := objectSchema ["job_id"] [("job_id", typed "string")]

def captureStopTool : Tool where
  name := "capture_stop"
  description := "Cancel a running capture_start job."
  inputSchema := jobSchema
  read params := .captureStop <$> stringAt "job_id" params

def getSamplesTool : Tool where
  name := "get_samples"
  description := "Poll a capture_start job and return current state and samples."
  inputSchema := jobSchema
  read params := .getSamples <$> stringAt "job_id" params

def runScriptTool : Tool where
  name := "run_script"
  description := "Execute a waveform test script against a JTAG device."
  inputSchema := objectSchema ["device_index", "script"]
    [("device_index", typed "integer"), ("script", described "string" "Script text to execute")]
  read params := do
    let devIdx ← intAt "device_index" params
    let script ← stringAt "script" params
    return .runScript devIdx script

def programBitstreamTool : Tool where
  name := "program_bitstream"
  description := "Program the FPGA PL from a .bit or .bin file (async). Returns job_id."
  inputSchema := objectSchema ["device_index", "bitstream_path"]
    [("device_index", typed "integer"), ("bitstream_path", typed "string")]
  read params := do
    let devIdx ← intAt "device_index" params
    let bitPath ← stringAt "bitstream_path" params
    return .programBitstream devIdx bitPath

/-- The members that say how an ILA is accessed. -/
def ilaProperties : List (String × Json) :=
  [("device_index", typed "integer"),
    ("use_bscane", described "boolean" "true = access ILA via BSCANE2 TAP (default false)"),
    ("user_chain", described "integer" "BSCANE2 chain index 1..4 (USER1..USER4, default 1)")]

/-- What they say. -/
def ilaTargetAt (params : Json) : Except String IlaTarget := do
  let devIdx ← intAt "device_index" params
  let useBscane ← boolOr "use_bscane" false params
  let userChain ← intOr "user_chain" 1 params
  return ⟨devIdx, useBscane, userChain⟩

def readIlaStatusTool : Tool where
  name := "read_ila_status"
  description := "Read status and capabilities from the OwlTAP ILA IP TAP."
  inputSchema := objectSchema ["device_index"] ilaProperties
  read params := .readIlaStatus <$> ilaTargetAt params

def jobPollTool : Tool where
  name := "job_poll"
  description := "Poll the status of an async hardware job."
  inputSchema := jobSchema
  read params := .jobPoll <$> stringAt "job_id" params

def jobCancelTool : Tool where
  name := "job_cancel"
  description := "Request cancellation of a running or queued async hardware job."
  inputSchema := jobSchema
  read params := .jobCancel <$> stringAt "job_id" params

def ilaRunCaptureTool : Tool where
  name := "ila_run_capture"
  description := "Arm the OwlTAP ILA, optionally force-trigger, then return waveform samples."
  inputSchema := objectSchema ["device_index"]
    (ilaProperties ++
      [("force", described "boolean" "true = force-trigger immediately after arm (default true)"),
        ("pre_samples", described "integer" "Pre-trigger sample count (default 0)"),
        ("timeout_ms", described "integer" "Poll timeout in milliseconds (default 5000)")])
  read params := do
    let target ← ilaTargetAt params
    let force ← boolOr "force" true params
    let pre ← intOr "pre_samples" 0 params
    let timeoutMs ← intOr "timeout_ms" 5000 params
    return .ilaRunCapture target force pre timeoutMs

/-- The tools, in the order in which they are registered. -/
def hardwareTools : List Tool :=
  [readIdcodeTool, detectDevicesTool, loadBsdlTool, listDevicesTool, listPinsTool, readPinTool, setPinTool,
    captureStartTool, captureStopTool, getSamplesTool, runScriptTool, programBitstreamTool, readIlaStatusTool,
    jobPollTool, jobCancelTool, ilaRunCaptureTool]

/-- A tool's registration, where `submit` is what the bridge to the executor does with a call. -/
def Tool.toSpec {σ : Type} (submit : ToolCall → σ → Except String Json × σ) (t : Tool) : ToolSpec σ where
  name := t.name
  description := t.description
  inputSchema := t.inputSchema
  handler params s :=
    match t.read params with
    -- the JSON library's exceptions
    | .error what => (.error (.standard what), s)
    | .ok call =>
      let (result, s) := submit call s
      (result.mapError .runtimeError, s)

/-! ### What conforms can be read -/

/-- A member is there and of a type. -/
def Has (params : Json) (key type : String) : Prop := ∃ v, params.get? key = some v ∧ checkType type v = true

/-- A member is of a type if it is there. -/
def May (params : Json) (key type : String) : Prop :=
  params.isObject = true ∧ ∀ v, params.get? key = some v → checkType type v = true

theorem exists_int {v : Json} (h : checkType "integer" v = true) : ∃ n, v = .int n := by
  cases v with
  | int n => exact ⟨n, rfl⟩
  | _ => cases h

theorem exists_str {v : Json} (h : checkType "string" v = true) : ∃ text, v = .str text := by
  cases v with
  | str text => exact ⟨text, rfl⟩
  | _ => cases h

theorem exists_bool {v : Json} (h : checkType "boolean" v = true) : ∃ b, v = .bool b := by
  cases v with
  | bool b => exact ⟨b, rfl⟩
  | _ => cases h

theorem intAt_of_has {params : Json} {key : String} (h : Has params key "integer") : ∃ n, intAt key params = .ok n := by
  obtain ⟨v, hv, htype⟩ := h
  obtain ⟨n, rfl⟩ := exists_int htype
  exact ⟨_, by rw [intAt, memberOrNull, hv]; rfl⟩

theorem stringAt_of_has {params : Json} {key : String} (h : Has params key "string") :
    ∃ text, stringAt key params = .ok text := by
  obtain ⟨v, hv, htype⟩ := h
  obtain ⟨text, rfl⟩ := exists_str htype
  exact ⟨_, by rw [stringAt, memberOrNull, hv]; rfl⟩

/-- A member that may be there is read, or is the default. -/
theorem value_of_may {α : Type} {read : Json → Except String α} {params : Json} {key type : String} (default : α)
    (hread : ∀ v, checkType type v = true → ∃ a, read v = .ok a) (h : May params key type) :
    ∃ a, params.value read key default = .ok a := by
  obtain ⟨hobject, htype⟩ := h
  cases params with
  | obj members =>
    rw [Json.value]
    cases hv : members.lookup key with
    | none => exact ⟨default, rfl⟩
    | some v => exact hread v (htype v hv)
  | _ => cases hobject

theorem intOr_of_may {params : Json} {key : String} (default : ℤ) (h : May params key "integer") :
    ∃ n, intOr key default params = .ok n :=
  value_of_may default (fun v hv => by obtain ⟨n, rfl⟩ := exists_int hv; exact ⟨_, rfl⟩) h

theorem boolOr_of_may {params : Json} {key : String} (default : Bool) (h : May params key "boolean") :
    ∃ b, boolOr key default params = .ok b :=
  value_of_may default (fun v hv => by obtain ⟨b, rfl⟩ := exists_bool hv; exact ⟨_, rfl⟩) h

theorem stringOr_of_may {params : Json} {key : String} (default : String) (h : May params key "string") :
    ∃ text, params.value Json.getString key default = .ok text :=
  value_of_may default (fun v hv => by obtain ⟨text, rfl⟩ := exists_str hv; exact ⟨_, rfl⟩) h

section Schemas

variable {required : List String} {properties : List (String × Json)} {params schema : Json} {key type : String}

theorem propertiesOf_objectSchema : propertiesOf (objectSchema required properties) = properties := by
  rw [objectSchema]
  split
  · rfl
  · rfl

theorem required_objectSchema (h : key ∈ required) :
    (objectSchema required properties).get? "required" = some (.arr (required.map .str)) := by
  rw [objectSchema, if_neg (List.ne_nil_of_mem h)]
  rfl

/-- A member with a type may be there. -/
theorem may_of_conforms (h : Conforms (objectSchema required properties) params) (hkey : (key, schema) ∈ properties)
    (hschema : schema.isObject = true) (htype : typeOf schema = some type) : May params key type := by
  cases h with
  | any _ hno => cases hno
  | object _ hparams _ _ hproperties _ =>
    refine ⟨hparams, fun v hv => ?_⟩
    rw [propertiesOf_objectSchema] at hproperties
    exact hproperties _ hkey v hv hschema type htype

/-- And it is there if it is required. -/
theorem has_of_conforms (h : Conforms (objectSchema required properties) params) (hrequired : key ∈ required)
    (hkey : (key, schema) ∈ properties) (hschema : schema.isObject = true) (htype : typeOf schema = some type) :
    Has params key type := by
  have hmay := (may_of_conforms h hkey hschema htype).2
  cases h with
  | any _ hno => cases hno
  | object _ _ _ hfields _ _ =>
    have hthere := hfields _ key (required_objectSchema hrequired) (List.mem_map_of_mem hrequired)
    obtain ⟨v, hv⟩ := Option.isSome_iff_exists.mp hthere
    exact ⟨v, hv, hmay v hv⟩

end Schemas

theorem bind_ok {α β : Type} {x : Except String α} {f : α → Except String β} {a : α} (h : x = .ok a) : (x >>= f) = f a := by
  rw [h]
  rfl

/-- What a first read and a second one after it both give. -/
theorem exists_bind {α β : Type} {x : Except String α} {f : α → Except String β} (h : ∃ a, x = .ok a)
    (hf : ∀ a, ∃ b, f a = .ok b) : ∃ b, (x >>= f) = .ok b := by
  obtain ⟨a, ha⟩ := h
  rw [bind_ok ha]
  exact hf a

theorem exists_map {α β : Type} {x : Except String α} {f : α → β} (h : ∃ a, x = .ok a) : ∃ b, (f <$> x) = .ok b := by
  obtain ⟨a, rfl⟩ := h
  exact ⟨f a, rfl⟩

/-- Then only the second can fail. -/
theorem exists_bind_iff {α β : Type} {x : Except String α} {f : α → Except String β} {a : α} (h : x = .ok a) :
    (∃ b, (x >>= f) = .ok b) ↔ ∃ b, f a = .ok b := by
  rw [bind_ok h]

theorem read_job {params : Json} (h : Conforms jobSchema params) : ∃ jobId, stringAt "job_id" params = .ok jobId :=
  stringAt_of_has (@has_of_conforms _ _ _ (typed "string") _ _ h (by simp) (by simp) rfl rfl)

theorem read_ilaTarget {required : List String} {rest : List (String × Json)} {params : Json}
    (h : Conforms (objectSchema ("device_index" :: required) (ilaProperties ++ rest)) params) :
    ∃ target, ilaTargetAt params = .ok target := by
  have hkeys : ∀ p ∈ ilaProperties, p ∈ ilaProperties ++ rest := fun p hp => List.mem_append_left rest hp
  obtain ⟨devIdx, h₁⟩ := intAt_of_has (has_of_conforms h List.mem_cons_self (hkeys _ (.head _)) rfl rfl)
  obtain ⟨useBscane, h₂⟩ := boolOr_of_may false (may_of_conforms h (hkeys _ (.tail _ (.head _))) rfl rfl)
  obtain ⟨userChain, h₃⟩ := intOr_of_may 1 (may_of_conforms h (hkeys _ (.tail _ (.tail _ (.head _)))) rfl rfl)
  exact ⟨⟨devIdx, useBscane, userChain⟩, by rw [ilaTargetAt, bind_ok h₁, bind_ok h₂, bind_ok h₃]; rfl⟩

/-- A device and a text. -/
theorem read_deviceAnd {key : String} {schema params : Json} {make : ℤ → String → ToolCall}
    (h : Conforms (objectSchema ["device_index", key] [("device_index", typed "integer"), (key, schema)]) params)
    (hschema : schema.isObject = true) (htype : typeOf schema = some "string") :
    ∃ call, (do
      let devIdx ← intAt "device_index" params
      let text ← stringAt key params
      return make devIdx text) = .ok call := by
  refine exists_bind (intAt_of_has (has_of_conforms h (.head _) (.head _) rfl rfl)) fun devIdx => ?_
  exact exists_bind (stringAt_of_has (has_of_conforms h (.tail _ (.head _)) (.tail _ (.head _)) hschema htype))
    fun text => ⟨_, rfl⟩

/-- Some item of the filter is no string. -/
def BadFilter (params : Json) : Prop :=
  ∃ items, params.get? "pin_filter" = some (.arr items) ∧ ∃ item ∈ items, item.isString = false

theorem mapM_getString_ok_iff (items : List Json) :
    (∃ names, (items.mapM fun item => item.getString.map String.toList) = .ok names) ↔
      ∀ item ∈ items, item.isString = true := by
  induction items with
  | nil => exact ⟨fun _ => List.forall_mem_nil _, fun _ => ⟨[], rfl⟩⟩
  | cons item items ih =>
    rw [List.forall_mem_cons, ← ih, List.mapM_cons]
    cases item with
    | str text =>
      have hfirst : (Json.str text).getString.map String.toList = .ok text.toList := rfl
      rw [bind_ok hfirst]
      constructor
      · rintro ⟨names, hnames⟩
        refine ⟨rfl, ?_⟩
        cases hrest : (items.mapM fun item => item.getString.map String.toList) with
        | error what =>
          rw [hrest] at hnames
          cases hnames
        | ok rest => exact ⟨rest, rfl⟩
      · rintro ⟨-, rest, hrest⟩
        exact ⟨_, by rw [bind_ok hrest]; rfl⟩
    | _ => exact ⟨fun ⟨_, h⟩ => (by cases h), fun h => (by cases h.1)⟩

/-- The filter can be read unless some item is no string. -/
theorem filterAt_ok_iff (params : Json) : (∃ names, filterAt params = .ok names) ↔ ¬BadFilter params := by
  rw [filterAt]
  split
  next items hitems =>
    rw [mapM_getString_ok_iff]
    constructor
    · rintro h ⟨items', hitems', item, hitem, hbad⟩
      obtain rfl := Json.arr.inj (Option.some.inj (hitems.symm.trans hitems'))
      exact absurd (h item hitem) (by rw [hbad]; decide)
    · intro h item hitem
      by_contra hbad
      exact h ⟨items, hitems, item, hitem, Bool.eq_false_iff.mpr hbad⟩
  next hno =>
    refine ⟨fun _ => ?_, fun _ => ⟨[], rfl⟩⟩
    rintro ⟨items, hitems, -⟩
    exact hno items hitems

theorem read_captureStart {params : Json} (h : Conforms captureStartTool.inputSchema params) :
    (∃ call, captureStartTool.read params = .ok call) ↔ ¬BadFilter params := by
  obtain ⟨devIdx, h₁⟩ := intAt_of_has (has_of_conforms h (.head _) (.head _) rfl rfl)
  obtain ⟨bufDepth, h₂⟩ := intOr_of_may 1000 (may_of_conforms h (.tail _ (.head _)) rfl rfl)
  obtain ⟨interval, h₃⟩ := intOr_of_may 1000 (may_of_conforms h (.tail _ (.tail _ (.head _))) rfl rfl)
  obtain ⟨mode, h₄⟩ := stringOr_of_may "free_run" (may_of_conforms h (.tail _ (.tail _ (.tail _ (.head _)))) rfl rfl)
  refine (exists_bind_iff h₁).trans <| (exists_bind_iff h₂).trans <| (exists_bind_iff h₃).trans <|
    (exists_bind_iff h₄).trans <| Iff.trans ?_ (filterAt_ok_iff params)
  constructor
  · rintro ⟨call, hcall⟩
    cases hnames : filterAt params with
    | error what =>
      rw [hnames] at hcall
      cases hcall
    | ok names => exact ⟨names, rfl⟩
  · exact fun h => exists_bind h fun names => ⟨_, rfl⟩

/-- What conforms to a tool's schema can be read, but for a bad filter. -/
theorem read_of_conforms {t : Tool} (ht : t ∈ hardwareTools) {params : Json} (h : Conforms t.inputSchema params) :
    (∃ call, t.read params = .ok call) ↔ ¬(t.name = "capture_start" ∧ BadFilter params) := by
  by_cases hcapture : t = captureStartTool
  · subst hcapture
    rw [read_captureStart h]
    exact not_congr ⟨fun hbad => ⟨rfl, hbad⟩, fun hbad => hbad.2⟩
  have hname : t.name ≠ "capture_start" := by
    simp only [hardwareTools, List.mem_cons, List.not_mem_nil, or_false] at ht
    rcases ht with rfl | rfl | rfl | rfl | rfl | rfl | rfl | rfl | rfl | rfl | rfl | rfl | rfl | rfl | rfl | rfl
    all_goals first | decide | exact absurd rfl hcapture
  refine ⟨fun _ hbad => hname hbad.1, fun _ => ?_⟩
  simp only [hardwareTools, List.mem_cons, List.not_mem_nil, or_false] at ht
  rcases ht with rfl | rfl | rfl | rfl | rfl | rfl | rfl | rfl | rfl | rfl | rfl | rfl | rfl | rfl | rfl | rfl
  -- read_idcode, detect_devices, load_bsdl, list_devices
  · exact ⟨_, rfl⟩
  · exact ⟨_, rfl⟩
  · exact read_deviceAnd h rfl rfl
  · exact ⟨_, rfl⟩
  -- list_pins, read_pin, set_pin, capture_start
  · exact exists_bind (intAt_of_has (has_of_conforms h (.head _) (.head _) rfl rfl)) fun devIdx => ⟨_, rfl⟩
  · exact read_deviceAnd h rfl rfl
  · refine exists_bind (intAt_of_has (has_of_conforms h (.head _) (.head _) rfl rfl)) fun devIdx => ?_
    refine exists_bind (stringAt_of_has (has_of_conforms h (.tail _ (.head _)) (.tail _ (.head _)) rfl rfl)) fun pinName => ?_
    exact exists_bind
      (intAt_of_has (has_of_conforms h (.tail _ (.tail _ (.head _))) (.tail _ (.tail _ (.head _))) rfl rfl)) fun value =>
        ⟨_, rfl⟩
  · exact absurd rfl hcapture
  -- capture_stop, get_samples, run_script, program_bitstream
  · exact exists_map (read_job h)
  · exact exists_map (read_job h)
  · exact read_deviceAnd h rfl rfl
  · exact read_deviceAnd h rfl rfl
  -- read_ila_status, job_poll, job_cancel, ila_run_capture
  · exact exists_map (@read_ilaTarget _ [] _ h)
  · exact exists_map (read_job h)
  · exact exists_map (read_job h)
  · refine exists_bind (read_ilaTarget h) fun target => ?_
    refine exists_bind (boolOr_of_may true (may_of_conforms h (.tail _ (.tail _ (.tail _ (.head _)))) rfl rfl)) fun force => ?_
    refine exists_bind (intOr_of_may 0 (may_of_conforms h (.tail _ (.tail _ (.tail _ (.tail _ (.head _))))) rfl rfl))
      fun pre => ?_
    exact exists_bind
      (intOr_of_may 5000 (may_of_conforms h (.tail _ (.tail _ (.tail _ (.tail _ (.tail _ (.head _)))))) rfl rfl))
      fun timeoutMs => ⟨_, rfl⟩

/-! ### The accepted calls -/

/-- The server with the hardware tools, before its first message. -/
def hardwareServer {σ : Type} (submit : ToolCall → σ → Except String Json × σ) (info : ServerInfo) (behind : σ) :
    McpServer σ := { info, registry := .registerAll (hardwareTools.map (Tool.toSpec submit)), behind }

/-- **What the schemas accept is submitted.** In every session with the hardware tools, each accepted call is one of a
hardware tool whose parameters are read and submitted to the executor; but if it is of `capture_start` with a filter
item that is no string, the read throws, and nothing is submitted. -/
theorem accepted_submitted {σ : Type} (submit : ToolCall → σ → Except String Json × σ) (info : ServerInfo) (behind : σ)
    (msgs : List Json) (call : ToolSpec σ × Json)
    (hcall : call ∈ McpServer.accepted (hardwareServer submit info behind).registry msgs) :
    ∃ t ∈ hardwareTools, call.1 = t.toSpec submit ∧
      ((∃ c, t.read call.2 = .ok c ∧
          ∀ s, call.1.handler call.2 s = ((submit c s).1.mapError .runtimeError, (submit c s).2)) ↔
        ¬(t.name = "capture_start" ∧ BadFilter call.2)) ∧
      (t.name = "capture_start" ∧ BadFilter call.2 →
        ∃ what, ∀ s, call.1.handler call.2 s = (.error (.standard what), s)) := by
  obtain ⟨msg, -, hmsg⟩ := List.mem_filterMap.mp hcall
  obtain ⟨hspec, hconforms⟩ := McpServer.conforms_of_toCall hmsg
  have hfind := (ToolRegistry.spec?_registerAll _ _).symm.trans hspec
  obtain ⟨t, ht, hspec⟩ := List.mem_map.mp (List.mem_reverse.mp (List.mem_of_find?_eq_some hfind))
  have hread := @read_of_conforms t ht call.2 (by rw [← hspec] at hconforms; exact hconforms)
  refine ⟨t, ht, hspec.symm, ?_, fun hbad => ?_⟩
  · rw [← hread, ← hspec]
    refine ⟨fun ⟨c, hc, _⟩ => ⟨c, hc⟩, fun ⟨c, hc⟩ => ⟨c, hc, fun s => ?_⟩⟩
    simp only [Tool.toSpec, hc]
  · cases hno : t.read call.2 with
    | ok c => exact absurd hbad (hread.mp ⟨c, hno⟩)
    | error what =>
      refine ⟨what, fun s => ?_⟩
      rw [← hspec]
      simp only [Tool.toSpec, hno]

/-- A filter with a number in it. -/
def numberFilter : Json := .obj [("device_index", .int 0), ("pin_filter", .arr [.int 7])]

/-- A session that starts a capture with it. -/
def numberFilterSession : List Json :=
  [.obj [("jsonrpc", .str "2.0"), ("id", .int 1), ("method", .str "initialize")],
    .obj [("jsonrpc", .str "2.0"), ("id", .int 2), ("method", .str "tools/call"),
      ("params", .obj [("name", .str "capture_start"), ("arguments", numberFilter)])]]

theorem accepted_submitted_numberFilter : ∃ what, ∀ s : Unit,
    (captureStartTool.toSpec fun _ s => (.ok .null, s)).handler numberFilter s = (.error (.standard what), s) := by
  have hspec : (ToolRegistry.registerAll (hardwareTools.map (Tool.toSpec fun _ (s : Unit) => (.ok .null, s)))).spec?
      "capture_start" = some (captureStartTool.toSpec fun _ s => (.ok .null, s)) := by
    rw [ToolRegistry.spec?_registerAll]
    rfl
  have hvalid : validateParams captureStartTool.inputSchema numberFilter = none := by
    rw [validateParams]
    rfl
  have hcall : McpServer.callOf (ToolRegistry.registerAll (hardwareTools.map (Tool.toSpec fun _ (s : Unit) => (.ok .null, s))))
      (.obj [("name", .str "capture_start"), ("arguments", numberFilter)]) =
        some (captureStartTool.toSpec fun _ s => (.ok .null, s), numberFilter) := by
    have hparams : McpServer.callParams (.obj [("name", .str "capture_start"), ("arguments", numberFilter)]) =
        .ok ("capture_start", numberFilter) := rfl
    rw [McpServer.callOf, hparams]
    simp only [hspec, Option.bind_some]
    exact if_pos hvalid
  obtain ⟨t, -, ht, -, hbad⟩ := accepted_submitted (fun _ (s : Unit) => (.ok .null, s)) ⟨"owltap", "0.1.0"⟩ ()
    numberFilterSession _ (List.mem_filterMap.mpr ⟨_, .tail _ (.head _), hcall⟩)
  have hname : t.name = "capture_start" := (congrArg ToolSpec.name ht).symm
  exact hbad ⟨hname, [.int 7], rfl, .int 7, List.mem_singleton_self _, rfl⟩

end OwlTap.Mcp
