import OwlTap.Gui.DaemonClient
import OwlTap.Mcp.GuiRpcServer

/-!
# What the daemon does for the GUI's calls

The helpers of `GuiDaemonClient` write their arguments into the parameters of a request; the daemon's
methods read them again, some through a tool and its schema. Each call is the operation that it is
meant to be, with the arguments that it was given and the result that the operation has, but for two:
`pre_samples` arrives as its low 16 bits, and a script never runs (`rpc_performs`).
-/

namespace OwlTap.Gui

open OwlTap Ila Mcp

/-! ### The calls -/

/-- A call of one of the client's helpers. -/
inductive RpcCall where
  | daemonStatus
  | detectDevices
  | loadBsdl (deviceIndex : BitVec 32) (bsdlPath : String)
  | listPins (deviceIndex : BitVec 32)
  | readPin (deviceIndex : BitVec 32) (pinName : String)
  | captureStart (deviceIndex bufferDepth intervalUs : BitVec 32) (triggerMode : String) (pinFilter : List String)
  | captureStop (jobId : String)
  | captureGetSamples (jobId : String)
  | jobPoll (jobId : String)
  | ilaStatus (deviceIndex : BitVec 32) (useBscane : Bool) (userChain : BitVec 32)
  | ilaProbe (deviceIndex : BitVec 32) (useBscane : Bool) (userChain : BitVec 32)
  | ilaArm (deviceIndex : BitVec 32) (useBscane : Bool) (userChain : BitVec 32)
      (mask value riseMask fallMask mask2 val2 : BitVec 32) (orMode : Bool) (preSamples : BitVec 32)
  | ilaStop (deviceIndex : BitVec 32) (useBscane : Bool) (userChain : BitVec 32)
  | ilaForce (deviceIndex : BitVec 32) (useBscane : Bool) (userChain : BitVec 32)
  | ilaReset (deviceIndex : BitVec 32) (useBscane : Bool) (userChain : BitVec 32)
  | ilaReadSamples (deviceIndex : BitVec 32) (useBscane : Bool) (userChain : BitVec 32)
  | sampleBsr (deviceIndex : BitVec 32)
  | runScript (deviceIndex : BitVec 32) (scriptText : String)
  | programPl (deviceIndex : BitVec 32) (bitstreamPath : String)

/-- An `int` in JSON. -/
def int32 (n : BitVec 32) : Json := .int n.toInt

/-- A `uint32_t` in JSON. -/
def uint32 (n : BitVec 32) : Json := .int n.toNat

/-- How the members say how an ILA is accessed. -/
def ilaMembers (deviceIndex : BitVec 32) (useBscane : Bool) (userChain : BitVec 32) : List (String × Json) :=
  [("device_index", int32 deviceIndex), ("use_bscane", .bool useBscane), ("user_chain", int32 userChain)]

namespace RpcCall

def method : RpcCall → String
  | daemonStatus => "daemon/status"
  | detectDevices => "hardware/detect_devices"
  | loadBsdl _ _ => "hardware/load_bsdl"
  | listPins _ => "hardware/list_pins"
  | readPin _ _ => "hardware/read_pin"
  | captureStart _ _ _ _ _ => "capture/start"
  | captureStop _ => "capture/stop"
  | captureGetSamples _ => "capture/get_samples"
  | jobPoll _ => "job/poll"
  | ilaStatus _ _ _ => "ila/status"
  | ilaProbe _ _ _ => "ila/probe"
  | ilaArm _ _ _ _ _ _ _ _ _ _ _ => "ila/arm"
  | ilaStop _ _ _ => "ila/stop"
  | ilaForce _ _ _ => "ila/force_trigger"
  | ilaReset _ _ _ => "ila/reset"
  | ilaReadSamples _ _ _ => "ila/read_samples"
  | sampleBsr _ => "hardware/sample_bsr"
  | runScript _ _ => "script/run"
  | programPl _ _ => "hardware/program_pl"

def params : RpcCall → Json
  | daemonStatus | detectDevices => .obj []
  | loadBsdl d path => .obj [("device_index", int32 d), ("bsdl_path", .str path)]
  | listPins d | sampleBsr d => .obj [("device_index", int32 d)]
  | readPin d pinName => .obj [("device_index", int32 d), ("pin_name", .str pinName)]
  | captureStart d depth interval mode filter =>
    .obj ([("device_index", int32 d), ("buffer_depth", int32 depth), ("interval_us", int32 interval),
      ("trigger_mode", .str mode)] ++ if filter = [] then [] else [("pin_filter", .arr (filter.map .str))])
  | captureStop jobId | captureGetSamples jobId | jobPoll jobId => .obj [("job_id", .str jobId)]
  | ilaStatus d b u | ilaProbe d b u | ilaStop d b u | ilaForce d b u | ilaReset d b u | ilaReadSamples d b u =>
    .obj (ilaMembers d b u)
  | ilaArm d b u mask value riseMask fallMask mask2 val2 orMode preSamples =>
    .obj (ilaMembers d b u ++ [("mask", uint32 mask), ("value", uint32 value), ("rise_mask", uint32 riseMask),
      ("fall_mask", uint32 fallMask), ("mask2", uint32 mask2), ("val2", uint32 val2), ("or_mode", .bool orMode),
      ("pre_samples", int32 preSamples)])
  | runScript d text => .obj [("device_index", int32 d), ("script_text", .str text)]
  | programPl d path => .obj [("device_index", int32 d), ("bitstream_path", .str path)]

/-- The request that is sent. -/
def request (id : ℤ) (c : RpcCall) : Json :=
  .obj [("jsonrpc", .str "2.0"), ("id", .int id), ("method", .str c.method), ("params", c.params)]

/-- The operation that a call is meant to be, with the 16 bits that there are for `pre_samples`. -/
def operation : RpcCall → GuiRpcServer.Operation
  | daemonStatus => .daemonStatus
  | detectDevices => .tool .detectDevices
  | loadBsdl d path => .tool (.loadBsdl d.toInt path)
  | listPins d => .tool (.listPins d.toInt)
  | readPin d pinName => .tool (.readPin d.toInt pinName)
  | captureStart d depth interval mode filter =>
    .tool (.captureStart
      { devIdx := d.toInt, bufDepth := depth.toInt, interval := interval.toInt, tmode := triggerModeOf mode,
        pinFilter := filter.map String.toList })
  | captureStop jobId => .tool (.captureStop jobId)
  | captureGetSamples jobId => .tool (.getSamples jobId)
  | jobPoll jobId => .tool (.jobPoll jobId)
  | ilaStatus d b u => .ilaStatus ⟨d.toInt, b, u.toInt⟩
  | ilaProbe d b u => .ilaProbe ⟨d.toInt, b, u.toInt⟩
  | ilaArm d b u mask value riseMask fallMask mask2 val2 orMode preSamples =>
    .ilaArm ⟨d.toInt, b, u.toInt⟩
      { mask, value, riseMask, fallMask, mask2, val2, orMode, preSamples := preSamples.setWidth 16 }
  | ilaStop d b u => .ilaStop ⟨d.toInt, b, u.toInt⟩
  | ilaForce d b u => .ilaForceTrigger ⟨d.toInt, b, u.toInt⟩
  | ilaReset d b u => .ilaReset ⟨d.toInt, b, u.toInt⟩
  | ilaReadSamples d b u => .ilaReadSamples ⟨d.toInt, b, u.toInt⟩
  | sampleBsr d => .sampleBsr d.toInt
  | runScript d text => .tool (.runScript d.toInt text)
  | programPl d path => .programPl d.toInt path

def isRunScript : RpcCall → Bool
  | runScript _ _ => true
  | _ => false

end RpcCall

/-- What a call returns or throws when this is its reply. -/
def answerOf (resp : Json) : Except String Json :=
  match resp.get? "error" with
  | some e => .error (errorText e)
  | none => .ok (resultOf resp)

variable {σ : Type} (perform : GuiRpcServer.Operation → σ → Except String Json × σ)

/-- What comes of a call: its operation is performed; but a script is missing where the tool looks for it. -/
def outcome (c : RpcCall) (behind : σ) : Except String Json × σ :=
  if c.isRunScript then (.error "missing required parameter: script", behind) else perform c.operation behind

/-- A call, from its request to what it returns or throws. -/
def rpc (id : ℤ) (c : RpcCall) (behind : σ) : Option (Except String Json) × σ :=
  let (reply, behind) := (GuiRpcServer.daemonServer perform).onMessage (c.request id) behind
  (reply.map answerOf, behind)

/-! ### What is read is what was written -/

theorem getInt_int32 (n : BitVec 32) : (int32 n).getInt = .ok n.toInt := by
  change Except.ok (BitVec.ofInt 32 n.toInt).toInt = _
  rw [BitVec.ofInt_toInt]

theorem getUInt32_uint32 (n : BitVec 32) : (uint32 n).getUInt32 = .ok n := by
  change Except.ok (BitVec.ofInt 32 n.toNat) = _
  rw [BitVec.ofInt_natCast, BitVec.ofNat_toNat, BitVec.setWidth_eq]

theorem readIlaTarget_members (d : BitVec 32) (b : Bool) (u : BitVec 32) (rest : List (String × Json)) :
    GuiRpcServer.readIlaTarget (.obj (ilaMembers d b u ++ rest)) = .ok ⟨d.toInt, b, u.toInt⟩ := by
  have hdevice : intOr "device_index" 0 (.obj (ilaMembers d b u ++ rest)) = .ok d.toInt := getInt_int32 d
  have hbscane : boolOr "use_bscane" false (.obj (ilaMembers d b u ++ rest)) = .ok b := rfl
  have hchain : intOr "user_chain" 1 (.obj (ilaMembers d b u ++ rest)) = .ok u.toInt := getInt_int32 u
  rw [GuiRpcServer.readIlaTarget, bind_ok hdevice, bind_ok hbscane, bind_ok hchain]
  rfl

/-- The names of a filter are read as they were written. -/
theorem filterAt_names (filter : List String) :
    ((filter.map Json.str).mapM fun item => item.getString.map String.toList) = .ok (filter.map String.toList) := by
  induction filter with
  | nil => rfl
  | cons name filter ih =>
    rw [List.map_cons, List.mapM_cons]
    have hname : (Json.str name).getString.map String.toList = .ok name.toList := rfl
    rw [bind_ok hname, bind_ok ih]
    rfl

/-! ### Messages -/

section Messages

variable {perform}

/-- A request is handed to the method that it names. -/
theorem onMessage_request {c : RpcCall} {handler : RpcHandler σ}
    (h : (GuiRpcServer.daemonServer perform).handlers.lookup c.method = some handler) (id : ℤ) (behind : σ) :
    (GuiRpcServer.daemonServer perform).onMessage (c.request id) behind =
      (some (GuiRpcServer.finish (.int id) (handler c.params behind).1), (handler c.params behind).2) := by
  have hparse : parseRequest (c.request id) = .ok ⟨.int id, c.method, c.params⟩ := rfl
  have hparams : (if c.params.isNull then Json.obj [] else c.params) = c.params := by
    cases c <;> rfl
  rcases GuiRpcServer.onMessage_cases (GuiRpcServer.daemonServer perform) (c.request id) behind with
    ⟨err, herr, -⟩ | ⟨req, hreq, ⟨hnot, -⟩ | ⟨-, ⟨hnone, -⟩ | ⟨handler', hsome, hreply⟩⟩⟩
  · cases hparse.symm.trans herr
  · obtain rfl := Except.ok.inj (hparse.symm.trans hreq)
    cases hnot
  · obtain rfl := Except.ok.inj (hparse.symm.trans hreq)
    cases h.symm.trans hnone
  · obtain rfl := Except.ok.inj (hparse.symm.trans hreq)
    obtain rfl := Option.some.inj (h.symm.trans hsome)
    rw [hreply]
    simp only [hparams]

/-- What a method returns or throws is what the call returns or throws. -/
theorem answerOf_finish (id : ℤ) (r : Except String Json) : answerOf (GuiRpcServer.finish (.int id) r) = r := by
  cases r with
  | error what => rfl
  | ok result => rfl

/-- Nothing in the parameters is null, and they are an object. -/
theorem isNull_params (c : RpcCall) : c.params.isNull = false := by
  cases c <;> rfl

/-- A call that a tool performs. -/
theorem onMessage_tool {c : RpcCall} {t : Tool} (hmethod : (c.method, t.name) ∈ GuiRpcServer.toolMethods)
    (ht : t ∈ hardwareTools) (hvalid : validateParams t.inputSchema c.params = none) {call : ToolCall}
    (hread : t.read c.params = .ok call) (id : ℤ) (behind : σ) :
    (GuiRpcServer.daemonServer perform).onMessage (c.request id) behind =
      (some (GuiRpcServer.finish (.int id) (perform (.tool call) behind).1), (perform (.tool call) behind).2) := by
  rw [onMessage_request (GuiRpcServer.lookup_toolMethods hmethod),
    GuiRpcServer.forward_of_read ht (isNull_params c) hvalid hread]

/-- A call that is performed directly. -/
theorem onMessage_direct {c : RpcCall} {read : Json → Except String GuiRpcServer.Operation}
    (hmethod : (c.method, read) ∈ GuiRpcServer.directMethods) {op : GuiRpcServer.Operation}
    (hread : read c.params = .ok op) (id : ℤ) (behind : σ) :
    (GuiRpcServer.daemonServer perform).onMessage (c.request id) behind =
      (some (GuiRpcServer.finish (.int id) (perform op behind).1), (perform op behind).2) := by
  have hdirect : GuiRpcServer.direct perform read c.params behind = perform op behind := by
    rw [GuiRpcServer.direct, hread]
  rw [onMessage_request (GuiRpcServer.lookup_directMethods hmethod), hdirect]

/-- A call of a method that reads only how an ILA is accessed. -/
theorem onMessage_ila {c : RpcCall} {make : IlaTarget → GuiRpcServer.Operation}
    (hmethod : (c.method, fun p => make <$> GuiRpcServer.readIlaTarget p) ∈ GuiRpcServer.directMethods)
    {d : BitVec 32} {b : Bool} {u : BitVec 32} (hparams : c.params = .obj (ilaMembers d b u)) (id : ℤ) (behind : σ) :
    (GuiRpcServer.daemonServer perform).onMessage (c.request id) behind =
      (some (GuiRpcServer.finish (.int id) (perform (make ⟨d.toInt, b, u.toInt⟩) behind).1),
        (perform (make ⟨d.toInt, b, u.toInt⟩) behind).2) := by
  refine onMessage_direct hmethod ?_ id behind
  have hread := readIlaTarget_members d b u []
  rw [List.append_nil] at hread
  rw [hparams, hread]
  rfl

/-- What is armed is read as it was written, but for the width of `pre_samples`. -/
theorem readArm_params (d : BitVec 32) (b : Bool) (u mask value riseMask fallMask mask2 val2 : BitVec 32) (orMode : Bool)
    (preSamples : BitVec 32) :
    GuiRpcServer.readArm (RpcCall.ilaArm d b u mask value riseMask fallMask mask2 val2 orMode preSamples).params =
      .ok (RpcCall.ilaArm d b u mask value riseMask fallMask mask2 val2 orMode preSamples).operation := by
  have hpre : BitVec.ofInt 16 preSamples.toInt = preSamples.setWidth 16 :=
    BitVec.signExtend_eq_setWidth_of_le preSamples (by decide)
  generalize hmembers : RpcCall.params (.ilaArm d b u mask value riseMask fallMask mask2 val2 orMode preSamples) = params
  have htarget : GuiRpcServer.readIlaTarget params = .ok ⟨d.toInt, b, u.toInt⟩ := by
    rw [← hmembers]
    exact readIlaTarget_members d b u _
  have hmask : GuiRpcServer.uint32Or "mask" 0 params = .ok mask := hmembers ▸ getUInt32_uint32 mask
  have hvalue : GuiRpcServer.uint32Or "value" 0 params = .ok value := hmembers ▸ getUInt32_uint32 value
  have hriseMask : GuiRpcServer.uint32Or "rise_mask" 0 params = .ok riseMask := hmembers ▸ getUInt32_uint32 riseMask
  have hfallMask : GuiRpcServer.uint32Or "fall_mask" 0 params = .ok fallMask := hmembers ▸ getUInt32_uint32 fallMask
  have hmask2 : GuiRpcServer.uint32Or "mask2" 0 params = .ok mask2 := hmembers ▸ getUInt32_uint32 mask2
  have hval2 : GuiRpcServer.uint32Or "val2" 0 params = .ok val2 := hmembers ▸ getUInt32_uint32 val2
  have horMode : boolOr "or_mode" false params = .ok orMode := hmembers ▸ rfl
  have hpreSamples : intOr "pre_samples" 256 params = .ok preSamples.toInt := hmembers ▸ getInt_int32 preSamples
  rw [GuiRpcServer.readArm, bind_ok htarget, bind_ok hmask, bind_ok hvalue, bind_ok hriseMask, bind_ok hfallMask,
    bind_ok hmask2, bind_ok hval2, bind_ok horMode, bind_ok hpreSamples, hpre]
  rfl

/-- The members of a capture's parameters. -/
theorem read_captureStart_params (d depth interval : BitVec 32) (mode : String) (filter : List String) :
    captureStartTool.read (RpcCall.captureStart d depth interval mode filter).params =
      .ok (.captureStart
        { devIdx := d.toInt, bufDepth := depth.toInt, interval := interval.toInt, tmode := triggerModeOf mode,
          pinFilter := filter.map String.toList }) := by
  generalize hmembers : RpcCall.params (.captureStart d depth interval mode filter) = params
  have hdevice : intAt "device_index" params = .ok d.toInt := hmembers ▸ getInt_int32 d
  have hdepth : intOr "buffer_depth" 1000 params = .ok depth.toInt := hmembers ▸ getInt_int32 depth
  have hinterval : intOr "interval_us" 1000 params = .ok interval.toInt := hmembers ▸ getInt_int32 interval
  have hmode : params.value Json.getString "trigger_mode" "free_run" = .ok mode := hmembers ▸ rfl
  have hfilter : filterAt params = .ok (filter.map String.toList) := by
    rw [← hmembers]
    cases filter with
    | nil => rfl
    | cons name filter => exact filterAt_names (name :: filter)
  have hread : captureStartTool.read params = (do
      let devIdx ← intAt "device_index" params
      let bufDepth ← intOr "buffer_depth" 1000 params
      let interval ← intOr "interval_us" 1000 params
      let mode ← params.value Json.getString "trigger_mode" "free_run"
      let pinFilter ← filterAt params
      return .captureStart { devIdx, bufDepth, interval, tmode := triggerModeOf mode, pinFilter }) := rfl
  rw [hread, bind_ok hdevice, bind_ok hdepth, bind_ok hinterval, bind_ok hmode, bind_ok hfilter]
  rfl

theorem valid_captureStart_params (d depth interval : BitVec 32) (mode : String) (filter : List String) :
    validateParams captureStartTool.inputSchema (RpcCall.captureStart d depth interval mode filter).params = none := by
  rw [validateParams]
  cases filter with
  | nil => rfl
  | cons name filter => rfl

/-- A device and a text are read as they were written. -/
theorem read_deviceAnd_params (d : BitVec 32) (key text : String) (make : ℤ → String → ToolCall) (h : key ≠ "device_index") :
    (do
      let devIdx ← intAt "device_index" (.obj [("device_index", int32 d), (key, .str text)])
      let text ← stringAt key (.obj [("device_index", int32 d), (key, .str text)])
      return make devIdx text) = .ok (make d.toInt text) := by
  have hdevice : intAt "device_index" (.obj [("device_index", int32 d), (key, .str text)]) = .ok d.toInt := getInt_int32 d
  have htext : stringAt key (.obj [("device_index", int32 d), (key, .str text)]) = .ok text := by
    rw [stringAt, memberOrNull, Json.get?, List.lookup_cons, beq_false_of_ne h, List.lookup_cons_self]
    rfl
  rw [bind_ok hdevice, bind_ok htext]
  rfl

/-- **A request is answered with what comes of its call.** -/
theorem onMessage_call (c : RpcCall) (id : ℤ) (behind : σ) :
    (GuiRpcServer.daemonServer perform).onMessage (c.request id) behind =
      (some (GuiRpcServer.finish (.int id) (outcome perform c behind).1), (outcome perform c behind).2) := by
  cases c with
  | daemonStatus => exact onMessage_direct (List.mem_of_getElem? (i := 0) rfl) rfl id behind
  | detectDevices =>
    refine onMessage_tool (c := .detectDevices) (List.mem_of_getElem? (i := 0) rfl) (List.mem_of_getElem? (i := 1) rfl) ?_ ?_ id behind
    · rw [validateParams]
      rfl
    · rfl
  | loadBsdl d path =>
    refine onMessage_tool (c := .loadBsdl d path) (List.mem_of_getElem? (i := 1) rfl) (List.mem_of_getElem? (i := 2) rfl) ?_ ?_ id behind
    · rw [validateParams]
      rfl
    · exact read_deviceAnd_params d "bsdl_path" path .loadBsdl (by decide)
  | listPins d =>
    have hdevice : intAt "device_index" (RpcCall.listPins d).params = .ok d.toInt := getInt_int32 d
    refine onMessage_tool (c := .listPins d) (List.mem_of_getElem? (i := 2) rfl) (List.mem_of_getElem? (i := 4) rfl) ?_ ?_ id behind
    · rw [validateParams]
      rfl
    · exact bind_ok hdevice
  | readPin d pinName =>
    refine onMessage_tool (c := .readPin d pinName) (List.mem_of_getElem? (i := 3) rfl) (List.mem_of_getElem? (i := 5) rfl) ?_ ?_ id behind
    · rw [validateParams]
      rfl
    · exact read_deviceAnd_params d "pin_name" pinName .readPin (by decide)
  | captureStart d depth interval mode filter =>
    exact onMessage_tool (c := .captureStart d depth interval mode filter) (List.mem_of_getElem? (i := 5) rfl)
      (List.mem_of_getElem? (i := 7) rfl) (valid_captureStart_params d depth interval mode filter)
      (read_captureStart_params d depth interval mode filter) id behind
  | captureStop jobId =>
    refine onMessage_tool (c := .captureStop jobId) (List.mem_of_getElem? (i := 6) rfl) (List.mem_of_getElem? (i := 8) rfl) ?_ ?_ id behind
    · rw [validateParams]
      rfl
    · rfl
  | captureGetSamples jobId =>
    refine onMessage_tool (c := .captureGetSamples jobId) (List.mem_of_getElem? (i := 7) rfl) (List.mem_of_getElem? (i := 9) rfl) ?_ ?_ id behind
    · rw [validateParams]
      rfl
    · rfl
  | jobPoll jobId =>
    refine onMessage_tool (c := .jobPoll jobId) (List.mem_of_getElem? (i := 8) rfl) (List.mem_of_getElem? (i := 13) rfl) ?_ ?_ id behind
    · rw [validateParams]
      rfl
    · rfl
  | ilaStatus d b u => exact onMessage_ila (List.mem_of_getElem? (i := 1) rfl) rfl id behind
  | ilaProbe d b u => exact onMessage_ila (List.mem_of_getElem? (i := 2) rfl) rfl id behind
  | ilaArm d b u mask value riseMask fallMask mask2 val2 orMode preSamples =>
    exact onMessage_direct (List.mem_of_getElem? (i := 3) rfl)
      (readArm_params d b u mask value riseMask fallMask mask2 val2 orMode preSamples) id behind
  | ilaStop d b u => exact onMessage_ila (List.mem_of_getElem? (i := 4) rfl) rfl id behind
  | ilaForce d b u => exact onMessage_ila (List.mem_of_getElem? (i := 5) rfl) rfl id behind
  | ilaReset d b u => exact onMessage_ila (List.mem_of_getElem? (i := 6) rfl) rfl id behind
  | ilaReadSamples d b u => exact onMessage_ila (List.mem_of_getElem? (i := 7) rfl) rfl id behind
  | sampleBsr d =>
    have hdevice : intOr "device_index" 0 (RpcCall.sampleBsr d).params = .ok d.toInt := getInt_int32 d
    refine onMessage_direct (List.mem_of_getElem? (i := 8) rfl) ?_ id behind
    rw [hdevice]
    rfl
  | runScript d text =>
    have hmethod : ((RpcCall.runScript d text).method, runScriptTool.name) ∈ GuiRpcServer.toolMethods :=
      List.mem_of_getElem? (i := 10) rfl
    have hinvalid : validateParams runScriptTool.inputSchema (RpcCall.runScript d text).params =
        some "missing required parameter: script" := by
      rw [validateParams]
      rfl
    rw [onMessage_request (GuiRpcServer.lookup_toolMethods hmethod),
      GuiRpcServer.forward_of_invalid (List.mem_of_getElem? (i := 10) rfl) rfl hinvalid]
    rfl
  | programPl d path =>
    have hdevice : intOr "device_index" 0 (RpcCall.programPl d path).params = .ok d.toInt := getInt_int32 d
    refine onMessage_direct (List.mem_of_getElem? (i := 9) rfl) ?_ id behind
    rw [GuiRpcServer.readProgramPl, bind_ok hdevice]
    rfl

end Messages

theorem rpc_outcome (c : RpcCall) (id : ℤ) (behind : σ) :
    rpc perform id c behind = (some (outcome perform c behind).1, (outcome perform c behind).2) := by
  rw [rpc, onMessage_call]
  simp only [Option.map_some, answerOf_finish]

/-- **A call is the operation that it is meant to be**, with its result or what it throws; but a script is never run. -/
theorem rpc_performs (c : RpcCall) (id : ℤ) (behind : σ) : rpc perform id c behind =
    if c.isRunScript then (some (.error "missing required parameter: script"), behind)
    else (some (perform c.operation behind).1, (perform c.operation behind).2) := by
  rw [rpc_outcome, outcome]
  split
  · rfl
  · rfl

end OwlTap.Gui
