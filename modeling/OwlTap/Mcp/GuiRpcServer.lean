import OwlTap.Base.Find
import OwlTap.Ila.IlaDriver
import OwlTap.Mcp.ToolCalls

/-!
# The GUI's RPC server

`GuiRpcServer` is the daemon's other endpoint, without the envelope of the MCP: plain requests, each
handled by the method that is registered under its name. The daemon registers some methods that hand
their parameters to a tool, with its schema, and some that read them by themselves and go to the
executor directly. Every message is answered by one reply, or by none, and the method that it names
is all that it uses (`onMessage_cases`).
-/

namespace OwlTap.Mcp

open OwlTap Ila

/-! ### The server -/

/-- `what()`, of a `std::exception`. -/
def Exception.what : Exception → String
  | .invalidArgument what | .runtimeError what | .standard what => what
  | .unknown => ""

/-- A method: it returns or throws, and acts on what there is behind it. -/
abbrev RpcHandler (σ : Type) := (params : Json) → σ → Except String Json × σ

/-- The server. -/
structure GuiRpcServer (σ : Type) where
  handlers : AList fun _ : String => RpcHandler σ := ∅

namespace GuiRpcServer

variable {σ : Type}

def registerMethod (server : GuiRpcServer σ) (name : String) (handler : RpcHandler σ) : GuiRpcServer σ :=
  { server with handlers := server.handlers.insert name handler }

/-- A server with these methods, registered in order. -/
def registerAll (methods : List (String × RpcHandler σ)) : GuiRpcServer σ :=
  methods.foldl (fun server (name, handler) => server.registerMethod name handler) {}

/-- The reply to a request whose method has returned or thrown. -/
def finish (id : Json) : Except String Json → Json
  | .ok result => makeResult id result
  | .error what => makeError id kInternalError what

/-- What is sent when a message is received, if anything. -/
def onMessage (server : GuiRpcServer σ) (msg : Json) (behind : σ) : Option Json × σ :=
  match parseRequest msg with
  | .error err => (some (makeError .null kInvalidRequest err), behind)
  | .ok req =>
    match server.handlers.lookup req.method with
    | none =>
      if req.isNotification then (none, behind)
      else (some (makeError req.id kMethodNotFound ("unknown method: " ++ req.method)), behind)
    | some handler =>
      if req.isNotification then (none, behind)
      else
        let params := if req.params.isNull then .obj [] else req.params
        let (result, behind) := handler params behind
        (some (finish req.id result), behind)

/-! ### The methods of the daemon -/

/-- What the daemon does for a request. -/
inductive Operation where
  /-- What a tool submits. -/
  | tool (call : ToolCall)
  | daemonStatus
  | ilaStatus (target : IlaTarget)
  | ilaProbe (target : IlaTarget)
  | ilaArm (target : IlaTarget) (trigger : TriggerSetup)
  | ilaStop (target : IlaTarget)
  | ilaForceTrigger (target : IlaTarget)
  | ilaReset (target : IlaTarget)
  | ilaReadSamples (target : IlaTarget)
  | sampleBsr (devIdx : ℤ)
  | programPl (devIdx : ℤ) (path : String)

/-- `params.value(key, default)`, for a `uint32_t`. -/
def uint32Or (key : String) (default : BitVec 32) (params : Json) : Except String (BitVec 32) :=
  params.value Json.getUInt32 key default

/-- The device, and how its ILA is accessed; all may be left out. -/
def readIlaTarget (params : Json) : Except String IlaTarget := do
  let devIdx ← intOr "device_index" 0 params
  let useBscane ← boolOr "use_bscane" false params
  let userChain ← intOr "user_chain" 1 params
  return ⟨devIdx, useBscane, userChain⟩

/-- What `ila/arm` reads. -/
def readArm (params : Json) : Except String Operation := do
  let target ← readIlaTarget params
  let mask ← uint32Or "mask" 0 params
  let value ← uint32Or "value" 0 params
  let riseMask ← uint32Or "rise_mask" 0 params
  let fallMask ← uint32Or "fall_mask" 0 params
  let mask2 ← uint32Or "mask2" 0 params
  let val2 ← uint32Or "val2" 0 params
  let orMode ← boolOr "or_mode" false params
  let pre ← intOr "pre_samples" 256 params
  return .ilaArm target { mask, value, riseMask, fallMask, mask2, val2, orMode, preSamples := BitVec.ofInt 16 pre }

/-- What `hardware/program_pl` reads. -/
def readProgramPl (params : Json) : Except String Operation := do
  let devIdx ← intOr "device_index" 0 params
  let path ←
    match params.get? "bitstream_path" with
    | some path => path.getString
    | none => .error "[json.exception.out_of_range.403] key 'bitstream_path' not found"
  return .programPl devIdx path

/-- The methods that hand their parameters to a tool, with its name. -/
def toolMethods : List (String × String) :=
  [("hardware/detect_devices", "detect_devices"), ("hardware/load_bsdl", "load_bsdl"),
    ("hardware/list_pins", "list_pins"), ("hardware/read_pin", "read_pin"), ("hardware/set_pin", "set_pin"),
    ("capture/start", "capture_start"), ("capture/stop", "capture_stop"), ("capture/get_samples", "get_samples"),
    ("job/poll", "job_poll"), ("job/cancel", "job_cancel"), ("script/run", "run_script")]

/-- The methods that go to the executor by themselves, with what they read. -/
def directMethods : List (String × (Json → Except String Operation)) :=
  [("daemon/status", fun _ => return .daemonStatus), ("ila/status", fun p => .ilaStatus <$> readIlaTarget p),
    ("ila/probe", fun p => .ilaProbe <$> readIlaTarget p), ("ila/arm", readArm),
    ("ila/stop", fun p => .ilaStop <$> readIlaTarget p),
    ("ila/force_trigger", fun p => .ilaForceTrigger <$> readIlaTarget p),
    ("ila/reset", fun p => .ilaReset <$> readIlaTarget p),
    ("ila/read_samples", fun p => .ilaReadSamples <$> readIlaTarget p),
    ("hardware/sample_bsr", fun p => .sampleBsr <$> intOr "device_index" 0 p), ("hardware/program_pl", readProgramPl)]

variable (perform : Operation → σ → Except String Json × σ)

/-- The registry of the MCP server, which both endpoints use. -/
def registry : ToolRegistry σ := .registerAll (hardwareTools.map (Tool.toSpec fun call => perform (.tool call)))

/-- A method that hands its parameters to a tool. -/
def forward (toolName : String) : RpcHandler σ := fun params behind =>
  let (result, behind) := (registry perform).callToolRaw toolName params behind
  (result.mapError Exception.what, behind)

/-- A method that reads its parameters. -/
def direct (read : Json → Except String Operation) : RpcHandler σ := fun params behind =>
  match read params with
  | .error what => (.error what, behind)
  | .ok op => perform op behind

/-- The daemon's server. -/
def daemonServer : GuiRpcServer σ :=
  registerAll (toolMethods.map (Prod.map id (forward perform)) ++ directMethods.map (Prod.map id (direct perform)))

/-! ### Messages -/

variable {perform}

/-- The method that was registered last under a name is the one that is found. -/
theorem lookup_registerAll (methods : List (String × RpcHandler σ)) (name : String) :
    (registerAll methods).handlers.lookup name = (methods.reverse.find? fun m => m.1 = name).map Prod.snd := by
  induction methods using List.reverseRecOn with
  | nil => rfl
  | append_singleton methods m ih =>
    have hlast : (registerAll (methods ++ [m])).handlers = (registerAll methods).handlers.insert m.1 m.2 := by
      rw [registerAll, List.foldl_append]
      rfl
    rw [hlast, List.reverse_append, List.reverse_singleton, List.singleton_append, List.find?_cons]
    by_cases hname : m.1 = name
    · subst hname
      rw [AList.lookup_insert, decide_eq_true rfl]
      rfl
    · rw [AList.lookup_insert_ne (Ne.symm hname), decide_eq_false hname]
      exact ih

/-- When no name comes twice, every method is found. -/
theorem lookup_registerAll_of_mem {methods : List (String × RpcHandler σ)} {m : String × RpcHandler σ}
    (hnodup : (methods.map Prod.fst).Nodup) (h : m ∈ methods) :
    (registerAll methods).handlers.lookup m.1 = some m.2 := by
  rw [lookup_registerAll, find?_of_nodup hnodup h]
  rfl

theorem nodup_daemonMethods : ((toolMethods.map (Prod.map id (forward perform)) ++
    directMethods.map (Prod.map id (direct perform))).map Prod.fst).Nodup := by
  have hnames : (toolMethods.map (Prod.map id (forward perform)) ++
      directMethods.map (Prod.map id (direct perform))).map Prod.fst =
        toolMethods.map Prod.fst ++ directMethods.map Prod.fst := by
    rw [List.map_append, List.map_map, List.map_map]
    rfl
  rw [hnames]
  decide

theorem lookup_toolMethods {m : String × String} (h : m ∈ toolMethods) :
    (daemonServer perform).handlers.lookup m.1 = some (forward perform m.2) :=
  lookup_registerAll_of_mem nodup_daemonMethods
    (List.mem_append_left _ (List.mem_map_of_mem (f := Prod.map id (forward perform)) h))

theorem lookup_directMethods {m : String × (Json → Except String Operation)} (h : m ∈ directMethods) :
    (daemonServer perform).handlers.lookup m.1 = some (direct perform m.2) :=
  lookup_registerAll_of_mem nodup_daemonMethods
    (List.mem_append_right _ (List.mem_map_of_mem (f := Prod.map id (direct perform)) h))

/-- The hardware tools are found under their names. -/
theorem spec?_registry {t : Tool} (h : t ∈ hardwareTools) :
    (registry perform).spec? t.name = some (t.toSpec fun call => perform (.tool call)) := by
  have hnames : (hardwareTools.map (Tool.toSpec fun call => perform (.tool call))).map ToolSpec.name =
      hardwareTools.map Tool.name := by
    rw [List.map_map]
    rfl
  have hnodup : ((hardwareTools.map (Tool.toSpec fun call => perform (.tool call))).map ToolSpec.name).Nodup := by
    rw [hnames]
    decide
  rw [registry, ToolRegistry.spec?_registerAll]
  exact find?_of_nodup hnodup (List.mem_map_of_mem h)

theorem mapError_what (r : Except String Json) : (r.mapError Exception.runtimeError).mapError Exception.what = r := by
  cases r with
  | error what => rfl
  | ok result => rfl

/-- What passes the schema of a tool and can be read is submitted. -/
theorem forward_of_read {t : Tool} (ht : t ∈ hardwareTools) {params : Json} (hobject : params.isNull = false)
    (hvalid : validateParams t.inputSchema params = none) {call : ToolCall} (hread : t.read params = .ok call)
    (behind : σ) : forward perform t.name params behind = perform (.tool call) behind := by
  have heffective : ToolRegistry.effectiveParams params = params := by
    rw [ToolRegistry.effectiveParams, hobject]
    rfl
  rw [forward, ToolRegistry.callToolRaw, spec?_registry ht, heffective]
  simp only [Tool.toSpec, hvalid, hread]
  exact Prod.ext (mapError_what _) rfl

/-- What does not pass is refused. -/
theorem forward_of_invalid {t : Tool} (ht : t ∈ hardwareTools) {params : Json} (hobject : params.isNull = false)
    {err : String} (hinvalid : validateParams t.inputSchema params = some err) (behind : σ) :
    forward perform t.name params behind = (.error err, behind) := by
  have heffective : ToolRegistry.effectiveParams params = params := by
    rw [ToolRegistry.effectiveParams, hobject]
    rfl
  rw [forward, ToolRegistry.callToolRaw, spec?_registry ht, heffective]
  simp only [Tool.toSpec, hinvalid]
  rfl

/-- What a message does: it is answered by one reply, with its id, or by none; and what is behind is used by the method
that it names, once, if it is to be answered. -/
theorem onMessage_cases (server : GuiRpcServer σ) (msg : Json) (behind : σ) :
    (∃ err, parseRequest msg = .error err ∧
      server.onMessage msg behind = (some (makeError .null kInvalidRequest err), behind)) ∨
    ∃ req, parseRequest msg = .ok req ∧
      ((req.isNotification = true ∧ server.onMessage msg behind = (none, behind)) ∨
      (req.isNotification = false ∧
        ((server.handlers.lookup req.method = none ∧ server.onMessage msg behind =
            (some (makeError req.id kMethodNotFound ("unknown method: " ++ req.method)), behind)) ∨
        ∃ handler, server.handlers.lookup req.method = some handler ∧
          server.onMessage msg behind =
            (some (finish req.id (handler (if req.params.isNull then .obj [] else req.params) behind).1),
              (handler (if req.params.isNull then .obj [] else req.params) behind).2)))) := by
  rw [onMessage]
  cases hreq : parseRequest msg with
  | error err => exact .inl ⟨err, rfl, rfl⟩
  | ok req =>
    refine .inr ⟨req, rfl, ?_⟩
    simp only
    cases hnot : req.isNotification with
    | true =>
      refine .inl ⟨rfl, ?_⟩
      split
      · rfl
      · rfl
    | false =>
      refine .inr ⟨rfl, ?_⟩
      cases hhandler : server.handlers.lookup req.method with
      | none => exact .inl ⟨rfl, rfl⟩
      | some handler => exact .inr ⟨handler, rfl, rfl⟩

end GuiRpcServer

end OwlTap.Mcp
