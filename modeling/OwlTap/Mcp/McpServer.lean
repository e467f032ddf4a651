import OwlTap.Mcp.ToolRegistry

/-!
# The MCP server

`McpServer` answers the messages of its transport one after another: what is no request is refused,
notifications are passed over, and before `initialize` no tool is listed or called. Over any session
every request gets one reply, in order and with its id, and what is behind the tools has been used
by the accepted calls, in order, and by nothing else (`session_serves`).
-/

namespace OwlTap.Mcp

open OwlTap

/-! ### Requests and replies -/

/-- The error codes that are used. -/
def kInvalidRequest : ℤ := -32600
@[inherit_doc kInvalidRequest]
def kMethodNotFound : ℤ := -32601
@[inherit_doc kInvalidRequest]
def kInvalidParams : ℤ := -32602
@[inherit_doc kInvalidRequest]
def kInternalError : ℤ := -32603

/-- A parsed JSON-RPC 2.0 request. -/
structure RpcRequest where
  /-- Null for notifications. -/
  id : Json
  method : String
  /-- Null if omitted. -/
  params : Json

def RpcRequest.isNotification (req : RpcRequest) : Bool := req.id.isNull

/-- The member of an object with a key, or null. -/
def memberOrNull (key : String) (j : Json) : Json := (j.get? key).getD .null

/-- Try to parse a JSON-RPC request. -/
def parseRequest (j : Json) : Except String RpcRequest :=
  if ¬j.isObject then .error "request is not an object"
  else if j.get? "jsonrpc" ≠ some (.str "2.0") then .error "missing or invalid jsonrpc field"
  else
    match j.get? "method" with
    | some (.str method) => .ok ⟨memberOrNull "id" j, method, memberOrNull "params" j⟩
    | _ => .error "missing or non-string method"

/-- Build a success response object. -/
def makeResult (id result : Json) : Json := .obj [("jsonrpc", .str "2.0"), ("id", id), ("result", result)]

/-- Build an error response object. -/
def makeError (id : Json) (code : ℤ) (message : String) : Json :=
  .obj [("jsonrpc", .str "2.0"), ("id", id), ("error", .obj [("code", .int code), ("message", .str message)])]

/-! ### The server -/

/-- What the server tells of itself. -/
structure ServerInfo where
  name : String
  version : String

/-- The server, with what is behind its tools. -/
structure McpServer (σ : Type) where
  info : ServerInfo
  registry : ToolRegistry σ
  running : Bool := false
  initialized : Bool := false
  behind : σ

namespace McpServer

variable {σ : Type} (dump : Json → String)

/-- MCP protocol version this server implements. -/
def kProtocolVersion : String := "2024-11-05"

/-- What `initialize` answers. -/
def initializeResult (s : McpServer σ) : Json :=
  .obj [("protocolVersion", .str kProtocolVersion), ("capabilities", .obj [("tools", .obj [])]),
    ("serverInfo", .obj [("name", .str s.info.name), ("version", .str s.info.version)])]

/-- The tool and the parameters of a call. -/
def callParams (params : Json) : Except Exception (String × Json) :=
  if ¬params.isObject then .error (.invalidArgument "tools/call params must be an object")
  else
    match params.get? "name" with
    | some (.str toolName) => .ok (toolName, memberOrNull "arguments" params)
    | _ => .error (.invalidArgument "tools/call: missing string 'name'")

def handleToolsCall (params : Json) (s : McpServer σ) : Except Exception Json × McpServer σ :=
  match callParams params with
  | .error e => (.error e, s)
  | .ok (toolName, toolParams) =>
    if ¬s.registry.hasTool toolName then (.error (.runtimeError ("unknown tool: " ++ toolName)), s)
    else
      let (result, behind) := s.registry.callTool dump toolName toolParams s.behind
      (result, { s with behind })

/-- The reply to a request whose handler has returned or thrown. -/
def finish (id : Json) : Except Exception Json → Json
  | .ok result => makeResult id result
  | .error (.invalidArgument what) => makeError id kInvalidParams what
  | .error (.runtimeError what) => makeError id kInternalError what
  | .error _ => makeError id kInternalError "unexpected error"

/-- Dispatch a request that is no notification. -/
def answer (req : RpcRequest) (s : McpServer σ) : Json × McpServer σ :=
  if req.method = "initialize" then (makeResult req.id s.initializeResult, { s with initialized := true })
  else if req.method = "tools/list" then
    if ¬s.initialized then (makeError req.id kInvalidRequest "server not yet initialized", s)
    else (makeResult req.id s.registry.listTools, s)
  else if req.method = "tools/call" then
    if ¬s.initialized then (makeError req.id kInvalidRequest "server not yet initialized", s)
    else
      let (result, s) := s.handleToolsCall dump req.params
      (finish req.id result, s)
  else if req.method = "shutdown" then
    -- Graceful shutdown: respond then stop.
    (makeResult req.id .null, { s with running := false })
  else (makeError req.id kMethodNotFound ("method not found: " ++ req.method), s)

def dispatch (reqJ : Json) (s : McpServer σ) : Json × McpServer σ :=
  match parseRequest reqJ with
  | .error err => (makeError (memberOrNull "id" reqJ) kInvalidRequest err, s)
  | .ok req => if req.isNotification then (.null, s) else s.answer dump req

/-- A message is received: what is sent, if anything. -/
def onMessage (msg : Json) (s : McpServer σ) : Option Json × McpServer σ :=
  if ¬msg.isObject then (none, s)
  else
    let (response, s) := s.dispatch dump msg
    (if response.isNull then none else some response, s)

/-- What is sent while these messages are received. -/
def session : (msgs : List Json) → McpServer σ → List Json × McpServer σ
  | [], s => ([], s)
  | msg :: msgs, s =>
    let (reply, s) := s.onMessage dump msg
    let (replies, s) := session msgs s
    (reply.toList ++ replies, s)

/-! ### What a session should do -/

/-- The id of a message's reply, if there is to be one. -/
def replyId (msg : Json) : Option Json :=
  if ¬msg.isObject then none
  else
    match parseRequest msg with
    | .error _ => some (memberOrNull "id" msg)
    | .ok req => if req.isNotification then none else some req.id

/-- A reply to the request with this id: a result or an error. -/
def IsReply (j id : Json) : Prop :=
  (∃ result, j = makeResult id result) ∨ ∃ code message, j = makeError id code message

/-- The request of a message that asks to be answered. -/
def asked (msg : Json) : Option RpcRequest :=
  match parseRequest msg with
  | .error _ => none
  | .ok req => if req.isNotification then none else some req

/-- The message asks for this method. -/
def asks (method : String) (msg : Json) : Bool := (asked msg).any fun req => req.method = method

/-- The tool that is called, with the parameters, if the call is in order. -/
def callOf (r : ToolRegistry σ) (params : Json) : Option (ToolSpec σ × Json) :=
  match callParams params with
  | .error _ => none
  | .ok (toolName, toolParams) =>
    (r.spec? toolName).bind fun spec =>
      let params := ToolRegistry.effectiveParams toolParams
      if validateParams spec.inputSchema params = none then some (spec, params) else none

/-- The call that a message asks for. -/
def toCall (r : ToolRegistry σ) (msg : Json) : Option (ToolSpec σ × Json) :=
  (asked msg).bind fun req => if req.method = "tools/call" then callOf r req.params else none

/-- The calls that are accepted: those in order that come after an `initialize`. -/
def accepted (r : ToolRegistry σ) (msgs : List Json) : List (ToolSpec σ × Json) :=
  (msgs.dropWhile fun msg => ¬asks "initialize" msg).filterMap (toCall r)

/-- What is behind the tools after one call. -/
def use (behind : σ) (call : ToolSpec σ × Json) : σ := (call.1.handler call.2 behind).2

/-! ### One message -/

variable {dump}

theorem isNull_eq_true {j : Json} (h : j.isNull = true) : j = .null := by
  cases j <;> first | rfl | cases h

theorem isReply_finish (id : Json) (r : Except Exception Json) : IsReply (finish id r) id := by
  rcases r with (what | what | what | _) | result
  · exact .inr ⟨_, _, rfl⟩
  · exact .inr ⟨_, _, rfl⟩
  · exact .inr ⟨_, _, rfl⟩
  · exact .inr ⟨_, _, rfl⟩
  · exact .inl ⟨result, rfl⟩

theorem isNull_of_isReply {j id : Json} (h : IsReply j id) : j.isNull = false := by
  rcases h with ⟨result, rfl⟩ | ⟨code, message, rfl⟩
  · rfl
  · rfl

/-- What a call of a tool does: it is used if the call is in order. -/
theorem handleToolsCall_snd (params : Json) (s : McpServer σ) : (s.handleToolsCall dump params).2 =
    { s with behind := (callOf s.registry params).elim s.behind (use s.behind) } := by
  rw [handleToolsCall, callOf]
  cases callParams params with
  | error e => rfl
  | ok call =>
    obtain ⟨toolName, toolParams⟩ := call
    simp only
    by_cases hhas : s.registry.hasTool toolName = true
    · obtain ⟨spec, hspec⟩ := ToolRegistry.hasTool_iff.mp hhas
      rw [if_neg (not_not.mpr hhas), hspec, Option.bind_some, ToolRegistry.callTool, ToolRegistry.callToolRaw, hspec]
      simp only
      cases validateParams spec.inputSchema (ToolRegistry.effectiveParams toolParams) with
      | some err => rfl
      | none => rfl
    · have hnone : s.registry.spec? toolName = none := by
        cases hspec : s.registry.spec? toolName with
        | none => rfl
        | some spec => exact absurd (ToolRegistry.hasTool_iff.mpr ⟨spec, hspec⟩) hhas
      rw [if_pos hhas, hnone]
      rfl

/-- What a request does to the server, and that it is answered. -/
structure Answered (req : RpcRequest) (s : McpServer σ) (reply : Json) (s' : McpServer σ) : Prop where
  /-- The reply. -/
  isReply : IsReply reply req.id
  registry_eq : s'.registry = s.registry
  initialized_eq : s'.initialized = (s.initialized || decide (req.method = "initialize"))
  /-- Nothing behind the tools is used but by a call. -/
  behind_eq : s'.behind =
    if s.initialized ∧ req.method = "tools/call" then (callOf s.registry req.params).elim s.behind (use s.behind)
    else s.behind

/-- What is answered without a tool changes nothing but, perhaps, whether the server is running. -/
theorem answered_same {req : RpcRequest} {s : McpServer σ} {reply : Json} (running : Bool) (h : IsReply reply req.id)
    (hinit : req.method ≠ "initialize") (hcall : ¬(s.initialized ∧ req.method = "tools/call")) :
    Answered req s reply { s with running } :=
  ⟨h, rfl, by rw [decide_eq_false hinit, Bool.or_false], (if_neg hcall).symm⟩

theorem answer_spec (req : RpcRequest) (s : McpServer σ) :
    Answered req s (s.answer dump req).1 (s.answer dump req).2 := by
  rw [answer]
  by_cases hinit : req.method = "initialize"
  · have hcall : ¬(s.initialized ∧ req.method = "tools/call") := fun h => by
      rw [hinit] at h
      exact absurd h.2 (by decide)
    rw [if_pos hinit]
    exact ⟨.inl ⟨_, rfl⟩, rfl, by rw [decide_eq_true hinit, Bool.or_true], (if_neg hcall).symm⟩
  rw [if_neg hinit]
  by_cases hlist : req.method = "tools/list"
  · have hcall : ¬(s.initialized ∧ req.method = "tools/call") := fun h => by
      rw [hlist] at h
      exact absurd h.2 (by decide)
    rw [if_pos hlist]
    split
    · exact answered_same s.running (.inr ⟨_, _, rfl⟩) hinit hcall
    · exact answered_same s.running (.inl ⟨_, rfl⟩) hinit hcall
  rw [if_neg hlist]
  by_cases hcall : req.method = "tools/call"
  · rw [if_pos hcall]
    by_cases hready : s.initialized = true
    · rw [if_neg (not_not.mpr hready)]
      refine ⟨isReply_finish _ _, ?_, ?_, ?_⟩
      · rw [handleToolsCall_snd]
      · rw [handleToolsCall_snd, decide_eq_false hinit, Bool.or_false]
      · rw [handleToolsCall_snd, if_pos ⟨hready, hcall⟩]
    · rw [if_pos hready]
      exact answered_same s.running (.inr ⟨_, _, rfl⟩) hinit fun h => hready h.1
  rw [if_neg hcall]
  split
  · exact answered_same false (.inl ⟨_, rfl⟩) hinit fun h => hcall h.2
  · exact answered_same s.running (.inr ⟨_, _, rfl⟩) hinit fun h => hcall h.2

/-- What a message does: it is answered if it is to be, and a call in order is made once the server is initialized. -/
theorem onMessage_spec (msg : Json) (s : McpServer σ) :
    List.Forall₂ IsReply (s.onMessage dump msg).1.toList (replyId msg).toList ∧
    (s.onMessage dump msg).2.registry = s.registry ∧
    (s.onMessage dump msg).2.initialized = (s.initialized || asks "initialize" msg) ∧
    (s.onMessage dump msg).2.behind =
      if s.initialized then (toCall s.registry msg).elim s.behind (use s.behind) else s.behind := by
  have hunasked (h : asked msg = none) : s.initialized = (s.initialized || asks "initialize" msg) ∧
      s.behind = if s.initialized then (toCall s.registry msg).elim s.behind (use s.behind) else s.behind := by
    rw [asks, toCall, h]
    exact ⟨(Bool.or_false _).symm, (ite_self _).symm⟩
  rw [onMessage, replyId]
  by_cases hobject : msg.isObject = true
  · rw [if_neg (not_not.mpr hobject), if_neg (not_not.mpr hobject), dispatch]
    cases hreq : parseRequest msg with
    | error err => exact ⟨.cons (.inr ⟨_, _, rfl⟩) .nil, rfl, hunasked (by rw [asked, hreq])⟩
    | ok req =>
      simp only
      by_cases hnotification : req.isNotification = true
      · rw [if_pos hnotification, if_pos hnotification]
        refine ⟨.nil, rfl, hunasked ?_⟩
        rw [asked, hreq]
        exact if_pos hnotification
      · have hasked : asked msg = some req := by
          rw [asked, hreq]
          exact if_neg hnotification
        have h := @answer_spec _ dump req s
        rw [if_neg hnotification, if_neg hnotification, isNull_of_isReply h.isReply, asks, toCall, hasked]
        refine ⟨.cons h.isReply .nil, h.registry_eq, h.initialized_eq, h.behind_eq.trans ?_⟩
        rw [Option.bind_some, ite_and]
        by_cases hready : s.initialized = true
        · rw [if_pos hready, if_pos hready]
          split
          · rfl
          · rfl
        · rw [if_neg hready, if_neg hready]
  · have herror : parseRequest msg = .error "request is not an object" := if_pos hobject
    rw [if_pos hobject, if_pos hobject]
    exact ⟨.nil, rfl, hunasked (by rw [asked, herror])⟩

/-! ### Sessions -/

theorem session_cons (msg : Json) (msgs : List Json) (s : McpServer σ) : s.session dump (msg :: msgs) =
    ((s.onMessage dump msg).1.toList ++ ((s.onMessage dump msg).2.session dump msgs).1,
      ((s.onMessage dump msg).2.session dump msgs).2) := rfl

/-- A run of messages is answered in order. -/
theorem session_replies (msgs : List Json) (s : McpServer σ) :
    List.Forall₂ IsReply (s.session dump msgs).1 (msgs.filterMap replyId) := by
  induction msgs generalizing s with
  | nil => exact .nil
  | cons msg msgs ih =>
    have hfirst := (@onMessage_spec _ dump msg s).1
    have hids : (msg :: msgs).filterMap replyId = (replyId msg).toList ++ msgs.filterMap replyId := by
      cases h : replyId msg with
      | none => rw [List.filterMap_cons_none h]; rfl
      | some id => rw [List.filterMap_cons_some h]; rfl
    rw [session_cons, hids]
    exact List.rel_append hfirst (ih _)

/-- Once the server is initialized every call in order is made. -/
theorem session_initialized (msgs : List Json) (s : McpServer σ) (hs : s.initialized = true) :
    (s.session dump msgs).2.behind = (msgs.filterMap (toCall s.registry)).foldl use s.behind := by
  induction msgs generalizing s with
  | nil => rfl
  | cons msg msgs ih =>
    obtain ⟨-, hregistry, hinitialized, hbehind⟩ := @onMessage_spec _ dump msg s
    rw [session_cons, ih _ (by rw [hinitialized, hs, Bool.true_or]), hregistry, hbehind, if_pos hs]
    cases h : toCall s.registry msg with
    | none => rw [List.filterMap_cons_none h]; rfl
    | some call => rw [List.filterMap_cons_some h]; rfl

/-- `initialize` is no call. -/
theorem toCall_of_asks (r : ToolRegistry σ) {msg : Json} (h : asks "initialize" msg = true) :
    toCall r msg = none := by
  rw [asks] at h
  rw [toCall]
  cases hreq : asked msg with
  | none => rfl
  | some req =>
    rw [hreq] at h
    have hmethod : req.method = "initialize" := of_decide_eq_true h
    rw [Option.bind_some, hmethod]
    exact if_neg (by decide)

/-- Before that none is. -/
theorem session_behind (msgs : List Json) (s : McpServer σ) (hs : s.initialized = false) :
    (s.session dump msgs).2.behind = (accepted s.registry msgs).foldl use s.behind := by
  induction msgs generalizing s with
  | nil => rfl
  | cons msg msgs ih =>
    obtain ⟨-, hregistry, hinitialized, hbehind⟩ := @onMessage_spec _ dump msg s
    have hsame : (s.onMessage dump msg).2.behind = s.behind := by
      rw [hbehind, hs]
      rfl
    rw [hs, Bool.false_or] at hinitialized
    rw [session_cons, accepted, List.dropWhile_cons]
    by_cases hasks : asks "initialize" msg = true
    · rw [session_initialized _ _ (hinitialized.trans hasks), hregistry, hsame,
        if_neg (by rw [hasks]; decide), List.filterMap_cons_none (toCall_of_asks s.registry hasks)]
    · rw [ih _ (hinitialized.trans (Bool.eq_false_iff.mpr hasks)), hregistry, hsame,
        if_pos (decide_eq_true hasks)]
      rfl

/-- What is called are registered tools, with parameters that conform to their schemas. -/
theorem conforms_of_toCall {r : ToolRegistry σ} {msg : Json} {call : ToolSpec σ × Json} (h : toCall r msg = some call) :
    r.spec? call.1.name = some call.1 ∧ Conforms call.1.inputSchema call.2 := by
  obtain ⟨req, -, h⟩ := Option.bind_eq_some_iff.mp h
  split at h
  · rw [callOf] at h
    split at h
    · cases h
    next toolName toolParams _ =>
      obtain ⟨spec, hspec, h⟩ := Option.bind_eq_some_iff.mp h
      simp only at h
      split at h
      next hvalid =>
        obtain rfl := Option.some.inj h
        have hname := (ToolRegistry.spec?_eq_some_iff.mp hspec).2
        exact ⟨by rw [hname]; exact hspec, validateParams_eq_none_iff.mp hvalid⟩
      · cases h
  · cases h

/-- **A session is the accepted calls.** Over any messages, a server whose tools have been registered in any order
sends one reply for each message that is to be answered, in order and with its id. What is behind the tools is used by
the calls in order that come after an `initialize`, each by the tool registered last under its name and with parameters
that conform to its schema, and by nothing else. The tools that are listed have each name once. -/
theorem session_serves (info : ServerInfo) (specs : List (ToolSpec σ)) (behind : σ) (msgs : List Json) :
    List.Forall₂ IsReply
      (session dump msgs { info, registry := .registerAll specs, behind }).1 (msgs.filterMap replyId) ∧
    (session dump msgs { info, registry := .registerAll specs, behind }).2.behind =
      (accepted (.registerAll specs) msgs).foldl use behind ∧
    (∀ call ∈ accepted (.registerAll specs) msgs,
      (specs.reverse.find? fun spec => spec.name = call.1.name) = some call.1 ∧ Conforms call.1.inputSchema call.2) ∧
    (ToolRegistry.registerAll specs).tools.map ToolSpec.name = (specs.map ToolSpec.name).eraseDups := by
  refine ⟨session_replies msgs _, session_behind msgs _ rfl, fun call hcall => ?_, ToolRegistry.names_registerAll specs⟩
  obtain ⟨msg, -, hmsg⟩ := List.mem_filterMap.mp hcall
  obtain ⟨hspec, hconforms⟩ := conforms_of_toCall hmsg
  exact ⟨(ToolRegistry.spec?_registerAll specs _).symm.trans hspec, hconforms⟩

end McpServer

end OwlTap.Mcp
