import OwlTap.Gui.DaemonRpc
import OwlTap.Gui.RepliesReach

/-!
# The GUI and the daemon

The client with its threads, the daemon's server, and the connection between them. The requests are
handled one after another in the order in which they were sent, and the replies come back in that
order; meanwhile the rest of the daemon goes on by itself. However the threads, the server and the
reader take turns, the calls look as if each had been performed at one moment, at most once, between
its being called and its returning (`calls_linearized`).
-/

namespace OwlTap.Gui

open OwlTap Mcp

/-! ### The system -/

/-- What has happened at the daemon. -/
inductive Happening (σ : Type) where
  /-- The request of a call has been handled. -/
  | served (i : ℕ)
  /-- Something else has changed what is behind the server. -/
  | elsewhere (behind : σ)

/-- The GUI and the daemon. -/
structure DaemonSystem (σ : Type) where
  client : DaemonClient := {}
  /-- What is on its way to the daemon; whose it is, is not part of the code. -/
  requests : List (ℕ × Json) := []
  /-- What is on its way back. -/
  replies : List (ℕ × Json) := []
  /-- A request has been sent in part; what is sent after it does not arrive. -/
  torn : Bool := false
  /-- What is behind the server. -/
  behind : σ
  /-- Not part of the code. -/
  history : List (Happening σ) := []

/-- What can happen next. -/
inductive SystemAction (σ : Type) where
  /-- A step of a call, of the reader that does not read, or of `disconnect`. -/
  | client (a : ClientAction)
  /-- The server handles a request. -/
  | serve
  /-- The reader reads a reply. -/
  | deliver
  /-- Something else changes what is behind the server. -/
  | elsewhere (behind : σ)

namespace DaemonSystem

variable {σ : Type} (perform : GuiRpcServer.Operation → σ → Except String Json × σ) (call : ℕ → RpcCall)

/-- A step of the client. -/
def stepClient (s : DaemonSystem σ) (a : ClientAction) : Option (DaemonSystem σ) :=
  match a with
  | .message _ => none
  | .call i method =>
    if method = (call i).method then (s.client.step a).map fun client => { s with client } else none
  | .send i .sent =>
    (s.client.step a).map fun client =>
      { s with
        client
        requests := if s.torn then s.requests else s.requests ++ [(i, (call i).request (s.client.calls i).id)] }
  | .send _ .failed => (s.client.step a).map fun client => { s with client, torn := true }
  | a => (s.client.step a).map fun client => { s with client }

/-- One step; `none` when it cannot happen. -/
def step (s : DaemonSystem σ) : SystemAction σ → Option (DaemonSystem σ)
  | .client a => s.stepClient call a
  | .serve =>
    match s.requests with
    | [] => none
    | (i, msg) :: requests =>
      let (reply, behind) := (GuiRpcServer.daemonServer perform).onMessage msg s.behind
      some { s with
        requests
        behind
        replies := s.replies ++ reply.toList.map (i, ·)
        history := s.history ++ [.served i] }
  | .deliver =>
    match s.replies with
    | [] => none
    | (_, msg) :: replies => (s.client.step (.message msg)).map fun client => { s with client, replies }
  | .elsewhere behind => some { s with behind, history := s.history ++ [.elsewhere behind] }

/-! ### What has happened at the daemon -/

/-- What is behind the server after a history. -/
def replay (behind : σ) (history : List (Happening σ)) : σ :=
  history.foldl
    (fun behind event =>
      match event with
      | .served i => (outcome perform (call i) behind).2
      | .elsewhere behind => behind)
    behind

/-- The calls whose requests have been handled. -/
def served : (history : List (Happening σ)) → List ℕ
  | [] => []
  | .served i :: history => i :: served history
  | .elsewhere _ :: history => served history

/-- What has come of a call where it stands in a history. -/
def Gave (behind : σ) (history : List (Happening σ)) (i : ℕ) (r : Except String Json) : Prop :=
  ∃ before after, history = before ++ .served i :: after ∧
    (outcome perform (call i) (replay perform call behind before)).1 = r

end DaemonSystem

/-- The request has been sent. -/
def Sent : CallPoint → Prop
  | .waiting | .timedOut | .returned _ | .threw .timeout _ | .threw .failed _ | .threw .error _ => True
  | _ => False

/-! ### What a step does to a call -/

/-- Where a call is that has returned or thrown what its reply says. -/
def endOf : Except String Json → CallPoint
  | .ok v => .returned v
  | .error what => .threw .error what

theorem endOf_answerOf (resp : Json) : unwrap resp = endOf (answerOf resp) := by
  rw [unwrap, answerOf]
  cases resp.get? "error" with
  | none => rfl
  | some e => rfl

theorem endOf_injective : Function.Injective endOf := by
  intro r r' h
  cases r with
  | ok v => cases r' with
    | ok v' => rw [CallPoint.returned.inj h]
    | error what => cases h
  | error what => cases r' with
    | ok v => cases h
    | error what' => rw [(CallPoint.threw.inj h).2]

theorem sent_endOf (r : Except String Json) : Sent (endOf r) := by
  cases r <;> trivial

/-- How a call may change in a step. -/
inductive CallMoves (c c' : ClientCall) : Prop where
  /-- At most its promise is fulfilled. -/
  | fulfilled (hpoint : c'.point = c.point) (hnumber : c'.number = c.number)
      (hpromise : c.promise = .unset ∨ c'.promise = c.promise)
  /-- Its request has not been sent. -/
  | unsent (hbefore : ¬Sent c.point) (hafter : ¬Sent c'.point)
  /-- Its request is sent. -/
  | sends (hbefore : c.point = .registered) (hafter : c'.point = .waiting) (hnumber : c'.number = c.number)
  /-- Its time passes, or its promise has failed. -/
  | fails (hafter : Sent c'.point) (hno : ∀ r, c'.point ≠ endOf r) (hnumber : c'.number = c.number)
      (hbefore : Sent c.point)
  /-- It gets its reply. -/
  | gets (resp : Json) (hresp : c.promise = .value resp) (hbefore : Sent c.point)
      (hafter : c' = { c with point := endOf (answerOf resp) })

theorem CallMoves.refl (c : ClientCall) : CallMoves c c := .fulfilled rfl rfl (.inr rfl)

theorem CallMoves.fulfil (c : ClientCall) (p : Promise) (by' : Option ℕ) : CallMoves c (c.fulfil p by') := by
  unfold ClientCall.fulfil
  split
  case h_1 hunset => exact .fulfilled rfl rfl (.inl hunset)
  case h_2 => exact .fulfilled rfl rfl (.inr rfl)

/-- A request that has been sent stays so, with its number. -/
theorem CallMoves.sent {c c' : ClientCall} (h : CallMoves c c') (hsent : Sent c.point) :
    Sent c'.point ∧ c'.number = c.number := by
  cases h with
  | fulfilled hpoint hnumber => exact ⟨by rw [hpoint]; exact hsent, hnumber⟩
  | unsent hbefore => exact absurd hsent hbefore
  | sends hbefore =>
    rw [hbefore] at hsent
    exact hsent.elim
  | fails hafter _ hnumber => exact ⟨hafter, hnumber⟩
  | gets resp _ _ hafter =>
    rw [hafter]
    exact ⟨sent_endOf _, rfl⟩

/-- A call is where its reply says that it has ended. -/
def Unwrapped (c : ClientCall) : Prop := ∀ r, c.point = endOf r → ∃ resp, c.promise = .value resp ∧ answerOf resp = r

theorem CallMoves.unwrapped {c c' : ClientCall} (h : CallMoves c c') (hc : Unwrapped c) : Unwrapped c' := by
  intro r hr
  cases h with
  | fulfilled hpoint _ hpromise =>
    obtain ⟨resp, hresp, hanswer⟩ := hc r (hpoint ▸ hr)
    rcases hpromise with hunset | hsame
    · cases hunset.symm.trans hresp
    · exact ⟨resp, hsame.trans hresp, hanswer⟩
  | unsent _ hafter => exact absurd (hr ▸ sent_endOf r) hafter
  | sends _ hafter => cases r <;> cases hafter.symm.trans hr
  | fails _ hno => exact absurd hr (hno r)
  | gets resp hresp _ hafter =>
    subst hafter
    exact ⟨resp, hresp, endOf_injective hr⟩

namespace DaemonClient

variable {s t : DaemonClient}

theorem CallMoves.update {j : ℕ} {c : ClientCall} (h : CallMoves (s.calls j) c) (i : ℕ) :
    CallMoves (s.calls i) ((s.update j c).calls i) := by
  by_cases hij : i = j
  · rw [hij, update_self]
    exact h
  · rw [update_of_ne hij]
    exact .refl _

theorem callMoves_stepCall {a : ClientAction} (ha : s.stepCall a = some t) (i : ℕ) :
    CallMoves (s.calls i) (t.calls i) := by
  unfold DaemonClient.stepCall at ha
  split at ha
  case h_1 j method =>
    split at ha
    case h_1 hpoint =>
      obtain rfl := Option.some.inj ha
      refine CallMoves.update (.unsent (by rw [hpoint]; exact not_false) ?_) i
      cases s.connected <;> exact not_false
    case h_2 => cases ha
  case h_2 j =>
    split at ha
    case h_1 hpoint =>
      obtain rfl := Option.some.inj ha
      refine CallMoves.update ?_ i
      exact .unsent (by rw [hpoint]; exact not_false) not_false
    case h_2 => cases ha
  case h_3 j =>
    split at ha
    case h_1 hpoint =>
      split at ha
      · obtain rfl := Option.some.inj ha
        refine CallMoves.update ?_ i
        exact .unsent (by rw [hpoint]; exact not_false) not_false
      · obtain rfl := Option.some.inj ha
        refine CallMoves.update ?_ i
        exact .unsent (by rw [hpoint]; exact not_false) not_false
    case h_2 => cases ha
  case h_4 j result =>
    split at ha
    case h_1 hpoint =>
      obtain rfl := Option.some.inj ha
      refine CallMoves.update ?_ i
      cases result with
      | sent => exact .sends hpoint rfl rfl
      | failed => exact .unsent (by rw [hpoint]; exact not_false) not_false
      | unframed what => exact .unsent (by rw [hpoint]; exact not_false) not_false
    case h_2 => cases ha
  case h_5 j =>
    split at ha
    case h_1 hpoint _ =>
      obtain rfl := Option.some.inj ha
      refine CallMoves.update ?_ i
      exact .fails trivial (fun r => by cases r <;> exact nofun) rfl (by rw [hpoint]; trivial)
    case h_2 => cases ha
  case h_6 j =>
    split at ha
    case h_1 hpoint =>
      obtain rfl := Option.some.inj ha
      refine CallMoves.update ?_ i
      exact .unsent (by rw [hpoint]; exact not_false) not_false
    case h_2 hpoint =>
      obtain rfl := Option.some.inj ha
      refine CallMoves.update ?_ i
      exact .fails trivial (fun r => by cases r <;> exact nofun) rfl (by rw [hpoint]; trivial)
    case h_3 => cases ha
  case h_7 j =>
    split at ha
    case h_1 resp hpoint hresp =>
      obtain rfl := Option.some.inj ha
      exact CallMoves.update (.gets resp hresp (by rw [hpoint]; trivial) (by rw [← endOf_answerOf])) i
    case h_2 hpoint _ =>
      obtain rfl := Option.some.inj ha
      refine CallMoves.update ?_ i
      exact .fails trivial (fun r => by cases r <;> exact nofun) rfl (by rw [hpoint]; trivial)
    case h_3 => cases ha
  case h_8 => cases ha

theorem callMoves_failAllPending (reason : String) (i : ℕ) : CallMoves (s.calls i) ((s.failAllPending reason).calls i) := by
  unfold DaemonClient.failAllPending
  dsimp only
  split
  · exact .fulfil _ _ _
  · exact .refl _

theorem callMoves_stepReader {a : ClientAction} (ha : s.stepReader a = some t) (i : ℕ) :
    CallMoves (s.calls i) (t.calls i) := by
  unfold DaemonClient.stepReader at ha
  split at ha
  case h_1 msg =>
    split at ha
    case isTrue =>
      obtain rfl := Option.some.inj ha
      unfold DaemonClient.onMessage
      dsimp only
      split
      · split
        · exact CallMoves.update (s := { s with replies := s.replies ++ [msg] }) (.fulfil _ _ _) i
        · exact .refl _
      · exact .refl _
    case isFalse => cases ha
  case h_3 | h_6 =>
    split at ha
    · obtain rfl := Option.some.inj ha
      exact callMoves_failAllPending _ i
    · cases ha
  case h_2 | h_4 | h_5 =>
    split at ha
    · obtain rfl := Option.some.inj ha
      exact .refl _
    · cases ha
  case h_7 => cases ha

/-- What a step does to a call. -/
theorem callMoves_step {a : ClientAction} (ha : s.step a = some t) (i : ℕ) : CallMoves (s.calls i) (t.calls i) := by
  rcases step_cases ha with ha | ha
  · exact callMoves_stepCall ha i
  · exact callMoves_stepReader ha i

/-- Only a message is read. -/
theorem replies_step {a : ClientAction} (ha : s.step a = some t) (hmsg : ∀ msg, a ≠ .message msg) :
    t.replies = s.replies := by
  rcases step_cases ha with ha | ha
  · unfold DaemonClient.stepCall at ha
    repeat' split at ha
    all_goals first
      | (obtain rfl := Option.some.inj ha; rfl)
      | cases ha
  · unfold DaemonClient.stepReader at ha
    repeat' split at ha
    all_goals first
      | (obtain rfl := Option.some.inj ha; rfl)
      | exact absurd rfl (hmsg _)
      | cases ha

theorem nextId_onMessage (msg : Json) : (s.onMessage msg).nextId = s.nextId := by
  unfold DaemonClient.onMessage
  dsimp only
  split
  · split
    · rfl
    · rfl
  · rfl

/-- Numbers are only ever given. -/
theorem nextId_step {a : ClientAction} (ha : s.step a = some t) : s.nextId ≤ t.nextId := by
  rcases step_cases ha with ha | ha
  · unfold DaemonClient.stepCall at ha
    repeat' split at ha
    all_goals first
      | (obtain rfl := Option.some.inj ha; exact le_rfl)
      | (obtain rfl := Option.some.inj ha; exact Nat.le_succ _)
      | cases ha
  · unfold DaemonClient.stepReader at ha
    repeat' split at ha
    all_goals first
      | (obtain rfl := Option.some.inj ha; exact le_rfl)
      | (obtain rfl := Option.some.inj ha; exact (nextId_onMessage _).ge)
      | cases ha

theorem replies_onMessage (msg : Json) : (s.onMessage msg).replies = s.replies ++ [msg] := by
  unfold DaemonClient.onMessage
  dsimp only
  split
  · split
    · rfl
    · rfl
  · rfl

end DaemonClient

/-! ### Histories -/

namespace DaemonSystem

variable {σ : Type} {perform : GuiRpcServer.Operation → σ → Except String Json × σ} {call : ℕ → RpcCall}
  {behind : σ} {history : List (Happening σ)} {i : ℕ}

theorem served_append (history history' : List (Happening σ)) : served (history ++ history') = served history ++ served history' := by
  induction history with
  | nil => rfl
  | cons event history ih =>
    cases event with
    | served i => exact congrArg (i :: ·) ih
    | elsewhere => exact ih

theorem replay_concat (behind : σ) (history : List (Happening σ)) (event : Happening σ) :
    replay perform call behind (history ++ [event]) =
      match event with
      | .served i => (outcome perform (call i) (replay perform call behind history)).2
      | .elsewhere behind => behind := by
  rw [replay, List.foldl_append]
  rfl

/-- What has come of a call stays so. -/
theorem Gave.append {r : Except String Json} (h : Gave perform call behind history i r) (later : List (Happening σ)) :
    Gave perform call behind (history ++ later) i r := by
  obtain ⟨before, after, rfl, hr⟩ := h
  exact ⟨before, after ++ later, by rw [List.append_assoc, List.cons_append], hr⟩

theorem gave_concat (behind : σ) (history : List (Happening σ)) (i : ℕ) :
    Gave perform call behind (history ++ [.served i]) i (outcome perform (call i) (replay perform call behind history)).1 :=
  ⟨history, [], rfl, rfl⟩

/-- A call of which something has come has been served. -/
theorem Gave.mem_served {r : Except String Json} (h : Gave perform call behind history i r) : i ∈ served history := by
  obtain ⟨before, after, rfl, -⟩ := h
  rw [served_append]
  exact List.mem_append_right _ (.head _)

/-! ### What holds in every run -/

/-- A reply tells what has come of a call, under its number. -/
def Tells (perform : GuiRpcServer.Operation → σ → Except String Json × σ) (call : ℕ → RpcCall) (behind : σ)
    (s : DaemonSystem σ) (i : ℕ) (msg : Json) : Prop :=
  ∃ r, Gave perform call behind s.history i r ∧ msg = GuiRpcServer.finish (.int (s.client.calls i).id) r

/-- What holds in every state of a run. -/
structure Inv (perform : GuiRpcServer.Operation → σ → Except String Json × σ) (call : ℕ → RpcCall) (behind : σ)
    (s : DaemonSystem σ) : Prop where
  client : s.client.Inv
  unwrapped : ∀ i, Unwrapped (s.client.calls i)
  behind_eq : s.behind = replay perform call behind s.history
  /-- No request is handled twice. -/
  once : (served s.history ++ s.requests.map Prod.fst).Nodup
  sent : ∀ i ∈ served s.history ++ s.requests.map Prod.fst, Sent (s.client.calls i).point
  requests : ∀ p ∈ s.requests, p.2 = (call p.1).request (s.client.calls p.1).id
  replies : ∀ p ∈ s.replies, Tells perform call behind s p.1 p.2
  read : ∀ msg ∈ s.client.replies, ∃ i, Tells perform call behind s i msg

variable {s t : DaemonSystem σ}

theorem inv_init (behind : σ) : Inv perform call behind { behind } where
  client := DaemonClient.inv_init
  unwrapped _ r h := by cases r <;> cases h
  behind_eq := rfl
  once := .nil
  sent := List.forall_mem_nil _
  requests := List.forall_mem_nil _
  replies := List.forall_mem_nil _
  read := List.forall_mem_nil _

/-- A call that has been served keeps its number, and what is told of it. -/
theorem Inv.tells (h : Inv perform call behind s) {client : DaemonClient}
    (hmoves : ∀ i, CallMoves (s.client.calls i) (client.calls i)) {i : ℕ} {msg : Json}
    (htells : Tells perform call behind s i msg) (hclient : t.client = client) (hhistory : t.history = s.history) :
    Tells perform call behind t i msg := by
  obtain ⟨r, hr, rfl⟩ := htells
  have hnumber := ((hmoves i).sent (h.sent i (List.mem_append_left _ hr.mem_served))).2
  refine ⟨r, hhistory ▸ hr, ?_⟩
  rw [hclient, ClientCall.id, ClientCall.id, hnumber]

/-- A step of the client that neither reads nor sends. -/
theorem Inv.client_step (h : Inv perform call behind s) {a : ClientAction} {client : DaemonClient}
    (ha : s.client.step a = some client) (hmsg : ∀ msg, a ≠ .message msg) (torn : Bool) :
    Inv perform call behind { s with client, torn } := by
  have hmoves := DaemonClient.callMoves_step ha
  have hrange : s.client.InRange a := by
    cases a with
    | message msg => exact absurd rfl (hmsg msg)
    | _ => trivial
  refine ⟨h.client.step hrange ha, fun i => (hmoves i).unwrapped (h.unwrapped i), h.behind_eq, h.once,
    fun i hi => ((hmoves i).sent (h.sent i hi)).1, fun p hp => ?_, fun p hp => h.tells hmoves (h.replies p hp) rfl rfl,
    fun msg hread => ?_⟩
  · have hnumber := ((hmoves p.1).sent (h.sent p.1 (List.mem_append_right _ (List.mem_map_of_mem hp)))).2
    rw [h.requests p hp, ClientCall.id, ClientCall.id, hnumber]
  · have hread : msg ∈ client.replies := hread
    rw [DaemonClient.replies_step ha hmsg] at hread
    obtain ⟨i, htells⟩ := h.read msg hread
    exact ⟨i, h.tells hmoves htells rfl rfl⟩

/-- A request is sent. -/
theorem Inv.send (h : Inv perform call behind s) {i : ℕ} {client : DaemonClient}
    (ha : s.client.step (.send i .sent) = some client) :
    Inv perform call behind
      { s with client, requests := s.requests ++ [(i, (call i).request (s.client.calls i).id)] } := by
  have hmoves := DaemonClient.callMoves_step ha
  have hsame := h.client_step ha (fun msg e => by cases e) s.torn
  obtain ⟨hpoint, hwaiting, hnumber⟩ : (s.client.calls i).point = .registered ∧ (client.calls i).point = .waiting ∧
      (client.calls i).number = (s.client.calls i).number := by
    simp only [DaemonClient.step, DaemonClient.stepCall] at ha
    split at ha
    case h_1 hpoint =>
      obtain rfl := Option.some.inj ha
      rw [DaemonClient.goTo, DaemonClient.update_self]
      exact ⟨hpoint, rfl, rfl⟩
    case h_2 => cases ha
  have hnew : i ∉ served s.history ++ s.requests.map Prod.fst := by
    intro hi
    have hsent := h.sent i hi
    rw [hpoint] at hsent
    exact hsent
  have hlist : (s.requests ++ [(i, (call i).request (s.client.calls i).id)]).map Prod.fst = s.requests.map Prod.fst ++ [i] := by
    rw [List.map_append]
    rfl
  refine ⟨hsame.client, hsame.unwrapped, hsame.behind_eq, ?_, ?_, ?_, hsame.replies, hsame.read⟩
  · rw [hlist, ← List.append_assoc, ← List.concat_eq_append]
    exact h.once.concat hnew
  · intro j hj
    rw [hlist, ← List.append_assoc] at hj
    rcases List.mem_append.mp hj with hj | hj
    · exact hsame.sent j hj
    · obtain rfl := List.mem_singleton.mp hj
      rw [hwaiting]
      trivial
  · intro p hp
    rcases List.mem_append.mp hp with hp | hp
    · exact hsame.requests p hp
    · obtain rfl := List.mem_singleton.mp hp
      rw [ClientCall.id, ClientCall.id, hnumber]

/-- The server handles a request. -/
theorem Inv.serve (h : Inv perform call behind s) (ht : s.step perform call .serve = some t) : Inv perform call behind t := by
  rw [DaemonSystem.step] at ht
  split at ht
  · cases ht
  next i msg requests hrequests =>
    have hmsg : msg = (call i).request (s.client.calls i).id := h.requests (i, msg) (by rw [hrequests]; exact .head _)
    rw [hmsg, onMessage_call] at ht
    obtain rfl := Option.some.inj ht
    have hserved : served (s.history ++ [.served i]) ++ requests.map Prod.fst =
        served s.history ++ s.requests.map Prod.fst := by
      rw [served_append, hrequests, List.append_assoc]
      rfl
    have hlater {j : ℕ} {msg : Json} {t : DaemonSystem σ} (htells : Tells perform call behind s j msg)
        (hclient : t.client = s.client) (hhistory : t.history = s.history ++ [.served i]) :
        Tells perform call behind t j msg := by
      obtain ⟨r, hr, rfl⟩ := htells
      exact ⟨r, hhistory ▸ hr.append _, by rw [hclient]⟩
    refine ⟨h.client, h.unwrapped, ?_, hserved ▸ h.once, fun j hj => h.sent j (hserved ▸ hj), ?_, ?_, ?_⟩
    · rw [replay_concat, ← h.behind_eq]
    · intro p hp
      exact h.requests p (by rw [hrequests]; exact .tail _ hp)
    · intro p hp
      rcases List.mem_append.mp hp with hp | hp
      · exact hlater (h.replies p hp) rfl rfl
      · obtain rfl := List.mem_singleton.mp hp
        refine ⟨_, gave_concat behind s.history i, ?_⟩
        rw [h.behind_eq]
    · intro msg hmsg
      obtain ⟨j, htells⟩ := h.read msg hmsg
      exact ⟨j, hlater htells rfl rfl⟩

theorem get?_id_finish (id : ℤ) (r : Except String Json) : (GuiRpcServer.finish (.int id) r).get? "id" = some (.int id) := by
  cases r <;> rfl

/-- An id is in the range of `int`. -/
theorem id_range (c : ClientCall) : -2 ^ 31 ≤ c.id ∧ c.id < 2 ^ 31 := by
  have hlo := BitVec.le_toInt (BitVec.ofInt 32 c.number)
  have hhi := BitVec.toInt_lt (x := BitVec.ofInt 32 c.number)
  exact ⟨hlo, hhi⟩

/-- The reader reads a reply. -/
theorem Inv.deliver (h : Inv perform call behind s) (ht : s.step perform call .deliver = some t) : Inv perform call behind t := by
  rw [DaemonSystem.step] at ht
  split at ht
  · cases ht
  next i msg replies hreplies =>
    obtain ⟨client, ha, rfl⟩ := Option.map_eq_some_iff.mp ht
    have hmoves := DaemonClient.callMoves_step ha
    have htells : Tells perform call behind s i msg := h.replies (i, msg) (by rw [hreplies]; exact .head _)
    have hrange : s.client.InRange (.message msg) := by
      obtain ⟨r, -, rfl⟩ := htells
      change s.client.IdInRange _
      rw [get?_id_finish]
      exact fun _ => id_range _
    have hread : client.replies = s.client.replies ++ [msg] := by
      have hstep : (if s.client.reader = .looping then some (s.client.onMessage msg) else none) = some client := ha
      split at hstep
      · rw [← Option.some.inj hstep, DaemonClient.replies_onMessage]
      · cases hstep
    refine ⟨h.client.step hrange ha, fun j => (hmoves j).unwrapped (h.unwrapped j), h.behind_eq, h.once,
      fun j hj => ((hmoves j).sent (h.sent j hj)).1, fun p hp => ?_, fun p hp => ?_, fun msg' hmsg => ?_⟩
    · have hnumber := ((hmoves p.1).sent (h.sent p.1 (List.mem_append_right _ (List.mem_map_of_mem hp)))).2
      rw [h.requests p hp, ClientCall.id, ClientCall.id, hnumber]
    · exact h.tells hmoves (h.replies p (by rw [hreplies]; exact .tail _ hp)) rfl rfl
    · have hmsg : msg' ∈ client.replies := hmsg
      rw [hread] at hmsg
      rcases List.mem_append.mp hmsg with hmsg | hmsg
      · obtain ⟨j, htells'⟩ := h.read msg' hmsg
        exact ⟨j, h.tells hmoves htells' rfl rfl⟩
      · obtain rfl := List.mem_singleton.mp hmsg
        exact ⟨i, h.tells hmoves htells rfl rfl⟩

/-- One step. -/
theorem Inv.step (h : Inv perform call behind s) {a : SystemAction σ} (ht : s.step perform call a = some t) :
    Inv perform call behind t := by
  cases a with
  | client a =>
    have hstep : s.stepClient call a = some t := ht
    unfold stepClient at hstep
    split at hstep
    · cases hstep
    · split at hstep
      · obtain ⟨client, ha, rfl⟩ := Option.map_eq_some_iff.mp hstep
        exact h.client_step ha nofun s.torn
      · cases hstep
    · obtain ⟨client, ha, rfl⟩ := Option.map_eq_some_iff.mp hstep
      cases htorn : s.torn with
      | true => exact h.client_step ha nofun true
      | false =>
        have hsend := h.send ha
        rw [htorn] at hsend
        exact hsend
    · obtain ⟨client, ha, rfl⟩ := Option.map_eq_some_iff.mp hstep
      exact h.client_step ha nofun true
    next hmsg _ _ _ =>
      obtain ⟨client, ha, rfl⟩ := Option.map_eq_some_iff.mp hstep
      exact h.client_step ha hmsg s.torn
  | serve => exact h.serve ht
  | deliver => exact h.deliver ht
  | elsewhere behind' =>
    obtain rfl := Option.some.inj ht
    have hserved : served (s.history ++ [.elsewhere behind']) = served s.history := by
      rw [served_append]
      exact List.append_nil _
    have hlater {j : ℕ} {msg : Json} (htells : Tells perform call behind s j msg) :
        Tells perform call behind { s with behind := behind', history := s.history ++ [.elsewhere behind'] } j msg := by
      obtain ⟨r, hr, rfl⟩ := htells
      exact ⟨r, hr.append _, rfl⟩
    refine ⟨h.client, h.unwrapped, ?_, ?_, ?_, h.requests, fun p hp => hlater (h.replies p hp), fun msg hmsg => ?_⟩
    · rw [replay_concat]
    · rw [hserved]
      exact h.once
    · rw [hserved]
      exact h.sent
    · obtain ⟨j, htells⟩ := h.read msg hmsg
      exact ⟨j, hlater htells⟩

theorem Inv.of_steps {as : List (SystemAction σ)} (h : steps (DaemonSystem.step perform call) { behind } as = some s) :
    Inv perform call behind s :=
  steps_invariant (fun _ _ _ ht hs => Inv.step hs ht) h (inv_init behind)

/-- A step is one of the client, after which nothing more has happened at the daemon, or one of the daemon. -/
theorem step_cases {a : SystemAction σ} (ht : s.step perform call a = some t) :
    (t.history = s.history ∧ ∃ a', s.client.step a' = some t.client) ∨
      (t.client = s.client ∧ ∃ event, t.history = s.history ++ [event]) := by
  cases a with
  | client a =>
    have hstep : s.stepClient call a = some t := ht
    unfold stepClient at hstep
    split at hstep
    · cases hstep
    · split at hstep
      · obtain ⟨client, ha, rfl⟩ := Option.map_eq_some_iff.mp hstep
        exact .inl ⟨rfl, _, ha⟩
      · cases hstep
    all_goals
      obtain ⟨client, ha, rfl⟩ := Option.map_eq_some_iff.mp hstep
      exact .inl ⟨rfl, _, ha⟩
  | serve =>
    rw [DaemonSystem.step] at ht
    split at ht
    · cases ht
    · obtain rfl := Option.some.inj ht
      exact .inr ⟨rfl, _, rfl⟩
  | deliver =>
    rw [DaemonSystem.step] at ht
    split at ht
    · cases ht
    · obtain ⟨client, ha, rfl⟩ := Option.map_eq_some_iff.mp ht
      exact .inl ⟨rfl, _, ha⟩
  | elsewhere behind' =>
    obtain rfl := Option.some.inj ht
    exact .inr ⟨rfl, _, rfl⟩

theorem nextId_steps {as : List (SystemAction σ)} (h : steps (DaemonSystem.step perform call) s as = some t) :
    s.client.nextId ≤ t.client.nextId := by
  refine steps_invariant (P := fun t => s.client.nextId ≤ t.client.nextId) (fun t a u ha ht => ht.trans ?_) h le_rfl
  rcases step_cases ha with ⟨-, a', ha'⟩ | ⟨hclient, -⟩
  · exact DaemonClient.nextId_step ha'
  · rw [hclient]

/-- What has happened stays first. -/
theorem history_prefix {as : List (SystemAction σ)} (h : steps (DaemonSystem.step perform call) s as = some t) :
    s.history <+: t.history := by
  refine steps_invariant (P := fun t => s.history <+: t.history) (fun t a u ha ht => ht.trans ?_) h (List.prefix_refl _)
  rcases step_cases ha with ⟨hhistory, -⟩ | ⟨-, event, hhistory⟩
  · rw [hhistory]
  · rw [hhistory]
    exact List.prefix_append _ _

theorem counted_of_sent {p : CallPoint} (h : Sent p) : Counted p := by
  cases p with
  | threw cause what => cases cause <;> first | exact h | trivial
  | uncalled | checked => exact h
  | _ => trivial

/-- A call that has ended as its reply says has what came of it at the daemon. -/
theorem Inv.gave (h : Inv perform call behind s) (hfew : s.client.nextId ≤ 2 ^ 31) {i : ℕ} {r : Except String Json}
    (hr : (s.client.calls i).point = endOf r) : Gave perform call behind s.history i r := by
  obtain ⟨resp, hresp, rfl⟩ := h.unwrapped i r hr
  obtain ⟨k, -, hk, hid⟩ := (h.client.calls i).value resp hresp
  obtain ⟨j, r, hgave, rfl⟩ := h.read resp (List.mem_of_getElem? hk)
  have hnumber := (h.client.calls i).counted (counted_of_sent (hr ▸ sent_endOf _))
  have hsame : (s.client.calls j).id = (s.client.calls i).id := by
    rw [get?_id_finish] at hid
    exact Json.int.inj (Option.some.inj hid)
  rw [ClientCall.id_eq (lt_of_lt_of_le (h.client.calls i).number hfew),
    ClientCall.id_eq (lt_of_lt_of_le (h.client.calls j).number hfew)] at hsame
  obtain rfl := h.client.distinct i j (Int.ofNat.inj hsame).symm hnumber
  rw [answerOf_finish]
  exact hgave

/-- **The calls look as if each had been performed at one moment.** As long as there are fewer than 2³¹ calls, in every
interleaving of the GUI's threads, the reader, the daemon's server and whatever else the daemon does: no call is performed
twice, and none whose request has not been sent; what is behind the server is what the history makes of it; a call that
returns, or throws what a reply says, has what came of it where it stands in the history; and a call that has returned
stands there before every call that is made afterwards. -/
theorem calls_linearized {as : List (SystemAction σ)}
    (h : steps (DaemonSystem.step perform call) { behind } as = some s) (hfew : s.client.nextId ≤ 2 ^ 31) :
    (served s.history).Nodup ∧ (∀ i ∈ served s.history, Sent (s.client.calls i).point) ∧
    s.behind = replay perform call behind s.history ∧
    (∀ i r, (s.client.calls i).point = endOf r → Gave perform call behind s.history i r) ∧
    ∀ bs cs t i j v, as = bs ++ cs → steps (DaemonSystem.step perform call) { behind } bs = some t →
      (t.client.calls i).point = .returned v → (t.client.calls j).point = .uncalled →
      ∃ before after, s.history = before ++ after ∧ i ∈ served before ∧ j ∉ served before := by
  have hs := Inv.of_steps h
  refine ⟨(List.nodup_append.mp hs.once).1, fun i hi => hs.sent i (List.mem_append_left _ hi), hs.behind_eq,
    fun i r hr => hs.gave hfew hr, ?_⟩
  rintro bs cs t i j v rfl ht hi hj
  obtain ⟨t', ht', hrest⟩ := steps_split h
  obtain rfl := Option.some.inj (ht.symm.trans ht')
  obtain ⟨after, hafter⟩ := history_prefix hrest
  have hinv := Inv.of_steps ht
  refine ⟨t.history, after, hafter.symm, ?_, fun hserved => ?_⟩
  · exact (hinv.gave (r := .ok v) ((nextId_steps hrest).trans hfew) hi).mem_served
  · have hsent := hinv.sent j (List.mem_append_left _ hserved)
    rw [hj] at hsent
    exact hsent

/-- A daemon that counts what it does. -/
def counting : GuiRpcServer.Operation → ℕ → Except String Json × ℕ := fun _ n => (.ok (.int n), n + 1)

/-- Two calls. -/
def twoCalls : ℕ → RpcCall
  | 0 => .sampleBsr 0
  | _ => .daemonStatus

/-- The call that is made first is the one whose request is sent last. -/
def overtaken : List (SystemAction ℕ) :=
  [.client (.call 0 "hardware/sample_bsr"), .client (.number 0), .client (.call 1 "daemon/status"), .client (.number 1),
    .client (.register 1), .client (.register 0), .client (.send 1 .sent), .client (.send 0 .sent), .serve, .serve,
    .deliver, .client (.get 1), .deliver, .client (.get 0)]

theorem calls_linearized_overtaken : ∃ s, steps (DaemonSystem.step counting twoCalls) { behind := 0 } overtaken = some s ∧
    Gave counting twoCalls 0 s.history 0 (.ok (.int 1)) := by
  obtain ⟨s, hs⟩ : ∃ s, steps (DaemonSystem.step counting twoCalls) { behind := 0 } overtaken = some s := ⟨_, rfl⟩
  have hseen : (steps (DaemonSystem.step counting twoCalls) { behind := 0 } overtaken).map
    (fun s => (s.client.nextId, (s.client.calls 0).point)) = some (3, .returned (.int 1)) := rfl
  rw [hs] at hseen
  obtain ⟨hnext, hpoint⟩ := Prod.mk.inj (Option.some.inj hseen)
  have hfew : s.client.nextId ≤ 2 ^ 31 := by
    rw [hnext]
    decide
  exact ⟨s, hs, (calls_linearized hs hfew).2.2.2.1 0 (.ok (.int 1)) hpoint⟩

end DaemonSystem

end OwlTap.Gui
