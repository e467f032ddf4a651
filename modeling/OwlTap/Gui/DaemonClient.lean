import Mathlib.Data.List.AList
import Mathlib.Logic.Function.Basic
import OwlTap.Base.Json
import OwlTap.Base.Steps

/-!
# The client of the daemon

Any number of threads call `GuiDaemonClient::call` at the same time. A call registers a promise
under its number, sends its request and waits; the reader thread fulfils the promise that is
registered under the number in a reply; when the connection ends, all registered promises fail.
Each section under a mutex is one step. A call is named by a number of its own, which is not part of
the code.
-/

namespace OwlTap.Gui

/-! ### Calls -/

/-- A promise. -/
inductive Promise where
  | unset
  | value (reply : Json)
  | exception (what : String)

/-- Why a call has thrown. -/
inductive Cause where
  /-- It was not connected. -/
  | notConnected
  /-- There was a promise under its number already. -/
  | taken
  /-- Its request has no text. -/
  | unframed
  /-- Its request could not be sent. -/
  | notSent
  /-- Its time has passed. -/
  | timeout
  /-- Its promise has failed. -/
  | failed
  /-- The reply is an error. -/
  | error
  deriving DecidableEq

/-- Where a call is. -/
inductive CallPoint where
  | uncalled
  /-- It was connected. -/
  | checked
  /-- It has its number. -/
  | numbered
  /-- Its promise is registered. -/
  | registered
  /-- Its request has been sent. -/
  | waiting
  /-- The send has failed. -/
  | sendFailed
  /-- Its time has passed. -/
  | timedOut
  /-- It has returned. -/
  | returned (result : Json)
  /-- It has thrown. -/
  | threw (cause : Cause) (what : String)

/-- A call. -/
structure ClientCall where
  method : String := ""
  point : CallPoint := .uncalled
  /-- What `next_id` was. -/
  number : ℕ := 0
  promise : Promise := .unset
  /-- How often its promise has been fulfilled; not part of the code. -/
  fulfilled : ℕ := 0
  /-- The reply that has completed it; not part of the code. -/
  completedBy : Option ℕ := none

/-- An `int` from a number. -/
def toInt32 (n : ℤ) : ℤ := (BitVec.ofInt 32 n).toInt

/-- The id of a call. -/
def ClientCall.id (c : ClientCall) : ℤ := toInt32 c.number

/-- `set_value` or `set_exception`. -/
def ClientCall.fulfil (promise : Promise) (completedBy : Option ℕ) (c : ClientCall) : ClientCall :=
  match c.promise with
  | .unset => { c with promise, fulfilled := c.fulfilled + 1, completedBy }
  | _ => { c with fulfilled := c.fulfilled + 1 }

/-- The text of an error in a reply. -/
def errorText (e : Json) : String :=
  match e.value Json.getString "message" "rpc error" with
  | .ok message => message
  | .error what => what

/-- The result in a reply. -/
def resultOf (resp : Json) : Json := (resp.get? "result").getD (.obj [])

/-- What a reply makes of a call. -/
def unwrap (resp : Json) : CallPoint :=
  match resp.get? "error" with
  | some e => .threw .error (errorText e)
  | none => .returned (resultOf resp)

/-! ### The client -/

/-- Where the reader thread is. -/
inductive ReaderPoint where
  /-- In its loop. -/
  | looping
  /-- It has left the loop. -/
  | leaving
  /-- It has returned. -/
  | ended
  deriving DecidableEq

/-- Where the call of `disconnect` is. -/
inductive DisconnectPoint where
  | uncalled
  /-- The flags are set, and the socket is closed. -/
  | closed
  /-- The reader thread has been joined. -/
  | joined
  /-- It has returned. -/
  | returned
  deriving DecidableEq

/-- The client, connected, and the calls on it. -/
structure DaemonClient where
  connected : Bool := true
  nextId : ℕ := 1
  /-- The registered promises, which are those of calls. -/
  pending : AList fun _ : ℤ => ℕ := ∅
  reader : ReaderPoint := .looping
  disconnect : DisconnectPoint := .uncalled
  calls : ℕ → ClientCall := fun _ => {}
  /-- What the reader has read; not part of the code. -/
  replies : List Json := []

/-- What becomes of a request. -/
inductive SendResult where
  | sent
  | failed
  /-- Its text could not be made. -/
  | unframed (what : String)
  deriving DecidableEq

/-- What can happen next. -/
inductive ClientAction where
  /-- A call, which looks whether it is connected. -/
  | call (i : ℕ) (method : String)
  /-- It takes its number. -/
  | number (i : ℕ)
  /-- It registers its promise. -/
  | register (i : ℕ)
  /-- It sends its request. -/
  | send (i : ℕ) (result : SendResult)
  /-- Its time passes. -/
  | timeout (i : ℕ)
  /-- It removes its promise. -/
  | erase (i : ℕ)
  /-- It gets its reply, or the exception. -/
  | get (i : ℕ)
  /-- The reader reads a message. -/
  | message (msg : Json)
  /-- The reader leaves its loop, because the connection is closed or it is told to. -/
  | leave
  /-- It lets all promises fail. -/
  | failAll
  /-- `disconnect` is called. -/
  | disconnect
  /-- It joins the reader. -/
  | join
  /-- It lets all promises fail, and returns. -/
  | failRest

namespace DaemonClient

variable (s : DaemonClient)

/-- A call changes. -/
def update (i : ℕ) (c : ClientCall) : DaemonClient := { s with calls := Function.update s.calls i c }

/-- A call gets to a point. -/
def goTo (i : ℕ) (point : CallPoint) : DaemonClient := s.update i { s.calls i with point }

/-- Whether the promise of a call is registered. -/
def Registered (i : ℕ) : Prop := ∃ e ∈ s.pending.entries, e.2 = i

instance (i : ℕ) : Decidable (s.Registered i) := inferInstanceAs (Decidable (∃ e ∈ s.pending.entries, e.2 = i))

def failAllPending (reason : String) : DaemonClient :=
  { s with
    pending := ∅
    calls := fun i => if s.Registered i then (s.calls i).fulfil (.exception reason) none else s.calls i }

/-- What `call` does. -/
def stepCall : ClientAction → Option DaemonClient
  | .call i method =>
    match (s.calls i).point with
    | .uncalled =>
      some (s.update i { s.calls i with
        method
        point := if s.connected then .checked else .threw .notConnected "GuiDaemonClient: not connected" })
    | _ => none
  | .number i =>
    match (s.calls i).point with
    | .checked =>
      some { s.update i { s.calls i with point := .numbered, number := s.nextId } with nextId := s.nextId + 1 }
    | _ => none
  | .register i =>
    match (s.calls i).point with
    | .numbered =>
      if (s.calls i).id ∈ s.pending then some (s.goTo i (.threw .taken "Future already retrieved"))
      else some { s.goTo i .registered with pending := s.pending.insert (s.calls i).id i }
    | _ => none
  | .send i result =>
    match (s.calls i).point with
    | .registered =>
      some (s.goTo i (match result with
        | .sent => .waiting
        | .failed => .sendFailed
        | .unframed what => .threw .unframed what))
    | _ => none
  | .timeout i =>
    match (s.calls i).point, (s.calls i).promise with
    | .waiting, .unset => some (s.goTo i .timedOut)
    | _, _ => none
  | .erase i =>
    match (s.calls i).point with
    | .sendFailed =>
      some { s.goTo i (.threw .notSent ("send() failed: " ++ (s.calls i).method)) with
        pending := s.pending.erase (s.calls i).id }
    | .timedOut =>
      some { s.goTo i (.threw .timeout ("timeout waiting for " ++ (s.calls i).method)) with
        pending := s.pending.erase (s.calls i).id }
    | _ => none
  | .get i =>
    match (s.calls i).point, (s.calls i).promise with
    | .waiting, .value resp => some (s.goTo i (unwrap resp))
    | .waiting, .exception what => some (s.goTo i (.threw .failed what))
    | _, _ => none
  | _ => none

/-- What the reader does with a message. -/
def onMessage (msg : Json) : DaemonClient :=
  let s' := { s with replies := s.replies ++ [msg] }
  match msg.get? "id" with
  | some (.int n) =>
    match s.pending.lookup (toInt32 n) with
    | some i =>
      { s'.update i ((s.calls i).fulfil (.value msg) (some s.replies.length)) with
        pending := s.pending.erase (toInt32 n) }
    | none => s'
  | _ => s'

/-- What the reader and `disconnect` do. -/
def stepReader : ClientAction → Option DaemonClient
  | .message msg => if s.reader = .looping then some (s.onMessage msg) else none
  | .leave => if s.reader = .looping then some { s with reader := .leaving, connected := false } else none
  | .failAll =>
    if s.reader = .leaving then some { s.failAllPending "connection closed by server" with reader := .ended } else none
  | .disconnect =>
    if s.disconnect = .uncalled then some { s with disconnect := .closed, connected := false } else none
  | .join =>
    if s.disconnect = .closed ∧ s.reader = .ended then some { s with disconnect := .joined } else none
  | .failRest =>
    if s.disconnect = .joined then some { s.failAllPending "disconnected" with disconnect := .returned } else none
  | _ => none

/-- One step; `none` when it cannot happen. -/
def step (a : ClientAction) : Option DaemonClient :=
  match a with
  | .call _ _ | .number _ | .register _ | .send _ _ | .timeout _ | .erase _ | .get _ => s.stepCall a
  | .message _ | .leave | .failAll | .disconnect | .join | .failRest => s.stepReader a

end DaemonClient

end OwlTap.Gui
