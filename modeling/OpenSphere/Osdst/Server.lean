import OpenSphere.Js.Coerce

/-!
# The dialogue state server

`route` asks other systems one after the other: the parser of the URL, the identity authority, the
stream of the request, the store and the database.  What fails is thrown with a property `code`,
which is a status where the server throws it and something else where another system does.  The
handler of the server takes it for a status, and `writeHead` refuses what is none.
-/

open Sql (chars)
open Js (Value)

namespace Osdst

/-- The property `code` of an error. -/
inductive Code where
  | absent
  | number (n : ℕ)
  | text (t : String)
deriving DecidableEq

structure Raised where
  code : Code
  message : String
  errorCode : Option String
  retryAfterSeconds : Option ℕ
deriving DecidableEq

/-- `Object.assign(new Error(message), { code })`. -/
def fault (code : ℕ) (message : String) : Raised := ⟨.number code, message, none, none⟩

def typeError (message : String) : Raised := ⟨.absent, message, none, none⟩

/-! ## Responses -/

inductive Body where
  | health
  | metrics
  | readiness (ready : Bool)
  | status (ready : Bool)
  | result (x : Value)
  | failed (message : String) (errorCode : Option String) (retryAfterSeconds : Option ℕ)

structure Response where
  status : ℤ
  body : Body

/-- `Number(code || 500)`, unless it is `NaN` or infinite. -/
def statusNumber : Code → Option ℚ
  | .absent => some 500
  | .number n => some (if n = 0 then 500 else n)
  | .text t =>
      if t = "" then some 500
      else match Js.numberOfText t with
        | some (.finite x) => some x.value
        | _ => none

/-- `x | 0`. -/
def toInt32 : Option ℚ → ℤ
  | some x => (x.num.tdiv x.den).bmod (2 ^ 32)
  | none => 0

/-- `json(res, status, value)`, which throws what `writeHead` throws. -/
def json (status : Option ℚ) (body : Body) : Except Raised Response :=
  if 100 ≤ toInt32 status ∧ toInt32 status ≤ 999 then .ok ⟨toInt32 status, body⟩
  else .error ⟨.text "ERR_HTTP_INVALID_STATUS_CODE", "Invalid status code", none, none⟩

/-! ## Identity -/

structure Actor where
  groups : List String
  permissions : List String
  assurance : String

/-- How `verifyActor` fails. -/
inductive IdentityFault where
  | caller
  | credential
  | coordinates
  | unavailable
  | rejected (status : ℕ)
  | projection
  /-- A part of a credential or of an answer has no text. -/
  | unconvertible (message : String)

/-- What `verifyActor` throws. -/
def IdentityFault.raised : IdentityFault → Raised
  | .caller => fault 403 "OSDST requires the admitted C_AI caller"
  | .credential => fault 401 "OSDST requires an exchanged Owner credential"
  | .coordinates => fault 401 "Invalid Owner credential coordinates"
  | .unavailable => fault 503 "Console identity authority unavailable"
  | .rejected status => fault (if status = 401 ∨ status = 403 then status else 503)
      "Console identity authority rejected the current credential"
  | .projection => fault 503 "Invalid current Console identity projection"
  | .unconvertible message => typeError message

def requireChatUse (actor : Actor) : Except Raised Unit :=
  if "osaa.chat.use" ∈ actor.permissions then .ok ()
  else .error (fault 403 "requires osaa.chat.use")

def requireAdminAal2 (adminGroup : String) (actor : Actor) : Except Raised Unit :=
  if adminGroup ∉ actor.groups then .error (fault 403 ("requires " ++ adminGroup))
  else if actor.assurance ≠ "aal2" then .error (fault 403 "AAL2 reauthentication is required")
  else .ok ()

/-! ## Requests -/

inductive Endpoint where
  | healthz | metrics | readyz | status
  | list
  | get (id : String)
  | update (id : String)
  | remove (id : String)
  | projection (id : String)
  | begin | complete | fail | heartbeat
  | recover (conversation turn : String)
  | notFound
deriving DecidableEq

/-- `t` in lower case, of a path. -/
def lower (t : String) : String := String.ofList ((chars t).map Char.toLower)

/-- `/[0-9a-f-]{36}/i`. -/
def idFormat (t : String) : Bool :=
  (chars t).length == 36 && (chars (lower t)).all fun c => Sql.hexLower c || c == '-'

/-- The paths of conversations.  Their expressions do not tell upper from lower case. -/
def conversationEndpoint (method : String) (segments : List String) : Option Endpoint :=
  match segments.map lower, segments with
  | ["", "v1", "conversations", _], [_, _, _, id] =>
      if !idFormat id then none
      else if method = "GET" then some (.get id)
      else if method = "PATCH" then some (.update id)
      else if method = "DELETE" then some (.remove id)
      else none
  | ["", "v1", "conversations", _, "projection"], [_, _, _, id, _] =>
      if idFormat id ∧ method = "GET" then some (.projection id) else none
  | ["", "v1", "admin", "conversations", _, "turns", _, "recover"],
      [_, _, _, _, conversation, _, turn, _] =>
      if idFormat conversation ∧ idFormat turn ∧ method = "POST" then
        some (.recover conversation turn)
      else none
  | _, _ => none

/-- The dispatch of `route`. -/
def endpoint (method pathname : String) : Endpoint :=
  if pathname = "/healthz" then .healthz
  else if pathname = "/metrics" then .metrics
  else if pathname = "/readyz" then .readyz
  else if pathname = "/v1/status" ∧ method = "GET" then .status
  else if pathname = "/v1/conversations" ∧ method = "GET" then .list
  else if pathname = "/v1/turns/begin" ∧ method = "POST" then .begin
  else if pathname = "/v1/turns/complete" ∧ method = "POST" then .complete
  else if pathname = "/v1/turns/fail" ∧ method = "POST" then .fail
  else if pathname = "/v1/turns/heartbeat" ∧ method = "POST" then .heartbeat
  else
    (conversationEndpoint method (((chars pathname).splitOn '/').map String.ofList)).getD .notFound

inductive StoreCall where
  | list
  | get (id : String)
  | update (id : String) (body : Value)
  | remove (id : String)
  | dialogueContext (id : String)
  | beginTurn (body : Value)
  | completeTurn (turn response transition : Value)
  | failTurn (turn : Value)
  | heartbeatTurn (turn : Value)
  | recoverTurn (conversation turn owner reason : String)

/-- What the other systems do during a request. -/
structure Outside where
  /-- `new URL(req.url, ...).pathname`. -/
  url : Except Raised String
  identity : Except IdentityFault Actor
  readiness : Except Raised Bool
  maintenanceReady : Bool
  /-- There are credentials for the maintenance. -/
  maintenance : Bool
  adminGroup : String
  /-- The pieces of the body, and the error that the stream ends with. -/
  pieces : List (List UInt8)
  streamError : Option Raised
  /-- `JSON.parse` of the text of the octets. -/
  parse : List UInt8 → Option Value
  /-- `dialogueTransitionForToolResult`, or null where no transitions are recorded. -/
  transition : Value → Except Raised Value
  store : StoreCall → Except Raised Value

def maxBody : ℕ := 3 * 1024 * 1024

/-- The loop of `readBody`, with the octets that have come. -/
def readPieces (streamError : Option Raised) (read : List UInt8) :
    List (List UInt8) → Except Raised (List UInt8)
  | [] =>
      match streamError with
      | some e => .error e
      | none => .ok read
  | piece :: pieces =>
      if maxBody < (read ++ piece).length then .error (fault 413 "payload too large")
      else readPieces streamError (read ++ piece) pieces

def readBody (E : Outside) : Except Raised Value := do
  let octets ← readPieces E.streamError [] E.pieces
  if E.pieces = [] then return .object .nil
  match E.parse octets with
  | some x => return x
  | none => throw (fault 400 "invalid JSON body")

def member (body : Value) (name : String) : Except Raised Value :=
  if body.nullish then .error (typeError "Cannot read properties of null") else .ok (body.get name)

/-- `String(x || '').trim()`. -/
def trimmedText (x : Value) : Except Raised String :=
  match (x.or (.string "")).toText with
  | some t => .ok (Js.trim t)
  | none => .error (typeError "Cannot convert object to primitive value")

def answerWith (E : Outside) (call : StoreCall) : Except Raised Response := do
  json (some 200) (.result (← E.store call))

def recover (E : Outside) (actor : Actor) (conversation turn : String) :
    Except Raised Response := do
  requireAdminAal2 E.adminGroup actor
  let body ← readBody E
  let reason ← trimmedText (← member body "reason")
  let ownerId ← trimmedText (← member body "ownerId")
  if Js.length reason < 8 ∨ 500 < Js.length reason then
    throw (fault 400 "recovery reason must contain 8 to 500 characters")
  if !E.maintenance then throw (fault 503 "OSDST maintenance capability unavailable")
  answerWith E (.recoverTurn conversation turn ownerId reason)

/-- What `route` does for an actor. -/
def routeFor (E : Outside) (actor : Actor) : Endpoint → Except Raised Response
  | .list => answerWith E .list
  | .get id => answerWith E (.get id)
  | .update id => do answerWith E (.update id (← readBody E))
  | .remove id => answerWith E (.remove id)
  | .projection id => answerWith E (.dialogueContext id)
  | .begin => do answerWith E (.beginTurn (← readBody E))
  | .complete => do
      let body ← readBody E
      let response ← member body "response"
      let transition ← E.transition body
      answerWith E (.completeTurn (body.get "turn") response transition)
  | .fail => do answerWith E (.failTurn (← member (← readBody E) "turn"))
  | .heartbeat => do answerWith E (.heartbeatTurn (← member (← readBody E) "turn"))
  | .recover conversation turn => recover E actor conversation turn
  | _ => json (some 404) (.failed "not found" none none)

def route (E : Outside) (method : String) : Except Raised Response := do
  let pathname ← E.url
  match endpoint method pathname with
  | .healthz => json (some 200) .health
  | .metrics => json (some 200) .metrics
  | .readyz =>
      let ready := (← E.readiness) && E.maintenanceReady
      json (some (if ready then 200 else 503)) (.readiness ready)
  | .status =>
      let ready := E.readiness.toOption.getD false
      json (some (if ready then 200 else 503)) (.status ready)
  | e =>
      let actor ← E.identity.mapError IdentityFault.raised
      requireChatUse actor
      routeFor E actor e

/-- What comes of a request: what was written, and whether the handler threw. -/
structure Exchange where
  responses : List Response
  thrown : Bool

def serve (E : Outside) (method : String) : Exchange :=
  match route E method with
  | .ok r => ⟨[r], false⟩
  | .error e =>
      match json (statusNumber e.code) (.failed e.message e.errorCode e.retryAfterSeconds) with
      | .ok r => ⟨[r], false⟩
      | .error _ => ⟨[], true⟩

end Osdst
