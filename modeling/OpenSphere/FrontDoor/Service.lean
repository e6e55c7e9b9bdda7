import OpenSphere.Identity.Sessions
import OpenSphere.Js.Text

/-!
# The operation service

The part of `apps/console-api/src/operation-service.mjs` that runs before the
database: the checks of a request, the registered action policies,
`authorizeOperation`, and the arguments the store passes on.  A call that passes
returns these arguments, and `accept`, `approve` and `verify` fail as the source
does, in its order.

The session is the record `resolve_browser_session` returns, as the session
resolver hands it on.  A `Date` has milliseconds, so `instant` cuts off what a
`timestamptz` has beyond them.
-/

open Sql
open Js (Value Members)
open Authority (Risk Aal Statement Operation AcceptArgs ApproveArgs VerifyArgs)

namespace FrontDoor

/-! ## Failures -/

inductive Failure where
  /-- An error with a code, and a status where it has one. -/
  | fail (code message : String) (status : Option Nat)
  | typeError (message : String)
  /-- What the store makes of an error of the database. -/
  | database (e : SqlError)
deriving DecidableEq

/-- `if (c) throw f`. -/
def throwIf (c : Bool) (f : Failure) : Except Failure Unit := if c then .error f else .ok ()

@[simp] theorem throwIf_eq_ok {c : Bool} {f : Failure} {u : Unit} :
    throwIf c f = .ok u ↔ c = false := by
  cases c <;> simp [throwIf]

/-- `if (!x) throw f`, for a value that may be missing. -/
def orThrow {α : Type} (x : Option α) (f : Failure) : Except Failure α :=
  match x with
  | some a => .ok a
  | none => .error f

@[simp] theorem orThrow_eq_ok {α : Type} {x : Option α} {f : Failure} {a : α} :
    orThrow x f = .ok a ↔ x = some a := by
  cases x <;> simp [orThrow]

/-- `fail('ValidationFailed', message, 400)`. -/
def validationFailed (message : String) : Failure := .fail "ValidationFailed" message (some 400)

/-- `String(x ?? '').trim()`. -/
def normalize (x : Value) : Except Failure String :=
  orThrow (x.orEmpty.toText.map Js.trim) (.typeError "Cannot convert object to primitive value")

/-- The failure of `text`. -/
def lengthFailure (name : String) (minimum maximum : Nat) : Failure :=
  validationFailed (name ++ " must contain " ++ toString minimum ++ ".." ++ toString maximum ++
    " characters")

/-- `text`: the normalized value, if its length is within bounds. -/
def text (x : Value) (name : String) (minimum maximum : Nat) : Except Failure String := do
  let normalized ← normalize x
  throwIf (decide (Js.length normalized < minimum) || decide (maximum < Js.length normalized))
    (lengthFailure name minimum maximum)
  return normalized

def exactObject (x : Value) (allowed : List String) (name : String) : Except Failure Unit :=
  match x with
  | .object ms =>
      let unknown := ms.keys.filter fun k => !allowed.contains k
      throwIf (!unknown.isEmpty)
        (validationFailed (name ++ " contains unknown fields: " ++ ", ".intercalate unknown))
  | _ => .error (validationFailed (name ++ " must be an object"))

/-- A text that may be missing: `x == null ? null : text(x, ...)`. -/
def optionalText (x : Value) (name : String) (minimum maximum : Nat) :
    Except Failure (Option String) :=
  if x.nullish then .ok none else some <$> text x name minimum maximum

/-! ## Requests -/

/-- What the service takes from the language and from its server. -/
structure Runtime where
  /-- `Number(x)`, where it is a non-negative safe integer. -/
  safeInteger : Value → Option { n : Int // 0 ≤ n ∧ n ≤ 9007199254740991 }
  /-- `payloadDigest`: the sha256 of the canonical text, in hexadecimal digits. -/
  payloadDigest : Value → String
  format : ∀ x, Authority.digestFormat (payloadDigest x) = true
  /-- The release configuration is of the edge channel, and its console the local one
  at the public origin. -/
  localEdge : Bool

/-- `Number.isSafeInteger(n) && n >= 0`. -/
def safe (n : Int) : Bool := decide (0 ≤ n ∧ n ≤ 9007199254740991)

/-- What `validateOperationRequest` returns. -/
structure OperationRequest where
  actionId : String
  actionVersion : String
  targetRef : String
  payload : Value
  reason : String
  risk : Value
  planRevision : String
  confirmation : Option String

def operationFields : List String :=
  ["schemaVersion", "actionId", "actionVersion", "targetRef", "payload", "reason", "risk",
    "planRevision", "confirmation"]

def ownKeys : Value → List String
  | .object ms => ms.keys
  | _ => []

/-- The value is the string `s`. -/
def isString (x : Value) (s : String) : Bool :=
  match x with
  | .string t => decide (t = s)
  | _ => false

/-- `^[a-z][a-z0-9.-]{2,127}$`. -/
def actionIdPattern : Pattern :=
  .seq [.times lower 1, .repeated (orOneOf (fun c => lower c || digit c) ['.', '-']) 2 (some 127)]

/-- `^[0-9]+\.[0-9]+$`. -/
def actionVersionPattern : Pattern := .seq [.many1 digit, .text ".", .many1 digit]

def validateOperationRequest (request : Value) : Except Failure OperationRequest := do
  exactObject request operationFields "operation request"
  throwIf (!isString (request.get "schemaVersion") "1.0")
    (validationFailed "unsupported operation schemaVersion")
  let actionId ← text (request.get "actionId") "actionId" 3 128
  let actionVersion ← text (request.get "actionVersion") "actionVersion" 3 16
  throwIf (!(Js.test actionIdPattern actionId && Js.test actionVersionPattern actionVersion))
    (validationFailed "invalid action identity")
  exactObject (request.get "payload") (ownKeys (request.get "payload")) "payload"
  let targetRef ← text (request.get "targetRef") "targetRef" 1 512
  let reason ← text (request.get "reason") "reason" 3 500
  let planRevision ← text (request.get "planRevision") "planRevision" 1 128
  let confirmation ← optionalText (request.get "confirmation") "confirmation" 1 500
  return {
    actionId, actionVersion, targetRef
    payload := request.get "payload"
    reason
    risk := request.get "risk"
    planRevision, confirmation }

def stateVersion (rt : Runtime) (request : Value) : Except Failure Int :=
  orThrow ((rt.safeInteger (request.get "expectedStateVersion")).map (·.1))
    (validationFailed "expectedStateVersion must be a non-negative safe integer")

/-- What `validateApprovalRequest` returns. -/
structure ApprovalRequest where
  reason : String
  approvalRevision : String
  expectedStateVersion : Int
  confirmation : Option String

def approvalFields : List String :=
  ["reason", "approvalRevision", "expectedStateVersion", "confirmation"]

def validateApprovalRequest (rt : Runtime) (request : Value) : Except Failure ApprovalRequest := do
  exactObject request approvalFields "approval request"
  let expectedStateVersion ← stateVersion rt request
  let reason ← text (request.get "reason") "reason" 3 500
  let approvalRevision ← text (request.get "approvalRevision") "approvalRevision" 1 128
  let confirmation ← optionalText (request.get "confirmation") "confirmation" 1 500
  return { reason, approvalRevision, expectedStateVersion, confirmation }

def validateVerificationRequest (rt : Runtime) (request : Value) : Except Failure Int := do
  exactObject request ["expectedStateVersion"] "verification request"
  stateVersion rt request

/-! ## Action policies -/

/-- An entry of `packages/contracts/action-policies.json`, with the fields the service
reads. -/
structure ActionPolicy where
  actionId : String
  actionVersion : String
  permission : String
  risk : Risk
  approvalRequired : Bool
  ownerRef : String
  targetPattern : Pattern
  requesterConfirmedTargetPattern : Option Pattern

/-- `^ghcr\.io/opensphere-platform/[a-z0-9][a-z0-9._-]*@sha256:[0-9a-f]{64}$`. -/
def imagePattern : Pattern :=
  .seq [.text "ghcr.io/opensphere-platform/", .times (fun c => lower c || digit c) 1,
    .many (orOneOf (fun c => lower c || digit c) ['.', '_', '-']),
    .text "@sha256:", .times hexLower 64]

/-- `^ghcr\.io/opensphere-platform/opensphere-shell-cluster-manager@sha256:[a-f0-9]{64}$`. -/
def clusterManagerPattern : Pattern :=
  .seq [.text "ghcr.io/opensphere-platform/opensphere-shell-cluster-manager@sha256:",
    .times hexLower 64]

/-- `^gitea-change:[a-z][a-z0-9._-]{1,127}:[^\r\n]{1,300}$`. -/
def giteaChangePattern : Pattern :=
  .seq [.text "gitea-change:", .times lower 1,
    .repeated (orOneOf (fun c => lower c || digit c) ['.', '_', '-']) 1 (some 127),
    .text ":", .repeated (fun c => !(c == '\r' || c == '\n')) 1 (some 300)]

/-- `^extension\.[a-z0-9][a-z0-9-]{0,62}$`. -/
def extensionPattern : Pattern :=
  .seq [.text "extension.", .times (fun c => lower c || digit c) 1,
    .repeated (orOneOf (fun c => lower c || digit c) ['-']) 0 (some 62)]

def policyRevision : String := "console-operation-policy-2026-09-05.1"

def registryPolicy (actionId : String) : ActionPolicy where
  actionId
  actionVersion := "1.0"
  permission := "console.registry.manage"
  risk := .r2
  approvalRequired := false
  ownerRef := "C_API.registry-credential-broker"
  targetPattern := .text "registry-connection:opensphere-ghcr"
  requesterConfirmedTargetPattern := none

def actionPolicies : List ActionPolicy := [
  { actionId := "console.platform.change.propose", actionVersion := "1.0"
    permission := "console.git.change", risk := .r2, approvalRequired := true
    ownerRef := "API_GIT", targetPattern := giteaChangePattern
    requesterConfirmedTargetPattern := none },
  registryPolicy "console.registry.connection.replace",
  registryPolicy "console.registry.connection.remove",
  { actionId := "console.extension.revocation.create", actionVersion := "1.0"
    permission := "console.extension.revoke", risk := .r2, approvalRequired := true
    ownerRef := "C_EXT", targetPattern := imagePattern
    requesterConfirmedTargetPattern := none },
  { actionId := "console.extension.install", actionVersion := "1.0"
    permission := "console.extension.install", risk := .r2, approvalRequired := true
    ownerRef := "C_EXT", targetPattern := imagePattern
    requesterConfirmedTargetPattern := some clusterManagerPattern },
  { actionId := "console.extension.remove", actionVersion := "1.0"
    permission := "console.extension.remove", risk := .r2, approvalRequired := true
    ownerRef := "C_EXT", targetPattern := extensionPattern
    requesterConfirmedTargetPattern := none }]

def actionKey (actionId actionVersion : String) : String := actionId ++ "@" ++ actionVersion

/-- `policies.get(key)`. -/
def policyOf (key : String) : Option ActionPolicy :=
  actionPolicies.find? fun p => decide (actionKey p.actionId p.actionVersion = key)

/-- `localDevelopmentModuleInstall` of the module installation policy. -/
def moduleInstallationPolicy (rt : Runtime) (action target : String) : Bool :=
  ((decide (action = "console.extension.install") && Js.test clusterManagerPattern target) ||
    (decide (action = "console.extension.inspect") &&
      decide (target = "extension.cluster-manager"))) && rt.localEdge

/-! ## Sessions -/

/-- The instant of a `Date`, in milliseconds. -/
def instant (t : Timestamp) : Int := t / 1000

structure Session where
  sessionId : Option Uuid
  subjectId : Option Uuid
  /-- `new Date(session.expiresAt)`. -/
  expiresAt : Int
  revokedAt : Option Timestamp
  authorityFresh : Bool
  permissions : List String
  permissionRevision : Int
  revokeEpoch : Int
  aal : Aal

def sessionOf (v : ConsoleIdentity.Resolved) : Session where
  sessionId := some v.session.sessionId
  subjectId := some v.session.subjectId
  expiresAt := instant v.session.expiresAt
  revokedAt := v.session.revokedAt
  authorityFresh := true
  permissions := v.permissions
  permissionRevision := v.authority.permissionRevision
  revokeEpoch := v.authority.revokeEpoch
  aal := v.aal

/-- What `authorizeOperation` is asked. -/
structure Authorization where
  permission : String
  risk : String
  reason : String
  localDevelopmentModuleInstall : Bool

def risks : List String := ["R0", "R1", "R2", "R3"]

def permissionDenied : Failure := .fail "PermissionDenied" "permission denied" none

def reasonRequired : Failure := .fail "ReasonRequired" "reason is required" none

def stepUpRequired : Failure := .fail "StepUpRequired" "recent aal2 is required" (some 428)

/-- The installation of a module on a local site needs no step-up. -/
def moduleException (q : Authorization) : Bool :=
  q.localDevelopmentModuleInstall && decide (q.risk = "R2") &&
    ["console.extension.install", "console.operation.approve"].contains q.permission

/-- `authorizeOperation`, with the reference of the actor it returns. -/
def authorizeOperation (session : Session) (now : Int) (q : Authorization) :
    Except Failure Uuid := do
  let sessionInvalid := Failure.fail "SessionInvalid" "active session is required" none
  let actorRef ← orThrow session.subjectId sessionInvalid
  throwIf (session.revokedAt.isSome || decide (session.expiresAt ≤ now)) sessionInvalid
  throwIf (!session.authorityFresh)
    (.fail "AuthorizationAuthorityUnavailable" "authorization authority is unavailable" none)
  throwIf (!session.permissions.contains q.permission) permissionDenied
  throwIf (!risks.contains q.risk)
    (.typeError "risk is outside the closed contract")
  throwIf (decide (q.risk ≠ "R0") && (Js.trim q.reason).isEmpty) reasonRequired
  throwIf ((decide (q.risk = "R2") || decide (q.risk = "R3")) && decide (session.aal ≠ .aal2) &&
    !moduleException q) stepUpRequired
  return actorRef

/-- The identifiers and revisions of the session that a call to the store carries. -/
structure SessionAuthority where
  sessionId : Uuid
  permissionRevision : Int
  revokeEpoch : Int

def sessionAuthority (session : Session) : Except Failure SessionAuthority := do
  let sessionId ← orThrow session.sessionId
    (.fail "AuthenticationRequired" "opaque session id is required" (some 401))
  throwIf (!(safe session.permissionRevision && safe session.revokeEpoch))
    (.fail "AuthenticationRequired" "session authority revision is invalid" (some 401))
  return { sessionId, permissionRevision := session.permissionRevision,
           revokeEpoch := session.revokeEpoch }

/-! ## Acceptance -/

/-- The arguments of `accept`. -/
structure AcceptInput where
  request : Value
  idempotencyKey : Value
  correlationId : Value
  executionPlan : Option Jsonb
  declarationBinding : Option Jsonb

/-- The call of the store: its arguments, whether it is the one for a local module
installation, and the declaration of a Git-reviewed module. -/
structure AcceptCall where
  args : AcceptArgs
  localDevelopmentModuleInstall : Bool
  declarationBinding : Option Jsonb

def requesterConfirmed (policy : ActionPolicy) (i : AcceptInput) (r : OperationRequest) : Bool :=
  i.declarationBinding.isNone && decide (r.actionId = "console.extension.install") &&
    policy.requesterConfirmedTargetPattern.any fun t => Js.test t r.targetRef

def registeredPolicy (r : OperationRequest) : Except Failure ActionPolicy := do
  let policy ← orThrow (policyOf (actionKey r.actionId r.actionVersion))
    (.fail "PolicyRejected" "operation action is not registered" (some 422))
  throwIf (!isString r.risk policy.risk.text)
    (.fail "PolicyRejected" "request risk differs from the registered action policy" (some 422))
  throwIf (decide (r.planRevision ≠ policyRevision))
    (.fail "StaleRevision" "operation policy revision is stale" (some 409))
  throwIf (!Js.test policy.targetPattern r.targetRef)
    (.fail "PolicyRejected" "target is outside the registered action boundary" (some 422))
  return policy

/-- `accept`, up to the call of the store. -/
def accept (rt : Runtime) (now : Int) (session : Session) (i : AcceptInput) :
    Except Failure AcceptCall := do
  let validated ← validateOperationRequest i.request
  let policy ← registeredPolicy validated
  let development := moduleInstallationPolicy rt validated.actionId validated.targetRef
  let actorRef ← authorizeOperation session now {
    permission := policy.permission, risk := policy.risk.text, reason := validated.reason
    localDevelopmentModuleInstall := development }
  let key ← text i.idempotencyKey "Idempotency-Key" 8 256
  let correlation ← text i.correlationId "correlationId" 8 128
  throwIf (i.executionPlan.any fun plan => decide (plan.typeof ≠ "object"))
    (validationFailed "execution plan must be an object")
  let authority ← sessionAuthority session
  return {
    args := {
      sessionId := some authority.sessionId
      actorRef := some actorRef
      expectedPermissionRevision := some authority.permissionRevision
      expectedRevokeEpoch := some authority.revokeEpoch
      requiredPermission := some policy.permission
      actionId := some validated.actionId
      actionVersion := some validated.actionVersion
      targetRef := some validated.targetRef
      payloadDigest := some (rt.payloadDigest validated.payload)
      risk := some policy.risk.text
      reason := some validated.reason
      planRevision := some policyRevision
      approvalRequired := some
        (policy.approvalRequired && !requesterConfirmed policy i validated)
      idempotencyKey := some key
      correlationId := some correlation
      sourceRevision := none
      ownerRef := some policy.ownerRef
      expectedPostcondition := i.declarationBinding.map fun b => .object [("declaration", b)]
      executionPlan := i.executionPlan }
    localDevelopmentModuleInstall := development
    declarationBinding := i.declarationBinding }

/-! ## Approval and verification -/

def fromDatabase {α : Type} : Except SqlError α → Except Failure α
  | .ok a => .ok a
  | .error e => .error (.database e)

/-- `console_operation.get_operation`. -/
def getOperation (s : Statement) (sessionId actorRef operationId : Option Uuid)
    (db : Authority.Db) : Except SqlError (Option Operation) := do
  let session ← Authority.activeSession s db sessionId actorRef
  let authority ← orRaise (db.identity.subjects.lookup actorRef) Authority.staleAuthority
  raiseIf (.any [
    ne (some authority.permissionRevision) (some session.permissionRevision),
    ne (some authority.revokeEpoch) (some session.revokeEpoch)]) Authority.staleAuthority
  return (db.operations.lookup operationId).filter fun o => decide (some o.actorRef = actorRef)

/-- `store.get`, where the identifier is cast by the statement. -/
def storeGet (s : Statement) (session : Session) (operationId : String) (db : Authority.Db) :
    Except Failure (Option Operation) := do
  let id ← fromDatabase (orRaise (castUuid operationId) (.cast "uuid"))
  fromDatabase (getOperation s session.sessionId session.subjectId (some id) db)

/-- The arguments of `approve` and `verify`. -/
structure DecisionInput where
  operationId : String
  request : Value
  idempotencyKey : Value
  correlationId : Value

structure ApproveCall where
  args : ApproveArgs
  localDevelopmentModuleInstall : Bool

/-- Whether the operation is a local module installation, which is looked up only for
a session without a recent second factor. -/
def developmentApproval (rt : Runtime) (s : Statement) (db : Authority.Db) (session : Session)
    (operationId : String) : Except Failure Bool :=
  if session.aal = .aal2 then .ok false
  else do
    let existing ← storeGet s session operationId db
    return existing.any fun o =>
      o.localDevelopmentModuleInstall && moduleInstallationPolicy rt o.actionId o.targetRef

/-- `approve`, up to the call of the store at the statement `s`. -/
def approve (rt : Runtime) (s : Statement) (db : Authority.Db) (session : Session)
    (i : DecisionInput) : Except Failure ApproveCall := do
  let validated ← validateApprovalRequest rt i.request
  let development ← developmentApproval rt s db session i.operationId
  let actorRef ← authorizeOperation session (instant s.now) {
    permission := "console.operation.approve", risk := "R2", reason := validated.reason
    localDevelopmentModuleInstall := development }
  let authority ← sessionAuthority session
  let operationId ← text (.string i.operationId) "operationId" 1 128
  let key ← text i.idempotencyKey "Idempotency-Key" 8 256
  let correlation ← text i.correlationId "correlationId" 8 128
  let operationRef ← fromDatabase (orRaise (castUuid operationId) (.cast "uuid"))
  return {
    args := {
      sessionId := some authority.sessionId
      actorRef := some actorRef
      expectedPermissionRevision := some authority.permissionRevision
      expectedRevokeEpoch := some authority.revokeEpoch
      operationId := some operationRef
      expectedStateVersion := some validated.expectedStateVersion
      reason := some validated.reason
      approvalRevision := some validated.approvalRevision
      confirmation := validated.confirmation
      idempotencyKey := some key
      correlationId := some correlation }
    localDevelopmentModuleInstall := development }

/-- `verify`, up to the call of the store. -/
def verify (rt : Runtime) (now : Int) (session : Session) (i : DecisionInput) :
    Except Failure VerifyArgs := do
  let expectedStateVersion ← validateVerificationRequest rt i.request
  let actorRef ← authorizeOperation session now {
    permission := "console.operation.verify", risk := "R0", reason := ""
    localDevelopmentModuleInstall := false }
  let authority ← sessionAuthority session
  let operationId ← text (.string i.operationId) "operationId" 1 128
  let key ← text i.idempotencyKey "Idempotency-Key" 8 256
  let correlation ← text i.correlationId "correlationId" 8 128
  let operationRef ← fromDatabase (orRaise (castUuid operationId) (.cast "uuid"))
  return {
    sessionId := some authority.sessionId
    actorRef := some actorRef
    expectedPermissionRevision := some authority.permissionRevision
    expectedRevokeEpoch := some authority.revokeEpoch
    operationId := some operationRef
    expectedStateVersion := some expectedStateVersion
    idempotencyKey := some key
    correlationId := some correlation }

end FrontDoor
