import OpenSphere.Authority.Statements

/-!
# Acceptance

`console_operation.accept_operation`, `accept_development_module_install` and
`accept_gitea_module`.  The first two share the request checks, the replay of a
stored request and the insertion; they differ in how they authorize the caller
and in a marker in the request document.  The third checks the closed
declaration of a Git-reviewed module, calls one of the other two and adds its
binding to the operation.
-/

open Sql

namespace Authority

/-- The arguments of `accept_operation`. -/
structure AcceptArgs where
  sessionId : Option Uuid
  actorRef : Option Uuid
  expectedPermissionRevision : Option Int
  expectedRevokeEpoch : Option Int
  requiredPermission : Option String
  actionId : Option String
  actionVersion : Option String
  targetRef : Option String
  payloadDigest : Option String
  risk : Option String
  reason : Option String
  planRevision : Option String
  approvalRequired : Option Bool
  idempotencyKey : Option String
  correlationId : Option String
  sourceRevision : Option String
  ownerRef : Option String
  expectedPostcondition : Option Jsonb
  executionPlan : Option Jsonb

/-- What an acceptance, an approval and a verification return. -/
structure Accepted where
  operation : Operation
  replayed : Bool

def validateRequest (p : AcceptArgs) : Except SqlError Unit := do
  raiseIf (fails digestFormat p.payloadDigest)
    (exception "invalid payload digest" "22023" "ValidationFailed")
  raiseIf (notIn p.risk ["R0", "R1", "R2", "R3"])
    (exception "invalid operation risk" "22023" "ValidationFailed")
  raiseIf (.and (ne p.risk (some "R0"))
      (some (decide (textLength (btrim (coalesce p.reason "")) < 3))))
    (exception "operation reason is required" "22023" "ReasonRequired")

def requestDocument (development : Bool) (p : AcceptArgs) : Jsonb :=
  .object ((if development then [("localDevelopmentModuleInstall", Jsonb.ofBool true)] else []) ++ [
    ("actionId", jsonText p.actionId),
    ("actionVersion", jsonText p.actionVersion),
    ("targetRef", jsonText p.targetRef),
    ("requiredPermission", jsonText p.requiredPermission),
    ("payloadDigest", jsonText p.payloadDigest),
    ("risk", jsonText p.risk),
    ("reason", .ofText (coalesce p.reason "")),
    ("planRevision", jsonText p.planRevision),
    ("approvalRequired", jsonBool p.approvalRequired),
    ("sourceRevision", jsonText p.sourceRevision),
    ("ownerRef", jsonText p.ownerRef),
    ("expectedPostcondition", .ofNull p.expectedPostcondition),
    ("executionPlan", .ofNull p.executionPlan)])

/-- `SELECT * INTO v_operation ... WHERE actor_ref = ... AND idempotency_key = ...`. -/
def Db.operationOfKey (db : Db) (actorRef : Option Uuid) (idempotencyKey : Option String) :
    Option Operation :=
  db.operations.rows.find? fun o =>
    (eq (some o.actorRef) actorRef).and (eq (some o.idempotencyKey) idempotencyKey) == some true

def newOperation (s : Statement) (development : Bool) (p : AcceptArgs) (requestDigest : String)
    (aal : Aal) (permissionRevision : Int) : Except SqlError Operation := do
  let actionId ← notNull p.actionId "action_id"
  let actionVersion ← notNull p.actionVersion "action_version"
  let actorRef ← notNull p.actorRef "actor_ref"
  let targetRef ← notNull p.targetRef "target_ref"
  let requiredPermission ← notNull p.requiredPermission "required_permission"
  let payloadDigest ← notNull p.payloadDigest "payload_digest"
  let risk ← notNull (p.risk.bind Risk.ofText) "risk"
  let planRevision ← notNull p.planRevision "plan_revision"
  let approvalRequired ← notNull p.approvalRequired "approval_required"
  let idempotencyKey ← notNull p.idempotencyKey "idempotency_key"
  let correlationId ← notNull p.correlationId "correlation_id"
  return {
    operationId := s.rowId
    actionId, actionVersion, actorRef, targetRef, requiredPermission, payloadDigest
    requestDigest
    risk
    reason := coalesce p.reason ""
    aal
    permissionRevision
    planRevision, approvalRequired
    approvalRevision := none
    idempotencyKey, correlationId
    sourceRevision := p.sourceRevision
    ownerRef := p.ownerRef
    executionPlan := p.executionPlan
    state := if approvalRequired then .planned else .authorized
    stateVersion := 0
    expectedPostcondition := p.expectedPostcondition
    observedPostcondition := none
    error := none
    createdAt := s.now
    updatedAt := s.now
    localDevelopmentModuleInstall := development
    declarationBinding := none
    declarationMergeRevision := none }

def acceptanceEventType (o : Operation) : EventType :=
  if o.approvalRequired then .operationAwaitingApproval else .operationReadyForDispatch

def acceptancePayload (o : Operation) : Jsonb :=
  .object [
    ("schemaVersion", .ofText "1.0"),
    ("eventType", .ofText (acceptanceEventType o).text),
    ("operationId", .ofText o.operationId.text),
    ("actionId", .ofText o.actionId),
    ("actionVersion", .ofText o.actionVersion),
    ("targetRef", .ofText o.targetRef),
    ("payloadDigest", .ofText o.payloadDigest),
    ("risk", .ofText o.risk.text),
    ("approvalRequired", .ofBool o.approvalRequired),
    ("correlationId", .ofText o.correlationId)]

def acceptanceEvent (o : Operation) (development : Bool) : EventArgs where
  operationId := some o.operationId
  correlationId := some o.correlationId
  actorRef := some o.actorRef.text
  action := o.actionId
  targetRef := some o.targetRef
  outcome := .accepted
  reason := some o.reason
  evidence := .object ([
    ("requestDigest", .ofText o.requestDigest),
    ("payloadDigest", .ofText o.payloadDigest),
    ("risk", .ofText o.risk.text),
    ("aal", .ofText o.aal.text)] ++
    (if development then [("localDevelopmentModuleInstall", Jsonb.ofBool true)] else []) ++ [
    ("permissionRevision", .ofInt o.permissionRevision),
    ("approvalRequired", .ofBool o.approvalRequired)])

def idempotencyMismatch : SqlError :=
  exception "idempotency key was already used for a different request" "23505"
    "IdempotencyMismatch"

/-- The insertion of a new operation with its outbox row and its audit event. -/
def storeOperation (D : Digest) (s : Statement) (development : Bool) (p : AcceptArgs)
    (session : BrowserSession) (authority : SubjectAuthority) (db : Db) :
    Except SqlError (Db × Accepted) := do
  let o ← newOperation s development p (D.hash (requestDocument development p)) session.aal
    authority.permissionRevision
  let db ← db.insertOperation o
  let db ← db.insertOutbox
    (newOutbox s o.operationId (acceptanceEventType o) (acceptancePayload o) o.payloadDigest)
  let db ← appendEvent D s db (acceptanceEvent o development)
  let db ← db.touchSession s session
  return (db, ⟨o, false⟩)

/-- The stored operation of the key, if its request is the same one, else a new
operation. -/
def replayOrStore (D : Digest) (s : Statement) (development : Bool) (p : AcceptArgs)
    (session : BrowserSession) (authority : SubjectAuthority) (db : Db) :
    Except SqlError (Db × Accepted) :=
  match db.operationOfKey p.actorRef p.idempotencyKey with
  | some o => do
      raiseIf (ne (some o.requestDigest) (some (D.hash (requestDocument development p))))
        idempotencyMismatch
      return (db, ⟨o, true⟩)
  | none => storeOperation D s development p session authority db

/-- The session and the authority of an initiator, who has stepped up recently
for a risky action. -/
def initiator (s : Statement) (p : AcceptArgs) (db : Db) :
    Except SqlError (BrowserSession × SubjectAuthority) := do
  validateRequest p
  let session ← activeSession s db p.sessionId p.actorRef
  let authority ← currentAuthority db session p.actorRef p.expectedPermissionRevision
    p.expectedRevokeEpoch
  requirePermission db p.actorRef p.requiredPermission authority.permissionRevision
  raiseIf (.and (isIn p.risk ["R2", "R3"]) (notRecentAal2 s session)) stepUpRequired
  return (session, authority)

/-- `console_operation.accept_operation`. -/
def acceptOperation (D : Digest) (s : Statement) (p : AcceptArgs) (db : Db) :
    Except SqlError (Db × Accepted) := do
  let (session, authority) ← initiator s p db
  replayOrStore D s false p session authority db

/-- The session and the authority of an initiator on a local site, where the
installation of the Cluster Manager needs no step-up. -/
def developmentInitiator (s : Statement) (p : AcceptArgs) (db : Db) :
    Except SqlError (BrowserSession × SubjectAuthority) := do
  raiseIf (some (!localEdge db)) environmentNotEnabled
  validateRequest p
  let session ← activeSession s db p.sessionId p.actorRef
  let authority ← currentAuthority db session p.actorRef p.expectedPermissionRevision
    p.expectedRevokeEpoch
  requirePermission db p.actorRef p.requiredPermission authority.permissionRevision
  raiseIf (.any [
      distinct p.actionId (some "console.extension.install"),
      distinct p.risk (some "R2"),
      distinct p.requiredPermission (some "console.extension.install"),
      distinct p.ownerRef (some "C_EXT"),
      distinct p.approvalRequired (some false),
      isNull p.targetRef,
      fails clusterManagerFormat p.targetRef])
    (exception "development exception is restricted to Cluster Manager installation" "42501"
      "PolicyRejected")
  return (session, authority)

/-- `console_operation.accept_development_module_install`. -/
def acceptDevelopmentModuleInstall (D : Digest) (s : Statement) (p : AcceptArgs) (db : Db) :
    Except SqlError (Db × Accepted) := do
  let (session, authority) ← developmentInitiator s p db
  replayOrStore D s true p session authority db

/-! ## Git-reviewed modules -/

/-- `x -> k` on a nullable document. -/
def field (x : Option Jsonb) (k : String) : Option Jsonb := x.bind fun x => x.get k

/-- `x ->> k` on a nullable document. -/
def fieldText (x : Option Jsonb) (k : String) : Option String := x.bind fun x => x.getText k

def castText {α : Type} (type : String) (cast : String → Option α) :
    Option String → Except SqlError (Option α)
  | none => .ok none
  | some t => (orRaise (cast t) (.cast type)).map some

def outsideClosedModule (input b d : Option Jsonb) : Cond :=
  .any [
    isNull b,
    distinct (fieldText b "schemaVersion") (some "1.0"),
    distinct (fieldText b "authority") (some "Gitea"),
    distinct (fieldText b "repository") (some "opensphere/platform-declarations"),
    distinct (fieldText b "defaultBranch") (some "main"),
    distinct (fieldText b "consumerId") (some "console-modules"),
    distinct (fieldText b "action") (some "apply"),
    distinct (fieldText b "target") (some "extension.cluster-manager"),
    distinct (fieldText b "templateId") (some "console-cluster-manager-install"),
    ne (some (Jsonb.keyCount b)) (some 9),
    distinct (fieldText d "contract") (some "opensphere.console.git-reviewed-module/v1"),
    distinct (fieldText d "descriptorId") (some "extension.cluster-manager"),
    fails digestFormat (some (coalesce (fieldText d "catalogRevision") "")),
    fails clusterManagerFormat (some (coalesce (fieldText d "image") "")),
    ne (some (Jsonb.keyCount d)) (some 4),
    distinct (fieldText input "actionId") (some "console.extension.install"),
    distinct (fieldText input "actionVersion") (some "1.0"),
    distinct (fieldText input "ownerRef") (some "C_EXT"),
    distinct (fieldText input "requiredPermission") (some "console.extension.install"),
    distinct (fieldText input "risk") (some "R2"),
    distinct (fieldText input "approvalRequired") (some "true"),
    distinct (fieldText input "targetRef") (fieldText d "image"),
    isNotNull (fieldText input "sourceRevision"),
    Jsonb.distinct (field input "executionPlan") (some (.object [
      ("schemaVersion", .ofText "1.0"),
      ("authority", .ofText "OpenSphereRegistry"),
      ("descriptorId", jsonText (fieldText d "descriptorId")),
      ("catalogRevision", jsonText (fieldText d "catalogRevision")),
      ("image", jsonText (fieldText d "image"))])),
    Jsonb.distinct (field input "expectedPostcondition")
      (some (.object [("declaration", .ofNull b)]))]

/-- The arguments the function passes on, each read from the input and cast. -/
def giteaAcceptArgs (input : Option Jsonb) : Except SqlError AcceptArgs := do
  let sessionId ← castText "uuid" castUuid (fieldText input "sessionId")
  let actorRef ← castText "uuid" castUuid (fieldText input "actorRef")
  let expectedPermissionRevision ←
    castText "bigint" castBigint (fieldText input "expectedPermissionRevision")
  let expectedRevokeEpoch ← castText "bigint" castBigint (fieldText input "expectedRevokeEpoch")
  let approvalRequired ← castText "boolean" castBoolean (fieldText input "approvalRequired")
  return {
    sessionId, actorRef, expectedPermissionRevision, expectedRevokeEpoch
    requiredPermission := fieldText input "requiredPermission"
    actionId := fieldText input "actionId"
    actionVersion := fieldText input "actionVersion"
    targetRef := fieldText input "targetRef"
    payloadDigest := fieldText input "payloadDigest"
    risk := fieldText input "risk"
    reason := fieldText input "reason"
    planRevision := fieldText input "planRevision"
    approvalRequired
    idempotencyKey := fieldText input "idempotencyKey"
    correlationId := fieldText input "correlationId"
    sourceRevision := fieldText input "sourceRevision"
    ownerRef := fieldText input "ownerRef"
    expectedPostcondition := field input "expectedPostcondition"
    executionPlan := field input "executionPlan" }

/-- The arguments of a closed installation by someone who may change Git. -/
def closedModule (input : Option Jsonb) (db : Db) : Except SqlError AcceptArgs := do
  let b := field input "declarationBinding"
  let d := field b "desiredState"
  raiseIf (outsideClosedModule input b d)
    (exception "only the closed Git-reviewed Cluster Manager installation is supported" "42501"
      "PolicyRejected")
  let args ← giteaAcceptArgs input
  raiseIf (some (!hasPermission db args.actorRef (some "console.git.change")
      args.expectedPermissionRevision))
    (exception "Git change permission is required" "42501" "PermissionDenied")
  return args

def acceptAsInput (D : Digest) (s : Statement) (input : Option Jsonb) (p : AcceptArgs) (db : Db) :
    Except SqlError (Db × Accepted) :=
  if eq (fieldText input "localDevelopmentModuleInstall") (some "true") = some true then
    acceptDevelopmentModuleInstall D s p db
  else
    acceptOperation D s p db

/-- `console_operation.accept_gitea_module`. -/
def acceptGiteaModule (D : Digest) (s : Statement) (input : Option Jsonb) (db : Db) :
    Except SqlError (Db × Accepted) := do
  let args ← closedModule input db
  let b := field input "declarationBinding"
  let (db, v) ← acceptAsInput D s input args db
  -- the row read back here is the one the inner call returned
  let o := v.operation
  raiseIf (.and (some v.replayed) (Jsonb.distinct o.declarationBinding b))
    (exception "idempotency key belongs to another dispatch boundary" "23505"
      "IdempotencyMismatch")
  if v.replayed then
    return (db, ⟨o, true⟩)
  else
    let o := { o with declarationBinding := b }
    let db ← db.putOperation o
    return (db, ⟨o, false⟩)

end Authority
