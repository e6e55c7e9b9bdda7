import OpenSphere.Authority.Accept

/-!
# Approval

`console_operation.approve_operation` and `approve_development_module_install`.
Both require an approver who is another person than the initiator, record the
approval, authorize the operation and put it into the outbox.  The second is
open to a session without recent `aal2`, but only for an admitted module
installation on the recorded development site.
-/

open Sql

namespace Authority

/-- The arguments of `approve_operation`. -/
structure ApproveArgs where
  sessionId : Option Uuid
  actorRef : Option Uuid
  expectedPermissionRevision : Option Int
  expectedRevokeEpoch : Option Int
  operationId : Option Uuid
  expectedStateVersion : Option Int
  reason : Option String
  approvalRevision : Option String
  confirmation : Option String
  idempotencyKey : Option String
  correlationId : Option String

def validateApproval (p : ApproveArgs) : Except SqlError Unit :=
  raiseIf (.any [
      lt p.expectedStateVersion (some 0),
      some (decide (textLength (btrim (coalesce p.reason "")) < 3)),
      notBetween (some (textLength (coalesce p.approvalRevision ""))) 1 128])
    (exception "invalid approval request" "22023" "ValidationFailed")

def approvalDocument (development : Bool) (p : ApproveArgs) : Jsonb :=
  .object ((if development then [("localDevelopmentModuleInstall", Jsonb.ofBool true)] else []) ++ [
    ("operationId", jsonUuid p.operationId),
    ("expectedStateVersion", jsonInt p.expectedStateVersion),
    ("reason", jsonText (p.reason.map btrim)),
    ("approvalRevision", jsonText p.approvalRevision),
    ("confirmation", jsonText p.confirmation)])

/-- `SELECT * INTO v_approval ... WHERE actor_ref = ... AND idempotency_key = ...`. -/
def Db.approvalOfKey (db : Db) (actorRef : Option Uuid) (idempotencyKey : Option String) :
    Option Approval :=
  db.approvals.rows.find? fun a =>
    (eq (some a.actorRef) actorRef).and (eq (some a.idempotencyKey) idempotencyKey) == some true

def notFound : SqlError := exception "operation was not found" "P0002" "NotFound"

/-- The approver is neither the initiator nor the same person. -/
def requireOtherPerson (db : Db) (o : Operation) (authority : SubjectAuthority)
    (actorRef : Option Uuid) : Except SqlError Unit := do
  raiseIf (eq (some o.actorRef) actorRef)
    (exception "operation initiator cannot approve the same operation" "42501"
      "SelfApprovalDenied")
  let differentPeople :=
    exception "operation initiator and approver must be different people" "42501"
      "SelfApprovalDenied"
  let initiator ← orRaise (db.identity.subjects.lookup (some o.actorRef)) differentPeople
  raiseIf (eq (some initiator.personRef) (some authority.personRef)) differentPeople

def requireAwaitingApproval (o : Operation) (p : ApproveArgs) : Except SqlError Unit := do
  raiseIf (some (!o.approvalRequired))
    (exception "operation does not require approval" "22023" "ApprovalNotRequired")
  raiseIf (.or (isNotNull o.approvalRevision) (ne (some o.planRevision) p.approvalRevision))
    (exception "approval policy revision is stale" "40001" "StaleRevision")
  raiseIf (ne (some o.stateVersion) p.expectedStateVersion)
    (exception "operation state version changed" "40001" "StaleOperationVersion")
  raiseIf (some (decide (o.state ≠ .planned)))
    (exception "operation is not awaiting approval" "55000" "InvalidOperationState")

def newApproval (s : Statement) (development : Bool) (p : ApproveArgs) (o : Operation)
    (requestDigest : String) (session : BrowserSession) (authority : SubjectAuthority) :
    Except SqlError Approval := do
  let actorRef ← notNull p.actorRef "actor_ref"
  let reason ← notNull p.reason "reason"
  let approvalRevision ← notNull p.approvalRevision "approval_revision"
  let expectedStateVersion ← notNull p.expectedStateVersion "expected_state_version"
  let idempotencyKey ← notNull p.idempotencyKey "idempotency_key"
  let correlationId ← notNull p.correlationId "correlation_id"
  return {
    approvalId := s.rowId
    operationId := o.operationId
    actorRef
    reason := btrim reason
    approvalRevision
    requestDigest
    permissionRevision := authority.permissionRevision
    revokeEpoch := authority.revokeEpoch
    aal := session.aal
    expectedStateVersion, idempotencyKey, correlationId
    createdAt := s.now
    localDevelopmentModuleInstall := development }

/-- The payload that makes an approved operation ready for dispatch. -/
def approvalPayload (o : Operation) (a : Approval) : Jsonb :=
  .object [
    ("schemaVersion", .ofText "1.0"),
    ("eventType", .ofText EventType.operationReadyForDispatch.text),
    ("operationId", .ofText o.operationId.text),
    ("approvalId", .ofText a.approvalId.text),
    ("approverRef", .ofText a.actorRef.text),
    ("approvalRevision", .ofText a.approvalRevision),
    ("state", .ofText o.state.text),
    ("stateVersion", .ofInt o.stateVersion),
    ("correlationId", .ofText a.correlationId)]

def approvalEvent (o : Operation) (a : Approval) (development : Bool) : EventArgs where
  operationId := some o.operationId
  correlationId := some a.correlationId
  actorRef := some a.actorRef.text
  action := "console.operation.approve"
  targetRef := some o.targetRef
  outcome := .accepted
  reason := some a.reason
  evidence := .object ([
    ("approvalId", .ofText a.approvalId.text),
    ("approvalRevision", .ofText a.approvalRevision),
    ("requestDigest", .ofText a.requestDigest),
    ("permissionRevision", .ofInt a.permissionRevision),
    ("revokeEpoch", .ofInt a.revokeEpoch),
    ("aal", .ofText a.aal.text)] ++
    (if development then [("localDevelopmentModuleInstall", Jsonb.ofBool true)] else []) ++ [
    ("initiatorRef", .ofText o.actorRef.text),
    ("distinctPerson", .ofBool true),
    ("stateVersion", .ofInt o.stateVersion)])

def storeApproval (D : Digest) (s : Statement) (development : Bool) (p : ApproveArgs)
    (session : BrowserSession) (authority : SubjectAuthority) (db : Db) :
    Except SqlError (Db × Accepted) := do
  let o ← orRaise (db.operations.lookup p.operationId) notFound
  requireOtherPerson db o authority p.actorRef
  requireAwaitingApproval o p
  let requestDigest := D.hash (approvalDocument development p)
  let a ← newApproval s development p o requestDigest session authority
  let db ← db.insertApproval a
  let o := { o with
    state := .authorized
    stateVersion := o.stateVersion + 1
    approvalRevision := some a.approvalRevision
    updatedAt := s.now }
  let db ← db.putOperation o
  let db ← db.insertOutbox
    (newOutbox s o.operationId .operationReadyForDispatch (approvalPayload o a) requestDigest)
  let db ← appendEvent D s db (approvalEvent o a development)
  let db ← db.touchSession s session
  return (db, ⟨o, false⟩)

/-- The operation of a stored approval, if its request is the same one, else a
new approval. -/
def replayOrApprove (D : Digest) (s : Statement) (development : Bool) (p : ApproveArgs)
    (session : BrowserSession) (authority : SubjectAuthority) (db : Db) :
    Except SqlError (Db × Option Accepted) :=
  match db.approvalOfKey p.actorRef p.idempotencyKey with
  | some a => do
      raiseIf (ne (some a.requestDigest) (some (D.hash (approvalDocument development p))))
        (exception "idempotency key was already used for a different approval" "23505"
          "IdempotencyMismatch")
      -- a foreign key of the approval makes the operation exist
      return (db, (db.operations.lookup (some a.operationId)).map fun o => ⟨o, true⟩)
  | none => do
      let (db, v) ← storeApproval D s development p session authority db
      return (db, some v)

/-- `console_operation.approve_operation`. -/
def approveOperation (D : Digest) (s : Statement) (p : ApproveArgs) (db : Db) :
    Except SqlError (Db × Option Accepted) := do
  validateApproval p
  let session ← activeSession s db p.sessionId p.actorRef
  let authority ← currentAuthority db session p.actorRef p.expectedPermissionRevision
    p.expectedRevokeEpoch
  requirePermission db p.actorRef (some "console.operation.approve") authority.permissionRevision
  raiseIf (notRecentAal2 s session) stepUpRequired
  replayOrApprove D s false p session authority db

/-- `console_operation.approve_development_module_install`. -/
def approveDevelopmentModuleInstall (D : Digest) (s : Statement) (p : ApproveArgs) (db : Db) :
    Except SqlError (Db × Option Accepted) := do
  raiseIf (some (!localDevelopmentEdge db)) environmentNotEnabled
  validateApproval p
  let session ← activeSession s db p.sessionId p.actorRef
  let authority ← currentAuthority db session p.actorRef p.expectedPermissionRevision
    p.expectedRevokeEpoch
  requirePermission db p.actorRef (some "console.operation.approve") authority.permissionRevision
  let restricted :=
    exception "development approval is restricted to an admitted Cluster Manager install" "42501"
      "PolicyRejected"
  let o ← orRaise (db.operations.lookup p.operationId) restricted
  raiseIf (.any [
      some (!o.localDevelopmentModuleInstall),
      some (decide (o.actionId ≠ "console.extension.install")),
      some (decide (o.risk ≠ .r2)),
      some (!clusterManagerFormat o.targetRef)]) restricted
  replayOrApprove D s true p session authority db

end Authority
