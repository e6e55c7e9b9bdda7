import OpenSphere.Authority.Schema

/-!
# Statements the functions share

One definition for each statement that several functions contain word for
word: the session, authority and permission checks, the writes to one table,
and `console_audit.append_event_internal`.  The functions themselves are
sequences of these and of their own guards.
-/

open Sql

namespace Authority

/-! ## Session and authority -/

/-- `RAISE EXCEPTION message USING ERRCODE, DETAIL`. -/
abbrev exception (message errcode detail : String) : SqlError := .raised message errcode detail

def sessionInvalid : SqlError :=
  exception "active Console session is required" "28000" "SessionInvalid"

/-- The session of a call, if it is the caller's, not revoked and not expired. -/
def activeSession (s : Statement) (db : Db) (sessionId actorRef : Option Uuid) :
    Except SqlError BrowserSession := do
  let session ← orRaise (db.identity.sessions.lookup sessionId) sessionInvalid
  raiseIf (.any [
    ne (some session.subjectId) actorRef,
    isNotNull session.revokedAt,
    le (some session.expiresAt) (some s.now)]) sessionInvalid
  return session

def staleAuthority : SqlError :=
  exception "session authority revision is stale" "28000" "StaleAuthorityRevision"

def currentAuthority (db : Db) (session : BrowserSession) (actorRef : Option Uuid)
    (expectedPermissionRevision expectedRevokeEpoch : Option Int) :
    Except SqlError SubjectAuthority := do
  let authority ← orRaise (db.identity.subjects.lookup actorRef) staleAuthority
  raiseIf (.any [
    ne (some authority.permissionRevision) (some session.permissionRevision),
    ne (some authority.permissionRevision) expectedPermissionRevision,
    ne (some authority.revokeEpoch) (some session.revokeEpoch),
    ne (some authority.revokeEpoch) expectedRevokeEpoch]) staleAuthority
  return authority

def hasPermission (db : Db) (subject : Option Uuid) (permission : Option String)
    (revision : Option Int) : Bool :=
  db.identity.grants.rows.any fun g =>
    Cond.all [
      eq (some g.subjectId) subject,
      eq (some g.permission) permission,
      le (some g.grantRevision) revision,
      isNull g.revokedAt] == some true

def permissionDenied : SqlError := exception "permission denied" "42501" "PermissionDenied"

/-- `IF NOT EXISTS (SELECT 1 FROM permission_grant ...) THEN RAISE`. -/
def requirePermission (db : Db) (subject : Option Uuid) (permission : Option String)
    (revision : Int) : Except SqlError Unit :=
  raiseIf (some (!hasPermission db subject permission (some revision))) permissionDenied

/-- The session is not a recently re-authenticated `aal2` one. -/
def notRecentAal2 (s : Statement) (session : BrowserSession) : Cond :=
  .any [
    some (decide (session.aal ≠ .aal2)),
    isNull session.lastReauthenticatedAt,
    lt session.lastReauthenticatedAt (some (s.now - seconds 300)),
    lt (some (s.now + seconds 30)) session.lastReauthenticatedAt]

def stepUpRequired : SqlError := exception "recent aal2 is required" "42501" "StepUpRequired"

def localEdge (db : Db) : Bool :=
  db.identity.environment.any fun env =>
    decide (env.channel = "edge") && localOriginFormat env.consoleOrigin

/-- The recorded site is the local edge origin of a development cluster. -/
def localDevelopmentEdge (db : Db) : Bool :=
  db.identity.environment.any fun env =>
    decide (env.channel = "edge") && decide (env.authEnvironment = "development") &&
      decide (env.kubeContext = "docker-desktop") && localOriginFormat env.consoleOrigin

def environmentNotEnabled : SqlError :=
  exception "local development installation environment is not enabled" "42501" "StepUpRequired"

/-! ## Writes -/

/-- `INSERT INTO console_operation.operation`. -/
def Db.insertOperation (db : Db) (o : Operation) : Except SqlError Db := do
  let t ← db.operations.insert o
  return { db with operations := t }

/-- `UPDATE console_operation.operation ... WHERE operation_id = ... RETURNING *`,
with `o` the returned row. -/
def Db.putOperation (db : Db) (o : Operation) : Except SqlError Db := do
  let t ← db.operations.put o
  return { db with operations := t }

def newOutbox (s : Statement) (operationId : Uuid) (eventType : EventType) (payload : Jsonb)
    (payloadDigest : String) : Outbox where
  outboxId := s.outboxId
  operationId := operationId
  eventType := eventType
  payload := payload
  payloadDigest := payloadDigest
  createdAt := s.now
  claimedAt := none
  claimOwner := none
  claimEpoch := 0
  leaseExpiresAt := none
  deliveredAt := none
  attemptCount := 0

/-- `INSERT INTO console_operation.outbox`. -/
def Db.insertOutbox (db : Db) (r : Outbox) : Except SqlError Db := do
  let t ← db.outbox.insert r
  return { db with outbox := t }

/-- `UPDATE console_operation.outbox ... WHERE outbox_id = ...`, with `r` the row
afterwards. -/
def Db.putOutbox (db : Db) (r : Outbox) : Except SqlError Db := do
  let t ← db.outbox.put r
  return { db with outbox := t }

/-- `INSERT INTO console_operation.approval`. -/
def Db.insertApproval (db : Db) (a : Approval) : Except SqlError Db := do
  let t ← db.approvals.insert a
  return { db with approvals := t }

/-- `INSERT INTO console_operation.verification_receipt`. -/
def Db.insertVerification (db : Db) (v : VerificationReceipt) : Except SqlError Db := do
  let t ← db.verifications.insert v
  return { db with verifications := t }

/-- `INSERT INTO console_operation.execution_receipt`. -/
def Db.insertReceipt (db : Db) (x : ExecutionReceipt) : Except SqlError Db := do
  let t ← db.receipts.insert x
  return { db with receipts := t }

/-- `INSERT INTO console_extension.revocation ... ON CONFLICT (image_ref) DO
NOTHING`, with whether a row was inserted. -/
def Db.insertRevocation (db : Db) (v : Revocation) : Except SqlError (Db × Bool) := do
  if revocationSchema.check v = false then
    .error (.check revocationSchema.name)
  else if (db.revocations.lookup (some v.imageRef)).isSome then
    return (db, false)
  else
    let t ← db.revocations.insert v
    return ({ db with revocations := t }, true)

/-- `UPDATE browser_session SET last_seen_at = statement_timestamp()`. -/
def Db.touchSession (db : Db) (s : Statement) (session : BrowserSession) : Except SqlError Db := do
  let t ← db.identity.sessions.put { session with lastSeenAt := s.now }
  return { db with identity := { db.identity with sessions := t } }

/-! ## The audit ledger -/

/-- The arguments of `append_event_internal`. -/
structure EventArgs where
  operationId : Option Uuid
  correlationId : Option String
  actorRef : Option String
  action : String
  targetRef : Option String
  outcome : Outcome
  reason : Option String
  evidence : Jsonb

def jsonText (x : Option String) : Jsonb := .ofNull (x.map .ofText)

def jsonUuid (x : Option Uuid) : Jsonb := .ofNull (x.map fun u => .ofText u.text)

def jsonInt (x : Option Int) : Jsonb := .ofNull (x.map .ofInt)

def jsonBool (x : Option Bool) : Jsonb := .ofNull (x.map .ofBool)

def jsonTime (x : Option Timestamp) : Jsonb := .ofNull (x.map fun t => .ofText (Timestamp.text t))

@[simp] theorem asText_jsonText (x : Option String) : (jsonText x).tree.asText = x := by
  cases x <;> rfl

@[simp] theorem asText_jsonInt (x : Option Int) : (jsonInt x).tree.asText = x.map decimal := by
  cases x with
  | none => rfl
  | some n => exact Jsonb.asText_ofInt n

def chainInput (s : Statement) (a : EventArgs) (previousHash : Option String) : Jsonb :=
  .object [
    ("eventId", jsonUuid (some s.eventId)),
    ("operationId", jsonUuid a.operationId),
    ("occurredAt", jsonTime (some s.now)),
    ("correlationId", jsonText a.correlationId),
    ("actorRef", jsonText a.actorRef),
    ("action", jsonText (some a.action)),
    ("targetRef", jsonText a.targetRef),
    ("outcome", jsonText (some a.outcome.text)),
    ("reason", jsonText a.reason),
    ("evidence", a.evidence),
    ("previousHash", jsonText previousHash)]

/-- The row `append_event_internal` inserts.  The advisory lock of the function
makes the sequence follow the order of the commits, so the last row is the one
with the largest sequence number. -/
def newEvent (D : Digest) (s : Statement) (db : Db) (a : EventArgs) : Except SqlError Event := do
  let last := db.events.rows.getLast?
  let previousHash := last.map (·.eventHash)
  let correlationId ← notNull a.correlationId "correlation_id"
  let actorRef ← notNull a.actorRef "actor_ref"
  let targetRef ← notNull a.targetRef "target_ref"
  return {
    sequenceId := (last.map (·.sequenceId)).getD 0 + 1 + s.sequenceGap
    eventId := s.eventId
    operationId := a.operationId
    occurredAt := s.now
    correlationId := correlationId
    actorRef := actorRef
    action := a.action
    targetRef := targetRef
    outcome := a.outcome
    reason := coalesce a.reason ""
    evidence := a.evidence
    previousHash := previousHash
    eventHash := D.hash (chainInput s a previousHash) }

/-- `console_audit.append_event_internal`. -/
def appendEvent (D : Digest) (s : Statement) (db : Db) (a : EventArgs) : Except SqlError Db := do
  let e ← newEvent D s db a
  let t ← db.events.insert e
  return { db with events := t }

end Authority
