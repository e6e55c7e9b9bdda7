import OpenSphere.Domain.OperationState
import OpenSphere.Sql.Jsonb
import OpenSphere.Sql.Table

/-!
# The authority schema

The tables of `migrations/` that the operation functions read and write, as
they stand after the last migration.  A column with a closed set of values is
an enumeration, a nullable column is an `Option`, and the CHECK and UNIQUE
constraints are part of the table types.  The range of an integer column is
checked together with the constraints of its row.

The tables of `console_identity` are grouped in `Identity`.  Operations only
read them, apart from the time a session was last seen.
-/

open Sql

namespace Authority

export Domain (OperationState)

/-! ## Closed sets of values -/

/-- `operation.risk`. -/
inductive Risk where
  | r0
  | r1
  | r2
  | r3
deriving DecidableEq, Repr

def Risk.text : Risk → String
  | r0 => "R0"
  | r1 => "R1"
  | r2 => "R2"
  | r3 => "R3"

def Risk.ofText (s : String) : Option Risk := [r0, r1, r2, r3].find? fun x => x.text == s

theorem Risk.text_ofText {t : String} {r : Risk} (h : Risk.ofText t = some r) : t = r.text := by
  have hfound := List.find?_some h
  exact (beq_iff_eq.mp hfound).symm

inductive Aal where
  | aal1
  | aal2
deriving DecidableEq, Repr

def Aal.text : Aal → String
  | aal1 => "aal1"
  | aal2 => "aal2"

/-- `outbox.event_type`: the events the functions write. -/
inductive EventType where
  | operationAwaitingApproval
  | operationReadyForDispatch
  | extensionInstallObservationRequested
  | extensionRemovalObservationRequested
deriving DecidableEq, Repr

def EventType.text : EventType → String
  | operationAwaitingApproval => "OperationAwaitingApproval"
  | operationReadyForDispatch => "OperationReadyForDispatch"
  | extensionInstallObservationRequested => "ExtensionInstallObservationRequested"
  | extensionRemovalObservationRequested => "ExtensionRemovalObservationRequested"

/-- `execution_receipt.phase`. -/
inductive Phase where
  | reconciling
  | applied
  | verified
  | failed
  | unknown
deriving DecidableEq, Repr

/-- `event.outcome`. -/
inductive Outcome where
  | accepted
  | rejected
  | succeeded
  | failed
  | unknown
deriving DecidableEq, Repr

def Outcome.text : Outcome → String
  | accepted => "accepted"
  | rejected => "rejected"
  | succeeded => "succeeded"
  | failed => "failed"
  | unknown => "unknown"

/-! ## Formats -/

/-- `^sha256:[0-9a-f]{64}$`. -/
def digestFormat : String → Bool :=
  Pattern.full (.seq [.text "sha256:", .times hexLower 64])

/-- `^ghcr\.io/opensphere-platform/[a-z0-9][a-z0-9._-]*@sha256:[0-9a-f]{64}$`. -/
def imageFormat : String → Bool :=
  Pattern.full (.seq [.text "ghcr.io/opensphere-platform/",
    .times (fun c => lower c || digit c) 1,
    .many (orOneOf (fun c => lower c || digit c) ['.', '_', '-']),
    .text "@sha256:", .times hexLower 64])

/-- `^ghcr[.]io/opensphere-platform/opensphere-shell-cluster-manager@sha256:[a-f0-9]{64}$`. -/
def clusterManagerFormat : String → Bool :=
  Pattern.full (.seq [
    .text "ghcr.io/opensphere-platform/opensphere-shell-cluster-manager@sha256:",
    .times hexLower 64])

/-- `^[0-9a-f]{40,64}$`. -/
def revisionFormat : String → Bool := Pattern.full (.repeated hexLower 40 (some 64))

/-- `^[a-z][a-z0-9.-]{2,127}$`. -/
def actionIdFormat : String → Bool :=
  Pattern.full (.seq [.times lower 1,
    .repeated (orOneOf (fun c => lower c || digit c) ['.', '-']) 2 (some 127)])

/-- `^[0-9]+\.[0-9]+$`. -/
def actionVersionFormat : String → Bool :=
  Pattern.full (.seq [.many1 digit, .text ".", .many1 digit])

/-- `^[a-z][a-z0-9_.:-]{2,127}$`. -/
def permissionFormat : String → Bool :=
  Pattern.full (.seq [.times lower 1,
    .repeated (orOneOf (fun c => lower c || digit c) ['_', '.', ':', '-']) 2 (some 127)])

/-- `^https://(localhost|127[.]0[.]0[.]1|\[::1\])(:[0-9]{1,5})?$`. -/
def localOriginFormat : String → Bool :=
  Pattern.full (.seq [.text "https://",
    .alt [.text "localhost", .text "127.0.0.1", .text "[::1]"],
    .opt (.seq [.text ":", .repeated digit 1 (some 5)])])

/-- `n BETWEEN lo AND hi`. -/
def between (n lo hi : Int) : Bool := decide (lo ≤ n ∧ n ≤ hi)

/-- A non-negative `bigint`. -/
def counter (n : Int) : Bool := between n 0 maxBigint

/-! ## Identity -/

/-- `console_identity.subject_authority`. -/
structure SubjectAuthority where
  subjectId : Uuid
  personRef : Uuid
  permissionRevision : Int
  revokeEpoch : Int
deriving DecidableEq

/-- `console_identity.browser_session`. -/
structure BrowserSession where
  sessionId : Uuid
  subjectId : Uuid
  aal : Aal
  permissionRevision : Int
  revokeEpoch : Int
  lastSeenAt : Timestamp
  expiresAt : Timestamp
  revokedAt : Option Timestamp
  lastReauthenticatedAt : Option Timestamp
deriving DecidableEq

/-- `console_identity.permission_grant`. -/
structure PermissionGrant where
  subjectId : Uuid
  permission : String
  grantRevision : Int
  revokedAt : Option Timestamp
deriving DecidableEq

/-- `console_operation.module_installation_environment`. -/
structure ModuleInstallationEnvironment where
  channel : String
  authEnvironment : String
  kubeContext : String
  consoleOrigin : String
deriving DecidableEq

def subjectAuthoritySchema : Schema SubjectAuthority Uuid where
  name := "console_identity.subject_authority"
  key := (·.subjectId)
  check a := counter a.permissionRevision && counter a.revokeEpoch
  clash _ _ := false

def browserSessionSchema : Schema BrowserSession Uuid where
  name := "console_identity.browser_session"
  key := (·.sessionId)
  check s := counter s.permissionRevision && counter s.revokeEpoch
  clash _ _ := false

def permissionGrantSchema : Schema PermissionGrant (Uuid × String × Int) where
  name := "console_identity.permission_grant"
  key g := (g.subjectId, g.permission, g.grantRevision)
  check g := permissionFormat g.permission && between g.grantRevision 1 maxBigint
  clash _ _ := false

/-- What the operation functions read of a person, a session and the site. -/
structure Identity where
  subjects : Table subjectAuthoritySchema
  sessions : Table browserSessionSchema
  grants : Table permissionGrantSchema
  /-- The singleton row, once the installation recorded it. -/
  environment : Option ModuleInstallationEnvironment

/-! ## Operations -/

/-- `console_operation.operation`. -/
structure Operation where
  operationId : Uuid
  actionId : String
  actionVersion : String
  actorRef : Uuid
  targetRef : String
  requiredPermission : String
  payloadDigest : String
  requestDigest : String
  risk : Risk
  reason : String
  aal : Aal
  permissionRevision : Int
  planRevision : String
  approvalRequired : Bool
  approvalRevision : Option String
  idempotencyKey : String
  correlationId : String
  sourceRevision : Option String
  ownerRef : Option String
  executionPlan : Option Jsonb
  state : OperationState
  stateVersion : Int
  expectedPostcondition : Option Jsonb
  observedPostcondition : Option Jsonb
  error : Option Jsonb
  createdAt : Timestamp
  updatedAt : Timestamp
  localDevelopmentModuleInstall : Bool
  declarationBinding : Option Jsonb
  declarationMergeRevision : Option String
deriving DecidableEq

/-- The constraint `operation_module_aal`.  A NULL owner makes the last
alternative NULL, and a CHECK rejects only false. -/
def operationModuleAal (o : Operation) : Bool :=
  Cond.any [
    some (decide (o.risk ≠ .r2 ∧ o.risk ≠ .r3)),
    some (decide (o.aal = .aal2)),
    Cond.all [
      some o.localDevelopmentModuleInstall,
      some (decide (o.risk = .r2)),
      some (decide (o.actionId = "console.extension.install")),
      some (decide (o.requiredPermission = "console.extension.install")),
      eq o.ownerRef (some "C_EXT"),
      some (clusterManagerFormat o.targetRef)]] != some false

def operationSchema : Schema Operation Uuid where
  name := "console_operation.operation"
  key := (·.operationId)
  check o :=
    actionIdFormat o.actionId && actionVersionFormat o.actionVersion &&
    between (textLength o.targetRef) 1 512 && permissionFormat o.requiredPermission &&
    digestFormat o.payloadDigest && digestFormat o.requestDigest &&
    counter o.permissionRevision && between (textLength o.planRevision) 1 128 &&
    between (textLength o.idempotencyKey) 8 256 &&
    between (textLength o.correlationId) 8 128 && counter o.stateVersion &&
    (decide (o.risk = .r0) || between (textLength (btrim o.reason)) 3 500) &&
    operationModuleAal o && decide (o.createdAt ≤ o.updatedAt) &&
    o.declarationMergeRevision.all revisionFormat
  clash a b := decide (a.actorRef = b.actorRef ∧ a.idempotencyKey = b.idempotencyKey)

/-- `console_operation.outbox`. -/
structure Outbox where
  outboxId : Int
  operationId : Uuid
  eventType : EventType
  payload : Jsonb
  payloadDigest : String
  createdAt : Timestamp
  claimedAt : Option Timestamp
  claimOwner : Option Uuid
  claimEpoch : Int
  leaseExpiresAt : Option Timestamp
  deliveredAt : Option Timestamp
  attemptCount : Int
deriving DecidableEq

def outboxSchema : Schema Outbox Int where
  name := "console_operation.outbox"
  key := (·.outboxId)
  check r := digestFormat r.payloadDigest && counter r.claimEpoch &&
    between r.attemptCount 0 maxInteger
  clash a b := decide (a.operationId = b.operationId ∧ a.eventType = b.eventType ∧
    a.payloadDigest = b.payloadDigest)

/-- `console_operation.approval`. -/
structure Approval where
  approvalId : Uuid
  operationId : Uuid
  actorRef : Uuid
  reason : String
  approvalRevision : String
  requestDigest : String
  permissionRevision : Int
  revokeEpoch : Int
  aal : Aal
  expectedStateVersion : Int
  idempotencyKey : String
  correlationId : String
  createdAt : Timestamp
  localDevelopmentModuleInstall : Bool
deriving DecidableEq

def approvalSchema : Schema Approval Uuid where
  name := "console_operation.approval"
  key := (·.approvalId)
  check a :=
    between (textLength (btrim a.reason)) 3 500 &&
    between (textLength a.approvalRevision) 1 128 && digestFormat a.requestDigest &&
    counter a.permissionRevision && counter a.revokeEpoch && counter a.expectedStateVersion &&
    between (textLength a.idempotencyKey) 8 256 && between (textLength a.correlationId) 8 128 &&
    (decide (a.aal = .aal2) || a.localDevelopmentModuleInstall)
  clash a b := decide ((a.actorRef = b.actorRef ∧ a.idempotencyKey = b.idempotencyKey) ∨
    (a.operationId = b.operationId ∧ a.actorRef = b.actorRef))

/-- `console_operation.verification_receipt`. -/
structure VerificationReceipt where
  verificationId : Uuid
  operationId : Uuid
  actorRef : Uuid
  requestDigest : String
  permissionRevision : Int
  revokeEpoch : Int
  expectedStateVersion : Int
  authority : String
  observationDigest : String
  observation : Jsonb
  idempotencyKey : String
  correlationId : String
  createdAt : Timestamp
deriving DecidableEq

def verificationReceiptSchema : Schema VerificationReceipt Uuid where
  name := "console_operation.verification_receipt"
  key := (·.verificationId)
  check v :=
    digestFormat v.requestDigest && counter v.permissionRevision && counter v.revokeEpoch &&
    counter v.expectedStateVersion &&
    ["ConsoleExtensionRevocation", "KubernetesUIPluginRegistration"].contains v.authority &&
    digestFormat v.observationDigest && between (textLength v.idempotencyKey) 8 256 &&
    between (textLength v.correlationId) 8 128
  clash a b := decide (a.operationId = b.operationId ∨
    (a.actorRef = b.actorRef ∧ a.idempotencyKey = b.idempotencyKey))

/-- `console_operation.execution_receipt`. -/
structure ExecutionReceipt where
  executionReceiptId : Uuid
  operationId : Uuid
  ownerRef : String
  workerId : Uuid
  claimEpoch : Int
  phase : Phase
  evidence : Jsonb
  evidenceDigest : String
  createdAt : Timestamp
deriving DecidableEq

def executionReceiptSchema : Schema ExecutionReceipt Uuid where
  name := "console_operation.execution_receipt"
  key := (·.executionReceiptId)
  check x := between (textLength x.ownerRef) 1 128 && between x.claimEpoch 1 maxBigint &&
    digestFormat x.evidenceDigest
  clash a b := decide (a.operationId = b.operationId ∧ a.claimEpoch = b.claimEpoch ∧
    a.phase = b.phase)

/-- `console_extension.revocation`. -/
structure Revocation where
  imageRef : String
  replacementImageRef : Option String
  operationId : Uuid
  payloadDigest : String
  actionVersion : String
  claimEpoch : Int
  revokedAt : Timestamp
deriving DecidableEq

def revocationSchema : Schema Revocation String where
  name := "console_extension.revocation"
  key := (·.imageRef)
  check v := imageFormat v.imageRef && v.replacementImageRef.all imageFormat &&
    digestFormat v.payloadDigest && actionVersionFormat v.actionVersion &&
    between v.claimEpoch 1 maxBigint
  clash a b := decide (a.operationId = b.operationId)

/-- `console_audit.event`. -/
structure Event where
  sequenceId : Int
  eventId : Uuid
  operationId : Option Uuid
  occurredAt : Timestamp
  correlationId : String
  actorRef : String
  action : String
  targetRef : String
  outcome : Outcome
  reason : String
  evidence : Jsonb
  previousHash : Option String
  eventHash : String
deriving DecidableEq

def eventSchema : Schema Event Int where
  name := "console_audit.event"
  key := (·.sequenceId)
  check e := e.previousHash.all digestFormat && digestFormat e.eventHash
  clash a b := decide (a.eventId = b.eventId ∨ a.eventHash = b.eventHash)

/-! ## The database -/

/-- The tables the operation functions work on. -/
structure Db where
  identity : Identity
  operations : Table operationSchema
  outbox : Table outboxSchema
  approvals : Table approvalSchema
  verifications : Table verificationReceiptSchema
  receipts : Table executionReceiptSchema
  revocations : Table revocationSchema
  events : Table eventSchema

/-- The database after the migrations, before any operation. -/
def Db.fresh (identity : Identity) : Db where
  identity := identity
  operations := .empty
  outbox := .empty
  approvals := .empty
  verifications := .empty
  receipts := .empty
  revocations := .empty
  events := .empty

/-! ## What one call is given from outside -/

/-- The digest `'sha256:' || encode(sha256(convert_to(x::text, 'UTF8')), 'hex')`
of a document.  Nothing depends on the hash function but the form of its value. -/
structure Digest where
  hash : Jsonb → String
  format : ∀ x, digestFormat (hash x) = true

/-- What a call takes from its surroundings: the clock, the generated
identifiers, and the rows other transactions hold a lock on. -/
structure Statement where
  /-- `statement_timestamp()`. -/
  now : Timestamp
  /-- `gen_random_uuid()` for the row the call inserts. -/
  rowId : Uuid
  /-- `gen_random_uuid()` for the audit event. -/
  eventId : Uuid
  /-- The next value of the identity column of the outbox. -/
  outboxId : Int
  /-- How many values of the identity column of the audit ledger failed calls
  have used up. -/
  sequenceGap : Nat
  /-- Outbox rows locked by others, which `SKIP LOCKED` passes over. -/
  locked : List Int

end Authority
