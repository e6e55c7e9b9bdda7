import OpenSphere.Authority.Approve
import OpenSphere.Authority.Observe

/-!
# Verification

`console_operation.verify_extension_operation`.  A verifier closes an Applied
operation on the evidence its owner has stored: the revocation row and its
receipt, or the Applied and the Verified receipt of an installation or removal.
-/

open Sql

namespace Authority

/-- The arguments of `verify_extension_operation`. -/
structure VerifyArgs where
  sessionId : Option Uuid
  actorRef : Option Uuid
  expectedPermissionRevision : Option Int
  expectedRevokeEpoch : Option Int
  operationId : Option Uuid
  expectedStateVersion : Option Int
  idempotencyKey : Option String
  correlationId : Option String

def validateVerification (p : VerifyArgs) : Except SqlError Unit :=
  raiseIf (.any [
      lt p.expectedStateVersion (some 0),
      lengthOutside p.idempotencyKey 8 256,
      lengthOutside p.correlationId 8 128])
    (exception "invalid verification request" "22023" "ValidationFailed")

def verificationDocument (p : VerifyArgs) : Jsonb :=
  .object [
    ("operationId", jsonUuid p.operationId),
    ("expectedStateVersion", jsonInt p.expectedStateVersion)]

/-- `SELECT * INTO v_verification ... WHERE actor_ref = ... AND idempotency_key = ...`. -/
def Db.verificationOfKey (db : Db) (actorRef : Option Uuid) (idempotencyKey : Option String) :
    Option VerificationReceipt :=
  db.verifications.rows.find? fun v =>
    (eq (some v.actorRef) actorRef).and (eq (some v.idempotencyKey) idempotencyKey) == some true

structure Observation where
  document : Jsonb
  applied : ExecutionReceipt

def observationMissing (message : String) : SqlError :=
  exception message "55000" "ObservationMissing"

def observationMismatch (message : String) : SqlError :=
  exception message "55000" "ObservationMismatch"

/-- `SELECT * INTO v_revocation ... WHERE operation_id = ...`. -/
def Db.revocationOf (db : Db) (operationId : Uuid) : Option Revocation :=
  db.revocations.rows.find? fun v => decide (v.operationId = operationId)

def revocationReceiptMismatch (o : Operation) (v : Revocation) (x : ExecutionReceipt) : Cond :=
  let applied := x.evidence.getText
  .any [
    ne (applied "authority") (some "ConsoleExtensionRevocation"),
    ne (applied "imageRef") (some o.targetRef),
    ne (applied "operationId") (some o.operationId.text),
    ne (applied "claimEpoch") (some (decimal v.claimEpoch)),
    ne (applied "postcondition") (some "RevocationPresent")]

def observeRevocation (db : Db) (o : Operation) : Except SqlError Observation := do
  let v ← orRaise (db.revocationOf o.operationId)
    (observationMissing "Extension revocation observation is missing")
  raiseIf (.any [
      some (decide (v.imageRef ≠ o.targetRef)),
      some (decide (v.payloadDigest ≠ o.payloadDigest)),
      some (decide (v.actionVersion ≠ o.actionVersion))])
    (observationMismatch "Extension revocation observation does not match the operation")
  let x ← orRaise (db.receiptOf o.operationId .applied fun x => decide (x.claimEpoch = v.claimEpoch))
    (observationMissing "Applied owner receipt is missing")
  raiseIf (revocationReceiptMismatch o v x)
    (observationMismatch "Applied owner receipt does not match the observed revocation")
  return {
    document := .object [
      ("schemaVersion", .ofText "1.0"),
      ("authority", .ofText "ConsoleExtensionRevocation"),
      ("imageRef", .ofText v.imageRef),
      ("operationId", .ofText v.operationId.text),
      ("payloadDigest", .ofText v.payloadDigest),
      ("actionVersion", .ofText v.actionVersion),
      ("claimEpoch", .ofInt v.claimEpoch),
      ("revokedAt", jsonTime (some v.revokedAt)),
      ("appliedReceiptDigest", .ofText x.evidenceDigest),
      ("postcondition", .ofText "RevocationPresent")]
    applied := x }

def installReceiptMismatch (o : Operation) (x y : ExecutionReceipt) : Cond :=
  let applied := x.evidence.getText
  let observed := y.evidence.getText
  let part (k : String) := fieldText (y.evidence.get k)
  .any [
    ne (applied "authority") (some "KubernetesUIPluginRegistration"),
    ne (applied "operationId") (some o.operationId.text),
    ne (applied "image") (some o.targetRef),
    ne (applied "postcondition") (some "RegistrationPresent"),
    ne (observed "authority") (some "KubernetesUIPluginRegistration"),
    ne (observed "operationId") (some o.operationId.text),
    ne (observed "image") (some o.targetRef),
    ne (observed "appliedReceiptDigest") (some x.evidenceDigest),
    ne (observed "postcondition") (some "InstallReady"),
    ne (part "registration" "name") (applied "registrationName"),
    ne (part "registration" "uid") (applied "registrationUid"),
    ne (part "package" "resourceVersion") (applied "packageResourceVersion"),
    ne (part "package" "generation") (applied "packageGeneration"),
    ne (part "package" "digest") (some (splitPart o.targetRef '@' 2)),
    ne (part "package" "manifestDigest") (applied "manifestDigest"),
    ne (part "workload" "phase") (some "Ready"),
    ne (part "revalidation" "phase") (some "Passed")]

def observeInstall (db : Db) (o : Operation) : Except SqlError Observation := do
  raiseIf (some (db.isRevoked (some o.targetRef)))
    (exception "exact Extension image digest is revoked before verification" "55000"
      "ImageRevoked")
  let x ← orRaise (db.receiptOf o.operationId .applied fun _ => true)
    (observationMissing "Applied install receipt is missing")
  let y ← orRaise (db.receiptOf o.operationId .verified fun _ => true)
    (observationMissing "ready install observation is missing")
  raiseIf (installReceiptMismatch o x y)
    (observationMismatch "ready install observation does not match the Applied receipt")
  return { document := withReceiptDigest y.evidence y.evidenceDigest, applied := x }

def removalReceiptMismatch (o : Operation) (x y : ExecutionReceipt) : Cond :=
  let applied := x.evidence.getText
  let observed := y.evidence.getText
  let registration := fieldText (y.evidence.get "registration")
  .any [
    ne (applied "authority") (some "KubernetesUIPluginRegistration"),
    ne (applied "operationId") (some o.operationId.text),
    ne (applied "descriptorId") (some o.targetRef),
    ne (applied "postcondition") (some "RemovalRequested"),
    ne (observed "authority") (some "KubernetesUIPluginRegistration"),
    ne (observed "operationId") (some o.operationId.text),
    ne (observed "descriptorId") (some o.targetRef),
    ne (observed "appliedReceiptDigest") (some x.evidenceDigest),
    ne (observed "postcondition") (some "RegistrationAbsent"),
    ne (registration "name") (applied "registrationName"),
    ne (registration "uid") (applied "registrationUid"),
    ne (registration "phase") (some "Absent")]

def observeRemoval (db : Db) (o : Operation) : Except SqlError Observation := do
  let x ← orRaise (db.receiptOf o.operationId .applied fun _ => true)
    (observationMissing "Applied removal receipt is missing")
  let y ← orRaise (db.receiptOf o.operationId .verified fun _ => true)
    (observationMissing "absent Registration observation is missing")
  raiseIf (removalReceiptMismatch o x y)
    (observationMismatch
      "absent Registration observation does not match the Applied removal receipt")
  return { document := withReceiptDigest y.evidence y.evidenceDigest, applied := x }

def observe (db : Db) (o : Operation) : Except SqlError Observation :=
  if o.actionId = "console.extension.revocation.create" then observeRevocation db o
  else if o.actionId = "console.extension.install" then observeInstall db o
  else observeRemoval db o

/-- The operation is Applied, at the expected version and a typed action. -/
def requireVerifiable (o : Operation) (p : VerifyArgs) : Except SqlError Unit := do
  raiseIf (ne (some o.stateVersion) p.expectedStateVersion)
    (exception "operation state version changed" "40001" "StaleOperationVersion")
  raiseIf (some (decide (o.state ≠ .applied)))
    (exception "operation is not ready for verification" "55000" "InvalidOperationState")
  raiseIf (.any [
      ne o.ownerRef (some "C_EXT"),
      notIn (some o.actionId) extensionActions,
      some (decide (o.actionVersion ≠ "1.0"))])
    (exception "verification action is outside the typed Extension boundary" "42501"
      "ObservationMismatch")

def newVerification (D : Digest) (s : Statement) (p : VerifyArgs) (o : Operation)
    (authority : SubjectAuthority) (observation : Jsonb) : Except SqlError VerificationReceipt := do
  let actorRef ← notNull p.actorRef "actor_ref"
  let expectedStateVersion ← notNull p.expectedStateVersion "expected_state_version"
  let source ← notNull (observation.getText "authority") "authority"
  let idempotencyKey ← notNull p.idempotencyKey "idempotency_key"
  let correlationId ← notNull p.correlationId "correlation_id"
  return {
    verificationId := s.rowId
    operationId := o.operationId
    actorRef
    requestDigest := D.hash (verificationDocument p)
    permissionRevision := authority.permissionRevision
    revokeEpoch := authority.revokeEpoch
    expectedStateVersion
    authority := source
    observationDigest := D.hash observation
    observation, idempotencyKey, correlationId
    createdAt := s.now }

def verifyEvent (o : Operation) (v : VerificationReceipt) (x : ExecutionReceipt) : EventArgs where
  operationId := some o.operationId
  correlationId := some v.correlationId
  actorRef := some v.actorRef.text
  action := "console.operation.verify"
  targetRef := some o.targetRef
  outcome := .succeeded
  reason := some ""
  evidence := .object [
    ("verificationId", .ofText v.verificationId.text),
    ("authority", .ofText v.authority),
    ("requestDigest", .ofText v.requestDigest),
    ("observationDigest", .ofText v.observationDigest),
    ("appliedReceiptDigest", .ofText x.evidenceDigest),
    ("permissionRevision", .ofInt v.permissionRevision),
    ("revokeEpoch", .ofInt v.revokeEpoch),
    ("stateVersion", .ofInt o.stateVersion)]

def storeVerification (D : Digest) (s : Statement) (p : VerifyArgs) (session : BrowserSession)
    (authority : SubjectAuthority) (db : Db) : Except SqlError (Db × Accepted) := do
  let o ← orRaise (db.operations.lookup p.operationId) notFound
  requireVerifiable o p
  let obs ← observe db o
  let v ← newVerification D s p o authority obs.document
  let db ← db.insertVerification v
  let o := o.verify s obs.document
  let db ← db.putOperation o
  let db ← appendEvent D s db (verifyEvent o v obs.applied)
  let db ← db.touchSession s session
  return (db, ⟨o, false⟩)

def verifier (s : Statement) (p : VerifyArgs) (db : Db) :
    Except SqlError (BrowserSession × SubjectAuthority) := do
  validateVerification p
  let session ← activeSession s db p.sessionId p.actorRef
  let authority ← currentAuthority db session p.actorRef p.expectedPermissionRevision
    p.expectedRevokeEpoch
  requirePermission db p.actorRef (some "console.operation.verify") authority.permissionRevision
  return (session, authority)

/-- `console_operation.verify_extension_operation`. -/
def verifyExtensionOperation (D : Digest) (s : Statement) (p : VerifyArgs) (db : Db) :
    Except SqlError (Db × Option Accepted) := do
  let (session, authority) ← verifier s p db
  match db.verificationOfKey p.actorRef p.idempotencyKey with
  | some v => do
      raiseIf (ne (some v.requestDigest) (some (D.hash (verificationDocument p))))
        (exception "idempotency key was already used for a different verification" "23505"
          "IdempotencyMismatch")
      -- a foreign key of the receipt makes the operation exist
      return (db, (db.operations.lookup (some v.operationId)).map fun o => ⟨o, true⟩)
  | none => do
      let (db, v) ← storeVerification D s p session authority db
      return (db, some v)

end Authority
