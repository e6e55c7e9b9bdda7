import OpenSphere.Authority.Apply

/-!
# Observation and failure

`console_extension.record_install_observation`, `record_remove_observation` and
`record_execution_failure`.  An observation is a document of the worker.  Its
guard is a single chain of `OR`: parts of it go through `COALESCE` and reject a
missing key, the others compare the key itself with `<>` and are NULL without
it.  `invalidInstallObservation` and `invalidRemovalObservation` keep the two
kinds apart exactly as the source does.

A failure closes the dispatch row and leaves the operation Failed or Unknown.
-/

open Sql

namespace Authority

/-- `^[1-9][0-9]{0,17}$`. -/
def generationFormat : String → Bool :=
  Pattern.full (.seq [.times (fun c => digit c && c != '0') 1, .repeated digit 0 (some 17)])

structure ObserveArgs extends Bound where
  appliedReceiptDigest : Option String
  observation : Option Jsonb

def ExecutionReceipt.isOf (x : ExecutionReceipt) (operationId : Uuid) (phase : Phase)
    (also : ExecutionReceipt → Bool) : Bool :=
  decide (x.operationId = operationId) && decide (x.ownerRef = "C_EXT") &&
    decide (x.phase = phase) && also x

/-- `SELECT * INTO ... FROM execution_receipt WHERE ...`. -/
def Db.receiptOf (db : Db) (operationId : Uuid) (phase : Phase)
    (also : ExecutionReceipt → Bool) : Option ExecutionReceipt :=
  db.receipts.rows.find? fun x => x.isOf operationId phase also

/-- `evidence_digest = p_applied_receipt_digest`. -/
def hasDigest (digest : Option String) (x : ExecutionReceipt) : Bool :=
  eq (some x.evidenceDigest) digest == some true

/-- The Verified receipt and the delivered row. -/
def settleObservation (D : Digest) (s : Statement) (c : ClaimRef) (r : Outbox) (o : Operation)
    (evidence : Jsonb) (db : Db) : Except SqlError Db := do
  let x ← newReceipt D s c o .verified evidence
  let db ← db.insertReceipt x
  db.putOutbox (r.deliver s)

def observeEvent (p : ObserveArgs) (o : Operation) (action evidenceDigest postcondition : String) :
    EventArgs where
  operationId := some o.operationId
  correlationId := some o.correlationId
  actorRef := p.workerId.map (·.text)
  action := action
  targetRef := p.targetRef
  outcome := .succeeded
  reason := some ""
  evidence := .object [
    ("ownerRef", .ofText "C_EXT"),
    ("claimEpoch", jsonInt p.claimEpoch),
    ("evidenceDigest", .ofText evidenceDigest),
    ("postcondition", .ofText postcondition)]

/-! ## Installation -/

def notObjectOf (x : Option Jsonb) (keys : Int) : Cond :=
  .or (ne (typeOf x) (some "object")) (ne (some (Jsonb.keyCount x)) (some keys))

def invalidInstallObservation (p : ObserveArgs) : Cond :=
  let package := fieldText (field p.observation "package")
  let registration := fieldText (field p.observation "registration")
  let workload := fieldText (field p.observation "workload")
  let verification := fieldText (field p.observation "verification")
  let serving := fieldText (field p.observation "serving")
  let revalidation := fieldText (field p.observation "revalidation")
  .any [
    isNull p.observation,
    notObjectOf p.observation 6,
    notObjectOf (field p.observation "package") 8,
    notObjectOf (field p.observation "registration") 7,
    notObjectOf (field p.observation "workload") 1,
    notObjectOf (field p.observation "verification") 4,
    notObjectOf (field p.observation "serving") 3,
    notObjectOf (field p.observation "revalidation") 1,
    malformed digestFormat p.appliedReceiptDigest,
    malformed nameFormat (package "name"),
    malformed resourceVersionFormat (package "resourceVersion"),
    malformed generationFormat (package "generation"),
    malformed digestFormat (package "digest"),
    malformed digestFormat (package "manifestDigest"),
    malformed commitFormat (package "sourceRevision"),
    malformed versionFormat (package "compatibilityVersion"),
    lengthOutside (package "keyId") 1 256,
    malformed nameFormat (registration "name"),
    lengthOutside (registration "uid") 1 128,
    malformed resourceVersionFormat (registration "resourceVersion"),
    malformed generationFormat (registration "generation"),
    malformed generationFormat (registration "observedGeneration"),
    .not (.or
      (.and (eq (registration "desiredState") (some "Installed"))
        (eq (registration "phase") (some "Ready")))
      (.and (eq (registration "desiredState") (some "Enabled"))
        (eq (registration "phase") (some "Activated")))),
    lt ((registration "observedGeneration").bind castBigint)
      ((registration "generation").bind castBigint),
    ne (workload "phase") (some "Ready"),
    ne (verification "manifest") (some "Verified"),
    ne (verification "signature") (some "Verified"),
    ne (verification "entryDigest") (some "Verified"),
    ne (verification "permissions") (some "Approved"),
    ne (serving "phase") (some "Current"),
    malformed digestFormat (serving "digest"),
    malformed digestFormat (serving "manifestDigest"),
    ne (revalidation "phase") (some "Passed")]

def installObservationMismatch (p : ObserveArgs) (o : Operation) (x : ExecutionReceipt) : Cond :=
  let applied := x.evidence.getText
  let package := fieldText (field p.observation "package")
  let registration := fieldText (field p.observation "registration")
  let serving := fieldText (field p.observation "serving")
  .any [
    ne (applied "authority") (some "KubernetesUIPluginRegistration"),
    ne (applied "postcondition") (some "RegistrationPresent"),
    ne (applied "operationId") (some o.operationId.text),
    ne (applied "image") p.targetRef,
    ne (applied "registrationName") (registration "name"),
    ne (applied "registrationUid") (registration "uid"),
    ne (applied "packageResourceVersion") (package "resourceVersion"),
    ne (applied "packageGeneration") (package "generation"),
    ne (applied "manifestDigest") (package "manifestDigest"),
    ne (applied "sourceRevision") (package "sourceRevision"),
    ne (applied "compatibilityVersion") (package "compatibilityVersion"),
    ne (applied "keyId") (package "keyId"),
    ne (fieldText o.executionPlan "descriptorId") ((package "name").map fun n => "extension." ++ n),
    ne (p.targetRef.map fun t => splitPart t '@' 2) (package "digest"),
    ne (serving "digest") (package "digest"),
    ne (serving "manifestDigest") (package "manifestDigest")]

def installObservationEvidence (p : ObserveArgs) (o : Operation) : Jsonb :=
  .object [
    ("schemaVersion", .ofText "1.0"),
    ("authority", .ofText "KubernetesUIPluginRegistration"),
    ("operationId", .ofText o.operationId.text),
    ("image", jsonText p.targetRef),
    ("appliedReceiptDigest", jsonText p.appliedReceiptDigest),
    ("package", .ofNull (field p.observation "package")),
    ("registration", .ofNull (field p.observation "registration")),
    ("workload", .ofNull (field p.observation "workload")),
    ("verification", .ofNull (field p.observation "verification")),
    ("serving", .ofNull (field p.observation "serving")),
    ("revalidation", .ofNull (field p.observation "revalidation")),
    ("postcondition", .ofText "InstallReady")]

def withReceiptDigest (evidence : Jsonb) (digest : String) : Jsonb :=
  evidence.concat (.object [("ownerObservationReceiptDigest", .ofText digest)])

def Operation.verify (o : Operation) (s : Statement) (observation : Jsonb) : Operation :=
  { o with
    state := .verified
    stateVersion := o.stateVersion + 1
    observedPostcondition := some observation
    updatedAt := s.now }

/-- The operation after its observation.  A direct installation needs no further
verification; one that was approved or is bound to Git does. -/
def Operation.observe (o : Operation) (s : Statement) (evidence : Jsonb) (digest : String) :
    Operation :=
  if !o.approvalRequired && o.declarationBinding.isNone then
    o.verify s (withReceiptDigest evidence digest)
  else o

/-- `console_extension.record_install_observation`. -/
def recordInstallObservation (D : Digest) (s : Statement) (p : ObserveArgs) (db : Db) :
    Except SqlError (Db × Settled) := do
  raiseIf (invalidInstallObservation p)
    (exception "invalid Extension install observation" "22023" "ValidationFailed")
  let r ← ownerFence s db p.toClaimRef [.extensionInstallObservationRequested]
    "owner observation claim is stale or expired"
  let o ← boundOperation db p.toBound "console.extension.install" [.applied] (fun _ => [])
    "observation claim does not match an Applied Extension install"
  raiseIf (some (db.isRevoked p.targetRef))
    (exception "exact Extension image digest is revoked before ready observation" "55000"
      "ImageRevoked")
  let x ← orRaise (db.receiptOf o.operationId .applied (hasDigest p.appliedReceiptDigest))
    (exception "Applied install receipt is missing" "55000" "ObservationMissing")
  raiseIf (installObservationMismatch p o x)
    (exception "install observation does not match the Applied coordinates" "55000"
      "ObservationMismatch")
  let evidence := installObservationEvidence p o
  let db ← settleObservation D s p.toClaimRef r o evidence db
  -- the same row again when the operation is verified by a call of its own
  let o := o.observe s evidence (D.hash evidence)
  let db ← db.putOperation o
  let db ← appendEvent D s db (observeEvent p o "console.extension.install.observe"
    (D.hash evidence) "InstallReady")
  return (db, ⟨o, D.hash evidence, [("postcondition", .ofText "InstallReady")]⟩)

/-! ## Removal -/

def invalidRemovalObservation (p : ObserveArgs) : Cond :=
  let registration := fieldText (field p.observation "registration")
  .any [
    isNull p.observation,
    notObjectOf p.observation 1,
    notObjectOf (field p.observation "registration") 3,
    malformed digestFormat p.appliedReceiptDigest,
    malformed nameFormat (registration "name"),
    lengthOutside (registration "uid") 1 128,
    ne (registration "phase") (some "Absent")]

def removalObservationMismatch (p : ObserveArgs) (o : Operation) (x : ExecutionReceipt) : Cond :=
  let applied := x.evidence.getText
  let registration := fieldText (field p.observation "registration")
  .any [
    ne (applied "authority") (some "KubernetesUIPluginRegistration"),
    ne (applied "postcondition") (some "RemovalRequested"),
    ne (applied "operationId") (some o.operationId.text),
    ne (applied "descriptorId") p.targetRef,
    ne (applied "registrationName") (registration "name"),
    ne (applied "registrationUid") (registration "uid")]

def removalObservationEvidence (p : ObserveArgs) (o : Operation) : Jsonb :=
  .object [
    ("schemaVersion", .ofText "1.0"),
    ("authority", .ofText "KubernetesUIPluginRegistration"),
    ("operationId", .ofText o.operationId.text),
    ("descriptorId", jsonText p.targetRef),
    ("appliedReceiptDigest", jsonText p.appliedReceiptDigest),
    ("registration", .ofNull (field p.observation "registration")),
    ("postcondition", .ofText "RegistrationAbsent")]

/-- `console_extension.record_remove_observation`.  It leaves the operation
Applied. -/
def recordRemoveObservation (D : Digest) (s : Statement) (p : ObserveArgs) (db : Db) :
    Except SqlError (Db × Settled) := do
  raiseIf (invalidRemovalObservation p)
    (exception "invalid Extension removal observation" "22023" "ValidationFailed")
  let r ← ownerFence s db p.toClaimRef [.extensionRemovalObservationRequested]
    "owner removal observation claim is stale or expired"
  let o ← boundOperation db p.toBound "console.extension.remove" [.applied] (fun _ => [])
    "observation claim does not match an Applied Extension removal"
  let x ← orRaise (db.receiptOf o.operationId .applied (hasDigest p.appliedReceiptDigest))
    (exception "Applied removal receipt is missing" "55000" "ObservationMissing")
  raiseIf (removalObservationMismatch p o x)
    (exception "removal observation does not match the Applied coordinates" "55000"
      "ObservationMismatch")
  let evidence := removalObservationEvidence p o
  let db ← settleObservation D s p.toClaimRef r o evidence db
  let db ← appendEvent D s db (observeEvent p o "console.extension.remove.observe"
    (D.hash evidence) "RegistrationAbsent")
  return (db, ⟨o, D.hash evidence, [("postcondition", .ofText "RegistrationAbsent")]⟩)

/-! ## Failure -/

/-- `^[A-Z][A-Za-z0-9]{2,63}$`. -/
def errorCodeFormat : String → Bool :=
  Pattern.full (.seq [.times upper 1,
    .repeated (fun c => lower c || upper c || digit c) 2 (some 63)])

/-- The arguments of `record_execution_failure`. -/
structure FailureArgs extends ClaimRef where
  errorCode : Option String
  errorDigest : Option String
  sideEffect : Option String

/-- Whether the worker cannot tell if its effect happened. -/
def FailureArgs.uncertain (p : FailureArgs) : Bool := p.sideEffect == some "unknown"

/-- The phase of the receipt, which is also the name of the new state. -/
def FailureArgs.phase (p : FailureArgs) : Phase := if p.uncertain then .unknown else .failed

def FailureArgs.state (p : FailureArgs) : OperationState :=
  if p.uncertain then .unknown else .failed

def failureMismatch (p : FailureArgs) (r : Outbox) (o : Operation) : Cond :=
  .any [
    ne o.ownerRef (some "C_EXT"),
    notIn (some o.actionId) extensionActions,
    .not (.any [
      .and (some (decide (r.eventType = .operationReadyForDispatch)))
        (isIn (some o.state) [.submitted, .reconciling]),
      .all [some (decide (r.eventType = .extensionInstallObservationRequested)),
        some (decide (o.actionId = "console.extension.install")),
        some (decide (o.state = .applied))],
      .all [some (decide (r.eventType = .extensionRemovalObservationRequested)),
        some (decide (o.actionId = "console.extension.remove")),
        some (decide (o.state = .applied))]]),
    .and (some (decide (r.eventType ≠ .operationReadyForDispatch)))
      (eq p.sideEffect (some "none"))]

def failurePhase (r : Outbox) : String :=
  if r.eventType = .operationReadyForDispatch then "apply" else "observe"

def failureEvidence (p : FailureArgs) (r : Outbox) (o : Operation) : Jsonb :=
  .object [
    ("schemaVersion", .ofText "1.0"),
    ("ownerRef", .ofText "C_EXT"),
    ("operationId", .ofText o.operationId.text),
    ("claimEpoch", jsonInt p.claimEpoch),
    ("outboxId", .ofInt r.outboxId),
    ("attemptCount", .ofInt r.attemptCount),
    ("dispatchPhase", .ofText (failurePhase r)),
    ("errorCode", jsonText p.errorCode),
    ("errorDigest", jsonText p.errorDigest),
    ("sideEffect", jsonText p.sideEffect)]

def Operation.fail (o : Operation) (s : Statement) (p : FailureArgs) (r : Outbox) : Operation :=
  { o with
    state := p.state
    stateVersion := o.stateVersion + 1
    error := some (.object [
      ("code", jsonText p.errorCode),
      ("digest", jsonText p.errorDigest),
      ("sideEffect", jsonText p.sideEffect),
      ("dispatchPhase", .ofText (failurePhase r)),
      ("attemptCount", .ofInt r.attemptCount)])
    updatedAt := s.now }

def failureEvent (p : FailureArgs) (r : Outbox) (o : Operation) : EventArgs where
  operationId := some o.operationId
  correlationId := some o.correlationId
  actorRef := p.workerId.map (·.text)
  action := o.actionId
  targetRef := some o.targetRef
  outcome := if p.uncertain then .unknown else .failed
  reason := some ""
  evidence := .object [
    ("ownerRef", .ofText "C_EXT"),
    ("claimEpoch", jsonInt p.claimEpoch),
    ("outboxId", .ofInt r.outboxId),
    ("attemptCount", .ofInt r.attemptCount),
    ("dispatchPhase", .ofText (failurePhase r)),
    ("state", .ofText p.state.text),
    ("errorCode", jsonText p.errorCode),
    ("errorDigest", jsonText p.errorDigest),
    ("sideEffect", jsonText p.sideEffect)]

/-- `console_extension.record_execution_failure`. -/
def recordExecutionFailure (D : Digest) (s : Statement) (p : FailureArgs) (db : Db) :
    Except SqlError (Db × Operation) := do
  raiseIf (.any [
      malformed errorCodeFormat p.errorCode,
      malformed digestFormat p.errorDigest,
      notIn (some (coalesce p.sideEffect "")) ["none", "present", "unknown"]])
    (exception "invalid typed execution failure" "22023" "ValidationFailed")
  let r ← ownerFence s db p.toClaimRef [.operationReadyForDispatch,
    .extensionInstallObservationRequested, .extensionRemovalObservationRequested]
    staleClaimMessage
  let mismatch :=
    exception "failure receipt does not match the typed Extension action" "42501"
      "ClaimBindingMismatch"
  let o ← orRaise (db.operations.lookup p.operationId) mismatch
  raiseIf (failureMismatch p r o) mismatch
  let x ← newReceipt D s p.toClaimRef o p.phase (failureEvidence p r o)
  let db ← db.insertReceipt x
  let o := o.fail s p r
  let db ← db.putOperation o
  let db ← db.putOutbox (r.deliver s)
  let db ← appendEvent D s db (failureEvent p r o)
  return (db, o)

end Authority
