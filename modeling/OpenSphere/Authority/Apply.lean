import OpenSphere.Authority.Claim

/-!
# Applying a claimed operation

`console_extension.apply_revocation`, `apply_install_registration` and
`apply_remove_registration`, with `assert_install_not_revoked`.  Each checks its
own arguments, the fence and the operation the claim is bound to, takes the
operation through Reconciling to Applied, stores an Applied receipt and delivers
the dispatch row.  The two registration functions then ask for an observation
by a new outbox row; a revocation is recorded in its own table instead.
-/

open Sql

namespace Authority

/-! ## Guards -/

/-- `^[a-z0-9][a-z0-9-]{0,62}$`. -/
def nameFormat : String → Bool :=
  Pattern.full (.seq [.times (fun c => lower c || digit c) 1,
    .repeated (orOneOf (fun c => lower c || digit c) ['-']) 0 (some 62)])

/-- `^extension\.[a-z0-9][a-z0-9-]{0,62}$`. -/
def descriptorFormat : String → Bool :=
  Pattern.full (.seq [.text "extension.", .times (fun c => lower c || digit c) 1,
    .repeated (orOneOf (fun c => lower c || digit c) ['-']) 0 (some 62)])

/-- `^[0-9A-Za-z._:-]{1,128}$`. -/
def resourceVersionFormat : String → Bool :=
  Pattern.full (.repeated (orOneOf (fun c => lower c || upper c || digit c) ['.', '_', ':', '-'])
    1 (some 128))

/-- `^[0-9a-f]{40}$`. -/
def commitFormat : String → Bool := Pattern.full (.times hexLower 40)

/-- `^[0-9]+\.[0-9]+\.[0-9]+$`. -/
def versionFormat : String → Bool :=
  Pattern.full (.seq [.many1 digit, .text ".", .many1 digit, .text ".", .many1 digit])

/-- `COALESCE(x, '') !~ format`. -/
def malformed (format : String → Bool) (x : Option String) : Cond :=
  fails format (some (coalesce x ""))

/-- `length(COALESCE(x, '')) NOT BETWEEN lo AND hi`. -/
def lengthOutside (x : Option String) (lo hi : Int) : Cond :=
  notBetween (some (textLength (coalesce x ""))) lo hi

/-- `jsonb_typeof(x)`. -/
def typeOf (x : Option Jsonb) : Option String := x.map Jsonb.typeof

/-- What a worker's call on a claimed operation is bound to. -/
structure Bound extends ClaimRef where
  targetRef : Option String
  payloadDigest : Option String

def boundOperation (db : Db) (p : Bound) (actionId : String) (states : List OperationState)
    (also : Operation → List Cond) (message : String) : Except SqlError Operation := do
  let mismatch := exception message "42501" "ClaimBindingMismatch"
  let o ← orRaise (db.operations.lookup p.operationId) mismatch
  raiseIf (.any ([
    ne o.ownerRef (some "C_EXT"),
    some (decide (o.actionId ≠ actionId)),
    some (decide (o.actionVersion ≠ "1.0")),
    ne (some o.targetRef) p.targetRef,
    ne (some o.payloadDigest) p.payloadDigest,
    notIn (some o.state) states] ++ also o)) mismatch
  return o

/-- `EXISTS (SELECT 1 FROM console_extension.revocation WHERE image_ref = ...)`. -/
def Db.isRevoked (db : Db) (imageRef : Option String) : Bool :=
  (db.revocations.lookup imageRef).isSome

/-! ## Updates -/

def Operation.reconcile (o : Operation) (s : Statement) : Operation :=
  if o.state = .reconciling then o
  else { o with state := .reconciling, stateVersion := o.stateVersion + 1, updatedAt := s.now }

def Operation.apply (o : Operation) (s : Statement) (evidence : Jsonb) : Operation :=
  { o with
    state := .applied
    stateVersion := o.stateVersion + 1
    observedPostcondition := some evidence
    updatedAt := s.now }

/-- The Applied receipt, the Applied state and the delivered row. -/
def settle (D : Digest) (s : Statement) (c : ClaimRef) (r : Outbox) (o : Operation)
    (evidence : Jsonb) (db : Db) : Except SqlError Db := do
  let x ← newReceipt D s c o .applied evidence
  let db ← db.insertReceipt x
  let db ← db.putOperation (o.apply s evidence)
  db.putOutbox (r.deliver s)

def applyEvent (c : ClaimRef) (o : Operation) (evidenceDigest : String)
    (postcondition : List (String × Jsonb)) : EventArgs where
  operationId := some o.operationId
  correlationId := some o.correlationId
  actorRef := c.workerId.map (·.text)
  action := o.actionId
  targetRef := some o.targetRef
  outcome := .succeeded
  reason := some ""
  evidence := .object ([
    ("ownerRef", .ofText "C_EXT"),
    ("claimEpoch", jsonInt c.claimEpoch),
    ("state", .ofText o.state.text),
    ("stateVersion", .ofInt o.stateVersion),
    ("evidenceDigest", .ofText evidenceDigest)] ++ postcondition)

/-- What a worker's call returns: the operation, the digest of the stored
evidence and the further keys of the document. -/
structure Settled where
  operation : Operation
  evidenceDigest : String
  also : List (String × Jsonb)

def staleClaimMessage : String := "owner claim is stale or expired"

/-! ## Revocation -/

def invalidRevocationPlan (o : Operation) : Cond :=
  let plan := o.executionPlan
  let replacement := fieldText plan "replacementImage"
  let type := typeOf (field plan "replacementImage")
  .any [
    isNull plan,
    ne (typeOf plan) (some "object"),
    ne (some (Jsonb.keyCount plan)) (some 4),
    some (((plan.bind Jsonb.objectKeys).getD []).any fun key =>
      !(["schemaVersion", "authority", "image", "replacementImage"].contains key)),
    ne (fieldText plan "schemaVersion") (some "1.0"),
    ne (fieldText plan "authority") (some "ConsoleExtensionRevocation"),
    ne (fieldText plan "image") (some o.targetRef),
    .or (notIn type ["string", "null"])
      (.and (eq type (some "string")) (.any [
        fails imageFormat replacement,
        eq replacement (some o.targetRef),
        ne (replacement.map fun r => splitPart r '@' 1) (some (splitPart o.targetRef '@' 1))]))]

def revocationEvidence (o : Operation) (claimEpoch : Option Int) (inserted : Bool) : Jsonb :=
  .object [
    ("schemaVersion", .ofText "1.0"),
    ("authority", .ofText "ConsoleExtensionRevocation"),
    ("imageRef", .ofText o.targetRef),
    ("replacementImageRef", jsonText (fieldText o.executionPlan "replacementImage")),
    ("operationId", .ofText o.operationId.text),
    ("claimEpoch", jsonInt claimEpoch),
    ("inserted", .ofBool inserted),
    ("postcondition", .ofText "RevocationPresent")]

def newRevocation (s : Statement) (o : Operation) (claimEpoch : Int) : Revocation where
  imageRef := o.targetRef
  replacementImageRef := fieldText o.executionPlan "replacementImage"
  operationId := o.operationId
  payloadDigest := o.payloadDigest
  actionVersion := o.actionVersion
  claimEpoch := claimEpoch
  revokedAt := s.now

/-- `console_extension.apply_revocation`. -/
def applyRevocation (D : Digest) (s : Statement) (p : Bound) (db : Db) :
    Except SqlError (Db × Settled) := do
  let r ← ownerFence s db p.toClaimRef [.operationReadyForDispatch] staleClaimMessage
  let o ← boundOperation db p "console.extension.revocation.create"
    [.submitted, .reconciling, .unknown] (fun _ => [])
    "claim does not match the typed Extension action"
  raiseIf (invalidRevocationPlan o)
    (exception "revocation execution plan is invalid" "42501" "ClaimBindingMismatch")
  let o := o.reconcile s
  let db ← db.putOperation o
  let claimEpoch ← notNull p.claimEpoch "claim_epoch"
  let (db, inserted) ← db.insertRevocation (newRevocation s o claimEpoch)
  let evidence := revocationEvidence o p.claimEpoch inserted
  let db ← settle D s p.toClaimRef r o evidence db
  let o := o.apply s evidence
  let db ← appendEvent D s db (applyEvent p.toClaimRef o (D.hash evidence) [])
  return (db, ⟨o, D.hash evidence, [("inserted", .ofBool inserted)]⟩)

/-! ## Installation -/

/-- `console_extension.assert_install_not_revoked`, which changes nothing. -/
def assertInstallNotRevoked (s : Statement) (p : Bound) (db : Db) : Except SqlError Jsonb := do
  raiseIf (.or (malformed imageFormat p.targetRef) (malformed digestFormat p.payloadDigest))
    (exception "invalid Extension install revocation check" "22023" "ValidationFailed")
  let r ← ownerFence s db p.toClaimRef
    [.operationReadyForDispatch, .extensionInstallObservationRequested] staleClaimMessage
  let states : List OperationState :=
    if r.eventType = .operationReadyForDispatch then [.submitted, .reconciling, .unknown]
    else [.applied]
  let _ ← boundOperation db p "console.extension.install" states (fun _ => [])
    "revocation check does not match the typed Extension install action"
  raiseIf (some (db.isRevoked p.targetRef))
    (exception "exact Extension image digest is revoked" "55000" "ImageRevoked")
  return .object [
    ("image", jsonText p.targetRef),
    ("revoked", .ofBool false),
    ("checkedAt", jsonTime (some s.now))]

/-- The arguments of `apply_install_registration`. -/
structure InstallArgs extends Bound where
  executionPlan : Option Jsonb
  registrationName : Option String
  registrationUid : Option String
  registrationResourceVersion : Option String
  packageResourceVersion : Option String
  packageGeneration : Option Int
  created : Option Bool
  manifestDigest : Option String
  sourceRevision : Option String
  compatibilityVersion : Option String
  keyId : Option String

def invalidInstallEvidence (p : InstallArgs) : Cond :=
  let plan := p.executionPlan
  .any [
    isNull plan,
    ne (typeOf plan) (some "object"),
    ne (some (Jsonb.keyCount plan)) (some 5),
    ne (fieldText plan "schemaVersion") (some "1.0"),
    ne (fieldText plan "authority") (some "OpenSphereRegistry"),
    malformed descriptorFormat (fieldText plan "descriptorId"),
    malformed digestFormat (fieldText plan "catalogRevision"),
    malformed imageFormat (fieldText plan "image"),
    malformed nameFormat p.registrationName,
    ne p.registrationName ((fieldText plan "descriptorId").map fun d => substringFrom d 11),
    lengthOutside p.registrationUid 1 128,
    malformed resourceVersionFormat p.registrationResourceVersion,
    malformed resourceVersionFormat p.packageResourceVersion,
    lt (some (coalesce p.packageGeneration 0)) (some 1),
    isNull p.created,
    malformed digestFormat p.manifestDigest,
    malformed commitFormat p.sourceRevision,
    malformed versionFormat p.compatibilityVersion,
    lengthOutside p.keyId 1 256]

def installEvidence (p : InstallArgs) (o : Operation) : Jsonb :=
  .object [
    ("schemaVersion", .ofText "1.0"),
    ("authority", .ofText "KubernetesUIPluginRegistration"),
    ("operationId", .ofText o.operationId.text),
    ("descriptorId", jsonText (fieldText p.executionPlan "descriptorId")),
    ("catalogRevision", jsonText (fieldText p.executionPlan "catalogRevision")),
    ("image", jsonText (fieldText p.executionPlan "image")),
    ("packageResourceVersion", jsonText p.packageResourceVersion),
    ("packageGeneration", jsonInt p.packageGeneration),
    ("manifestDigest", jsonText p.manifestDigest),
    ("sourceRevision", jsonText p.sourceRevision),
    ("compatibilityVersion", jsonText p.compatibilityVersion),
    ("keyId", jsonText p.keyId),
    ("registrationName", jsonText p.registrationName),
    ("registrationUid", jsonText p.registrationUid),
    ("registrationResourceVersion", jsonText p.registrationResourceVersion),
    ("claimEpoch", jsonInt p.claimEpoch),
    ("created", jsonBool p.created),
    ("postcondition", .ofText "RegistrationPresent")]

def installObservationPayload (p : InstallArgs) (o : Operation) (evidenceDigest : String) : Jsonb :=
  .object [
    ("schemaVersion", .ofText "1.0"),
    ("eventType", .ofText EventType.extensionInstallObservationRequested.text),
    ("operationId", .ofText o.operationId.text),
    ("descriptorId", jsonText (fieldText p.executionPlan "descriptorId")),
    ("image", jsonText (fieldText p.executionPlan "image")),
    ("packageResourceVersion", jsonText p.packageResourceVersion),
    ("packageGeneration", jsonInt p.packageGeneration),
    ("manifestDigest", jsonText p.manifestDigest),
    ("sourceRevision", jsonText p.sourceRevision),
    ("compatibilityVersion", jsonText p.compatibilityVersion),
    ("keyId", jsonText p.keyId),
    ("registrationName", jsonText p.registrationName),
    ("registrationUid", jsonText p.registrationUid),
    ("appliedReceiptDigest", .ofText evidenceDigest)]

def installObservationRequest (D : Digest) (s : Statement) (p : InstallArgs) (o : Operation)
    (evidenceDigest : String) : Outbox :=
  let payload := installObservationPayload p o evidenceDigest
  newOutbox s o.operationId .extensionInstallObservationRequested payload (D.hash payload)

/-- `console_extension.apply_install_registration`.  The revocation check looks
up the image the *caller* names. -/
def applyInstallRegistration (D : Digest) (s : Statement) (p : InstallArgs) (db : Db) :
    Except SqlError (Db × Settled) := do
  raiseIf (invalidInstallEvidence p)
    (exception "invalid Extension install evidence" "22023" "ValidationFailed")
  let r ← ownerFence s db p.toClaimRef [.operationReadyForDispatch] staleClaimMessage
  let o ← boundOperation db p.toBound "console.extension.install"
    [.submitted, .reconciling, .unknown]
    (fun o => [Jsonb.distinct o.executionPlan p.executionPlan,
      ne (fieldText p.executionPlan "image") p.targetRef])
    "claim does not match the typed Extension install action"
  raiseIf (some (db.isRevoked p.targetRef))
    (exception "exact Extension image digest is revoked before install receipt" "55000"
      "ImageRevoked")
  let o := o.reconcile s
  let db ← db.putOperation o
  let evidence := installEvidence p o
  let db ← settle D s p.toClaimRef r o evidence db
  let o := o.apply s evidence
  let db ← db.insertOutbox (installObservationRequest D s p o (D.hash evidence))
  let db ← appendEvent D s db (applyEvent p.toClaimRef o (D.hash evidence)
    [("postcondition", .ofText "RegistrationPresent")])
  return (db, ⟨o, D.hash evidence,
    [("registrationName", jsonText p.registrationName), ("created", jsonBool p.created)]⟩)

/-! ## Removal -/

/-- The arguments of `apply_remove_registration`. -/
structure RemoveArgs extends Bound where
  registrationName : Option String
  registrationUid : Option String
  registrationResourceVersionBefore : Option String
  registrationResourceVersion : Option String
  registrationGeneration : Option Int
  packageResourceVersion : Option String
  packageGeneration : Option Int
  packageScope : Option String
  changed : Option Bool

def invalidRemovalEvidence (p : RemoveArgs) : Cond :=
  .any [
    malformed descriptorFormat p.targetRef,
    malformed nameFormat p.registrationName,
    ne p.registrationName (p.targetRef.map fun d => substringFrom d 11),
    lengthOutside p.registrationUid 1 128,
    malformed resourceVersionFormat p.registrationResourceVersionBefore,
    malformed resourceVersionFormat p.registrationResourceVersion,
    lt (some (coalesce p.registrationGeneration 0)) (some 1),
    malformed resourceVersionFormat p.packageResourceVersion,
    lt (some (coalesce p.packageGeneration 0)) (some 1),
    lt (some 128) (some (textLength (coalesce p.packageScope ""))),
    holds (fun scope => startsWith scope "main-shell") (some (coalesce p.packageScope "")),
    isNull p.changed]

def removalEvidence (p : RemoveArgs) (o : Operation) : Jsonb :=
  .object [
    ("schemaVersion", .ofText "1.0"),
    ("authority", .ofText "KubernetesUIPluginRegistration"),
    ("operationId", .ofText o.operationId.text),
    ("descriptorId", jsonText p.targetRef),
    ("registrationName", jsonText p.registrationName),
    ("registrationUid", jsonText p.registrationUid),
    ("registrationResourceVersionBefore", jsonText p.registrationResourceVersionBefore),
    ("registrationResourceVersion", jsonText p.registrationResourceVersion),
    ("registrationGeneration", jsonInt p.registrationGeneration),
    ("packageResourceVersion", jsonText p.packageResourceVersion),
    ("packageGeneration", jsonInt p.packageGeneration),
    ("packageScope", jsonText p.packageScope),
    ("claimEpoch", jsonInt p.claimEpoch),
    ("changed", jsonBool p.changed),
    ("postcondition", .ofText "RemovalRequested")]

def removalObservationPayload (p : RemoveArgs) (o : Operation) (evidenceDigest : String) : Jsonb :=
  .object [
    ("schemaVersion", .ofText "1.0"),
    ("eventType", .ofText EventType.extensionRemovalObservationRequested.text),
    ("operationId", .ofText o.operationId.text),
    ("descriptorId", jsonText p.targetRef),
    ("registrationName", jsonText p.registrationName),
    ("registrationUid", jsonText p.registrationUid),
    ("appliedReceiptDigest", .ofText evidenceDigest)]

def removalObservationRequest (D : Digest) (s : Statement) (p : RemoveArgs) (o : Operation)
    (evidenceDigest : String) : Outbox :=
  let payload := removalObservationPayload p o evidenceDigest
  newOutbox s o.operationId .extensionRemovalObservationRequested payload (D.hash payload)

/-- `console_extension.apply_remove_registration`. -/
def applyRemoveRegistration (D : Digest) (s : Statement) (p : RemoveArgs) (db : Db) :
    Except SqlError (Db × Settled) := do
  raiseIf (invalidRemovalEvidence p)
    (exception "invalid Extension removal evidence" "22023" "ValidationFailed")
  let r ← ownerFence s db p.toClaimRef [.operationReadyForDispatch] staleClaimMessage
  let o ← boundOperation db p.toBound "console.extension.remove"
    [.submitted, .reconciling, .unknown] (fun _ => [])
    "claim does not match the typed Extension removal action"
  let o := o.reconcile s
  let db ← db.putOperation o
  let evidence := removalEvidence p o
  let db ← settle D s p.toClaimRef r o evidence db
  let o := o.apply s evidence
  let db ← db.insertOutbox (removalObservationRequest D s p o (D.hash evidence))
  let db ← appendEvent D s db (applyEvent p.toClaimRef o (D.hash evidence)
    [("postcondition", .ofText "RemovalRequested")])
  return (db, ⟨o, D.hash evidence,
    [("registrationName", jsonText p.registrationName), ("changed", jsonBool p.changed)]⟩)

end Authority
