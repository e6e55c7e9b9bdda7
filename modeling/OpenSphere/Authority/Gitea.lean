import OpenSphere.Authority.Approve
import OpenSphere.Authority.Claim

/-!
# Git receipts and the registry credential

`console_operation.record_gitea_proposal`, `record_gitea_merge` and
`console_extension.record_registry_credential_result`.  A proposal is only an
audit event.  A merge takes an authorized operation to Submitted and, for an
operation with a declaration binding, stores the merged revision that opens the
operation to claims.  The credential broker moves its own operations by itself.
-/

open Sql

namespace Authority

/-! ## Proposals and merges -/

/-- The arguments of the two receipt functions.  `revision` is the desired
revision of a proposal and the source revision of a merge. -/
structure GiteaArgs where
  operationId : Option Uuid
  revision : Option String
  branch : Option String
  pullNumber : Option Int
  correlationId : Option String

/-- `x ~ '[\r\n]'`. -/
def hasLineBreak (x : String) : Bool := (chars x).any fun c => c == '\r' || c == '\n'

def invalidGiteaReceipt (p : GiteaArgs) : Cond :=
  .any [
    isNull p.operationId,
    fails revisionFormat (some (coalesce p.revision "")),
    ne p.branch (p.operationId.map fun u => "control/" ++ u.text),
    lt p.pullNumber (some 1),
    notBetween (some (textLength (coalesce p.correlationId ""))) 8 128,
    holds hasLineBreak p.correlationId]

def Operation.gitPlan (o : Operation) : Option Jsonb := o.declarationBinding.or o.executionPlan

def typedGitAction (o : Operation) : Cond :=
  .or
    (.and (some (decide (o.actionId = "console.platform.change.propose")))
      (eq o.ownerRef (some "API_GIT")))
    (.all [
      some (decide (o.actionId = "console.extension.install")),
      eq o.ownerRef (some "C_EXT"),
      isNotNull o.declarationBinding,
      eq (fieldText o.declarationBinding "templateId") (some "console-cluster-manager-install")])

def outsideGitBoundary (o : Operation) : List Cond := [
  .not (typedGitAction o),
  some (decide (o.actionVersion ≠ "1.0")),
  some (!o.approvalRequired),
  ne (fieldText o.gitPlan "authority") (some "Gitea"),
  ne (fieldText o.gitPlan "repository") (some "opensphere/platform-declarations"),
  ne (fieldText o.gitPlan "defaultBranch") (some "main")]

def proposalEvidence (p : GiteaArgs) (o : Operation) : Jsonb :=
  .object [
    ("repository", jsonText (fieldText o.gitPlan "repository")),
    ("branch", jsonText p.branch),
    ("pullNumber", jsonInt p.pullNumber),
    ("desiredRevision", jsonText p.revision)]

def proposalAction : String := "console.platform.change.proposal"

def mergeAction : String := "console.platform.change.merge"

def Db.latestEvent (db : Db) (operationId : Uuid) (action : String) : Option Event :=
  db.events.rows.reverse.find? fun e =>
    decide (e.operationId = some operationId) && decide (e.action = action)

/-- The audit entry of a Git receipt. -/
def giteaEvent (p : GiteaArgs) (o : Operation) (action : String) (evidence : Jsonb) :
    EventArgs where
  operationId := some o.operationId
  correlationId := p.correlationId
  actorRef := some "API_GIT"
  action := action
  targetRef := some o.targetRef
  outcome := .succeeded
  reason := some ""
  evidence := evidence

structure Proposed where
  evidence : Jsonb
  replayed : Bool

/-- `console_operation.record_gitea_proposal`. -/
def recordGiteaProposal (D : Digest) (s : Statement) (p : GiteaArgs) (db : Db) :
    Except SqlError (Db × Proposed) := do
  raiseIf (invalidGiteaReceipt p)
    (exception "invalid Gitea proposal receipt" "22023" "ValidationFailed")
  let o ← orRaise (db.operations.lookup p.operationId) notFound
  raiseIf (.any (outsideGitBoundary o ++
      [notIn (some o.state) [.planned, .authorized, .submitted]]))
    (exception "operation is outside the Gitea proposal receipt boundary" "42501"
      "ClaimBindingMismatch")
  let evidence := proposalEvidence p o
  match db.latestEvent o.operationId proposalAction with
  | some e => do
      raiseIf (some (!e.evidence.same evidence))
        (exception "conflicting Gitea proposal receipt" "55000" "ReceiptConflict")
      return (db, ⟨e.evidence, true⟩)
  | none => do
      let db ← appendEvent D s db (giteaEvent p o proposalAction evidence)
      return (db, ⟨evidence, false⟩)

/-- The evidence of a merge, with `o` the submitted operation. -/
def mergeEvidence (p : GiteaArgs) (o : Operation) : Jsonb :=
  .object [
    ("repository", jsonText (fieldText o.gitPlan "repository")),
    ("branch", jsonText p.branch),
    ("pullNumber", jsonInt p.pullNumber),
    ("sourceRevision", jsonText p.revision),
    ("state", .ofText o.state.text),
    ("stateVersion", .ofInt o.stateVersion)]

def requireProposal (db : Db) (p : GiteaArgs) (o : Operation) : Except SqlError Unit := do
  if o.declarationBinding.isSome then
    let mismatch :=
      exception "merge does not match the recorded proposal" "42501" "ClaimBindingMismatch"
    let e ← orRaise (db.latestEvent o.operationId proposalAction) mismatch
    let pullNumber ← castText "integer" castInteger (e.evidence.getText "pullNumber")
    raiseIf (.or (distinct (e.evidence.getText "branch") p.branch)
      (distinct pullNumber p.pullNumber)) mismatch

def alreadyMerged (p : GiteaArgs) (o : Operation) : Cond :=
  .or
    (.all [some (decide (o.state = .submitted)), eq o.sourceRevision p.revision,
      isNull o.declarationBinding])
    (.and (isNotNull o.declarationBinding) (eq o.declarationMergeRevision p.revision))

def Operation.merge (o : Operation) (s : Statement) (p : GiteaArgs) : Operation :=
  { o with
    sourceRevision := if o.declarationBinding.isNone then p.revision else o.sourceRevision
    declarationMergeRevision := if o.declarationBinding.isSome then p.revision else none
    state := .submitted
    stateVersion := o.stateVersion + 1
    updatedAt := s.now }

/-- `console_operation.record_gitea_merge`. -/
def recordGiteaMerge (D : Digest) (s : Statement) (p : GiteaArgs) (db : Db) :
    Except SqlError (Db × Accepted) := do
  raiseIf (invalidGiteaReceipt p)
    (exception "invalid Gitea merge receipt" "22023" "ValidationFailed")
  let o ← orRaise (db.operations.lookup p.operationId) notFound
  raiseIf (.any (outsideGitBoundary o ++ [isNull o.approvalRevision]))
    (exception "operation is outside the Gitea merge receipt boundary" "42501"
      "ClaimBindingMismatch")
  requireProposal db p o
  if alreadyMerged p o = some true then
    return (db, ⟨o, true⟩)
  else
    raiseIf (.or (some (decide (o.state ≠ .authorized))) (isNotNull o.sourceRevision))
      (exception "operation is not awaiting a Gitea merge receipt" "55000"
        "InvalidOperationState")
    let o := o.merge s p
    let db ← db.putOperation o
    let db ← appendEvent D s db (giteaEvent p o mergeAction (mergeEvidence p o))
    return (db, ⟨o, false⟩)

/-! ## The registry credential -/

/-- The arguments of `record_registry_credential_result`. -/
structure CredentialArgs where
  operationId : Option Uuid
  eventId : Option Uuid
  outcome : Option String
  generation : Option Uuid
  code : Option String

def credentialCodes : List String :=
  ["RefreshStarted", "PullSecretsVerified", "PullSecretsCleared", "AuthorizationStartFailed",
    "InterruptedCredentialOperation", "PermissionDenied", "RegistryPullDenied",
    "ReadOnlyPackagesScopeRequired", "IdentityMismatch", "ReauthorizationRequired",
    "CredentialExpired", "ProviderUnavailable", "RegistryImageUnavailable",
    "RegistryDigestMismatch", "CredentialPropagationPending", "RegistryPullSecretMissing",
    "CredentialAuthorityUnavailable", "CredentialOperationFailed"]

def credentialAction : String := "console.registry.credential.lifecycle"

def outsideCredentialBroker (o : Operation) : Cond :=
  .any [
    ne o.ownerRef (some "C_API.registry-credential-broker"),
    notIn (some o.actionId)
      ["console.registry.connection.replace", "console.registry.connection.remove"],
    some (decide (o.targetRef ≠ "registry-connection:opensphere-ghcr")),
    some (decide (o.requiredPermission ≠ "console.registry.manage")),
    some (decide (o.risk ≠ .r2)),
    some o.approvalRequired,
    some (decide (o.aal ≠ .aal2))]

def credentialCoordinates (p : CredentialArgs) : List (String × Jsonb) :=
  [("generation", jsonUuid p.generation), ("code", jsonText p.code)]

def Operation.credentialResult (o : Operation) (s : Statement) (p : CredentialArgs)
    (outcome : Outcome) : Operation :=
  { o with
    state := match outcome with
      | .succeeded => .applied
      | .unknown => .unknown
      | _ => .reconciling
    stateVersion := o.stateVersion + 1
    updatedAt := s.now
    observedPostcondition := some (.object
      (("authority", .ofText "RegistryCredentialBroker") :: credentialCoordinates p)) }

/-- `UPDATE outbox SET delivered_at ... WHERE operation_id = ... AND delivered_at IS NULL`. -/
def Db.deliverAll (db : Db) (s : Statement) (operationId : Uuid) : Except SqlError Db := do
  let t ← db.outbox.updateWhere
    (fun r => decide (r.operationId = operationId) && r.deliveredAt.isNone) fun r => r.deliver s
  return { db with outbox := t }

def Db.deliverSettled (db : Db) (s : Statement) (outcome : Outcome) (operationId : Uuid) :
    Except SqlError Db :=
  if outcome = .succeeded ∨ outcome = .unknown then db.deliverAll s operationId else .ok db

def credentialEvent (p : CredentialArgs) (outcome : Outcome) (correlationId : Option String)
    (actorRef : String) : EventArgs where
  operationId := p.operationId
  correlationId := correlationId
  actorRef := some actorRef
  action := credentialAction
  targetRef := some "registry-connection:opensphere-ghcr"
  outcome := outcome
  reason := some "Registry credential lifecycle"
  evidence := .object (credentialCoordinates p)

def Outcome.ofText (t : String) : Option Outcome :=
  [.accepted, .rejected, .succeeded, .failed, .unknown].find? fun x => x.text == t

/-- `console_extension.record_registry_credential_result`.  A NULL outcome passes
the first guard and fails on the NOT NULL correlation of the audit event. -/
def recordRegistryCredentialResult (D : Digest) (s : Statement) (p : CredentialArgs) (db : Db) :
    Except SqlError (Db × Bool) := do
  raiseIf (.any [
      notIn p.outcome ["accepted", "succeeded", "failed", "unknown"],
      notIn p.code credentialCodes,
      isNull p.eventId,
      isNull p.generation])
    (exception "invalid registry credential result" "22023" "ValidationFailed")
  let correlationId := p.eventId.bind fun u => p.outcome.map fun t =>
    "registry:" ++ u.text ++ ":" ++ t
  if db.events.rows.any fun e =>
      (eq (some e.correlationId) correlationId).and
        (some (decide (e.action = credentialAction))) == some true then
    return (db, true)
  else
    match p.operationId with
    | none => do
        let outcome ← notNull (p.outcome.bind Outcome.ofText) "correlation_id"
        let db ← appendEvent D s db
          (credentialEvent p outcome correlationId "system:registry-credential-broker")
        return (db, true)
    | some id => do
        let mismatch :=
          exception "registry operation authority mismatch" "42501" "PermissionDenied"
        let o ← orRaise (db.operations.lookup (some id)) mismatch
        raiseIf (outsideCredentialBroker o) mismatch
        if o.state = .applied ∨ o.state = .verified then
          return (db, true)
        else
          let outcome ← notNull (p.outcome.bind Outcome.ofText) "correlation_id"
          let db ← db.putOperation (o.credentialResult s p outcome)
          let db ← db.deliverSettled s outcome o.operationId
          let db ← appendEvent D s db (credentialEvent p outcome correlationId o.actorRef.text)
          return (db, true)

end Authority
