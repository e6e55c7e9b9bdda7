import OpenSphere.Command.Contract
import OpenSphere.Durable.Ledger
import OpenSphere.Js.Normal

/-!
# Descriptors

What a durable operation may do is fixed by the descriptor of its action.  `planOperation` checks the
resolved target of a request against it, and `bindOperation` demands the exact confirmation.  A digest
is taken over `stableJson`, the text of a value with its members in order.
-/

open Sql Js

namespace Durable

/-! ## Digests -/

/-- `stableJson(value)`, for a value without undefined in it. -/
def stableJson (x : Value) : List Char := x.canonical.stringify

/-- `digest(value)`, where `hash` is the hexadecimal SHA-256 of a text. -/
def digest (hash : List Char → String) (x : Value) : String := "sha256:" ++ hash (stableJson x)

/-! ## Texts -/

inductive Refusal where
  /-- `{ code, errorCode, msg }`. -/
  | http (code : Nat) (errorCode : Option String) (msg : String)
  /-- An error with a code. -/
  | error (code message : String)
deriving DecidableEq, Repr

/-- `throw { code, msg }`. -/
def refused {α : Type} (code : Nat) (msg : String) : Except Refusal α := .error (.http code none msg)

/-- `throw Object.assign(new Error(message), { code })`. -/
def failed {α : Type} (code message : String) : Except Refusal α := .error (.error code message)

/-- `String(x || '')`. -/
def textOf (x : Value) : Except Refusal String :=
  match (x.or (.string "")).toText with
  | some t => .ok t
  | none => failed "" "Cannot convert object to primitive value"

/-- A replacement with what its parts stand for, where `dollar` says that a dollar sign came before.  The
patterns here have no groups. -/
def expand (matched before after : List Char) : Bool → List Char → List Char
  | false, [] => []
  | true, [] => ['$']
  | false, c :: cs =>
      if c = '$' then expand matched before after true cs else c :: expand matched before after false cs
  | true, c :: cs =>
      (if c = '$' then ['$']
        else if c = '&' then matched
        else if c = Char.ofNat 96 then before
        else if c = Char.ofNat 39 then after
        else ['$', c]) ++ expand matched before after false cs

/-- A replacement of every occurrence, where `skip` characters belong to the last one. -/
def replaceFrom (pattern replacement : List Char) : Nat → List Char → List Char → List Char
  | _, _, [] => []
  | skip + 1, before, c :: cs => replaceFrom pattern replacement skip (before ++ [c]) cs
  | 0, before, c :: cs =>
      if pattern.isPrefixOf (c :: cs) then
        expand pattern before ((c :: cs).drop pattern.length) false replacement ++
          replaceFrom pattern replacement (pattern.length - 1) (before ++ [c]) cs
      else c :: replaceFrom pattern replacement 0 (before ++ [c]) cs

/-- `t.replace(/pattern/g, replacement)` of a pattern that is a text. -/
def replaceAll (t pattern replacement : String) : String :=
  String.ofList (replaceFrom (chars pattern) (chars replacement) 0 [] (chars t))

/-! ## Descriptors -/

structure Descriptor where
  descriptorId : String
  revision : String
  toolId : String
  governedToolId : Option String
  verifierId : String
  riskClass : RiskClass
  assurance : String
  targetKind : String
  confirmationTemplate : String
  ownerRoute : String
  allowedNamespaces : List String
  permission : String

def RiskClass.text : RiskClass → String
  | .r0 => "R0"
  | .r1 => "R1"
  | .r2 => "R2"
  | .r3 => "R3"

/-- `{ ...descriptor }`. -/
def Descriptor.value (d : Descriptor) : Value :=
  .ofList ([("descriptorId", Value.string d.descriptorId), ("revision", .string d.revision),
    ("toolId", .string d.toolId)] ++
    (d.governedToolId.map fun t => [("governedToolId", Value.string t)]).getD [] ++
    [("verifierId", Value.string d.verifierId), ("riskClass", .string d.riskClass.text),
    ("assurance", .string d.assurance), ("targetKind", .string d.targetKind),
    ("confirmationTemplate", .string d.confirmationTemplate), ("ownerRoute", .string d.ownerRoute),
    ("allowedNamespaces", .array (.ofList (d.allowedNamespaces.map Value.string))),
    ("permission", .string d.permission)])

/-- `DESCRIPTORS[action]`. -/
def descriptors : String → Option Descriptor
  | "restart-workload" => some {
      descriptorId := "opensphere.workload.restart", revision := "2", toolId := "owner.workload.restart"
      governedToolId := some "osaa.k8s.workload.restart", verifierId := "authority.workload.rollout"
      riskClass := .r1, assurance := "aal2", targetKind := "Deployment"
      confirmationTemplate := "restart <kind> <namespace>/<name>"
      ownerRoute := "cluster-manager/workloads", allowedNamespaces := ["opensphere-*"]
      permission := "osaa.action.execute.high" }
  | "scale-workload" => some {
      descriptorId := "opensphere.workload.scale", revision := "2", toolId := "owner.workload.scale"
      governedToolId := some "osaa.k8s.workload.scale", verifierId := "authority.workload.replicas"
      riskClass := .r1, assurance := "aal2", targetKind := "Deployment"
      confirmationTemplate := "scale <kind> <namespace>/<name> to <replicas>"
      ownerRoute := "cluster-manager/workloads", allowedNamespaces := ["opensphere-*"]
      permission := "osaa.action.execute.high" }
  | "rollback-image" => some {
      descriptorId := "opensphere.release.rollback", revision := "1", toolId := "owner.release.rollback"
      governedToolId := none, verifierId := "authority.release.exact-digest"
      riskClass := .r2, assurance := "aal2", targetKind := "Deployment"
      confirmationTemplate := "rollback image <kind> <namespace>/<name> container <container> to <image>"
      ownerRoute := "foundation/platform-release", allowedNamespaces := ["opensphere-*"]
      permission := "osaa.action.execute.high" }
  | "run-cronjob" => some {
      descriptorId := "opensphere.cronjob.run", revision := "1", toolId := "owner.cronjob.run-once"
      governedToolId := none, verifierId := "authority.job.completed"
      riskClass := .r2, assurance := "aal2", targetKind := "CronJob"
      confirmationTemplate := "run cronjob <namespace>/<name>"
      ownerRoute := "cluster-manager/workloads", allowedNamespaces := ["opensphere-*"]
      permission := "osaa.action.execute.high" }
  | "run-recovery-drill" => some {
      descriptorId := "opensphere.recovery.drill.run", revision := "1", toolId := "owner.recovery.drill-run"
      governedToolId := none, verifierId := "authority.recovery.evidence"
      riskClass := .r2, assurance := "aal2", targetKind := "CronJob"
      confirmationTemplate := "run recovery drill <component>"
      ownerRoute := "recovery/isolated-drill", allowedNamespaces := ["opensphere-console-recovery"]
      permission := "console.backup.restore" }
  | "owner-recover" => some {
      descriptorId := "opensphere.owner.recover", revision := "1", toolId := "owner.recovery.execute"
      governedToolId := none, verifierId := "owner.recovery.postcondition"
      riskClass := .r2, assurance := "aal2", targetKind := "Capability"
      confirmationTemplate := "recover HISS <name>"
      ownerRoute := "cluster-manager/his", allowedNamespaces := [""]
      permission := "osaa.action.execute.high" }
  | "retry-delivery" => some {
      descriptorId := "opensphere.notification.retry", revision := "1", toolId := "owner.notification.retry"
      governedToolId := none, verifierId := "owner.notification.delivery"
      riskClass := .r2, assurance := "aal2", targetKind := "NotificationDelivery"
      confirmationTemplate := "retry notification delivery <name>"
      ownerRoute := "owner/notifications", allowedNamespaces := [""]
      permission := "console.notification.manage" }
  | "create-postgres-cluster" => some {
      descriptorId := "foundation.postgres.cluster.create", revision := "2"
      toolId := "owner.foundation.postgres.create"
      governedToolId := none, verifierId := "owner.foundation.postgres.ready"
      riskClass := .r2, assurance := "aal2", targetKind := "FoundationClaim"
      confirmationTemplate := "create PostgreSQL cluster <namespace>/<name> binding <bindingDigest> version <postgresVersion> storage-profile <storageProfile>"
      ownerRoute := "foundation/postgres", allowedNamespaces := ["opensphere-*"]
      permission := "osaa.action.execute.high" }
  | _ => none

/-! ## Targets -/

/-- A target as `resolveTarget` returns it.  Numbers are given by their text. -/
structure Resolved where
  kind : String
  (namespace' : String)
  name : String
  uid : String
  generation : Option String
  resourceVersion : Option String
  desiredRevision : Option String
  digest : Option String
  image : Option String
  container : Option String
  replicas : Option String
  request : Option Value

def optional (f : String → Value) (x : Option String) : Value := (x.map f).getD .null

def Resolved.value (t : Resolved) : Value :=
  .ofList [("kind", .string t.kind), ("namespace", .string t.namespace'), ("name", .string t.name),
    ("uid", .string t.uid), ("generation", optional .number t.generation),
    ("resourceVersion", optional .string t.resourceVersion),
    ("desiredRevision", optional .string t.desiredRevision), ("digest", optional .string t.digest),
    ("image", optional .string t.image), ("container", optional .string t.container),
    ("replicas", optional .number t.replicas), ("request", t.request.getD .null)]

/-- `target.request?.name`. -/
def Resolved.requested (t : Resolved) (name : String) : Value := (t.request.getD .undefined).get name

def exactConfirmation (d : Descriptor) (t : Resolved) (bindingDigest : String) : Except Refusal String := do
  let requestedDigest ← textOf (t.requested "bindingDigest")
  let plan ← textOf (t.requested "plan")
  let version ← textOf (t.requested "postgresVersion")
  let component ← textOf (t.requested "component")
  let replaced := replaceAll d.confirmationTemplate "<kind>" t.kind.toLower
  let replaced := replaceAll replaced "<namespace>" t.namespace'
  let replaced := replaceAll replaced "<name>" t.name
  let replaced := replaceAll replaced "<container>" (t.container.getD "")
  let replaced := replaceAll replaced "<image>" (t.image.getD "")
  let replaced := replaceAll replaced "<uid>" t.uid
  let replaced := replaceAll replaced "<digest>" (t.digest.getD "")
  let replaced := replaceAll replaced "<revision>" (t.desiredRevision.getD "")
  let replaced := replaceAll replaced "<replicas>" (t.replicas.getD "")
  let replaced := replaceAll replaced "<bindingDigest>" (if bindingDigest ≠ "" then bindingDigest else requestedDigest)
  let replaced := replaceAll replaced "<storageProfile>" plan
  let replaced := replaceAll replaced "<plan>" plan
  let replaced := replaceAll replaced "<postgresVersion>" version
  return replaceAll replaced "<component>" component

/-! ## Plans of operations -/

def namespaceAllowed (ns : String) (patterns : List String) : Bool :=
  patterns.any fun pattern =>
    if pattern = "" then ns = ""
    else if (chars pattern).getLast? = some '*' then (chars pattern).dropLast.isPrefixOf (chars ns)
    else ns = pattern

def replicasAllowed (t : String) : Bool :=
  (Decimal.ofText t).any fun x => x.safeInteger && !x.lt ⟨0, 0⟩ && !(⟨50, 0⟩ : Decimal).lt x

/-- The fields that a request for a PostgreSQL cluster has to give. -/
def postgresFields : List String :=
  ["name", "namespace", "alias", "database", "owner", "plan", "postgresVersion", "deletionPolicy"]

def checkPostgres (t : Resolved) : Except Refusal Unit := do
  postgresFields.forM fun field => do
    let value ← textOf (t.requested field)
    if trim value = "" then
      failed "PostgresRequestIncomplete" ("PostgreSQL request " ++ field ++ " is required")
    else .ok ()
  match t.requested "name", t.requested "namespace" with
  | .string name, .string ns =>
      if name ≠ t.name || ns ≠ t.namespace' then
        failed "PostgresTargetMismatch" "PostgreSQL request target does not match the resolved FoundationClaim"
      else if t.resourceVersion.getD "" = "" then
        failed "TargetRevisionRequired" "PostgreSQL owner target revision is required"
      else .ok ()
  | _, _ =>
      failed "PostgresTargetMismatch" "PostgreSQL request target does not match the resolved FoundationClaim"

def checkAction (action : String) (t : Resolved) : Except Refusal Unit := do
  if action = "rollback-image" then
    if !Command.revisionFormat (t.digest.getD "") then
      failed "ExactDigestRequired" "rollback requires an exact image digest"
    else if t.container.getD "" = "" || !('@' :: chars (t.digest.getD "")).isSuffixOf (chars (t.image.getD ""))
    then
      failed "ExactImageRequired" "rollback requires container and repository@exact-digest image"
    else .ok ()
  else if action = "scale-workload" then
    if !replicasAllowed (t.replicas.getD "NaN") then
      failed "ReplicaTargetRequired" "scale requires replicas between 0 and 50"
    else .ok ()
  else if action = "owner-recover" then
    if t.desiredRevision.getD "" = "" then
      failed "DesiredRevisionRequired" "owner recovery requires a desired revision"
    else .ok ()
  else if action = "run-recovery-drill" then do
    let component ← textOf (t.requested "component")
    if !(["supabase", "gitea"].contains component) then
      failed "RecoveryComponentRequired" "recovery drill component must be supabase or gitea"
    else .ok ()
  else if action = "create-postgres-cluster" then checkPostgres t
  else .ok ()

/-- What `planOperation` returns. -/
structure Planned where
  action : String
  descriptor : Descriptor
  descriptorDigest : String
  expectedConfirmation : String
  target : Resolved

section

variable (hash : List Char → String)

def planOperation (action : String) (t : Resolved) (bindingDigest : String) : Except Refusal Planned := do
  match descriptors action with
  | none => failed "DescriptorNotFound" "unsupported management action"
  | some d =>
      [("kind", t.kind), ("name", t.name), ("uid", t.uid)].forM fun (field, value) =>
        if trim value = "" then failed "TargetIncomplete" ("exact target " ++ field ++ " is required")
        else .ok ()
      if t.kind ≠ d.targetKind then failed "TargetKindMismatch" "target kind is not permitted"
      else if !namespaceAllowed t.namespace' d.allowedNamespaces then
        failed "NamespaceDenied" "target namespace is not permitted"
      else do
        checkAction action t
        let confirmation ← exactConfirmation d t bindingDigest
        return ⟨action, d, digest hash d.value, confirmation, t⟩

def operationConfirmation (p : Planned) (bindingDigest : String) : Except Refusal String :=
  exactConfirmation p.descriptor p.target bindingDigest

/-- What `bindOperation` returns. -/
structure Bound where
  planned : Planned
  reason : String
  confirmationDigest : String

def bindOperation (action : String) (t : Resolved) (bindingDigest confirmation reason : String) :
    Except Refusal Bound := do
  let planned ← planOperation hash action t bindingDigest
  if confirmation = "" || confirmation ≠ planned.expectedConfirmation then
    failed "ExactConfirmationRequired" "human-supplied exact confirmation does not match"
  else if Js.length (trim reason) < 8 then
    failed "ReasonRequired" "reason must contain at least eight characters"
  else return ⟨planned, trim reason, digest hash (.string confirmation)⟩

end

def expectedPostcondition (p : Planned) : Except Refusal Value := do
  let t := p.target
  let common : List (String × Value) :=
    [("verifierId", .string p.descriptor.verifierId), ("targetUid", .string t.uid)]
  let states (l : List String) : Value := .array (.ofList (l.map Value.string))
  match p.descriptor.verifierId with
  | "authority.workload.rollout" =>
      return .ofList (common ++ [("generationGreaterThan", optional Value.number t.generation)])
  | "authority.workload.replicas" =>
      return .ofList (common ++ [("replicas", optional Value.number t.replicas),
        ("generationAtLeast", optional .number t.generation)])
  | "authority.release.exact-digest" =>
      return .ofList (common ++ [("container", optional Value.string t.container),
        ("exactDigest", optional .string t.digest)])
  | "authority.job.completed" =>
      return .ofList (common ++ [("ownerReceiptRequired", Value.boolean true),
        ("terminalCondition", .string "Complete")])
  | "authority.recovery.evidence" =>
      return .ofList (common ++ [("ownerReceiptRequired", Value.boolean true),
        ("terminalCondition", .string "Complete"), ("component", (t.requested "component").or .null),
        ("structuredEvidenceVerified", .boolean true)])
  | "owner.recovery.postcondition" =>
      return .ofList (common ++ [("desiredRevision", optional Value.string t.desiredRevision),
        ("allowedStates", states ["ready", "deployed", "healthy"])])
  | "owner.notification.delivery" =>
      return .ofList (common ++ [("allowedStates", states ["accepted", "delivered"])])
  | "owner.foundation.postgres.ready" =>
      return .ofList (common ++ [
        ("foundationClaim", Value.ofList [("phase", .string "Bound"), ("observedGenerationMatches", .boolean true)]),
        ("postgresClaim", .ofList [("ready", .boolean true), ("observedGenerationMatches", .boolean true)]),
        ("sgClusterReady", .boolean true), ("bindingSecretIssued", .boolean true)])
  | _ => failed "PostconditionNotRegistered" "descriptor verifier has no closed postcondition"

end Durable
