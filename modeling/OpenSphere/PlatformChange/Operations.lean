import OpenSphere.Authority.Gitea
import OpenSphere.PlatformChange.Proposal
import OpenSphere.PlatformChange.Repository
import OpenSphere.System.Program

/-!
# Operations on platform changes

`apps/console-api/src/platform-change-operations.mjs` and `gitea-change-client.mjs`: a change is
proposed, which accepts an operation, puts its declaration on a branch of its own and opens a pull
request; another operator approves it, which merges the pull request.  The operations are programs
that ask the database, the repository, the clock and other services.  An answer may be refused, and
it may be lost after the request has had its effect.
-/

open Sql
open Js (Value Members)
open Authority (Operation GiteaArgs Statement Digest jsonText jsonUuid jsonInt jsonBool)
open FrontDoor (Session AcceptInput AcceptCall DecisionInput)

namespace PlatformChange

/-! ## Requests and answers -/

structure NewFile where
  branch : String
  path : String
  content : Content
  /-- The file that the default branch must have, by its content. -/
  previous : Option Content

structure PullView where
  branch : String
  head : Option String
  /-- The revision of the merge, if it is merged. -/
  mergeRevision : Option String

inductive Ask where
  /-- `clock()`, in milliseconds. -/
  | clock
  /-- `clock()` of the operation service. -/
  | serviceClock
  /-- The release configuration is that of a local edge site. -/
  | localEdge
  /-- `postMergeOwnerReady()`. -/
  | postMergeOwnerReady
  /-- `moduleOwner.ready()`. -/
  | ownerReady
  /-- The image that the Registry resolves the module to. -/
  | resolveExtension (catalogRevision : String)
  /-- Why the repository is not ready, if it is not. -/
  | supplyChain
  | accept (call : AcceptCall)
  /-- `store.get`. -/
  | get (session : Session) (operationId : String)
  | getForApproval (session : Session) (actorRef : Uuid) (operationId : String)
  | approve (session : Session) (i : DecisionInput)
  | recordProposal (p : GiteaArgs)
  | recordMerge (p : GiteaArgs)
  | branch (name : String)
  | createFile (f : NewFile)
  | findPull (branch : String)
  | createPull (branch : String)
  | pull (number : Nat)
  | files (number : Nat)
  | contents (path revision : String)
  | review (number : Nat) (commit : Option String)
  | merge (number : Nat) (headCommit : Option String)
  | mainFile (path : String)
  | mainRevision

abbrev Answer : Ask → Type
  | .clock => Int
  | .serviceClock => Int
  | .localEdge => Bool
  | .postMergeOwnerReady => Bool
  | .ownerReady => Bool
  | .resolveExtension _ => String
  | .supplyChain => Option String
  | .accept _ => Authority.Accepted
  | .get _ _ => Option Operation
  | .getForApproval _ _ _ => Operation
  | .approve _ _ => Authority.Accepted
  | .recordProposal _ => Authority.Proposed
  | .recordMerge _ => Authority.Accepted
  | .branch _ => Option String
  | .createFile _ => String
  | .findPull _ => Option Nat
  | .createPull _ => Nat
  | .pull _ => PullView
  | .files _ => List (String × FileStatus)
  | .contents _ _ => Content
  | .review _ _ => Unit
  | .merge _ _ => Unit
  | .mainFile _ => Option Content
  | .mainRevision => String

abbrev Prog (α : Type) := System.Program Failure Ask Answer α

/-- `throw f`. -/
def throw {α : Type} (f : Failure) : Prog α := .throw f

def lift {α : Type} (x : Except Failure α) : Prog α := System.Program.lift x

/-- `await q`. -/
def await (q : Ask) : Prog (Answer q) := System.Program.await q

/-! ## Texts and documents -/

/-- `new Date(t).toISOString()`, for an instant in milliseconds. -/
def isoText (t : Int) : String :=
  let (y, m, d) := civilDate (t / 86400000)
  let ms := (t % 86400000).toNat
  let s := ms / 1000
  let year := if 0 ≤ y ∧ y ≤ 9999 then padded 4 y.toNat
    else (if y < 0 then '-' else '+') :: padded 6 y.natAbs
  String.ofList (year ++ '-' :: padded 2 m ++ '-' :: padded 2 d ++ 'T' :: padded 2 (s / 3600) ++
    ':' :: padded 2 (s / 60 % 60) ++ ':' :: padded 2 (s % 60) ++ '.' :: padded 3 (ms % 1000) ++ ['Z'])

def argocdVerificationDeclaration : Jsonb :=
  .object [("apiVersion", .ofText "v1"), ("kind", .ofText "ConfigMap"),
    ("metadata", .object [("name", .ofText "opensphere-platform-delivery-verification"),
      ("namespace", .ofText "opensphere-platform-delivery"),
      ("labels", .object [
        ("app.kubernetes.io/name", .ofText "opensphere-platform-delivery-verification"),
        ("app.kubernetes.io/part-of", .ofText "opensphere-platform-delivery"),
        ("app.kubernetes.io/managed-by", .ofText "argocd"),
        ("opensphere.io/capability", .ofText "delivery.gitops")]),
      ("annotations", .object [("opensphere.io/contract", .ofText "delivery.gitops/v1"),
        ("opensphere.io/verification-purpose", .ofText "argocd-repository-sync")])]),
    ("data", .object [("contract", .ofText "delivery.gitops/v1"),
      ("repository", .ofText "opensphere/platform-declarations"),
      ("path", .ofText "platform-delivery/verification")])]

structure Declaration where
  operationId : Uuid
  consumerId : String
  action : String
  target : String
  reason : String
  desiredState : Jsonb
  submittedAt : String

def Declaration.manifest (d : Declaration) : Jsonb :=
  .object [("apiVersion", .ofText "platform.opensphere.io/v1alpha1"), ("kind", .ofText "GovernedChange"),
    ("metadata", .object [("operationId", .ofText d.operationId.text), ("consumerId", .ofText d.consumerId),
      ("submittedAt", .ofText d.submittedAt)]),
    ("spec", .object [("action", .ofText d.action), ("target", .ofText d.target),
      ("reason", .ofText d.reason), ("desiredState", d.desiredState)])]

def declarationPath (consumerId : String) (operationId : Uuid) : String :=
  consumerId ++ "/requests/" ++ operationId.text ++ ".json"

def changeBranch (operationId : Uuid) : String := "control/" ++ operationId.text

structure Config where
  rt : FrontDoor.Runtime
  /-- The document that PostgreSQL reads of `JSON.stringify(x)`. -/
  encode : Value → Jsonb
  /-- There is an owner of modules. -/
  moduleOwner : Bool
  /-- `giteaClient.repository`. -/
  repository : String
  /-- `giteaClient.defaultBranch`. -/
  defaultBranch : String

structure Plan where
  consumerId : String
  action : String
  target : String
  desiredState : Jsonb
  templateId : Option String

/-- The fields of an execution plan without the time of its submission. -/
def Plan.fields (cfg : Config) (p : Plan) : List (String × Jsonb) :=
  [("schemaVersion", .ofText "1.0"), ("authority", .ofText "Gitea"),
    ("repository", .ofText cfg.repository), ("defaultBranch", .ofText cfg.defaultBranch),
    ("consumerId", .ofText p.consumerId), ("action", .ofText p.action), ("target", .ofText p.target),
    ("desiredState", p.desiredState), ("templateId", jsonText p.templateId)]

def Plan.execution (cfg : Config) (p : Plan) (submittedAt : String) : Jsonb :=
  .object (p.fields cfg ++ [("submittedAt", .ofText submittedAt)])

/-! ## The Gitea client -/

def shaPattern : Pattern := .repeated hexLower 40 (some 64)

/-- `failure(code, message, status, sideEffect)`. -/
def unavailable (message sideEffect : String) : Failure :=
  .fault "AuthorityUnavailable" message 503 sideEffect

def requireReady : Prog Unit := do
  match ← await .supplyChain with
  | none => return ()
  | some reason => throw (unavailable reason "none")

def boundedText (t name : String) (minimum maximum : Nat) : Except Failure String :=
  text (.string t) name minimum maximum

def segment (t name : String) : Except Failure String := do
  let normalized ← boundedText t name 1 128
  throwIf (!(chars normalized).all (orOneOf (fun c => lower c || upper c || digit c) ['.', '_', '-']))
    (fail (name ++ " contains invalid characters"))
  return normalized

/-- What `ensureProposal` returns. -/
structure GitProposal where
  branch : String
  desiredRevision : String
  pullNumber : Nat
  replayed : Bool

def ensurePull (branch desiredRevision message : String) (replayed : Bool) : Prog GitProposal := do
  let pullNumber ← match ← await (.findPull branch) with
    | some number => pure number
    | none => await (.createPull branch)
  lift (throwIf (decide (pullNumber < 1) || !Js.test shaPattern desiredRevision)
    (unavailable message "unknown"))
  return { branch, desiredRevision, pullNumber, replayed }

def ensureBranch (f : NewFile) (message : String) : Prog GitProposal := do
  match ← await (.branch f.branch) with
  | some desiredRevision => ensurePull f.branch desiredRevision message true
  | none =>
    let desiredRevision ← await (.createFile f)
    ensurePull f.branch desiredRevision message false

def ensureProposal (d : Declaration) : Prog GitProposal := do
  requireReady
  let consumer ← lift (segment d.consumerId "consumerId")
  let action ← lift (toLowerCase <$> boundedText d.action "action" 3 16)
  lift (throwIf (!actions.contains action) (fail "unsupported governed change action"))
  let target ← lift (boundedText d.target "target" 1 300)
  let reason ← lift (boundedText d.reason "reason" 8 500)
  lift (throwIf (decide (d.desiredState.typeof ≠ "object")) (fail "desiredState must be an object"))
  ensureBranch {
    branch := changeBranch d.operationId
    path := declarationPath consumer d.operationId
    content := .json { d with consumerId := consumer, action, target, reason : Declaration }.manifest
    previous := none } "Gitea did not return a durable proposal"

/-- `opensphere/platform-declarations` is the repository of the bootstrap. -/
def requireDeclarations (cfg : Config) : Except Failure Unit :=
  throwIf (decide (cfg.repository ≠ "opensphere/platform-declarations"))
    (unavailable "Argo CD verification bootstrap requires opensphere/platform-declarations" "none")

def ensureArgocdVerificationProposal (cfg : Config) (operationId : Uuid) (reason : String)
    (source : Option Content) : Prog GitProposal := do
  lift (requireDeclarations cfg)
  requireReady
  let _ ← lift (boundedText reason "reason" 8 500)
  ensureBranch {
    branch := changeBranch operationId
    path := argocdVerificationPath
    content := .json argocdVerificationDeclaration
    previous := source } "Gitea did not return a durable fixed declaration proposal"

/-- What `argocdVerificationStatus` returns. -/
structure VerificationStatus where
  ready : Bool
  mainRevision : String
  source : Option Content

def argocdVerificationStatus (cfg : Config) : Prog VerificationStatus := do
  lift (requireDeclarations cfg)
  requireReady
  let file ← await (.mainFile argocdVerificationPath)
  let revision ← await .mainRevision
  lift (throwIf (!Js.test shaPattern revision)
    (unavailable "Gitea did not return the default branch revision" "none"))
  return { ready := decide (file = some (.json argocdVerificationDeclaration)), mainRevision := revision,
           source := file }

def bindingMismatch (message : String) : Failure := .fault "ClaimBindingMismatch" message 409 "none"

def staleRevision (message : String) : Failure := .fault "StaleRevision" message 409 "none"

def verifyDeclaration (declaration : Option Declaration) (revision : String) : Prog Unit := do
  match declaration with
  | none => return ()
  | some d =>
    let consumer ← lift (segment d.consumerId "consumerId")
    match ← await (.contents (declarationPath consumer d.operationId) revision) with
    | .other _ => throw (bindingMismatch "Git declaration is not valid JSON")
    | .json actual =>
      lift (throwIf (decide (actual ≠ d.manifest))
        (bindingMismatch "Git declaration differs from the approved operation"))

def checkDeclaration (declaration : Option Declaration) (number : Nat) (view : PullView)
    (expectedRevision : String) : Prog Unit := do
  match declaration with
  | none => return ()
  | some d =>
    lift (throwIf (!Js.test shaPattern expectedRevision || decide (view.head ≠ some expectedRevision))
      (staleRevision "pull request head differs from the recorded proposal"))
    let files ← await (.files number)
    lift (throwIf (decide (files ≠ [(declarationPath d.consumerId d.operationId, .added)]))
      (bindingMismatch "pull request contains changes outside the approved declaration"))
    verifyDeclaration declaration expectedRevision

/-- What `approveAndMerge` is given. -/
structure MergeInput where
  operationId : Uuid
  branch : String
  pullNumber : Nat
  approverRef : Uuid
  reason : String
  expectedRevision : String
  declaration : Option Declaration

/-- `approveAndMerge`: the revision of the merge. -/
def approveAndMerge (i : MergeInput) : Prog String := do
  requireReady
  lift (throwIf (decide (i.branch ≠ changeBranch i.operationId)) (fail "branch is not bound to operationId"))
  lift (throwIf (decide (i.pullNumber < 1)) (fail "pullNumber is invalid"))
  let _ ← lift (boundedText i.reason "reason" 8 500)
  let view ← await (.pull i.pullNumber)
  lift (throwIf (decide (view.branch ≠ i.branch))
    (staleRevision "pull request is outside the bound change branch"))
  checkDeclaration i.declaration i.pullNumber view i.expectedRevision
  let commit := i.declaration.map fun _ => i.expectedRevision
  let view ← match view.mergeRevision with
    | some _ => pure view
    | none => do
      await (.review i.pullNumber commit)
      await (.merge i.pullNumber commit)
      await (.pull i.pullNumber)
  match view.mergeRevision with
  | none => throw (unavailable "Gitea merge is not durably observable" "unknown")
  | some revision =>
    lift (throwIf (!Js.test shaPattern revision)
      (unavailable "Gitea merge is not durably observable" "unknown"))
    verifyDeclaration i.declaration revision
    return revision

/-! ## Authority and owners -/

def assertStatusAuthority (session : Session) : Except Failure Unit := do
  throwIf (session.sessionId.isNone || session.subjectId.isNone || !session.authorityFresh ||
      !FrontDoor.safe session.permissionRevision || !FrontDoor.safe session.revokeEpoch)
    (.fault "AuthenticationRequired" "active current Console session is required" 401 "none")
  throwIf (!session.permissions.contains "console.git.change")
    (.fault "PermissionDenied" "console.git.change permission is required" 403 "none")

def assertPostMergeOwnerReady (ready : Bool) : Except Failure Unit :=
  throwIf (!ready)
    (unavailable "post-merge platform change owner is not configured; status remains read-only" "none")

def moduleTemplate : String := "console-cluster-manager-install"

def moduleDescriptor : String := "extension.cluster-manager"

def policyRejected (message : String) : Failure := .fault "PolicyRejected" message 422 "none"

/-- `^sha256:[a-f0-9]{64}$`. -/
def digestPattern : Pattern := .seq [.text "sha256:", .times hexLower 64]

def hasText (x : Jsonb) (k t : String) : Bool := decide (x.get k = some (.ofText t))

/-- `assertModuleDeclaration(proposal)`: the revision and the image that are declared. -/
def assertModuleDeclaration (p : Plan) : Except Failure (String × String) :=
  match p.desiredState.getText "catalogRevision", p.desiredState.getText "image" with
  | some revision, some image =>
    if decide (p.templateId = some moduleTemplate) && decide (p.consumerId = "console-modules") &&
        decide (p.action = "apply") && decide (p.target = moduleDescriptor) &&
        decide (Jsonb.keyCount (some p.desiredState) = 4) &&
        hasText p.desiredState "contract" "opensphere.console.git-reviewed-module/v1" &&
        hasText p.desiredState "descriptorId" moduleDescriptor && Js.test digestPattern revision &&
        Js.test FrontDoor.clusterManagerPattern image then
      .ok (revision, image)
    else .error (policyRejected "지원되는 고정 Cluster Manager 설치 선언만 실행할 수 있습니다.")
  | _, _ => .error (policyRejected "지원되는 고정 Cluster Manager 설치 선언만 실행할 수 있습니다.")

/-- What `moduleOwner.validate` returns. -/
structure NativePlan where
  catalogRevision : String
  image : String

def NativePlan.execution (p : NativePlan) : Jsonb :=
  .object [("schemaVersion", .ofText "1.0"), ("authority", .ofText "OpenSphereRegistry"),
    ("descriptorId", .ofText moduleDescriptor), ("catalogRevision", .ofText p.catalogRevision),
    ("image", .ofText p.image)]

/-- `moduleOwner.validate(proposal, correlationId)`. -/
def validateModule (p : Plan) : Prog NativePlan := do
  let (catalogRevision, image) ← lift (assertModuleDeclaration p)
  let resolved ← await (.resolveExtension catalogRevision)
  lift (throwIf (decide (resolved ≠ image)) (.fault "StaleAuthorityRevision"
    "승인 대상 이미지와 현재 검증된 이미지가 다릅니다." 409 "none"))
  return { catalogRevision, image }

/-! ## Acceptance -/

/-- `operationService.accept`. -/
def acceptOperation (cfg : Config) (session : Session) (i : AcceptInput) : Prog Authority.Accepted := do
  let edge ← await .localEdge
  let now ← await .serviceClock
  match FrontDoor.accept { cfg.rt with localEdge := edge } now session i with
  | .error f => throw (.service f)
  | .ok call => await (.accept call)

structure Call where
  session : Session
  body : Value
  idempotencyKey : Value
  correlationId : Value

def changeRequest (actionId targetRef : String) (payload : Value) (reason : String) : Value :=
  .ofList [("schemaVersion", .string "1.0"), ("actionId", .string actionId),
    ("actionVersion", .string "1.0"), ("targetRef", .string targetRef), ("payload", payload),
    ("reason", .string reason), ("risk", .string "R2"),
    ("planRevision", .string FrontDoor.policyRevision)]

def changePayload (consumerId action target : String) (desiredState : Value)
    (templateId : Option String) : Value :=
  .ofList [("consumerId", .string consumerId), ("action", .string action), ("target", .string target),
    ("desiredState", desiredState), ("templateId", (templateId.map Value.string).getD .null)]

def Proposal.plan (cfg : Config) (p : Proposal) : Plan :=
  ⟨p.consumerId, p.action, p.target, cfg.encode (.object p.desiredState), p.templateId⟩

/-- What `propose` asks the operation service to accept. -/
def proposalInput (cfg : Config) (c : Call) (p : Proposal) (native : Option NativePlan)
    (submittedAt : String) : AcceptInput where
  request := changeRequest
    (if native.isSome then "console.extension.install" else "console.platform.change.propose")
    ((native.map NativePlan.image).getD ("gitea-change:" ++ p.consumerId ++ ":" ++ p.target))
    (changePayload p.consumerId p.action p.target (.object p.desiredState) p.templateId) p.reason
  idempotencyKey := c.idempotencyKey
  correlationId := c.correlationId
  executionPlan := some ((native.map NativePlan.execution).getD ((p.plan cfg).execution cfg submittedAt))
  declarationBinding := native.map fun _ => .object ((p.plan cfg).fields cfg)

inductive Outcome where
  /-- The declaration is there already. -/
  | ready (mergeRevision : String)
  | proposed (operationId : Uuid) (duplicate : Bool) (status : String) (git : GitProposal)
  | merged (operationId : Uuid) (mergeRevision : String) (pullNumber : Nat)
      (state : Domain.OperationState) (stateVersion : Int) (duplicate : Bool)

def changeStatus : Domain.OperationState → String
  | .planned => "intent"
  | .authorized => "authorized"
  | .submitted => "committed"
  | .reconciling => "committed"
  | .applied => "applied"
  | .verified => "applied"
  | .failed => "failed"
  | _ => "unknown"

def proposalReceipt (operationId : Uuid) (git : GitProposal) (correlationId : Value) : GiteaArgs :=
  ⟨some operationId, some git.desiredRevision, some git.branch, some git.pullNumber, correlationId.toText⟩

/-! ## Proposing -/

def storedPlan (x : Jsonb) : Plan :=
  let read k := (x.getText k).getD ""
  ⟨read "consumerId", read "action", read "target", (x.get "desiredState").getD .null,
    x.getText "templateId"⟩

structure ApprovalPlan where
  plan : Plan
  submittedAt : String

def approvalPlan (cfg : Config) (o : Operation) : Except Failure ApprovalPlan := do
  let invalid := bindingMismatch "stored Gitea execution plan is invalid"
  match o.declarationBinding.or o.executionPlan with
  | none => .error invalid
  | some x =>
    let p := storedPlan x
    throwIf (!hasText x "schemaVersion" "1.0" || !hasText x "authority" "Gitea" ||
        !hasText x "repository" cfg.repository || !hasText x "defaultBranch" cfg.defaultBranch ||
        !Js.test consumerPattern p.consumerId || !actions.contains p.action ||
        decide (p.desiredState.typeof ≠ "object")) invalid
    throwIf ((decide (p.templateId = some argocdVerificationTemplateId) ||
          decide (p.target = argocdVerificationPath)) &&
        !(decide (p.consumerId = "platform-delivery") && decide (p.action = "configure") &&
          decide (p.target = argocdVerificationPath) &&
          decide (p.templateId = some argocdVerificationTemplateId) &&
          decide (p.desiredState = argocdVerificationDeclaration)))
      (bindingMismatch "stored fixed Argo CD verification plan is invalid")
    return ⟨p, if o.declarationBinding.isSome then isoText (FrontDoor.instant o.createdAt)
      else (x.getText "submittedAt").getD ""⟩

def ApprovalPlan.declaration (p : ApprovalPlan) (operationId : Uuid) (reason : String) : Declaration :=
  ⟨operationId, p.plan.consumerId, p.plan.action, p.plan.target, reason, p.plan.desiredState, p.submittedAt⟩

def ensurePlanProposal (cfg : Config) (p : ApprovalPlan) (operationId : Uuid) (reason : String)
    (source : Option Content) : Prog GitProposal :=
  if p.plan.templateId = some argocdVerificationTemplateId then
    ensureArgocdVerificationProposal cfg operationId reason source
  else ensureProposal (p.declaration operationId reason)

def moduleBound (o : Operation) : Bool :=
  o.declarationBinding.any fun b => hasText b "templateId" moduleTemplate

/-- `body` names an operation and nothing else. -/
def resumes (body : Value) : Bool :=
  match body with
  | .object ms => decide (ms.keys = ["operationId"])
  | _ => false

def requireOwner (p : Plan) : Prog NativePlan := do
  let native ← validateModule p
  let ready ← await .ownerReady
  lift (assertPostMergeOwnerReady ready)
  return native

/-- `propose` of a body that names an operation. -/
def resume (cfg : Config) (c : Call) : Prog Outcome := do
  lift (assertStatusAuthority c.session)
  let operationId ← lift (text (c.body.get "operationId") "operationId" 36 36)
  let record ← await (.get c.session operationId)
  if record.any moduleBound then
    throw (policyRejected
      "이전 Git 설치 요청은 이력으로 보존됩니다. 기능 찾기에서 현재 배포본을 설치하세요.")
  match record.filter fun o => o.declarationBinding.isSome && decide (some o.actorRef = c.session.subjectId) &&
      [.planned, .authorized].contains o.state with
  | none => throw (.fault "PermissionDenied" "요청자 본인의 병합 전 설치 선언만 재개할 수 있습니다." 403 "none")
  | some o =>
    let plan ← lift (approvalPlan cfg o)
    let _ ← requireOwner plan.plan
    let git ← ensurePlanProposal cfg plan o.operationId o.reason none
    let _ ← await (.recordProposal (proposalReceipt o.operationId git c.correlationId))
    return .proposed o.operationId true (changeStatus o.state) git

def asksModule (body : Value) : Bool :=
  FrontDoor.isString (body.get "templateId") moduleTemplate || FrontDoor.isString (body.get "target") moduleDescriptor

/-- What follows the acceptance of a proposal: its branch, its pull request and its receipt. -/
def publish (c : Call) (v : Authority.Accepted) (status : String) (git : Prog GitProposal) : Prog Outcome := do
  let git ← git
  let receipt ← await (.recordProposal (proposalReceipt v.operation.operationId git c.correlationId))
  return .proposed v.operation.operationId (v.replayed || git.replayed || receipt.replayed) status git

def propose (cfg : Config) (c : Call) : Prog Outcome := do
  if asksModule c.body then
    throw (policyRejected ("Cluster Manager 설치는 Extensions 기능 찾기의 설치 Drawer에서 진행하세요. " ++
      "별도 Git 요청·다른 운영자 승인은 폐기되었습니다."))
  else if cfg.moduleOwner && resumes c.body then resume cfg c
  else do
    let p ← lift (validateProposal c.body)
    lift (assertStatusAuthority c.session)
    let native ← if cfg.moduleOwner then some <$> requireOwner (p.plan cfg) else pure none
    if !cfg.moduleOwner then
      let ready ← await .postMergeOwnerReady
      lift (assertPostMergeOwnerReady ready)
    requireReady
    let now ← await .clock
    let v ← acceptOperation cfg c.session (proposalInput cfg c p native (isoText now))
    let submittedAt := if native.isSome then isoText (FrontDoor.instant v.operation.createdAt) else isoText now
    publish c v (if native.isSome then changeStatus v.operation.state else "authorized")
      (ensureProposal ⟨v.operation.operationId, p.consumerId, p.action, p.target, p.reason,
        cfg.encode (.object p.desiredState), submittedAt⟩)

def argocdVerificationConfirmation : String := "bootstrap argocd verification"

def validateArgocdVerificationBootstrap (body : Value) : Except Failure String := do
  exact body ["reason", "confirm"] "Argo CD verification bootstrap request"
  let reason ← text (body.get "reason") "reason" 8 500
  let confirm ← match FrontDoor.normalize ((body.get "confirm").or (.string "")) with
    | .ok t => .ok t
    | .error f => .error (.service f)
  throwIf (decide (confirm ≠ argocdVerificationConfirmation))
    (.fault "Conflict" ("confirmation must exactly equal: " ++ argocdVerificationConfirmation) 409 "none")
  return reason

def bootstrapPlan : Plan :=
  ⟨"platform-delivery", "configure", argocdVerificationPath, argocdVerificationDeclaration,
    some argocdVerificationTemplateId⟩

/-- What `bootstrapArgocdVerification` asks the operation service to accept.  The payload has the
fixed declaration as a value of the language. -/
def bootstrapInput (cfg : Config) (declaration : Value) (c : Call) (reason submittedAt : String) :
    AcceptInput where
  request := changeRequest "console.platform.change.propose"
    ("gitea-change:platform-delivery:" ++ argocdVerificationPath)
    (changePayload "platform-delivery" "configure" argocdVerificationPath declaration
      (some argocdVerificationTemplateId)) reason
  idempotencyKey := c.idempotencyKey
  correlationId := c.correlationId
  executionPlan := some (bootstrapPlan.execution cfg submittedAt)
  declarationBinding := none

def bootstrapArgocdVerification (cfg : Config) (declaration : Value) (c : Call) : Prog Outcome := do
  let reason ← lift (validateArgocdVerificationBootstrap c.body)
  lift (assertStatusAuthority c.session)
  lift (throwIf (decide (c.session.aal ≠ .aal2)) (.fault "StepUpRequired"
    "Argo CD verification bootstrap requires MFA assurance aal2" 428 "none"))
  let status ← argocdVerificationStatus cfg
  if status.ready then return .ready status.mainRevision
  else do
    let ready ← await .postMergeOwnerReady
    lift (assertPostMergeOwnerReady ready)
    let now ← await .clock
    let v ← acceptOperation cfg c.session (bootstrapInput cfg declaration c reason (isoText now))
    publish c v "authorized"
      (ensureArgocdVerificationProposal cfg v.operation.operationId reason status.source)

/-! ## Approval -/

/-- A call of `approve`. -/
structure ApproveCall extends Call where
  operationId : String

def validateApproval (body : Value) : Except Failure String := do
  exact body ["reason"] "platform change approval"
  text (body.get "reason") "reason" 8 500

def service {α : Type} : Except FrontDoor.Failure α → Except Failure α
  | .ok x => .ok x
  | .error f => .error (.service f)

/-- `assertApprovalAuthority` and `assertGiteaModuleApprovalAuthority`. -/
def approvalAuthority (cfg : Config) (c : ApproveCall) (reason : String) : Prog Uuid := do
  let development ← if cfg.moduleOwner then do
      let record ← await (.get c.session c.operationId)
      let edge ← await .localEdge
      pure (record.any fun o => moduleBound o && o.localDevelopmentModuleInstall &&
        decide (o.actionId = "console.extension.install") && decide (o.ownerRef = some "C_EXT") &&
        FrontDoor.moduleInstallationPolicy { cfg.rt with localEdge := edge } o.actionId o.targetRef)
    else pure false
  let now ← await .serviceClock
  let actorRef ← lift (service (FrontDoor.authorizeOperation c.session now
    ⟨"console.operation.approve", "R2", reason, development⟩))
  let _ ← lift (service (FrontDoor.sessionAuthority c.session))
  return actorRef

def approvalRequest (o : Operation) (reason : String) : Value :=
  .ofList [("reason", .string reason), ("approvalRevision", .string o.planRevision),
    ("expectedStateVersion", .number (decimal o.stateVersion)), ("confirmation", .null)]

/-- The operation is approved, unless it is already: whether the approval is a replay. -/
def ensureApproved (c : ApproveCall) (o : Operation) (reason : String) : Prog Bool :=
  if o.state = .planned then do
    let v ← await (.approve c.session
      ⟨c.operationId, approvalRequest o reason, c.idempotencyKey, c.correlationId⟩)
    return v.replayed
  else if o.state = .authorized ∨ o.state = .submitted then pure false
  else throw (.fault "InvalidOperationState" "platform change is not awaiting merge" 409 "none")

def approve (cfg : Config) (c : ApproveCall) : Prog Outcome := do
  if cfg.moduleOwner then
    lift (assertStatusAuthority c.session)
    let existing ← await (.get c.session c.operationId)
    if existing.any moduleBound then
      throw (policyRejected ("기존 Cluster Manager Git 설치 요청은 이력으로 보존됩니다. " ++
        "다른 운영자 승인 대신 기능 찾기의 설치 Drawer를 사용하세요."))
  let reason ← lift (validateApproval c.body)
  let actorRef ← approvalAuthority cfg c reason
  if !cfg.moduleOwner then
    let ready ← await .postMergeOwnerReady
    lift (assertPostMergeOwnerReady ready)
  let id ← lift (text (.string c.operationId) "operationId" 36 36)
  let o ← await (.getForApproval c.session actorRef id)
  let plan ← lift (approvalPlan cfg o)
  if cfg.moduleOwner then
    lift (throwIf o.declarationBinding.isNone
      (unavailable "이 변경 대상의 실행기가 연결되지 않았습니다." "none"))
    let _ ← requireOwner plan.plan
  let replayed ← ensureApproved c o reason
  let git ← ensurePlanProposal cfg plan o.operationId o.reason none
  let _ ← await (.recordProposal (proposalReceipt o.operationId git c.correlationId))
  let revision ← approveAndMerge {
    operationId := o.operationId, branch := git.branch, pullNumber := git.pullNumber
    approverRef := actorRef, reason, expectedRevision := git.desiredRevision
    declaration := if o.declarationBinding.isSome then some (plan.declaration o.operationId o.reason) else none }
  let bound ← await (.recordMerge
    ⟨some o.operationId, some revision, some git.branch, some git.pullNumber, c.correlationId.toText⟩)
  return .merged o.operationId revision git.pullNumber bound.operation.state bound.operation.stateVersion
    (replayed || bound.replayed || decide (o.state = .submitted))

end PlatformChange
