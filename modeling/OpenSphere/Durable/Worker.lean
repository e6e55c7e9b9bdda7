import OpenSphere.Durable.Ledger
import OpenSphere.System.Program

/-!
# The worker of durable operations

`process` carries one claimed operation through its phases: it asks for the session and the
approvals, checks the live target, calls the owner, and has the result verified.  Every change of
phase is a `step`, which shows the lease, checks the transition, and stores a step and the phase.

The timer of the worker sends heartbeats by itself and remembers one that was not kept.  A request
`leaseLost` reads what it remembers, and its heartbeats are changes from outside.
-/

open Sql
open System (Program)

namespace Durable

/-! ## What a worker reads -/

/-- What `sessions.resolve` answers. -/
structure Session where
  active : Bool
  actorId : String
  authzRevision : Option String
  permissions : List String
  assurance : Option String
  /-- `Date.parse(lastReauthenticatedAt)`, unless it is no date. -/
  lastReauthenticatedAt : Option Int
  accessToken : String
deriving DecidableEq

/-- What `authority.read` answers. -/
structure Live where
  fresh : Bool
  snapshotComplete : Bool
  uid : String
  generation : Option Int
  resourceVersion : Option String
  desiredRevision : Option String
deriving DecidableEq

/-- What `verifiers.verify` answers. -/
inductive Verdict where
  | succeeded
  | failed
  | other
deriving DecidableEq, Repr

structure Operation where
  operationId : Uuid
  phase : WorkerPhase
  terms : Terms

structure Target where
  uid : String
  generation : Option Int
  resourceVersion : Option String
  desiredRevision : Option String

inductive StepType where
  | claim
  | authorization
  | authorizationDelegation
  | idempotency
  | precondition
  | ownerCall
  | receipt
  | reconcile
  | verification
  | terminal
deriving DecidableEq, Repr

def StepType.stored : StepType → Bool
  | .authorizationDelegation | .idempotency => false
  | _ => true

inductive StepStatus where
  | running
  | succeeded
  | failed
  | blocked
  | inconclusive
deriving DecidableEq, Repr

/-! ## Requests -/

inductive Ask where
  | claim (limit : Int)
  | leaseLost (id : Uuid)
  | heartbeat (id : Uuid)
  | appendStep (id : Uuid) (type : StepType) (phase : WorkerPhase) (status : StepStatus) (code : String)
  | setPhase (id : Uuid) (phase : WorkerPhase)
  | recordDownstreamIntent (id : Uuid) (downstreamKey : String)
  | getApprovals (id : Uuid)
  | resolveSession (authSessionId : Option String) (actorId : String)
  | now
  | readAuthority (target : Js.Value) (accessToken : String)
  /-- `owners.invoke` with the terms of the operation. -/
  | invoke (id : Uuid) (downstreamKey : String) (terms : Terms) (accessToken : String)
  | reconcile (ownerRoute downstreamKey : String) (target : Js.Value) (accessToken : String)
  | verify (verifierId : String) (target : Js.Value) (receipt : Js.Value) (accessToken : String)

abbrev Ask.Answer : Ask → Type
  | .claim _ => List Row
  | .leaseLost _ => Bool
  | .heartbeat _ => Bool
  | .appendStep .. => Unit
  | .setPhase .. => Unit
  | .recordDownstreamIntent .. => Unit
  | .getApprovals _ => List Approval
  | .resolveSession .. => Option Session
  | .now => Int
  | .readAuthority .. => Option Live
  | .invoke .. => Js.Value
  | .reconcile .. => Option Js.Value
  | .verify .. => Verdict

structure Query where
  worker : Claimant
  ask : Ask

abbrev Query.Answer (q : Query) : Type := q.ask.Answer

abbrev Run := Program Failure Query Query.Answer

/-- `await` of a request. -/
def request (c : Claimant) (a : Ask) : Run a.Answer := Program.await (⟨c, a⟩ : Query)

/-! ## Checks -/

def fiveMinutes : Int := 300000

def activeApprovers (approvals : List Approval) : List String :=
  ((approvals.filter fun a => !a.revoked && a.assurance = "aal2").map Approval.approverId).dedup

def requiredApprovals : Option RiskClass → Nat
  | some .r2 => 1
  | some .r3 => 2
  | _ => 0

/-- The session was reauthenticated within five minutes. -/
def Session.recent (s : Session) (now : Int) : Bool :=
  s.lastReauthenticatedAt.any fun t => now - t ≤ fiveMinutes

/-- What `authorizeAtExecution` decides. -/
inductive Authorization where
  /-- `allowed: true`, with the approver who executes it, if that is not the actor. -/
  | allowed (accessToken : String) (executionActorId : Option String)
  | refused (phase : WorkerPhase) (code : String)
deriving DecidableEq

def authorizeAtExecution (t : Terms) (session : Option Session) (approvals : List Approval) (now : Int) :
    Authorization :=
  match session with
  | none => .refused .authorizationExpired "AuthorizationExpired"
  | some s =>
      if !s.active || s.actorId ≠ t.actorId then .refused .authorizationExpired "AuthorizationExpired"
      else if s.authzRevision.getD "" ≠ t.authzRevision.getD "" then
        .refused .authorizationExpired "AuthorizationRevisionChanged"
      else if !s.permissions.contains ((t.requiredPermission.filter (· ≠ "")).getD ("r2d2:" ++ t.action))
      then
        .refused .preflightBlocked "PermissionDenied"
      else if t.requiredAssurance = some "aal2" && s.assurance ≠ some "aal2" then
        .refused .authorizationExpired "AssuranceExpired"
      else if t.requiredAssurance = some "aal2" && !s.recent now then
        .refused .authorizationExpired "RecentAssuranceRequired"
      else if t.riskClass = some .r2 && (activeApprovers approvals).length < 1 then
        .refused .preflightBlocked "ApprovalRequired"
      else if t.riskClass = some .r3 && (activeApprovers approvals).length < 2 then
        .refused .preflightBlocked "TwoPersonApprovalRequired"
      else .allowed s.accessToken none

/-- The target of a stored operation.  `accept` stores texts and a number. -/
def Terms.liveTarget (t : Terms) : Target where
  uid := ((t.target.get "uid").toText).getD ""
  generation := match t.target.get "generation" with
    | .number n => n.toInt?
    | _ => none
  resourceVersion := match t.target.get "resourceVersion" with
    | .string s => some s
    | _ => none
  desiredRevision := match t.target.get "desiredRevision" with
    | .string s => some s
    | _ => none

/-- `checkLivePreconditions(operation, live)`, with the code of a failure. -/
def checkLivePreconditions (t : Target) : Option Live → Except String Unit
  | none => .error "AuthorityUnavailable"
  | some live =>
      if !live.fresh || !live.snapshotComplete then .error "AuthorityUnavailable"
      else if live.uid ≠ t.uid then .error "TargetUidChanged"
      else if t.generation.isSome && live.generation ≠ t.generation then .error "TargetGenerationChanged"
      else if t.resourceVersion.any (· ≠ "") && live.resourceVersion.getD "undefined" ≠ t.resourceVersion.getD ""
      then .error "TargetRevisionChanged"
      else if t.desiredRevision.any (· ≠ "") && live.desiredRevision.getD "undefined" ≠ t.desiredRevision.getD ""
      then .error "DesiredRevisionChanged"
      else .ok ()

/-- `/^[A-Za-z0-9][A-Za-z0-9._:-]{7,159}$/`. -/
def downstreamKeyFormat (key : String) : Bool :=
  match chars key with
  | [] => false
  | c :: cs => c.isAlphanum && decide (7 ≤ cs.length ∧ cs.length ≤ 159) &&
      cs.all fun d => d.isAlphanum || ['.', '_', ':', '-'].contains d

/-- `String(operation.idempotencyKey || '').trim()`. -/
def Terms.downstreamKey (t : Terms) : String := Js.trim t.idempotencyKey

/-! ## Steps -/

/-- What `process` returns. -/
structure Outcome where
  phase : WorkerPhase
  ownerCalled : Bool
  code : String
deriving DecidableEq

section

variable (c : Claimant) (o : Operation)

def requireLease : Run Unit := do
  let lost : Bool ← request c (.leaseLost o.operationId)
  if lost then .throw claimLeaseLost
  else
    let kept : Bool ← request c (.heartbeat o.operationId)
    if kept then return () else .throw claimLeaseLost

/-- `step(next, type, status, evidence)`, with the code of the evidence. -/
def step (phase next : WorkerPhase) (type : StepType) (status : StepStatus) (code : String) :
    Run WorkerPhase := do
  requireLease c o
  let phase ← .lift (transitionPhase phase next)
  request c (.appendStep o.operationId type phase status code)
  request c (.setPhase o.operationId next)
  return phase

/-- `if (due) await step(next, type, status, evidence)`. -/
def stepIf (due : Bool) (phase next : WorkerPhase) (type : StepType) (status : StepStatus)
    (code : String) : Run WorkerPhase :=
  if due then step c o phase next type status code else pure phase

/-- `stopBeforeMutationIfExpired()`, with the phase of an operation that was stopped. -/
def stopIfExpired (phase : WorkerPhase) : Run (Option WorkerPhase) := do
  let now : Int ← request c .now
  if o.terms.deadlineAt.any fun d => d / 1000 ≤ now then
    some <$> step c o phase .timedOut .terminal .blocked "OperationDeadlineExceeded"
  else return none

/-! ## Authorization -/

def Approval.independent (a : Approval) (t : Terms) : Bool :=
  !a.revoked && a.assurance = "aal2" && a.authSessionId.any (· ≠ "") && a.approverId ≠ t.actorId

def Session.executes (s : Session) (a : Approval) (t : Terms) (now : Int) : Bool :=
  s.active && s.assurance = some "aal2" && s.recent now &&
    s.authzRevision.getD "" = a.authzRevision.getD "" && t.requiredPermission.any s.permissions.contains

/-- The first independent approver whose session may carry out the operation. -/
def delegate (refused : Authorization) : List Approval → Run Authorization
  | [] => return refused
  | a :: as => do
      if a.independent o.terms then
        let session ← request c (.resolveSession a.authSessionId a.approverId)
        let now ← request c .now
        match session with
        | some s =>
            if s.executes a o.terms now then return .allowed s.accessToken (some a.approverId)
            else delegate refused as
        | none => delegate refused as
      else delegate refused as

def authorize : Run Authorization := do
  let session ← request c (.resolveSession o.terms.authSessionId o.terms.actorId)
  let approvals ← request c (.getApprovals o.operationId)
  let now ← request c .now
  match authorizeAtExecution o.terms session approvals now with
  | .allowed token actor => return .allowed token actor
  | .refused phase code =>
      if ["AssuranceExpired", "RecentAssuranceRequired"].contains code &&
          1 ≤ requiredApprovals o.terms.riskClass &&
          requiredApprovals o.terms.riskClass ≤ (activeApprovers approvals).length then
        delegate c o (.refused phase code) approvals
      else return .refused phase code

def refuse (phase next : WorkerPhase) (code : String) : Run Outcome := do
  if phase.sent then
    let phase ← stepIf c o (phase = .executing) phase .ambiguous .ownerCall .inconclusive
      "RecoveredExecutingLease"
    let phase ← step c o phase .inconclusive .authorization .blocked (code ++ "AfterOwnerCall")
    return ⟨phase, false, code⟩
  else
    let phase ← step c o phase next .authorization .blocked code
    return ⟨phase, false, code⟩

/-! ## The owner -/

def conclude (phase : WorkerPhase) (receipt : Js.Value) (token : String) (ownerCalled : Bool) :
    Run Outcome := do
  requireLease c o
  match ← request c (.verify o.terms.verifierId o.terms.target receipt token) with
  | .succeeded =>
      let phase ← step c o phase .succeeded .verification .succeeded ""
      return ⟨phase, ownerCalled, "succeeded"⟩
  | .failed =>
      let phase ← step c o phase .verificationFailed .verification .failed ""
      return ⟨phase, ownerCalled, "failed"⟩
  | .other =>
      let phase ← step c o phase .inconclusive .verification .inconclusive ""
      return ⟨phase, ownerCalled, "inconclusive"⟩

def settle (phase : WorkerPhase) (receipt : Option Js.Value) (token : String) (ownerCalled : Bool) :
    Run Outcome := do
  let reconcile := Ask.reconcile o.terms.ownerRoute o.terms.downstreamKey o.terms.target token
  if phase = .executing then
    let phase ← step c o phase .verifying .receipt .succeeded ""
    conclude c o phase (receipt.getD .null) token ownerCalled
  else if phase = .verifying then
    match ← request c reconcile with
    | none =>
        let phase ← step c o phase .inconclusive .reconcile .inconclusive
          "OwnerReceiptUnavailableDuringVerificationResume"
        return ⟨phase, ownerCalled, "OwnerReceiptUnavailableDuringVerificationResume"⟩
    | some receipt => conclude c o phase receipt token ownerCalled
  else
    let phase ← stepIf c o (phase = .ambiguous) phase .reconciling .reconcile .running ""
    requireLease c o
    match ← request c reconcile with
    | none =>
        let phase ← step c o phase .inconclusive .reconcile .inconclusive "OwnerOutcomeUnknown"
        return ⟨phase, ownerCalled, "OwnerOutcomeUnknown"⟩
    | some receipt =>
        let phase ← step c o phase .verifying .receipt .succeeded ""
        conclude c o phase receipt token ownerCalled

def call (phase : WorkerPhase) (token : String) :
    Run (Outcome ⊕ (WorkerPhase × Option Js.Value)) :=
  Program.tryCatch
    (do
      let receipt ← request c (.invoke o.operationId o.terms.downstreamKey o.terms token)
      requireLease c o
      return .inr (phase, some receipt))
    fun e => do
      if e.code = "ClaimLeaseLost" then .throw e
      else if e.ambiguous then
        let phase ← step c o phase .ambiguous .ownerCall .inconclusive "AmbiguousOwnerOutcome"
        return .inr (phase, none)
      else
        let phase ← step c o phase .failed .ownerCall .failed e.code
        return .inl ⟨phase, true, e.code⟩

/-- The way to the call of the owner, with the operation that stops before it. -/
def mutate (phase : WorkerPhase) (token : String) :
    Run (Outcome ⊕ (WorkerPhase × Option Js.Value)) := do
  let live ← request c (.readAuthority o.terms.target token)
  match checkLivePreconditions o.terms.liveTarget live with
  | .error code =>
      let phase ← step c o phase .preflightBlocked .precondition .blocked code
      return .inl ⟨phase, false, code⟩
  | .ok _ =>
      match ← stopIfExpired c o phase with
      | some phase => return .inl ⟨phase, false, "OperationDeadlineExceeded"⟩
      | none =>
          let phase ← step c o phase .executing .precondition .succeeded ""
          match ← stopIfExpired c o phase with
          | some phase => return .inl ⟨phase, false, "OperationDeadlineExceeded"⟩
          | none =>
              requireLease c o
              request c (.recordDownstreamIntent o.operationId o.terms.downstreamKey)
              call c o phase token

def execute (phase : WorkerPhase) (token : String) (actor : Option String) : Run Outcome := do
  let phase ← stepIf c o actor.isSome phase phase .authorizationDelegation .succeeded
    "AuthorizedByIndependentApprover"
  if !downstreamKeyFormat o.terms.downstreamKey then
    let phase ← step c o phase .preflightBlocked .idempotency .failed "StableIdempotencyKeyRequired"
    return ⟨phase, false, "StableIdempotencyKeyRequired"⟩
  else if phase.sent then settle c o phase none token false
  else
    match ← mutate c o phase token with
    | .inl outcome => return outcome
    | .inr (phase, receipt) => settle c o phase receipt token true

/-! ## Runs -/

/-- The deadline before anything was sent. -/
def stopEarly (phase : WorkerPhase) : Run (Option WorkerPhase) :=
  if phase.sent then return none else stopIfExpired c o phase

def process : Run Outcome := do
  let phase ← stepIf c o (o.phase = .accepted || o.phase = .awaitingApproval) o.phase .claimed .claim
    .succeeded ""
  match ← stopEarly c o phase with
  | some phase => return ⟨phase, false, "OperationDeadlineExceeded"⟩
  | none =>
      let phase ← stepIf c o (phase = .claimed) phase .preflighting .authorization .running ""
      match ← authorize c o with
      | .refused next code => refuse c o phase next code
      | .allowed token actor => execute c o phase token actor

end

def supportedActions : List String :=
  ["restart-workload", "scale-workload", "rollback-image", "run-cronjob", "run-recovery-drill",
    "owner-recover", "retry-delivery", "create-postgres-cluster"]

/-- `workerOperation(row)`: the confirmation of an action without descriptor throws. -/
def workerOperation (r : Row) : Except Failure Operation :=
  if supportedActions.contains r.terms.action then .ok ⟨r.operationId, workerPhase r.phase, r.terms⟩
  else .error ⟨"DescriptorNotFound", false⟩

/-- `for (const operation of operations) await worker.process(operation)`. -/
def processAll (c : Claimant) : List Operation → Run Unit
  | [] => return ()
  | o :: os => do
      let _ ← process c o
      processAll c os

def poll (c : Claimant) (limit : Int) : Run Unit := do
  let rows ← request c (.claim limit)
  let operations ← .lift (rows.mapM workerOperation)
  processAll c operations

end Durable
