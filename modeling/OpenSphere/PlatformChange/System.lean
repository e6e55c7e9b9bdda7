import OpenSphere.Authority.System
import OpenSphere.PlatformChange.Operations
import OpenSphere.System.Waiting

/-!
# The operations in their world

The database and the repository, and how they answer what the operations on platform changes ask.  Each
answer has a `Fate`: the request may be refused without an effect, and it may have its effect while
the answer is lost, after which the operation fails.  The operations of all replicas of the API run at
the same time; meanwhile any function of the database may be called, and others push to the repository,
open pull requests, review and merge them.
-/

open Sql
open Authority (Operation Statement Digest jsonText jsonUuid jsonInt jsonBool)
open FrontDoor (AcceptCall Session)

namespace PlatformChange

structure World where
  db : Authority.Db
  repo : Repository

/-! ## The database -/

/-- What `store.accept` writes of a bound operation. -/
def boundInput (c : AcceptCall) : Jsonb :=
  .object [
    ("localDevelopmentModuleInstall", .ofBool c.localDevelopmentModuleInstall),
    ("sessionId", jsonUuid c.args.sessionId),
    ("actorRef", jsonUuid c.args.actorRef),
    ("expectedPermissionRevision", jsonInt c.args.expectedPermissionRevision),
    ("expectedRevokeEpoch", jsonInt c.args.expectedRevokeEpoch),
    ("requiredPermission", jsonText c.args.requiredPermission),
    ("actionId", jsonText c.args.actionId),
    ("actionVersion", jsonText c.args.actionVersion),
    ("targetRef", jsonText c.args.targetRef),
    ("payloadDigest", jsonText c.args.payloadDigest),
    ("risk", jsonText c.args.risk),
    ("reason", jsonText c.args.reason),
    ("planRevision", jsonText c.args.planRevision),
    ("approvalRequired", jsonBool c.args.approvalRequired),
    ("idempotencyKey", jsonText c.args.idempotencyKey),
    ("correlationId", jsonText c.args.correlationId),
    ("sourceRevision", jsonText c.args.sourceRevision),
    ("ownerRef", jsonText c.args.ownerRef),
    ("expectedPostcondition", .ofNull c.args.expectedPostcondition),
    ("executionPlan", .ofNull c.args.executionPlan),
    ("declarationBinding", .ofNull c.declarationBinding)]

/-- The statement of `store.accept`. -/
def storeAccept (D : Digest) (s : Statement) (c : AcceptCall) (db : Authority.Db) :
    Except SqlError (Authority.Db × Authority.Accepted) :=
  if c.declarationBinding.isSome then Authority.acceptGiteaModule D s (some (boundInput c)) db
  else if c.localDevelopmentModuleInstall then Authority.acceptDevelopmentModuleInstall D s c.args db
  else Authority.acceptOperation D s c.args db

/-- Whether a recent second factor is not asked of the approver of an operation. -/
def localModuleInstall (db : Authority.Db) (o : Operation) : Cond :=
  .all [
    some o.localDevelopmentModuleInstall,
    some (decide (o.actionId = "console.extension.install")),
    eq o.ownerRef (some "C_EXT"),
    some (Authority.clusterManagerFormat o.targetRef),
    some (decide (coalesce (Authority.fieldText o.declarationBinding "templateId") "" =
      "console-cluster-manager-install")),
    some (Authority.localDevelopmentEdge db)]

/-- `console_operation.get_gitea_bound_operation_for_approval`. -/
def getBoundOperationForApproval (s : Statement) (sessionId actorRef : Option Uuid)
    (permissionRevision revokeEpoch : Option Int) (operationId : Option Uuid) (db : Authority.Db) :
    Except SqlError Operation := do
  let session ← Authority.activeSession s db sessionId actorRef
  let authority ← Authority.currentAuthority db session actorRef permissionRevision revokeEpoch
  let o ← orRaise (db.operations.lookup operationId) Authority.notFound
  raiseIf (.or (.and (Authority.notRecentAal2 s session) (.not (localModuleInstall db o)))
      (some (!Authority.hasPermission db actorRef (some "console.operation.approve")
        (some authority.permissionRevision))))
    (Authority.exception "recent approval authority is required" "42501" "PermissionDenied")
  let initiator := db.identity.subjects.lookup (some o.actorRef)
  raiseIf (.any [eq (some o.actorRef) actorRef, some initiator.isNone,
      eq (initiator.map (·.personRef)) (some authority.personRef)])
    (Authority.exception "operation initiator cannot approve the same operation" "42501"
      "SelfApprovalDenied")
  raiseIf (.any [.not (Authority.typedGitAction o), some (decide (o.actionVersion ≠ "1.0")),
      notIn (some o.state) [.planned, .authorized, .submitted]])
    (Authority.exception "operation is outside the Gitea approval boundary" "55000"
      "InvalidOperationState")
  return o

/-- `store.getGiteaOperationForApproval`, where the identifier is cast by the statement. -/
def storeGetForApproval (s : Statement) (session : Session) (actorRef : Uuid) (operationId : String)
    (db : Authority.Db) : Except SqlError Operation := do
  let id ← orRaise (castUuid operationId) (.cast "uuid")
  getBoundOperationForApproval s session.sessionId (some actorRef) (some session.permissionRevision)
    (some session.revokeEpoch) (some id) db

/-- `operationService.approve`: what it commits, and what the statement returns. -/
def serviceApprove (D : Digest) (rt : FrontDoor.Runtime) (s : Statement) (session : Session)
    (i : FrontDoor.DecisionInput) (db : Authority.Db) :
    Except FrontDoor.Failure (Authority.Db × Option Authority.Accepted) := do
  let call ← FrontDoor.approve rt s db session i
  FrontDoor.fromDatabase (if call.localDevelopmentModuleInstall then
    Authority.approveDevelopmentModuleInstall D s call.args db
  else Authority.approveOperation D s call.args db)

/-! ## Answers -/

inductive Fate where
  | answered
  /-- It fails without an effect. -/
  | refused (f : Failure)
  /-- It has its effect, and its answer is lost. -/
  | lost (f : Failure)

structure Env where
  fate : Fate
  statement : Statement
  /-- The clocks, in milliseconds. -/
  now : Int
  serviceNow : Int
  localEdge : Bool
  ready : Bool
  /-- The image that the Registry resolves. -/
  image : String
  supply : Option String
  /-- The revision of what is committed. -/
  sha : String

/-- What a request throws when Gitea answers it with a status. -/
def httpFailure (status : Nat) : Failure :=
  .fault (if status = 404 then "NotFound" else if status = 409 then "StaleRevision" else "AuthorityUnavailable")
    ("Gitea request failed with HTTP " ++ status.repr)
    (if status = 404 then 404 else if status = 409 then 409 else 503) "none"

def World.commit {α : Type} (w : World) (f : SqlError → Failure)
    (x : Except SqlError (Authority.Db × α)) : Except Failure α × World :=
  match x with
  | .ok (db, a) => (.ok a, { w with db })
  | .error e => (.error (f e), w)

def World.write {α : Type} (w : World) (status : Nat) (x : Option (Repository × α)) :
    Except Failure α × World :=
  match x with
  | some (repo, a) => (.ok a, { w with repo })
  | none => (.error (httpFailure status), w)

def World.read {α : Type} (w : World) (f : Failure) (x : Option α) : Except Failure α × World :=
  (x.elim (.error f) .ok, w)

def databaseFailure (e : SqlError) : Failure := .service (.database e)

/-- How a request is answered, if it arrives and its answer does too. -/
def reply (D : Digest) (cfg : Config) (e : Env) : (q : Ask) → World → Except Failure (Answer q) × World
  | .clock, w => (.ok e.now, w)
  | .serviceClock, w => (.ok e.serviceNow, w)
  | .localEdge, w => (.ok e.localEdge, w)
  | .postMergeOwnerReady, w => (.ok e.ready, w)
  | .ownerReady, w => (.ok e.ready, w)
  | .resolveExtension _, w => (.ok e.image, w)
  | .supplyChain, w => (.ok e.supply, w)
  | .accept c, w => w.commit databaseFailure (storeAccept D e.statement c w.db)
  | .get session id, w =>
      match FrontDoor.storeGet e.statement session id w.db with
      | .ok o => (.ok o, w)
      | .error f => (.error (.service f), w)
  | .getForApproval session actor id, w =>
      match storeGetForApproval e.statement session actor id w.db with
      | .ok o => (.ok o, w)
      | .error f => (.error (databaseFailure f), w)
  | .approve session i, w =>
      match serviceApprove D { cfg.rt with localEdge := e.localEdge } e.statement session i w.db with
      | .ok (db, some v) => (.ok v, { w with db })
      | .ok (db, none) => (.error (.service (.fail "AuthorityUnavailable"
          "approve_operation returned no receipt" (some 503))), { w with db })
      | .error f => (.error (.service f), w)
  | .recordProposal p, w => w.commit databaseFailure (Authority.recordGiteaProposal D e.statement p w.db)
  | .recordMerge p, w => w.commit databaseFailure (Authority.recordGiteaMerge D e.statement p w.db)
  | .branch name, w => (.ok (w.repo.head name), w)
  | .createFile f, w => w.write 422
      ((w.repo.createFile f.branch f.path f.content f.previous e.sha).map fun r => (r, e.sha))
  | .findPull b, w => (.ok ((w.repo.pullOf b).map (·.number)), w)
  | .createPull b, w => w.write 409 ((w.repo.createPull b).map fun x => (x.1, x.2.number))
  | .pull n, w => w.read (httpFailure 404) ((w.repo.pull n).map fun p =>
      ⟨p.branch, w.repo.headOf p, p.merged.map (·.2)⟩)
  | .files n, w => w.read (httpFailure 404) (do
      let p ← w.repo.pull n
      let h ← w.repo.headOf p
      let c ← w.repo.commit h
      return c.changes)
  | .contents path revision, w => w.read (httpFailure 404) (do
      let c ← w.repo.commit revision
      c.tree.lookup path)
  | .review n _, w => w.write 404 ((w.repo.review n).map fun r => (r, ()))
  | .merge n head, w => w.write 405 ((w.repo.merge n head e.sha).map fun r => (r, ()))
  | .mainFile path, w => (.ok (w.repo.main.lookup path), w)
  | .mainRevision, w => (.ok w.repo.mainRevision, w)

def answer (D : Digest) (cfg : Config) (e : Env) (q : Ask) (w : World) :
    Except Failure (Answer q) × World :=
  match e.fate with
  | .answered => reply D cfg e q w
  | .refused f => (.error f, w)
  | .lost f => (.error f, (reply D cfg e q w).2)

/-! ## What others do -/

inductive Other where
  /-- The database does something. -/
  | database (a : Authority.Action)
  | push (branch : String) (c : Commit)
  | openPull (branch : String)
  | review (number : Nat)
  | merge (number : Nat) (headCommit : Option String) (sha : String)

def Other.change (D : Digest) (x : Other) (w : World) : World :=
  match x with
  | .database a => { w with db := Authority.perform D a w.db }
  | .push branch c => { w with repo := w.repo.push branch c }
  | .openPull branch => { w with repo := (w.repo.createPull branch).elim w.repo (·.1) }
  | .review n => { w with repo := (w.repo.review n).getD w.repo }
  | .merge n h sha => { w with repo := (w.repo.merge n h sha).getD w.repo }

/-- The operations on platform changes that are under way. -/
abbrev Tasks (τ : Type) := System.Pool Failure Ask Answer Outcome τ World

abbrev Runs (τ : Type) := System.Setting Failure Ask Answer Outcome τ World Env Other

end PlatformChange
