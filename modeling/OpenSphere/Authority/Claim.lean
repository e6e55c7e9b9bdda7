import OpenSphere.Authority.Accept

/-!
# Claims

`console_operation.claim_owner_operation` and `renew_owner_claim`, and the fence
that every later call of a worker repeats.  A claim picks the first outbox row
that is due, raises its epoch and leases it to the worker.  The fence compares
the row with the claim a call names by a chain of `<>`, which a NULL on either
side passes.
-/

open Sql

namespace Authority

/-! ## The fence -/

/-- The claim a worker's call names. -/
structure ClaimRef where
  workerId : Option Uuid
  outboxId : Option Int
  claimEpoch : Option Int
  operationId : Option Uuid
deriving DecidableEq

/-- The outbox row of a claim, unless the claim is stale or expired. -/
def ownerFence (s : Statement) (db : Db) (c : ClaimRef) (types : List EventType)
    (message : String) : Except SqlError Outbox := do
  let stale := exception message "40001" "StaleClaim"
  let r ← orRaise (db.outbox.lookup c.outboxId) stale
  raiseIf (.any [
    ne (some r.operationId) c.operationId,
    notIn (some r.eventType) types,
    ne r.claimOwner c.workerId,
    ne (some r.claimEpoch) c.claimEpoch,
    isNotNull r.deliveredAt,
    le r.leaseExpiresAt (some s.now)]) stale
  return r

/-- The row once its work is done. -/
def Outbox.deliver (r : Outbox) (s : Statement) : Outbox := { r with deliveredAt := some s.now }

def newReceipt (D : Digest) (s : Statement) (c : ClaimRef) (o : Operation) (phase : Phase)
    (evidence : Jsonb) : Except SqlError ExecutionReceipt := do
  let workerId ← notNull c.workerId "worker_id"
  let claimEpoch ← notNull c.claimEpoch "claim_epoch"
  return {
    executionReceiptId := s.rowId
    operationId := o.operationId
    ownerRef := "C_EXT"
    workerId, claimEpoch, phase, evidence
    evidenceDigest := D.hash evidence
    createdAt := s.now }

def extensionActions : List String :=
  ["console.extension.install", "console.extension.remove", "console.extension.revocation.create"]

/-! ## Claiming -/

/-- The arguments of `claim_owner_operation`. -/
structure ClaimArgs where
  workerId : Option Uuid
  ownerRef : Option String
  supportedActions : Option (List (Option String))
  leaseSeconds : Option Int

def claimable (s : Statement) (p : ClaimArgs) (r : Outbox) (o : Operation) : Cond :=
  .all [
    isIn (some r.eventType) [.operationReadyForDispatch, .extensionInstallObservationRequested,
      .extensionRemovalObservationRequested],
    isNull r.deliveredAt,
    .or (isNull r.leaseExpiresAt) (le r.leaseExpiresAt (some s.now)),
    .or (isNull o.declarationBinding) (isNotNull o.declarationMergeRevision),
    eq o.ownerRef p.ownerRef,
    .any ((p.supportedActions.getD []).map fun a => eq (some o.actionId) a),
    .any [
      .and (some (decide (r.eventType = .operationReadyForDispatch)))
        (isIn (some o.state) [.authorized, .submitted, .reconciling, .unknown]),
      .all [some (decide (r.eventType = .extensionInstallObservationRequested)),
        some (decide (o.actionId = "console.extension.install")),
        some (decide (o.state = .applied))],
      .all [some (decide (r.eventType = .extensionRemovalObservationRequested)),
        some (decide (o.actionId = "console.extension.remove")),
        some (decide (o.state = .applied))]]]

def earlier (best : Option Outbox) (r : Outbox) : Option Outbox :=
  match best with
  | none => some r
  | some b => if r.outboxId < b.outboxId then some r else some b

def claimCandidates (s : Statement) (p : ClaimArgs) (db : Db) : List Outbox :=
  db.outbox.rows.filter fun r =>
    decide (r.outboxId ∉ s.locked) &&
      (db.operations.lookup (some r.operationId)).any fun o => claimable s p r o == some true

/-- `ORDER BY dispatch.outbox_id FOR UPDATE OF dispatch SKIP LOCKED LIMIT 1`. -/
def nextClaim (s : Statement) (p : ClaimArgs) (db : Db) : Option Outbox :=
  (claimCandidates s p db).foldl earlier none

def resumeMode (initial : OperationState) : String :=
  if initial = .authorized then "apply" else "reconcile"

def dispatchPhase (t : EventType) : String :=
  if t = .extensionInstallObservationRequested ∨ t = .extensionRemovalObservationRequested then
    "observe"
  else "apply"

def Outbox.claim (r : Outbox) (s : Statement) (workerId : Option Uuid)
    (leaseSeconds : Option Int) : Outbox :=
  { r with
    claimOwner := workerId
    claimEpoch := r.claimEpoch + 1
    claimedAt := some s.now
    leaseExpiresAt := leaseSeconds.map fun n => s.now + seconds n
    attemptCount := r.attemptCount + 1 }

def Operation.submit (o : Operation) (s : Statement) (r : Outbox) : Operation :=
  if r.eventType = .operationReadyForDispatch ∧ o.state = .authorized then
    { o with state := .submitted, stateVersion := o.stateVersion + 1, updatedAt := s.now }
  else o

def claimEvent (p : ClaimArgs) (initial : OperationState) (r : Outbox) (o : Operation) :
    EventArgs where
  operationId := some o.operationId
  correlationId := some o.correlationId
  actorRef := p.workerId.map (·.text)
  action := "console.operation.dispatch.claim"
  targetRef := some o.targetRef
  outcome := .accepted
  reason := some ""
  evidence := .object [
    ("ownerRef", jsonText p.ownerRef),
    ("outboxId", .ofInt r.outboxId),
    ("claimEpoch", .ofInt r.claimEpoch),
    ("attemptCount", .ofInt r.attemptCount),
    ("leaseExpiresAt", jsonTime r.leaseExpiresAt),
    ("resumeMode", .ofText (resumeMode initial)),
    ("dispatchPhase", .ofText (dispatchPhase r.eventType))]

structure Claimed where
  outbox : Outbox
  operation : Operation
  resumeMode : String
  dispatchPhase : String

/-- `console_operation.claim_owner_operation`. -/
def claimOwnerOperation (D : Digest) (s : Statement) (p : ClaimArgs) (db : Db) :
    Except SqlError (Db × Option Claimed) := do
  raiseIf (.any [
      isNull p.workerId,
      some (decide (textLength (btrim (coalesce p.ownerRef "")) < 1)),
      some (decide ((p.supportedActions.getD []).length < 1)),
      notBetween p.leaseSeconds 5 300])
    (exception "invalid owner claim request" "22023" "ValidationFailed")
  raiseIf (.or (ne p.ownerRef (some "C_EXT"))
      (ne p.supportedActions (some (extensionActions.map some))))
    (exception "worker role is outside its typed owner capability" "42501"
      "ClaimBindingMismatch")
  match nextClaim s p db with
  | none => return (db, none)
  | some r => do
      -- the join has found the operation
      match db.operations.lookup (some r.operationId) with
      | none => return (db, none)
      | some o => do
          let r := r.claim s p.workerId p.leaseSeconds
          let db ← db.putOutbox r
          -- the same row again unless the dispatch found the operation Authorized
          let o' := o.submit s r
          let db ← db.putOperation o'
          let db ← appendEvent D s db (claimEvent p o.state r o')
          return (db, some ⟨r, o', resumeMode o.state, dispatchPhase r.eventType⟩)

/-! ## Renewal -/

/-- The arguments of `renew_owner_claim`. -/
structure RenewArgs where
  workerId : Option Uuid
  outboxId : Option Int
  claimEpoch : Option Int
  leaseSeconds : Option Int

/-- Whether a row is the caller's, undelivered and still leased. -/
def renewable (s : Statement) (p : RenewArgs) (db : Db) (r : Outbox) : Cond :=
  .all [
    eq r.claimOwner p.workerId,
    eq (some r.claimEpoch) p.claimEpoch,
    isNull r.deliveredAt,
    lt (some s.now) r.leaseExpiresAt,
    some ((db.operations.lookup (some r.operationId)).any fun o =>
      (eq o.ownerRef (some "C_EXT")).and (isIn (some o.actionId) extensionActions) == some true)]

def Outbox.renew (r : Outbox) (s : Statement) (leaseSeconds : Option Int) : Outbox :=
  { r with leaseExpiresAt := leaseSeconds.map fun n => s.now + seconds n }

/-- `console_operation.renew_owner_claim`. -/
def renewOwnerClaim (s : Statement) (p : RenewArgs) (db : Db) :
    Except SqlError (Db × Option Timestamp) := do
  raiseIf (notBetween p.leaseSeconds 5 300)
    (exception "invalid owner lease duration" "22023" "ValidationFailed")
  let stale := exception "owner claim is stale or expired" "40001" "StaleClaim"
  let r ← orRaise (db.outbox.lookup p.outboxId) stale
  raiseIf (some (renewable s p db r != some true)) stale
  let r := r.renew s p.leaseSeconds
  let db ← db.putOutbox r
  return (db, r.leaseExpiresAt)

end Authority
