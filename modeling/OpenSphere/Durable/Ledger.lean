import Mathlib.Data.List.Sort
import OpenSphere.Durable.Phase
import OpenSphere.Js.Text

/-!
# The ledger of durable operations

The tables `console.module_operation` and `console.module_operation_approval`, with the functions
`claim_module_operation` and `heartbeat_module_operation` and the requests of the operation store.
Every call is one transaction, so a claim finds no row that another one has locked.

The clock of the database only moves forward.  The history is not in the database: it says who
claimed an operation, who stored which phase, and who called its owner.
-/

open Sql

namespace Durable

/-! ## Rows -/

/-- The column `requested_risk_class`. -/
inductive RiskClass where
  | r0
  | r1
  | r2
  | r3
deriving DecidableEq, Repr

/-- What the columns of an operation say that no worker changes. -/
structure Terms where
  action : String
  actorId : String
  authSessionId : Option String
  authzRevision : Option String
  toolId : String
  verifierId : String
  ownerRoute : String
  riskClass : Option RiskClass
  requiredAssurance : Option String
  requiredPermission : Option String
  idempotencyKey : String
  bindingDigest : Option String
  /-- `precondition.target`. -/
  target : Js.Value
  reason : String
  deadlineAt : Option Timestamp

/-- A row of `console.module_operation`. -/
structure Row where
  operationId : Uuid
  terms : Terms
  phase : Phase
  executionState : ExecutionState
  verificationState : VerificationState
  claimOwner : Option String
  claimEpoch : Option Int
  leaseExpiresAt : Option Timestamp
  nextAttemptAt : Timestamp
  attempt : Nat
  downstreamIdempotencyKey : Option String
  createdAt : Timestamp

/-- A row of `console.module_operation_approval`. -/
structure Approval where
  operationId : Uuid
  approverId : String
  assurance : String
  authSessionId : Option String
  authzRevision : Option String
  revoked : Bool
deriving DecidableEq

/-- A worker process with the epoch of its claims. -/
structure Claimant where
  worker : String
  epoch : Int
deriving DecidableEq, Repr

inductive Entry where
  /-- A claim took the operation over. -/
  | claimed (c : Claimant) (id : Uuid) (before : Phase)
  /-- The holder of the claim stored a phase. -/
  | stored (c : Claimant) (id : Uuid) (phase : Phase)
  /-- A worker called the owner. -/
  | invoked (c : Claimant) (id : Uuid)
deriving DecidableEq

structure Ledger where
  clock : Timestamp
  rows : List Row
  approvals : List Approval
  history : List Entry

def Ledger.row (w : Ledger) (id : Uuid) : Option Row := w.rows.find? fun r => r.operationId = id

/-- The claim of an operation is the worker's. -/
def Row.heldBy (r : Row) (c : Claimant) : Bool :=
  r.claimOwner = some c.worker && r.claimEpoch = some c.epoch

def Ledger.update (w : Ledger) (f : Row → Row) : Ledger := { w with rows := w.rows.map f }

/-- The time that passes before a statement. -/
def Ledger.advance (w : Ledger) (elapsed : Nat) : Ledger := { w with clock := w.clock + elapsed }

/-! ## Acceptance -/

/-- `insert(row)`, with the clock of the database as `next_attempt_at`. -/
def Ledger.accept (w : Ledger) (id : Uuid) (terms : Terms) : Ledger :=
  if w.rows.any fun r => r.operationId = id || r.terms.idempotencyKey = terms.idempotencyKey then w
  else
    let approvalRequired := terms.riskClass = some .r2 || terms.riskClass = some .r3
    { w with rows := w.rows ++ [{
        operationId := id
        terms
        phase := if approvalRequired then .awaitingApproval else .queued
        executionState := if approvalRequired then .awaitingApproval else .accepted
        verificationState := .pending
        claimOwner := none
        claimEpoch := none
        leaseExpiresAt := none
        nextAttemptAt := w.clock
        attempt := 0
        downstreamIdempotencyKey := none
        createdAt := w.clock }] }

/-- `approve(id, item)`: the row of the approver is merged, and a revocation stays. -/
def Ledger.approve (w : Ledger) (a : Approval) : Ledger :=
  if w.approvals.any fun b => b.operationId = a.operationId && b.approverId = a.approverId then
    { w with approvals := w.approvals.map fun b =>
        if b.operationId = a.operationId && b.approverId = a.approverId then { a with revoked := b.revoked }
        else b }
  else { w with approvals := w.approvals ++ [{ a with revoked := false }] }

def Ledger.revoke (w : Ledger) (id : Uuid) (approverId : String) : Ledger :=
  { w with approvals := w.approvals.map fun b =>
      if b.operationId = id && b.approverId = approverId then { b with revoked := true } else b }

/-- The update of `queue`, at the clock of the API. -/
def Row.queue (id : Uuid) (nextAttemptAt : Timestamp) (r : Row) : Row :=
  if r.operationId = id && r.phase = .awaitingApproval then
    { r with phase := .queued, executionState := .accepted, nextAttemptAt }
  else r

def Ledger.queue (w : Ledger) (id : Uuid) (nextAttemptAt : Timestamp) : Ledger :=
  w.update (Row.queue id nextAttemptAt)

/-! ## Claims -/

def lease : Int := 30000000

def Ledger.approvers (w : Ledger) (id : Uuid) : List String :=
  ((w.approvals.filter fun a => a.operationId = id && !a.revoked && a.assurance = "aal2").map
    Approval.approverId).dedup

/-- The approvals that the class of an operation needs.  An operation of no class has none. -/
def Ledger.approved (w : Ledger) (r : Row) : Bool :=
  match r.terms.riskClass with
  | some .r0 | some .r1 => true
  | some .r2 => 1 ≤ (w.approvers r.operationId).length
  | some .r3 => 2 ≤ (w.approvers r.operationId).length
  | none => false

/-- The deadline is not over.  An operation without one is never claimed. -/
def Row.inTime (now : Timestamp) (r : Row) : Bool := r.terms.deadlineAt.any (now < ·)

def Row.overdue (now : Timestamp) (r : Row) : Bool := r.terms.deadlineAt.any (· ≤ now)

def Row.unleased (now : Timestamp) (r : Row) : Bool := r.leaseExpiresAt.all (· < now)

/-- Operations that other workers carry out. -/
def remediation : String := "engineering-remediation"

def Row.expire (now : Timestamp) (r : Row) : Row :=
  if r.overdue now && r.terms.action ≠ remediation && r.phase.expires then
    { r with phase := .timedOut, executionState := .timedOut }
  else r

def Ledger.candidate (w : Ledger) (r : Row) : Bool :=
  r.terms.action ≠ remediation && r.phase.claimable && r.nextAttemptAt ≤ w.clock &&
    r.inTime w.clock && r.unleased w.clock && w.approved r

/-- `greatest(1, least(p_limit, 50))`. -/
def claimLimit (limit : Int) : Nat := (max 1 (min limit 50)).toNat

def Ledger.selected (w : Ledger) (limit : Int) : List Uuid :=
  (((w.rows.filter w.candidate).insertionSort fun r r' => r.createdAt ≤ r'.createdAt).take
    (claimLimit limit)).map Row.operationId

def Phase.claim : Phase → Phase
  | .queued => .claimed
  | .running => .ambiguous
  | p => p

def Row.claim (c : Claimant) (now : Timestamp) (r : Row) : Row :=
  { r with
    phase := r.phase.claim
    executionState := match r.phase with
      | .queued => .claimed
      | .running => .ambiguous
      | _ => r.executionState
    claimOwner := some c.worker
    claimEpoch := some c.epoch
    leaseExpiresAt := some (now + lease)
    attempt := r.attempt + 1 }

def Ledger.take (w : Ledger) (c : Claimant) (ids : List Uuid) : List Row × Ledger :=
  let claimed := (w.rows.filter fun r => ids.contains r.operationId).map (Row.claim c w.clock)
  (claimed, {
    (w.update fun r => if ids.contains r.operationId then r.claim c w.clock else r) with
    history := w.history ++ (w.rows.filter fun r => ids.contains r.operationId).map fun r =>
      .claimed c r.operationId r.phase })

def Ledger.expire (w : Ledger) : Ledger := w.update (Row.expire w.clock)

/-- `console.claim_module_operation`. -/
def Ledger.claim (w : Ledger) (c : Claimant) (limit : Int) : Except Failure (List Row) × Ledger :=
  if textLength (btrim c.worker) < 3 ∨ c.epoch < 1 then (.error ⟨"", false⟩, w)
  else
    let w := w.expire
    (.ok (w.take c (w.selected limit)).1, (w.take c (w.selected limit)).2)

/-! ## The requests of a worker -/

def Row.beat (c : Claimant) (id : Uuid) (now : Timestamp) (r : Row) : Row :=
  if r.operationId = id && r.heldBy c && !r.phase.heartless then
    { r with leaseExpiresAt := some (now + lease) }
  else r

/-- `console.heartbeat_module_operation`. -/
def Ledger.heartbeat (w : Ledger) (c : Claimant) (id : Uuid) : Bool × Ledger :=
  (w.rows.any fun r => r.operationId = id && r.heldBy c && !r.phase.heartless,
    w.update (Row.beat c id w.clock))

/-- What a request about a claim throws that is not the worker's. -/
def claimLeaseLost : Failure := ⟨"ClaimLeaseLost", false⟩

def Row.claimed (c : Claimant) (id : Uuid) (r : Row) : Bool := r.operationId = id && r.heldBy c

/-- The update of `recordDownstreamIntent`. -/
def Row.intend (c : Claimant) (id : Uuid) (key : String) (r : Row) : Row :=
  if r.claimed c id then { r with downstreamIdempotencyKey := some key } else r

def Ledger.recordDownstreamIntent (w : Ledger) (c : Claimant) (id : Uuid) (key : String) :
    Except Failure Unit × Ledger :=
  if w.rows.any (Row.claimed c id) then (.ok (), w.update (Row.intend c id key))
  else (.error claimLeaseLost, w)

/-- The update of `setPhase`. -/
def Row.store (c : Claimant) (id : Uuid) (next : WorkerPhase) (p : Phase × ExecutionState) (r : Row) :
    Row :=
  if r.claimed c id then
    { r with
      phase := p.1
      executionState := p.2
      verificationState := (verificationOf next).getD r.verificationState }
  else r

def Ledger.setPhase (w : Ledger) (c : Claimant) (id : Uuid) (next : WorkerPhase) :
    Except Failure Unit × Ledger :=
  match phaseToDb next with
  | none => (.error ⟨"", false⟩, w)
  | some p =>
      if w.rows.any (Row.claimed c id) then
        (.ok (), { w.update (Row.store c id next p) with history := w.history ++ [.stored c id p.1] })
      else (.error claimLeaseLost, w)

end Durable
