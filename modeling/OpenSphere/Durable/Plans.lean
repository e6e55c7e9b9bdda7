import OpenSphere.Durable.Descriptor
import OpenSphere.PlatformChange.Operations
import OpenSphere.System.Program

/-!
# Plans and acceptance

The API of durable operations: `plan` resolves the target of a request and, for a PostgreSQL cluster,
stores a plan, and `accept` stores an operation, either of a plan that was shown or of the request
itself.

The store speaks to PostgREST.  A column of the type `jsonb` is returned with its members in another
order, `uuid` in lower case and `timestamptz` in the form of PostgREST.  An insertion that ignores
duplicates and names no columns ignores a row with the same primary key, and fails for a row with the
same value in a unique column.
-/

open Sql Js
open PlatformChange (isoText)
open System (Program)

namespace Durable

/-! ## Rows -/

/-- A row of `console.module_operation_plan`. -/
structure PlanRow where
  planId : String
  actorId : Uuid
  authSessionId : Uuid
  action : String
  descriptorRevision : String
  descriptorDigest : String
  planDigest : String
  targetRevision : String
  riskClass : RiskClass
  requiredAssurance : String
  expectedConfirmation : String
  target : Value
  requestPayload : Value
  expectedPostcondition : Value
  /-- In milliseconds. -/
  expiresAt : Int
  consumedOperationId : Option Uuid

/-- A row of `console.module_operation` as `accept` inserts it. -/
structure OperationRow where
  operationId : Uuid
  idempotencyKey : String
  action : String
  actorId : Uuid
  reason : String
  assurance : String
  riskClass : RiskClass
  targetFingerprint : String
  descriptorRevision : String
  descriptorDigest : String
  toolId : String
  verifierId : String
  target : Value
  ownerRoute : String
  requiredPermission : String
  confirmationDigest : String
  requiredAssurance : String
  authSessionId : String
  authzRevision : String
  /-- In milliseconds. -/
  deadlineAt : Int
  dialogueStateDigest : Option String
  dialogueConversationId : Option String
  dialogueRevision : Option String
  planId : Option String
  planDigest : Option String
  expectedPostcondition : Value
  incidentId : Option String

structure Tables where
  plans : List PlanRow
  operations : List OperationRow

/-! ## What the API reads -/

/-- The actor of a request, by the texts that the API reads. -/
structure Actor where
  /-- `String(actor.sub || actor.subject || '')`. -/
  actorId : String
  /-- `String(actor.browserSessionId || actor.authSessionId || '')`. -/
  authSessionId : String
  /-- `actor.assurance || 'aal1'`. -/
  assurance : String
  /-- `Date.parse(actor.lastReauthenticatedAt)`, unless it is no date. -/
  reauthenticatedAt : Option Int
  /-- `String(actor.credentialRevision || actor.authzRevision || 0)`. -/
  authzRevision : String

structure Projection where
  stateDigest : Option String
  domain : String
  intent : String
  phase : String
  targetNamespace : String
  targetName : String
  revision : String

structure Body where
  action : String
  target : Value
  reason : String
  confirmation : String
  bindingDigest : String
  planId : String
  planDigest : String
  /-- The header `x-os-idempotency-key`, or `body.idempotencyKey`. -/
  idempotencyKey : String
  dialogueStateDigest : String
  conversationId : String
  /-- `Number(body.deadlineMs || 600000)`, unless it is no number. -/
  deadlineMs : Option Int
  incidentId : String

/-! ## Requests -/

inductive ApiAsk where
  | authenticate
  | now
  | randomUUID
  | resolveTarget (action : String) (requested : Value) (actor : Actor)
  | resolveDialogueState (conversationId actorId : String)
  | insertPlan (row : PlanRow)
  | getPlan (id : String)
  | consumePlan (id : String) (operationId : Uuid)
  /-- The insertion that ignores duplicates. -/
  | insert (row : OperationRow)
  | byIdempotencyKey (key : String)

abbrev ApiAsk.Answer : ApiAsk → Type
  | .authenticate => Actor
  | .now => Int
  | .randomUUID => Uuid
  | .resolveTarget .. => Resolved
  | .resolveDialogueState .. => Option Projection
  | .insertPlan _ => Option PlanRow
  | .getPlan _ => Option PlanRow
  | .consumePlan .. => Option PlanRow
  | .insert _ => Option OperationRow
  | .byIdempotencyKey _ => Option OperationRow

abbrev Api := Program Refusal ApiAsk ApiAsk.Answer

/-- `await` of a request. -/
def ask (q : ApiAsk) : Api q.Answer := Program.await q

/-- `throw { code, msg }`. -/
def refuseWith {α : Type} (code : Nat) (msg : String) : Api α := .throw (.http code none msg)

/-! ## The API -/

/-- The form in which the store returns values, and the hash of digests. -/
structure Formats where
  /-- The hexadecimal SHA-256 of a text. -/
  hash : List Char → String
  /-- A value that went through a column of the type `jsonb`. -/
  jsonb : Value → Value
  /-- A time in milliseconds of a column of the type `timestamptz`. -/
  timestamptz : Int → String

/-- What `plan` returns of a plan that it has stored. -/
structure Shown where
  planId : String
  planDigest : String
  expectedConfirmation : String
  expiresAt : String
  targetRevision : String
deriving DecidableEq

/-- `15 * 60 * 1000`. -/
def quarterHour : Int := 900000

def planDocument (actorId action descriptorDigest : String) (target requestPayload postcondition : Value)
    (expiresAt : String) : Value :=
  .ofList [("actorId", .string actorId), ("action", .string action),
    ("descriptorDigest", .string descriptorDigest), ("target", target),
    ("requestPayload", requestPayload), ("expectedPostcondition", postcondition),
    ("expiresAt", .string expiresAt)]

/-- `body?.target || {}`. -/
def Body.targetOr (b : Body) : Value := b.target.or (.ofList [])

section

variable (F : Formats)

/-- `plan(req, body)`, with the planned operation and what is shown of a stored plan. -/
def plan (b : Body) : Api (Planned × Value × Option Shown) := do
  let actor ← ask .authenticate
  let target ← ask (.resolveTarget b.action b.targetOr actor)
  let planned ← .lift (planOperation F.hash b.action target "")
  let postcondition ← .lift (expectedPostcondition planned)
  if planned.action ≠ "create-postgres-cluster" then return (planned, postcondition, none)
  else if !Command.uuidFormat actor.actorId || !Command.uuidFormat actor.authSessionId then
    refuseWith 401 "durable plan requires stable actor and session UUIDs"
  else do
    let now ← ask .now
    let uuid ← ask .randomUUID
    let expiresAt := now + quarterHour
    let planId := "pgplan-" ++ uuid.text
    let requestPayload := Value.ofList [("action", .string planned.action), ("target", b.targetOr),
      ("reason", .string (trim b.reason))]
    if Js.length (trim b.reason) < 8 then
      refuseWith 400 "reason must contain at least eight characters"
    else do
      let planDigest := digest F.hash (planDocument actor.actorId planned.action planned.descriptorDigest
        planned.target.value requestPayload postcondition (isoText expiresAt))
      let confirmation ← .lift (operationConfirmation planned planDigest)
      match castUuid actor.actorId, castUuid actor.authSessionId with
      | some actorId, some authSessionId =>
          let stored ← ask (.insertPlan {
            planId
            actorId
            authSessionId
            action := planned.action
            descriptorRevision := planned.descriptor.revision
            descriptorDigest := planned.descriptorDigest
            planDigest
            targetRevision := planned.target.resourceVersion.getD ""
            riskClass := planned.descriptor.riskClass
            requiredAssurance := planned.descriptor.assurance
            expectedConfirmation := confirmation
            target := planned.target.value
            requestPayload
            expectedPostcondition := postcondition
            expiresAt
            consumedOperationId := none })
          match stored with
          | none => refuseWith 503 "durable plan was not persisted"
          | some _ => return (planned, postcondition, some {
              planId
              planDigest
              expectedConfirmation := confirmation
              expiresAt := isoText expiresAt
              targetRevision := planned.target.resourceVersion.getD "" })
      | _, _ => refuseWith 400 "Supabase REST module_operation_plan POST failed"

def memberText (x : Value) (name : String) : Except Refusal String := textOf (x.get name)

/-- The stored plan of a request, with the target that it resolves to now. -/
def checkPlan (actor : Actor) (b : Body) : Api (PlanRow × Resolved) := do
  match ← ask (.getPlan b.planId) with
  | none => refuseWith 404 "durable plan not found"
  | some stored =>
      if stored.actorId.text ≠ actor.actorId then
        refuseWith 403 "durable plan belongs to a different actor"
      else if !Command.uuidFormat actor.authSessionId || stored.authSessionId.text ≠ actor.authSessionId then
        refuseWith 403 "durable plan belongs to a different authenticated session"
      else do
        let now ← ask .now
        if stored.expiresAt ≤ now then refuseWith 409 "durable plan expired"
        else if !Command.revisionFormat b.planDigest || b.planDigest ≠ stored.planDigest then
          refuseWith 409 "durable plan digest does not match the stored plan"
        else do
          let payload := F.jsonb stored.requestPayload
          let target ← ask (.resolveTarget stored.action ((payload.get "target").or (.ofList [])) actor)
          let replanned ← .lift (planOperation F.hash stored.action target "")
          let postcondition ← .lift (expectedPostcondition replanned)
          let recomputed := digest F.hash (planDocument actor.actorId replanned.action
            replanned.descriptorDigest replanned.target.value payload postcondition
            (F.timestamptz stored.expiresAt))
          if recomputed ≠ stored.planDigest || replanned.descriptorDigest ≠ stored.descriptorDigest then
            refuseWith 409 "durable plan target revision changed; create a new plan"
          else return (stored, target)

/-- What `accept` carries out: its action, the resolved target, and the texts of the request. -/
structure Requested where
  target : Resolved
  action : String
  reason : String
  bindingDigest : String
  stored : Option PlanRow

def requestOf (actor : Actor) (b : Body) : Api Requested := do
  if b.planId ≠ "" then
    let (stored, target) ← checkPlan F actor b
    let reason ← .lift (memberText (F.jsonb stored.requestPayload) "reason")
    return ⟨target, stored.action, reason, stored.planDigest, some stored⟩
  else
    let target ← ask (.resolveTarget b.action b.targetOr actor)
    return ⟨target, b.action, b.reason, b.bindingDigest, none⟩

/-- A recent second factor, for an operation of the class R1. -/
def requireRecent (actor : Actor) (bound : Bound) : Api Unit := do
  if bound.planned.descriptor.riskClass = .r1 && bound.planned.descriptor.assurance = "aal2" then
    let now ← ask .now
    if actor.assurance ≠ "aal2" || actor.reauthenticatedAt.all fun t => now - t > 300000 then
      .throw (.http 428 (some "recent_aal2_required")
        "local edge R1 OSAA operation requires MFA assurance aal2 verified within the last 5 minutes")
    else return ()
  else return ()

/-- `/^[A-Za-z0-9][A-Za-z0-9._:-]{7,159}$/`. -/
def idempotencyFormat : String → Bool :=
  let first (c : Char) := lower c || upper c || digit c
  Js.test (.seq [.times first 1, .repeated (orOneOf first ['.', '_', ':', '-']) 7 (some 159)])

/-- The dialogue that a PostgreSQL cluster is planned in. -/
def checkDialogue (actor : Actor) (b : Body) (bound : Bound) : Api (Option Projection) := do
  if bound.planned.action = "create-postgres-cluster" then
    if !Command.uuidFormat b.conversationId || !Command.revisionFormat b.dialogueStateDigest then
      refuseWith 400 "PFSS operation requires a conversationId and Dialogue State digest"
    else
      match ← ask (.resolveDialogueState b.conversationId actor.actorId) with
      | none => refuseWith 409 "Dialogue State changed or does not belong to this actor"
      | some state =>
          if state.stateDigest ≠ some b.dialogueStateDigest then
            refuseWith 409 "Dialogue State changed or does not belong to this actor"
          else if state.domain ≠ "pfss.postgresql" || state.intent ≠ "create.plan" || state.phase ≠ "plan_ready" ||
              state.targetNamespace ≠ bound.planned.target.namespace' ||
              state.targetName ≠ bound.planned.target.name then
            refuseWith 409 "Dialogue State is not bound to this PFSS plan target"
          else return some state
  else if b.dialogueStateDigest ≠ "" && !Command.revisionFormat b.dialogueStateDigest then
    refuseWith 400 "Dialogue State digest is invalid"
  else return none

def insert (row : OperationRow) : Api OperationRow := do
  match ← ask (.insert row) with
  | some stored => return stored
  | none =>
      match ← ask (.byIdempotencyKey row.idempotencyKey) with
      | none => refuseWith 503 "durable operation was not persisted"
      | some existing =>
          if existing.actorId ≠ row.actorId || existing.action ≠ row.action ||
              existing.targetFingerprint ≠ row.targetFingerprint then
            refuseWith 409 "idempotency key is already bound to a different durable operation"
          else return existing

def consumePlan (id : String) (operationId : Uuid) : Api Bool := do
  match ← ask (.consumePlan id operationId) with
  | some _ => return true
  | none =>
      let current ← ask (.getPlan id)
      return (current.bind PlanRow.consumedOperationId) = some operationId

def nonempty (t : String) : Option String := if t = "" then none else some t

def keyOf (b : Body) (stored : Option PlanRow) : String :=
  match stored with
  | some p => p.planId
  | none => trim b.idempotencyKey

def deadlineOf (b : Body) : Except Refusal Int :=
  match b.deadlineMs with
  | some ms => .ok (max 60000 (min 3600000 ms))
  | none => failed "" "Invalid time value"

/-- `accept(req, body)` up to the insertion, with the row that is inserted. -/
def prepare (enabled : Bool) (b : Body) : Api (OperationRow × Option PlanRow) := do
  if !enabled then refuseWith 503 "R2D2 durable operation execution is not activated"
  else do
    let actor ← ask .authenticate
    if !Command.uuidFormat actor.actorId then
      refuseWith 401 "durable operation requires a stable actor UUID"
    else do
      let r ← requestOf F actor b
      let bound ← .lift (bindOperation F.hash r.action r.target r.bindingDigest b.confirmation r.reason)
      requireRecent actor bound
      if !idempotencyFormat (keyOf b r.stored) then refuseWith 400 "valid idempotency key required"
      else do
        let state ← checkDialogue actor b bound
        let now ← ask .now
        let deadline ← .lift (deadlineOf b)
        let operationId ← ask .randomUUID
        let postcondition ← .lift (expectedPostcondition bound.planned)
        match castUuid actor.actorId with
        | none => refuseWith 400 "Supabase REST module_operation POST failed"
        | some actorId => return ({
            operationId
            idempotencyKey := keyOf b r.stored
            action := bound.planned.action
            actorId
            reason := bound.reason
            assurance := actor.assurance
            riskClass := bound.planned.descriptor.riskClass
            targetFingerprint := digest F.hash bound.planned.target.value
            descriptorRevision := bound.planned.descriptor.revision
            descriptorDigest := bound.planned.descriptorDigest
            toolId := bound.planned.descriptor.toolId
            verifierId := bound.planned.descriptor.verifierId
            target := bound.planned.target.value
            ownerRoute := bound.planned.descriptor.ownerRoute
            requiredPermission := bound.planned.descriptor.permission
            confirmationDigest := bound.confirmationDigest
            requiredAssurance := bound.planned.descriptor.assurance
            authSessionId := actor.authSessionId
            authzRevision := actor.authzRevision
            deadlineAt := now + deadline
            dialogueStateDigest := nonempty b.dialogueStateDigest
            dialogueConversationId := nonempty b.conversationId
            dialogueRevision := state.map Projection.revision
            planId := r.stored.map PlanRow.planId
            planDigest := r.stored.map PlanRow.planDigest
            expectedPostcondition := postcondition
            incidentId := if Command.uuidFormat b.incidentId then some b.incidentId else none }, r.stored)

/-- `accept(req, body)`, with the operation that it returns. -/
def accept (enabled : Bool) (b : Body) : Api OperationRow := do
  let (row, stored) ← prepare F enabled b
  let row ← insert row
  match stored with
  | none => return row
  | some p =>
      let consumed ← consumePlan p.planId row.operationId
      if !consumed && p.consumedOperationId ≠ some row.operationId then
        refuseWith 409 "durable plan was already consumed"
      else return row

end

/-! ## The store -/

/-- What becomes of a request, and what the services answer. -/
structure Reply where
  /-- It has its effect. -/
  effect : Bool
  /-- What is thrown, if it is not answered. -/
  failure : Option Refusal
  actor : Actor
  now : Int
  uuid : Uuid
  resolved : Resolved
  projection : Option Projection

def Reply.service {α : Type} (e : Reply) (x : α) : Except Refusal α :=
  match e.failure with
  | none => .ok x
  | some f => .error f

/-- The answer of the database: an effect may get lost, and so may the answer. -/
def Reply.database {α : Type} (e : Reply) (before : Tables) (x : Except Refusal α × Tables) :
    Except Refusal α × Tables :=
  match e.failure with
  | none => x
  | some f => (.error f, if e.effect then x.2 else before)

/-- What PostgREST answers if a row clashes with another one. -/
def conflict (resource : String) : Refusal := .http 409 none ("Supabase REST " ++ resource ++ " POST failed")

def Tables.insertPlan (t : Tables) (row : PlanRow) : Except Refusal (Option PlanRow) × Tables :=
  if t.plans.any fun p => p.planId = row.planId then (.error (conflict "module_operation_plan"), t)
  else (.ok (some row), { t with plans := t.plans ++ [row] })

/-- `INSERT ... ON CONFLICT (operation_id) DO NOTHING`. -/
def Tables.insert (t : Tables) (row : OperationRow) : Except Refusal (Option OperationRow) × Tables :=
  if t.operations.any fun o => o.operationId = row.operationId then (.ok none, t)
  else if t.operations.any fun o => o.idempotencyKey = row.idempotencyKey then
    (.error (conflict "module_operation"), t)
  else (.ok (some row), { t with operations := t.operations ++ [row] })

/-- The update of `consumePlan`. -/
def Tables.consume (t : Tables) (id : String) (operationId : Uuid) : Option PlanRow × Tables :=
  let hit (p : PlanRow) : Bool := p.planId = id && p.consumedOperationId.isNone
  ((t.plans.find? hit).map fun p => { p with consumedOperationId := some operationId },
    { t with plans := t.plans.map fun p => if hit p then { p with consumedOperationId := some operationId } else p })

def reply (e : Reply) (q : ApiAsk) (t : Tables) : Except Refusal q.Answer × Tables :=
  match q with
  | .authenticate => (e.service e.actor, t)
  | .now => (.ok e.now, t)
  | .randomUUID => (.ok e.uuid, t)
  | .resolveTarget .. => (e.service e.resolved, t)
  | .resolveDialogueState .. => (e.service e.projection, t)
  | .insertPlan row => e.database t (t.insertPlan row)
  | .getPlan id => (e.service (t.plans.find? fun p => p.planId = id), t)
  | .consumePlan id operationId => e.database t (.ok (t.consume id operationId).1, (t.consume id operationId).2)
  | .insert row => e.database t (t.insert row)
  | .byIdempotencyKey key => (e.service (t.operations.find? fun o => o.idempotencyKey = key), t)

end Durable
