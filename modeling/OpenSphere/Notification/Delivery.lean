import Mathlib.Data.List.Sort
import OpenSphere.Sql.Text

/-!
# Deliveries of notifications

The tables that the dispatcher of notifications works on, and what its requests do to them.  A delivery
is claimed by setting it to sending, and an attempt is a row of its own whose number is unique for the
delivery.  The history says what happened to the deliveries: `sends` counts how often one was handed to
its provider since an administrator last asked for a retry.
-/

open Sql

namespace Notification

/-! ## Rows -/

inductive Status where
  | queued
  | sending
  | accepted
  | delivered
  | retrying
  | failed
  | deadLetter
  | suppressed
deriving DecidableEq, Repr

/-- What came of handing a message to its provider. -/
inductive Kind where
  | accepted
  | delivered
  | retryable
  | permanent
deriving DecidableEq, Repr

inductive Health where
  | draft
  | healthy
  | degraded
  | misconfigured
deriving DecidableEq, Repr

/-- A row of `console.notification_event`. -/
structure Event where
  id : Uuid
  source : String
  severity : String
  title : String
  body : String
  route : String

/-- A row of `console.notification_channel`. -/
structure Channel where
  id : Uuid
  provider : String
  health : Health
  lastSuccessAt : Option Timestamp
  updatedAt : Timestamp

/-- A row of `console.notification_delivery`. -/
structure Delivery where
  id : Uuid
  eventId : Uuid
  channelId : Uuid
  status : Status
  attemptCount : Nat
  retryGeneration : Nat
  nextAttemptAt : Timestamp
  lockedAt : Option Timestamp
  lockOwner : Option String
  providerMessageId : Option String
  lastErrorClass : Option Kind
  lastErrorCode : Option String
  acceptedAt : Option Timestamp
  completedAt : Option Timestamp
  updatedAt : Timestamp

/-- A row of `console.notification_attempt`. -/
structure Attempt where
  deliveryId : Uuid
  attemptNumber : Nat
  workerId : String
  outcome : Kind
  providerCode : Option String
  providerMessageId : Option String
  retryAfterMs : Option Nat
  latencyMs : Int
  errorClass : Option Kind
  completedAt : Timestamp

/-- The delivery was taken over by its provider. -/
def Status.final : Status → Bool
  | .accepted => true
  | .delivered => true
  | _ => false

/-- The delivery is handed to its provider, now or later. -/
def Status.live : Status → Bool
  | .queued => true
  | .sending => true
  | .retrying => true
  | _ => false

/-! ## History -/

inductive Entry where
  /-- Its message was handed to the provider. -/
  | handed (id : Uuid)
  /-- An administrator asked for a retry. -/
  | retried (id : Uuid)
  /-- The dispatcher changed its status. -/
  | recorded (id : Uuid) (before after : Status)
deriving DecidableEq, Repr

/-- How often a delivery was handed to its provider since the last retry that an administrator asked
for. -/
def sends (id : Uuid) (h : List Entry) : Nat :=
  h.foldl (fun n x => match x with
    | .handed id' => if id' = id then n + 1 else n
    | .retried id' => if id' = id then 0 else n
    | .recorded .. => n) 0

/-! ## Tables -/

/-- How far the message in hand has got. -/
inductive Progress where
  /-- No message is in hand. -/
  | quiet
  /-- It was handed to its provider, and the first completion is under way. -/
  | handed
  /-- It was handed to its provider, and the first completion has failed. -/
  | caught
  /-- It was recorded that the provider has taken it over. -/
  | recorded
  /-- That was recorded, but an answer is missing since. -/
  | broken
deriving DecidableEq, Repr

/-- The tables, with the history, and what is known of the message in hand. -/
structure World where
  clock : Timestamp
  events : List Event
  channels : List Channel
  deliveries : List Delivery
  attempts : List Attempt
  history : List Entry
  progress : Progress

def World.row (w : World) (id : Uuid) : Option Delivery := w.deliveries.find? fun d => d.id = id

/-- An `UPDATE` of the deliveries. -/
def World.update (w : World) (f : Delivery → Delivery) : World :=
  { w with deliveries := w.deliveries.map f }

def World.note (w : World) (xs : List Entry) : World := { w with history := w.history ++ xs }

section

variable (w : World)

/-- The delivery can be claimed: it is due, or its worker has not been heard of for five minutes. -/
def World.candidate (d : Delivery) : Bool :=
  ((d.status = .queued || d.status = .retrying) && d.nextAttemptAt ≤ w.clock) ||
    (d.status = .sending && d.lockedAt.any (· < w.clock - 300000))

def World.chosen (limit : Nat) : List Delivery :=
  ((w.deliveries.filter w.candidate).insertionSort fun d d' => d.nextAttemptAt ≤ d'.nextAttemptAt).take
    (min (max limit 1) 100)

/-- `console.notification_claim_deliveries`. -/
def World.claimDeliveries (worker : String) (limit : Nat) : List Uuid × World :=
  let chosen := w.chosen limit
  let ids := chosen.map Delivery.id
  (ids, (w.update fun d =>
    if ids.contains d.id then { d with
      status := .sending
      lockedAt := some w.clock
      lockOwner := some (String.ofList ((chars worker).take 120))
      updatedAt := w.clock }
    else d).note (chosen.map fun d => .recorded d.id d.status .sending))

/-- The insertion of one delivery, `ON CONFLICT (event_id, channel_id) DO NOTHING`. -/
def World.insertDelivery (eventId : Uuid) (target : Uuid × Uuid) : World :=
  if w.channels.any (fun c => c.id = target.2) && (w.row target.1).isNone &&
      !w.deliveries.any fun d => d.eventId = eventId && d.channelId = target.2 then
    { w with deliveries := w.deliveries ++ [{
        id := target.1
        eventId
        channelId := target.2
        status := .queued
        attemptCount := 0
        retryGeneration := 0
        nextAttemptAt := w.clock
        lockedAt := none
        lockOwner := none
        providerMessageId := none
        lastErrorClass := none
        lastErrorCode := none
        acceptedAt := none
        completedAt := none
        updatedAt := w.clock }] }
  else w

/-- `console.notification_materialize_deliveries`, where `targets` are the channels of the rules that
match the event, each with the id of its delivery. -/
def World.materialize (eventId : Uuid) (targets : List (Uuid × Uuid)) : Option World :=
  if w.events.any fun e => e.id = eventId then
    some (targets.foldl (fun w target => w.insertDelivery eventId target) w)
  else none

/-- The insertion of an attempt, unless a constraint forbids it. -/
def World.postAttempt (a : Attempt) : Option World :=
  if (w.row a.deliveryId).isNone then none
  else if w.attempts.any fun b => b.deliveryId = a.deliveryId && b.attemptNumber = a.attemptNumber then none
  else if a.retryAfterMs.any (maxInteger < ·) then none
  else some { w with attempts := w.attempts ++ [a] }

/-- What a completion writes to a delivery, besides clearing its lock. -/
structure Patch where
  status : Status
  attemptCount : Nat
  providerMessageId : Option String
  lastErrorClass : Option Kind
  lastErrorCode : Option String
  updatedAt : Timestamp
  /-- Some only if the columns are written. -/
  acceptedAt : Option Timestamp
  completedAt : Option Timestamp
  nextAttemptAt : Option Timestamp

def Delivery.patch (d : Delivery) (p : Patch) : Delivery :=
  { d with
    status := p.status
    attemptCount := p.attemptCount
    providerMessageId := p.providerMessageId
    lastErrorClass := p.lastErrorClass
    lastErrorCode := p.lastErrorCode
    lockedAt := none
    lockOwner := none
    updatedAt := p.updatedAt
    acceptedAt := p.acceptedAt <|> d.acceptedAt
    completedAt := p.completedAt <|> d.completedAt
    nextAttemptAt := p.nextAttemptAt.getD d.nextAttemptAt }

def World.patchDelivery (id : Uuid) (p : Patch) : World :=
  (w.update fun d => if d.id = id then d.patch p else d).note
    ((w.row id).toList.map fun d => .recorded id d.status p.status)

def World.patchChannel (id : Uuid) (health : Health) (lastSuccessAt : Option Timestamp)
    (updatedAt : Timestamp) : World :=
  { w with channels := w.channels.map fun c =>
      if c.id = id then { c with health, lastSuccessAt, updatedAt } else c }

/-- The update with which an administrator asks for a retry.  What the row was when the administrator
read it need not be what it is now. -/
def World.retry (id : Uuid) : World :=
  (w.update fun d =>
    if d.id = id then { d with
      status := .queued
      nextAttemptAt := w.clock
      lockedAt := none
      lockOwner := none
      retryGeneration := d.retryGeneration + 1
      updatedAt := w.clock }
    else d).note [.retried id]

end

end Notification
