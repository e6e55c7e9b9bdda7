import OpenSphere.Notification.Delivery
import OpenSphere.System.Program

/-!
# The dispatcher of notifications

`runOnce` claims events and deliveries and hands the message of each delivery to its provider.  What
came of it is written with three requests: an attempt is inserted, and the delivery and the channel are
updated.  An error anywhere is caught and completed as a failed attempt.

A request may have no effect, or have one and lose its answer.  Before each request time passes and
administrators act.
-/

open Sql
open System (Program)

namespace Notification

/-! ## Requests -/

/-- What is thrown: `error.code` as a text, unless there is none. -/
structure Failure where
  code : Option String

/-- What a provider answers.  An empty text is a missing one. -/
structure Result where
  kind : Kind
  code : String
  providerMessageId : String
  retryAfterMs : Option Nat

inductive Ask where
  | now
  | random
  | claimEvents (worker : String) (limit : Nat)
  | materialize (eventId : Uuid)
  | claimDeliveries (worker : String) (limit : Nat)
  | delivery (id : Uuid)
  | event (id : Uuid)
  | channel (id : Uuid)
  | secretFor (channelId : Uuid)
  /-- `send(channel, secret, event)`, for a delivery. -/
  | send (id : Uuid) (channel : Channel) (secret : String) (event : Event)
  | postAttempt (row : Attempt)
  | patchDelivery (id : Uuid) (patch : Patch)
  | patchChannel (id : Uuid) (health : Health) (lastSuccessAt : Option Timestamp) (updatedAt : Timestamp)

abbrev Ask.Answer : Ask → Type
  | .now => Timestamp
  | .random => Nat
  | .claimEvents .. => List Uuid
  | .materialize _ => Unit
  | .claimDeliveries .. => List Uuid
  | .delivery _ => Option Delivery
  | .event _ => Option Event
  | .channel _ => Option Channel
  | .secretFor _ => String
  | .send .. => Result
  | .postAttempt _ => Unit
  | .patchDelivery .. => Unit
  | .patchChannel .. => Unit

abbrev Dispatch := Program Failure Ask Ask.Answer

/-- `await` of a request. -/
def ask (q : Ask) : Dispatch q.Answer := Program.await q

structure Settings where
  workerId : String
  maxAttempts : Nat
  positive : 1 ≤ maxAttempts

/-! ## Completion -/

structure Context where
  delivery : Delivery
  event : Event
  channel : Channel

def deliveryContext (id : Uuid) : Dispatch Context := do
  match ← ask (.delivery id) with
  | none => .throw ⟨some "404"⟩
  | some delivery =>
      let event ← ask (.event delivery.eventId)
      let channel ← ask (.channel delivery.channelId)
      match event, channel with
      | some event, some channel => return ⟨delivery, event, channel⟩
      | _, _ => .throw ⟨some "409"⟩

/-- `nextAttempt(attemptCount, retryAfterMs)`, where the random number is given by its numerator over
2 ^ 53. -/
def nextAttempt (attemptCount : Nat) (retryAfterMs : Option Nat) : Dispatch Timestamp := do
  let random ← ask .random
  let now ← ask .now
  let bounded := min 3600000 (1000 * 2 ^ min attemptCount 10)
  let jitter := random * max 250 (bounded / 4) / 2 ^ 53
  return now + max (retryAfterMs.getD 0) (bounded + jitter)

def nonempty (t : String) : Option String := if t = "" then none else some t

/-- The provider has taken the message over. -/
def Kind.terminal : Kind → Bool
  | .accepted => true
  | .delivered => true
  | _ => false

section

variable (S : Settings)

def statusAfter (kind : Kind) (attempt : Nat) : Status :=
  match kind with
  | .accepted => .accepted
  | .delivered => .delivered
  | .permanent => .failed
  | .retryable => if S.maxAttempts ≤ attempt then .deadLetter else .retrying

def dueAfter (kind : Kind) (attempt : Nat) (retryAfterMs : Option Nat) : Dispatch (Option Timestamp) := do
  if statusAfter S kind attempt = .retrying then
    let next ← nextAttempt attempt retryAfterMs
    return some next
  else return none

def healthAfter : Kind → Health
  | .accepted => .healthy
  | .delivered => .healthy
  | .permanent => .misconfigured
  | .retryable => .degraded

def attemptRow (context : Context) (result : Result) (attempt : Nat) (latency now : Int) : Attempt where
  deliveryId := context.delivery.id
  attemptNumber := attempt
  workerId := S.workerId
  outcome := result.kind
  providerCode := nonempty result.code
  providerMessageId := nonempty result.providerMessageId
  retryAfterMs := result.retryAfterMs
  latencyMs := latency
  errorClass := if result.kind.terminal then none else some result.kind
  completedAt := now

def patchRow (context : Context) (result : Result) (attempt : Nat) (now : Timestamp) (next : Option Timestamp) :
    Patch where
  status := statusAfter S result.kind attempt
  attemptCount := attempt
  providerMessageId := nonempty result.providerMessageId <|> context.delivery.providerMessageId
  lastErrorClass := if result.kind.terminal then none else some result.kind
  lastErrorCode :=
    if result.kind.terminal then none else some ((nonempty result.code).getD "delivery-error")
  updatedAt := now
  acceptedAt := if result.kind.terminal then some now else none
  completedAt := if statusAfter S result.kind attempt = .retrying then none else some now
  nextAttemptAt := next

def completeDelivery (context : Context) (result : Result) (startedAt : Timestamp) : Dispatch Unit := do
  let attempt := context.delivery.attemptCount + 1
  let now ← ask .now
  let ended ← ask .now
  ask (.postAttempt (attemptRow S context result attempt (max 0 (ended - startedAt)) now))
  let next ← dueAfter S result.kind attempt result.retryAfterMs
  ask (.patchDelivery context.delivery.id (patchRow S context result attempt now next))
  ask (.patchChannel context.channel.id (healthAfter result.kind)
    (if result.kind.terminal then some now else context.channel.lastSuccessAt) now)

/-! ## A pass -/

def deliver (id : Uuid) (startedAt : Timestamp) : Dispatch Unit := do
  let context ← deliveryContext id
  let secret ← ask (.secretFor context.channel.id)
  let result ← ask (.send id context.channel secret context.event)
  completeDelivery S context result startedAt

def recover (id : Uuid) (startedAt : Timestamp) (error : Failure) : Dispatch Unit := do
  let found : Dispatch (Option Context) := do
    let context ← deliveryContext id
    return some context
  match ← found.tryCatch fun _ => pure none with
  | none => return ()
  | some context =>
      completeDelivery S context
        ⟨.retryable, (error.code.bind nonempty).getD "worker-error", "", none⟩ startedAt

/-- The body of the loop over the deliveries that were claimed. -/
def dispatch (id : Uuid) : Dispatch Unit := do
  let startedAt ← ask .now
  (deliver S id startedAt).tryCatch (recover S id startedAt)

def dispatchAll : List Uuid → Dispatch Unit
  | [] => return ()
  | id :: ids => do
      dispatch S id
      dispatchAll ids

def materializeAll : List Uuid → Dispatch Unit
  | [] => return ()
  | id :: ids => do
      ask (.materialize id)
      materializeAll ids

def runOnce : Dispatch Unit := do
  let events ← ask (.claimEvents S.workerId 25)
  materializeAll events
  let deliveries ← ask (.claimDeliveries S.workerId 25)
  dispatchAll S deliveries

end

/-! ## The world -/

inductive Outcome where
  | answered
  /-- It has its effect, but is not answered. -/
  | lost
  /-- It has no effect. -/
  | refused
deriving DecidableEq, Repr

inductive Outside where
  | retry (id : Uuid)
  | event (row : Event)
  | channel (row : Channel)

/-- What happens before a request, what becomes of it, and what others answer. -/
structure Turn where
  elapsed : Nat
  outside : List Outside
  outcome : Outcome
  failure : Failure
  events : List Uuid
  targets : List (Uuid × Uuid)
  secret : String
  result : Result
  random : Nat

def World.change (w : World) : Outside → World
  | .retry id => w.retry id
  | .event row => { w with events := w.events ++ [row] }
  | .channel row => { w with channels := w.channels ++ [row] }

def World.pass (w : World) (e : Turn) : World :=
  e.outside.foldl World.change { w with clock := w.clock + e.elapsed }

/-- What is known of the message in hand after a request. -/
def Progress.next (p : Progress) (o : Outcome) : Ask → Progress
  | .send .. => if o = .refused then p else .handed
  | .delivery _ =>
      if p = .handed then .caught else if p = .broken && o ≠ .answered then .quiet else p
  | .event _ => if p = .broken && o ≠ .answered then .quiet else p
  | .channel _ => if p = .broken && o ≠ .answered then .quiet else p
  | .postAttempt _ => if p = .broken then .quiet else p
  | .patchDelivery _ patch =>
      if patch.status.final then if o = .answered then .recorded else .broken else .quiet
  | .patchChannel .. => if p = .recorded then if o = .answered then .quiet else .broken else p
  | _ => p

def violated : Failure := ⟨some "409"⟩

def World.perform (w : World) (e : Turn) (q : Ask) : Except Failure q.Answer × World :=
  match q with
  | .now => (.ok w.clock, w)
  | .random => (.ok e.random, w)
  | .claimEvents .. => (.ok e.events, w)
  | .materialize eventId =>
      match w.materialize eventId e.targets with
      | some w' => (.ok (), w')
      | none => (.error violated, w)
  | .claimDeliveries worker limit =>
      (.ok (w.claimDeliveries worker limit).1, (w.claimDeliveries worker limit).2)
  | .delivery id => (.ok (w.row id), w)
  | .event id => (.ok (w.events.find? fun x => x.id = id), w)
  | .channel id => (.ok (w.channels.find? fun x => x.id = id), w)
  | .secretFor _ => (.ok e.secret, w)
  | .send id .. => (.ok e.result, w.note [.handed id])
  | .postAttempt row =>
      match w.postAttempt row with
      | some w' => (.ok (), w')
      | none => (.error violated, w)
  | .patchDelivery id patch => (.ok (), w.patchDelivery id patch)
  | .patchChannel id health lastSuccessAt updatedAt =>
      (.ok (), w.patchChannel id health lastSuccessAt updatedAt)

def Ask.own : Ask → Bool
  | .now => true
  | .random => true
  | _ => false

/-- What becomes of a request: one that asks nobody else is answered. -/
def Turn.fate (e : Turn) (q : Ask) : Outcome := if q.own then .answered else e.outcome

def reply (e : Turn) (q : Ask) (w : World) : Except Failure q.Answer × World :=
  let w := w.pass e
  let w' := if e.fate q = .refused then w else (w.perform e q).2
  (if e.fate q = .answered then (w.perform e q).1 else .error e.failure,
    { w' with progress := w.progress.next (e.fate q) q })

def passes (S : Settings) (w : World) (ps : List (Nat → Turn)) : World :=
  ps.foldl (fun w es => ((runOnce S).exec reply es w).2) w

end Notification
