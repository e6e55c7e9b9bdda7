import OpenSphere.Durable.Worker
import OpenSphere.System.Waiting

/-!
# Workers over the ledger

Any number of polls are under way at the same time.  A request to the database has its effect at
once or not, and its answer may be lost; what the other services answer is arbitrary.  A process may
end between any two requests.

From outside come acceptances, approvals and their revocations, the release of approved operations,
and the heartbeats of the timers.
-/

open Sql
open System (Program Setting Pool Move Task)

namespace Durable

inductive Fate where
  | answered
  /-- It has its effect, and the answer is lost. -/
  | lost
  /-- It fails without an effect. -/
  | refused
deriving DecidableEq, Repr

/-- What the surroundings decide about the answer to a request. -/
structure Turn where
  /-- The time that passes in the database before it. -/
  elapsed : Nat
  fate : Fate
  /-- What is thrown if it fails. -/
  failure : Failure
  /-- What the timer remembers. -/
  leaseLost : Bool
  /-- The clock of the worker in milliseconds. -/
  now : Int
  session : Option Session
  live : Option Live
  receipt : Option Js.Value
  verdict : Verdict

def Turn.database {α : Type} (e : Turn) (before : Ledger) (x : Except Failure α × Ledger) :
    Except Failure α × Ledger :=
  match e.fate with
  | .answered => x
  | .lost => (.error e.failure, x.2)
  | .refused => (.error e.failure, before)

def Turn.service {α : Type} (e : Turn) (x : α) : Except Failure α :=
  match e.fate with
  | .answered => .ok x
  | _ => .error e.failure

def answer (e : Turn) (q : Query) (w : Ledger) : Except Failure q.Answer × Ledger :=
  let w := w.advance e.elapsed
  match q with
  | ⟨c, .claim limit⟩ => e.database w (w.claim c limit)
  | ⟨_, .leaseLost _⟩ => (.ok e.leaseLost, w)
  | ⟨c, .heartbeat id⟩ => e.database w (.ok (w.heartbeat c id).1, (w.heartbeat c id).2)
  | ⟨_, .appendStep _ type _ _ _⟩ => (if type.stored then e.service () else .error e.failure, w)
  | ⟨c, .setPhase id phase⟩ => e.database w (w.setPhase c id phase)
  | ⟨c, .recordDownstreamIntent id key⟩ => e.database w (w.recordDownstreamIntent c id key)
  | ⟨_, .getApprovals id⟩ => (e.service (w.approvals.filter fun a => a.operationId = id), w)
  | ⟨_, .resolveSession ..⟩ => (e.service e.session, w)
  | ⟨_, .now⟩ => (.ok e.now, w)
  | ⟨_, .readAuthority ..⟩ => (e.service e.live, w)
  | ⟨c, .invoke id ..⟩ => (e.service (e.receipt.getD .null), { w with history := w.history ++ [.invoked c id] })
  | ⟨_, .reconcile ..⟩ => (e.service e.receipt, w)
  | ⟨_, .verify ..⟩ => (e.service e.verdict, w)

inductive Outside where
  | accept (id : Uuid) (terms : Terms)
  | approve (a : Approval)
  | revoke (id : Uuid) (approverId : String)
  | queue (id : Uuid) (nextAttemptAt : Timestamp)
  /-- The timer of a worker sends a heartbeat. -/
  | heartbeat (c : Claimant) (id : Uuid)

/-- What `accept` stores: an operation of a class with a deadline, which workers carry out. -/
def Terms.acceptable (t : Terms) : Bool :=
  t.riskClass.isSome && t.deadlineAt.isSome && t.action ≠ remediation

def change (x : Nat × Outside) (w : Ledger) : Ledger :=
  let w := w.advance x.1
  match x.2 with
  | .accept id terms => if terms.acceptable then w.accept id terms else w
  | .approve a => w.approve a
  | .revoke id approverId => w.revoke id approverId
  | .queue id nextAttemptAt => w.queue id nextAttemptAt
  | .heartbeat c id => (w.heartbeat c id).2

structure Poll where
  worker : Claimant
  limit : Int

def setting : Setting Failure Query Query.Answer Unit Poll Ledger Turn (Nat × Outside) where
  program t := poll t.worker t.limit
  answer := answer
  change := change

abbrev State := Pool Failure Query Query.Answer Unit Poll Ledger

/-- A move of a worker, of its process or from outside. -/
abbrev Action := Move Poll Turn (Nat × Outside)

def perform (m : Action) (s : State) : State := s.perform setting m

def initial (clock : Timestamp) : State := ⟨⟨clock, [], [], []⟩, []⟩

def reach (clock : Timestamp) (ms : List Action) : State := System.run perform ms (initial clock)

end Durable
