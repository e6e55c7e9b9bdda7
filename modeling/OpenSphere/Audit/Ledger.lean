import OpenSphere.Authority.System
import OpenSphere.Sql.Order

/-!
# The audit ledger

`console_audit.event` with its append-only triggers, and
`console_audit.append_event_internal` as it runs among other transactions: it
takes the advisory lock, reads the hash of the last event it sees, and inserts
its row with the next value of the identity column.  The lock is held until the
transaction ends, so that a transaction may append several times, and nothing of
it is there for others before it commits.

The arguments may all be NULL.  What the row stores of them is not always what
its hash was taken of.
-/

open Sql
open Authority (Event Digest Statement EventArgs Outcome Db eventSchema jsonText jsonUuid jsonTime)

namespace Audit

/-! ## One event -/

/-- The arguments of `append_event_internal`. -/
structure AppendArgs where
  operationId : Option Uuid
  correlationId : Option String
  actorRef : Option String
  action : Option String
  targetRef : Option String
  outcome : Option String
  reason : Option String
  evidence : Option Jsonb

/-- `v_chain_input`, of generated values, arguments and the hash before. -/
def chainDocument (eventId : Uuid) (occurredAt : Timestamp) (a : AppendArgs)
    (previousHash : Option String) : Jsonb :=
  .object [
    ("eventId", jsonUuid (some eventId)),
    ("operationId", jsonUuid a.operationId),
    ("occurredAt", jsonTime (some occurredAt)),
    ("correlationId", jsonText a.correlationId),
    ("actorRef", jsonText a.actorRef),
    ("action", jsonText a.action),
    ("targetRef", jsonText a.targetRef),
    ("outcome", jsonText a.outcome),
    ("reason", jsonText a.reason),
    ("evidence", coalesce a.evidence (.object [])),
    ("previousHash", jsonText previousHash)]

/-- The row of `INSERT INTO console_audit.event`. -/
def newRow (D : Digest) (s : Statement) (sequenceId : Int) (a : AppendArgs)
    (previousHash : Option String) : Except SqlError Event := do
  let correlationId ← notNull a.correlationId "correlation_id"
  let actorRef ← notNull a.actorRef "actor_ref"
  let action ← notNull a.action "action"
  let targetRef ← notNull a.targetRef "target_ref"
  let outcomeText ← notNull a.outcome "outcome"
  let outcome ← orRaise (Outcome.ofText outcomeText) (.check eventSchema.name)
  return {
    sequenceId
    eventId := s.eventId
    operationId := a.operationId
    occurredAt := s.now
    correlationId, actorRef, action, targetRef, outcome
    reason := coalesce a.reason ""
    evidence := coalesce a.evidence (.object [])
    previousHash
    eventHash := D.hash (chainDocument s.eventId s.now a previousHash) }

def stored (e : Event) : AppendArgs where
  operationId := e.operationId
  correlationId := some e.correlationId
  actorRef := some e.actorRef
  action := some e.action
  targetRef := some e.targetRef
  outcome := some e.outcome.text
  reason := some e.reason
  evidence := some e.evidence

/-- The hash an auditor takes of the columns of a row, by the same formula. -/
def recomputed (D : Digest) (e : Event) : String :=
  D.hash (chainDocument e.eventId e.occurredAt (stored e) e.previousHash)

/-! ## Transactions -/

inductive Point where
  /-- No call is running. -/
  | idle
  /-- The lock is taken. -/
  | locked (s : Statement) (a : AppendArgs)
  /-- `v_previous_hash` is read. -/
  | read (s : Statement) (a : AppendArgs) (previousHash : Option String)

/-- The transaction that holds the advisory lock, with the rows it has inserted. -/
structure Holder where
  transaction : Nat
  inserted : List Event
  point : Point

structure Ledger where
  /-- The committed rows. -/
  committed : Table eventSchema
  /-- The last value of the identity column, which no rollback gives back. -/
  sequence : Int
  /-- Who holds `pg_advisory_xact_lock(471920260901)`. -/
  holder : Option Holder

def Ledger.fresh : Ledger := ⟨.empty, 0, none⟩

/-- The rows a holder sees: the committed ones and its own. -/
def Ledger.seen (l : Ledger) : List Event :=
  l.committed.rows ++ (l.holder.map (·.inserted)).getD []

def Ledger.visible (l : Ledger) (t : Nat) : List Event :=
  if (l.holder.map (·.transaction)) = some t then l.seen else l.committed.rows

/-- `SELECT event_hash ... ORDER BY sequence_id DESC LIMIT 1`. -/
def lastHash (rows : List Event) : Option String :=
  (orderDesc (·.sequenceId) rows).head?.map (·.eventHash)

/-- The end of a transaction without a commit: its rows and its lock are gone. -/
def Ledger.rollback (l : Ledger) (t : Nat) : Ledger :=
  if (l.holder.map (·.transaction)) = some t then { l with holder := none } else l

inductive Act where
  /-- A call begins and asks for the lock. -/
  | lock (t : Nat) (s : Statement) (a : AppendArgs)
  /-- `SELECT event_hash INTO v_previous_hash`. -/
  | read (t : Nat)
  /-- `INSERT INTO console_audit.event`. -/
  | insert (t : Nat)
  | commit (t : Nat)
  | rollback (t : Nat)
  /-- `UPDATE console_audit.event SET ... WHERE`. -/
  | update (t : Nat) (p : Event → Bool) (f : Event → Event)
  /-- `DELETE FROM console_audit.event WHERE`. -/
  | delete (t : Nat) (p : Event → Bool)
  /-- `TRUNCATE console_audit.event`. -/
  | truncate (t : Nat)

/-- The lock is free, or held by the same transaction, which may take it again
for its next call; else the call waits. -/
def Ledger.lock (l : Ledger) (t : Nat) (s : Statement) (a : AppendArgs) : Ledger :=
  match l.holder with
  | none => { l with holder := some ⟨t, [], .locked s a⟩ }
  | some h =>
      if h.transaction = t then { l with holder := some { h with point := .locked s a } } else l

/-- The holder reads the hash of the last event it sees. -/
def Ledger.read (l : Ledger) (t : Nat) : Ledger :=
  match l.holder with
  | some ⟨t', inserted, .locked s a⟩ =>
      if t' = t then { l with holder := some ⟨t', inserted, .read s a (lastHash (l.visible t))⟩ }
      else l
  | _ => l

/-- The holder inserts its row.  A constraint ends the transaction; the value of
the identity column, which is a `bigint`, is used up either way. -/
def Ledger.insert (D : Digest) (l : Ledger) (t : Nat) : Ledger :=
  match l.holder with
  | some ⟨t', inserted, .read s a previousHash⟩ =>
      if t' = t then
        let next := l.sequence + 1
        if maxBigint < next then { l with holder := none } else
        match newRow D s next a previousHash with
        | .error _ => { l with sequence := next, holder := none }
        | .ok e =>
            match (Table.ofRows (l.committed.rows ++ inserted ++ [e]) :
                Except SqlError (Table eventSchema)) with
            | .error _ => { l with sequence := next, holder := none }
            | .ok _ => { l with sequence := next, holder := some ⟨t', inserted ++ [e], .idle⟩ }
      else l
  | _ => l

/-- The rows of the holder become visible, and the lock is free. -/
def Ledger.commit (l : Ledger) (t : Nat) : Ledger :=
  if (l.holder.map (·.transaction)) = some t then
    match (Table.ofRows l.seen : Except SqlError (Table eventSchema)) with
    | .ok rows => { l with committed := rows, holder := none }
    | .error _ => { l with holder := none }
  else l

/-- The ledger after a statement.  `reject_event_mutation` raises for each row an
UPDATE or a DELETE would change, and for every TRUNCATE. -/
def perform (D : Digest) : Act → Ledger → Ledger
  | .lock t s a, l => l.lock t s a
  | .read t, l => l.read t
  | .insert t, l => l.insert D t
  | .commit t, l => l.commit t
  | .rollback t, l => l.rollback t
  | .update t p _, l => if (l.visible t).any p then l.rollback t else l
  | .delete t p, l => if (l.visible t).any p then l.rollback t else l
  | .truncate t, l => l.rollback t

def appendCall (t : Nat) (s : Statement) (a : AppendArgs) : List Act :=
  [.lock t s a, .read t, .insert t, .commit t]

/-- The ledger after a list of statements, in a fresh installation. -/
def reach (D : Digest) (as : List Act) : Ledger := System.run (perform D) as .fresh

end Audit
