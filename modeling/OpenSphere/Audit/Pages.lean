import OpenSphere.Audit.Chain

/-!
# Pages of the audit ledger

`console_audit.list_events`, and a reader that starts without a cursor and passes
the `nextCursor` of each page to the next call.  Other transactions go on
appending in between, and the session of the reader is checked on every page.
-/

open Sql
open Authority (Event Digest Statement Db Identity exception activeSession currentAuthority
  requirePermission jsonText jsonUuid jsonTime)

namespace Audit

/-- The arguments of `list_events`. -/
structure ListArgs where
  sessionId : Option Uuid
  actorRef : Option Uuid
  expectedPermissionRevision : Option Int
  expectedRevokeEpoch : Option Int
  cursor : Option Int
  limit : Option Int
  correlationId : Option String

structure ReadEnvelope where
  schemaVersion : String
  items : List Jsonb
  nextCursor : Option String
  authority : String
  observedAt : Timestamp
  freshness : String
  correlationId : Option String
  evidenceRefs : List String

/-- One element of `items`. -/
def eventItem (e : Event) : Jsonb :=
  .object [
    ("sequenceId", .ofText (decimal e.sequenceId)),
    ("eventId", jsonUuid (some e.eventId)),
    ("operationId", jsonUuid e.operationId),
    ("occurredAt", jsonTime (some e.occurredAt)),
    ("correlationId", jsonText (some e.correlationId)),
    ("actorRef", jsonText (some e.actorRef)),
    ("action", jsonText (some e.action)),
    ("targetRef", jsonText (some e.targetRef)),
    ("outcome", jsonText (some e.outcome.text)),
    ("reason", jsonText (some e.reason)),
    ("evidence", e.evidence),
    ("previousHash", jsonText e.previousHash),
    ("eventHash", jsonText (some e.eventHash))]

def invalidProjection : SqlError :=
  exception "invalid audit projection request" "22023" "ValidationFailed"

/-- The first guard of `list_events`. -/
def validateListing (p : ListArgs) : Except SqlError Unit :=
  raiseIf (.any [
    notBetween p.limit 1 200,
    .and (isNotNull p.cursor) (lt p.cursor (some 1)),
    notBetween (some (textLength (coalesce p.correlationId ""))) 8 128]) invalidProjection

def auditReader (s : Statement) (db : Db) (p : ListArgs) : Except SqlError Unit := do
  let session ← activeSession s db p.sessionId p.actorRef
  let authority ← currentAuthority db session p.actorRef p.expectedPermissionRevision
    p.expectedRevokeEpoch
  requirePermission db p.actorRef (some "console.audit.read") authority.permissionRevision

/-- `console_audit.list_events`. -/
def listEvents (s : Statement) (db : Db) (p : ListArgs) : Except SqlError ReadEnvelope := do
  validateListing p
  auditReader s db p
  let (visible, next) := keysetPage (·.sequenceId) p.cursor (p.limit.map Int.toNat) db.events.rows
  return {
    schemaVersion := "1.0"
    items := (orderDesc (·.sequenceId) visible).map eventItem
    nextCursor := next.map decimal
    authority := "SupabaseAuditLedger"
    observedAt := s.now
    freshness := "fresh"
    correlationId := p.correlationId
    evidenceRefs := (orderDesc (·.sequenceId) visible).map
      fun e => "audit-event:" ++ e.eventId.text }

/-! ## A reader among appends -/

/-- What happens around the fetches of a reader: the statements before the first
fetch and after each of them, the clock, and the rest of the database. -/
structure Surroundings where
  before : List Act
  between : Nat → List Act
  statement : Nat → Statement
  database : Nat → Db

/-- The ledger the fetch number `n` reads. -/
def Surroundings.ledger (w : Surroundings) (D : Digest) (n : Nat) : Ledger :=
  reach D (w.before ++ (List.range n).flatMap w.between)

def Surroundings.at (w : Surroundings) (D : Digest) (n : Nat) : Db :=
  { w.database n with events := (w.ledger D n).committed }

/-- One fetch, with the cursor as the reader passes it on: `$5::bigint`. -/
def fetchPage (D : Digest) (w : Surroundings) (p : ListArgs) (n : Nat) (cursor : Option Int) :
    Except SqlError (List Jsonb × Option Int) :=
  (listEvents (w.statement n) (w.at D n) { p with cursor }).map fun v =>
    (v.items, v.nextCursor.bind castBigint)

section

variable {D : Digest} {w : Surroundings} {p : ListArgs}

/-- Later fetches see more of the same ledger. -/
theorem ledger_grows (D : Digest) (w : Surroundings) (n : Nat) :
    Ascending (·.sequenceId) (w.ledger D n).committed.rows ∧
      ∃ more, (w.ledger D n).committed.rows = (w.ledger D 0).committed.rows ++ more := by
  refine ⟨(reach_inv D _).committed.ordered, ?_⟩
  have hbefore : w.ledger D 0 = reach D w.before := by
    simp [Surroundings.ledger]
  have hafter := run_committed_grows D ((List.range n).flatMap w.between) (reach D w.before)
  obtain ⟨more, hmore⟩ := hafter
  refine ⟨more, ?_⟩
  rw [hbefore, hmore, Surroundings.ledger, reach, System.run_append]
  rfl

theorem orderDesc_page (cursor : Option Int) (limit : Option Nat) (rows : List Event) :
    orderDesc (·.sequenceId) (keysetPage (·.sequenceId) cursor limit rows).1 =
      (keysetPage (·.sequenceId) cursor limit rows).1 := by
  refine orderDesc_eq_self ?_
  have hsorted : ∀ rows : List Event, (orderDesc (·.sequenceId) rows).Pairwise
      fun a b => b.sequenceId ≤ a.sequenceId := fun rows => List.pairwise_insertionSort _ _
  cases limit with
  | none => exact hsorted _
  | some n => exact (hsorted _).sublist (List.take_sublist _ _)

/-- A cursor that is a sequence number of the ledger passes the first guard. -/
theorem validateListing_cursor (hvalid : validateListing { p with cursor := none } = .ok ())
    {cursor : Option Int} (hcursor : ∀ c, cursor = some c → 1 ≤ c) :
    validateListing { p with cursor } = .ok () := by
  cases cursor with
  | none => exact hvalid
  | some c =>
      have hc : ¬ c < 1 := Int.not_lt.mpr (hcursor c rfl)
      simpa [validateListing, lt, isNotNull, Cond.and, hc] using hvalid

/-- The smallest key of a page, as a text and back. -/
theorem cursor_roundtrip (cursor : Option Int) (limit : Option Nat) {rows : List Event}
    (hrows : ∀ e ∈ rows, 1 ≤ e.sequenceId ∧ e.sequenceId ≤ maxBigint) :
    ((keysetPage (·.sequenceId) cursor limit rows).2.map decimal).bind castBigint =
      (keysetPage (·.sequenceId) cursor limit rows).2 := by
  cases hnext : (keysetPage (·.sequenceId) cursor limit rows).2 with
  | none => rfl
  | some c =>
      obtain ⟨e, he, rfl⟩ := keysetPage_cursor hnext
      obtain ⟨hlo, hhi⟩ := hrows e he
      exact castBigint_decimal (by rw [maxBigint]; omega) hhi

theorem fetchPage_eq {n : Nat} {cursor : Option Int} {limit : Int} (hlimit : p.limit = some limit)
    (hvalid : validateListing { p with cursor } = .ok ())
    (hreader : auditReader (w.statement n) (w.at D n) p = .ok ()) :
    fetchPage D w p n cursor = .ok ((keysetPage (·.sequenceId) cursor (some limit.toNat)
      (w.ledger D n).committed.rows).map (List.map eventItem) id) := by
  have hreader : auditReader (w.statement n) (w.at D n) { p with cursor } = .ok () := hreader
  have hnumbered : ∀ e ∈ (w.ledger D n).committed.rows,
      1 ≤ e.sequenceId ∧ e.sequenceId ≤ maxBigint := by
    intro e he
    have hinv := reach_inv D (w.before ++ (List.range n).flatMap w.between)
    have hrow := hinv.numbered e (List.mem_append_left _ he)
    exact ⟨hrow.1, Int.le_trans hrow.2 hinv.sequence.2⟩
  have hcursor := cursor_roundtrip cursor (some limit.toNat) hnumbered
  simp only [fetchPage, listEvents, hvalid, hreader, bind, Except.bind, pure, Except.pure,
    orderDesc_page, Except.map]
  rw [show (w.at D n).events.rows = (w.ledger D n).committed.rows from rfl, hlimit, Option.map_some,
    hcursor]
  rfl

/-- **Complete pages.**  A reader that is admitted at every fetch and asks for 1
to 200 events at a time gets every event that was committed at the first fetch,
once, the last one first, whatever is appended meanwhile; and as many fetches as
there are events, and one, are enough. -/
theorem audit_pages (D : Digest) (w : Surroundings) (p : ListArgs) {limit : Int}
    (hlimit : p.limit = some limit) (hrange : 1 ≤ limit ∧ limit ≤ 200)
    (hvalid : validateListing { p with cursor := none } = .ok ())
    (hreader : ∀ n, auditReader (w.statement n) (w.at D n) p = .ok ()) :
    (∀ fetches, (w.ledger D 0).committed.rows.length < fetches →
      follow (fetchPage D w p) fetches 0 none =
        .ok (some ((w.ledger D 0).committed.rows.reverse.map eventItem))) ∧
    (w.ledger D 0).committed.rows.reverse.Pairwise fun a b => b.sequenceId < a.sequenceId := by
  constructor
  · intro fetches hfetches
    refine follow_unread (·.sequenceId) (fun n => (w.ledger D n).committed.rows)
      (show 0 < limit.toNat by omega) (ledger_grows D w) ?_ fetches 0 none _ (.inl ⟨rfl, rfl, rfl⟩)
      hfetches
    intro n cursor hcursor
    refine fetchPage_eq hlimit (validateListing_cursor hvalid fun c hc => ?_) (hreader n)
    -- a cursor is the sequence number of an event
    obtain ⟨e, he, rfl⟩ := hcursor c hc
    exact ((reach_inv D _).numbered e (List.mem_append_left _ he)).1
  · rw [List.pairwise_reverse]
    exact (ledger_grows D w 0).1

end

def demoIdentity : Identity :=
  { Authority.Demo.site with
    grants := ⟨[⟨Authority.Demo.alice, "console.audit.read", 1, none⟩], by decide,
      by decide⟩ }

/-- One event before the first fetch and one after each. -/
def demoSurroundings : Surroundings where
  before := appendCall 0 (Authority.Demo.second 0) (demoCall (some "test"))
  between n := appendCall (n + 1) (Authority.Demo.second (n + 1)) (demoCall (some "test"))
  statement _ := Authority.Demo.second 20
  database _ := .fresh demoIdentity

/-- Alice reads one event at a time. -/
def demoListing : ListArgs :=
  ⟨some ⟨6⟩, some Authority.Demo.alice, some 3, some 0, none, some 1, some "reading-1"⟩

theorem demo_reader (n : Nat) :
    auditReader (demoSurroundings.statement n) (demoSurroundings.at Authority.Demo.digest n)
      demoListing = .ok () := by
  have hfresh : auditReader (Authority.Demo.second 20) (.fresh demoIdentity) demoListing = .ok () := by
    decide
  exact hfresh

/-- The reader gets the one event of the first fetch. -/
theorem demo_pages :
    follow (fetchPage Authority.Demo.digest demoSurroundings demoListing) 2 0 none =
      .ok (some ((demoSurroundings.ledger Authority.Demo.digest 0).committed.rows.reverse.map
        eventItem)) :=
  (audit_pages Authority.Demo.digest demoSurroundings demoListing rfl (by decide) (by decide)
    demo_reader).1 2 (by decide +kernel)

end Audit
