import OpenSphere.Shell.Sessions

/-!
# Attach tickets

A ticket is issued to a browser for a Ready session, consumed by the gateway,
and authorised by the runtime.  `revalidate_shell_runtime` is what the runtime
asks every two seconds afterwards.
-/

open Sql
open Authority (exception)

namespace ConsoleShell

/-! ## Issue -/

/-- The arguments of `issue_shell_attach_ticket`. -/
structure IssueArgs where
  ticketHash : Option String
  binding : Binding
  expiresAt : Option Timestamp

def expired (now : Timestamp) (r : ShellSession) : List Cond :=
  [le (some r.idleExpiresAt) (some now), le (some r.absoluteExpiresAt) (some now)]

/-- The row `issue_shell_attach_ticket` inserts. -/
def newTicket (t : Timestamp) (p : IssueArgs) : Except SqlError AttachTicket := do
  let ticketHash ← notNull p.ticketHash "ticket_hash"
  let sessionId ← notNull p.binding.sessionId "session_id"
  let browserSessionId ← notNull p.binding.browserSessionId "browser_session_id"
  let actorId ← notNull p.binding.actorId "actor_id"
  let origin ← notNull p.binding.origin "origin"
  let generation ← notNull p.binding.generation "generation"
  let fencingEpoch ← notNull p.binding.fencingEpoch "fencing_epoch"
  let permissionRevision ← notNull p.binding.permissionRevision "permission_revision"
  let aal ← notNull p.binding.aal "aal"
  let aal ← orRaise (aalOfText aal) (.check "console_shell.shell_attach_ticket")
  let expiresAt ← notNull p.expiresAt "expires_at"
  return {
    ticketHash, sessionId, browserSessionId, actorId, origin, generation, fencingEpoch
    permissionRevision, aal
    createdAt := t
    expiresAt
    consumedAt := none
    consumedBy := none
    runtimeAuthorizedAt := none
    runtimeAuthorizedBy := none }

/-- `INSERT INTO shell_attach_ticket`.  The rows it refers to are those its session
refers to. -/
def Shell.insertTicket (db : Shell) (x : AttachTicket) : Except SqlError Shell := do
  let t ← db.tickets.insert x
  return { db with tickets := t }

/-- `console_shell.issue_shell_attach_ticket`. -/
def issueShellAttachTicket (C : ShellCrypto) (t : Clock) (p : IssueArgs) (db : Shell) :
    Except SqlError (Shell × AttachTicket) := do
  raiseIf (some (!db.control.enabled)) (raisedException "ShellFeatureDisabled")
  assertShellAuthority C db p.binding.actorId p.binding.permissionRevision true
  let unattachable := fenceLostError "shell session binding is not attachable"
  let r ← orRaise (db.sessions.lookup p.binding.sessionId) unattachable
  raiseIf (.any (bindingChanged r p.binding ++ expired t.start r)) unattachable
  raiseIf (some (!browserActive db.site t.start p.binding))
    (exception "durable browser session is no longer active" "28000" "")
  raiseIf (.any [le p.expiresAt (some t.start), lt (some (t.start + seconds 30)) p.expiresAt,
      lt (some r.idleExpiresAt) p.expiresAt, lt (some r.absoluteExpiresAt) p.expiresAt])
    (raisedException "attach ticket TTL must be at most 30 seconds")
  let x ← newTicket t.now p
  let db ← db.insertTicket x
  let db ← db.append t.now p.binding.sessionId .attachTicketIssued .succeeded
    (some "AttachTicketBound")
  return (db, x)

/-! ## Consumption -/

/-- The arguments of `consume_shell_attach_ticket`. -/
structure ConsumeArgs where
  ticketHash : Option String
  binding : Binding
  consumer : Option String

def consumeSelects (now : Timestamp) (p : ConsumeArgs) (x : AttachTicket) : Bool :=
  Cond.all [eq (some x.ticketHash) p.ticketHash, eq (some x.sessionId) p.binding.sessionId,
    eq (some x.browserSessionId) p.binding.browserSessionId,
    eq (some x.actorId) p.binding.actorId, eq (some x.origin) p.binding.origin,
    eq (some x.generation) p.binding.generation,
    eq (some x.fencingEpoch) p.binding.fencingEpoch, eq (some x.aal.text) p.binding.aal,
    eq (some x.permissionRevision) p.binding.permissionRevision, isNull x.consumedAt,
    lt (some now) (some x.expiresAt)] == some true

def ShellSession.attached (now : Timestamp) (r : ShellSession) : ShellSession :=
  { r with lastActivityAt := now, updatedAt := now }

/-- `console_shell.consume_shell_attach_ticket`, which returns no row where it refuses. -/
def consumeShellAttachTicket (C : ShellCrypto) (t : Clock) (p : ConsumeArgs) (db : Shell) :
    Except SqlError (Shell × Option ShellSession) := do
  assertShellAuthority C db p.binding.actorId p.binding.permissionRevision true
  match db.sessions.lookup p.binding.sessionId with
  | none => return (db, none)
  | some r =>
      if Cond.any (bindingChanged r p.binding ++ expired t.start r) = some true then
        return (db, none)
      if !browserActive db.site t.start p.binding then return (db, none)
      let selects := consumeSelects t.start p
      let tickets ← db.tickets.updateWhere selects fun x =>
        { x with consumedAt := some t.start, consumedBy := p.consumer }
      let affected := (db.tickets.rows.filter selects).length
      let db := { db with tickets := tickets }
      -- the update of no row is committed, and changes nothing
      if affected ≠ 1 then return (db, none)
      let db ← db.updateSession r.sessionId (ShellSession.attached t.start)
      let db ← db.append t.now p.binding.sessionId .sessionAttached .succeeded
        (some "AttachTicketConsumed")
      return (db, some r)

/-! ## Authorisation -/

structure RuntimeArgs where
  runtimeCredentialHash : Option String
  sessionId : Option Uuid
  runtimeUid : Option String
  generation : Option Int
  fencingEpoch : Option Int

def runtimeChanged (now : Timestamp) (r : ShellSession) (p : RuntimeArgs) : Cond :=
  .any [ne r.runtimeCredentialHash p.runtimeCredentialHash,
    le r.runtimeCredentialExpiresAt (some now), ne r.runtimeUid p.runtimeUid,
    ne (some r.generation) p.generation, ne (some r.fencingEpoch) p.fencingEpoch,
    some (decide (r.desiredState ≠ .running)), some (decide (r.observedState ≠ .ready))]

def authorizeSelects (now : Timestamp) (ticketHash : Option String) (p : RuntimeArgs)
    (x : AttachTicket) : Bool :=
  Cond.all [eq (some x.ticketHash) ticketHash, eq (some x.sessionId) p.sessionId,
    eq (some x.generation) p.generation, eq (some x.fencingEpoch) p.fencingEpoch,
    isNotNull x.consumedAt, isNull x.runtimeAuthorizedAt,
    lt (some now) (some x.expiresAt)] == some true

/-- `console_shell.authorize_shell_runtime_attach`, which returns no row where it refuses. -/
def authorizeShellRuntimeAttach (C : ShellCrypto) (t : Clock) (ticketHash : Option String)
    (p : RuntimeArgs) (db : Shell) : Except SqlError (Shell × Option ShellSession) := do
  match db.sessions.lookup p.sessionId with
  | none => return (db, none)
  | some r =>
      if runtimeChanged t.start r p = some true then return (db, none)
      let revision ← currentShellPermissionRevision C db.site (some r.actorId)
      if Cond.any [ne (some r.permissionRevision) (some revision),
          some (!shellActorHasPermission db (some r.actorId) "session:attach")] = some true then
        return (db, none)
      let selects := authorizeSelects t.start ticketHash p
      let tickets ← db.tickets.updateWhere selects fun x =>
        { x with runtimeAuthorizedAt := some t.start, runtimeAuthorizedBy := p.runtimeUid }
      let affected := (db.tickets.rows.filter selects).length
      let db := { db with tickets := tickets }
      if affected ≠ 1 then return (db, none)
      return (db, some r)

/-- `console_shell.revalidate_shell_runtime`.  The joined rows are unique by their keys. -/
def revalidateShellRuntime (C : ShellCrypto) (now : Timestamp) (p : RuntimeArgs) (db : Shell) :
    List ShellSession :=
  db.sessions.rows.filter fun r =>
    db.site.sessions.rows.any fun b => db.site.subjects.rows.any fun o =>
      Cond.all ([eq (some b.sessionId) (some r.browserSessionId),
        eq (some o.subjectId) (some r.actorId), eq (some r.sessionId) p.sessionId,
        eq r.runtimeCredentialHash p.runtimeCredentialHash,
        lt (some now) r.runtimeCredentialExpiresAt, eq r.runtimeUid p.runtimeUid,
        eq (some r.generation) p.generation, eq (some r.fencingEpoch) p.fencingEpoch,
        some (decide (r.desiredState = .running)), some (decide (r.observedState = .ready)),
        eq (some r.permissionRevision) (some (permissionRevisionOf C db.site o)),
        some (shellActorHasPermission db (some r.actorId) "session:attach"),
        lt (some now) (some r.idleExpiresAt), lt (some now) (some r.absoluteExpiresAt)] ++
        browserCurrent now b o (some r.aal.text)) == some true

end ConsoleShell
