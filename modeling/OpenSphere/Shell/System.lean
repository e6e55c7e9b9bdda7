import OpenSphere.Shell.Control

/-!
# The shell system

Its steps are the calls of the shell functions that write, each with its two
clock readings, the steps of the identity system, and later migrations.  A call
that raises leaves the database as it was.
-/

open Sql

namespace ConsoleShell

inductive Call where
  | createShellSession (p : CreateArgs)
  | requestShellSessionTeardown (p : TeardownArgs)
  | claimShellSessions (worker : Option String) (limit : Option Int) (locked : List Uuid)
  | heartbeatShellSession (f : Fence) (actorId : Option Uuid) (permissionRevision : Option String)
  | reprojectShellRuntime (p : ReprojectArgs)
  | registerShellRuntime (p : RegisterArgs)
  | revokeShellSessionAuthority (f : Fence) (reasonCode : Option String)
  | transitionShellSession (p : TransitionArgs)
  | touchShellSessionActivity (b : Binding)
  | issueShellAttachTicket (p : IssueArgs)
  | consumeShellAttachTicket (p : ConsumeArgs)
  | authorizeShellRuntimeAttach (ticketHash : Option String) (p : RuntimeArgs)
  | getShellFeatureState
  | setShellFeatureState (enabled : Option Bool) (expectedRevision : Option Int)
      (reason : Option String) (actorId : Option Uuid)
  | setShellFeatureStateLocalEdge (p : LocalEdgeArgs)
  | claimShellFeatureScaleDown (p : ScaleDownArgs) (leaseSeconds : Option Int)
  | completeShellFeatureScaleDown (p : ScaleDownArgs)
  | activateNativeRuntimeFromSetup (expectedRevision : Option Int) (evidence : Option Jsonb)
      (operationId : Uuid)

def Call.exec (C : ShellCrypto) (t : Clock) (db : Shell) : Call → Except SqlError Shell
  | .createShellSession p => (·.1) <$> ConsoleShell.createShellSession C t p db
  | .requestShellSessionTeardown p => (·.1) <$> ConsoleShell.requestShellSessionTeardown C t p db
  | .claimShellSessions worker limit locked =>
      (·.1) <$> ConsoleShell.claimShellSessions t worker limit locked db
  | .heartbeatShellSession f actorId permissionRevision =>
      (·.1) <$> ConsoleShell.heartbeatShellSession C t f actorId permissionRevision db
  | .reprojectShellRuntime p => (·.1) <$> ConsoleShell.reprojectShellRuntime t p db
  | .registerShellRuntime p => (·.1) <$> ConsoleShell.registerShellRuntime C t p db
  | .revokeShellSessionAuthority f reasonCode =>
      (·.1) <$> ConsoleShell.revokeShellSessionAuthority C t f reasonCode db
  | .transitionShellSession p => (·.1) <$> ConsoleShell.transitionShellSession C t p db
  | .touchShellSessionActivity b => (·.1) <$> ConsoleShell.touchShellSessionActivity C t b db
  | .issueShellAttachTicket p => (·.1) <$> ConsoleShell.issueShellAttachTicket C t p db
  | .consumeShellAttachTicket p => (·.1) <$> ConsoleShell.consumeShellAttachTicket C t p db
  | .authorizeShellRuntimeAttach ticketHash p =>
      (·.1) <$> ConsoleShell.authorizeShellRuntimeAttach C t ticketHash p db
  | .getShellFeatureState => (·.1) <$> ConsoleShell.getShellFeatureState t db
  | .setShellFeatureState enabled expectedRevision reason actorId =>
      ConsoleShell.setShellFeatureState t enabled expectedRevision reason actorId db
  | .setShellFeatureStateLocalEdge p => ConsoleShell.setShellFeatureStateLocalEdge t p db
  | .claimShellFeatureScaleDown p leaseSeconds =>
      ConsoleShell.claimShellFeatureScaleDown t p leaseSeconds db
  | .completeShellFeatureScaleDown p => ConsoleShell.completeShellFeatureScaleDown t p db
  | .activateNativeRuntimeFromSetup expectedRevision evidence operationId =>
      ConsoleShell.activateNativeRuntimeFromSetup t expectedRevision evidence operationId db

inductive Action where
  /-- A call of a shell function. -/
  | call (t : Clock) (c : Call)
  /-- A step of the identity system. -/
  | identity (a : ConsoleIdentity.Action)
  /-- A later migration is recorded. -/
  | migrate (m : AppliedMigration)

def Action.exec (C : ShellCrypto) (db : Shell) : Action → Except SqlError Shell
  | .call t c => c.exec C t db
  | .identity a => do
      let site ← a.exec C.toCrypto db.site
      return { db with site }
  | .migrate m => .ok { db with migration := m }

/-- The database after an action, which leaves it alone if it raises. -/
def perform (C : ShellCrypto) (a : Action) (db : Shell) : Shell :=
  ((a.exec C db).toOption).getD db

theorem perform_cases (C : ShellCrypto) (a : Action) (db : Shell) :
    perform C a db = db ∨ a.exec C db = .ok (perform C a db) := by
  cases h : a.exec C db with
  | error e => exact .inl (by simp [perform, h, Except.toOption])
  | ok db' => exact .inr (by simp [perform, h, Except.toOption])

theorem perform_of_ok {C : ShellCrypto} {a : Action} {db db' : Shell} (h : a.exec C db = .ok db') :
    perform C a db = db' := by
  simp [perform, h, Except.toOption]

def Shell.installed (site : ConsoleIdentity.Site) (changedAt : Timestamp)
    (migration : AppliedMigration) : Shell :=
  Shell.fresh site (Control.initial changedAt) migration

def Reachable (C : ShellCrypto) (db : Shell) : Prop :=
  ∃ site changedAt migration as,
    db = System.run (perform C) as (Shell.installed site changedAt migration)

end ConsoleShell
