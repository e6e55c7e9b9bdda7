import OpenSphere.Shell.Commits
import OpenSphere.Properties.Sessions

/-!
# The lease fence of the shell sessions

A worker's call names its claim: itself, the generation and the fencing epoch.
The functions compare these with `<>` in a chain of `OR`, and a session that
nobody has claimed has a NULL owner and a NULL expiry.  `leaseFence` says that a
call of one of the four fenced functions that changes a session changes the one
it names, and that the caller then holds the lease exactly when none of the
compared values is NULL.
-/

open Sql

namespace ConsoleShell

variable {C : ShellCrypto} {t : Clock} {db db' : Shell}

inductive FencedCall where
  | transition (p : TransitionArgs)
  | reproject (p : ReprojectArgs)
  | register (p : RegisterArgs)
  | revoke (f : Fence) (reasonCode : Option String)

def FencedCall.call : FencedCall → Call
  | transition p => .transitionShellSession p
  | reproject p => .reprojectShellRuntime p
  | register p => .registerShellRuntime p
  | revoke f reasonCode => .revokeShellSessionAuthority f reasonCode

def FencedCall.fence : FencedCall → Fence
  | transition p => p.fence
  | reproject p => p.fence
  | register p => p.fence
  | revoke f _ => f

/-- The named claim is the session's, and its lease has not expired. -/
structure Fence.Holds (f : Fence) (now : Timestamp) (r : ShellSession) : Prop where
  owner : ∃ worker, r.leaseOwner = some worker ∧ f.worker = some worker
  lease : ∃ expiry, r.leaseExpiresAt = some expiry ∧ now < expiry
  generation : f.generation = some r.generation
  epoch : f.fencingEpoch = some r.fencingEpoch

/-- Nothing the fence compares is NULL: the session is claimed, and the call names a
worker, a generation and an epoch. -/
structure Fence.Given (f : Fence) (r : ShellSession) : Prop where
  claimed : r.leaseOwner ≠ none
  worker : f.worker ≠ none
  generation : f.generation ≠ none
  epoch : f.fencingEpoch ≠ none

theorem lease_columns {r : ShellSession} (hr : r ∈ db.sessions.rows) :
    r.leaseExpiresAt = none ↔ r.leaseOwner = none := by
  have hcheck := db.sessions.checked r hr
  simp only [shellSessionSchema, leaseCheck, Bool.and_eq_true, beq_iff_eq] at hcheck
  have hlease := hcheck.1.1.2.1.2
  cases hexpiry : r.leaseExpiresAt <;> cases howner : r.leaseOwner <;>
    simp [hexpiry, howner] at hlease ⊢

theorem fenceLost_lease {f : Fence} {r : ShellSession}
    (h : ∀ c ∈ fenceLost t.start r f, c ≠ some true) {expiry : Timestamp}
    (hexpiry : r.leaseExpiresAt = some expiry) : t.start < expiry := by
  have hlease := h (le r.leaseExpiresAt (some t.start)) (by simp [fenceLost])
  simpa [hexpiry] using hlease

/-- A fence that was not lost holds exactly when nothing it compares is NULL. -/
theorem fence_holds_iff {f : Fence} {r : ShellSession} (hr : r ∈ db.sessions.rows)
    (h : ∀ c ∈ fenceLost t.start r f, c ≠ some true) :
    f.Holds t.start r ↔ f.Given r := by
  constructor
  · rintro ⟨⟨worker, howner, hworker⟩, -, hgeneration, hepoch⟩
    exact ⟨by simp [howner], by simp [hworker], by simp [hgeneration], by simp [hepoch]⟩
  · intro hgiven
    obtain ⟨owner, howner⟩ := Option.ne_none_iff_exists'.mp hgiven.claimed
    obtain ⟨worker, hworker⟩ := Option.ne_none_iff_exists'.mp hgiven.worker
    obtain ⟨generation, hgeneration⟩ := Option.ne_none_iff_exists'.mp hgiven.generation
    obtain ⟨epoch, hepoch⟩ := Option.ne_none_iff_exists'.mp hgiven.epoch
    have hlease : r.leaseExpiresAt ≠ none := by
      rw [Ne, lease_columns hr]
      exact hgiven.claimed
    obtain ⟨expiry, hexpiry⟩ := Option.ne_none_iff_exists'.mp hlease
    have hsameOwner : owner = worker :=
      ne_passed (h (ne r.leaseOwner f.worker) (by simp [fenceLost])) howner hworker
    have hsameGeneration : r.generation = generation :=
      ne_passed (h (ne (some r.generation) f.generation) (by simp [fenceLost])) rfl hgeneration
    have hsameEpoch : r.fencingEpoch = epoch :=
      ne_passed (h (ne (some r.fencingEpoch) f.fencingEpoch) (by simp [fenceLost])) rfl hepoch
    exact ⟨⟨owner, howner, by rw [hworker, hsameOwner]⟩,
      ⟨expiry, hexpiry, fenceLost_lease h hexpiry⟩, by rw [hgeneration, hsameGeneration],
      by rw [hepoch, hsameEpoch]⟩

theorem Change.fenced {c : FencedCall} {r r' : ShellSession} (h : Change C t db c.call r r') :
    c.fence.sessionId = some r.sessionId ∧ ∀ x ∈ fenceLost t.start r c.fence, x ≠ some true := by
  cases c with
  | transition p =>
      cases h with
      | moved named _ admitted =>
          exact ⟨named, fun x hx => any_ne_true admitted x
            (List.mem_cons_of_mem _ (List.mem_append_left _ hx))⟩
      | disabled switch => cases switch
  | reproject p =>
      cases h with
      | reprojected named admitted =>
          exact ⟨named, fun x hx => any_ne_true admitted x
            (List.mem_cons_of_mem _ (List.mem_append_left _ hx))⟩
      | disabled switch => cases switch
  | register p =>
      cases h with
      | registered named admitted =>
          exact ⟨named, fun x hx => any_ne_true admitted x
            (List.mem_cons_of_mem _ (List.mem_append_left _ hx))⟩
      | disabled switch => cases switch
  | revoke f reasonCode =>
      cases h with
      | revoked named admitted =>
          exact ⟨named, fun x hx => any_ne_true admitted x (List.mem_append_left _ hx)⟩
      | disabled switch => cases switch

/-- A fenced call that changes a session changes the one it names.  It holds the lease of
that session exactly when nothing the fence compares is NULL, and it never finds an
expired lease. -/
theorem lease_fence (C : ShellCrypto) (t : Clock) (db db' : Shell) (c : FencedCall) (k : Uuid)
    (h : c.call.exec C t db = .ok db')
    (hchanged : db'.sessions.lookup (some k) ≠ db.sessions.lookup (some k)) :
    c.fence.sessionId = some k ∧ ∃ r, db.sessions.lookup (some k) = some r ∧
      (c.fence.Holds t.start r ↔ c.fence.Given r) ∧
      ∀ expiry, r.leaseExpiresAt = some expiry → t.start < expiry := by
  rcases (call_step h).sessions.lookup k with
    hsame | ⟨r, r', hr, -, hchange⟩ | ⟨p, r, hcreate, -⟩
  · exact absurd hsame hchanged
  · obtain ⟨hnamed, hpassed⟩ := hchange.fenced
    obtain ⟨hmem, hkey⟩ := lookup_mem hr
    refine ⟨hnamed.trans hkey.symm, r, hr, fence_holds_iff hmem hpassed, ?_⟩
    intro expiry hexpiry
    exact fenceLost_lease hpassed hexpiry
  · cases c <;> cases hcreate

/-! ## A session nobody has claimed -/

open Authority.Demo (alice noon)

deriving instance DecidableEq for ControlState, Control, ControlEvent, Shell

namespace Demo

def crypto : ShellCrypto where
  digest := Authority.Demo.digest
  sha256 _ := List.replicate 32 0
  octets _ := List.length_replicate

/-- The revision of every authority under `crypto`. -/
def revision : Option String :=
  some "sha256:0000000000000000000000000000000000000000000000000000000000000000"

/-- A call that runs at once, some seconds after noon. -/
def clock (k : Nat) : Clock := ⟨noon + seconds k, noon + seconds k, le_refl _⟩

def migration : AppliedMigration where
  globalId := "opensphere-console/20260903/0035"
  sourceRevision := "0123456789012345678901234567890123456789"
  migrationSetDigest := "sha256:0123456789012345678901234567890123456789012345678901234567890123"

def setupEvidence : Jsonb := .object [
  ("authority", .ofText "opensphere-setup-cli"),
  ("channel", .ofText "edge"),
  ("componentSetDigest", .ofText migration.migrationSetDigest),
  ("latestGlobalId", .ofText migration.globalId),
  ("migrationSetDigest", .ofText migration.migrationSetDigest),
  ("releaseDigest", .ofText migration.migrationSetDigest),
  ("sourceRevision", .ofText migration.sourceRevision),
  ("workloadSet", workloadSet)]

def setup : Action :=
  .call (clock 3) (.activateNativeRuntimeFromSetup (some 1) (some setupEvidence) ⟨7⟩)

def creation (id : Nat) : CreateArgs where
  sessionId := some ⟨id⟩
  browserSessionId := some ⟨102⟩
  actorId := some alice
  origin := some "https://console"
  aal := some "aal1"
  permissionRevision := revision
  runtimeTemplateRevision := some "template"
  idleExpiresAt := some (noon + seconds 900)
  absoluteExpiresAt := some (noon + seconds 3600)
  releaseEvidence := some (.object [
    ("releaseEvidenceRef", .ofText "edge"),
    ("manifestSha256", .ofText migration.migrationSetDigest),
    ("keyId", .ofText "key"),
    ("runtimeImageDigest", .ofText migration.migrationSetDigest),
    ("osArtifactDigest", .ofText migration.migrationSetDigest),
    ("sessionPolicyRevision", .ofText "policy")])

def create (k id : Nat) : Action := .call (clock k) (.createShellSession (creation id))

def claim (k : Nat) : Action :=
  .call (clock k) (.claimShellSessions (some "reconciler-1") none [])

/-- The claim the worker makes of session 9 first. -/
def fence : Fence where
  sessionId := some ⟨9⟩
  worker := some "reconciler-1"
  generation := some 1
  fencingEpoch := some 2

def provisioning (f : Fence) : TransitionArgs where
  fence := f
  actorId := some alice
  expectedState := some "Pending"
  nextState := some "Provisioning"
  permissionRevision := revision
  runtimeUid := some "pod-1"
  runtimeResourceVersion := none
  reasonCode := some "RuntimePodCreated"

/-- The shell tables after some actions, in a site where Alice is logged in. -/
def after (as : List Action) : Shell :=
  System.run (perform crypto) as (Shell.installed ConsoleIdentity.Demo.loggedIn noon migration)

/-- The rows once the shell is enabled. -/
def enabled : Shell :=
  { Shell.installed ConsoleIdentity.Demo.entered noon migration with
    control := {
      enabled := true
      revision := 2
      actorActiveLimit := 2
      globalActiveLimit := 8
      reason := "Verified OpenSphere Setup native runtime installation completed"
      changedBy := none
      changedIdentity := "installer:opensphere-setup-cli/edge"
      operationEvidence := setupEvidence
      changedAt := (clock 3).start
      drainCompletedAt := none
      operationId := some ⟨7⟩
      operationKind := some .enable
      operationPhase := some .completed
      operationIdentity := some "installer:opensphere-setup-cli/edge"
      operationStartedAt := some (clock 3).now
      operationCompletedAt := some (clock 3).now
      scaleClaimToken := none
      scaleClaimExpiresAt := none
      checked := by decide }
    controlEvents := [{
      revision := 2
      enabled := true
      eventType := .enabled
      reason := "Verified OpenSphere Setup native runtime installation completed"
      actorId := none
      actorIdentity := "installer:opensphere-setup-cli/edge"
      operationEvidence := setupEvidence
      affectedSessions := 0
      occurredAt := (clock 3).now }] }

theorem setup_eq (C : ShellCrypto) :
    perform C setup (Shell.installed ConsoleIdentity.Demo.loggedIn noon migration) = enabled := by
  rw [ConsoleIdentity.Demo.loggedIn_eq]
  change perform crypto setup (Shell.installed ConsoleIdentity.Demo.entered noon migration) = enabled
  decide +kernel

theorem after_setup (as : List Action) :
    after (setup :: as) = System.run (perform crypto) as enabled := by
  rw [← setup_eq crypto, after, System.run]

theorem after_reachable (as : List Action) : Reachable crypto (after as) :=
  ⟨_, _, _, as, rfl⟩

def changes (c : Call) (k : Nat) (db : Shell) (test : ShellSession → Bool) : Option Bool :=
  (c.exec crypto (clock k) db).toOption.map fun db' =>
    (db.sessions.lookup (some ⟨9⟩)).any fun r =>
      test r && decide (db'.sessions.lookup (some ⟨9⟩) ≠ some r)

theorem changes_eq_true {c : Call} {k : Nat} {db : Shell} {test : ShellSession → Bool}
    (h : changes c k db test = some true) :
    ∃ db' r, c.exec crypto (clock k) db = .ok db' ∧
      db.sessions.lookup (some ⟨9⟩) = some r ∧ test r = true ∧
      db'.sessions.lookup (some ⟨9⟩) ≠ some r := by
  unfold changes at h
  cases hexec : c.exec crypto (clock k) db with
  | error e => simp [hexec, Except.toOption] at h
  | ok db' =>
      simp only [hexec, Except.toOption, Option.map_some, Option.some.injEq] at h
      obtain ⟨r, hr, htest⟩ := Option.any_eq_true _ _ |>.mp h
      rw [Bool.and_eq_true, decide_eq_true_eq] at htest
      exact ⟨db', r, rfl, hr, htest.1, htest.2⟩

end Demo

theorem demo_lease :
    ∃ db' r, Reachable Demo.crypto (Demo.after [Demo.setup, Demo.create 4 9, Demo.claim 5]) ∧
      (FencedCall.transition (Demo.provisioning Demo.fence)).call.exec Demo.crypto (Demo.clock 6)
        (Demo.after [Demo.setup, Demo.create 4 9, Demo.claim 5]) = .ok db' ∧
      (Demo.after [Demo.setup, Demo.create 4 9, Demo.claim 5]).sessions.lookup (some ⟨9⟩) =
        some r ∧
      Demo.fence.Holds (Demo.clock 6).start r := by
  have hrun : Demo.changes (.transitionShellSession (Demo.provisioning Demo.fence)) 6
      (Demo.after [Demo.setup, Demo.create 4 9, Demo.claim 5]) (·.leaseOwner.isSome) =
      some true := by
    rw [Demo.after_setup]
    decide
  obtain ⟨db', r, hexec, hr, howner, hchanged⟩ := Demo.changes_eq_true hrun
  obtain ⟨-, x, hx, hiff, -⟩ := lease_fence Demo.crypto (Demo.clock 6) _ db'
    (.transition (Demo.provisioning Demo.fence)) ⟨9⟩ hexec (by rw [hr]; exact hchanged)
  obtain rfl : x = r := Option.some.inj (hx.symm.trans hr)
  refine ⟨db', x, Demo.after_reachable _, hexec, hr, hiff.mpr ⟨?_, ?_, ?_, ?_⟩⟩
  · exact Option.isSome_iff_ne_none.mp howner
  · exact Option.some_ne_none _
  · exact Option.some_ne_none _
  · exact Option.some_ne_none _

/-- Somebody without a lease moves a session that nobody has claimed. -/
theorem unclaimed_session_moved :
    ∃ db' r, Reachable Demo.crypto (Demo.after [Demo.setup, Demo.create 4 9]) ∧
      (FencedCall.transition (Demo.provisioning { Demo.fence with fencingEpoch := some 1 })).call.exec
        Demo.crypto (Demo.clock 6) (Demo.after [Demo.setup, Demo.create 4 9]) = .ok db' ∧
      (Demo.after [Demo.setup, Demo.create 4 9]).sessions.lookup (some ⟨9⟩) = some r ∧
      r.leaseOwner = none ∧ db'.sessions.lookup (some ⟨9⟩) ≠ some r := by
  have hrun : Demo.changes (.transitionShellSession
      (Demo.provisioning { Demo.fence with fencingEpoch := some 1 })) 6
      (Demo.after [Demo.setup, Demo.create 4 9]) (·.leaseOwner.isNone) = some true := by
    rw [Demo.after_setup]
    decide
  obtain ⟨db', r, hexec, hr, howner, hchanged⟩ := Demo.changes_eq_true hrun
  exact ⟨db', r, Demo.after_reachable _, hexec, hr, Option.isNone_iff_eq_none.mp howner, hchanged⟩

end ConsoleShell
