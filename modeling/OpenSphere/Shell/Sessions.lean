import OpenSphere.Shell.Statements

/-!
# Session functions

The functions that create a shell session, ask for its end, keep it active, and
those the reconciler drives it with: claim, heartbeat, reprojection, runtime
registration, revocation and the transitions of `observed_state`.
-/

open Sql
open Authority (Aal exception between)
open ConsoleIdentity (minutes)

namespace ConsoleShell

/-! ## Creation -/

/-- The arguments of `create_shell_session`. -/
structure CreateArgs where
  sessionId : Option Uuid
  browserSessionId : Option Uuid
  actorId : Option Uuid
  origin : Option String
  aal : Option String
  permissionRevision : Option String
  runtimeTemplateRevision : Option String
  idleExpiresAt : Option Timestamp
  absoluteExpiresAt : Option Timestamp
  releaseEvidence : Option Jsonb

def releaseKeys : List String :=
  ["releaseEvidenceRef", "manifestSha256", "keyId", "runtimeImageDigest", "osArtifactDigest",
    "sessionPolicyRevision"]

/-- `p_release_evidence ->> key`. -/
def CreateArgs.evidence (p : CreateArgs) (key : String) : Option String :=
  p.releaseEvidence.bind fun e => e.getText key

/-- The release evidence is not an object with exactly the release keys. -/
def releaseInvalid (e : Option Jsonb) : List Cond :=
  [ne (e.map Jsonb.typeof) (some "object"),
    fails (fun j => releaseKeys.all fun k => (j.get k).isSome) e,
    some (((e.bind Jsonb.objectKeys).getD []).any fun k => decide (k ∉ releaseKeys))]

def ShellSession.counts (now : Timestamp) (r : ShellSession) : Bool :=
  decide (r.desiredState = .running) && decide (r.observedState ≠ .terminated) &&
  decide (now < r.idleExpiresAt) && decide (now < r.absoluteExpiresAt)

/-- `SELECT count(*) FROM shell_session WHERE ...`, of an actor or of all. -/
def Shell.active (db : Shell) (now : Timestamp) (p : ShellSession → Bool) : Nat :=
  (db.sessions.rows.filter fun r => p r && r.counts now).length

def sameIntent (r : ShellSession) (p : CreateArgs) : Cond :=
  .all [eq (some r.browserSessionId) p.browserSessionId, eq (some r.actorId) p.actorId,
    eq (some r.origin) p.origin, eq (some r.aal.text) p.aal,
    eq (some r.permissionRevision) p.permissionRevision,
    eq (some r.runtimeTemplateRevision) p.runtimeTemplateRevision,
    eq (some r.release.releaseEvidenceRef) (p.evidence "releaseEvidenceRef"),
    eq (some r.release.manifestSha256) (p.evidence "manifestSha256"),
    eq (some r.release.keyId) (p.evidence "keyId"),
    eq (some r.release.runtimeImageDigest) (p.evidence "runtimeImageDigest"),
    eq (some r.release.osArtifactDigest) (p.evidence "osArtifactDigest"),
    eq (some r.release.sessionPolicyRevision) (p.evidence "sessionPolicyRevision")]

/-- The row `create_shell_session` inserts. -/
def newSession (t : Timestamp) (p : CreateArgs) : Except SqlError ShellSession := do
  let sessionId ← notNull p.sessionId "session_id"
  let browserSessionId ← notNull p.browserSessionId "browser_session_id"
  let actorId ← notNull p.actorId "actor_id"
  let runtimeTemplateRevision ← notNull p.runtimeTemplateRevision "runtime_template_revision"
  let origin ← notNull p.origin "origin"
  let permissionRevision ← notNull p.permissionRevision "permission_revision"
  let aal ← notNull p.aal "aal"
  let aal ← orRaise (aalOfText aal) (.check "console_shell.shell_session")
  let idleExpiresAt ← notNull p.idleExpiresAt "idle_expires_at"
  let absoluteExpiresAt ← notNull p.absoluteExpiresAt "absolute_expires_at"
  let releaseEvidenceRef ← notNull (p.evidence "releaseEvidenceRef") "release_evidence_ref"
  let manifestSha256 ← notNull (p.evidence "manifestSha256") "manifest_sha256"
  let keyId ← notNull (p.evidence "keyId") "key_id"
  let runtimeImageDigest ← notNull (p.evidence "runtimeImageDigest") "runtime_image_digest"
  let osArtifactDigest ← notNull (p.evidence "osArtifactDigest") "os_artifact_digest"
  let sessionPolicyRevision ←
    notNull (p.evidence "sessionPolicyRevision") "session_policy_revision"
  return {
    sessionId, browserSessionId, actorId, runtimeTemplateRevision, origin
    generation := 1
    fencingEpoch := 1
    desiredState := .running
    observedState := .pending
    permissionRevision, aal
    runtimeUid := none
    runtimeResourceVersion := none
    observedGeneration := none
    runtimeKeyId := none
    runtimePublicKeyPem := none
    runtimeTlsCertificateSha256 := none
    runtimeAttachEndpoint := none
    runtimeCredentialHash := none
    runtimeCredentialExpiresAt := none
    runtimeRegisteredAt := none
    runtimeProjectionStartedAt := none
    leaseOwner := none
    leaseExpiresAt := none
    heartbeatAt := none
    release := {
      releaseEvidenceRef := releaseEvidenceRef
      manifestSha256, keyId, runtimeImageDigest, osArtifactDigest, sessionPolicyRevision }
    createdAt := t
    updatedAt := t
    lastActivityAt := t
    idleExpiresAt, absoluteExpiresAt
    terminationRequestedAt := none
    terminatedAt := none
    lastErrorCode := none }

/-- `console_shell.create_shell_session`.  The advisory locks let one creation at a time
count and insert. -/
def createShellSession (C : ShellCrypto) (t : Clock) (p : CreateArgs) (db : Shell) :
    Except SqlError (Shell × ShellSession) := do
  raiseIf (some (!db.control.enabled)) (raisedException "ShellFeatureDisabled")
  assertShellAuthority C db p.actorId p.permissionRevision true
  let inactive := exception "durable browser session is not active or assurance changed" "28000" ""
  let browser ← orRaise (db.site.sessions.lookup p.browserSessionId) inactive
  let authority := db.site.subjects.lookup p.actorId
  raiseIf (.any [some (decide (p.actorId ≠ some browser.subjectId)), isNotNull browser.revokedAt,
    le (some browser.expiresAt) (some t.start),
    le (some browser.absoluteExpiresAt) (some t.start), ne (some browser.aal.text) p.aal,
    ne (some browser.permissionRevision) (authority.map (·.permissionRevision)),
    ne (some browser.revokeEpoch) (authority.map (·.revokeEpoch))]) inactive
  raiseIf (.any [le p.idleExpiresAt (some t.start), le p.absoluteExpiresAt (some t.start),
    lt p.absoluteExpiresAt p.idleExpiresAt, lt (some browser.expiresAt) p.idleExpiresAt,
    lt (some browser.absoluteExpiresAt) p.absoluteExpiresAt])
    (raisedException "shell session expiry exceeds the durable browser session")
  raiseIf (.any (releaseInvalid p.releaseEvidence))
    (raisedException "complete closed release evidence is required")
  match db.sessions.lookup p.sessionId with
  | some existing =>
      raiseIf (some (decide (sameIntent existing p ≠ some true)))
        (fenceLostError "ShellSessionIdempotencyConflict")
      return (db, existing)
  | none =>
      raiseIf (some (decide (db.control.globalActiveLimit ≤ db.active t.start fun _ => true)))
        (raisedException "ShellGlobalSessionQuotaExceeded")
      raiseIf (some (decide (db.control.actorActiveLimit ≤
          db.active t.start fun r => decide (some r.actorId = p.actorId))))
        (raisedException "ShellActorSessionQuotaExceeded")
      let r ← newSession t.now p
      let db ← db.insertSession r
      let db ← db.append t.now p.sessionId .sessionCreated .succeeded (some "SessionIntentAccepted")
      return (db, r)

/-! ## Teardown -/

def ShellSession.teardown (now : Timestamp) (revision : String) (r : ShellSession) :
    ShellSession :=
  { r with
    desiredState := .terminated
    permissionRevision := revision
    terminationRequestedAt := some (r.terminationRequestedAt.getD now)
    updatedAt := now }

/-- The arguments of `request_shell_session_teardown`. -/
structure TeardownArgs where
  sessionId : Option Uuid
  browserSessionId : Option Uuid
  actorId : Option Uuid
  origin : Option String
  permissionRevision : Option String
  reasonCode : Option String

def teardownForeign (r : ShellSession) (p : TeardownArgs) : Cond :=
  .any [ne (some r.browserSessionId) p.browserSessionId, ne (some r.actorId) p.actorId,
    ne (some r.origin) p.origin]

/-- `console_shell.request_shell_session_teardown`, which returns no row for a session of
somebody else. -/
def requestShellSessionTeardown (C : ShellCrypto) (t : Clock) (p : TeardownArgs) (db : Shell) :
    Except SqlError (Shell × Option ShellSession) := do
  assertShellAuthority C db p.actorId p.permissionRevision false
  match db.sessions.lookup p.sessionId with
  | none => return (db, none)
  | some r =>
      if teardownForeign r p = some true then return (db, none)
      let revision ← notNull p.permissionRevision "permission_revision"
      let db ← db.updateSession r.sessionId (ShellSession.teardown t.start revision)
      let db ← db.expireTickets t.start fun x =>
        decide (x.sessionId = r.sessionId) && x.consumedAt.isNone
      let db ← db.append t.now p.sessionId .teardownRequested .succeeded p.reasonCode
      return (db, some (r.teardown t.start revision))

/-! ## Claims -/

/-- A session a worker may claim: not ended, and without a lease that still runs. -/
def ShellSession.claimable (now : Timestamp) (r : ShellSession) : Bool :=
  decide (r.observedState ≠ .terminated) && r.leaseExpiresAt.all fun e => decide (e ≤ now)

/-- `ORDER BY CASE WHEN desired_state = 'Terminated' THEN 0 ELSE 1 END, updated_at,
session_id`. -/
def claimBefore (a b : ShellSession) : Bool :=
  let rank := fun r : ShellSession => if r.desiredState = .terminated then 0 else 1
  decide (rank a < rank b ∨ rank a = rank b ∧ (a.updatedAt < b.updatedAt ∨
    a.updatedAt = b.updatedAt ∧ a.sessionId.bits.toNat ≤ b.sessionId.bits.toNat))

def ShellSession.claimed (now : Timestamp) (worker : String) (r : ShellSession) : ShellSession :=
  { r with
    leaseOwner := some worker
    fencingEpoch := r.fencingEpoch + 1
    leaseExpiresAt := some (now + seconds 15)
    heartbeatAt := some now
    updatedAt := now }

/-- `greatest(1, least(coalesce(p_limit, 5), 20))`. -/
def claimLimit (limit : Option Int) : Nat := (max 1 (min (coalesce limit 5) 20)).toNat

/-- The rows a claim takes.  `SKIP LOCKED` passes over the rows other calls hold. -/
def Shell.candidates (db : Shell) (now : Timestamp) (limit : Option Int) (locked : List Uuid) :
    List ShellSession :=
  (((db.sessions.rows.filter fun r => r.claimable now && decide (r.sessionId ∉ locked))
    ).insertionSort fun a b => claimBefore a b = true).take (claimLimit limit)

/-- `'LeaseClaimed'`. -/
def leaseClaimed : ReasonCode := ⟨"LeaseClaimed", by decide⟩

/-- `console_shell.claim_shell_sessions`. -/
def claimShellSessions (t : Clock) (worker : Option String) (limit : Option Int)
    (locked : List Uuid) (db : Shell) : Except SqlError (Shell × List ShellSession) := do
  raiseIf (notBetween (some (textLength (btrim (coalesce worker "")))) 3 128)
    (raisedException "worker identity required")
  let taken := db.candidates t.now limit locked
  let claim := ShellSession.claimed t.now (coalesce worker "")
  let db ← db.updateSessions (fun r => decide (r ∈ taken)) claim
  let rows := taken.map claim
  return ({ db with
    events := db.events ++
      rows.map (newSessionEvent t.now .runtimeClaimed .succeeded leaseClaimed) }, rows)

def browserOpen (db : Shell) (now : Timestamp) (r : ShellSession) : Bool :=
  db.site.sessions.rows.any fun b =>
    decide (b.sessionId = r.browserSessionId) && decide (b.subjectId = r.actorId) &&
    b.revokedAt.isNone && decide (now < b.expiresAt) && decide (now < b.absoluteExpiresAt)

def Shell.lapsed (db : Shell) (now : Timestamp) (r : ShellSession) : Bool :=
  decide (r.idleExpiresAt ≤ now) || decide (r.absoluteExpiresAt ≤ now) || !browserOpen db now r

def Shell.renewed (db : Shell) (now : Timestamp) (r : ShellSession) : ShellSession :=
  { r with
    leaseExpiresAt := some (now + seconds 15)
    heartbeatAt := some now
    updatedAt := now
    desiredState := if db.lapsed now r then .terminated else r.desiredState
    terminationRequestedAt :=
      if db.lapsed now r then some (r.terminationRequestedAt.getD now)
      else r.terminationRequestedAt }

def heartbeatSelects (now : Timestamp) (f : Fence) (actorId : Option Uuid)
    (permissionRevision : Option String) (r : ShellSession) : Bool :=
  Cond.all [eq (some r.sessionId) f.sessionId, eq (some r.actorId) actorId,
    eq r.leaseOwner f.worker, eq (some r.generation) f.generation,
    eq (some r.fencingEpoch) f.fencingEpoch, eq (some r.permissionRevision) permissionRevision,
    lt (some now) r.leaseExpiresAt, some (decide (r.observedState ≠ .terminated))] == some true

/-- `console_shell.heartbeat_shell_session`. -/
def heartbeatShellSession (C : ShellCrypto) (t : Clock) (f : Fence) (actorId : Option Uuid)
    (permissionRevision : Option String) (db : Shell) : Except SqlError (Shell × Bool) := do
  assertShellAuthority C db actorId permissionRevision false
  let selects := heartbeatSelects t.now f actorId permissionRevision
  let renewed := decide ((db.sessions.rows.filter selects).length = 1)
  let db ← db.updateSessions selects (db.renewed t.now)
  return (db, renewed)

/-- `console_shell.inspect_shell_claim`. -/
def inspectShellClaim (t : Clock) (f : Fence) (db : Shell) : Option ShellSession :=
  db.sessions.rows.find? fun r =>
    Cond.all [eq (some r.sessionId) f.sessionId, eq r.leaseOwner f.worker,
      eq (some r.generation) f.generation, eq (some r.fencingEpoch) f.fencingEpoch,
      lt (some t.now) r.leaseExpiresAt, some (decide (r.observedState ≠ .terminated))] == some true

/-! ## Runtimes -/

/-- The arguments of `reproject_shell_runtime`. -/
structure ReprojectArgs where
  fence : Fence
  actorId : Option Uuid
  expectedRuntimeUid : Option String
  reasonCode : Option String

/-- A session whose runtime is given up for the next generation. -/
def ShellSession.reprojected (now : Timestamp) (r : ShellSession) : ShellSession :=
  { r with
    generation := r.generation + 1
    observedState := .pending
    runtimeUid := none
    runtimeResourceVersion := none
    observedGeneration := none
    runtimeKeyId := none
    runtimePublicKeyPem := none
    runtimeTlsCertificateSha256 := none
    runtimeAttachEndpoint := none
    runtimeCredentialHash := none
    runtimeCredentialExpiresAt := none
    runtimeRegisteredAt := none
    runtimeProjectionStartedAt := none
    lastErrorCode := none
    updatedAt := now }

def reprojectRefused (now : Timestamp) (r : ShellSession) (p : ReprojectArgs) : Cond :=
  .any (ne (some r.actorId) p.actorId :: fenceLost now r p.fence ++
    [some (decide (r.desiredState ≠ .running)),
      some (decide (r.observedState ∉ [Observed.provisioning, .ready, .failed])),
      distinct r.runtimeUid p.expectedRuntimeUid])

/-- `console_shell.reproject_shell_runtime`. -/
def reprojectShellRuntime (t : Clock) (p : ReprojectArgs) (db : Shell) :
    Except SqlError (Shell × ShellSession) := do
  let lost := fenceLostError "runtime reprojection fence or deletion evidence changed"
  let r ← orRaise (db.sessions.lookup p.fence.sessionId) lost
  raiseIf (reprojectRefused t.start r p) lost
  let db ← db.updateSession r.sessionId (ShellSession.reprojected t.start)
  let db ← db.expireTickets t.start fun x =>
    decide (x.sessionId = r.sessionId) && x.runtimeAuthorizedAt.isNone
  let db ← db.append t.now p.fence.sessionId .runtimeReprojected .succeeded p.reasonCode
  return (db, r.reprojected t.start)

/-- The arguments of `register_shell_runtime`. -/
structure RegisterArgs where
  fence : Fence
  actorId : Option Uuid
  permissionRevision : Option String
  runtimeUid : Option String
  runtimeResourceVersion : Option String
  runtimeKeyId : Option String
  runtimePublicKeyPem : Option String
  runtimeTlsCertificateSha256 : Option String
  runtimeAttachEndpoint : Option String
  runtimeCredentialHash : Option String
  runtimeCredentialExpiresAt : Option Timestamp

/-- A registered runtime is registered again with the same material. -/
def sameRegistration (now : Timestamp) (r : ShellSession) (p : RegisterArgs) : Cond :=
  .all [eq (some r.actorId) p.actorId, eq r.leaseOwner p.fence.worker,
    lt (some now) r.leaseExpiresAt, eq (some r.permissionRevision) p.permissionRevision,
    eq (some r.generation) p.fence.generation, eq (some r.fencingEpoch) p.fence.fencingEpoch,
    eq r.runtimeUid p.runtimeUid, eq r.runtimeKeyId p.runtimeKeyId,
    eq r.runtimePublicKeyPem p.runtimePublicKeyPem,
    eq r.runtimeTlsCertificateSha256 p.runtimeTlsCertificateSha256,
    eq r.runtimeAttachEndpoint p.runtimeAttachEndpoint,
    eq r.runtimeCredentialHash p.runtimeCredentialHash,
    lt (some now) r.runtimeCredentialExpiresAt, some (decide (r.desiredState = .running)),
    some (decide (r.observedState ∈ [Observed.provisioning, .ready]))]

def registerRefused (now : Timestamp) (r : ShellSession) (p : RegisterArgs) : Cond :=
  .any (ne (some r.actorId) p.actorId :: fenceLost now r p.fence ++
    [ne (some r.permissionRevision) p.permissionRevision, ne r.runtimeUid p.runtimeUid,
      some (decide (r.observedState ≠ .provisioning)),
      some (decide (r.desiredState ≠ .running)), isNotNull r.runtimeRegisteredAt])

def materialInvalid (now : Timestamp) (r : ShellSession) (p : RegisterArgs) : Cond :=
  .any [fails Authority.digestFormat p.runtimeTlsCertificateSha256,
    fails endpointFormat p.runtimeAttachEndpoint,
    fails Authority.digestFormat p.runtimeCredentialHash,
    le p.runtimeCredentialExpiresAt (some now),
    lt (some (min r.absoluteExpiresAt (now + minutes 60))) p.runtimeCredentialExpiresAt]

def ShellSession.registered (now : Timestamp) (p : RegisterArgs) (r : ShellSession) :
    ShellSession :=
  { r with
    runtimeResourceVersion := p.runtimeResourceVersion
    runtimeKeyId := p.runtimeKeyId
    runtimePublicKeyPem := p.runtimePublicKeyPem
    runtimeTlsCertificateSha256 := p.runtimeTlsCertificateSha256
    runtimeAttachEndpoint := p.runtimeAttachEndpoint
    runtimeCredentialHash := p.runtimeCredentialHash
    runtimeCredentialExpiresAt := p.runtimeCredentialExpiresAt
    runtimeRegisteredAt := some now
    updatedAt := now }

/-- `console_shell.register_shell_runtime`. -/
def registerShellRuntime (C : ShellCrypto) (t : Clock) (p : RegisterArgs) (db : Shell) :
    Except SqlError (Shell × ShellSession) := do
  assertShellAuthority C db p.actorId p.permissionRevision true
  let lost := fenceLostError "runtime registration fence was lost or already consumed"
  let r ← orRaise (db.sessions.lookup p.fence.sessionId) lost
  if r.runtimeRegisteredAt.isSome then
    raiseIf (some (decide (sameRegistration t.start r p ≠ some true)))
      (fenceLostError "runtime registration replay changed immutable binding")
    return (db, r)
  raiseIf (registerRefused t.start r p) lost
  raiseIf (materialInvalid t.start r p)
    (raisedException "runtime registration material is invalid")
  let db ← db.updateSession r.sessionId (ShellSession.registered t.start p)
  let db ← db.append t.now p.fence.sessionId .runtimeRegistered .succeeded
    (some "BootstrapTokenReviewed")
  return (db, r.registered t.start p)

/-! ## Revocation and transitions -/

/-- `console_shell.revoke_shell_session_authority`. -/
def revokeShellSessionAuthority (C : ShellCrypto) (t : Clock) (f : Fence)
    (reasonCode : Option String) (db : Shell) : Except SqlError (Shell × ShellSession) := do
  let lost := fenceLostError "shell authority revocation fence was lost"
  let r ← orRaise (db.sessions.lookup f.sessionId) lost
  raiseIf (.any (fenceLost t.start r f ++ [some (decide (r.observedState = .terminated))])) lost
  let revision ← currentShellPermissionRevision C db.site (some r.actorId)
  let db ← db.updateSession r.sessionId (ShellSession.teardown t.start revision)
  let db ← db.expireTickets t.start fun x =>
    decide (x.sessionId = r.sessionId) && x.runtimeAuthorizedAt.isNone
  let db ← db.append t.now f.sessionId .policyDenied .denied reasonCode
  return (db, r.teardown t.start revision)

/-- The arguments of `transition_shell_session`. -/
structure TransitionArgs where
  fence : Fence
  actorId : Option Uuid
  expectedState : Option String
  nextState : Option String
  permissionRevision : Option String
  runtimeUid : Option String
  runtimeResourceVersion : Option String
  reasonCode : Option String

/-- `v_valid`.  A NULL next state makes it NULL, which `IF NOT v_valid` lets pass. -/
def validTransition (expected next : Option String) : Cond :=
  match expected.bind Observed.ofText with
  | some .pending => isIn next ["Provisioning", "Terminating", "Failed"]
  | some .provisioning => isIn next ["Ready", "Terminating", "Failed"]
  | some .ready => isIn next ["Terminating", "Failed"]
  | some .failed => isIn next ["Terminating", "Terminated"]
  | some .terminating => isIn next ["Terminated", "Failed"]
  | _ => some false

def ShellSession.moved (now : Timestamp) (p : TransitionArgs) (revision : String)
    (next : Observed) (r : ShellSession) : ShellSession :=
  let ending := decide (next ∈ [Observed.terminating, .terminated])
  let released := decide (next ∈ [Observed.terminated, .failed])
  { r with
    observedState := next
    desiredState := if ending then .terminated else r.desiredState
    permissionRevision := revision
    runtimeUid := r.runtimeUid.or p.runtimeUid
    runtimeResourceVersion := p.runtimeResourceVersion.or r.runtimeResourceVersion
    observedGeneration :=
      -- `greatest` passes over a NULL
      some (max (r.observedGeneration.getD 0) (p.fence.generation.getD 0))
    runtimeProjectionStartedAt :=
      if next = .provisioning then some now else r.runtimeProjectionStartedAt
    terminationRequestedAt :=
      if ending then some (r.terminationRequestedAt.getD now) else r.terminationRequestedAt
    terminatedAt := if next = .terminated then some now else none
    lastErrorCode := if next = .failed then p.reasonCode else r.lastErrorCode
    leaseOwner := if released then none else r.leaseOwner
    leaseExpiresAt := if released then none else r.leaseExpiresAt
    heartbeatAt := if released then none else r.heartbeatAt
    updatedAt := now }

def transitionEvent : Observed → SessionEventType
  | .provisioning => .runtimeProvisioning
  | .ready => .runtimeReady
  | .terminating => .runtimeTerminating
  | .terminated => .sessionTerminated
  | _ => .sessionFailed

/-- The claim, the state or the actor is not the one a transition names. -/
def transitionRefused (now : Timestamp) (r : ShellSession) (p : TransitionArgs) : Cond :=
  .any (ne (some r.actorId) p.actorId :: fenceLost now r p.fence ++
    [ne (some r.observedState.text) p.expectedState])

/-- `console_shell.transition_shell_session`. -/
def transitionShellSession (C : ShellCrypto) (t : Clock) (p : TransitionArgs) (db : Shell) :
    Except SqlError (Shell × ShellSession) := do
  assertShellAuthority C db p.actorId p.permissionRevision false
  let lost := fenceLostError "shell claim, generation, epoch, lease, or expected state was lost"
  let r ← orRaise (db.sessions.lookup p.fence.sessionId) lost
  raiseIf (transitionRefused t.start r p) lost
  raiseIf (.and (ne (some r.permissionRevision) p.permissionRevision)
      (notIn p.nextState ["Terminating", "Terminated"]))
    (fenceLostError "shell permission revision changed before runtime transition")
  raiseIf (Cond.not (validTransition p.expectedState p.nextState))
    (raisedException "invalid shell transition")
  raiseIf (.and (eq p.nextState (some "Ready")) (some (decide (r.desiredState ≠ .running))))
    (fenceLostError "terminated shell intent cannot become Ready")
  raiseIf (.and (eq p.nextState (some "Ready")) (isNull r.runtimeRegisteredAt))
    (fenceLostError "runtime cannot become Ready before fenced registration")
  raiseIf (.all [isNotNull r.runtimeUid, isNotNull p.runtimeUid, ne r.runtimeUid p.runtimeUid])
    (fenceLostError "runtime UID binding changed")
  let revision ← notNull p.permissionRevision "permission_revision"
  let next ← orRaise (p.nextState.bind Observed.ofText) (.notNull "observed_state")
  let db ← db.updateSession r.sessionId (ShellSession.moved t.start p revision next)
  let db ← db.append t.now p.fence.sessionId (transitionEvent next)
    (if next = .failed then .failed else .succeeded) p.reasonCode
  return (db, r.moved t.start p revision next)

/-! ## Activity -/

def ShellSession.touched (now : Timestamp) (browser : ConsoleIdentity.Session)
    (r : ShellSession) : ShellSession :=
  { r with
    lastActivityAt := now
    idleExpiresAt := min (min (now + minutes 15) r.absoluteExpiresAt)
      (min browser.expiresAt browser.absoluteExpiresAt)
    updatedAt := now }

def touchRefused (now : Timestamp) (r : ShellSession) (browser : ConsoleIdentity.Session)
    (b : Binding) : Cond :=
  .any (bindingChanged r b ++ [le (some r.absoluteExpiresAt) (some now),
    isNotNull browser.revokedAt, ne (some browser.aal.text) b.aal,
    le (some browser.expiresAt) (some now), le (some browser.absoluteExpiresAt) (some now)])

/-- The browser session a touch names, where it is the actor's. -/
def Shell.browserOf (db : Shell) (b : Binding) : Option ConsoleIdentity.Session :=
  (db.site.sessions.lookup b.browserSessionId).filter fun x =>
    decide (some x.subjectId = b.actorId)

/-- `console_shell.touch_shell_session_activity`, which returns no row where it refuses. -/
def touchShellSessionActivity (C : ShellCrypto) (t : Clock) (b : Binding) (db : Shell) :
    Except SqlError (Shell × Option ShellSession) := do
  if !db.control.enabled then return (db, none)
  assertShellAuthority C db b.actorId b.permissionRevision true
  match db.sessions.lookup b.sessionId, db.browserOf b with
  | some r, some browser =>
      if touchRefused t.start r browser b = some true then return (db, none)
      let db ← db.updateSession r.sessionId (ShellSession.touched t.start browser)
      return (db, some (r.touched t.start browser))
  | _, _ => return (db, none)

end ConsoleShell
