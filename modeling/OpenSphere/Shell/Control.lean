import OpenSphere.Shell.Tickets

/-!
# The kill switch

The functions over the control row.  `apply_shell_feature_state` is granted to
nobody and is called by the three functions that decide who may throw the
switch: a browser may only turn the feature off, the release controller works
in numbered operations, and the setup turns it on.  Turning it off drains the
sessions, and a scale-down is claimed under a token once none is left.
-/

open Sql
open Authority (exception)
open ConsoleIdentity (foreignKeyViolation)

namespace ConsoleShell

/-- `UPDATE shell_control_state SET ...`. -/
def Shell.updateControl (db : Shell) (s : ControlState) : Except SqlError Shell :=
  if h : controlCheck s = true then
    .ok { db with control := { toControlState := s, checked := h } }
  else .error (.check "console_shell.shell_control_state")

/-- `INSERT INTO shell_control_event`. -/
def Shell.appendControl (db : Shell) (e : ControlEvent) : Except SqlError Shell := do
  raiseIf (some (!(positive e.revision && changeCheck e.reason e.actorIdentity e.operationEvidence)))
    (.check "console_shell.shell_control_event")
  return { db with controlEvents := db.controlEvents ++ [e] }

/-- The event of a change that keeps the switch off. -/
def quietEvent (t : Timestamp) (eventType : ControlEventType) (reason : String)
    (s : ControlState) : ControlEvent where
  revision := s.revision
  enabled := false
  eventType := eventType
  reason := reason
  actorId := s.changedBy
  actorIdentity := s.changedIdentity
  operationEvidence := s.operationEvidence
  affectedSessions := 0
  occurredAt := t

def ShellSession.live (r : ShellSession) : Bool :=
  decide (r.desiredState = .running) || decide (r.observedState ≠ .terminated)

/-- `v_active`. -/
def Shell.liveSessions (db : Shell) : Nat := (db.sessions.rows.filter ShellSession.live).length

/-- `v_tickets`. -/
def Shell.liveTickets (db : Shell) (now : Timestamp) : Nat :=
  (db.tickets.rows.filter fun x => x.consumedAt.isNone && decide (now < x.expiresAt)).length

def Shell.noteDrained (db : Shell) (t : Clock) : Except SqlError Shell := do
  if db.control.drainCompletedAt = none then
    let db ← db.updateControl { db.control.toControlState with drainCompletedAt := some t.start }
    db.appendControl (quietEvent t.now .drainCompleted
      "All fenced shell runtimes reached Terminated" db.control.toControlState)
  else return db

/-- `console_shell.get_shell_feature_state`, with the counts it returns beside the row. -/
def getShellFeatureState (t : Clock) (db : Shell) : Except SqlError (Shell × Nat × Nat) := do
  let db ← (if !db.control.enabled ∧ db.liveSessions = 0 then db.noteDrained t else .ok db)
  return (db, db.liveSessions, db.liveTickets t.start)

/-! ## The switch -/

/-- The arguments of `apply_shell_feature_state`. -/
structure ApplyArgs where
  enabled : Option Bool
  expectedRevision : Option Int
  reason : Option String
  actorId : Option Uuid
  actorIdentity : Option String
  operationEvidence : Option Jsonb

def applyInvalid (p : ApplyArgs) : Cond :=
  .any [isNull p.enabled, isNull p.expectedRevision, lt p.expectedRevision (some 1),
    notBetween (some (textLength (btrim (coalesce p.reason "")))) 8 512,
    notBetween (some (textLength (btrim (coalesce p.actorIdentity "")))) 3 256,
    ne (p.operationEvidence.map Jsonb.typeof) (some "object")]

/-- The call repeats the change that set the switch, and nothing is left to drain. -/
def sameOperation (now : Timestamp) (p : ApplyArgs) (db : Shell) : Cond :=
  .all [eq (some db.control.enabled) p.enabled,
    eq (some db.control.changedIdentity) (p.actorIdentity.map btrim),
    p.operationEvidence.map db.control.operationEvidence.same,
    eq (some db.control.reason) (p.reason.map btrim),
    .or p.enabled (some (decide (db.liveSessions = 0 ∧ db.liveTickets now = 0)))]

def ShellSession.disabled (now : Timestamp) (r : ShellSession) : ShellSession :=
  r.teardown now r.permissionRevision

def ShellSession.ends (r : ShellSession) : Bool :=
  decide (r.observedState ≠ .terminated) && decide (r.desiredState = .running)

/-- `'ShellFeatureDisabled'`. -/
def shellFeatureDisabled : ReasonCode := ⟨"ShellFeatureDisabled", by decide⟩

/-- The sessions and tickets the switch ends, and the events of the sessions ended now. -/
def Shell.disableAll (db : Shell) (t : Clock) : Except SqlError Shell := do
  let db ← db.updateSessions ShellSession.ends (ShellSession.disabled t.start)
  let db ← db.expireTickets t.start fun x => x.consumedAt.isNone
  return { db with
    events := db.events ++ (db.sessions.rows.filter fun r =>
      decide (r.observedState ≠ .terminated) &&
        decide (r.terminationRequestedAt = some t.start)).map
      (newSessionEvent t.now .policyDenied .denied shellFeatureDisabled) }

/-- `console_shell.apply_shell_feature_state`. -/
def applyShellFeatureState (t : Clock) (p : ApplyArgs) (db : Shell) : Except SqlError Shell := do
  raiseIf (applyInvalid p) (raisedException "ShellFeatureOperationInvalid")
  raiseIf (ne (some db.control.revision) p.expectedRevision)
    (fenceLostError "ShellFeatureRevisionConflict")
  if sameOperation t.start p db = some true then return db
  let enabled ← notNull p.enabled "enabled"
  let reason ← notNull p.reason "reason"
  let identity ← notNull p.actorIdentity "changed_identity"
  let evidence ← notNull p.operationEvidence "operation_evidence"
  raiseIf (some (p.actorId.any fun u => decide (u ∉ db.site.users)))
    (foreignKeyViolation "console_shell.shell_control_state")
  let ended := if enabled then 0 else (db.sessions.rows.filter ShellSession.ends).length
  let db ← db.updateControl { db.control.toControlState with
    enabled := enabled
    revision := db.control.revision + 1
    reason := btrim reason
    changedBy := p.actorId
    changedIdentity := btrim identity
    operationEvidence := evidence
    changedAt := t.start
    drainCompletedAt := none }
  let db ← (if enabled then .ok db else db.disableAll t)
  db.appendControl {
    revision := db.control.revision
    enabled := enabled
    eventType := if enabled then .enabled else .disableRequested
    reason := btrim reason
    actorId := p.actorId
    actorIdentity := btrim identity
    operationEvidence := evidence
    affectedSessions := ended
    occurredAt := t.now }

def Shell.setOperation (db : Shell) (operationId : Option Uuid) (kind : Option OperationKind)
    (phase : Option OperationPhase) (identity : Option String) (startedAt completedAt :
    Option Timestamp) : Except SqlError Shell :=
  db.updateControl { db.control.toControlState with
    operationId := operationId
    operationKind := kind
    operationPhase := phase
    operationIdentity := identity
    operationStartedAt := startedAt
    operationCompletedAt := completedAt
    scaleClaimToken := none
    scaleClaimExpiresAt := none }

/-- An operation of the release controller is going on. -/
def Shell.operating (db : Shell) : Prop :=
  db.control.operationPhase = some .draining ∨ db.control.operationPhase = some .scaleDownClaimed

instance (db : Shell) : Decidable db.operating := by unfold Shell.operating; infer_instance

def operationConflict : SqlError := fenceLostError "ShellFeatureOperationConflict"

/-- `console_shell.set_shell_feature_state`. -/
def setShellFeatureState (t : Clock) (enabled : Option Bool) (expectedRevision : Option Int)
    (reason : Option String) (actorId : Option Uuid) (db : Shell) : Except SqlError Shell := do
  raiseIf enabled (exception "ShellFeatureBrowserEnableRequiresVerifiedRelease" "28000" "")
  raiseIf (some (db.site.subjects.lookup actorId).isNone)
    (exception "ShellFeatureActorInvalid" "28000" "")
  raiseIf (some (decide db.operating)) operationConflict
  let db ← applyShellFeatureState t {
    enabled := some false
    expectedRevision := expectedRevision
    reason := reason
    actorId := actorId
    actorIdentity := actorId.map fun u => String.append "operator:" u.text
    operationEvidence := some (.object [("authority", .ofText "browser-aal2")]) } db
  db.setOperation none none none none none none

/-! ## The release controller -/

/-- `system:serviceaccount:opensphere-console:opensphere-local-edge-release`. -/
def localEdgeRelease : String :=
  "system:serviceaccount:opensphere-console:opensphere-local-edge-release"

/-- `^[a-f0-9]{40}$`. -/
def sourceRevisionFormat : String → Bool := Pattern.full (.times hexLower 40)

/-- `^[0-9]{4}$`. -/
def migrationIdFormat : String → Bool := Pattern.full (.times digit 4)

/-- `(SELECT array_agg(key ORDER BY key) FROM jsonb_object_keys(e)) <> keys`.  An object
without keys aggregates to NULL. -/
def keysDiffer (e : Option Jsonb) (keys : List String) : Cond :=
  match e.bind Jsonb.objectKeys with
  | some (k :: ks) => some (decide ((k :: ks).insertionSort (· ≤ ·) ≠ keys))
  | _ => none

/-- The arguments of `set_shell_feature_state_local_edge`. -/
structure LocalEdgeArgs where
  enabled : Option Bool
  expectedRevision : Option Int
  reason : Option String
  actorIdentity : Option String
  operationEvidence : Option Jsonb
  operationId : Option Uuid

/-- `p_operation_evidence ->> key`. -/
def LocalEdgeArgs.evidence (p : LocalEdgeArgs) (key : String) : Option String :=
  p.operationEvidence.bind fun e => e.getText key

/-- `(p_operation_evidence ->> 'gaEligible')::boolean`. -/
def LocalEdgeArgs.gaEligible (p : LocalEdgeArgs) : Except SqlError (Option Bool) :=
  match p.evidence "gaEligible" with
  | none => .ok none
  | some x => some <$> orRaise (castBoolean x) (.cast "boolean")

/-- The evidence up to its `channel` is not that of a release. -/
def localEdgeForeign (p : LocalEdgeArgs) : Cond :=
  .any [isNull p.operationId, ne p.actorIdentity (some localEdgeRelease),
    ne (p.operationEvidence.map Jsonb.typeof) (some "object"),
    keysDiffer p.operationEvidence ["authority", "channel", "componentSetDigest", "gaEligible",
      "latestMigrationId", "migrationSetDigest", "publicationSha256", "releaseIntentKeyId",
      "releaseIntentSha256", "releaseIntentSignatureSha256", "sourceRevision"],
    ne (p.evidence "authority") (some "kubernetes-workload"),
    ne (p.evidence "channel") (some "edge")]

/-- The rest of the evidence is malformed, or not that of the latest migration. -/
def localEdgeStale (p : LocalEdgeArgs) (gaEligible : Option Bool) (m : AppliedMigration) : Cond :=
  .any [ne gaEligible (some false), fails Authority.digestFormat (p.evidence "componentSetDigest"),
    fails Authority.digestFormat (p.evidence "publicationSha256"),
    fails Authority.digestFormat (p.evidence "migrationSetDigest"),
    ne (p.evidence "releaseIntentKeyId") (some "opensphere-edge-local-v1"),
    fails Authority.digestFormat (p.evidence "releaseIntentSha256"),
    fails Authority.digestFormat (p.evidence "releaseIntentSignatureSha256"),
    fails sourceRevisionFormat (p.evidence "sourceRevision"),
    fails migrationIdFormat (p.evidence "latestMigrationId"),
    distinct (p.evidence "migrationSetDigest") (some m.migrationSetDigest),
    distinct (p.evidence "latestMigrationId") (some (splitPart m.globalId '/' 3)),
    distinct (p.evidence "sourceRevision") (some m.sourceRevision)]

/-- `CASE WHEN p_enabled THEN 'Enable' ELSE 'Disable' END`. -/
def kindOf (enabled : Option Bool) : OperationKind :=
  if enabled = some true then .enable else .disable

/-- The operation of the control row is another one than the call names. -/
def otherOperation (p : LocalEdgeArgs) (s : ControlState) : Cond :=
  .any [ne s.operationId p.operationId, ne s.operationKind (some (kindOf p.enabled)),
    ne s.operationIdentity p.actorIdentity,
    p.operationEvidence.map fun e => !s.operationEvidence.same e]

/-- The completed operation of the control row is the one the call names. -/
def sameCompleted (p : LocalEdgeArgs) (s : ControlState) : Cond :=
  .all [eq s.operationKind (some (kindOf p.enabled)), eq s.operationIdentity p.actorIdentity,
    p.operationEvidence.map s.operationEvidence.same]

/-- `console_shell.set_shell_feature_state_local_edge`. -/
def setShellFeatureStateLocalEdge (t : Clock) (p : LocalEdgeArgs) (db : Shell) :
    Except SqlError Shell := do
  let invalid := exception "ShellFeatureLocalEdgeEvidenceInvalid" "28000" ""
  raiseIf (localEdgeForeign p) invalid
  let gaEligible ← p.gaEligible
  raiseIf (localEdgeStale p gaEligible db.migration) invalid
  if db.operating then
    raiseIf (otherOperation p db.control.toControlState) operationConflict
    return db
  if db.control.operationPhase = some .completed ∧ db.control.operationId = p.operationId then
    raiseIf (some (decide (sameCompleted p db.control.toControlState ≠ some true)))
      operationConflict
    return db
  raiseIf (ne (some db.control.revision) p.expectedRevision)
    (fenceLostError "ShellFeatureRevisionConflict")
  let db ← applyShellFeatureState t {
    enabled := p.enabled
    expectedRevision := p.expectedRevision
    reason := p.reason
    actorId := none
    actorIdentity := p.actorIdentity
    operationEvidence := p.operationEvidence } db
  let enabling := p.enabled = some true
  db.setOperation p.operationId (some (kindOf p.enabled))
    (some (if enabling then .completed else .draining)) p.actorIdentity (some t.start)
    (if enabling then some t.start else none)

/-! ## The scale-down -/

structure ScaleDownArgs where
  operationId : Option Uuid
  expectedRevision : Option Int
  actorIdentity : Option String
  scaleClaimToken : Option Uuid

/-- The operation is not the named one that turned the feature off. -/
def scaleDownLost (s : ControlState) (p : ScaleDownArgs) : List Cond :=
  [ne (some s.revision) p.expectedRevision, some s.enabled, ne s.operationId p.operationId,
    ne s.operationKind (some .disable), ne s.operationIdentity p.actorIdentity]

def scaleDownFenceLost : SqlError := fenceLostError "ShellFeatureScaleDownFenceLost"

/-- `console_shell.claim_shell_feature_scale_down`. -/
def claimShellFeatureScaleDown (t : Clock) (p : ScaleDownArgs) (leaseSeconds : Option Int)
    (db : Shell) : Except SqlError Shell := do
  raiseIf (.any [isNull p.operationId, isNull p.scaleClaimToken,
      lt p.expectedRevision (some 1), ne p.actorIdentity (some localEdgeRelease),
      notBetween leaseSeconds 30 300])
    (exception "ShellFeatureScaleDownClaimInvalid" "28000" "")
  raiseIf (.any (scaleDownLost db.control.toControlState p ++
      [notIn db.control.operationPhase [.draining, .scaleDownClaimed]])) scaleDownFenceLost
  raiseIf (some (decide (db.liveSessions ≠ 0 ∨ db.liveTickets t.start ≠ 0)))
    (fenceLostError "ShellFeatureDrainIncomplete")
  let db ← db.noteDrained t
  raiseIf (.all [eq db.control.operationPhase (some .scaleDownClaimed),
      ne db.control.scaleClaimToken p.scaleClaimToken,
      lt (some t.start) db.control.scaleClaimExpiresAt])
    (fenceLostError "ShellFeatureScaleDownClaimHeld")
  let emits := Cond.or (ne db.control.operationPhase (some .scaleDownClaimed))
    (distinct db.control.scaleClaimToken p.scaleClaimToken)
  let db ← db.updateControl { db.control.toControlState with
    operationPhase := some .scaleDownClaimed
    scaleClaimToken := p.scaleClaimToken
    scaleClaimExpiresAt := leaseSeconds.map fun n => t.start + seconds n
    operationCompletedAt := none }
  if emits = some true then
    db.appendControl (quietEvent t.now .scaleDownClaimed
      "Exclusive fenced scale-down claim acquired" db.control.toControlState)
  else return db

/-- `console_shell.complete_shell_feature_scale_down`. -/
def completeShellFeatureScaleDown (t : Clock) (p : ScaleDownArgs) (db : Shell) :
    Except SqlError Shell := do
  raiseIf (.any (scaleDownLost db.control.toControlState p ++
      [ne db.control.operationPhase (some .scaleDownClaimed),
        ne db.control.scaleClaimToken p.scaleClaimToken,
        le db.control.scaleClaimExpiresAt (some t.start)])) scaleDownFenceLost
  let db ← db.updateControl { db.control.toControlState with
    operationPhase := some .completed
    operationCompletedAt := some t.start
    scaleClaimToken := none
    scaleClaimExpiresAt := none }
  db.appendControl (quietEvent t.now .scaleDownCompleted
    "Exact control workloads reached replicas zero" db.control.toControlState)

/-! ## The setup -/

def workloadSet : Jsonb :=
  ConsoleIdentity.jsonTexts (["opensphere-console-api", "opensphere-console-osaa-gateway",
    "opensphere-osdst", "opensphere-shell-api", "opensphere-shell-gateway",
    "opensphere-shell-reconciler"].map some)

def setupInvalid (expectedRevision : Option Int) (e : Option Jsonb) (m : AppliedMigration) :
    Cond :=
  let text := fun k => e.bind fun j => j.getText k
  .any [isNull expectedRevision, lt expectedRevision (some 1),
    ne (e.map Jsonb.typeof) (some "object"),
    keysDiffer e ["authority", "channel", "componentSetDigest", "latestGlobalId",
      "migrationSetDigest", "releaseDigest", "sourceRevision", "workloadSet"],
    ne (text "authority") (some "opensphere-setup-cli"),
    notIn (text "channel") ["edge", "candidate", "stable", "lts"],
    fails Authority.digestFormat (text "componentSetDigest"),
    fails Authority.digestFormat (text "releaseDigest"),
    fails sourceRevisionFormat (text "sourceRevision"),
    distinct (text "latestGlobalId") (some m.globalId),
    distinct (text "migrationSetDigest") (some m.migrationSetDigest),
    distinct (text "sourceRevision") (some m.sourceRevision),
    (e.bind fun j => j.get "workloadSet").map fun w => !w.same workloadSet]

/-- `console_shell.activate_native_runtime_from_setup`. -/
def activateNativeRuntimeFromSetup (t : Clock) (expectedRevision : Option Int)
    (evidence : Option Jsonb) (operationId : Uuid) (db : Shell) : Except SqlError Shell := do
  raiseIf (setupInvalid expectedRevision evidence db.migration)
    (exception "ShellFeatureSetupEvidenceInvalid" "28000" "")
  if db.control.enabled then return db
  raiseIf (ne (some db.control.revision) expectedRevision)
    (fenceLostError "ShellFeatureRevisionConflict")
  let identity := (evidence.bind fun j => j.getText "channel").map
    (String.append "installer:opensphere-setup-cli/")
  let db ← applyShellFeatureState t {
    enabled := some true
    expectedRevision := expectedRevision
    reason := some "Verified OpenSphere Setup native runtime installation completed"
    actorId := none
    actorIdentity := identity
    operationEvidence := evidence } db
  db.setOperation (some operationId) (some .enable) (some .completed) identity (some t.now)
    (some t.now)

end ConsoleShell
