import OpenSphere.Identity.System

/-!
# The shell schema

The tables of `console_shell` as migration 0029 creates them, and the database
they belong to: the identity site, the shell tables, and the latest applied
migration.

A shell session is the wish for one runtime Pod.  `generation` counts the Pods
it has been given, `fencing_epoch` the claims of its row by a worker, and a
claim is a *lease*: an owner, an expiry and a heartbeat, all three NULL or none.
An attach ticket lets a browser into the Pod once.  The control row is the kill
switch of the feature.

`session_class`, `runtime_adapter_id` and `network_profile` have one value each
and are left out.
-/

open Sql
open Authority (Aal digestFormat between)
open ConsoleIdentity (Bytes Site Crypto encodeHex minutes)

namespace ConsoleShell

/-! ## Formats -/

/-- `[A-Za-z0-9]`. -/
def alphanumeric (c : Char) : Bool := lower c || upper c || digit c

/-- `^[A-Za-z0-9][A-Za-z0-9._:-]{0,127}$`. -/
def keyIdFormat : String → Bool :=
  Pattern.full (.seq [.times alphanumeric 1,
    .repeated (orOneOf alphanumeric ['.', '_', ':', '-']) 0 (some 127)])

/-- `^[a-z0-9][a-z0-9._:-]{0,127}$`. -/
def templateRevisionFormat : String → Bool :=
  Pattern.full (.seq [.times (fun c => lower c || digit c) 1,
    .repeated (orOneOf (fun c => lower c || digit c) ['.', '_', ':', '-']) 0 (some 127)])

/-- `^[A-Za-z][A-Za-z0-9_.:-]{0,127}$`. -/
def reasonCodeFormat : String → Bool :=
  Pattern.full (.seq [.times (fun c => lower c || upper c) 1,
    .repeated (orOneOf alphanumeric ['_', '.', ':', '-']) 0 (some 127)])

/-- `[^/?#]`. -/
def hostChar (c : Char) : Bool := !(['/', '?', '#'].contains c)

/-- `^https://[^/?#]+$`, or a loopback origin with or without a port. -/
def originFormat (s : String) : Bool :=
  Pattern.full (.seq [.text "https://", .many1 hostChar]) s ||
  Pattern.full (.seq [.text "http://localhost", .opt (.seq [.text ":", .many1 digit])]) s ||
  Pattern.full (.seq [.text "http://127.0.0.1", .opt (.seq [.text ":", .many1 digit])]) s

/-- `^wss://[^/?#]+:8443/v1/runtime/attach$`. -/
def endpointFormat : String → Bool :=
  Pattern.full (.seq [.text "wss://", .many1 hostChar, .text ":8443/v1/runtime/attach"])

/-- A positive `bigint`. -/
def positive (n : Int) : Bool := between n 1 maxBigint

/-! ## Sessions -/

/-- `shell_session.desired_state`. -/
inductive Desired where
  | running
  | terminated
deriving DecidableEq, Repr

def Desired.text : Desired → String
  | running => "Running"
  | terminated => "Terminated"

/-- `shell_session.observed_state`. -/
inductive Observed where
  | pending
  | provisioning
  | ready
  | terminating
  | terminated
  | failed
deriving DecidableEq, Repr

def Observed.text : Observed → String
  | pending => "Pending"
  | provisioning => "Provisioning"
  | ready => "Ready"
  | terminating => "Terminating"
  | terminated => "Terminated"
  | failed => "Failed"

def Observed.ofText (s : String) : Option Observed :=
  [pending, provisioning, ready, terminating, terminated, failed].find? fun x => x.text == s

/-- The `aal` a text denotes. -/
def aalOfText (s : String) : Option Aal := [Aal.aal1, Aal.aal2].find? fun x => x.text == s

/-- The release a session runs, as its row records it. -/
structure ReleaseEvidence where
  releaseEvidenceRef : String
  manifestSha256 : String
  keyId : String
  runtimeImageDigest : String
  osArtifactDigest : String
  sessionPolicyRevision : String
deriving DecidableEq

def ReleaseEvidence.check (e : ReleaseEvidence) : Bool :=
  between (textLength e.releaseEvidenceRef) 1 512 && digestFormat e.manifestSha256 &&
  keyIdFormat e.keyId && digestFormat e.runtimeImageDigest && digestFormat e.osArtifactDigest &&
  keyIdFormat e.sessionPolicyRevision

/-- `console_shell.shell_session`. -/
structure ShellSession where
  sessionId : Uuid
  browserSessionId : Uuid
  actorId : Uuid
  runtimeTemplateRevision : String
  origin : String
  generation : Int
  fencingEpoch : Int
  desiredState : Desired
  observedState : Observed
  permissionRevision : String
  aal : Aal
  runtimeUid : Option String
  runtimeResourceVersion : Option String
  observedGeneration : Option Int
  runtimeKeyId : Option String
  runtimePublicKeyPem : Option String
  runtimeTlsCertificateSha256 : Option String
  runtimeAttachEndpoint : Option String
  runtimeCredentialHash : Option String
  runtimeCredentialExpiresAt : Option Timestamp
  runtimeRegisteredAt : Option Timestamp
  runtimeProjectionStartedAt : Option Timestamp
  leaseOwner : Option String
  leaseExpiresAt : Option Timestamp
  heartbeatAt : Option Timestamp
  release : ReleaseEvidence
  createdAt : Timestamp
  updatedAt : Timestamp
  lastActivityAt : Timestamp
  idleExpiresAt : Timestamp
  absoluteExpiresAt : Timestamp
  terminationRequestedAt : Option Timestamp
  terminatedAt : Option Timestamp
  lastErrorCode : Option String
deriving DecidableEq

/-- The CHECK that ties the registration columns together.  A registration whose
credential has no expiry makes it NULL, and a CHECK rejects only false. -/
def registrationCheck (r : ShellSession) : Bool :=
  (Cond.all [isNull r.runtimeRegisteredAt, isNull r.runtimeKeyId, isNull r.runtimePublicKeyPem,
      isNull r.runtimeTlsCertificateSha256, isNull r.runtimeAttachEndpoint,
      isNull r.runtimeCredentialHash, isNull r.runtimeCredentialExpiresAt]).or
    (.all [isNotNull r.runtimeRegisteredAt, isNotNull r.runtimeKeyId,
      isNotNull r.runtimePublicKeyPem, isNotNull r.runtimeTlsCertificateSha256,
      isNotNull r.runtimeAttachEndpoint, isNotNull r.runtimeCredentialHash,
      lt r.runtimeRegisteredAt r.runtimeCredentialExpiresAt]) != some false

def runtimeCheck (r : ShellSession) : Bool :=
  (r.runtimeUid.all fun t => between (textLength t) 1 256) &&
  (r.runtimeResourceVersion.all fun t => between (textLength t) 1 256) &&
  (r.observedGeneration.all fun n => decide (0 < n)) && r.runtimeKeyId.all keyIdFormat &&
  (r.runtimePublicKeyPem.all fun t => between (textLength t) 64 4096) &&
  r.runtimeTlsCertificateSha256.all digestFormat && r.runtimeAttachEndpoint.all endpointFormat &&
  r.runtimeCredentialHash.all digestFormat && registrationCheck r

/-- The CHECK constraints on the lease columns: all three are NULL or none is. -/
def leaseCheck (r : ShellSession) : Bool :=
  (r.leaseOwner.all fun t => between (textLength (btrim t)) 3 128) &&
  (r.leaseOwner.isNone == r.leaseExpiresAt.isNone) && (r.leaseOwner.isNone == r.heartbeatAt.isNone)

def lifetimeCheck (r : ShellSession) : Bool :=
  decide (r.createdAt < r.idleExpiresAt) && decide (r.createdAt < r.absoluteExpiresAt) &&
  decide (r.idleExpiresAt ≤ r.absoluteExpiresAt) &&
  (decide (r.observedState = .terminated) == r.terminatedAt.isSome) &&
  (decide (r.desiredState ≠ .terminated) || r.terminationRequestedAt.isSome)

def bindingCheck (r : ShellSession) : Bool :=
  templateRevisionFormat r.runtimeTemplateRevision && originFormat r.origin && r.release.check

def shellSessionSchema : Schema ShellSession Uuid where
  name := "console_shell.shell_session"
  key := (·.sessionId)
  check r :=
    bindingCheck r && positive r.generation && positive r.fencingEpoch &&
    digestFormat r.permissionRevision && runtimeCheck r && leaseCheck r && lifetimeCheck r &&
    r.lastErrorCode.all reasonCodeFormat
  clash _ _ := false

/-! ## Tickets -/

/-- `console_shell.shell_attach_ticket`. -/
structure AttachTicket where
  ticketHash : String
  sessionId : Uuid
  browserSessionId : Uuid
  actorId : Uuid
  origin : String
  generation : Int
  fencingEpoch : Int
  permissionRevision : String
  aal : Aal
  createdAt : Timestamp
  expiresAt : Timestamp
  consumedAt : Option Timestamp
  consumedBy : Option String
  runtimeAuthorizedAt : Option Timestamp
  runtimeAuthorizedBy : Option String
deriving DecidableEq

def attachTicketSchema : Schema AttachTicket String where
  name := "console_shell.shell_attach_ticket"
  key := (·.ticketHash)
  check t :=
    digestFormat t.ticketHash && positive t.generation && positive t.fencingEpoch &&
    digestFormat t.permissionRevision &&
    (t.consumedBy.all fun c => between (textLength (btrim c)) 3 128) &&
    (t.runtimeAuthorizedBy.all fun c => between (textLength (btrim c)) 3 256) &&
    decide (t.createdAt < t.expiresAt) && decide (t.expiresAt ≤ t.createdAt + seconds 30) &&
    (t.consumedAt.isNone == t.consumedBy.isNone) &&
    (t.runtimeAuthorizedAt.isNone == t.runtimeAuthorizedBy.isNone) &&
    (t.runtimeAuthorizedAt.isNone || t.consumedAt.isSome)
  clash _ _ := false

/-! ## Session events -/

/-- `shell_session_event.event_type`. -/
inductive SessionEventType where
  | sessionCreated
  | runtimeClaimed
  | runtimeProvisioning
  | runtimeRegistered
  | runtimeReprojected
  | runtimeReady
  | attachTicketIssued
  | sessionAttached
  | teardownRequested
  | runtimeTerminating
  | sessionTerminated
  | sessionFailed
  | policyDenied
deriving DecidableEq, Repr

/-- `shell_session_event.result`. -/
inductive EventResult where
  | succeeded
  | denied
  | failed
deriving DecidableEq, Repr

/-- `shell_session_event.reason_code`. -/
structure ReasonCode where
  text : String
  /-- The CHECK constraint of the column. -/
  format : reasonCodeFormat text = true
deriving DecidableEq

/-- `console_shell.shell_session_event`: what happened to a session, with the columns of
its row at that moment. -/
structure SessionEvent where
  sessionId : Uuid
  actorId : Uuid
  generation : Int
  fencingEpoch : Int
  eventType : SessionEventType
  result : EventResult
  reasonCode : ReasonCode
  origin : String
  permissionRevision : String
  aal : Aal
  release : ReleaseEvidence
  occurredAt : Timestamp
deriving DecidableEq

/-! ## The control row -/

/-- `shell_control_state.operation_kind`. -/
inductive OperationKind where
  | enable
  | disable
deriving DecidableEq, Repr

/-- `shell_control_state.operation_phase`. -/
inductive OperationPhase where
  | draining
  | scaleDownClaimed
  | completed
deriving DecidableEq, Repr

/-- `console_shell.shell_control_state`, the row with `singleton = true`. -/
structure ControlState where
  enabled : Bool
  revision : Int
  actorActiveLimit : Int
  globalActiveLimit : Int
  reason : String
  changedBy : Option Uuid
  changedIdentity : String
  operationEvidence : Jsonb
  changedAt : Timestamp
  drainCompletedAt : Option Timestamp
  operationId : Option Uuid
  operationKind : Option OperationKind
  operationPhase : Option OperationPhase
  operationIdentity : Option String
  operationStartedAt : Option Timestamp
  operationCompletedAt : Option Timestamp
  scaleClaimToken : Option Uuid
  scaleClaimExpiresAt : Option Timestamp

/-- The CHECK constraints on who changed the switch and why, which the control row
and the control events share. -/
def changeCheck (reason identity : String) (evidence : Jsonb) : Bool :=
  between (textLength (btrim reason)) 3 512 && between (textLength (btrim identity)) 3 256 &&
  decide (evidence.typeof = "object")

def operationCheck (s : ControlState) : Bool :=
  (s.operationIdentity.all fun t => between (textLength (btrim t)) 3 256) &&
  ((s.operationId.isNone && s.operationKind.isNone && s.operationPhase.isNone &&
      s.operationIdentity.isNone && s.operationStartedAt.isNone && s.operationCompletedAt.isNone &&
      s.scaleClaimToken.isNone && s.scaleClaimExpiresAt.isNone) ||
    (s.operationId.isSome && s.operationKind.isSome && s.operationPhase.isSome &&
      s.operationIdentity.isSome && s.operationStartedAt.isSome)) &&
  (s.scaleClaimToken.isNone == s.scaleClaimExpiresAt.isNone) &&
  ((eq s.operationPhase (some .scaleDownClaimed)).or
    (.and (isNull s.scaleClaimToken) (isNull s.scaleClaimExpiresAt)) != some false)

def controlCheck (s : ControlState) : Bool :=
  positive s.revision && between s.actorActiveLimit 1 10 && between s.globalActiveLimit 1 1000 &&
  changeCheck s.reason s.changedIdentity s.operationEvidence && operationCheck s

structure Control extends ControlState where
  checked : controlCheck toControlState = true

/-- `shell_control_event.event_type`. -/
inductive ControlEventType where
  | enabled
  | disableRequested
  | drainCompleted
  | scaleDownClaimed
  | scaleDownCompleted
deriving DecidableEq, Repr

/-- `console_shell.shell_control_event`. -/
structure ControlEvent where
  revision : Int
  enabled : Bool
  eventType : ControlEventType
  reason : String
  actorId : Option Uuid
  actorIdentity : String
  operationEvidence : Jsonb
  affectedSessions : Nat
  occurredAt : Timestamp

/-! ## The database -/

/-- A row of `console_migration.applied_migration`. -/
structure AppliedMigration where
  globalId : String
  sourceRevision : String
  migrationSetDigest : String
deriving DecidableEq

/-- The tables a shell function reads or writes.  The events have no order but that
of their insertion. -/
structure Shell where
  site : Site
  sessions : Table shellSessionSchema
  tickets : Table attachTicketSchema
  events : List SessionEvent
  control : Control
  controlEvents : List ControlEvent
  /-- The row with the largest `applied_sequence`. -/
  migration : AppliedMigration

def Control.initial (changedAt : Timestamp) : Control where
  enabled := false
  revision := 1
  actorActiveLimit := 2
  globalActiveLimit := 8
  reason := "Requires verified native release activation after exact component readiness"
  changedBy := none
  changedIdentity := "migration:console.shell.native_authority"
  operationEvidence := .object [("authority", .ofText "migration"),
    ("migrationId", .ofText "opensphere-console/20260903/0029")]
  changedAt := changedAt
  drainCompletedAt := none
  operationId := none
  operationKind := none
  operationPhase := none
  operationIdentity := none
  operationStartedAt := none
  operationCompletedAt := none
  scaleClaimToken := none
  scaleClaimExpiresAt := none
  checked := by rfl

def Shell.fresh (site : Site) (control : Control) (migration : AppliedMigration) : Shell where
  site := site
  sessions := .empty
  tickets := .empty
  events := []
  control := control
  controlEvents := []
  migration := migration

/-! ## What one call is given from outside -/

/-- The hash functions, with the length of a SHA-256 value. -/
structure ShellCrypto extends Crypto where
  octets : ∀ t, (sha256 t).length = 32

/-- The two clock readings of a call.  `v_now` is read when the call starts.  Every
later `clock_timestamp()` is read after the locks the call waited for. -/
structure Clock where
  /-- `v_now timestamptz := clock_timestamp()`. -/
  start : Timestamp
  /-- `clock_timestamp()` of the writes. -/
  now : Timestamp
  order : start ≤ now

end ConsoleShell
