import OpenSphere.Identity.Roles

/-!
# CLI devices

The enrolment of a device by a code shown to its user, its approval in the
browser, the challenge a device answers for a CLI session, and the functions
that find a CLI session or revoke a device.  A CLI session carries the revision
and the epoch of its subject like a browser session does.
-/

open Sql
open Authority (SubjectAuthority Statement Outcome exception sessionInvalid jsonUuid jsonText
  jsonInt jsonTime)

namespace ConsoleIdentity

/-! ## Enrolment -/

/-- The arguments of `create_cli_device_enrollment`. -/
structure EnrollmentArgs where
  label : Option String
  publicJwk : Option Jsonb
  fingerprint : Option String
  userCodeDigest : Option Bytes
  pollTokenDigest : Option Bytes
  expiresAt : Option Timestamp

def publicJwkInvalid (x : Option Jsonb) : List Cond :=
  let text := fun k => x.bind fun j => j.getText k
  [isNull x, ne (x.map Jsonb.typeof) (some "object"),
    ne (text "kty") (some "EC"), ne (text "crv") (some "P-256"),
    fails coordinateFormat (text "x"), fails coordinateFormat (text "y"),
    fails (fun j => (j.objectKeys.getD []).all fun f => f ∈ ["kty", "crv", "x", "y"]) x]

/-- `console_identity.create_cli_device_enrollment`. -/
def createCliDeviceEnrollment (s : Statement) (p : EnrollmentArgs) (site : Site) :
    Except SqlError (Site × CliEnrollment) := do
  raiseIf (.any ([notBetween (some (textLength (btrim (coalesce p.label "")))) 1 128,
      holds hasNewline p.label] ++ publicJwkInvalid p.publicJwk ++ [
      fails fingerprintFormat p.fingerprint,
      digestMissing p.userCodeDigest, digestMissing p.pollTokenDigest,
      isNull p.expiresAt, le p.expiresAt (some s.now),
      lt (some (s.now + seconds 330)) p.expiresAt]))
    (requestInvalid "CLI enrollment request is invalid")
  let label ← notNull p.label "label"
  let publicJwk ← notNull p.publicJwk "public_jwk"
  let fingerprint ← notNull p.fingerprint "fingerprint"
  let userCodeDigest ← notNull p.userCodeDigest "user_code_digest"
  let pollTokenDigest ← notNull p.pollTokenDigest "poll_token_digest"
  let expiresAt ← notNull p.expiresAt "expires_at"
  let e : CliEnrollment := {
    enrollmentId := s.rowId
    label := btrim label
    publicJwk, fingerprint, userCodeDigest, pollTokenDigest
    approved := false
    expiresAt
    subjectId := none
    deviceId := none
    approvedAt := none
    createdAt := s.now }
  let t ← site.enrollments.insert e
  return ({ site with enrollments := t }, e)

def Site.deviceActor (s : Statement) (site : Site) (a : Actor) :
    Except SqlError (Session × SubjectAuthority) := do
  let r ← orRaise (site.sessions.lookup a.sessionId) sessionInvalid
  let authority ← orRaise (site.subjects.lookup a.actorRef) sessionInvalid
  raiseIf (.any (ne (some r.subjectId) a.actorRef :: r.ended s ++ [
    ne (some r.permissionRevision) (some authority.permissionRevision),
    ne (some r.revokeEpoch) (some authority.revokeEpoch),
    ne (some authority.permissionRevision) a.expectedPermissionRevision,
    ne (some authority.revokeEpoch) a.expectedRevokeEpoch])) sessionInvalid
  return (r, authority)

/-- `'cli-device:' || device_id::text`. -/
def deviceRef (id : Uuid) : Option String := some (String.append "cli-device:" id.text)

/-- The arguments of `approve_cli_device_enrollment`. -/
structure DeviceApprovalArgs where
  actor : Actor
  enrollmentId : Option Uuid
  userCodeDigest : Option Bytes
  correlationId : Option String

def Site.approveEnrollment (C : Crypto) (s : Statement) (site : Site) (p : DeviceApprovalArgs)
    (authority : SubjectAuthority) (e : CliEnrollment) : Except SqlError (Site × CliDevice) := do
  let d : CliDevice := {
    deviceId := s.rowId
    subjectId := authority.subjectId
    label := e.label
    publicJwk := e.publicJwk
    fingerprint := e.fingerprint
    active := true
    createdAt := s.now
    lastUsedAt := none
    revokedAt := none
    revokeReason := none }
  let devices ← site.devices.insert d
  let enrollments ← site.enrollments.put { e with
    approved := true
    subjectId := some authority.subjectId
    deviceId := some d.deviceId
    approvedAt := some s.now }
  let site ← Site.append C.digest s { site with devices, enrollments }
    (identityEvent p.correlationId (uuidText p.actor.actorRef) "console.identity.cli.device.approved"
      (deviceRef d.deviceId) .succeeded (some "browser-approved CLI device enrollment") [
      ("enrollmentId", .ofText e.enrollmentId.text),
      ("fingerprint", .ofText d.fingerprint),
      ("permissionRevision", .ofInt authority.permissionRevision)])
  return (site, d)

/-- `console_identity.approve_cli_device_enrollment`. -/
def approveCliDeviceEnrollment (C : Crypto) (s : Statement) (p : DeviceApprovalArgs) (site : Site) :
    Except SqlError (Site × Option CliDevice) := do
  let notFound := exception "CLI enrollment was not found" "P0002" "NotFound"
  raiseIf (.any (correlationInvalid p.correlationId))
    (requestInvalid "CLI enrollment approval is invalid")
  let (r, authority) ← site.deviceActor s p.actor
  raiseIf (Authority.notRecentAal2 s r.toBrowserSession)
    (exception "recent aal2 is required for CLI device approval" "42501" "StepUpRequired")
  let e ← orRaise (site.enrollments.lookup p.enrollmentId) notFound
  raiseIf (.any [le (some e.expiresAt) (some s.now), ne (some e.userCodeDigest) p.userCodeDigest])
    notFound
  if e.approved then
    raiseIf (ne e.subjectId p.actor.actorRef)
      (exception "CLI enrollment was already claimed" "23505" "Conflict")
    return (site, site.devices.lookup e.deviceId)
  else
    let (site, d) ← site.approveEnrollment C s p authority e
    return (site, some d)

/-! ## Challenges and sessions -/

/-- `console_identity.create_cli_device_challenge`. -/
def createCliDeviceChallenge (s : Statement) (deviceId : Option Uuid) (nonceDigest : Option Bytes)
    (expiresAt : Option Timestamp) (site : Site) : Except SqlError (Site × CliChallenge) := do
  let inactive := exception "CLI device is inactive or unknown" "28000" "SessionInvalid"
  raiseIf (.any [digestMissing nonceDigest, isNull expiresAt, le expiresAt (some s.now),
      lt (some (s.now + seconds 90)) expiresAt])
    (requestInvalid "CLI challenge request is invalid")
  let d ← orRaise (site.devices.lookup deviceId) inactive
  let _ ← orRaise (site.subjects.lookup (some d.subjectId)) inactive
  raiseIf (some (!d.active)) inactive
  let nonceDigest ← notNull nonceDigest "nonce_digest"
  let expiresAt ← notNull expiresAt "expires_at"
  let c : CliChallenge := {
    challengeId := s.rowId
    deviceId := d.deviceId
    nonceDigest, expiresAt
    usedAt := none
    createdAt := s.now }
  let t ← site.challenges.insert c
  return ({ site with challenges := t }, c)

/-- The arguments of `complete_cli_device_session`. -/
structure CliSessionArgs where
  deviceId : Option Uuid
  challengeId : Option Uuid
  nonceDigest : Option Bytes
  tokenDigest : Option Bytes
  expiresAt : Option Timestamp
  correlationId : Option String

def newCliSession (s : Statement) (d : CliDevice) (authority : SubjectAuthority)
    (tokenDigest : Bytes) (expiresAt : Timestamp) : CliSession where
  sessionId := s.rowId
  subjectId := d.subjectId
  deviceId := d.deviceId
  tokenDigest := tokenDigest
  permissionRevision := authority.permissionRevision
  revokeEpoch := authority.revokeEpoch
  createdAt := s.now
  lastUsedAt := s.now
  expiresAt := expiresAt
  revokedAt := none
  revokeReason := none

/-- `console_identity.complete_cli_device_session`. -/
def completeCliDeviceSession (C : Crypto) (s : Statement) (p : CliSessionArgs) (site : Site) :
    Except SqlError (Site × CliSession) := do
  let unavailable := exception "CLI challenge is unavailable" "28000" "SessionInvalid"
  raiseIf (.any ([digestMissing p.nonceDigest, digestMissing p.tokenDigest,
      isNull p.expiresAt, le p.expiresAt (some s.now),
      lt (some (s.now + seconds 930)) p.expiresAt] ++ correlationInvalid p.correlationId))
    (requestInvalid "CLI session completion is invalid")
  let c ← orRaise
    ((site.challenges.lookup p.challengeId).filter fun c => some c.deviceId = p.deviceId)
    unavailable
  let d ← orRaise (site.devices.lookup p.deviceId) unavailable
  let authority ← orRaise (site.subjects.lookup (some d.subjectId)) unavailable
  raiseIf (.any [
    isNotNull c.usedAt,
    le (some c.expiresAt) (some s.now),
    ne (some c.nonceDigest) p.nonceDigest,
    some (!d.active)]) unavailable
  let challenges ← site.challenges.put { c with usedAt := some s.now }
  let tokenDigest ← notNull p.tokenDigest "token_digest"
  let expiresAt ← notNull p.expiresAt "expires_at"
  let r := newCliSession s d authority tokenDigest expiresAt
  let cliSessions ← site.cliSessions.insert r
  let site ← Site.append C.digest s { site with challenges, cliSessions }
    (identityEvent p.correlationId (some d.subjectId.text) "console.identity.cli.session.issued"
      (deviceRef d.deviceId) .succeeded (some "") [
      ("sessionId", .ofText r.sessionId.text),
      ("expiresAt", jsonTime (some r.expiresAt)),
      ("permissionRevision", .ofInt r.permissionRevision),
      ("revokeEpoch", .ofInt r.revokeEpoch)])
  return (site, r)

def cliSessionStale : SqlError :=
  exception "CLI session is inactive or stale" "28000" "SessionInvalid"

/-- The CLI session behind a token, if it is active, its device too, and its
subject's authority the one it was issued under. -/
def Site.activeCliSession (s : Statement) (site : Site) (token : Option Bytes) :
    Except SqlError (CliSession × CliDevice × SubjectAuthority) := do
  let r ← orRaise
    (token.bind fun t => site.cliSessions.rows.find? fun r => decide (r.tokenDigest = t))
    cliSessionStale
  let d ← orRaise (site.devices.lookup (some r.deviceId)) cliSessionStale
  let authority ← orRaise (site.subjects.lookup (some r.subjectId)) cliSessionStale
  raiseIf (.any [
    isNotNull r.revokedAt,
    le (some r.expiresAt) (some s.now),
    some (!d.active),
    ne (some authority.permissionRevision) (some r.permissionRevision),
    ne (some authority.revokeEpoch) (some r.revokeEpoch)]) cliSessionStale
  return (r, d, authority)

/-- What `resolve_cli_session` returns. -/
structure ResolvedCli where
  session : CliSession
  permissions : List String

/-- `console_identity.resolve_cli_session`. -/
def resolveCliSession (s : Statement) (token : Option Bytes) (site : Site) :
    Except SqlError (Site × ResolvedCli) := do
  raiseIf (digestMissing token) (exception "CLI session token is invalid" "28000" "SessionInvalid")
  let (r, d, authority) ← site.activeCliSession s token
  let v := ⟨r, site.permissions r.subjectId authority.permissionRevision⟩
  if r.lastUsedAt < s.now - minutes 1 then
    let cliSessions ← site.cliSessions.put { r with lastUsedAt := s.now }
    let devices ← site.devices.put { d with lastUsedAt := some s.now }
    return ({ site with cliSessions, devices }, v)
  else
    return (site, v)

/-- `console_identity.list_owned_cli_devices_with_cli_session`, with the session that
was found. -/
def listOwnedCliDevicesWithCliSession (s : Statement) (token : Option Bytes) (site : Site) :
    Except SqlError (CliSession × List CliDevice) := do
  raiseIf (digestMissing token) (exception "CLI session token is invalid" "28000" "SessionInvalid")
  let (r, _, _) ← site.activeCliSession s token
  return (r, site.devices.rows.filter fun d => decide (d.subjectId = r.subjectId))

/-! ## Revocation -/

def Site.revokeDevice (C : Crypto) (s : Statement) (site : Site) (d : CliDevice)
    (reason correlationId : Option String) (actorRef : Option String)
    (more : List (String × Jsonb)) : Except SqlError (Site × Nat) := do
  let devices ← site.devices.put
    { d with active := false, revokedAt := some s.now, revokeReason := reason.map btrim }
  let p := fun r : CliSession => decide (r.deviceId = d.deviceId) && r.revokedAt.isNone
  let cliSessions ← site.cliSessions.updateWhere p fun r =>
    { r with revokedAt := some s.now, revokeReason := some "device-revoked" }
  let count := (site.cliSessions.rows.filter p).length
  let site ← Site.append C.digest s { site with devices, cliSessions }
    (identityEvent correlationId actorRef "console.identity.cli.device.revoked"
      (deviceRef d.deviceId) .succeeded (reason.map btrim)
      (("revokedSessionCount", jsonNat count) :: more))
  return (site, count)

/-- `SELECT * FROM cli_device WHERE device_id = ... AND subject_id = ... AND status =
'active'`. -/
def Site.ownedDevice (site : Site) (deviceId subjectId : Option Uuid) :
    Except SqlError CliDevice :=
  orRaise
    ((site.devices.lookup deviceId).filter fun d => decide (some d.subjectId = subjectId) && d.active)
    (exception "active CLI device was not found" "P0002" "NotFound")

/-- `console_identity.revoke_owned_cli_device`. -/
def revokeOwnedCliDevice (C : Crypto) (s : Statement) (actor : Actor) (deviceId : Option Uuid)
    (reason correlationId : Option String) (site : Site) : Except SqlError (Site × Nat) := do
  raiseIf (.any (reasonInvalid reason ++ correlationInvalid correlationId))
    (requestInvalid "CLI device revocation is invalid")
  let _ ← site.deviceActor s actor
  let d ← site.ownedDevice deviceId actor.actorRef
  site.revokeDevice C s d reason correlationId (uuidText actor.actorRef) []

/-- `console_identity.revoke_owned_cli_device_with_cli_session`. -/
def revokeOwnedCliDeviceWithCliSession (C : Crypto) (s : Statement) (token : Option Bytes)
    (deviceId : Option Uuid) (reason correlationId : Option String) (site : Site) :
    Except SqlError (Site × Nat) := do
  raiseIf (.any (digestMissing token :: reasonInvalid reason ++ correlationInvalid correlationId))
    (requestInvalid "CLI device revocation is invalid")
  let (r, _, _) ← site.activeCliSession s token
  let d ← site.ownedDevice deviceId (some r.subjectId)
  site.revokeDevice C s d reason correlationId (some r.subjectId.text)
    [("sourceCredential", .ofText "cli-device")]

end ConsoleIdentity
