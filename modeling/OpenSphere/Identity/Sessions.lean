import OpenSphere.Identity.Statements

/-!
# Browser sessions

The functions that issue, promote, rotate, extend and revoke browser sessions,
and those that find the session behind a token.  A session that waits for its
second factor is stored as a revoked one with the reason `pending-mfa`;
`activate_browser_session_mfa` is the only function that clears a revocation.
-/

open Sql
open Authority (Aal SubjectAuthority Digest Statement Outcome exception staleAuthority
  sessionInvalid jsonUuid jsonText jsonInt jsonTime)

namespace ConsoleIdentity

/-- The reason of a session that waits for its second factor. -/
def pendingMfa : String := "pending-mfa"

/-! ## Issue -/

/-- The arguments of `issue_browser_session`. -/
structure IssueArgs where
  subjectId : Option Uuid
  tokenDigest : Option Bytes
  csrfTokenDigest : Option Bytes
  credentials : Credentials
  aal : Option String
  absoluteExpiresAt : Option Timestamp
  persistence : Option String
  pendingMfa : Option Bool
  correlationId : Option String

def aalOfText (t : String) : Option Aal := [Aal.aal1, .aal2].find? fun x => x.text == t

def issueInvalid (s : Statement) (p : IssueArgs) : List Cond :=
  let duration := (p.persistence.bind Persistence.ofText).map Persistence.duration
  [isNull p.subjectId, digestInvalid p.tokenDigest, digestInvalid p.csrfTokenDigest,
    eq p.tokenDigest p.csrfTokenDigest] ++
  credentialsInvalid s p.credentials ++
  [notIn p.aal ["aal1", "aal2"],
    isNull duration,
    lt p.absoluteExpiresAt (duration.map fun d => s.now + d - minutes 2),
    lt (duration.map fun d => s.now + d + minutes 2) p.absoluteExpiresAt,
    isNull p.pendingMfa,
    .and p.pendingMfa (ne p.aal (some "aal1"))] ++
  correlationInvalid p.correlationId

def subjectAuthorityMissing : SqlError :=
  exception "Console subject authority is unavailable" "28000" "SubjectAuthorityMissing"

def newSession (s : Statement) (p : IssueArgs) (authority : SubjectAuthority) :
    Except SqlError Session := do
  let subjectId ← notNull p.subjectId "subject_id"
  let tokenDigest ← notNull p.tokenDigest "token_digest"
  let csrfTokenDigest ← notNull p.csrfTokenDigest "csrf_token_digest"
  let aal ← notNull (p.aal.bind aalOfText) "aal"
  let absoluteExpiresAt ← notNull p.absoluteExpiresAt "absolute_expires_at"
  let persistence ← notNull (p.persistence.bind Persistence.ofText) "persistence"
  let pending := p.pendingMfa == some true
  return {
    sessionId := s.rowId
    subjectId
    aal
    permissionRevision := authority.permissionRevision
    revokeEpoch := authority.revokeEpoch
    lastSeenAt := s.now
    expiresAt := min absoluteExpiresAt (s.now + if pending then minutes 5 else hours 12)
    revokedAt := if pending then some s.now else none
    lastReauthenticatedAt := none
    tokenDigest, csrfTokenDigest
    createdAt := s.now
    absoluteExpiresAt, persistence
    revokeReason := if pending then some ConsoleIdentity.pendingMfa else none
    authSessionRef := p.credentials.authSessionRef
    accessTokenCiphertext := p.credentials.accessTokenCiphertext
    refreshTokenCiphertext := p.credentials.refreshTokenCiphertext
    accessTokenExpiresAt := p.credentials.accessTokenExpiresAt }

/-- `console_identity.issue_browser_session`. -/
def issueBrowserSession (C : Crypto) (s : Statement) (p : IssueArgs) (site : Site) :
    Except SqlError (Site × Session) := do
  raiseIf (.any (issueInvalid s p)) (requestInvalid "browser session issue request is invalid")
  let authority ← orRaise (site.subjects.lookup p.subjectId) subjectAuthorityMissing
  let r ← newSession s p authority
  let t ← site.sessions.insert r
  let pending := r.revokedAt.isSome
  let site ← Site.append C.digest s { site with sessions := t }
    (identityEvent p.correlationId (uuidText p.subjectId) "console.identity.session.login"
      (sessionRef r.sessionId) (if pending then .accepted else .succeeded)
      (some (if pending then ConsoleIdentity.pendingMfa else "")) [
      ("sessionId", .ofText r.sessionId.text),
      ("state", .ofText (if pending then "pending_mfa" else "active")),
      ("aal", .ofText r.aal.text),
      ("persistence", .ofText r.persistence.text),
      ("idleExpiresAt", jsonTime (some r.expiresAt)),
      ("absoluteExpiresAt", jsonTime (some r.absoluteExpiresAt)),
      ("accessTokenExpiresAt", jsonTime r.accessTokenExpiresAt),
      ("permissionRevision", .ofInt r.permissionRevision),
      ("revokeEpoch", .ofInt r.revokeEpoch)])
  return (site, r)

/-! ## MFA ceremonies -/

/-- The arguments of a ceremony that promotes a session to `aal2`. -/
structure PromotionArgs where
  sessionId : Option Uuid
  subjectId : Option Uuid
  expectedAccessCiphertextDigest : Option Bytes
  credentials : Credentials
  correlationId : Option String

def promotionInvalid (s : Statement) (p : PromotionArgs) : List Cond :=
  [isNull p.sessionId, isNull p.subjectId, digestInvalid p.expectedAccessCiphertextDigest] ++
    credentialsInvalid s p.credentials ++ correlationInvalid p.correlationId

def accessChanged (C : Crypto) (r : Session) (p : PromotionArgs) : Cond :=
  ne (r.accessTokenCiphertext.map C.sha256) p.expectedAccessCiphertextDigest

/-- `console_identity.activate_browser_session_mfa`. -/
def activateBrowserSessionMfa (C : Crypto) (s : Statement) (p : PromotionArgs) (site : Site) :
    Except SqlError (Site × Session) := do
  let changed := exception "pending MFA session changed or expired" "28000" "SessionInvalid"
  raiseIf (.any (promotionInvalid s p))
    (requestInvalid "browser session MFA activation request is invalid")
  let r ← orRaise (site.sessions.lookup p.sessionId) changed
  raiseIf (.any [
    ne (some r.subjectId) p.subjectId,
    isNull r.revokedAt,
    ne r.revokeReason (some pendingMfa),
    some (decide (r.aal ≠ .aal1)),
    le (some r.expiresAt) (some s.now),
    le (some r.absoluteExpiresAt) (some s.now),
    accessChanged C r p]) changed
  let _ ← site.freshAuthority r p.subjectId
  let r := markAal2Transition s r { r.withCredentials p.credentials with
    aal := .aal2
    expiresAt := idleExpiry s r
    revokedAt := none
    revokeReason := none
    lastSeenAt := s.now }
  let site ← site.putSession r
  let site ← site.append C.digest s
    (identityEvent p.correlationId (uuidText p.subjectId) "console.identity.session.mfa"
      (sessionRef r.sessionId) .succeeded (some "aal2") [
      ("sessionId", .ofText r.sessionId.text),
      ("aal", .ofText r.aal.text),
      ("persistence", .ofText r.persistence.text),
      ("idleExpiresAt", jsonTime (some r.expiresAt)),
      ("absoluteExpiresAt", jsonTime (some r.absoluteExpiresAt)),
      ("accessTokenExpiresAt", jsonTime r.accessTokenExpiresAt),
      ("permissionRevision", .ofInt r.permissionRevision),
      ("revokeEpoch", .ofInt r.revokeEpoch)])
  return (site, r)

/-- `console_identity.complete_browser_session_totp_enrollment`. -/
def completeTotpEnrollment (C : Crypto) (s : Statement) (p : PromotionArgs) (site : Site) :
    Except SqlError (Site × Session) := do
  let changed :=
    exception "active TOTP enrollment session changed or expired" "28000" "SessionInvalid"
  raiseIf (.any (promotionInvalid s p))
    (requestInvalid "browser session TOTP enrollment completion request is invalid")
  let r ← orRaise (site.sessions.lookup p.sessionId) changed
  raiseIf (.any (ne (some r.subjectId) p.subjectId :: r.ended s ++
    [some (decide (r.aal ≠ .aal1)), accessChanged C r p])) changed
  let _ ← site.freshAuthority r p.subjectId
  let r := markAal2Transition s r { r.withCredentials p.credentials with
    aal := .aal2
    lastSeenAt := s.now
    expiresAt := idleExpiry s r }
  let site ← site.putSession r
  let site ← site.append C.digest s
    (identityEvent p.correlationId (uuidText p.subjectId) "console.identity.factor.totp.enroll"
      (sessionRef r.sessionId) .succeeded (some "aal2") [
      ("sessionId", .ofText r.sessionId.text),
      ("factorType", .ofText "totp"),
      ("aal", .ofText r.aal.text),
      ("accessTokenExpiresAt", jsonTime r.accessTokenExpiresAt),
      ("permissionRevision", .ofInt r.permissionRevision),
      ("revokeEpoch", .ofInt r.revokeEpoch)])
  return (site, r)

/-- The request is not one for a step-up.  NULL credentials are not refused here. -/
def stepUpInvalid (s : Statement) (p : PromotionArgs) : List Cond :=
  [isNull p.sessionId, isNull p.subjectId, digestInvalid p.expectedAccessCiphertextDigest] ++
    envelopeInvalid p.credentials.accessTokenCiphertext ++
    envelopeInvalid p.credentials.refreshTokenCiphertext ++
    authSessionRefInvalid p.credentials.authSessionRef ++
    accessExpiryInvalid s p.credentials.accessTokenExpiresAt ++ correlationInvalid p.correlationId

/-- `console_identity.complete_browser_session_step_up`. -/
def completeStepUp (C : Crypto) (s : Statement) (p : PromotionArgs) (site : Site) :
    Except SqlError (Site × Session) := do
  let changed := exception "active step-up session changed or expired" "28000" "SessionInvalid"
  raiseIf (.any (stepUpInvalid s p))
    (requestInvalid "browser session step-up completion request is invalid")
  let r ← orRaise (site.sessions.lookup p.sessionId) changed
  raiseIf (.any (ne (some r.subjectId) p.subjectId :: r.ended s ++ [accessChanged C r p])) changed
  let _ ← site.freshAuthority r p.subjectId
  let r := markAal2Transition s r { r.withCredentials p.credentials with
    aal := .aal2
    lastReauthenticatedAt := some s.now }
  let site ← site.putSession r
  let site ← site.append C.digest s
    (identityEvent p.correlationId (uuidText p.subjectId) "console.identity.session.step_up"
      (sessionRef r.sessionId) .succeeded (some "aal2") [
      ("sessionId", .ofText r.sessionId.text),
      ("aal", .ofText r.aal.text),
      ("reauthenticatedAt", jsonTime r.lastReauthenticatedAt),
      ("permissionRevision", .ofInt r.permissionRevision),
      ("revokeEpoch", .ofInt r.revokeEpoch)])
  return (site, r)

/-! ## Credential rotation -/

/-- The arguments of `rotate_browser_session_credentials`. -/
structure RotationArgs where
  sessionId : Option Uuid
  subjectId : Option Uuid
  expectedRefreshCiphertextDigest : Option Bytes
  credentials : Credentials
  aal : Option String
  correlationId : Option String

inductive RefreshOutcome where
  | rotated
  | peerRotated
  | rejected
deriving DecidableEq, Repr

/-- `console_identity.rotate_browser_session_credentials`. -/
def rotateBrowserSessionCredentials (C : Crypto) (s : Statement) (p : RotationArgs) (site : Site) :
    Except SqlError (Site × RefreshOutcome) := do
  raiseIf (.any ([isNull p.sessionId, isNull p.subjectId,
      digestInvalid p.expectedRefreshCiphertextDigest] ++ credentialsInvalid s p.credentials ++
      [notIn p.aal ["aal1", "aal2"]] ++ correlationInvalid p.correlationId))
    (requestInvalid "browser session refresh rotation request is invalid")
  let r ← orRaise (site.sessions.lookup p.sessionId) sessionInvalid
  raiseIf (.any [
    ne (some r.subjectId) p.subjectId,
    isNotNull r.revokedAt,
    le (some r.expiresAt) (some s.now)]) sessionInvalid
  let _ ← site.freshAuthority r p.subjectId
  if ne (r.refreshTokenCiphertext.map C.sha256) p.expectedRefreshCiphertextDigest = some true then
    return (site, .peerRotated)
  else
    let aal ← notNull (p.aal.bind aalOfText) "aal"
    let site ← site.putSession
      (markAal2Transition s r { r.withCredentials p.credentials with aal })
    let site ← site.append C.digest s
      (identityEvent p.correlationId (uuidText p.subjectId) "console.identity.session.refresh"
        (sessionRef r.sessionId) .succeeded (some "") [
        ("sessionId", .ofText r.sessionId.text),
        ("aal", jsonText p.aal),
        ("accessTokenExpiresAt", jsonTime p.credentials.accessTokenExpiresAt),
        ("permissionRevision", .ofInt r.permissionRevision),
        ("revokeEpoch", .ofInt r.revokeEpoch)])
    return (site, .rotated)

/-- The arguments of `reject_browser_session_refresh`. -/
structure RejectArgs where
  sessionId : Option Uuid
  subjectId : Option Uuid
  expectedRefreshCiphertextDigest : Option Bytes
  correlationId : Option String

/-- `console_identity.reject_browser_session_refresh`: all sessions of the rejected
credential family are revoked. -/
def rejectBrowserSessionRefresh (C : Crypto) (s : Statement) (p : RejectArgs) (site : Site) :
    Except SqlError (Site × RefreshOutcome) := do
  raiseIf (.any ([isNull p.sessionId, isNull p.subjectId,
      digestInvalid p.expectedRefreshCiphertextDigest] ++ correlationInvalid p.correlationId))
    (requestInvalid "browser session refresh rejection request is invalid")
  let r ← orRaise (site.sessions.lookup p.sessionId) sessionInvalid
  raiseIf (.any [
    ne (some r.subjectId) p.subjectId,
    isNotNull r.revokedAt,
    le (some r.expiresAt) (some s.now)]) sessionInvalid
  if ne (r.refreshTokenCiphertext.map C.sha256) p.expectedRefreshCiphertextDigest = some true then
    return (site, .peerRotated)
  else
    let (site, _) ← site.revokeSessions s "refresh-rejected" false fun x =>
      Cond.and (eq (some x.subjectId) p.subjectId) (eq x.authSessionRef r.authSessionRef) ==
        some true
    let site ← site.append C.digest s
      (identityEvent p.correlationId (uuidText p.subjectId) "console.identity.session.refresh"
        (sessionRef r.sessionId) .rejected (some "refresh-rejected") [
        ("sessionId", .ofText r.sessionId.text),
        ("permissionRevision", .ofInt r.permissionRevision),
        ("revokeEpoch", .ofInt r.revokeEpoch)])
    return (site, .rejected)

/-! ## Activity -/

/-- `console_identity.touch_browser_session_activity`. -/
def touchBrowserSessionActivity (s : Statement) (token csrf : Option Bytes) (site : Site) :
    Except SqlError (Site × Session) := do
  let required := exception "active Console session with CSRF proof is required" "28000"
    "SessionInvalid"
  raiseIf (.any [digestInvalid token, digestInvalid csrf])
    (requestInvalid "browser session activity proof is invalid")
  let r ← orRaise (site.sessionOfToken token) required
  raiseIf (.any [
    isNotNull r.revokedAt,
    le (some r.expiresAt) (some s.now),
    ne (some r.csrfTokenDigest) csrf]) required
  let _ ← site.freshAuthority r (some r.subjectId)
  if r.lastSeenAt ≤ s.now - minutes 1 then
    let r := { r with lastSeenAt := s.now, expiresAt := idleExpiry s r }
    let site ← site.putSession r
    return (site, r)
  else
    return (site, r)

/-! ## Finding the session behind a token -/

/-- The proof of a CSRF token is demanded and not given. -/
def csrfRejected (r : Session) (csrf : Option Bytes) (requireCsrf : Option Bool) : Cond :=
  .and requireCsrf (.or (isNull csrf) (ne (some r.csrfTokenDigest) csrf))

def csrfInvalid : SqlError :=
  exception "Console session CSRF validation failed" "42501" "CsrfRejected"

/-- What `resolve_browser_session` returns. -/
structure Resolved where
  session : Session
  authority : SubjectAuthority
  permissions : List String
  /-- `v_effective_aal`. -/
  aal : Aal

/-- `console_identity.resolve_browser_session`. -/
def resolveBrowserSession (s : Statement) (token csrf : Option Bytes) (requireCsrf : Option Bool)
    (site : Site) : Except SqlError Resolved := do
  let r ← orRaise (site.sessionOfToken token) sessionInvalid
  raiseIf (.any [isNotNull r.revokedAt, le (some r.expiresAt) (some s.now)]) sessionInvalid
  raiseIf (csrfRejected r csrf requireCsrf) csrfInvalid
  let authority ← site.freshAuthority r (some r.subjectId)
  return {
    session := r
    authority
    permissions := site.permissions r.subjectId authority.permissionRevision
    aal := if Authority.notRecentAal2 s r.toBrowserSession = some true then .aal1 else .aal2 }

/-- `console_identity.get_pending_browser_session_mfa`. -/
def getPendingBrowserSessionMfa (s : Statement) (token csrf : Option Bytes) (site : Site) :
    Except SqlError Session := do
  let required := exception "pending MFA session is required" "28000" "SessionInvalid"
  let r ← orRaise (site.sessionOfToken token) required
  raiseIf (.any [
    isNull r.revokedAt,
    ne r.revokeReason (some pendingMfa),
    some (decide (r.aal ≠ .aal1)),
    le (some r.expiresAt) (some s.now),
    ne (some r.csrfTokenDigest) csrf]) required
  let _ ← site.freshAuthority r (some r.subjectId)
  return r

/-- `console_identity.get_browser_session_refresh_credentials`. -/
def getRefreshCredentials (s : Statement) (token csrf : Option Bytes) (requireCsrf : Option Bool)
    (site : Site) : Except SqlError Session := do
  let required := exception "refreshable active Console session is required" "28000"
    "SessionInvalid"
  let r ← orRaise (site.sessionOfToken token) required
  raiseIf (.any [
    isNotNull r.revokedAt,
    le (some r.expiresAt) (some s.now),
    isNull r.accessTokenCiphertext,
    isNull r.refreshTokenCiphertext,
    isNull r.accessTokenExpiresAt]) required
  raiseIf (csrfRejected r csrf requireCsrf) csrfInvalid
  raiseIf (lt (some (s.now + seconds 30)) r.accessTokenExpiresAt)
    (exception "browser session access credential does not require refresh" "55000"
      "RefreshNotRequired")
  let _ ← site.freshAuthority r (some r.subjectId)
  return r

/-- The active session of a token with its CSRF proof and complete credentials, as
the getters of the MFA ceremonies demand it. -/
def getCeremonyCredentials (s : Statement) (token csrf : Option Bytes) (invalid required : SqlError)
    (more : Session → List Cond) (site : Site) : Except SqlError Session := do
  raiseIf (.any [digestInvalid token, digestInvalid csrf]) invalid
  let r ← orRaise (site.sessionOfToken token) required
  raiseIf (.any (r.ended s ++ more r ++ [
    ne (some r.csrfTokenDigest) csrf,
    isNull r.accessTokenCiphertext,
    isNull r.refreshTokenCiphertext,
    isNull r.accessTokenExpiresAt])) required
  let _ ← site.freshAuthority r (some r.subjectId)
  return r

/-- `console_identity.get_browser_session_totp_enrollment_credentials`. -/
def getTotpEnrollmentCredentials (s : Statement) (token csrf : Option Bytes) (site : Site) :
    Except SqlError Session :=
  getCeremonyCredentials s token csrf (requestInvalid "TOTP enrollment session proof is invalid")
    (exception "active aal1 Console session with CSRF proof is required" "28000" "SessionInvalid")
    (fun r => [some (decide (r.aal ≠ .aal1))]) site

/-- `console_identity.get_browser_session_step_up_credentials`. -/
def getStepUpCredentials (s : Statement) (token csrf : Option Bytes) (site : Site) :
    Except SqlError Session :=
  getCeremonyCredentials s token csrf (requestInvalid "step-up session proof is invalid")
    (exception "active Console session with CSRF proof is required" "28000" "SessionInvalid")
    (fun _ => []) site

/-- `console_identity.get_browser_session_preference_credentials`. -/
def getPreferenceCredentials (s : Statement) (token : Option Bytes) (site : Site) :
    Except SqlError Session := do
  let required := exception "active Console session credential is required" "28000"
    "SessionInvalid"
  raiseIf (digestInvalid token) (requestInvalid "session preference proof is invalid")
  let r ← orRaise (site.sessionOfToken token) required
  raiseIf (.any (r.ended s ++ [
    isNull r.accessTokenCiphertext,
    isNull r.accessTokenExpiresAt,
    le r.accessTokenExpiresAt (some s.now)])) required
  let _ ← site.freshAuthority r (some r.subjectId)
  return r

/-- `console_identity.prepare_owner_access_credential`. -/
def prepareOwnerAccessCredential (s : Statement) (token csrf : Option Bytes)
    (requireCsrf : Option Bool) (site : Site) : Except SqlError Session := do
  let required := exception "active browser owner credential is required" "28000" "SessionInvalid"
  let r ← orRaise (site.sessionOfToken token) required
  raiseIf (.any (r.ended s ++ [
    le r.accessTokenExpiresAt (some (s.now + seconds 30)),
    isNull r.accessTokenCiphertext])) required
  raiseIf (csrfRejected r csrf requireCsrf) csrfInvalid
  let _ ← site.freshAuthority r (some r.subjectId)
  return r

def newest (rows : List Session) : Option Session :=
  rows.foldl (fun best r =>
    match best with
    | none => some r
    | some b => if b.createdAt < r.createdAt then some r else some b) none

/-- `console_identity.resolve_owner_access_authority`. -/
def resolveOwnerAccessAuthority (s : Statement) (subjectId : Option Uuid)
    (authSessionRef : Option String) (site : Site) : Except SqlError Session := do
  raiseIf (.any (isNull subjectId :: authSessionRefInvalid authSessionRef))
    (requestInvalid "owner access authority request is invalid")
  let r ← orRaise
    (newest (site.sessions.rows.filter fun r =>
      Cond.all [
        eq (some r.subjectId) subjectId,
        eq r.authSessionRef authSessionRef,
        isNull r.revokedAt,
        lt (some s.now) (some r.expiresAt),
        lt (some s.now) (some r.absoluteExpiresAt),
        lt (some s.now) r.accessTokenExpiresAt] == some true))
    (exception "active owner access authority is required" "28000" "SessionInvalid")
  let _ ← site.freshAuthority r subjectId
  return r

/-! ## Revocation -/

/-- The arguments of `revoke_browser_session`. -/
structure LogoutArgs where
  sessionId : Option Uuid
  actorRef : Option Uuid
  expectedPermissionRevision : Option Int
  expectedRevokeEpoch : Option Int
  correlationId : Option String

/-- `console_identity.revoke_browser_session`. -/
def revokeBrowserSession (C : Crypto) (s : Statement) (p : LogoutArgs) (site : Site) :
    Except SqlError (Site × Session) := do
  raiseIf (notBetween (some (textLength (coalesce p.correlationId ""))) 8 128)
    (requestInvalid "invalid correlation id")
  let r ← orRaise (site.sessions.lookup p.sessionId) sessionInvalid
  raiseIf (.any [
    ne (some r.subjectId) p.actorRef,
    isNotNull r.revokedAt,
    le (some r.expiresAt) (some s.now)]) sessionInvalid
  let authority ← Authority.currentAuthority site.db r.toBrowserSession p.actorRef
    p.expectedPermissionRevision p.expectedRevokeEpoch
  let r := r.revoke s "self-logout" true
  let site ← site.putSession r
  let site ← site.append C.digest s
    (identityEvent p.correlationId (uuidText p.actorRef) "console.identity.session.revoke"
      (sessionRef r.sessionId) .succeeded (some "self-logout") [
      ("sessionId", .ofText r.sessionId.text),
      ("permissionRevision", .ofInt authority.permissionRevision),
      ("revokeEpoch", .ofInt authority.revokeEpoch),
      ("revokedAt", jsonTime (some s.now))])
  return (site, r)

def Session.liveOf (s : Statement) (subjectId : Uuid) (r : Session) : Bool :=
  decide (r.subjectId = subjectId) && decide (s.now < r.expiresAt) &&
    decide (s.now < r.absoluteExpiresAt) && r.revokedAt.isNone

/-- `console_identity.revoke_owned_browser_session`. -/
def revokeOwnedBrowserSession (C : Crypto) (s : Statement) (token csrf : Option Bytes)
    (target : Option Uuid) (correlationId : Option String) (site : Site) :
    Except SqlError (Site × Session) := do
  raiseIf (.any (isNull target :: correlationInvalid correlationId))
    (requestInvalid "owned browser session revocation request is invalid")
  let current ← resolveBrowserSession s token csrf (some true) site
  let r ← orRaise
    ((site.sessions.lookup target).filter (Session.liveOf s current.session.subjectId))
    (exception "owned browser session was not found" "P0002" "NotFound")
  let r := r.revoke s "user-revoked-session" true
  let site ← site.putSession r
  let site ← site.append C.digest s
    (identityEvent correlationId (some r.subjectId.text) "console.identity.session.revoke"
      (sessionRef r.sessionId) .succeeded (some "user-revoked-session") [
      ("sessionId", .ofText r.sessionId.text),
      ("current", .ofBool (decide (r.sessionId = current.session.sessionId))),
      ("permissionRevision", .ofText (decimal current.authority.permissionRevision)),
      ("revokeEpoch", .ofText (decimal current.authority.revokeEpoch)),
      ("revokedAt", jsonTime (some s.now))])
  return (site, r)

/-- What `revoke_all_owned_browser_sessions` and the recovery return. -/
structure Revoked where
  subjectId : Uuid
  count : Nat

/-- `console_identity.revoke_all_owned_browser_sessions`. -/
def revokeAllOwnedBrowserSessions (C : Crypto) (s : Statement) (token csrf : Option Bytes)
    (correlationId : Option String) (site : Site) : Except SqlError (Site × Revoked) := do
  raiseIf (.any (correlationInvalid correlationId))
    (requestInvalid "all browser session revocation request is invalid")
  let current ← resolveBrowserSession s token csrf (some true) site
  let subjectId := current.session.subjectId
  let (site, count) ← site.revokeSessions s "user-revoked-all-sessions" true
    (Session.liveOf s subjectId)
  let site ← site.append C.digest s
    (identityEvent correlationId (some subjectId.text) "console.identity.session.revoke_all"
      (some (String.append "subject:" (String.append subjectId.text ":browser-sessions")))
      .succeeded (some "user-revoked-all-sessions") [
      ("currentSessionId", .ofText current.session.sessionId.text),
      ("revokedCount", jsonNat count),
      ("permissionRevision", .ofText (decimal current.authority.permissionRevision)),
      ("revokeEpoch", .ofText (decimal current.authority.revokeEpoch)),
      ("revokedAt", jsonTime (some s.now))])
  return (site, ⟨subjectId, count⟩)

/-- `console_identity.revoke_browser_sessions_after_password_recovery`. -/
def revokeAfterPasswordRecovery (C : Crypto) (s : Statement) (subjectId : Option Uuid)
    (correlationId : Option String) (site : Site) : Except SqlError (Site × Revoked) := do
  raiseIf (.any (isNull subjectId :: correlationInvalid correlationId))
    (requestInvalid "password recovery session revocation request is invalid")
  let old ← orRaise (site.subjects.lookup subjectId) subjectAuthorityMissing
  raiseIf (eq (some old.revokeEpoch) (some maxBigint))
    (exception "subject revoke epoch is exhausted" "54000" "AuthorityRevisionExhausted")
  let authority := { old with revokeEpoch := old.revokeEpoch + 1 }
  let site ← site.putAuthority authority
  let (site, count) ← site.revokeSessions s "password-recovery" true
    fun r => decide (r.subjectId = authority.subjectId)
  let site ← site.append C.digest s
    (identityEvent correlationId (uuidText subjectId)
      "console.identity.password.recovery.sessions_revoked"
      (subjectId.map fun u => String.append "subject:" (String.append u.text ":browser-sessions"))
      .succeeded (some "password-recovery") [
      ("revokedCount", jsonNat count),
      ("previousRevokeEpoch", .ofInt old.revokeEpoch),
      ("revokeEpoch", .ofInt authority.revokeEpoch),
      ("revokedAt", jsonTime (some s.now))])
  return (site, ⟨authority.subjectId, count⟩)

end ConsoleIdentity
