import OpenSphere.Broker.Client

/-!
# The session broker

The functions of `identity-session-broker.mjs` that change something in two systems, the
database and Supabase Auth: the bootstrap of the first administrator, the lifecycle of managed
identities, and the refresh of the credentials of a browser session.  The two systems have no
common transaction.  A function that fails after the change in one of them compensates for it,
or says that it does not know.
-/

open Sql
open Js (Value Members)
open System (Program)
open ConsoleIdentity (Bytes Actor RotationArgs RejectArgs LifecycleArgs CompletionArgs
  RefreshOutcome encodeHex)

namespace Broker

/-! ## Sessions -/

structure HttpRequest where
  /-- `authorization`, trimmed. -/
  authorization : String := ""
  cookie : String := ""
  /-- `x-os-csrf-token`. -/
  csrf : String := ""

/-- A part of a cookie header with its name and value, where it has both. -/
def cookiePair (part : List Char) : Option (String × String) :=
  let name := part.takeWhile (· != '=')
  let trimmedName := Js.trim (String.ofList name)
  if name = [] || name.length = part.length || trimmedName = "" then none
  else some (trimmedName, Js.trim (String.ofList (part.drop (name.length + 1))))

/-- `cookies(header).get(name) || ''`. -/
def cookieValue (header name : String) : String :=
  ((((chars header).splitOn ';').filterMap cookiePair).lookup name).getD ""

/-- What `readBrowserSessionProof` returns. -/
structure Proof where
  tokenDigest : Option Bytes
  csrfTokenDigest : Option Bytes

def readBrowserSessionProof (S : Service) (r : HttpRequest) (requireCsrf : Bool) :
    Except Failure Proof := do
  let handle := cookieValue r.cookie "__Host-opensphere-session"
  failIf (outside handle 32 512) (fail "SessionInvalid" "active Console session is required" 401)
  failIf (requireCsrf && outside r.csrf 16 512)
    (fail "CsrfRejected" "Console session CSRF validation failed" 403)
  return ⟨some (S.crypto.sha256 handle), if requireCsrf then some (S.crypto.sha256 r.csrf) else none⟩

def baseResolveSession (S : Service) (r : HttpRequest) (requireCsrf : Bool) : Routine Session := do
  let proof ← .lift (readBrowserSessionProof S r requireCsrf)
  Program.await (Request.resolveSession proof.tokenDigest proof.csrfTokenDigest requireCsrf)

/-- `REFRESH_WINDOW_MS`. -/
def refreshWindow : Int := 30000

def refreshDue (session : Session) : Routine Bool :=
  match session.accessTokenExpiresAt with
  | none => pure false
  | some expiresAt => do
      let instant ← now
      return decide (expiresAt ≤ instant + refreshWindow)

/-- `if (milliseconds) await wait(milliseconds)`. -/
def pause (milliseconds : Nat) : Routine Unit :=
  if milliseconds = 0 then pure () else Program.await (Request.wait milliseconds)

/-- The polls of `peerRotation`. -/
def peerPolls (S : Service) (r : HttpRequest) (requireCsrf : Bool) :
    List Nat → Routine (Option Session)
  | [] => pure none
  | milliseconds :: rest => do
      pause milliseconds
      let latest ← baseResolveSession S r requireCsrf
      let due ← refreshDue latest
      if due then peerPolls S r requireCsrf rest else pure (some latest)

def peerRotation (S : Service) (r : HttpRequest) (requireCsrf : Bool) : Routine (Option Session) :=
  peerPolls S r requireCsrf [0, 25, 75, 150]

def catching {α : Type} (code : String) (p : Routine α) : Routine (Option α) :=
  (do let x ← p; return some x : Routine (Option α)).tryCatch fun e =>
    if e.code = some code then pure none else .throw e

def settled (S : Service) (r : HttpRequest) (requireCsrf : Bool) (message : String) :
    Routine Session := do
  let session ← baseResolveSession S r requireCsrf
  let due ← refreshDue session
  if due then .throw (fail "AuthorityUnavailable" message 503) else pure session

/-- What follows when Supabase Auth rejects the refresh token. -/
def refreshRejected (S : Service) (r : HttpRequest) (requireCsrf : Bool)
    (correlationId : Option String) (current : RefreshCredentials) : Routine Session := do
  let peer ← peerRotation S r requireCsrf
  match peer with
  | some session => pure session
  | none => do
      let outcome ← Program.await (Request.rejectRefresh {
        sessionId := some current.sessionId
        subjectId := some current.subjectId
        expectedRefreshCiphertextDigest := some (S.crypto.sha256 current.refreshTokenCiphertext)
        correlationId })
      if outcome = .peerRotated then
        settled S r requireCsrf "peer session refresh is still settling"
      else
        .throw (fail "AuthenticationRequired"
          "Supabase Auth explicitly rejected the current refresh credential" 401)

/-- `credentialCipher.encrypt(value)`. -/
def encrypt (S : Service) (value : String) : Routine String := do
  .lift (failIf (value == "" || decide (12 * 1024 < value.utf8ByteSize))
    (typeError "Supabase session credential length is invalid"))
  let iv ← Program.await Request.randomBytes
  .lift (failIf (iv.length != 12) (typeError "secure random byte source returned an invalid IV"))
  return S.encrypt iv value

/-- The tokens that Supabase Auth has issued are stored. -/
def storeRefreshed (S : Service) (r : HttpRequest) (requireCsrf : Bool)
    (correlationId : Option String) (current : RefreshCredentials) (refreshed : Refreshed) :
    Routine Session := do
  let accessTokenCiphertext ← encrypt S refreshed.accessToken
  let refreshTokenCiphertext ← encrypt S refreshed.refreshToken
  let outcome ← Program.await (Request.rotateCredentials {
    sessionId := some current.sessionId
    subjectId := some current.subjectId
    expectedRefreshCiphertextDigest := some (S.crypto.sha256 current.refreshTokenCiphertext)
    credentials := {
      accessTokenCiphertext := some accessTokenCiphertext
      refreshTokenCiphertext := some refreshTokenCiphertext
      authSessionRef := some refreshed.authSessionRef
      accessTokenExpiresAt := some refreshed.accessTokenExpiresAt }
    aal := some refreshed.aal
    correlationId })
  .lift (failIf (!decide (outcome ∈ [RefreshOutcome.rotated, .peerRotated]))
    (fail "AuthorityUnavailable" "session refresh authority returned an invalid outcome" 503))
  settled S r requireCsrf "session credential rotation is still settling"

def presentToken (S : Service) (current : RefreshCredentials) : Routine Refreshed := do
  let token ← .lift (S.decrypt current.refreshTokenCiphertext)
  refreshSession S token current.subjectId.text

def refresh (S : Service) (r : HttpRequest) (requireCsrf : Bool) (correlationId : Option String) :
    Routine Session := do
  let proof ← .lift (readBrowserSessionProof S r requireCsrf)
  let found ← catching "RefreshNotRequired" (Program.await
    (Request.getRefreshCredentials proof.tokenDigest proof.csrfTokenDigest requireCsrf))
  match found with
  | none => baseResolveSession S r requireCsrf
  | some current => do
      let refreshed ← catching "RefreshRejected" (presentToken S current)
      match refreshed with
      | none => refreshRejected S r requireCsrf correlationId current
      | some x => storeRefreshed S r requireCsrf correlationId current x

def resolveSession (S : Service) (r : HttpRequest) (requireCsrf : Bool)
    (correlationId : Option String) : Routine Session :=
  if r.authorization ≠ "" then Program.await (Request.bearer r.authorization)
  else do
    let session ← baseResolveSession S r requireCsrf
    let due ← refreshDue session
    if due then refresh S r requireCsrf correlationId else pure session

/-! ## The first administrator -/

def claimAdministrator (created : String) (correlationId : Option String) : Routine Unit := do
  let claimed ← Program.await (Request.claimInitialAdministrator (castUuid created) correlationId)
  .lift (failIf (claimed.state != "complete" || claimed.subjectId != created ||
      claimed.permissionRevision != 1 || claimed.permissionCount != 11)
    (fail "AuthorityUnavailable" "initial administrator authority returned an invalid receipt" 503))

/-- `bootstrapInitialAdministrator({body, requestOrigin, correlationId})`, which returns the state
`complete`. -/
def bootstrapInitialAdministrator (S : Service) (body : Value) (requestOrigin : String)
    (correlationId : Option String) : Routine String := do
  .lift (failIf (requestOrigin != S.origin)
    (fail "PermissionDenied" "initial administrator origin is not allowed" 403))
  let input ← .lift (initialAdministratorInput S.toLocale body)
  let created ← createInitialAdministrator S input
  (claimAdministrator created correlationId).tryCatch fun error => do
    (deleteInitialAdministrator S created).tryCatch fun _ => pure ()
    .throw error
  return "complete"

/-! ## Managed identities -/

def texts (l : List String) : Value := .array (l.foldr (fun t xs => .cons (.string t) xs) .nil)

def requestDigest (S : Service) (value : List (String × Value)) : String :=
  "sha256:" ++ encodeHex (S.crypto.sha256 (String.ofList (Value.stringify (.ofList value))))

def Session.actor (session : Session) : Actor where
  sessionId := some session.sessionId
  actorRef := some session.subjectId
  expectedPermissionRevision := some session.permissionRevision
  expectedRevokeEpoch := some session.revokeEpoch

structure Lifecycle where
  action : String
  requestDigest : String
  idempotencyKey : String
  roles : List String
  enabled : Option Bool
  revokeSessions : Bool
  reason : String
  correlationId : Option String

def Lifecycle.args (l : Lifecycle) (session : Session) (target : Option String) : LifecycleArgs where
  actor := session.actor
  targetSubjectId := target.bind castUuid
  action := some l.action
  requestDigest := some l.requestDigest
  idempotencyKey := some l.idempotencyKey
  roles := some (l.roles.map some)
  enabled := l.enabled
  reason := some l.reason
  correlationId := l.correlationId

/-- `store.prepareManagedIdentityLifecycle(...)`. -/
def prepare (l : Lifecycle) (session : Session) (target : Option String) : Routine Unit :=
  Program.await (Request.prepareManagedIdentityLifecycle (l.args session target))

/-- `store.completeManagedIdentityLifecycle(...)`. -/
def complete (l : Lifecycle) (session : Session) (target : String) : Routine Unit :=
  Program.await (Request.completeManagedIdentityLifecycle {
    l.args session (some target) with
    revokeSessions := some l.revokeSessions
    effectCount := some 0 })

/-- `try { p } catch (error) { undo; throw error }`, where an undoing that fails makes the error
uncertain. -/
def compensating {α : Type} (p : Routine α) (undo : Routine Unit) : Routine α :=
  p.tryCatch fun error => do
    undo.tryCatch fun _ => .throw (uncertain error)
    .throw error

def creation (S : Service) (input : CreateInput) (correlationId : Option String) : Lifecycle where
  action := "identity.create"
  requestDigest := requestDigest S [("action", .string "identity.create"),
    ("username", .string input.username), ("displayName", .string input.displayName),
    ("email", .string input.email), ("roles", texts input.roles),
    ("reason", .string input.reason)]
  idempotencyKey := input.idempotencyKey
  roles := input.roles
  enabled := none
  revokeSessions := false
  reason := input.reason
  correlationId := correlationId

/-- What `createManagedIdentity` does for a user that was created. -/
def onboard (S : Service) (l : Lifecycle) (session : Session) (created : String) :
    Routine String := do
  let onboardingPath ← createManagedUserRecoveryLink S created
  complete l session created
  return onboardingPath

/-- `createManagedIdentity(request, {body, idempotencyKey, correlationId})`, with the subject and
the path of the recovery link. -/
def createManagedIdentity (S : Service) (r : HttpRequest) (body : Value) (idempotencyKey : String)
    (correlationId : Option String) : Routine (String × String) := do
  let input ← .lift (managedCreateInput S.toLocale body idempotencyKey)
  let session ← resolveSession S r true correlationId
  let l := creation S input correlationId
  prepare l session none
  -- nothing is undone if the creation itself fails: `created` is undefined
  let created ← createManagedUser S input
  let onboardingPath ← compensating (onboard S l session created) (deleteManagedUser S created)
  return (created, onboardingPath)

def profileUpdate (S : Service) (target : String) (input : ProfileInput)
    (correlationId : Option String) : Lifecycle where
  action := "profile.update"
  requestDigest := requestDigest S [("action", .string "profile.update"),
    ("target", .string target), ("displayName", .string input.displayName),
    ("email", .string input.email), ("reason", .string input.reason)]
  idempotencyKey := input.idempotencyKey
  roles := []
  enabled := none
  revokeSessions := false
  reason := input.reason
  correlationId := correlationId

def updateManagedIdentityProfile (S : Service) (r : HttpRequest) (targetSubjectId : String)
    (body : Value) (idempotencyKey : String) (correlationId : Option String) : Routine String := do
  let target ← .lift (managedSubject targetSubjectId)
  let input ← .lift (managedProfileInput S.toLocale body idempotencyKey)
  let session ← resolveSession S r true correlationId
  let l := profileUpdate S target input correlationId
  prepare l session (some target)
  let previous ← updateManagedUserProfile S target input.displayName input.email
  compensating (complete l session target) do
    let _ ← updateManagedUserProfile S target previous.displayName previous.email
    return ()
  return target

def enabledChange (S : Service) (target : String) (input : EnabledInput)
    (correlationId : Option String) : Lifecycle where
  action := "enabled.change"
  requestDigest := requestDigest S [("action", .string "enabled.change"),
    ("target", .string target), ("enabled", .boolean input.enabled),
    ("reason", .string input.reason)]
  idempotencyKey := input.idempotencyKey
  roles := []
  enabled := some input.enabled
  revokeSessions := true
  reason := input.reason
  correlationId := correlationId

def setManagedIdentityEnabled (S : Service) (r : HttpRequest) (targetSubjectId : String)
    (body : Value) (idempotencyKey : String) (correlationId : Option String) : Routine String := do
  let target ← .lift (managedSubject targetSubjectId)
  let input ← .lift (managedEnabledInput body idempotencyKey)
  let session ← resolveSession S r true correlationId
  let l := enabledChange S target input correlationId
  prepare l session (some target)
  let previous ← setManagedUserEnabled S target input.enabled
  compensating (complete l session target) do
    let _ ← setManagedUserEnabled S target previous.enabled
    return ()
  return target

end Broker
