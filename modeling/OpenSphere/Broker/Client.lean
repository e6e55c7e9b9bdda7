import OpenSphere.Broker.Contract
import OpenSphere.FrontDoor.Service
import OpenSphere.System.Pool

/-!
# The client of Supabase Auth

What the broker asks of the store, of Supabase Auth and of its process, and the functions of the
client as programs that ask it.  A request to Supabase Auth is answered with a response, and
`request` makes a failure of one that cannot be used.
-/

open Sql
open Js (Value Members)
open System (Program)
open ConsoleIdentity (Bytes Crypto RotationArgs RejectArgs LifecycleArgs CompletionArgs
  RefreshOutcome)

namespace Broker

/-! ## What the broker is given -/

structure Claims where
  sub : String
  role : String
  aal : String
  exp : Int
  sessionId : String

/-- `credentialCipher`.  What was encrypted is what decryption gives. -/
structure Cipher where
  encrypt : Bytes → String → String
  decrypt : String → Except Failure String
  decrypt_encrypt : ∀ iv t, iv.length = 12 → t ≠ "" → decrypt (encrypt iv t) = .ok t

structure Service extends Locale, Cipher where
  crypto : Crypto
  origin : String
  /-- There is a service role key. -/
  adminKey : Bool
  /-- The claims that a token carries, where it is a token. -/
  decodeToken : String → Option Claims
  /-- The checks on a recovery link for a subject. -/
  recoveryLink : String → Value → Except Failure String

/-! ## Requests -/

structure Session where
  sessionId : Uuid
  subjectId : Uuid
  permissionRevision : Int
  revokeEpoch : Int
  /-- The instant in milliseconds. -/
  accessTokenExpiresAt : Option Int
deriving DecidableEq

/-- What `get_browser_session_refresh_credentials` returns. -/
structure RefreshCredentials where
  sessionId : Uuid
  subjectId : Uuid
  refreshTokenCiphertext : String
deriving DecidableEq

/-- What `claim_initial_administrator` returns. -/
structure BootstrapRecord where
  state : String
  subjectId : String
  permissionRevision : Int
  permissionCount : Nat
deriving DecidableEq

/-- What Supabase Auth issues for a refresh token. -/
structure Tokens where
  accessToken : String
  refreshToken : String
  userId : String
deriving DecidableEq

inductive Patch where
  | profile (email : String) (metadata : Members)
  /-- `ban_duration: enabled ? 'none' : '876000h'`. -/
  | ban (enabled : Bool)

def User.update (user : User) : Patch → User
  | .profile email metadata => { user with email, metadata }
  | .ban enabled => { user with enabled }

inductive Request where
  | resolveSession (token csrf : Option Bytes) (requireCsrf : Bool)
  /-- The session of a bearer credential. -/
  | bearer (authorization : String)
  | getRefreshCredentials (token csrf : Option Bytes) (requireCsrf : Bool)
  | rotateCredentials (p : RotationArgs)
  | rejectRefresh (p : RejectArgs)
  | claimInitialAdministrator (subjectId : Option Uuid) (correlationId : Option String)
  | prepareManagedIdentityLifecycle (p : LifecycleArgs)
  | completeManagedIdentityLifecycle (p : CompletionArgs)
  | createUser (email : String) (password : Option String) (metadata : Members)
  | readUser (subjectId : String)
  | updateUser (subjectId : String) (patch : Patch)
  | deleteUser (subjectId : String)
  | generateLink (email redirectTo : String)
  | refreshToken (token : String)
  | clock
  | wait (milliseconds : Nat)
  | randomBytes

@[reducible] def Request.Result : Request → Type
  | .resolveSession _ _ _ => Session
  | .bearer _ => Session
  | .getRefreshCredentials _ _ _ => RefreshCredentials
  | .rotateCredentials _ => RefreshOutcome
  | .rejectRefresh _ => RefreshOutcome
  | .claimInitialAdministrator _ _ => BootstrapRecord
  | .prepareManagedIdentityLifecycle _ => Unit
  | .completeManagedIdentityLifecycle _ => Unit
  | .createUser _ _ _ => Response User
  | .readUser _ => Response User
  | .updateUser _ _ => Response User
  | .deleteUser _ => Response Value
  | .generateLink _ _ => Response Value
  | .refreshToken _ => Response Tokens
  | .clock => Int
  | .wait _ => Unit
  | .randomBytes => Bytes

abbrev Routine := Program Failure Request Request.Result

/-- `now()` and `clock()`. -/
def now : Routine Int := Program.await Request.clock

/-! ## Users -/

def managedUnavailable : Failure :=
  fail "AuthorityUnavailable" "Supabase managed-user authority is unavailable" 503

/-- `managedSubject(value)` of the client. -/
def userSubject (value : String) : Except Failure String := do
  failIf (!subjectFormat value) (fail "ValidationFailed" "managed-user subject is invalid" 400)
  return value

def readOptions : Options where
  rejectedCode := "ManagedIdentityNotFound"
  rejectedMessage := "managed identity was not found in Supabase Auth"
  rejectedStatus := 404
  rejectedStatuses := [404]

def readAdminUser (S : Service) (subjectId : String) : Routine User := do
  .lift (failIf (!S.adminKey) managedUnavailable)
  let expectedSubjectId ← .lift (userSubject subjectId)
  let response ← Program.await (Request.readUser expectedSubjectId)
  let user ← .lift (request readOptions response)
  .lift (failIf (user.id.text != expectedSubjectId)
    (fail "AuthorityUnavailable" "Supabase Auth changed the managed-user subject" 503))
  return user

def namedMetadata (username displayName : String) : Members :=
  .ofList [("preferred_username", .string username), ("display_name", .string displayName)]

def createOptions : Options where
  rejectedCode := "ManagedIdentityConflict"
  rejectedMessage := "managed identity already exists or was rejected"
  rejectedStatus := 409
  rejectedStatuses := [400, 409, 422]

def confirmCreated (S : Service) (input : CreateInput) (user : User) : Except Failure String := do
  let subjectId ← userSubject user.id.text
  let projection ← managedProfile S.toLocale user
  failIf (projection.username != input.username || projection.displayName != input.displayName ||
      projection.email != S.toLowerCase input.email)
    (fail "AuthorityUnavailable" "Supabase Auth did not confirm the managed-user profile" 503)
  return subjectId

/-- `createManagedUser(input)`, with the subject it returns. -/
def createManagedUser (S : Service) (input : CreateInput) : Routine String := do
  .lift (failIf (!S.adminKey) managedUnavailable)
  let response ← Program.await
    (Request.createUser input.email none (namedMetadata input.username input.displayName))
  let created ← .lift (request createOptions response)
  .lift (confirmCreated S input created)

def cleanupOptions : Options where
  rejectedCode := "ManagedIdentityCleanupRejected"
  rejectedMessage := "unclaimed managed identity cleanup was rejected"
  rejectedStatus := 503
  rejectedStatuses := [400, 401, 403, 404, 409, 422]

def deleteManagedUser (S : Service) (subjectId : String) : Routine Unit :=
  if S.adminKey then do
    let expectedSubjectId ← .lift (userSubject subjectId)
    let response ← Program.await (Request.deleteUser expectedSubjectId)
    .lift (requestEmpty cleanupOptions response)
  else
    pure ()

def updateOptions (rejectedMessage : String) : Options where
  rejectedCode := "ManagedIdentityRejected"
  rejectedMessage := rejectedMessage
  rejectedStatus := 400
  rejectedStatuses := [400, 401, 403, 409, 422]

def changeUser (S : Service) (subjectId : String) (patch : User → Patch) (rejectedMessage : String)
    (confirm : Profile → Except Failure Unit) : Routine Profile := do
  let expectedSubjectId ← .lift (userSubject subjectId)
  let current ← readAdminUser S expectedSubjectId
  let before ← .lift (managedProfile S.toLocale current)
  let response ← Program.await (Request.updateUser expectedSubjectId (patch current))
  let updated ← .lift (request (updateOptions rejectedMessage) response)
  let after ← .lift (managedProfile S.toLocale updated)
  .lift (confirm after)
  return before

def confirmProfile (S : Service) (subjectId displayName email : String) (after : Profile) :
    Except Failure Unit :=
  failIf (after.id != subjectId || after.displayName != displayName ||
      after.email != S.toLowerCase email)
    (fail "AuthorityUnavailable" "Supabase Auth did not confirm the managed-user profile update" 503)

def profilePatch (displayName email : String) (current : User) : Patch :=
  .profile email (put "display_name" (.string displayName) current.metadata)

/-- `updateManagedUserProfile({subjectId, displayName, email})`, with the profile there was
before. -/
def updateManagedUserProfile (S : Service) (subjectId displayName email : String) :
    Routine Profile :=
  changeUser S subjectId (profilePatch displayName email)
    "managed identity profile update was rejected" (confirmProfile S subjectId displayName email)

def confirmEnabled (subjectId : String) (enabled : Bool) (after : Profile) : Except Failure Unit :=
  failIf (after.id != subjectId || after.enabled != enabled)
    (fail "AuthorityUnavailable" "Supabase Auth did not confirm the managed-user enabled state" 503)

/-- `setManagedUserEnabled({subjectId, enabled})`, with the profile there was before. -/
def setManagedUserEnabled (S : Service) (subjectId : String) (enabled : Bool) : Routine Profile :=
  changeUser S subjectId (fun _ => .ban enabled) "managed identity enabled state was rejected"
    (confirmEnabled subjectId enabled)

def linkOptions : Options where
  rejectedCode := "RecoveryLinkRejected"
  rejectedMessage := "password recovery link request was rejected"
  rejectedStatus := 400
  rejectedStatuses := [400, 401, 403, 409, 422]

/-- `createManagedUserRecoveryLink({subjectId, ...})`, with the path of the link. -/
def createManagedUserRecoveryLink (S : Service) (subjectId : String) : Routine String := do
  let expectedSubjectId ← .lift (userSubject subjectId)
  let user ← readAdminUser S expectedSubjectId
  let email := Js.trim user.email
  .lift (failIf (emailInvalid email)
    (fail "AuthorityUnavailable" "Supabase Auth returned no verified recovery subject" 503))
  let response ← Program.await (Request.generateLink email (S.origin ++ "/auth/recovery"))
  let generated ← .lift (request linkOptions response)
  .lift (S.recoveryLink expectedSubjectId generated)

/-! ## The first administrator -/

def bootstrapOptions : Options where
  rejectedCode := "BootstrapRejected"
  rejectedMessage := "initial administrator account was rejected"
  rejectedStatus := 400
  rejectedStatuses := [400, 409, 422]

/-- `createInitialAdministrator(input)`, with the subject it returns. -/
def createInitialAdministrator (S : Service) (input : AdministratorInput) : Routine String := do
  .lift (failIf (!S.adminKey)
    (fail "AuthorityUnavailable" "Supabase administrator authority is unavailable" 503))
  let response ← Program.await (Request.createUser input.email (some input.password)
    (namedMetadata input.username input.displayName))
  let created ← .lift (request bootstrapOptions response)
  .lift (failIf (!subjectFormat created.id.text)
    (fail "AuthorityUnavailable" "Supabase Auth returned no initial administrator subject" 503))
  return created.id.text

def bootstrapCleanupOptions : Options where
  rejectedCode := "BootstrapCleanupRejected"
  rejectedMessage := "unclaimed initial administrator cleanup was rejected"
  rejectedStatus := 503
  rejectedStatuses := [400, 401, 403, 404, 409, 422]

def deleteInitialAdministrator (S : Service) (subjectId : String) : Routine Unit :=
  if S.adminKey then do
    let response ← Program.await (Request.deleteUser subjectId)
    let _ ← .lift (request bootstrapCleanupOptions response)
    return ()
  else
    pure ()

/-! ## Refresh -/

/-- What `refreshSession` returns. -/
structure Refreshed where
  accessToken : String
  refreshToken : String
  authSessionRef : String
  aal : String
  accessTokenExpiresAt : Timestamp

def jwtClaims (S : Service) (token : String) (now : Int) : Except Failure Claims :=
  match S.decodeToken token with
  | some c =>
      if !subjectFormat c.sub || c.role != "authenticated" || !(["aal1", "aal2"].contains c.aal) ||
          c.exp ≤ now / 1000 + 5 then
        .error (fail "AuthorityUnavailable" "Supabase Auth returned an invalid access credential"
          503)
      else .ok c
  | none =>
      .error (fail "AuthorityUnavailable" "Supabase Auth returned an invalid access credential" 503)

def refreshOptions : Options where
  rejectedCode := "RefreshRejected"
  rejectedMessage := "Supabase Auth explicitly rejected the current refresh credential"
  rejectedStatus := 401

def confirmRefreshed (S : Service) (expectedSubjectId : String) (session : Tokens) (now : Int) :
    Except Failure Refreshed := do
  let claims ← jwtClaims S session.accessToken now
  failIf (claims.sub != expectedSubjectId || session.userId != expectedSubjectId)
    (fail "AuthorityUnavailable" "Supabase Auth refresh subject verification failed" 503)
  return {
    accessToken := session.accessToken
    refreshToken := session.refreshToken
    authSessionRef := if claims.sessionId = "" then claims.sub else claims.sessionId
    aal := claims.aal
    accessTokenExpiresAt := seconds claims.exp }

def refreshSession (S : Service) (refreshToken expectedSubjectId : String) : Routine Refreshed := do
  .lift (failIf (refreshToken == "" || expectedSubjectId == "")
    (fail "SessionCredentialInvalid" "refresh credential binding is invalid" 401))
  let response ← Program.await (Request.refreshToken refreshToken)
  let session ← .lift (request refreshOptions response)
  .lift (failIf (session.accessToken == "" || session.refreshToken == "")
    (fail "AuthorityUnavailable" "Supabase Auth returned no rotated session" 503))
  let instant ← now
  .lift (confirmRefreshed S expectedSubjectId session instant)

end Broker
