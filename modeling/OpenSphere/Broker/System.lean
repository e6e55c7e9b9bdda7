import OpenSphere.Broker.Service

/-!
# The broker between the database and Supabase Auth

The world of the broker is the site, whose `users` are the rows of `auth.users`, and what
Supabase Auth keeps besides: an account for each user, and the refresh tokens that it has
accepted.  A request is answered, or has no effect, or has its effect and loses its answer.

A user that a row of the Console refers to cannot be deleted: the references to `auth.users` are
`ON DELETE RESTRICT`.  Supabase Auth accepts a refresh token once.
-/

open Sql
open Js (Value)
open Authority (Statement)
open ConsoleIdentity (Site Crypto Bytes perform managedRolePermissions)

namespace Broker

inductive Fate where
  | answered
  /-- The request has no effect. -/
  | down (t : Trouble)
  /-- The request has its effect; the response is not `ok`, or, if there is no trouble, has no
  document. -/
  | lost (t : Option Trouble)

structure Stamp where
  fate : Fate
  statement : Statement
  /-- The identifier of a user that is created. -/
  user : Uuid
  /-- What is issued for a refresh token. -/
  tokens : Tokens
  link : Value
  bearer : Except Failure Session
  clock : Int
  bytes : Bytes

structure World where
  site : Site
  account : Uuid → Account
  /-- The refresh tokens that were accepted, the last one first. -/
  spent : List String

/-! ## The database -/

def Stamp.store {α : Type} (e : Stamp) (w : World) (run : Site → Except SqlError (Site × α)) :
    Except Failure α × World :=
  match e.fate, run w.site with
  | .down _, _ => (.error authorityUnavailable, w)
  | .answered, .ok (site, x) => (.ok x, { w with site })
  | .answered, .error x => (.error (databaseError x), w)
  | .lost _, .ok (site, _) => (.error authorityUnavailable, { w with site })
  | .lost _, .error _ => (.error authorityUnavailable, w)

/-- A session as `resolve_browser_session` shows it. -/
def sessionOf (v : ConsoleIdentity.Resolved) : Session where
  sessionId := v.session.sessionId
  subjectId := v.session.subjectId
  permissionRevision := v.authority.permissionRevision
  revokeEpoch := v.authority.revokeEpoch
  accessTokenExpiresAt := v.session.accessTokenExpiresAt.map FrontDoor.instant

def refreshCredentialsOf (r : ConsoleIdentity.Session) : RefreshCredentials where
  sessionId := r.sessionId
  subjectId := r.subjectId
  refreshTokenCiphertext := r.refreshTokenCiphertext.getD ""

/-- What `claim_initial_administrator` returns. -/
def claimRecord (C : Crypto) (s : Statement) (subjectId : Option Uuid)
    (correlationId : Option String) (site : Site) : Except SqlError (Site × BootstrapRecord) := do
  let (site', authority) ← ConsoleIdentity.claimInitialAdministrator C s subjectId correlationId site
  return (site', {
    state := "complete"
    subjectId := authority.subjectId.text
    permissionRevision := authority.permissionRevision
    permissionCount := (managedRolePermissions site.policy "console-admins").length })

/-! ## Supabase Auth -/

/-- How Supabase Auth responds to a request. -/
def Stamp.respond {α : Type} (e : Stamp) (w : World) (result : Except Trouble (α × World)) :
    Except Failure (Response α) × World :=
  match e.fate, result with
  | .down t, _ => (.ok (.trouble t), w)
  | .answered, .ok (x, w') => (.ok (.document x), w')
  | .answered, .error t => (.ok (.trouble t), w)
  | .lost none, .ok (_, w') => (.ok .unreadable, w')
  | .lost (some t), .ok (_, w') => (.ok (.trouble t), w')
  | .lost _, .error t => (.ok (.trouble t), w)

def World.user? (w : World) (subjectId : String) : Option User :=
  match castUuid subjectId with
  | some u => if u ∈ w.site.users then some { w.account u with id := u } else none
  | none => none

def refersTo (site : Site) (u : Uuid) : Bool :=
  site.subjects.rows.any (·.subjectId == u) || site.sessions.rows.any (·.subjectId == u) ||
    site.grants.rows.any (·.subjectId == u) || site.operations.rows.any (·.actorRef == u) ||
    site.approvals.rows.any (·.actorRef == u) || site.verifications.rows.any (·.actorRef == u) ||
    site.devices.rows.any (·.subjectId == u) ||
    site.enrollments.rows.any (·.subjectId == some u) ||
    site.cliSessions.rows.any (·.subjectId == u)

/-- `POST /admin/users`. -/
def World.createUser (w : World) (u : Uuid) (account : Account) : Except Trouble (User × World) :=
  if u ∈ w.site.users then .error (.status 500)
  else .ok ({ account with id := u }, { w with
    site := { w.site with users := u :: w.site.users }
    account := Function.update w.account u account })

/-- `PUT /admin/users/{id}`. -/
def World.updateUser (w : World) (subjectId : String) (patch : Patch) :
    Except Trouble (User × World) :=
  match w.user? subjectId with
  | some user => .ok (user.update patch,
      { w with account := Function.update w.account user.id (user.update patch).toAccount })
  | none => .error (.status 404)

/-- `DELETE /admin/users/{id}`. -/
def World.deleteUser (w : World) (subjectId : String) : Except Trouble (Value × World) :=
  match w.user? subjectId with
  | some user =>
      if refersTo w.site user.id then .error (.status 500)
      else .ok (.object .nil,
        { w with site := { w.site with users := w.site.users.filter (· ≠ user.id) } })
  | none => .error (.status 404)

/-- `POST /token?grant_type=refresh_token`. -/
def World.refreshToken (w : World) (token : String) (issued : Tokens) :
    Except Trouble (Tokens × World) :=
  if token ∈ w.spent then .error (.status 400)
  else .ok (issued, { w with spent := token :: w.spent })

/-! ## Answers -/

def bearerToken (authorization : String) : String := String.ofList ((chars authorization).drop 7)

/-- How a request is answered.  A CLI session that is resolved has been used. -/
def answer (S : Service) (e : Stamp) (q : Request) (w : World) : Except Failure q.Result × World :=
  let s := e.statement
  match q with
  | .resolveSession token csrf requireCsrf => e.store w fun site => do
      let v ← ConsoleIdentity.resolveBrowserSession s token csrf (some requireCsrf) site
      return (site, sessionOf v)
  | .bearer authorization => (e.bearer, { w with
      site := perform S.crypto
        (.call s (.resolveCliSession (some (S.crypto.sha256 (bearerToken authorization))))) w.site })
  | .getRefreshCredentials token csrf requireCsrf => e.store w fun site => do
      let r ← ConsoleIdentity.getRefreshCredentials s token csrf (some requireCsrf) site
      return (site, refreshCredentialsOf r)
  | .rotateCredentials p =>
      e.store w (ConsoleIdentity.rotateBrowserSessionCredentials S.crypto s p)
  | .rejectRefresh p => e.store w (ConsoleIdentity.rejectBrowserSessionRefresh S.crypto s p)
  | .claimInitialAdministrator subjectId correlationId =>
      e.store w (claimRecord S.crypto s subjectId correlationId)
  | .prepareManagedIdentityLifecycle p => e.store w fun site => do
      let v ← ConsoleIdentity.prepareManagedIdentityLifecycle S.crypto s p site
      return (v.1, ())
  | .completeManagedIdentityLifecycle p => e.store w fun site => do
      let v ← ConsoleIdentity.completeManagedIdentityLifecycle S.crypto s p site
      return (v.1, ())
  | .createUser email _ metadata =>
      e.respond w (w.createUser e.user { email, metadata, enabled := true })
  | .readUser subjectId => e.respond w ((w.user? subjectId).elim (.error (.status 404))
      fun user => .ok (user, w))
  | .updateUser subjectId patch => e.respond w (w.updateUser subjectId patch)
  | .deleteUser subjectId => e.respond w (w.deleteUser subjectId)
  | .generateLink _ _ => e.respond w (.ok (e.link, w))
  | .refreshToken token => e.respond w (w.refreshToken token e.tokens)
  | .clock => (.ok e.clock, w)
  | .wait _ => (.ok (), w)
  | .randomBytes => (.ok e.bytes, w)

end Broker
