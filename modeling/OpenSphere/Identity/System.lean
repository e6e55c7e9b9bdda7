import OpenSphere.Identity.Devices
import OpenSphere.Lifecycle.Frame

/-!
# The site as a system

An action is a call of an identity or operation function with any arguments and
at any time, the migration to the next role policy, an audit event of no
operation, or a change of what the site does not govern itself: the users of
Supabase Auth and the recorded environment.

The clock of a call is `statement_timestamp()`, which is taken before the call
waits for its locks.  So the order of the actions is the order of the commits,
and their clocks need not follow it.
-/

open Sql
open Authority (ModuleInstallationEnvironment Statement EventArgs)

namespace ConsoleIdentity

inductive Call where
  | issueBrowserSession (p : IssueArgs)
  | activateBrowserSessionMfa (p : PromotionArgs)
  | completeTotpEnrollment (p : PromotionArgs)
  | completeStepUp (p : PromotionArgs)
  | rotateBrowserSessionCredentials (p : RotationArgs)
  | rejectBrowserSessionRefresh (p : RejectArgs)
  | touchBrowserSessionActivity (token csrf : Option Bytes)
  | revokeBrowserSession (p : LogoutArgs)
  | revokeOwnedBrowserSession (token csrf : Option Bytes) (target : Option Uuid)
      (correlationId : Option String)
  | revokeAllOwnedBrowserSessions (token csrf : Option Bytes) (correlationId : Option String)
  | revokeAfterPasswordRecovery (subjectId : Option Uuid) (correlationId : Option String)
  | claimInitialAdministrator (subjectId : Option Uuid) (correlationId : Option String)
  | changeManagedIdentityRole (p : RoleChangeArgs)
  | prepareManagedIdentityLifecycle (p : LifecycleArgs)
  | completeManagedIdentityLifecycle (p : CompletionArgs)
  | createCliDeviceEnrollment (p : EnrollmentArgs)
  | approveCliDeviceEnrollment (p : DeviceApprovalArgs)
  | createCliDeviceChallenge (deviceId : Option Uuid) (nonceDigest : Option Bytes)
      (expiresAt : Option Timestamp)
  | completeCliDeviceSession (p : CliSessionArgs)
  | resolveCliSession (token : Option Bytes)
  | revokeOwnedCliDevice (actor : Actor) (deviceId : Option Uuid)
      (reason correlationId : Option String)
  | revokeOwnedCliDeviceWithCliSession (token : Option Bytes) (deviceId : Option Uuid)
      (reason correlationId : Option String)
  | operation (c : Authority.Call)

def Call.exec (C : Crypto) (s : Statement) (site : Site) : Call → Except SqlError Site
  | .issueBrowserSession p => (·.1) <$> ConsoleIdentity.issueBrowserSession C s p site
  | .activateBrowserSessionMfa p => (·.1) <$> ConsoleIdentity.activateBrowserSessionMfa C s p site
  | .completeTotpEnrollment p => (·.1) <$> ConsoleIdentity.completeTotpEnrollment C s p site
  | .completeStepUp p => (·.1) <$> ConsoleIdentity.completeStepUp C s p site
  | .rotateBrowserSessionCredentials p =>
      (·.1) <$> ConsoleIdentity.rotateBrowserSessionCredentials C s p site
  | .rejectBrowserSessionRefresh p =>
      (·.1) <$> ConsoleIdentity.rejectBrowserSessionRefresh C s p site
  | .touchBrowserSessionActivity token csrf =>
      (·.1) <$> ConsoleIdentity.touchBrowserSessionActivity s token csrf site
  | .revokeBrowserSession p => (·.1) <$> ConsoleIdentity.revokeBrowserSession C s p site
  | .revokeOwnedBrowserSession token csrf target correlationId =>
      (·.1) <$> ConsoleIdentity.revokeOwnedBrowserSession C s token csrf target correlationId site
  | .revokeAllOwnedBrowserSessions token csrf correlationId =>
      (·.1) <$> ConsoleIdentity.revokeAllOwnedBrowserSessions C s token csrf correlationId site
  | .revokeAfterPasswordRecovery subjectId correlationId =>
      (·.1) <$> ConsoleIdentity.revokeAfterPasswordRecovery C s subjectId correlationId site
  | .claimInitialAdministrator subjectId correlationId =>
      (·.1) <$> ConsoleIdentity.claimInitialAdministrator C s subjectId correlationId site
  | .changeManagedIdentityRole p => (·.1) <$> ConsoleIdentity.changeManagedIdentityRole C s p site
  | .prepareManagedIdentityLifecycle p =>
      (·.1) <$> ConsoleIdentity.prepareManagedIdentityLifecycle C s p site
  | .completeManagedIdentityLifecycle p =>
      (·.1) <$> ConsoleIdentity.completeManagedIdentityLifecycle C s p site
  | .createCliDeviceEnrollment p => (·.1) <$> ConsoleIdentity.createCliDeviceEnrollment s p site
  | .approveCliDeviceEnrollment p =>
      (·.1) <$> ConsoleIdentity.approveCliDeviceEnrollment C s p site
  | .createCliDeviceChallenge deviceId nonceDigest expiresAt =>
      (·.1) <$> ConsoleIdentity.createCliDeviceChallenge s deviceId nonceDigest expiresAt site
  | .completeCliDeviceSession p => (·.1) <$> ConsoleIdentity.completeCliDeviceSession C s p site
  | .resolveCliSession token => (·.1) <$> ConsoleIdentity.resolveCliSession s token site
  | .revokeOwnedCliDevice actor deviceId reason correlationId =>
      (·.1) <$> ConsoleIdentity.revokeOwnedCliDevice C s actor deviceId reason correlationId site
  | .revokeOwnedCliDeviceWithCliSession token deviceId reason correlationId =>
      (·.1) <$> ConsoleIdentity.revokeOwnedCliDeviceWithCliSession C s token deviceId reason
        correlationId site
  | .operation c => do
      let db ← c.exec C.digest s site.db
      site.setDb db

inductive Action where
  /-- A call of a function. -/
  | call (s : Statement) (c : Call)
  /-- The migration to the next role policy. -/
  | upgrade (s : Statement) (generated : Uuid → Uuid × Uuid)
  /-- An audit event of no operation. -/
  | audit (s : Statement) (e : EventArgs)
  /-- Supabase Auth creates or deletes users. -/
  | users (next : List Uuid)
  /-- The installation records its environment. -/
  | environment (next : Option ModuleInstallationEnvironment)

def Action.exec (C : Crypto) (site : Site) : Action → Except SqlError Site
  | .call s c => c.exec C s site
  | .upgrade s generated => upgradePolicy C s generated site
  | .audit s e => site.append C.digest s { e with operationId := none }
  | .users next => .ok { site with users := next }
  | .environment next => .ok { site with environment := next }

def Action.now : Action → Option Timestamp
  | .call s _ => some s.now
  | .upgrade s _ => some s.now
  | .audit s _ => some s.now
  | _ => none

/-- The site after an action, which leaves it alone if it raises. -/
def perform (C : Crypto) (a : Action) (site : Site) : Site := ((a.exec C site).toOption).getD site

def reach (C : Crypto) (users : List Uuid) (environment : Option ModuleInstallationEnvironment)
    (policy : Policy) (as : List Action) : Site :=
  System.run (perform C) as (Site.fresh users environment policy)

theorem perform_cases (C : Crypto) (a : Action) (site : Site) :
    perform C a site = site ∨ a.exec C site = .ok (perform C a site) := by
  cases h : a.exec C site with
  | error e => exact .inl (by simp [perform, h, Except.toOption])
  | ok site' => exact .inr (by simp [perform, h, Except.toOption])

theorem perform_of_ok {C : Crypto} {a : Action} {site site' : Site} (h : a.exec C site = .ok site') :
    perform C a site = site' := by
  simp [perform, h, Except.toOption]

/-! ## Resolvers -/

/-- A function that finds the browser session behind what a caller presents. -/
inductive Resolver where
  | browserSession (token csrf : Option Bytes) (requireCsrf : Option Bool)
  | pendingMfa (token csrf : Option Bytes)
  | refreshCredentials (token csrf : Option Bytes) (requireCsrf : Option Bool)
  | totpEnrollmentCredentials (token csrf : Option Bytes)
  | stepUpCredentials (token csrf : Option Bytes)
  | preferenceCredentials (token : Option Bytes)
  | ownerAccessCredential (token csrf : Option Bytes) (requireCsrf : Option Bool)
  | ownerAccessAuthority (subjectId : Option Uuid) (authSessionRef : Option String)

def Resolver.exec (s : Statement) (site : Site) : Resolver → Except SqlError Session
  | .browserSession token csrf requireCsrf =>
      (·.session) <$> resolveBrowserSession s token csrf requireCsrf site
  | .pendingMfa token csrf => getPendingBrowserSessionMfa s token csrf site
  | .refreshCredentials token csrf requireCsrf => getRefreshCredentials s token csrf requireCsrf site
  | .totpEnrollmentCredentials token csrf => getTotpEnrollmentCredentials s token csrf site
  | .stepUpCredentials token csrf => getStepUpCredentials s token csrf site
  | .preferenceCredentials token => getPreferenceCredentials s token site
  | .ownerAccessCredential token csrf requireCsrf =>
      prepareOwnerAccessCredential s token csrf requireCsrf site
  | .ownerAccessAuthority subjectId authSessionRef =>
      resolveOwnerAccessAuthority s subjectId authSessionRef site

/-- Some resolver finds the session in a call at the statement. -/
def Site.Resolves (site : Site) (s : Statement) (id : Uuid) : Prop :=
  ∃ q : Resolver, ∃ r, q.exec s site = .ok r ∧ r.sessionId = id

/-- Some function finds the CLI session in a call at the statement. -/
def Site.ResolvesCli (site : Site) (s : Statement) (id : Uuid) : Prop :=
  (∃ token site' v, resolveCliSession s token site = .ok (site', v) ∧ v.session.sessionId = id) ∨
    ∃ token v, listOwnedCliDevicesWithCliSession s token site = .ok v ∧ v.1.sessionId = id

end ConsoleIdentity
