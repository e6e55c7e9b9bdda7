import OpenSphere.Identity.Sessions

/-!
# Managed identities

Roles and what they permit, the bootstrap of the first administrator, the
change of a role, the lifecycle of a managed identity, and the migrations that
enlarge the role policy of a running site.  A role is held through its marker,
which is a permission like the others: a change revokes all managed permissions
of its target and grants those of the remaining roles at the next revision.
-/

open Sql
open Authority (Aal SubjectAuthority PermissionGrant Statement Outcome exception sessionInvalid
  jsonUuid jsonText jsonInt jsonTime jsonBool)

namespace ConsoleIdentity

/-! ## The role policy -/

def Role.permissions : Policy → Role → List String
  | .managedIdentityRoles, .admins => [
      "console.audit.read", "console.data_identity.read", "console.extension.install",
      "console.extension.remove", "console.extension.revoke", "console.identity.manage",
      "console.operation.approve", "console.operation.verify", "console.registry.manage",
      "console.role.admin"]
  | .managedIdentityRoles, .operators => [
      "console.audit.read", "console.data_identity.read", "console.extension.install",
      "console.extension.remove", "console.extension.revoke", "console.operation.verify",
      "console.registry.manage", "console.role.operator"]
  | .platformChangePermission, .admins => [
      "console.audit.read", "console.data_identity.read", "console.extension.install",
      "console.extension.remove", "console.extension.revoke", "console.git.change",
      "console.identity.manage", "console.operation.approve", "console.operation.verify",
      "console.registry.manage", "console.role.admin"]
  | .platformChangePermission, .operators => [
      "console.audit.read", "console.data_identity.read", "console.extension.install",
      "console.extension.remove", "console.extension.revoke", "console.git.change",
      "console.operation.verify", "console.registry.manage", "console.role.operator"]
  | .nativeShellAuthority, .admins => [
      "console.audit.read", "console.data_identity.read", "console.extension.install",
      "console.extension.remove", "console.extension.revoke", "console.git.change",
      "console.identity.manage", "console.operation.approve", "console.operation.verify",
      "console.registry.manage", "console.role.admin", "session:attach"]
  | .nativeShellAuthority, .operators => [
      "console.audit.read", "console.data_identity.read", "console.extension.install",
      "console.extension.remove", "console.extension.revoke", "console.git.change",
      "console.operation.verify", "console.registry.manage", "console.role.operator",
      "session:attach"]
  | .nativeOsaaServingAuthority, .admins => [
      "console.audit.read", "console.data_identity.read", "console.extension.install",
      "console.extension.remove", "console.extension.revoke", "console.git.change",
      "console.identity.manage", "console.operation.approve", "console.operation.verify",
      "console.registry.manage", "console.role.admin", "session:attach", "osaa.chat.use",
      "osaa.knowledge.read", "osaa.system.read", "osaa.knowledge.manage", "osaa.logs.read",
      "osaa.action.propose", "osaa.action.execute.low", "osaa.action.execute.high",
      "osaa.evidence.read", "osaa.evidence.manage"]
  | .nativeOsaaServingAuthority, .operators => [
      "console.audit.read", "console.data_identity.read", "console.extension.install",
      "console.extension.remove", "console.extension.revoke", "console.git.change",
      "console.operation.verify", "console.registry.manage", "console.role.operator",
      "session:attach", "osaa.chat.use", "osaa.knowledge.read", "osaa.system.read",
      "osaa.logs.read", "osaa.action.propose"]
  | .nativeOsaaServingAuthority, .viewers => [
      "console.audit.read", "console.data_identity.read", "console.role.viewer", "osaa.chat.use",
      "osaa.knowledge.read", "osaa.system.read"]
  | _, .viewers => ["console.audit.read", "console.data_identity.read", "console.role.viewer"]

/-- `console_identity.managed_role_permissions`. -/
def managedRolePermissions (policy : Policy) (role : String) : List String :=
  match Role.ofText role with
  | some r => r.permissions policy
  | none => []

def permissionsOf (policy : Policy) (roles : List String) : List String :=
  aggDistinct (roles.flatMap (managedRolePermissions policy))

/-- `v_managed_permissions`. -/
def managedPermissions (policy : Policy) : List String :=
  permissionsOf policy (Role.all.map Role.text)

def roleOfMarker (permission : String) : Option Role :=
  Role.all.find? fun r => r.marker == permission

/-- `v_current_roles`: the roles a subject holds up to a revision. -/
def Site.rolesOf (site : Site) (subjectId : Uuid) (revision : Int) : List String :=
  ((site.grants.rows.filterMap fun g =>
    if g.subjectId = subjectId ∧ g.grantRevision ≤ revision ∧ g.revokedAt = none then
      roleOfMarker g.permission
    else none).map Role.text).insertionSort (· ≤ ·)

/-! ## Who may manage -/

/-- The session and the revisions a caller presents. -/
structure Actor where
  sessionId : Option Uuid
  actorRef : Option Uuid
  expectedPermissionRevision : Option Int
  expectedRevokeEpoch : Option Int

/-- The caller's session within its lifetime and the caller's authority. -/
def Site.actor (s : Statement) (site : Site) (a : Actor) :
    Except SqlError (Session × SubjectAuthority) := do
  let r ← orRaise (site.sessions.lookup a.sessionId) sessionInvalid
  raiseIf (.any (ne (some r.subjectId) a.actorRef :: r.ended s)) sessionInvalid
  let authority ← Authority.currentAuthority site.db r.toBrowserSession a.actorRef
    a.expectedPermissionRevision a.expectedRevokeEpoch
  return (r, authority)

def Site.notManager (site : Site) (a : Actor) (authority : SubjectAuthority) : Cond :=
  some (!Authority.hasPermission site.db a.actorRef (some "console.identity.manage")
    (some authority.permissionRevision))

def managerRequired : SqlError :=
  exception "identity management permission is required" "42501" "PermissionDenied"

def identityNotFound : SqlError := exception "managed identity was not found" "P0002" "NotFound"

/-! ## Role changes -/

/-- The arguments of `change_managed_identity_role`. -/
structure RoleChangeArgs where
  actor : Actor
  targetSubjectId : Option Uuid
  operation : Option String
  role : Option String
  reason : Option String
  correlationId : Option String

structure RoleChange where
  authority : SubjectAuthority
  roles : List String
  revokedSessionCount : Nat
  replayed : Bool

/-- `x = ANY(l)`, which is false for an empty array even if `x` is NULL. -/
def eqAny (x : Option String) (l : List String) : Cond :=
  if l = [] then some false else isIn x l

def alreadySo (p : RoleChangeArgs) (current : List String) : Cond :=
  .or (.and (eq p.operation (some "add")) (eqAny p.role current))
    (.and (eq p.operation (some "remove")) (eqAny p.role current).not)

def removesAdmin (p : RoleChangeArgs) : Cond :=
  .and (eq p.operation (some "remove")) (eq p.role (some "console-admins"))

/-- `count(DISTINCT subject_id)` of the unrevoked administrator markers. -/
def Site.adminCount (site : Site) : Nat :=
  ((site.grants.rows.filter fun g =>
    decide (g.permission = "console.role.admin") && g.revokedAt.isNone).map (·.subjectId)).dedup.length

/-- `v_desired_roles`. -/
def desiredRoles (p : RoleChangeArgs) (current : List String) : List String :=
  let added := if eq p.operation (some "add") = some true then p.role.toList else []
  aggDistinct ((current ++ added).filter fun r =>
    Cond.not (.and (eq p.operation (some "remove")) (eq (some r) p.role)) == some true)

/-- The target with the roles it shall have: its managed permissions revoked, those
of the roles granted at the next revision, and its sessions revoked. -/
def Site.setRoles (s : Statement) (site : Site) (target : SubjectAuthority) (roles : List String) :
    Except SqlError (Site × SubjectAuthority × Nat) := do
  let grants ← site.grants.updateWhere
    (fun g => decide (g.subjectId = target.subjectId) &&
      decide (g.permission ∈ managedPermissions site.policy) && g.revokedAt.isNone)
    fun g => { g with revokedAt := some s.now }
  let next := target.permissionRevision + 1
  let site ← Site.insertGrants { site with grants }
    (newGrants target.subjectId next (permissionsOf site.policy roles))
  let authority :=
    { target with permissionRevision := next, revokeEpoch := target.revokeEpoch + 1 }
  let site ← site.putAuthority authority
  let (site, count) ← site.revokeSessions s "managed-role-changed" false
    fun r => decide (r.subjectId = target.subjectId)
  return (site, authority, count)

def roleTarget (s : Statement) (p : RoleChangeArgs) (site : Site) :
    Except SqlError SubjectAuthority := do
  raiseIf (.any ([isNull p.actor.sessionId, isNull p.actor.actorRef, isNull p.targetSubjectId,
      lt p.actor.expectedPermissionRevision (some 0), lt p.actor.expectedRevokeEpoch (some 0),
      notIn p.operation ["add", "remove"],
      notIn p.role ["console-admins", "console-operators", "console-viewers"]] ++
      reasonInvalid p.reason ++ correlationInvalid p.correlationId))
    (requestInvalid "managed identity role request is invalid")
  let (r, actor) ← site.actor s p.actor
  raiseIf (site.notManager p.actor actor) managerRequired
  raiseIf (Authority.notRecentAal2 s r.toBrowserSession) Authority.stepUpRequired
  if eq p.targetSubjectId p.actor.actorRef = some true then
    return actor
  else
    orRaise (site.subjects.lookup p.targetSubjectId) identityNotFound

/-- `console_identity.change_managed_identity_role`. -/
def changeManagedIdentityRole (C : Crypto) (s : Statement) (p : RoleChangeArgs) (site : Site) :
    Except SqlError (Site × RoleChange) := do
  let target ← roleTarget s p site
  let current := site.rolesOf target.subjectId target.permissionRevision
  if alreadySo p current = some true then
    return (site, ⟨target, current, 0, true⟩)
  else
    raiseIf (.and (removesAdmin p) (eq p.targetSubjectId p.actor.actorRef))
      (exception "administrator self-removal is blocked" "42501" "PermissionDenied")
    raiseIf (.and (removesAdmin p) (some (decide (site.adminCount ≤ 1))))
      (exception "last Console administrator cannot be removed" "23514" "RoleContinuityRequired")
    let desired := desiredRoles p current
    let (site, authority, count) ← site.setRoles s target desired
    let action ← notNull (p.operation.map (String.append "console.identity.role.")) "action"
    let site ← site.append C.digest s
      (identityEvent p.correlationId (uuidText p.actor.actorRef) action
        (p.role.map fun r => String.append "subject:"
          (String.append target.subjectId.text (String.append ":role:" r)))
        .succeeded (p.reason.map btrim) [
        ("targetSubjectId", .ofText target.subjectId.text),
        ("role", jsonText p.role),
        ("operation", jsonText p.operation),
        ("roles", jsonTexts (desired.map some)),
        ("permissionRevision", .ofInt authority.permissionRevision),
        ("revokeEpoch", .ofInt authority.revokeEpoch),
        ("revokedSessionCount", jsonNat count)])
    return (site, ⟨authority, desired, count, false⟩)

/-! ## The first administrator -/

/-- `console_identity.claim_initial_administrator`. -/
def claimInitialAdministrator (C : Crypto) (s : Statement) (subjectId : Option Uuid)
    (correlationId : Option String) (site : Site) : Except SqlError (Site × SubjectAuthority) := do
  let permissions := managedRolePermissions site.policy "console-admins"
  raiseIf (.any (isNull subjectId :: correlationInvalid correlationId))
    (requestInvalid "initial administrator bootstrap request is invalid")
  raiseIf (some (!site.subjects.rows.isEmpty))
    (exception "initial administrator already exists" "23505" "BootstrapComplete")
  let u ← notNull subjectId "subject_id"
  let authority : SubjectAuthority := ⟨u, s.rowId, 1, 0⟩
  let site ← site.insertAuthority authority
  let site ← site.insertGrants (newGrants u 1 permissions)
  let site ← site.append C.digest s
    (identityEvent correlationId (uuidText subjectId)
      "console.identity.bootstrap.initial_administrator"
      (some (String.append "subject:" u.text)) .succeeded
      (some "initial-administrator-bootstrap") [
      ("permissionRevision", .ofInt 1),
      ("permissionCount", jsonNat permissions.length)])
  return (site, authority)

/-! ## The lifecycle of a managed identity -/

/-- The arguments of `prepare_managed_identity_lifecycle`. -/
structure LifecycleArgs where
  actor : Actor
  targetSubjectId : Option Uuid
  action : Option String
  requestDigest : Option String
  idempotencyKey : Option String
  roles : Option (List (Option String))
  enabled : Option Bool
  reason : Option String
  correlationId : Option String

/-- `array_agg(DISTINCT x ORDER BY x)` of nullable texts, NULL last. -/
def aggDistinctNullable (l : List (Option String)) : List (Option String) :=
  (aggDistinct l.reduceOption).map some ++ if none ∈ l then [none] else []

/-- `v_roles`. -/
def LifecycleArgs.distinctRoles (p : LifecycleArgs) : List (Option String) :=
  aggDistinctNullable (coalesce p.roles [])

/-- The request is not one for a lifecycle action, whoever makes it. -/
def lifecycleInvalid (p : LifecycleArgs) : List Cond :=
  [isNull p.actor.sessionId, isNull p.actor.actorRef,
    isNull p.actor.expectedPermissionRevision, lt p.actor.expectedPermissionRevision (some 0),
    isNull p.actor.expectedRevokeEpoch, lt p.actor.expectedRevokeEpoch (some 0),
    isNull p.action,
    notIn p.action ["identity.create", "profile.update", "enabled.change", "onboarding.link",
      "mfa.reset"],
    isNull p.requestDigest, fails Authority.digestFormat p.requestDigest,
    notBetween (some (textLength (coalesce p.idempotencyKey ""))) 8 256,
    holds hasNewline p.idempotencyKey] ++
  reasonInvalid p.reason ++ correlationInvalid p.correlationId ++
  [ne (eq p.action (some "enabled.change")) (isNotNull p.enabled),
    .and (eq p.action (some "identity.create"))
      (some (decide (p.distinctRoles.length ≠ (coalesce p.roles []).length))),
    .and (ne p.action (some "identity.create")) (some (decide (p.distinctRoles.length ≠ 0))),
    some (p.distinctRoles.any fun r =>
      notIn r ["console-admins", "console-operators", "console-viewers"] == some true)]

/-- `v_self_profile`. -/
def LifecycleArgs.selfProfile (p : LifecycleArgs) : Cond :=
  .and (eq p.action (some "profile.update")) (eq p.targetSubjectId p.actor.actorRef)

/-- The caller's session and authority, if the caller may take the action. -/
def lifecycleActor (s : Statement) (p : LifecycleArgs) (site : Site) :
    Except SqlError SubjectAuthority := do
  let (r, actor) ← site.actor s p.actor
  raiseIf (.and p.selfProfile.not (Authority.notRecentAal2 s r.toBrowserSession))
    Authority.stepUpRequired
  raiseIf (.and p.selfProfile.not (site.notManager p.actor actor)) managerRequired
  return actor

/-- An action an administrator may not take on the own account, or a disabling of
an administrator. -/
def lifecycleBlocked (p : LifecycleArgs) (site : Site) (target : SubjectAuthority) :
    Except SqlError Unit := do
  raiseIf (.and (isIn p.action ["onboarding.link", "mfa.reset"])
      (eq p.targetSubjectId p.actor.actorRef))
    (exception "a separate administrator is required for this identity action" "42501"
      "PermissionDenied")
  raiseIf (.all [eq p.action (some "enabled.change"), eq p.enabled (some false),
      some (Authority.hasPermission site.db p.targetSubjectId (some "console.role.admin")
        (some target.permissionRevision))])
    (exception "an administrator must be demoted before the account is disabled" "23514"
      "RoleContinuityRequired")

/-- `replace(s, '.', c)`. -/
def replaceDots (c : Char) (s : String) : String :=
  String.ofList ((chars s).map fun x => if x = '.' then c else x)

/-- `'console.identity.lifecycle.' || replace(p_action, '.', '_') || suffix`. -/
def lifecycleAction (action suffix : String) : String :=
  String.append "console.identity.lifecycle." (String.append (replaceDots '_' action) suffix)

/-- `v_idempotency_digest`. -/
def idempotencyDigest (C : Crypto) (p : LifecycleArgs) : Option String :=
  p.idempotencyKey.map fun k => String.append "sha256:" (encodeHex (C.sha256 k))

/-- `v_target_ref`. -/
def lifecycleTargetRef (p : LifecycleArgs) : Option String :=
  if p.action = some "identity.create" then some "managed-identity:new"
  else p.targetSubjectId.map fun u => String.append "subject:" u.text

def Site.acceptedEvents (C : Crypto) (site : Site) (p : LifecycleArgs) : List Authority.Event :=
  site.events.rows.filter fun e =>
    Cond.all [
      eq (some e.actorRef) (uuidText p.actor.actorRef),
      eq (some e.action) (p.action.map fun a => lifecycleAction a ".accepted"),
      eq (e.evidence.getText "idempotencyDigest") (idempotencyDigest C p)] == some true

/-- The fields of a lifecycle event that depend on the action. -/
def lifecycleEvidence (p : LifecycleArgs) : List (String × Jsonb) :=
  (if p.action = some "identity.create" then [("roles", jsonTexts p.distinctRoles)] else []) ++
    if p.action = some "enabled.change" then
      (p.enabled.map fun b => ("enabled", Jsonb.ofBool b)).toList
    else []

def prepareTarget (p : LifecycleArgs) (site : Site) : Except SqlError Unit :=
  if ne p.action (some "identity.create") = some true then do
    let target ← orRaise (site.subjects.lookup p.targetSubjectId) identityNotFound
    lifecycleBlocked p site target
  else
    return ()

/-- `console_identity.prepare_managed_identity_lifecycle`. -/
def prepareManagedIdentityLifecycle (C : Crypto) (s : Statement) (p : LifecycleArgs) (site : Site) :
    Except SqlError (Site × SubjectAuthority) := do
  raiseIf (.any (lifecycleInvalid p ++
      [ne (eq p.action (some "identity.create")) (isNull p.targetSubjectId)]))
    (requestInvalid "managed identity lifecycle request is invalid")
  let actor ← lifecycleActor s p site
  prepareTarget p site
  match (site.acceptedEvents C p).getLast? with
  | some e => do
      raiseIf (ne (e.evidence.getText "requestDigest") p.requestDigest)
        (exception "idempotency key belongs to a different managed identity request" "23505"
          "IdempotencyMismatch")
      .error (exception "managed identity response material is not replayable" "23505"
        "IdempotencyReplayUnavailable")
  | none => do
      let action ← notNull p.action "action"
      let site ← site.append C.digest s
        (identityEvent p.correlationId (uuidText p.actor.actorRef)
          (lifecycleAction action ".accepted") (lifecycleTargetRef p) .accepted
          (p.reason.map btrim) ([
          ("action", .ofText action),
          ("requestDigest", jsonText p.requestDigest),
          ("idempotencyDigest", jsonText (idempotencyDigest C p)),
          ("actorPermissionRevision", .ofInt actor.permissionRevision),
          ("actorRevokeEpoch", .ofInt actor.revokeEpoch)] ++ lifecycleEvidence p))
      return (site, actor)

/-- The arguments `complete_managed_identity_lifecycle` adds. -/
structure CompletionArgs extends LifecycleArgs where
  revokeSessions : Option Bool
  effectCount : Option Int

def Site.createIdentity (s : Statement) (site : Site) (u : Uuid) (roles : List (Option String)) :
    Except SqlError (Site × SubjectAuthority) := do
  raiseIf (some (decide (u ∉ site.users) || (site.subjects.lookup (some u)).isSome))
    (exception "created Auth subject is absent or already managed" "23505" "Conflict")
  let authority : SubjectAuthority := ⟨u, s.rowId, 1, 0⟩
  let site ← site.insertAuthority authority
  let site ← site.insertGrants (newGrants u 1 (permissionsOf site.policy roles.reduceOption))
  return (site, authority)

/-- The epoch of a managed identity advanced and its sessions revoked. -/
def Site.revokeIdentity (s : Statement) (site : Site) (target : SubjectAuthority) (reason : String) :
    Except SqlError (Site × SubjectAuthority × Nat) := do
  let authority := { target with revokeEpoch := target.revokeEpoch + 1 }
  let site ← site.putAuthority authority
  let (site, count) ← site.revokeSessions s reason false
    fun r => decide (r.subjectId = target.subjectId)
  return (site, authority, count)

def Site.completeAction (s : Statement) (site : Site) (p : CompletionArgs) (u : Uuid)
    (action : String) : Except SqlError (Site × SubjectAuthority × Nat) := do
  if action = "identity.create" then
    let (site, authority) ← site.createIdentity s u p.distinctRoles
    return (site, authority, 0)
  else
    let target ← orRaise (site.subjects.lookup (some u)) identityNotFound
    lifecycleBlocked p.toLifecycleArgs site target
    if p.revokeSessions = some true then
      site.revokeIdentity s target (String.append "managed-identity-" (replaceDots '-' action))
    else
      return (site, target, 0)

/-- `console_identity.complete_managed_identity_lifecycle`. -/
def completeManagedIdentityLifecycle (C : Crypto) (s : Statement) (p : CompletionArgs)
    (site : Site) : Except SqlError (Site × SubjectAuthority) := do
  raiseIf (.any (isNull p.targetSubjectId :: lifecycleInvalid p.toLifecycleArgs ++ [
      isNull p.revokeSessions,
      isNull p.effectCount,
      notBetween p.effectCount 0 100,
      .and (ne p.action (some "mfa.reset")) (ne p.effectCount (some 0)),
      .and (isIn p.action ["identity.create", "profile.update", "onboarding.link"])
        p.revokeSessions,
      .and (isIn p.action ["enabled.change", "mfa.reset"]) (Cond.not p.revokeSessions)]))
    (requestInvalid "managed identity lifecycle completion is invalid")
  let _ ← lifecycleActor s p.toLifecycleArgs site
  let accepted ← orRaise
    ((site.acceptedEvents C p.toLifecycleArgs).filter fun e =>
      Cond.and (eq (some e.targetRef) (lifecycleTargetRef p.toLifecycleArgs))
        (eq (e.evidence.getText "requestDigest") p.requestDigest) == some true).getLast?
    (exception "managed identity accepted intent was not found" "P0002" "NotFound")
  let u ← notNull p.targetSubjectId "subject_id"
  let action ← notNull p.action "action"
  let (site, target, count) ← site.completeAction s p u action
  let site ← site.append C.digest s
    (identityEvent p.correlationId (uuidText p.actor.actorRef)
      (lifecycleAction action ".succeeded") (some (String.append "subject:" u.text)) .succeeded
      (p.reason.map btrim) ([
      ("action", .ofText action),
      ("requestDigest", jsonText p.requestDigest),
      ("acceptedEventId", .ofText accepted.eventId.text)] ++
      lifecycleEvidence p.toLifecycleArgs ++
      (if action = "mfa.reset" then [("effectCount", jsonInt p.effectCount)] else []) ++ [
      ("permissionRevision", .ofInt target.permissionRevision),
      ("revokeEpoch", .ofInt target.revokeEpoch),
      ("revokedSessionCount", jsonNat count)]))
  return (site, target)

/-! ## Policy upgrades -/

/-- The policy a migration brings after another. -/
def Policy.next : Policy → Option Policy
  | managedIdentityRoles => some platformChangePermission
  | platformChangePermission => some nativeShellAuthority
  | nativeShellAuthority => some nativeOsaaServingAuthority
  | nativeOsaaServingAuthority => none

def Site.grants? (site : Site) (a : SubjectAuthority) (permission : String) : Bool :=
  Authority.hasPermission site.db (some a.subjectId) (some permission) (some a.permissionRevision)

/-- A migration that gives one permission to administrators and operators. -/
def Site.missing (site : Site) (a : SubjectAuthority) (permission : String) : List String :=
  if (site.grants? a "console.role.admin" || site.grants? a "console.role.operator") &&
      !site.grants? a permission
  then [permission]
  else []

def Site.additions (site : Site) (a : SubjectAuthority) : Policy → List String
  | .managedIdentityRoles => []
  | .platformChangePermission => site.missing a "console.git.change"
  | .nativeShellAuthority => site.missing a "session:attach"
  | .nativeOsaaServingAuthority =>
      aggDistinct (((site.rolesOf a.subjectId a.permissionRevision).flatMap
        (managedRolePermissions .nativeOsaaServingAuthority)).filter fun p =>
          startsWith p "osaa." && !site.grants? a p)

/-- Why a migration revokes the sessions of a subject. -/
def Policy.revokeReason : Policy → String
  | managedIdentityRoles => "managed-role-policy-upgrade"
  | platformChangePermission => "platform-change-policy-upgrade"
  | nativeShellAuthority => "native-shell-policy-upgrade"
  | nativeOsaaServingAuthority => "native-osaa-permission-policy"

def Site.recordUpgrade (C : Crypto) (s : Statement) (site : Site) (policy : Policy)
    (authority : SubjectAuthority) (additions : List String) : Except SqlError Site :=
  if policy = .nativeOsaaServingAuthority then
    site.append C.digest s
      (identityEvent (some (String.append "native-osaa-policy:" s.rowId.text))
        (some "system:migration-0031") "identity.permission.policy.upgrade"
        (some authority.subjectId.text) .succeeded
        (some "Native OSAA managed-role permission contract") [
        ("permissionsAdded", jsonTexts (additions.map some)),
        ("permissionRevision", .ofInt authority.permissionRevision)])
  else
    return site

/-- One iteration of the loop over the subjects.  It only touches rows of its own
subject, so the row it reads is the one the loop selected. -/
def Site.upgradeSubject (C : Crypto) (s : Statement) (policy : Policy) (site : Site) (u : Uuid) :
    Except SqlError Site := do
  let a ← orRaise (site.subjects.lookup (some u)) identityNotFound
  let additions := site.additions a policy
  if additions = [] then
    return site
  else
    let authority := { a with
      permissionRevision := a.permissionRevision + 1
      revokeEpoch := a.revokeEpoch + 1 }
    let site ← site.insertGrants (newGrants u authority.permissionRevision additions)
    let site ← site.putAuthority authority
    let (site, _) ← site.revokeSessions s policy.revokeReason false
      fun r => decide (r.subjectId = u)
    site.recordUpgrade C s policy authority additions

def Site.subjectIds (site : Site) : List Uuid :=
  (site.subjects.rows.map (·.subjectId)).insertionSort fun a b => a.bits ≤ b.bits

/-- The migration to the next policy.  `generated` are the identifiers that the
iteration of a subject generates. -/
def upgradePolicy (C : Crypto) (s : Statement) (generated : Uuid → Uuid × Uuid) (site : Site) :
    Except SqlError Site := do
  let policy ← orRaise site.policy.next
    (exception "the migration has been applied" "55000" "")
  site.subjectIds.foldlM (fun site u =>
      site.upgradeSubject C
        { s with rowId := (generated u).1, eventId := (generated u).2 } policy u)
    { site with policy }

end ConsoleIdentity
