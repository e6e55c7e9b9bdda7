import OpenSphere.Identity.Runs

/-!
# What an action does to the grants

Four actions write to the permission grants: the bootstrap of the first
administrator, the creation of an identity, the change of a role, and the
migration to the next policy.  `Site.GrantStep` says what each of them does, and
`exec_grants` that no other action does anything.  A grant that is not revoked
never lies ahead of the revision of its subject, so what a function reads up to
that revision is what the subject holds.
-/

open Sql
open System (run run_invariant)
open Authority (SubjectAuthority PermissionGrant ModuleInstallationEnvironment Statement)

namespace ConsoleIdentity

variable {policy : Policy} {u : Uuid} {target x : SubjectAuthority} {roles : List String}
  {p t : String} {r : Role} {correlationId : Option String}

def Site.Holds (site : Site) (u : Uuid) (permission : String) : Prop :=
  ∃ g ∈ site.grants.rows, g.subjectId = u ∧ g.permission = permission ∧ g.revokedAt = none

inductive Site.GrantStep (site site' : Site) : Prop where
  | same (hgrants : site'.grants = site.grants) (hpolicy : site'.policy = site.policy)
  /-- A new subject gets the permissions of some roles. -/
  | created {u : Uuid} {roles permissions : List String}
      (hnew : site.authority u = none)
      (hsubject : ∃ x, site'.authority u = some x ∧ x.permissionRevision = 1)
      (hpermissions : ∀ p, p ∈ permissions ↔ p ∈ permissionsOf site.policy roles)
      (hgrants : Table.ofRows (site.grants.rows ++ newGrants u 1 permissions) = .ok site'.grants)
      (hpolicy : site'.policy = site.policy)
  /-- A role change that did not ask for what was already so. -/
  | changed {s : Statement} {p : RoleChangeArgs} {target : SubjectAuthority}
      (hmem : target ∈ site.subjects.rows)
      (hlast : Cond.and (removesAdmin p) (some (decide (site.adminCount ≤ 1))) ≠ some true)
      (hoperation : p.operation ≠ none) (hrole : p.role ≠ none)
      (hset : SetRoles s target
        (desiredRoles p (site.rolesOf target.subjectId target.permissionRevision)) site site')
  | upgraded {C : Crypto} {s : Statement} {generated : Uuid → Uuid × Uuid} {policy : Policy}
      (hnext : site.policy.next = some policy)
      (hloop : site.subjectIds.foldlM (fun site u => site.upgradeSubject C
        { s with rowId := (generated u).1, eventId := (generated u).2 } policy u)
        { site with policy } = .ok site')

section Functions

variable {C : Crypto} {s : Statement} {a : Action} {site site' : Site}

/-! ## Calls that leave the grants alone -/

/-- The tables that no call on sessions and operations writes. -/
structure Site.Frame (site site' : Site) : Prop where
  grants : site'.grants = site.grants
  policy : site'.policy = site.policy
  devices : site'.devices = site.devices
  enrollments : site'.enrollments = site.enrollments
  challenges : site'.challenges = site.challenges

def Call.keepsTables : Call → Bool
  | .claimInitialAdministrator .. | .changeManagedIdentityRole _ | .completeManagedIdentityLifecycle _
  | .createCliDeviceEnrollment _ | .approveCliDeviceEnrollment _ | .createCliDeviceChallenge ..
  | .completeCliDeviceSession _ | .resolveCliSession _ | .revokeOwnedCliDevice ..
  | .revokeOwnedCliDeviceWithCliSession .. => false
  | _ => true

theorem Replaced.frame {r r' : Session} (h : Replaced site site' r r') : site.Frame site' := by
  obtain ⟨site₁, t, hput, rfl⟩ := h.put
  simp only [Site.putSession, bind_eq_ok, pure_eq_ok] at hput
  obtain ⟨t', -, rfl⟩ := hput
  exact ⟨rfl, rfl, rfl, rfl, rfl⟩

theorem revoked_frame {reason : String} {seen : Bool} {p : Session → Bool} {n : Nat} {site₁ : Site}
    {D : Authority.Digest} {e : Authority.EventArgs}
    (hrevoke : site.revokeSessions s reason seen p = .ok (site₁, n))
    (happend : site₁.append D s e = .ok site') : site.Frame site' := by
  obtain ⟨t, -, rfl⟩ := revokeSessions_eq_ok hrevoke
  obtain ⟨t', rfl⟩ := append_eq_ok happend
  exact ⟨rfl, rfl, rfl, rfl, rfl⟩

theorem exec_frame {c : Call} (hc : c.keepsTables = true) (h : (Action.call s c).exec C site = .ok site') :
    site.Frame site' := by
  cases c with
  | operation c =>
      obtain ⟨-, hgrants, hpolicy, -⟩ := operation_eq_ok h
      obtain ⟨db, -, hset⟩ := bind_eq_ok.mp h
      simp only [Site.setDb, bind_eq_ok, pure_eq_ok] at hset
      obtain ⟨sessions, -, rfl⟩ := hset
      exact ⟨hgrants, hpolicy, rfl, rfl, rfl⟩
  | issueBrowserSession p =>
      obtain ⟨v, hv⟩ := fst_eq_ok h
      simp only [issueBrowserSession, bind_eq_ok, pure_eq_ok] at hv
      obtain ⟨_, -, _, -, _, -, t, -, site₁, happend, heq⟩ := hv
      cases heq
      obtain ⟨t', rfl⟩ := append_eq_ok happend
      exact ⟨rfl, rfl, rfl, rfl, rfl⟩
  | activateBrowserSessionMfa p =>
      obtain ⟨v, hv⟩ := fst_eq_ok h
      obtain ⟨r, hreplaced, -⟩ := activate_eq_ok hv
      exact hreplaced.frame
  | completeTotpEnrollment p =>
      obtain ⟨v, hv⟩ := fst_eq_ok h
      obtain ⟨r, hreplaced, -⟩ := enroll_eq_ok hv
      exact hreplaced.frame
  | completeStepUp p =>
      obtain ⟨v, hv⟩ := fst_eq_ok h
      obtain ⟨r, hreplaced, -⟩ := stepUp_eq_ok hv
      exact hreplaced.frame
  | rotateBrowserSessionCredentials p =>
      obtain ⟨v, hv⟩ := fst_eq_ok h
      rcases rotate_eq_ok hv with rfl | ⟨r, aal, hreplaced, -⟩
      · exact ⟨rfl, rfl, rfl, rfl, rfl⟩
      · exact hreplaced.frame
  | rejectBrowserSessionRefresh p =>
      obtain ⟨v, hv⟩ := fst_eq_ok h
      simp only [rejectBrowserSessionRefresh, bind_eq_ok] at hv
      obtain ⟨_, -, r, -, _, -, hv⟩ := hv
      split at hv
      next =>
        cases hv
        exact ⟨rfl, rfl, rfl, rfl, rfl⟩
      next =>
        simp only [bind_eq_ok, pure_eq_ok] at hv
        obtain ⟨⟨site₁, n⟩, hrevoke, site₂, happend, heq⟩ := hv
        cases heq
        exact revoked_frame hrevoke happend
  | touchBrowserSessionActivity token csrf =>
      obtain ⟨v, hv⟩ := fst_eq_ok h
      rcases touch_eq_ok hv with rfl | ⟨r, hreplaced, -⟩
      · exact ⟨rfl, rfl, rfl, rfl, rfl⟩
      · exact hreplaced.frame
  | revokeBrowserSession p =>
      obtain ⟨v, hv⟩ := fst_eq_ok h
      obtain ⟨r, hreplaced, -⟩ := logout_eq_ok hv
      exact hreplaced.frame
  | revokeOwnedBrowserSession token csrf target correlationId =>
      obtain ⟨v, hv⟩ := fst_eq_ok h
      obtain ⟨r, hreplaced, -⟩ := revokeOwned_eq_ok hv
      exact hreplaced.frame
  | revokeAllOwnedBrowserSessions token csrf correlationId =>
      obtain ⟨v, hv⟩ := fst_eq_ok h
      simp only [revokeAllOwnedBrowserSessions, bind_eq_ok, pure_eq_ok] at hv
      obtain ⟨_, -, current, -, ⟨site₁, n⟩, hrevoke, site₂, happend, heq⟩ := hv
      cases heq
      exact revoked_frame hrevoke happend
  | revokeAfterPasswordRecovery subjectId correlationId =>
      obtain ⟨v, hv⟩ := fst_eq_ok h
      simp only [revokeAfterPasswordRecovery, bind_eq_ok, pure_eq_ok] at hv
      obtain ⟨_, -, x, -, _, -, site₁, hput, ⟨site₂, n⟩, hrevoke, site₃, happend, heq⟩ := hv
      cases heq
      obtain ⟨t, -, rfl⟩ := putAuthority_eq_ok hput
      have hframe := revoked_frame hrevoke happend
      exact ⟨hframe.grants, hframe.policy, hframe.devices, hframe.enrollments, hframe.challenges⟩
  | prepareManagedIdentityLifecycle p =>
      obtain ⟨v, hv⟩ := fst_eq_ok h
      obtain ⟨t, rfl⟩ := prepare_eq_ok hv
      exact ⟨rfl, rfl, rfl, rfl, rfl⟩
  | _ => cases hc

/-! ## Calls that write grants -/

theorem authority_of_insert {t : Table Authority.subjectAuthoritySchema}
    (h : site.subjects.insert x = .ok t) :
    site.authority x.subjectId = none ∧ t.lookup (some x.subjectId) = some x := by
  refine ⟨Table.lookup_insert_self h, ?_⟩
  rw [Table.lookup_insert h, if_pos (by rfl)]

theorem claim_grants {subjectId : Option Uuid} {v : SubjectAuthority}
    (h : claimInitialAdministrator C s subjectId correlationId site = .ok (site', v)) :
    site.GrantStep site' := by
  obtain ⟨t, g, e, -, hrevision, hinsert, hrows, rfl⟩ := claim_eq_ok h
  obtain ⟨hnew, hfound⟩ := authority_of_insert hinsert
  have hpermissions : ∀ p, p ∈ managedRolePermissions site.policy "console-admins" ↔
      p ∈ permissionsOf site.policy ["console-admins"] := by
    simp [permissionsOf]
  exact .created hnew ⟨_, hfound, hrevision⟩ hpermissions hrows rfl

theorem complete_grants {p : CompletionArgs} {v : SubjectAuthority}
    (h : completeManagedIdentityLifecycle C s p site = .ok (site', v)) : site.GrantStep site' := by
  obtain ⟨u, action, site₁, w, t, -, -, hcomplete, rfl, -⟩ := complete_eq_ok h
  rcases completeAction_eq_ok hcomplete with ⟨x, hx, -⟩ | ⟨x, -, -, hrevoke, -⟩ | ⟨rfl, -⟩
  · obtain ⟨rfl, t₁, g, hinsert, hrows, rfl⟩ := createIdentity_eq_ok hx
    obtain ⟨hnew, hfound⟩ := authority_of_insert hinsert
    exact .created hnew ⟨_, hfound, rfl⟩ (fun p => Iff.rfl) hrows rfl
  · obtain ⟨t₁, t₂, -, rfl⟩ := revokeIdentity_eq_ok hrevoke
    exact .same rfl rfl
  · exact .same rfl rfl

theorem changeRole_grants {p : RoleChangeArgs} {v : RoleChange}
    (h : changeManagedIdentityRole C s p site = .ok (site', v)) : site.GrantStep site' := by
  obtain ⟨target, htarget, ⟨-, rfl⟩ | ⟨-, -, -, hlast, hop, hrole, site₁, t, hset, rfl⟩⟩ :=
    changeRole_eq_ok h
  · exact .same rfl rfl
  · refine .changed (roleTarget_eq_ok htarget).1 hlast hop hrole
      ⟨hset.grants, hset.subjects, fun hx => ?_, hset.policy⟩
    have hrev := hset.revises hx
    exact ⟨hrev.sessions, hrev.subjects, hrev.cliSessions⟩

/-! ## All actions -/

theorem exec_grants (h : a.exec C site = .ok site') : site.GrantStep site' := by
  cases a with
  | upgrade s generated =>
      obtain ⟨policy, hnext, hloop⟩ := upgradePolicy_eq_ok h
      exact .upgraded hnext hloop
  | audit s e =>
      obtain ⟨t, rfl⟩ := append_eq_ok h
      exact .same rfl rfl
  | users next | environment next =>
      cases h
      exact .same rfl rfl
  | call s c =>
      by_cases hc : c.keepsTables = true
      · exact .same (exec_frame hc h).grants (exec_frame hc h).policy
      cases c with
      | claimInitialAdministrator subjectId correlationId =>
          obtain ⟨v, hv⟩ := fst_eq_ok h
          exact claim_grants hv
      | changeManagedIdentityRole p =>
          obtain ⟨v, hv⟩ := fst_eq_ok h
          exact changeRole_grants hv
      | completeManagedIdentityLifecycle p =>
          obtain ⟨v, hv⟩ := fst_eq_ok h
          exact complete_grants hv
      | createCliDeviceEnrollment p =>
          obtain ⟨v, hv⟩ := fst_eq_ok h
          obtain ⟨e, t, -, -, rfl⟩ := createEnrollment_eq_ok hv
          exact .same rfl rfl
      | approveCliDeviceEnrollment p =>
          obtain ⟨v, hv⟩ := fst_eq_ok h
          obtain ⟨e, u, -, -, ⟨rfl, -⟩ | ⟨d, e', devices, enrollments, events, -, -, -, -, -, -, -, -, -, rfl⟩⟩ :=
            approveDevice_eq_ok hv
          · exact .same rfl rfl
          · exact .same rfl rfl
      | createCliDeviceChallenge deviceId nonceDigest expiresAt =>
          obtain ⟨v, hv⟩ := fst_eq_ok h
          obtain ⟨c, t, -, rfl⟩ := createChallenge_eq_ok hv
          exact .same rfl rfl
      | completeCliDeviceSession p =>
          obtain ⟨v, hv⟩ := fst_eq_ok h
          obtain ⟨c, x, challenges, cliSessions, events, -, -, -, -, -, -, -, rfl⟩ :=
            completeCliSession_eq_ok hv
          exact .same rfl rfl
      | resolveCliSession token =>
          obtain ⟨v, hv⟩ := fst_eq_ok h
          obtain ⟨w, -, -, rfl | ⟨cliSessions, devices, -, -, rfl⟩⟩ := resolveCli_eq_ok hv
          · exact .same rfl rfl
          · exact .same rfl rfl
      | revokeOwnedCliDevice actor deviceId reason correlationId =>
          obtain ⟨v, hv⟩ := fst_eq_ok h
          obtain ⟨_, _, _, _, _, _, _, -, -, -, -, -, -, rfl⟩ := revokeOwnedCliDevice_eq_ok hv
          exact .same rfl rfl
      | revokeOwnedCliDeviceWithCliSession token deviceId reason correlationId =>
          obtain ⟨v, hv⟩ := fst_eq_ok h
          obtain ⟨_, _, _, _, _, _, _, -, -, -, -, -, -, rfl⟩ := revokeOwnedWithCliSession_eq_ok hv
          exact .same rfl rfl
      | _ => exact absurd rfl hc

/-- Every action takes a step of the grants, if only that of doing nothing. -/
theorem perform_grants (C : Crypto) (a : Action) (site : Site) :
    site.GrantStep (perform C a site) := by
  rcases perform_cases C a site with hsame | hok
  · rw [hsame]
    exact .same rfl rfl
  · exact exec_grants hok

end Functions

/-! ## Roles and their permissions -/

theorem Role.ofText_text (r : Role) : Role.ofText r.text = some r := by
  cases r <;> decide

theorem Role.text_of_ofText (h : Role.ofText t = some r) : r.text = t := by
  have htext := List.find?_some h
  exact beq_iff_eq.mp htext

theorem roleOfMarker_marker (r : Role) : roleOfMarker r.marker = some r := by
  cases r <;> decide

theorem marker_of_roleOfMarker (h : roleOfMarker p = some r) :
    r.marker = p := by
  have hmarker := List.find?_some h
  exact beq_iff_eq.mp hmarker

theorem mem_managedRolePermissions :
    p ∈ managedRolePermissions policy t ↔ ∃ r : Role, r.text = t ∧ p ∈ r.permissions policy := by
  constructor
  · intro h
    unfold managedRolePermissions at h
    split at h
    next r hr => exact ⟨r, Role.text_of_ofText hr, h⟩
    next => cases h
  · rintro ⟨r, rfl, hp⟩
    rw [managedRolePermissions, Role.ofText_text]
    exact hp

theorem mem_permissionsOf :
    p ∈ permissionsOf policy roles ↔ ∃ r : Role, r.text ∈ roles ∧ p ∈ r.permissions policy := by
  simp only [permissionsOf, mem_aggDistinct, List.mem_flatMap, mem_managedRolePermissions]
  constructor
  · rintro ⟨t, ht, r, rfl, hp⟩
    exact ⟨r, ht, hp⟩
  · rintro ⟨r, hr, hp⟩
    exact ⟨r.text, hr, r, rfl, hp⟩

theorem mem_managedPermissions :
    p ∈ managedPermissions policy ↔ ∃ r : Role, p ∈ r.permissions policy := by
  rw [managedPermissions, mem_permissionsOf]
  constructor
  · rintro ⟨r, -, hp⟩
    exact ⟨r, hp⟩
  · rintro ⟨r, hp⟩
    exact ⟨r, List.mem_map_of_mem (by cases r <;> decide), hp⟩

theorem marker_mem {r' : Role} :
    r.marker ∈ r'.permissions policy ↔ r = r' := by
  cases policy <;> cases r <;> cases r' <;> decide

theorem Role.text_injective {r' : Role} (h : r.text = r'.text) : r = r' := by
  have hof := Role.ofText_text r
  rw [h, Role.ofText_text] at hof
  exact (Option.some.inj hof).symm

/-! ## What a subject holds -/

/-- Every grant that is not revoked belongs to a subject and is not ahead of it. -/
def Site.Bounded (site : Site) : Prop :=
  ∀ g ∈ site.grants.rows, g.revokedAt = none →
    ∃ x, site.authority g.subjectId = some x ∧ g.grantRevision ≤ x.permissionRevision

section Holds

variable {site : Site}

theorem Site.Bounded.reads (h : site.Bounded)
    (hx : site.authority x.subjectId = some x) {g : PermissionGrant} (hg : g ∈ site.grants.rows)
    (hsubject : g.subjectId = x.subjectId) (hactive : g.revokedAt = none) :
    g.grantRevision ≤ x.permissionRevision := by
  obtain ⟨y, hy, hle⟩ := h g hg hactive
  rw [hsubject, hx] at hy
  cases hy
  exact hle

theorem Site.Bounded.grants_iff (h : site.Bounded)
    (hx : site.authority x.subjectId = some x) :
    site.grants? x p = true ↔ site.Holds x.subjectId p := by
  simp only [Site.grants?, Authority.hasPermission, List.any_eq_true, beq_iff_eq, Cond.all_eq_true]
  constructor
  · rintro ⟨g, hg, hall⟩
    have hsubject := hall (eq (some g.subjectId) (some x.subjectId)) (by simp)
    have hp := hall (eq (some g.permission) (some p)) (by simp)
    have hactive := hall (isNull g.revokedAt) (by simp)
    simp only [eq_eq_true, Option.some.injEq, exists_eq_left', isNull_eq_true] at hsubject hp hactive
    exact ⟨g, hg, hsubject.symm, hp.symm, hactive⟩
  · rintro ⟨g, hg, hsubject, hp, hactive⟩
    refine ⟨g, hg, ?_⟩
    have hle := h.reads hx hg hsubject hactive
    simp [hsubject, hp, hactive, hle]

/-- The roles a function reads are those whose markers the subject holds. -/
theorem Site.Bounded.mem_rolesOf (h : site.Bounded)
    (hx : site.authority x.subjectId = some x) :
    t ∈ site.rolesOf x.subjectId x.permissionRevision ↔
      ∃ r : Role, r.text = t ∧ site.Holds x.subjectId r.marker := by
  simp only [Site.rolesOf, List.mem_insertionSort, List.mem_map, List.mem_filterMap,
    Option.ite_none_right_eq_some]
  constructor
  · rintro ⟨r, ⟨g, hg, ⟨hsubject, -, hactive⟩, hr⟩, rfl⟩
    exact ⟨r, rfl, g, hg, hsubject, (marker_of_roleOfMarker hr).symm, hactive⟩
  · rintro ⟨r, rfl, g, hg, hsubject, hp, hactive⟩
    refine ⟨r, ⟨g, hg, ⟨hsubject, h.reads hx hg hsubject hactive, hactive⟩, ?_⟩, rfl⟩
    rw [hp, roleOfMarker_marker]

/-! ## Writes -/

variable {site' : Site} {s : Statement}

theorem holds_newGrants {revision : Int} {permissions : List String}
    (h : site'.grants.rows = site.grants.rows ++ newGrants u revision permissions)
    (v : Uuid) (p : String) :
    site'.Holds v p ↔ site.Holds v p ∨ v = u ∧ p ∈ permissions := by
  rw [Site.Holds, h]
  simp only [List.mem_append, newGrants, List.mem_map, or_and_right, exists_or]
  refine or_congr Iff.rfl ?_
  constructor
  · rintro ⟨g, ⟨q, hq, rfl⟩, rfl, rfl, -⟩
    exact ⟨rfl, hq⟩
  · rintro ⟨rfl, hp⟩
    exact ⟨_, ⟨p, hp, rfl⟩, rfl, rfl, rfl⟩

/-- A role change takes the managed permissions of its target away and gives it those
of the roles. -/
theorem SetRoles.holds
    (h : SetRoles s target roles site site') (v : Uuid) (p : String) :
    site'.Holds v p ↔
      site.Holds v p ∧ ¬ (v = target.subjectId ∧ p ∈ managedPermissions site.policy) ∨
        v = target.subjectId ∧ p ∈ permissionsOf site.policy roles := by
  obtain ⟨g, hup, hrows⟩ := h.grants
  have hmid : site'.grants.rows = ({ site with grants := g } : Site).grants.rows ++
      newGrants target.subjectId (target.permissionRevision + 1)
        (permissionsOf site.policy roles) := Table.ofRows_rows hrows
  rw [holds_newGrants hmid v p]
  refine or_congr ?_ Iff.rfl
  show (∃ x ∈ g.rows, _) ↔ _
  rw [Table.updateWhere_rows hup]
  constructor
  · rintro ⟨x, hx, rfl, rfl, hactive⟩
    obtain ⟨y, hy, hyx⟩ := List.mem_map.mp hx
    split at hyx
    next =>
      subst hyx
      cases hactive
    next hkept =>
      subst hyx
      refine ⟨⟨y, hy, rfl, rfl, hactive⟩, fun ⟨hsubject, hmanaged⟩ => hkept ?_⟩
      simp [hsubject, hmanaged, hactive]
  · rintro ⟨⟨x, hx, rfl, rfl, hactive⟩, hkept⟩
    refine ⟨x, List.mem_map.mpr ⟨x, hx, if_neg ?_⟩, rfl, rfl, hactive⟩
    simp only [Bool.and_eq_true, decide_eq_true_eq]
    exact fun hmanaged => hkept hmanaged.1

/-! ## Bounds -/

/-- A revision of a subject that a later site does not go behind. -/
theorem authority_later
    (h : Option.Rel SubjectLater (site.authority u) (site'.authority u))
    (hx : site.authority u = some x) :
    ∃ x', site'.authority u = some x' ∧ SubjectLater x x' := by
  rw [hx] at h
  generalize hx' : site'.authority u = y at h
  cases h with
  | some hlater => exact ⟨_, rfl, hlater⟩

/-- Grants stay bounded if each new one is and no revision goes back. -/
theorem Site.Bounded.of_later (h : site.Bounded)
    (hlater : ∀ u x, site.authority u = some x →
      ∃ x', site'.authority u = some x' ∧ SubjectLater x x')
    (hnew : ∀ g ∈ site'.grants.rows, g.revokedAt = none → g ∈ site.grants.rows ∨
      ∃ x, site'.authority g.subjectId = some x ∧ g.grantRevision ≤ x.permissionRevision) :
    site'.Bounded := by
  intro g hg hactive
  rcases hnew g hg hactive with hold | hbound
  · obtain ⟨x, hx, hle⟩ := h g hold hactive
    obtain ⟨x', hx', hl⟩ := hlater _ x hx
    exact ⟨x', hx', Int.le_trans hle hl.revision⟩
  · exact hbound

/-- A grant among the old ones and those inserted for a subject. -/
theorem mem_newGrants {revision : Int} {permissions : List String}
    {rows : List PermissionGrant} {g : PermissionGrant}
    (hg : g ∈ rows ++ newGrants u revision permissions) :
    g ∈ rows ∨ g.subjectId = u ∧ g.grantRevision = revision := by
  rcases List.mem_append.mp hg with hold | hnew
  · exact .inl hold
  · obtain ⟨p, -, rfl⟩ := List.mem_map.mp hnew
    exact .inr ⟨rfl, rfl⟩

theorem SetRoles.authority
    (h : SetRoles s target roles site site') (hmem : target ∈ site.subjects.rows) :
    site'.authority target.subjectId = some { target with
      permissionRevision := target.permissionRevision + 1
      revokeEpoch := target.revokeEpoch + 1 } := by
  have hfound : site.subjects.lookup (some target.subjectId) = some target :=
    Table.lookup_eq_some.mpr ⟨hmem, rfl⟩
  rw [Site.authority, Table.lookup_put h.subjects, if_pos (by rfl), hfound]
  rfl

theorem SetRoles.bounded
    (h : SetRoles s target roles site site') (hmem : target ∈ site.subjects.rows)
    (hb : site.Bounded) : site'.Bounded := by
  refine hb.of_later (fun u x hx => authority_later ((h.revises hmem).subjects u) hx) ?_
  intro g hg hactive
  obtain ⟨t, hup, hrows⟩ := h.grants
  rw [Table.ofRows_rows hrows] at hg
  rcases mem_newGrants hg with hold | ⟨hsubject, hrevision⟩
  · rw [Table.updateWhere_rows hup] at hold
    obtain ⟨y, hy, hyg⟩ := List.mem_map.mp hold
    split at hyg
    next =>
      subst hyg
      cases hactive
    next =>
      subst hyg
      exact .inl hy
  · exact .inr ⟨_, by rw [hsubject]; exact h.authority hmem, Int.le_of_eq hrevision⟩

theorem upgradeSubject_grants {C : Crypto}
    (h : site.upgradeSubject C s policy u = .ok site') :
    site'.policy = site.policy ∧ ∃ x, site.authority u = some x ∧ x.subjectId = u ∧
      site'.grants.rows = site.grants.rows ++
        newGrants u (x.permissionRevision + 1) (site.additions x policy) ∧
      (site.additions x policy ≠ [] →
        ∃ x', site'.authority u = some x' ∧ x'.permissionRevision = x.permissionRevision + 1) := by
  obtain ⟨x, hmem, hid, ⟨hnone, heq⟩ | ⟨hsome, g, site₁, site₂, n, t, hrows, hput, hrevoke, heq⟩⟩ :=
    upgradeSubject_eq_ok h
  · have hx : site.authority u = some x := Table.lookup_eq_some.mpr ⟨hmem, by rw [← hid]; rfl⟩
    subst heq
    refine ⟨rfl, x, hx, hid, ?_, fun hadd => absurd hnone hadd⟩
    rw [hnone]
    exact (List.append_nil _).symm
  · have hx : site.subjects.lookup (some u) = some x :=
      Table.lookup_eq_some.mpr ⟨hmem, by rw [← hid]; rfl⟩
    obtain ⟨t₁, hsubjects, rfl⟩ := putAuthority_eq_ok hput
    obtain ⟨t₂, -, rfl⟩ := revokeSessions_eq_ok hrevoke
    subst heq
    have hx' : t₁.lookup (some u) = some { x with
        permissionRevision := x.permissionRevision + 1
        revokeEpoch := x.revokeEpoch + 1 } := by
      rw [Table.lookup_put hsubjects, if_pos (by rw [← hid]; rfl), hx]
      rfl
    exact ⟨rfl, x, hx, hid, Table.ofRows_rows hrows, fun _ => ⟨_, hx', rfl⟩⟩

theorem upgradeSubject_bounded {C : Crypto}
    (h : site.upgradeSubject C s policy u = .ok site') (hb : site.Bounded) : site'.Bounded := by
  refine hb.of_later (fun v x hx => authority_later ((upgradeSubject_revises h).subjects v) hx) ?_
  intro g hg hactive
  obtain ⟨-, x, hx, hid, hrows, hadvanced⟩ := upgradeSubject_grants h
  by_cases hadd : site.additions x policy = []
  · rw [hrows, hadd] at hg
    exact .inl (by simpa [newGrants] using hg)
  · rw [hrows] at hg
    rcases mem_newGrants hg with hold | ⟨hsubject, hrevision⟩
    · exact .inl hold
    · obtain ⟨x', hx', hnext⟩ := hadvanced hadd
      exact .inr ⟨x', by rw [hsubject]; exact hx', by rw [hrevision, hnext]⟩

/-- What every iteration keeps holds after the loop. -/
theorem foldlM_invariant {α : Type} {I : Site → Prop} {f : Site → α → Except SqlError Site}
    (hstep : ∀ {x i y}, f x i = .ok y → I x → I y) {l : List α} {x y : Site}
    (h : l.foldlM f x = .ok y) (hx : I x) : I y :=
  foldlM_relation (R := fun x y => I x → I y) (fun _ hx => hx) (fun hxy hyz hx => hyz (hxy hx))
    hstep h hx

theorem perform_bounded (C : Crypto) (a : Action) (hb : site.Bounded) :
    (perform C a site).Bounded := by
  have hlater : ∀ u x, site.authority u = some x →
      ∃ x', (perform C a site).authority u = some x' ∧ SubjectLater x x' := by
    intro u x hx
    exact run_authority (C := C) [a] hx
  cases perform_grants C a site with
  | same hgrants hpolicy =>
      exact hb.of_later hlater fun g hg _ => .inl (by rwa [hgrants] at hg)
  | created hnew hsubject hpermissions hgrants hpolicy =>
      refine hb.of_later hlater fun g hg _ => ?_
      rw [Table.ofRows_rows hgrants] at hg
      rcases mem_newGrants hg with hold | ⟨hid, hrevision⟩
      · exact .inl hold
      · obtain ⟨x, hx, hone⟩ := hsubject
        exact .inr ⟨x, by rw [hid]; exact hx, by rw [hrevision, hone]⟩
  | changed hmem hlast hoperation hrole hset => exact hset.bounded hmem hb
  | upgraded hnext hloop =>
      exact foldlM_invariant (I := Site.Bounded) (fun h hb => upgradeSubject_bounded h hb) hloop hb

end Holds

theorem reach_bounded (C : Crypto) (users : List Uuid)
    (environment : Option ModuleInstallationEnvironment) (policy : Policy) (as : List Action) :
    (reach C users environment policy as).Bounded := by
  refine run_invariant (I := Site.Bounded) (fun a site hb => perform_bounded C a hb) ?_ as
  intro g hg
  cases hg

end ConsoleIdentity
