import OpenSphere.Identity.Steps

/-!
# Every action takes a step

The functions that insert rows, the lifecycle, the CLI functions, the policy
upgrades and the operation functions, in the manner of `Identity.Steps`.
`exec_step` puts all actions together, and `run_relation` of the runs turns it
into what holds between any two points of a run.
-/

open Sql
open Authority (Aal SubjectAuthority Digest Statement EventArgs)

namespace ConsoleIdentity

variable {u : Uuid} {v : SubjectAuthority} {p : CompletionArgs}
  {deviceId : Option Uuid} {token : Option Bytes}

section Functions

variable {C : Crypto} {s : Statement} {a : Action} {site site' : Site}

/-! ## Insertions -/

/-- A row inserted, with the rows before it left alone. -/
theorem lookup_insert_rel {ρ κ : Type} [DecidableEq κ] {S : Schema ρ κ} {t t' : Table S} {r : ρ}
    {R : ρ → ρ → Prop} (h : t.insert r = .ok t') (hrefl : ∀ x, R x x) (k : κ) :
    Option.Rel R (t.lookup (some k)) (t'.lookup (some k)) ∨
      t.lookup (some k) = none ∧ k = S.key r ∧ t'.lookup (some k) = some r := by
  rw [Table.lookup_insert h k]
  split
  next hk =>
    subst hk
    exact .inr ⟨Table.lookup_insert_self h, rfl, rfl⟩
  next => exact .inl (optionRel_refl hrefl _)

theorem insertAuthority_eq_ok {x : SubjectAuthority} (h : site.insertAuthority x = .ok site') :
    ∃ t, site.subjects.insert x = .ok t ∧ site' = { site with subjects := t } := by
  simp only [Site.insertAuthority, bind_eq_ok, raiseIf_eq_ok, pure_eq_ok] at h
  obtain ⟨_, -, t, hinsert, rfl⟩ := h
  exact ⟨t, hinsert, rfl⟩

/-- A subject inserted, and nothing else of the three tables changed. -/
theorem Site.Step.of_subject {x : SubjectAuthority} {t : Table Authority.subjectAuthoritySchema}
    (h : site.subjects.insert x = .ok t) (hsubjects : site'.subjects = t)
    (hsessions : site'.sessions = site.sessions) (hcli : site'.cliSessions = site.cliSessions) :
    site.Step a site' where
  sessions id := .inl (sessions_of_eq hsessions id)
  subjects u := by
    rw [Site.authority, Site.authority, hsubjects]
    rcases lookup_insert_rel h SubjectLater.refl u with hrel | ⟨hnone, -, hsome⟩
    · exact .inl hrel
    · exact .inr ⟨hnone, x, hsome⟩
  cliSessions id := .inl (cliSessions_of_eq hcli id)

theorem claim_eq_ok {subjectId : Option Uuid} {correlationId : Option String}
    (h : claimInitialAdministrator C s subjectId correlationId site = .ok (site', v)) :
    ∃ t g e, v.subjectId ∈ site.users ∧ v.permissionRevision = 1 ∧ site.subjects.insert v = .ok t ∧
      Table.ofRows (site.grants.rows ++ newGrants v.subjectId 1
        (managedRolePermissions site.policy "console-admins")) = .ok g ∧
      site' = { site with subjects := t, grants := g, events := e } := by
  simp only [claimInitialAdministrator, bind_eq_ok, raiseIf_eq_ok, notNull_eq_ok, pure_eq_ok] at h
  obtain ⟨_, -, _, -, u, -, site₁, hsubject, site₂, hgrants, site₃, happend, heq⟩ := h
  cases heq
  have hmem : u ∈ site.users := by
    simp only [Site.insertAuthority, bind_eq_ok, raiseIf_eq_ok] at hsubject
    obtain ⟨_, hmem, -⟩ := hsubject
    simpa using hmem
  obtain ⟨t, hinsert, rfl⟩ := insertAuthority_eq_ok hsubject
  obtain ⟨g, hrows, rfl⟩ := insertGrants_eq_ok hgrants
  obtain ⟨e, rfl⟩ := append_eq_ok happend
  exact ⟨t, g, e, hmem, rfl, hinsert, hrows, rfl⟩

theorem createIdentity_eq_ok {roles : List (Option String)}
    (h : site.createIdentity s u roles = .ok (site', v)) :
    v = ⟨u, s.rowId, 1, 0⟩ ∧ ∃ t g, site.subjects.insert v = .ok t ∧
      Table.ofRows (site.grants.rows ++
        newGrants u 1 (permissionsOf site.policy roles.reduceOption)) = .ok g ∧
      site' = { site with subjects := t, grants := g } := by
  simp only [Site.createIdentity, bind_eq_ok, raiseIf_eq_ok, pure_eq_ok] at h
  obtain ⟨_, -, site₁, hsubject, site₂, hgrants, heq⟩ := h
  cases heq
  obtain ⟨t, hinsert, rfl⟩ := insertAuthority_eq_ok hsubject
  obtain ⟨g, hg, rfl⟩ := insertGrants_eq_ok hgrants
  exact ⟨rfl, t, g, hinsert, hg, rfl⟩

theorem issue_step {p : IssueArgs} {v : Session}
    (h : issueBrowserSession C s p site = .ok (site', v)) :
    site.Step (.call s (.issueBrowserSession p)) site' := by
  simp only [issueBrowserSession, bind_eq_ok, orRaise_eq_ok, raiseIf_eq_ok, pure_eq_ok] at h
  obtain ⟨_, hargs, x, hx, r, hnew, t, hinsert, site₁, happend, heq⟩ := h
  rw [Prod.mk.injEq] at heq
  obtain ⟨rfl, rfl⟩ := heq
  obtain ⟨t', rfl⟩ := append_eq_ok happend
  simp only [newSession, bind_eq_ok, notNull_eq_ok, pure_eq_ok] at hnew
  obtain ⟨u, hu, _, -, _, -, aal, haal, absolute, -, _, -, hr⟩ := hnew
  have hissued : Issued site (.call s (.issueBrowserSession p)) r := by
    have hpending := any_ne_true hargs (.and p.pendingMfa (ne p.aal (some "aal1")))
      (by simp [issueInvalid])
    rw [hu] at hx
    subst hr
    refine .issue hx rfl rfl ?_ rfl ?_
    · show min absolute _ ≤ s.now + hours 12
      refine Int.le_trans (Int.min_le_right ..) (Int.add_le_add_left ?_ _)
      split <;> decide
    · by_cases hp : p.pendingMfa = some true
      · refine .inr ⟨⟨by simp [hp], by simp [hp]⟩, ?_⟩
        -- a pending session is refused unless its level is `aal1`
        rw [hp] at hpending
        obtain ⟨level, hlevel, hof⟩ := Option.bind_eq_some_iff.mp haal
        by_cases hone : level = "aal1"
        · subst hone
          rw [show aalOfText "aal1" = some .aal1 by decide] at hof
          exact (Option.some.inj hof).symm
        · exact absurd (by simp [hlevel, hone]) hpending
      · exact .inl (by simp [hp])
  refine ⟨fun id => ?_, fun u => .inl (subjects_of_eq rfl u),
    fun id => .inl (cliSessions_of_eq rfl id)⟩
  rcases lookup_insert_rel (R := Session.Step (.call s (.issueBrowserSession p))) hinsert
    Session.Step.refl id with hrel | ⟨hnone, -, hsome⟩
  · exact .inl hrel
  · exact .inr ⟨hnone, r, hsome, hissued⟩

/-! ## The lifecycle of a managed identity -/

/-- The completion of an action leaves the tables, creates an identity or advances
the epoch of one. -/
theorem completeAction_eq_ok {action : String}
    {v : SubjectAuthority × Nat} (h : site.completeAction s p u action = .ok (site', v)) :
    (∃ x, site.createIdentity s u p.distinctRoles = .ok (site', x) ∧ action = "identity.create") ∨
    (∃ x, x ∈ site.subjects.rows ∧ x.subjectId = u ∧
      site.revokeIdentity s x (String.append "managed-identity-" (replaceDots '-' action)) =
        .ok (site', v) ∧ p.revokeSessions = some true) ∨
    (site' = site ∧ p.revokeSessions ≠ some true) := by
  unfold Site.completeAction at h
  split at h
  next hcreate =>
    simp only [bind_eq_ok, pure_eq_ok] at h
    obtain ⟨⟨site₁, x⟩, hx, heq⟩ := h
    cases heq
    exact .inl ⟨x, hx, hcreate⟩
  next =>
    simp only [bind_eq_ok, orRaise_eq_ok] at h
    obtain ⟨x, hx, _, -, h⟩ := h
    obtain ⟨hmem, hid⟩ := Table.lookup_eq_some.mp hx
    split at h
    next hrevoke => exact .inr (.inl ⟨x, hmem, (Option.some.inj hid).symm, h, hrevoke⟩)
    next hkeep =>
      cases h
      exact .inr (.inr ⟨rfl, hkeep⟩)

theorem complete_eq_ok
    (h : completeManagedIdentityLifecycle C s p site = .ok (site', v)) :
    ∃ u action site₁ w t, p.targetSubjectId = some u ∧ p.action = some action ∧
      site.completeAction s p u action = .ok (site₁, w) ∧ site' = { site₁ with events := t } ∧
      (action ∈ ["enabled.change", "mfa.reset"] → p.revokeSessions = some true) := by
  simp only [completeManagedIdentityLifecycle, bind_eq_ok, orRaise_eq_ok, raiseIf_eq_ok,
    notNull_eq_ok, pure_eq_ok] at h
  obtain ⟨_, hargs, _, -, accepted, -, u, hu, action, haction, ⟨site₁, x, n⟩, hcomplete, site₂,
    happend, heq⟩ := h
  cases heq
  obtain ⟨t, rfl⟩ := append_eq_ok happend
  refine ⟨u, action, site₁, (x, n), t, hu, haction, hcomplete, rfl, fun hin => ?_⟩
  have hnot := any_ne_true hargs
  have hnull := hnot (isNull p.revokeSessions) (by simp)
  have hrevoke := hnot (.and (isIn p.action ["enabled.change", "mfa.reset"])
    (Cond.not p.revokeSessions)) (by simp)
  cases hr : p.revokeSessions with
  | none => exact absurd hr (isNull_passed hnull)
  | some b =>
      cases b with
      | true => rfl
      | false =>
          rw [hr] at hrevoke
          exact absurd ((Cond.and_eq_true _ _).mpr
            ⟨(isIn_eq_true _ _).mpr ⟨action, haction, hin⟩, rfl⟩) hrevoke

theorem complete_step
    (h : completeManagedIdentityLifecycle C s p site = .ok (site', v)) : site.Step a site' := by
  obtain ⟨u, action, site₁, w, t, -, -, hcomplete, rfl, -⟩ := complete_eq_ok h
  rcases completeAction_eq_ok hcomplete with ⟨x, hx, -⟩ | ⟨x, hx, -, hrevoke, -⟩ | ⟨rfl, -⟩
  · obtain ⟨-, t₁, g, hinsert, -, rfl⟩ := createIdentity_eq_ok hx
    exact .of_subject hinsert rfl rfl rfl
  · have hrev := revokeIdentity_revises hrevoke hx (managedIdentityReason_ne action)
    exact Site.Step.of_rel (fun id => optionRel_imp Session.Ended.step (hrev.sessions id))
      hrev.subjects (cliSessions_of_eq hrev.cliSessions)
  · exact .of_eq rfl rfl rfl

theorem prepare_eq_ok {p : LifecycleArgs}
    (h : prepareManagedIdentityLifecycle C s p site = .ok (site', v)) :
    ∃ t, site' = { site with events := t } := by
  simp only [prepareManagedIdentityLifecycle, bind_eq_ok, raiseIf_eq_ok] at h
  obtain ⟨_, -, x, -, _, -, h⟩ := h
  split at h
  next =>
    simp only [bind_eq_ok] at h
    obtain ⟨_, -, h⟩ := h
    cases h
  next =>
    simp only [bind_eq_ok, notNull_eq_ok, pure_eq_ok] at h
    obtain ⟨action, -, site₁, happend, heq⟩ := h
    cases heq
    exact append_eq_ok happend

/-! ## CLI devices -/

theorem createEnrollment_eq_ok {p : EnrollmentArgs} {v : CliEnrollment}
    (h : createCliDeviceEnrollment s p site = .ok (site', v)) :
    ∃ e t, e.approved = false ∧ site.enrollments.insert e = .ok t ∧ site' = { site with enrollments := t } := by
  simp only [createCliDeviceEnrollment, bind_eq_ok, pure_eq_ok] at h
  obtain ⟨_, -, _, -, _, -, _, -, _, -, _, -, _, -, t, hinsert, heq⟩ := h
  cases heq
  exact ⟨_, t, rfl, hinsert, rfl⟩

theorem createChallenge_eq_ok {nonceDigest : Option Bytes}
    {expiresAt : Option Timestamp} {v : CliChallenge}
    (h : createCliDeviceChallenge s deviceId nonceDigest expiresAt site = .ok (site', v)) :
    ∃ c t, site.challenges.insert c = .ok t ∧ site' = { site with challenges := t } := by
  simp only [createCliDeviceChallenge, bind_eq_ok, pure_eq_ok] at h
  obtain ⟨_, -, d, -, _, -, _, -, _, -, _, -, t, hinsert, heq⟩ := h
  cases heq
  exact ⟨_, t, hinsert, rfl⟩

theorem approveDevice_eq_ok {p : DeviceApprovalArgs} {v : Option CliDevice}
    (h : approveCliDeviceEnrollment C s p site = .ok (site', v)) :
    ∃ e u, site.enrollments.lookup p.enrollmentId = some e ∧ p.actor.actorRef = some u ∧
      ((site' = site ∧ e.approved = true ∧ ne e.subjectId (some u) ≠ some true ∧
          v = site.devices.lookup e.deviceId) ∨
        ∃ d e' devices enrollments events, v = some d ∧ d.subjectId = u ∧ e.approved = false ∧
          e'.approved = true ∧ e'.enrollmentId = e.enrollmentId ∧
          e'.subjectId = some d.subjectId ∧ e'.deviceId = some d.deviceId ∧
          site.devices.insert d = .ok devices ∧ site.enrollments.put e' = .ok enrollments ∧
          site' = { site with devices, enrollments, events }) := by
  simp only [approveCliDeviceEnrollment, bind_eq_ok, orRaise_eq_ok, raiseIf_eq_ok] at h
  obtain ⟨_, -, ⟨r, x⟩, hactor, _, -, e, he, _, -, h⟩ := h
  simp only [Site.deviceActor, bind_eq_ok, orRaise_eq_ok, pure_eq_ok] at hactor
  obtain ⟨r', -, x', hx, _, -, heq⟩ := hactor
  cases heq
  have hu := (Table.lookup_eq_some.mp hx).2
  refine ⟨e, x.subjectId, he, hu, ?_⟩
  split at h
  next happroved =>
    simp only [bind_eq_ok, raiseIf_eq_ok, pure_eq_ok] at h
    obtain ⟨_, hsubject, heq⟩ := h
    cases heq
    rw [hu] at hsubject
    exact .inl ⟨rfl, happroved, hsubject, rfl⟩
  next hpending =>
    simp only [Site.approveEnrollment, bind_eq_ok, pure_eq_ok] at h
    obtain ⟨⟨site₁, d⟩, ⟨devices, hinsert, enrollments, hput, site₂, happend, heq₁⟩, heq⟩ := h
    cases heq₁
    cases heq
    obtain ⟨t, rfl⟩ := append_eq_ok happend
    exact .inr ⟨_, { e with
        approved := true
        subjectId := some x.subjectId
        deviceId := some s.rowId
        approvedAt := some s.now }, devices, enrollments, t, rfl, rfl, by simpa using hpending,
      rfl, rfl, rfl, rfl, hinsert, hput, rfl⟩

/-- A challenge yields one session, under the current authority of its subject. -/
theorem completeCliSession_eq_ok {p : CliSessionArgs} {v : CliSession}
    (h : completeCliDeviceSession C s p site = .ok (site', v)) :
    ∃ c x challenges cliSessions events, site.challenges.lookup p.challengeId = some c ∧
      c.usedAt = none ∧ site.challenges.put { c with usedAt := some s.now } = .ok challenges ∧
      site.authority v.subjectId = some x ∧ v.permissionRevision = x.permissionRevision ∧
      v.revokeEpoch = x.revokeEpoch ∧ site.cliSessions.insert v = .ok cliSessions ∧
      site' = { site with challenges, cliSessions, events } := by
  simp only [completeCliDeviceSession, bind_eq_ok, orRaise_eq_ok, raiseIf_eq_ok, notNull_eq_ok,
    pure_eq_ok] at h
  obtain ⟨_, -, c, hc, d, -, x, hx, _, hguard, challenges, hput, token, -, expires, -, cliSessions,
    hinsert, site₁, happend, heq⟩ := h
  cases heq
  obtain ⟨t, rfl⟩ := append_eq_ok happend
  exact ⟨c, x, challenges, cliSessions, t, (Option.filter_eq_some_iff.mp hc).1,
    isNotNull_passed (any_ne_true hguard _ (List.mem_cons_self ..)), hput, hx, rfl, rfl, hinsert, rfl⟩

theorem completeCliSession_step {p : CliSessionArgs} {v : CliSession}
    (h : completeCliDeviceSession C s p site = .ok (site', v)) : site.Step a site' := by
  obtain ⟨c, x, challenges, cliSessions, events, -, -, -, hx, hrevision, hepoch, hinsert, rfl⟩ :=
    completeCliSession_eq_ok h
  refine ⟨fun id => .inl (sessions_of_eq rfl id), fun u => .inl (subjects_of_eq rfl u), fun id => ?_⟩
  rcases lookup_insert_rel (R := CliLater) hinsert CliLater.refl id with hrel | ⟨hnone, -, hsome⟩
  · exact .inl hrel
  · exact .inr ⟨hnone, _, x, hsome, hx, hrevision, hepoch⟩

theorem activeCliSession_eq_ok {v : CliSession × CliDevice × SubjectAuthority}
    (h : site.activeCliSession s token = .ok v) :
    v.1 ∈ site.cliSessions.rows ∧ site.authority v.1.subjectId = some v.2.2 ∧
      v.2.2.permissionRevision = v.1.permissionRevision ∧ v.2.2.revokeEpoch = v.1.revokeEpoch := by
  simp only [Site.activeCliSession, bind_eq_ok, orRaise_eq_ok, raiseIf_eq_ok, pure_eq_ok] at h
  obtain ⟨r, hr, d, -, x, hx, _, hguard, rfl⟩ := h
  obtain ⟨token, -, hfind⟩ := Option.bind_eq_some_iff.mp hr
  have hnot := any_ne_true hguard
  exact ⟨List.mem_of_find?_eq_some hfind, hx,
    ne_passed (hnot (ne (some x.permissionRevision) (some r.permissionRevision)) (by simp)) rfl rfl,
    ne_passed (hnot (ne (some x.revokeEpoch) (some r.revokeEpoch)) (by simp)) rfl rfl⟩

theorem resolveCli_eq_ok {v : ResolvedCli} (h : resolveCliSession s token site = .ok (site', v)) :
    ∃ w, site.activeCliSession s token = .ok w ∧ v.session = w.1 ∧ (site' = site ∨ ∃ cliSessions devices,
      site.cliSessions.put { w.1 with lastUsedAt := s.now } = .ok cliSessions ∧
      site.devices.put { w.2.1 with lastUsedAt := some s.now } = .ok devices ∧
      site' = { site with cliSessions, devices }) := by
  simp only [resolveCliSession, bind_eq_ok] at h
  obtain ⟨_, -, w, hactive, h⟩ := h
  refine ⟨w, hactive, ?_⟩
  split at h
  next =>
    simp only [bind_eq_ok, pure_eq_ok] at h
    obtain ⟨cliSessions, hput, devices, hdevice, heq⟩ := h
    cases heq
    exact ⟨rfl, .inr ⟨cliSessions, devices, hput, hdevice, rfl⟩⟩
  next =>
    cases h
    exact ⟨rfl, .inl rfl⟩

theorem resolveCli_step {v : ResolvedCli}
    (h : resolveCliSession s token site = .ok (site', v)) : site.Step a site' := by
  obtain ⟨w, hactive, -, rfl | ⟨cliSessions, devices, hput, -, rfl⟩⟩ := resolveCli_eq_ok h
  · exact .of_eq rfl rfl rfl
  · exact .of_rel (sessions_of_eq rfl) (subjects_of_eq rfl)
      (lookup_put_rel hput (activeCliSession_eq_ok hactive).1 rfl CliLater.refl ⟨rfl, rfl, rfl⟩)

/-- What either route writes that revokes a device. -/
def Site.RevokesDevice (site : Site) (deviceId : Option Uuid) (site' : Site) : Prop :=
  ∃ d d' devices p f cliSessions events, d ∈ site.devices.rows ∧ deviceId = some d.deviceId ∧
    (d'.deviceId = d.deviceId ∧ d'.subjectId = d.subjectId ∧ d'.active = false) ∧
    site.devices.put d' = .ok devices ∧
    ((∀ r, (f r).sessionId = r.sessionId) ∧ ∀ r, CliLater r (f r)) ∧
    site.cliSessions.updateWhere p f = .ok cliSessions ∧
    site' = { site with devices, cliSessions, events }

theorem revokeDevice_eq_ok {d : CliDevice} {subjectId : Option Uuid}
    {reason correlationId actorRef : Option String} {more : List (String × Jsonb)} {n : Nat}
    (hd : site.ownedDevice deviceId subjectId = .ok d)
    (h : site.revokeDevice C s d reason correlationId actorRef more = .ok (site', n)) :
    site.RevokesDevice deviceId site' := by
  simp only [Site.ownedDevice, orRaise_eq_ok] at hd
  obtain ⟨hmem, hid⟩ := Table.lookup_eq_some.mp (Option.filter_eq_some_iff.mp hd).1
  simp only [Site.revokeDevice, bind_eq_ok, pure_eq_ok] at h
  obtain ⟨devices, hput, cliSessions, hup, site₁, happend, heq⟩ := h
  cases heq
  obtain ⟨t, rfl⟩ := append_eq_ok happend
  refine ⟨d, _, devices, _, _, cliSessions, t, hmem, hid, ?_, hput, ?_, hup, rfl⟩
  · exact ⟨rfl, rfl, rfl⟩
  · exact ⟨fun _ => rfl, fun _ => ⟨rfl, rfl, rfl⟩⟩

theorem revokeOwnedCliDevice_eq_ok {actor : Actor} {reason correlationId : Option String} {n : Nat}
    (h : revokeOwnedCliDevice C s actor deviceId reason correlationId site = .ok (site', n)) :
    site.RevokesDevice deviceId site' := by
  simp only [revokeOwnedCliDevice, bind_eq_ok] at h
  obtain ⟨_, -, _, -, d, hd, hrevoke⟩ := h
  exact revokeDevice_eq_ok hd hrevoke

theorem revokeOwnedWithCliSession_eq_ok {reason correlationId : Option String} {n : Nat}
    (h : revokeOwnedCliDeviceWithCliSession C s token deviceId reason correlationId site = .ok (site', n)) :
    site.RevokesDevice deviceId site' := by
  simp only [revokeOwnedCliDeviceWithCliSession, bind_eq_ok] at h
  obtain ⟨_, -, _, -, d, hd, hrevoke⟩ := h
  exact revokeDevice_eq_ok hd hrevoke

theorem Site.RevokesDevice.step (h : site.RevokesDevice deviceId site') :
    site.Step a site' := by
  obtain ⟨d, d', devices, p, f, cliSessions, events, -, -, -, -, ⟨hkey, hlater⟩, hup, rfl⟩ := h
  exact .of_rel (sessions_of_eq rfl) (subjects_of_eq rfl)
    (lookup_updateWhere_rel hup hkey CliLater.refl fun r _ => hlater r)

/-! ## Policy upgrades -/

theorem upgradeSubject_eq_ok {policy : Policy}
    (h : site.upgradeSubject C s policy u = .ok site') :
    ∃ x, x ∈ site.subjects.rows ∧ x.subjectId = u ∧
      ((site.additions x policy = [] ∧ site' = site) ∨
      (site.additions x policy ≠ [] ∧ ∃ g site₁ site₂ n t,
        Table.ofRows (site.grants.rows ++
          newGrants u (x.permissionRevision + 1) (site.additions x policy)) = .ok g ∧
        Site.putAuthority { site with grants := g } { x with
          permissionRevision := x.permissionRevision + 1
          revokeEpoch := x.revokeEpoch + 1 } = .ok site₁ ∧
        site₁.revokeSessions s policy.revokeReason false
          (fun r => decide (r.subjectId = u)) = .ok (site₂, n) ∧
        site' = { site₂ with events := t })) := by
  simp only [Site.upgradeSubject, bind_eq_ok, orRaise_eq_ok] at h
  obtain ⟨x, hx, h⟩ := h
  obtain ⟨hmem, hid⟩ := Table.lookup_eq_some.mp hx
  refine ⟨x, hmem, (Option.some.inj hid).symm, ?_⟩
  split at h
  next hnone =>
    cases h
    exact .inl ⟨hnone, rfl⟩
  next hsome =>
    simp only [bind_eq_ok] at h
    obtain ⟨site₀, hgrants, site₁, hput, ⟨site₂, n⟩, hrevoke, hrecord⟩ := h
    obtain ⟨g, hg, rfl⟩ := insertGrants_eq_ok hgrants
    refine .inr ⟨hsome, g, site₁, site₂, n, ?_⟩
    unfold Site.recordUpgrade at hrecord
    split at hrecord
    next =>
      obtain ⟨t, rfl⟩ := append_eq_ok hrecord
      exact ⟨t, hg, hput, hrevoke, rfl⟩
    next =>
      cases hrecord
      exact ⟨site₂.events, hg, hput, hrevoke, rfl⟩

theorem upgradeSubject_revises {policy : Policy}
    (h : site.upgradeSubject C s policy u = .ok site') : site.Revises site' := by
  obtain ⟨x, hx, -, ⟨-, rfl⟩ | ⟨-, g, site₁, site₂, n, t, -, hput, hrevoke, rfl⟩⟩ :=
    upgradeSubject_eq_ok h
  · exact .refl _
  · have hmid : ({ site with grants := g } : Site).Revises site₂ :=
      advance_revises (by exact hx) (Int.le_add_one (Int.le_refl _)) hput hrevoke
        policy.revokeReason_ne
    exact ⟨hmid.sessions, hmid.subjects, hmid.cliSessions⟩

/-- What every iteration keeps, the whole loop keeps. -/
theorem foldlM_relation {α : Type} {R : Site → Site → Prop} (hrefl : ∀ x, R x x)
    (htrans : ∀ {x y z}, R x y → R y z → R x z) {f : Site → α → Except SqlError Site}
    (hstep : ∀ {x i y}, f x i = .ok y → R x y) {l : List α} {x y : Site}
    (h : l.foldlM f x = .ok y) : R x y := by
  induction l generalizing x with
  | nil =>
      cases h
      exact hrefl _
  | cons i l ih =>
      rw [List.foldlM_cons] at h
      obtain ⟨z, hz, hrest⟩ := bind_eq_ok.mp h
      exact htrans (hstep hz) (ih hrest)

theorem upgradePolicy_eq_ok {generated : Uuid → Uuid × Uuid}
    (h : upgradePolicy C s generated site = .ok site') :
    ∃ policy, site.policy.next = some policy ∧
      site.subjectIds.foldlM (fun site u => site.upgradeSubject C
        { s with rowId := (generated u).1, eventId := (generated u).2 } policy u)
        { site with policy } = .ok site' := by
  simp only [upgradePolicy, bind_eq_ok, orRaise_eq_ok] at h
  exact h

theorem upgradePolicy_revises {generated : Uuid → Uuid × Uuid}
    (h : upgradePolicy C s generated site = .ok site') : site.Revises site' := by
  obtain ⟨policy, -, hloop⟩ := upgradePolicy_eq_ok h
  have hrev := foldlM_relation Site.Revises.refl (fun h h' => h.trans h')
    (fun hstep => upgradeSubject_revises hstep) hloop
  exact ⟨hrev.sessions, hrev.subjects, hrev.cliSessions⟩

/-! ## Operation functions -/

theorem lookup_coreSessions (t : Table sessionSchema) (id : Uuid) :
    (coreSessions t).lookup (some id) = (t.lookup (some id)).map (·.toBrowserSession) := by
  simp only [Table.lookup, Option.bind_some, coreSessions, Table.project, List.find?_map]
  rfl

theorem withCore_key (db : Authority.Db) (r : Session) :
    (r.withCore db).sessionId = r.sessionId := by
  unfold Session.withCore
  split
  next core hcore => exact (Option.some.inj (Table.lookup_eq_some.mp hcore).2).symm
  next => rfl

/-- Of the identity tables, an operation function changes at most when a session was
last seen. -/
theorem operation_eq_ok {c : Authority.Call} (h : (Call.operation c).exec C s site = .ok site') :
    site'.subjects = site.subjects ∧ site'.grants = site.grants ∧ site'.policy = site.policy ∧
      site'.cliSessions = site.cliSessions ∧
      ∀ id, Option.Rel (Session.Step (.call s (.operation c))) (site.session id)
        (site'.session id) := by
  obtain ⟨db, hdb, hset⟩ := bind_eq_ok.mp h
  have htouched := (Authority.exec_commits hdb).identity
  simp only [Site.setDb, bind_eq_ok, pure_eq_ok] at hset
  obtain ⟨sessions, hup, rfl⟩ := hset
  refine ⟨htouched.subjects, htouched.grants, rfl, rfl, fun id => ?_⟩
  show Option.Rel _ (site.sessions.lookup (some id)) (sessions.lookup (some id))
  rw [Table.lookup_updateWhere hup (withCore_key db) id]
  cases hr : site.sessions.lookup (some id) with
  | none => exact .none
  | some r =>
      have hid : id = r.sessionId := Option.some.inj (Table.lookup_eq_some.mp hr).2
      subst hid
      have hcore : site.db.identity.sessions.lookup (some r.sessionId) = some r.toBrowserSession := by
        rw [show site.db.identity.sessions = coreSessions site.sessions from rfl,
          lookup_coreSessions, hr]
        rfl
      refine .some ?_
      show Session.Step _ r (r.withCore db)
      rcases htouched.sessions r.sessionId with hsame | ⟨v, t, hv, hseen⟩
      · rw [hcore] at hsame
        rw [Session.withCore, hsame]
        exact .same
      · rw [hcore] at hv
        cases hv
        rw [Session.withCore, hseen]
        exact .seen t

/-! ## All actions -/

theorem fst_eq_ok {β : Type} {x : Except SqlError (Site × β)} (h : (·.1) <$> x = .ok site') :
    ∃ v, x = .ok (site', v) := by
  cases x with
  | error e => cases h
  | ok w =>
      cases h
      exact ⟨w.2, rfl⟩

theorem exec_step (h : a.exec C site = .ok site') : site.Step a site' := by
  cases a with
  | upgrade s generated => exact (upgradePolicy_revises h).step
  | audit s e =>
      obtain ⟨t, rfl⟩ := append_eq_ok h
      exact .of_eq rfl rfl rfl
  | users next | environment next =>
      cases h
      exact .of_eq rfl rfl rfl
  | call s c =>
      cases c with
      | operation c =>
          obtain ⟨hsubjects, -, -, hcli, hsessions⟩ := operation_eq_ok h
          exact .of_rel hsessions (subjects_of_eq hsubjects) (cliSessions_of_eq hcli)
      | issueBrowserSession p =>
          obtain ⟨v, hv⟩ := fst_eq_ok h
          exact issue_step hv
      | activateBrowserSessionMfa p =>
          obtain ⟨v, hv⟩ := fst_eq_ok h
          obtain ⟨r, hreplaced, rfl, hid, haal, hrevoked, hreason, hlive, -⟩ := activate_eq_ok hv
          exact hreplaced.step markAal2Transition_id (.activated hid haal hrevoked hreason hlive)
      | completeTotpEnrollment p =>
          obtain ⟨v, hv⟩ := fst_eq_ok h
          obtain ⟨r, hreplaced, rfl, hid, haal, hactive, hlive⟩ := enroll_eq_ok hv
          exact hreplaced.step markAal2Transition_id (.enrolled hid haal hactive hlive)
      | completeStepUp p =>
          obtain ⟨v, hv⟩ := fst_eq_ok h
          obtain ⟨r, hreplaced, rfl, hid, hactive, hlive⟩ := stepUp_eq_ok hv
          exact hreplaced.step markAal2Transition_id (.steppedUp hid hactive hlive)
      | rotateBrowserSessionCredentials p =>
          obtain ⟨v, hv⟩ := fst_eq_ok h
          rcases rotate_eq_ok hv with rfl | ⟨r, aal, hreplaced, hid, haal, hactive, hlive⟩
          · exact .of_eq rfl rfl rfl
          · exact hreplaced.step markAal2Transition_id (.rotated hid haal hactive hlive)
      | rejectBrowserSessionRefresh p =>
          obtain ⟨v, hv⟩ := fst_eq_ok h
          exact (reject_revises hv).step
      | touchBrowserSessionActivity token csrf =>
          obtain ⟨v, hv⟩ := fst_eq_ok h
          rcases touch_eq_ok hv with rfl | ⟨r, hreplaced, hactive, hlive⟩
          · exact .of_eq rfl rfl rfl
          · exact hreplaced.step rfl (.touched hactive hlive)
      | revokeBrowserSession p =>
          obtain ⟨v, hv⟩ := fst_eq_ok h
          obtain ⟨r, hreplaced, hactive⟩ := logout_eq_ok hv
          exact hreplaced.step rfl (.revoked hactive (by decide))
      | revokeOwnedBrowserSession token csrf target correlationId =>
          obtain ⟨v, hv⟩ := fst_eq_ok h
          obtain ⟨r, hreplaced, hactive⟩ := revokeOwned_eq_ok hv
          exact hreplaced.step rfl (.revoked hactive (by decide))
      | revokeAllOwnedBrowserSessions token csrf correlationId =>
          obtain ⟨v, hv⟩ := fst_eq_ok h
          exact (revokeAll_revises hv).step
      | revokeAfterPasswordRecovery subjectId correlationId =>
          obtain ⟨v, hv⟩ := fst_eq_ok h
          exact (recovery_revises hv).step
      | claimInitialAdministrator subjectId correlationId =>
          obtain ⟨v, hv⟩ := fst_eq_ok h
          obtain ⟨t, g, e, -, -, hinsert, -, rfl⟩ := claim_eq_ok hv
          exact .of_subject hinsert rfl rfl rfl
      | changeManagedIdentityRole p =>
          obtain ⟨v, hv⟩ := fst_eq_ok h
          exact (changeRole_revises hv).step
      | prepareManagedIdentityLifecycle p =>
          obtain ⟨v, hv⟩ := fst_eq_ok h
          obtain ⟨t, rfl⟩ := prepare_eq_ok hv
          exact .of_eq rfl rfl rfl
      | completeManagedIdentityLifecycle p =>
          obtain ⟨v, hv⟩ := fst_eq_ok h
          exact complete_step hv
      | createCliDeviceEnrollment p =>
          obtain ⟨v, hv⟩ := fst_eq_ok h
          obtain ⟨e, t, -, -, rfl⟩ := createEnrollment_eq_ok hv
          exact .of_eq rfl rfl rfl
      | approveCliDeviceEnrollment p =>
          obtain ⟨v, hv⟩ := fst_eq_ok h
          obtain ⟨e, u, -, -, ⟨rfl, -⟩ | ⟨d, e', devices, enrollments, events, -, -, -, -, -, -, -, -, -, rfl⟩⟩ :=
            approveDevice_eq_ok hv
          · exact .of_eq rfl rfl rfl
          · exact .of_eq rfl rfl rfl
      | createCliDeviceChallenge deviceId nonceDigest expiresAt =>
          obtain ⟨v, hv⟩ := fst_eq_ok h
          obtain ⟨c, t, -, rfl⟩ := createChallenge_eq_ok hv
          exact .of_eq rfl rfl rfl
      | completeCliDeviceSession p =>
          obtain ⟨v, hv⟩ := fst_eq_ok h
          exact completeCliSession_step hv
      | resolveCliSession token =>
          obtain ⟨v, hv⟩ := fst_eq_ok h
          exact resolveCli_step hv
      | revokeOwnedCliDevice actor deviceId reason correlationId =>
          obtain ⟨v, hv⟩ := fst_eq_ok h
          exact (revokeOwnedCliDevice_eq_ok hv).step
      | revokeOwnedCliDeviceWithCliSession token deviceId reason correlationId =>
          obtain ⟨v, hv⟩ := fst_eq_ok h
          exact (revokeOwnedWithCliSession_eq_ok hv).step

theorem perform_step (C : Crypto) (a : Action) (site : Site) : site.Step a (perform C a site) := by
  rcases perform_cases C a site with hsame | hok
  · rw [hsame]
    exact .of_eq rfl rfl rfl
  · exact exec_step hok

end Functions

end ConsoleIdentity
