import OpenSphere.Properties.Sessions

/-!
# Changes of authority

A role change, the completion of an enabled change or of an MFA reset, and a
password recovery advance the revoke epoch of their subject.  A credential keeps
the revisions it was issued with, those of its subject never go back, and every
resolver and the activation compare the two.  So what was issued before the
change is left behind for good, whether or not its row was revoked as well.
-/

open Sql
open System (run)
open Authority (SubjectAuthority ModuleInstallationEnvironment Statement)
open Authority.Demo (alice second)

namespace ConsoleIdentity

inductive AuthorityChange (C : Crypto) (s : Statement) (u : Uuid) (site site' : Site) : Prop where
  /-- A role change that did not ask for what was already so. -/
  | role {p : RoleChangeArgs} {v : RoleChange} (htarget : p.targetSubjectId = some u)
      (h : changeManagedIdentityRole C s p site = .ok (site', v)) (hnew : v.replayed = false)
  /-- The completion of an enabled change or an MFA reset. -/
  | lifecycle {p : CompletionArgs} {v : SubjectAuthority} (htarget : p.targetSubjectId = some u)
      (haction : p.action = some "enabled.change" ∨ p.action = some "mfa.reset")
      (h : completeManagedIdentityLifecycle C s p site = .ok (site', v))
  | recovery {correlationId : Option String} {v : Revoked}
      (h : revokeAfterPasswordRecovery C s (some u) correlationId site = .ok (site', v))

section Changes

variable {C : Crypto} {s : Statement} {u : Uuid} {site site' : Site}

/-! ## The epoch advances -/

def Advanced (u : Uuid) (site site' : Site) : Prop :=
  ∃ x x', site.authority u = some x ∧ site'.authority u = some x' ∧ x.revokeEpoch < x'.revokeEpoch

theorem advanced_of_put {x : SubjectAuthority} {revision : Int}
    {t : Table Authority.subjectAuthoritySchema} (hx : x ∈ site.subjects.rows)
    (hput : site.subjects.put { x with
      permissionRevision := revision
      revokeEpoch := x.revokeEpoch + 1 } = .ok t)
    (ht : site'.subjects = t) : Advanced x.subjectId site site' := by
  have hfound : site.subjects.lookup (some x.subjectId) = some x :=
    Table.lookup_eq_some.mpr ⟨hx, rfl⟩
  have hfound' : site'.authority x.subjectId = some { x with
      permissionRevision := revision
      revokeEpoch := x.revokeEpoch + 1 } := by
    rw [Site.authority, ht, Table.lookup_put hput, if_pos (by rfl), hfound]
    rfl
  exact ⟨x, _, hfound, hfound', Int.lt_succ x.revokeEpoch⟩

theorem changeRole_advanced {p : RoleChangeArgs} {v : RoleChange}
    (htarget : p.targetSubjectId = some u)
    (h : changeManagedIdentityRole C s p site = .ok (site', v)) (hnew : v.replayed = false) :
    Advanced u site site' := by
  obtain ⟨x, hx, ⟨hold, -⟩ | ⟨-, -, -, -, -, -, site₁, t, hset, rfl⟩⟩ := changeRole_eq_ok h
  · rw [hnew] at hold
    cases hold
  · obtain ⟨hmem, hid⟩ := roleTarget_eq_ok hx
    rw [htarget] at hid
    cases hid
    exact advanced_of_put hmem hset.subjects rfl

theorem recovery_advanced {correlationId : Option String} {v : Revoked}
    (h : revokeAfterPasswordRecovery C s (some u) correlationId site = .ok (site', v)) :
    Advanced u site site' := by
  simp only [revokeAfterPasswordRecovery, bind_eq_ok, orRaise_eq_ok, raiseIf_eq_ok,
    pure_eq_ok] at h
  obtain ⟨_, -, x, hx, _, -, site₁, hput, ⟨site₂, n⟩, hrevoke, site₃, happend, heq⟩ := h
  cases heq
  obtain ⟨hmem, hid⟩ := Table.lookup_eq_some.mp hx
  cases hid
  obtain ⟨t, hsubjects, rfl⟩ := putAuthority_eq_ok hput
  obtain ⟨t', -, rfl⟩ := revokeSessions_eq_ok hrevoke
  obtain ⟨t'', rfl⟩ := append_eq_ok happend
  exact advanced_of_put hmem hsubjects rfl

theorem complete_advanced {p : CompletionArgs} {v : SubjectAuthority}
    (htarget : p.targetSubjectId = some u)
    (haction : p.action = some "enabled.change" ∨ p.action = some "mfa.reset")
    (h : completeManagedIdentityLifecycle C s p site = .ok (site', v)) : Advanced u site site' := by
  obtain ⟨u', action, site₁, w, t, hu, hact, hcomplete, rfl, hrevokes⟩ := complete_eq_ok h
  rw [htarget] at hu
  cases hu
  rw [hact] at haction
  have hin : action ∈ ["enabled.change", "mfa.reset"] := by simpa using haction
  rcases completeAction_eq_ok hcomplete with ⟨x, -, hcreate⟩ | ⟨x, hmem, hid, hrevoke, -⟩ |
    ⟨-, hkeep⟩
  · rw [hcreate] at hin
    exact absurd hin (by decide)
  · obtain ⟨t₁, t₂, hsubjects, rfl⟩ := revokeIdentity_eq_ok hrevoke
    subst hid
    exact advanced_of_put hmem hsubjects rfl
  · exact absurd (hrevokes hin) hkeep

theorem AuthorityChange.advanced (h : AuthorityChange C s u site site') : Advanced u site site' := by
  cases h with
  | role htarget h hnew => exact changeRole_advanced htarget h hnew
  | lifecycle htarget haction h => exact complete_advanced htarget haction h
  | recovery h => exact recovery_advanced h

/-- A subject whose epoch is advanced has moved on from what it covered. -/
theorem Advanced.past (h : Advanced u site site') {revision epoch : Int}
    (hcovers : site.Covers u revision epoch) : site'.Past u revision epoch := by
  obtain ⟨x, x', hx, hx', hlt⟩ := h
  obtain ⟨y, hy, -, hepoch⟩ := hcovers
  rw [hx] at hy
  cases hy
  exact ⟨x', hx', .inr (Int.lt_of_le_of_lt hepoch hlt)⟩

theorem AuthorityChange.action (h : AuthorityChange C s u site site') :
    ∃ a, perform C a site = site' := by
  cases h with
  | @role p v htarget h hnew =>
      refine ⟨.call s (.changeManagedIdentityRole p), perform_of_ok ?_⟩
      simp [Action.exec, Call.exec, h]
  | @lifecycle p v htarget haction h =>
      refine ⟨.call s (.completeManagedIdentityLifecycle p), perform_of_ok ?_⟩
      simp [Action.exec, Call.exec, h]
  | @recovery correlationId v h =>
      refine ⟨.call s (.revokeAfterPasswordRecovery (some u) correlationId), perform_of_ok ?_⟩
      simp [Action.exec, Call.exec, h]

/-! ## Credentials issued before -/

theorem AuthorityChange.session_past (h : AuthorityChange C s u site site') (hc : site.Covered)
    {id : Uuid} {r : Session} (hr : site.session id = some r) (hu : r.subjectId = u) :
    ∃ r', site'.session id = some r' ∧
      site'.Past r'.subjectId r'.permissionRevision r'.revokeEpoch := by
  obtain ⟨a, rfl⟩ := h.action
  obtain ⟨r', hr', hstep⟩ := perform_session (C := C) a hr
  obtain ⟨hsubject, hrevision, hepoch⟩ := Session.login_eq hstep.login
  refine ⟨r', hr', ?_⟩
  rw [hsubject, hrevision, hepoch, hu]
  exact h.advanced.past (hu ▸ hc.sessions id r hr)

theorem AuthorityChange.cliSession_past (h : AuthorityChange C s u site site') (hc : site.Covered)
    {id : Uuid} {r : CliSession} (hr : site.cliSession id = some r) (hu : r.subjectId = u) :
    ∃ r', site'.cliSession id = some r' ∧
      site'.Past r'.subjectId r'.permissionRevision r'.revokeEpoch := by
  obtain ⟨a, rfl⟩ := h.action
  obtain ⟨r', hr', hlater⟩ := run_cliSession (C := C) [a] hr
  refine ⟨r', hr', ?_⟩
  rw [hlater.subjectId, hlater.revision, hlater.epoch, hu]
  exact h.advanced.past (hu ▸ hc.cliSessions id r hr)

end Changes

/-- **Invalidation.**  The revisions of a subject never go back, and once a change of
its authority is committed, no browser session of the subject that was issued
before is found or activated again, nor is any CLI session, whatever is called
afterwards and at whatever time. -/
theorem authority_change_invalidates (C : Crypto) (users : List Uuid)
    (environment : Option ModuleInstallationEnvironment) (policy : Policy) (as bs : List Action) :
    (∀ u x, (reach C users environment policy as).authority u = some x →
      ∃ x', (reach C users environment policy (as ++ bs)).authority u = some x' ∧
        x.permissionRevision ≤ x'.permissionRevision ∧ x.revokeEpoch ≤ x'.revokeEpoch) ∧
    ∀ s u site', AuthorityChange C s u (reach C users environment policy as) site' → ∀ s',
      (∀ id r, (reach C users environment policy as).session id = some r → r.subjectId = u →
        ¬ (run (perform C) bs site').Resolves s' id ∧
        ∀ p, p.sessionId = some id → ∀ v,
          activateBrowserSessionMfa C s' p (run (perform C) bs site') ≠ .ok v) ∧
      ∀ id r, (reach C users environment policy as).cliSession id = some r → r.subjectId = u →
        ¬ (run (perform C) bs site').ResolvesCli s' id := by
  constructor
  · intro u x hx
    obtain ⟨x', hx', hlater⟩ := run_authority (C := C) bs hx
    exact ⟨x', by rw [reach_append]; exact hx', hlater.revision, hlater.epoch⟩
  · intro s u site' hchange s'
    refine ⟨fun id r hr hu => ?_, fun id r hr hu => ?_⟩
    · obtain ⟨r', hr', hpast⟩ := hchange.session_past (reach_covered as) hr hu
      exact ⟨past_unresolvable hr' hpast bs, fun p hp v => past_not_activated hr' hpast bs hp⟩
    · obtain ⟨r', hr', hpast⟩ := hchange.cliSession_past (reach_covered as) hr hu
      exact past_cli_unresolvable hr' hpast bs

example : (revokeAfterPasswordRecovery Demo.crypto (second 4) (some alice) (some "correlation")
    Demo.pendingLogin).toOption.map (·.2.count) = some 1 := by
  rw [Demo.pendingLogin, Demo.after_login]
  decide +kernel

end ConsoleIdentity
