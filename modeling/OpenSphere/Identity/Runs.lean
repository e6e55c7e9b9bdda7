import OpenSphere.Identity.Commits

/-!
# Sessions along a run

A session is found again at every later point of a run, and what its steps keep
is kept.  The revisions a credential was issued with never exceed those of its
subject.  Every resolver finds a session that is live, issued under the current
authority, and either not revoked or waiting for its second factor.
-/

open Sql
open System (run run_append run_invariant)
open Authority (Aal SubjectAuthority ModuleInstallationEnvironment Statement)

namespace ConsoleIdentity

variable {id u : Uuid} {epoch revision : Int} {x : SubjectAuthority} {csrf token : Option Bytes}
  {requireCsrf : Option Bool} {as : List Action} {r : Session} {site : Site}

/-! ## What a step keeps -/

section Steps

variable {a : Action} {r r' : Session}

theorem markAal2Transition_login {s : Statement} :
    (markAal2Transition s r r').login = r'.login := by
  unfold markAal2Transition
  split <;> rfl

theorem markAal2Transition_revokedAt {s : Statement} :
    (markAal2Transition s r r').revokedAt = r'.revokedAt := by
  unfold markAal2Transition
  split <;> rfl

theorem markAal2Transition_revokeReason {s : Statement} :
    (markAal2Transition s r r').revokeReason = r'.revokeReason := by
  unfold markAal2Transition
  split <;> rfl

theorem markAal2Transition_expiresAt {s : Statement} :
    (markAal2Transition s r r').expiresAt = r'.expiresAt := by
  unfold markAal2Transition
  split <;> rfl

theorem Session.Step.login (h : Session.Step a r r') : r'.login = r.login := by
  cases h with
  | rotated | enrolled | steppedUp | activated => exact markAal2Transition_login
  | _ => rfl

def Session.Explained (r : Session) : Prop := r.revokedAt ≠ none → r.revokeReason ≠ none

theorem Session.Step.explained (h : Session.Step a r r') (hr : r.Explained) : r'.Explained := by
  cases h with
  | same => exact hr
  | seen => exact hr
  | touched => exact hr
  | rotated =>
      intro hrevoked
      rw [Session.rotate, markAal2Transition_revokeReason]
      rw [Session.rotate, markAal2Transition_revokedAt] at hrevoked
      exact hr hrevoked
  | enrolled =>
      intro hrevoked
      rw [Session.enroll, markAal2Transition_revokeReason]
      rw [Session.enroll, markAal2Transition_revokedAt] at hrevoked
      exact hr hrevoked
  | steppedUp =>
      intro hrevoked
      rw [Session.stepUp, markAal2Transition_revokeReason]
      rw [Session.stepUp, markAal2Transition_revokedAt] at hrevoked
      exact hr hrevoked
  | activated =>
      intro hrevoked
      rw [Session.activate, markAal2Transition_revokedAt] at hrevoked
      exact absurd rfl hrevoked
  | revoked =>
      intro _ hnone
      cases hnone

theorem Session.Step.closed (h : Session.Step a r r') (hr : r.Closed) (hwhy : r.Explained) :
    r'.Closed := by
  cases h with
  | same | seen => exact hr
  | touched hactive | rotated hid haal hactive | enrolled hid haal hactive | steppedUp hid hactive
  | revoked hactive => exact absurd hactive hr.1
  | activated hid haal hrevoked hreason =>
      rcases hreason with hnone | hpending
      · exact absurd hnone (hwhy hrevoked)
      · exact absurd hpending hr.2

/-- A session that waits for its second factor has waited for it before, and no step
has touched its level. -/
theorem Session.Step.pending (h : Session.Step a r r') (hp : r'.Pending) :
    r.Pending ∧ r'.aal = r.aal ∧ r'.lastReauthenticatedAt = r.lastReauthenticatedAt := by
  have hrevoked := hp.1
  cases h with
  | same | seen | touched => exact ⟨hp, rfl, rfl⟩
  | rotated hid haal hactive =>
      rw [Session.rotate, markAal2Transition_revokedAt] at hrevoked
      exact absurd hactive hrevoked
  | enrolled hid haal hactive =>
      rw [Session.enroll, markAal2Transition_revokedAt] at hrevoked
      exact absurd hactive hrevoked
  | steppedUp hid hactive =>
      rw [Session.stepUp, markAal2Transition_revokedAt] at hrevoked
      exact absurd hactive hrevoked
  | activated =>
      rw [Session.activate, markAal2Transition_revokedAt] at hrevoked
      exact absurd rfl hrevoked
  | revoked hactive hreason => exact absurd (Option.some.inj hp.2) hreason

/-- A session that does not wait for its second factor never waits for it. -/
theorem Session.Step.not_pending (h : Session.Step a r r') (hr : ¬ r.Pending) : ¬ r'.Pending :=
  fun hp => hr (h.pending hp).1

/-- What a session that waits for its second factor has not yet reached. -/
def Session.Unproved (r : Session) : Prop :=
  r.Pending → r.aal = .aal1 ∧ r.lastReauthenticatedAt = none

theorem Session.Step.unproved (h : Session.Step a r r') (hr : r.Unproved) : r'.Unproved := by
  intro hp
  obtain ⟨hp₀, haal, hreauthenticated⟩ := h.pending hp
  rw [haal, hreauthenticated]
  exact hr hp₀

theorem Session.login_eq (h : r'.login = r.login) : r'.subjectId = r.subjectId ∧
    r'.permissionRevision = r.permissionRevision ∧ r'.revokeEpoch = r.revokeEpoch :=
  ⟨congrArg (·.subjectId) h, congrArg (·.permissionRevision) h, congrArg (·.revokeEpoch) h⟩

theorem Issued.unproved (h : Issued site a r) : r.Unproved := by
  cases h with
  | issue hsubject hrevision hepoch hexpires hreauthenticated hstate =>
      intro hp
      rcases hstate with hactive | ⟨-, haal⟩
      · exact absurd hactive hp.1
      · exact ⟨haal, hreauthenticated⟩

theorem Issued.explained (h : Issued site a r) : r.Explained := by
  cases h with
  | issue hsubject hrevision hepoch hexpires hreauthenticated hstate =>
      intro hrevoked
      rcases hstate with hactive | ⟨hpending, -⟩
      · exact absurd hactive hrevoked
      · rw [hpending.2]
        exact Option.some_ne_none _

end Steps

/-! ## Runs -/

section Runs

variable {C : Crypto} {users : List Uuid} {environment : Option ModuleInstallationEnvironment}
  {policy : Policy}

theorem reach_append (as bs : List Action) :
    reach C users environment policy (as ++ bs) =
      run (perform C) bs (reach C users environment policy as) :=
  run_append ..

theorem reach_snoc (as : List Action) (a : Action) :
    reach C users environment policy (as ++ [a]) =
      perform C a (reach C users environment policy as) :=
  run_append ..

/-- A session is found after an action as the step of the action left it. -/
theorem perform_session (a : Action) (hr : site.session id = some r) :
    ∃ r', (perform C a site).session id = some r' ∧ Session.Step a r r' := by
  rcases (perform_step C a site).sessions id with hrel | ⟨hnone, -⟩
  · rw [hr] at hrel
    generalize hr' : (perform C a site).session id = x at hrel
    cases hrel with
    | some h => exact ⟨_, rfl, h⟩
  · rw [hr] at hnone
    cases hnone

/-- What the steps of conforming actions keep of a session is kept along a run. -/
theorem run_session {P : Action → Prop} {I : Session → Prop}
    (hstep : ∀ {a r r'}, P a → Session.Step a r r' → I r → I r') (as : List Action)
    (has : ∀ a ∈ as, P a) (hr : site.session id = some r)
    (hI : I r) : ∃ r', (run (perform C) as site).session id = some r' ∧ I r' := by
  induction as generalizing site r with
  | nil => exact ⟨r, hr, hI⟩
  | cons a as ih =>
      obtain ⟨r', hr', h⟩ := perform_session (C := C) a hr
      exact ih (fun b hb => has b (List.mem_cons_of_mem a hb)) hr'
        (hstep (has a (List.mem_cons_self ..)) h hI)

/-- What conforming issues give and conforming steps keep holds of every session. -/
theorem reach_session {P : Action → Prop} {I : Session → Prop}
    (hissue : ∀ {site a r}, P a → Issued site a r → I r)
    (hstep : ∀ {a r r'}, P a → Session.Step a r r' → I r → I r')
    (has : ∀ a ∈ as, P a)
    (hr : (reach C users environment policy as).session id = some r) : I r := by
  have hall : ∀ id r, (reach C users environment policy as).session id = some r → I r := by
    refine System.Along.invariant (I := fun site => ∀ id r, Site.session site id = some r → I r) ?_
      (System.Along.of_forall has _) ?_
    · intro a site hI ha id r hr
      rcases (perform_step C a site).sessions id with hrel | ⟨-, r', hr', hissued⟩
      · rw [hr] at hrel
        generalize hold : site.session id = x at hrel
        cases hrel with
        | some h => exact hstep ha h (hI id _ hold)
      · rw [hr] at hr'
        cases hr'
        exact hissue ha hissued
    · intro id r hr
      cases hr
  exact hall id r hr

theorem reach_explained
    (hr : (reach C users environment policy as).session id = some r) : r.Explained :=
  reach_session (P := fun _ => True) (fun _ => Issued.explained) (fun _ => Session.Step.explained)
    (fun _ _ => True.intro) hr

theorem reach_unproved (hr : (reach C users environment policy as).session id = some r) : r.Unproved :=
  reach_session (P := fun _ => True) (fun _ => Issued.unproved) (fun _ => Session.Step.unproved)
    (fun _ _ => True.intro) hr

/-- A subject is found again later, with revisions that have not gone back. -/
theorem run_authority (as : List Action) (hx : site.authority u = some x) :
    ∃ x', (run (perform C) as site).authority u = some x' ∧ SubjectLater x x' := by
  induction as generalizing site x with
  | nil => exact ⟨x, hx, .refl x⟩
  | cons a as ih =>
      rcases (perform_step C a site).subjects u with hrel | ⟨hnone, -⟩
      · rw [hx] at hrel
        generalize hx' : (perform C a site).authority u = y at hrel
        cases hrel with
        | some h =>
            obtain ⟨z, hz, hlater⟩ := ih hx'
            exact ⟨z, hz, h.trans hlater⟩
      · rw [hx] at hnone
        cases hnone

/-- A CLI session is found again later, with the revisions it was issued with. -/
theorem run_cliSession (as : List Action) {r : CliSession} (hr : site.cliSession id = some r) :
    ∃ r', (run (perform C) as site).cliSession id = some r' ∧ CliLater r r' := by
  induction as generalizing site r with
  | nil => exact ⟨r, hr, .refl r⟩
  | cons a as ih =>
      rcases (perform_step C a site).cliSessions id with hrel | ⟨hnone, -⟩
      · rw [hr] at hrel
        generalize hr' : (perform C a site).cliSession id = y at hrel
        cases hrel with
        | some h =>
            obtain ⟨z, hz, hlater⟩ := ih hr'
            exact ⟨z, hz, hlater.subjectId.trans h.subjectId, hlater.revision.trans h.revision,
              hlater.epoch.trans h.epoch⟩
      · rw [hr] at hnone
        cases hnone

/-! ## Credentials and their subjects -/

/-- The revisions a credential was issued with are not ahead of its subject's. -/
def Site.Covers (site : Site) (u : Uuid) (revision epoch : Int) : Prop :=
  ∃ x, site.authority u = some x ∧ revision ≤ x.permissionRevision ∧ epoch ≤ x.revokeEpoch

theorem Site.Step.covers {a : Action} {site' : Site} (h : site.Step a site')
    (hc : site.Covers u revision epoch) : site'.Covers u revision epoch := by
  obtain ⟨x, hx, hrevision, hepoch⟩ := hc
  rcases h.subjects u with hrel | ⟨hnone, -⟩
  · rw [hx] at hrel
    generalize hx' : site'.authority u = y at hrel
    cases hrel with
    | some hlater =>
        exact ⟨_, hx', Int.le_trans hrevision hlater.revision, Int.le_trans hepoch hlater.epoch⟩
  · rw [hx] at hnone
    cases hnone

/-- The subject has moved on from the revisions a credential was issued with. -/
def Site.Past (site : Site) (u : Uuid) (revision epoch : Int) : Prop :=
  ∃ x, site.authority u = some x ∧ (revision < x.permissionRevision ∨ epoch < x.revokeEpoch)

theorem run_past (as : List Action)
    (h : site.Past u revision epoch) : (run (perform C) as site).Past u revision epoch := by
  obtain ⟨x, hx, hbehind⟩ := h
  obtain ⟨x', hx', hlater⟩ := run_authority (C := C) as hx
  refine ⟨x', hx', ?_⟩
  rcases hbehind with hrevision | hepoch
  · exact .inl (Int.lt_of_lt_of_le hrevision hlater.revision)
  · exact .inr (Int.lt_of_lt_of_le hepoch hlater.epoch)

/-- A covered credential is issued under the current authority, or its subject has
moved on. -/
theorem Site.Covers.fresh_or_past (h : site.Covers u revision epoch) :
    (∃ x, site.authority u = some x ∧ x.permissionRevision = revision ∧ x.revokeEpoch = epoch) ∨
      site.Past u revision epoch := by
  obtain ⟨x, hx, hrevision, hepoch⟩ := h
  by_cases hsame : x.permissionRevision = revision ∧ x.revokeEpoch = epoch
  · exact .inl ⟨x, hx, hsame⟩
  · refine .inr ⟨x, hx, ?_⟩
    omega

structure Site.Covered (site : Site) : Prop where
  sessions : ∀ id r, site.session id = some r →
    site.Covers r.subjectId r.permissionRevision r.revokeEpoch
  cliSessions : ∀ id r, site.cliSession id = some r →
    site.Covers r.subjectId r.permissionRevision r.revokeEpoch

theorem Site.Step.covered {a : Action} {site' : Site} (h : site.Step a site')
    (hc : site.Covered) : site'.Covered where
  sessions id r hr := by
    rcases h.sessions id with hrel | ⟨-, r', hr', hissued⟩
    · rw [hr] at hrel
      generalize hold : site.session id = y at hrel
      cases hrel with
      | some hstep =>
          obtain ⟨hsubject, hrevision, hepoch⟩ := Session.login_eq hstep.login
          rw [hsubject, hrevision, hepoch]
          exact h.covers (hc.sessions id _ hold)
    · rw [hr] at hr'
      cases hr'
      cases hissued with
      | issue hsubject hrevision hepoch =>
          exact h.covers ⟨_, hsubject, Int.le_of_eq hrevision, Int.le_of_eq hepoch⟩
  cliSessions id r hr := by
    rcases h.cliSessions id with hrel | ⟨-, r', x, hr', hx, hrevision, hepoch⟩
    · rw [hr] at hrel
      generalize hold : site.cliSession id = y at hrel
      cases hrel with
      | some hlater =>
          rw [hlater.subjectId, hlater.revision, hlater.epoch]
          exact h.covers (hc.cliSessions id _ hold)
    · rw [hr] at hr'
      cases hr'
      exact h.covers ⟨x, hx, Int.le_of_eq hrevision, Int.le_of_eq hepoch⟩

theorem reach_covered (as : List Action) : (reach C users environment policy as).Covered := by
  refine run_invariant (I := Site.Covered) (fun a site hc => (perform_step C a site).covered hc)
    ⟨?_, ?_⟩ as
  · intro id r hr
    cases hr
  · intro id r hr
    cases hr

end Runs

/-! ## Resolvers -/

section Resolvers

variable {s : Statement} {site : Site}

structure Found (s : Statement) (site : Site) (r : Session) : Prop where
  stored : site.session r.sessionId = some r
  live : s.now < r.expiresAt
  fresh : r.Fresh site
  open_ : r.revokedAt = none ∨
    r.revokedAt ≠ none ∧ (r.revokeReason = none ∨ r.revokeReason = some pendingMfa)

theorem found_of_active (hr : site.sessionOfToken token = some r) (hactive : r.revokedAt = none)
    (hlive : s.now < r.expiresAt) (hx : site.freshAuthority r (some r.subjectId) = .ok x) :
    Found s site r :=
  ⟨mem_session.mp (sessionOfToken_eq_some hr), hlive, ⟨x, freshAuthority_eq_ok hx⟩, .inl hactive⟩

theorem resolve_eq_ok {v : Resolved}
    (h : resolveBrowserSession s token csrf requireCsrf site = .ok v) : Found s site v.session := by
  simp only [resolveBrowserSession, bind_eq_ok, orRaise_eq_ok, raiseIf_eq_ok, pure_eq_ok] at h
  obtain ⟨r, hr, _, hguard, _, -, x, hx, rfl⟩ := h
  have hnot := any_ne_true hguard
  exact found_of_active hr (isNotNull_passed (hnot _ (List.mem_cons_self ..)))
    (le_passed (hnot (le (some r.expiresAt) (some s.now)) (by simp))) hx

theorem pendingMfa_eq_ok
    (h : getPendingBrowserSessionMfa s token csrf site = .ok r) : Found s site r := by
  simp only [getPendingBrowserSessionMfa, bind_eq_ok, orRaise_eq_ok, raiseIf_eq_ok, pure_eq_ok] at h
  obtain ⟨r', hr, _, hguard, x, hx, rfl⟩ := h
  have hnot := any_ne_true hguard
  refine ⟨mem_session.mp (sessionOfToken_eq_some hr),
    le_passed (hnot (le (some r'.expiresAt) (some s.now)) (by simp)),
    ⟨x, freshAuthority_eq_ok hx⟩, .inr ⟨isNull_passed (hnot _ (List.mem_cons_self ..)), ?_⟩⟩
  cases hreason : r'.revokeReason with
  | none => exact .inl rfl
  | some reason =>
      exact .inr (congrArg some
        (ne_passed (hnot (ne r'.revokeReason (some pendingMfa)) (by simp)) hreason rfl))

theorem refresh_eq_ok
    (h : getRefreshCredentials s token csrf requireCsrf site = .ok r) : Found s site r := by
  simp only [getRefreshCredentials, bind_eq_ok, orRaise_eq_ok, raiseIf_eq_ok, pure_eq_ok] at h
  obtain ⟨r', hr, _, hguard, _, -, _, -, x, hx, rfl⟩ := h
  have hnot := any_ne_true hguard
  exact found_of_active hr (isNotNull_passed (hnot _ (List.mem_cons_self ..)))
    (le_passed (hnot (le (some r'.expiresAt) (some s.now)) (by simp))) hx

theorem ceremony_eq_ok {invalid required : SqlError} {more : Session → List Cond}
    (h : getCeremonyCredentials s token csrf invalid required more site = .ok r) :
    Found s site r := by
  simp only [getCeremonyCredentials, bind_eq_ok, orRaise_eq_ok, raiseIf_eq_ok, pure_eq_ok] at h
  obtain ⟨_, -, r', hr, _, hguard, x, hx, rfl⟩ := h
  have hnot := any_ne_true hguard
  obtain ⟨hactive, hlive, -⟩ :=
    ended_passed fun c (hc : c ∈ r'.ended s) => hnot c (by simp [hc])
  exact found_of_active hr hactive hlive hx

theorem preference_eq_ok (h : getPreferenceCredentials s token site = .ok r) : Found s site r := by
  simp only [getPreferenceCredentials, bind_eq_ok, orRaise_eq_ok, raiseIf_eq_ok, pure_eq_ok] at h
  obtain ⟨_, -, r', hr, _, hguard, x, hx, rfl⟩ := h
  have hnot := any_ne_true hguard
  obtain ⟨hactive, hlive, -⟩ :=
    ended_passed fun c (hc : c ∈ r'.ended s) => hnot c (by simp [hc])
  exact found_of_active hr hactive hlive hx

theorem ownerCredential_eq_ok
    (h : prepareOwnerAccessCredential s token csrf requireCsrf site = .ok r) : Found s site r := by
  simp only [prepareOwnerAccessCredential, bind_eq_ok, orRaise_eq_ok, raiseIf_eq_ok,
    pure_eq_ok] at h
  obtain ⟨r', hr, _, hguard, _, -, x, hx, rfl⟩ := h
  have hnot := any_ne_true hguard
  obtain ⟨hactive, hlive, -⟩ :=
    ended_passed fun c (hc : c ∈ r'.ended s) => hnot c (by simp [hc])
  exact found_of_active hr hactive hlive hx

/-- What a fold keeps, when every step keeps its candidate or takes the item, is the
start or one of the items. -/
theorem mem_of_foldl {α : Type} {f : Option α → α → Option α}
    (hf : ∀ best x, f best x = best ∨ f best x = some x) {r : α} (l : List α) :
    ∀ best, l.foldl f best = some r → best = some r ∨ r ∈ l := by
  induction l with
  | nil => exact fun best hbest => .inl hbest
  | cons x l ih =>
      intro best hbest
      rcases ih _ hbest with hx | hl
      · rcases hf best x with hkept | htaken
        · exact .inl (hkept.symm.trans hx)
        · obtain rfl : x = r := Option.some.inj (htaken.symm.trans hx)
          exact .inr (List.mem_cons_self ..)
      · exact .inr (List.mem_cons_of_mem _ hl)

theorem mem_of_newest {rows : List Session} (h : newest rows = some r) :
    r ∈ rows := by
  refine (mem_of_foldl (fun best x => ?_) rows none h).resolve_left (fun hnone => by cases hnone)
  cases best with
  | none => exact .inr rfl
  | some b => exact (ite_eq_or_eq _ _ _).symm

theorem ownerAuthority_eq_ok {subjectId : Option Uuid} {authSessionRef : Option String}
    (h : resolveOwnerAccessAuthority s subjectId authSessionRef site = .ok r) : Found s site r := by
  simp only [resolveOwnerAccessAuthority, bind_eq_ok, orRaise_eq_ok, raiseIf_eq_ok,
    pure_eq_ok] at h
  obtain ⟨_, -, r', hr, x, hx, rfl⟩ := h
  obtain ⟨hmem, hselected⟩ := List.mem_filter.mp (mem_of_newest hr)
  have hall := (Cond.all_eq_true _).mp (beq_iff_eq.mp hselected)
  have hsubject := hall (eq (some r'.subjectId) subjectId) (by simp)
  have hactive := hall (isNull r'.revokedAt) (by simp)
  have hlive := hall (lt (some s.now) (some r'.expiresAt)) (by simp)
  obtain ⟨u, hu, hsame⟩ := (eq_eq_true _ _).mp hsubject
  rw [hsame, ← hu] at hx
  refine ⟨mem_session.mp hmem, by simpa using hlive, ⟨x, freshAuthority_eq_ok hx⟩,
    .inl (by simpa using hactive)⟩

/-- Every resolver finds a live session, issued under the current authority. -/
theorem Resolver.exec_eq_ok {q : Resolver} (h : q.exec s site = .ok r) :
    Found s site r := by
  cases q with
  | browserSession token csrf requireCsrf =>
      simp only [Resolver.exec] at h
      cases hv : resolveBrowserSession s token csrf requireCsrf site with
      | error e => rw [hv] at h; cases h
      | ok v =>
          rw [hv] at h
          cases h
          exact resolve_eq_ok hv
  | pendingMfa => exact pendingMfa_eq_ok h
  | refreshCredentials => exact refresh_eq_ok h
  | totpEnrollmentCredentials => exact ceremony_eq_ok h
  | stepUpCredentials => exact ceremony_eq_ok h
  | preferenceCredentials => exact preference_eq_ok h
  | ownerAccessCredential => exact ownerCredential_eq_ok h
  | ownerAccessAuthority => exact ownerAuthority_eq_ok h

/-- A resolved session is stored, live, fresh and open. -/
theorem Site.Resolves.found (h : site.Resolves s id)
    (hr : site.session id = some r) : Found s site r := by
  obtain ⟨q, r', hq, rfl⟩ := h
  have hfound := Resolver.exec_eq_ok hq
  rw [hfound.stored] at hr
  cases hr
  exact hfound

/-- A CLI session that is found is stored and issued under the current authority. -/
theorem Site.ResolvesCli.active (h : site.ResolvesCli s id) :
    ∃ token v, site.activeCliSession s token = .ok v ∧ v.1.sessionId = id := by
  rcases h with ⟨token, site', v, hv, hid⟩ | ⟨token, v, hv, hid⟩
  · obtain ⟨w, hw, hsession, -⟩ := resolveCli_eq_ok hv
    exact ⟨token, w, hw, by rw [← hsession]; exact hid⟩
  · simp only [listOwnedCliDevicesWithCliSession, bind_eq_ok, pure_eq_ok] at hv
    obtain ⟨_, -, w, hw, rfl⟩ := hv
    exact ⟨token, w, hw, hid⟩

theorem Site.ResolvesCli.found (h : site.ResolvesCli s id) :
    ∃ r x, site.cliSession id = some r ∧ site.authority r.subjectId = some x ∧
      x.permissionRevision = r.permissionRevision ∧ x.revokeEpoch = r.revokeEpoch := by
  obtain ⟨token, v, hv, rfl⟩ := h.active
  obtain ⟨hmem, hx, hrevision, hepoch⟩ := activeCliSession_eq_ok hv
  exact ⟨v.1, v.2.2, Table.lookup_eq_some.mpr ⟨hmem, rfl⟩, hx, hrevision, hepoch⟩

/-! ## Credentials left behind -/

variable {C : Crypto}

theorem Site.Past.not_current (h : site.Past u revision epoch)
    (hx : site.authority u = some x)
    (hsame : x.permissionRevision = revision ∧ x.revokeEpoch = epoch) : False := by
  obtain ⟨x', hx', hbehind⟩ := h
  rw [hx] at hx'
  cases hx'
  omega

section

variable (hr : site.session id = some r)
  (hpast : site.Past r.subjectId r.permissionRevision r.revokeEpoch) (as : List Action)

include hr hpast

/-- A session whose subject has moved on is found later, still left behind. -/
theorem run_session_past : ∃ r', (run (perform C) as site).session id = some r' ∧
      (run (perform C) as site).Past r'.subjectId r'.permissionRevision r'.revokeEpoch := by
  obtain ⟨r', hr', hlogin⟩ := run_session (C := C) (P := fun _ => True)
    (I := fun x => x.login = r.login) (fun _ hstep hI => hstep.login.trans hI) as
    (fun _ _ => True.intro) hr rfl
  obtain ⟨hsubject, hrevision, hepoch⟩ := Session.login_eq hlogin
  refine ⟨r', hr', ?_⟩
  rw [hsubject, hrevision, hepoch]
  exact run_past as hpast

/-- A session whose subject has moved on is never found again. -/
theorem past_unresolvable : ¬ (run (perform C) as site).Resolves s id := by
  intro hresolves
  obtain ⟨r', hr', hpast'⟩ := run_session_past (C := C) hr hpast as
  obtain ⟨x, hx, hsame⟩ := (hresolves.found hr').fresh
  exact hpast'.not_current hx hsame

theorem past_not_activated {p : PromotionArgs} (hid : p.sessionId = some id) {v : Site × Session} :
    activateBrowserSessionMfa C s p (run (perform C) as site) ≠ .ok v := by
  intro hv
  obtain ⟨r', hr', hpast'⟩ := run_session_past (C := C) hr hpast as
  obtain ⟨r'', hreplaced, -, hid', -, -, -, -, x, hx, hsame⟩ := activate_eq_ok hv
  have hfound := mem_session.mp hreplaced.stored
  rw [hid] at hid'
  rw [← Option.some.inj hid', hr'] at hfound
  cases hfound
  exact hpast'.not_current hx hsame

end

/-- A CLI session whose subject has moved on is never found again. -/
theorem past_cli_unresolvable {r : CliSession} (hr : site.cliSession id = some r)
    (hpast : site.Past r.subjectId r.permissionRevision r.revokeEpoch) (as : List Action) :
    ¬ (run (perform C) as site).ResolvesCli s id := by
  intro hresolves
  obtain ⟨r', hr', hlater⟩ := run_cliSession (C := C) as hr
  obtain ⟨r'', x, hr'', hx, hsame⟩ := hresolves.found
  rw [hr'] at hr''
  cases hr''
  have hpast' := run_past (C := C) as hpast
  rw [← hlater.subjectId, ← hlater.revision, ← hlater.epoch] at hpast'
  exact hpast'.not_current hx hsame

end Resolvers

end ConsoleIdentity
