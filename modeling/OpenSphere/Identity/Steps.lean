import OpenSphere.Identity.System
import Mathlib.Data.Option.Basic

/-!
# What an action does to a session

`Session.Step` says once for all what can happen to the row of a browser
session, and by which action.  `Site.Step` puts the rows together: every
session takes a step, a session comes in by an issue only, the revisions of a
subject never go back, and a CLI session keeps the revisions it was issued with.
`exec_step` shows it of every action, so that the proofs about runs never unfold
a function.
-/

open Sql
open Authority (Aal SubjectAuthority Digest Statement EventArgs)

namespace ConsoleIdentity

variable {reason : String} {x : SubjectAuthority} {correlationId : Option String} {seen : Bool}
  {n : Nat} {csrf token : Option Bytes} {D : Digest} {e : EventArgs} {α : Type} {r r' v : Session}
  {p : PromotionArgs}

/-! ## Rows -/

def Site.session (site : Site) (id : Uuid) : Option Session := site.sessions.lookup (some id)

def Site.authority (site : Site) (u : Uuid) : Option SubjectAuthority :=
  site.subjects.lookup (some u)

def Site.cliSession (site : Site) (id : Uuid) : Option CliSession :=
  site.cliSessions.lookup (some id)

/-- The columns a login fixes, with the others blanked. -/
def Session.login (r : Session) : Session :=
  { r with
    aal := .aal1
    lastSeenAt := r.createdAt
    expiresAt := r.createdAt
    revokedAt := none
    lastReauthenticatedAt := none
    revokeReason := none
    authSessionRef := none
    accessTokenCiphertext := none
    refreshTokenCiphertext := none
    accessTokenExpiresAt := none }

/-- The session is revoked, and not to wait for its second factor. -/
def Session.Closed (r : Session) : Prop :=
  r.revokedAt ≠ none ∧ r.revokeReason ≠ some pendingMfa

def Session.Pending (r : Session) : Prop :=
  r.revokedAt ≠ none ∧ r.revokeReason = some pendingMfa

def Session.seenAt (r : Session) (t : Timestamp) : Session := { r with lastSeenAt := t }

def Session.touch (s : Statement) (r : Session) : Session :=
  { r with lastSeenAt := s.now, expiresAt := idleExpiry s r }

def Session.rotate (s : Statement) (c : Credentials) (aal : Aal) (r : Session) : Session :=
  markAal2Transition s r { r.withCredentials c with aal }

def Session.enroll (s : Statement) (c : Credentials) (r : Session) : Session :=
  markAal2Transition s r { r.withCredentials c with
    aal := .aal2
    lastSeenAt := s.now
    expiresAt := idleExpiry s r }

def Session.stepUp (s : Statement) (c : Credentials) (r : Session) : Session :=
  markAal2Transition s r { r.withCredentials c with
    aal := .aal2
    lastReauthenticatedAt := some s.now }

def Session.activate (s : Statement) (c : Credentials) (r : Session) : Session :=
  markAal2Transition s r { r.withCredentials c with
    aal := .aal2
    expiresAt := idleExpiry s r
    revokedAt := none
    revokeReason := none
    lastSeenAt := s.now }

inductive Session.Step : Action → Session → Session → Prop where
  | same {a : Action} {r : Session} : Session.Step a r r
  | seen {s : Statement} {c : Authority.Call} {r : Session} (t : Timestamp) :
      Session.Step (.call s (.operation c)) r (r.seenAt t)
  | touched {s : Statement} {token csrf : Option Bytes} {r : Session}
      (hactive : r.revokedAt = none) (hlive : s.now < r.expiresAt) :
      Session.Step (.call s (.touchBrowserSessionActivity token csrf)) r (r.touch s)
  | rotated {s : Statement} {p : RotationArgs} {r : Session} {aal : Aal}
      (hid : p.sessionId = some r.sessionId) (haal : p.aal.bind aalOfText = some aal)
      (hactive : r.revokedAt = none) (hlive : s.now < r.expiresAt) :
      Session.Step (.call s (.rotateBrowserSessionCredentials p)) r
        (r.rotate s p.credentials aal)
  | enrolled {s : Statement} {p : PromotionArgs} {r : Session}
      (hid : p.sessionId = some r.sessionId) (haal : r.aal = .aal1)
      (hactive : r.revokedAt = none) (hlive : s.now < r.expiresAt) :
      Session.Step (.call s (.completeTotpEnrollment p)) r (r.enroll s p.credentials)
  | steppedUp {s : Statement} {p : PromotionArgs} {r : Session}
      (hid : p.sessionId = some r.sessionId)
      (hactive : r.revokedAt = none) (hlive : s.now < r.expiresAt) :
      Session.Step (.call s (.completeStepUp p)) r (r.stepUp s p.credentials)
  | activated {s : Statement} {p : PromotionArgs} {r : Session}
      (hid : p.sessionId = some r.sessionId) (haal : r.aal = .aal1)
      (hrevoked : r.revokedAt ≠ none)
      (hreason : r.revokeReason = none ∨ r.revokeReason = some pendingMfa)
      (hlive : s.now < r.expiresAt) :
      Session.Step (.call s (.activateBrowserSessionMfa p)) r (r.activate s p.credentials)
  | revoked {a : Action} {s : Statement} {reason : String} {seen : Bool} {r : Session}
      (hactive : r.revokedAt = none) (hreason : reason ≠ pendingMfa) :
      Session.Step a r (r.revoke s reason seen)

inductive Issued (site : Site) : Action → Session → Prop where
  | issue {s : Statement} {p : IssueArgs} {r : Session} {x : SubjectAuthority}
      (hsubject : site.authority r.subjectId = some x)
      (hrevision : r.permissionRevision = x.permissionRevision)
      (hepoch : r.revokeEpoch = x.revokeEpoch)
      (hexpires : r.expiresAt ≤ s.now + hours 12)
      (hreauthenticated : r.lastReauthenticatedAt = none)
      (hstate : r.revokedAt = none ∨ r.Pending ∧ r.aal = .aal1) :
      Issued site (.call s (.issueBrowserSession p)) r

/-- The revisions of a subject never go back. -/
structure SubjectLater (x x' : SubjectAuthority) : Prop where
  revision : x.permissionRevision ≤ x'.permissionRevision
  epoch : x.revokeEpoch ≤ x'.revokeEpoch

theorem SubjectLater.refl (x : SubjectAuthority) : SubjectLater x x := ⟨Int.le_refl _, Int.le_refl _⟩

theorem SubjectLater.trans {y z : SubjectAuthority} (h : SubjectLater x y)
    (h' : SubjectLater y z) : SubjectLater x z :=
  ⟨Int.le_trans h.revision h'.revision, Int.le_trans h.epoch h'.epoch⟩

structure CliLater (r r' : CliSession) : Prop where
  subjectId : r'.subjectId = r.subjectId
  revision : r'.permissionRevision = r.permissionRevision
  epoch : r'.revokeEpoch = r.revokeEpoch

theorem CliLater.refl (r : CliSession) : CliLater r r := ⟨rfl, rfl, rfl⟩

/-- What an action does to the sessions, the subjects and the CLI sessions. -/
structure Site.Step (a : Action) (site site' : Site) : Prop where
  sessions : ∀ id, Option.Rel (Session.Step a) (site.session id) (site'.session id) ∨
    site.session id = none ∧ ∃ r, site'.session id = some r ∧ Issued site a r
  subjects : ∀ u, Option.Rel SubjectLater (site.authority u) (site'.authority u) ∨
    site.authority u = none ∧ ∃ x, site'.authority u = some x
  cliSessions : ∀ id, Option.Rel CliLater (site.cliSession id) (site'.cliSession id) ∨
    site.cliSession id = none ∧ ∃ r x, site'.cliSession id = some r ∧
      site.authority r.subjectId = some x ∧ r.permissionRevision = x.permissionRevision ∧
      r.revokeEpoch = x.revokeEpoch

/-! ## Tables -/

/-- A relation that holds of a row and itself holds of an option of it. -/
theorem optionRel_refl {R : α → α → Prop} (h : ∀ x, R x x) (x : Option α) :
    Option.Rel R x x := by
  cases x with
  | none => exact .none
  | some x => exact .some (h x)

theorem lookup_put_rel {ρ κ : Type} [DecidableEq κ] {S : Schema ρ κ} {t t' : Table S} {r r' : ρ}
    {R : ρ → ρ → Prop} (hput : t.put r' = .ok t') (hr : r ∈ t.rows)
    (hkey : S.key r' = S.key r) (hrefl : ∀ x, R x x) (hstep : R r r') (k : κ) :
    Option.Rel R (t.lookup (some k)) (t'.lookup (some k)) := by
  rw [Table.lookup_put hput k]
  split
  next hk =>
    have hfound : t.lookup (some k) = some r :=
      Table.lookup_eq_some.mpr ⟨hr, by rw [hk, hkey]⟩
    rw [hfound]
    exact .some hstep
  next => exact optionRel_refl hrefl _

theorem lookup_updateWhere_rel {ρ κ : Type} [DecidableEq κ] {S : Schema ρ κ} {t t' : Table S}
    {p : ρ → Bool} {f : ρ → ρ} {R : ρ → ρ → Prop} (hup : t.updateWhere p f = .ok t')
    (hkey : ∀ x, S.key (f x) = S.key x) (hrefl : ∀ x, R x x) (hstep : ∀ x, p x = true → R x (f x))
    (k : κ) : Option.Rel R (t.lookup (some k)) (t'.lookup (some k)) := by
  rw [Table.lookup_updateWhere hup hkey k]
  cases t.lookup (some k) with
  | none => exact .none
  | some x =>
      refine .some ?_
      show R x (if p x then f x else x)
      split
      next hp => exact hstep x hp
      next => exact hrefl x

/-! ## Steps of a site -/

section Steps

variable {C : Crypto} {s : Statement} {a : Action} {site site' : Site}

theorem Session.Step.refl (r : Session) : Session.Step a r r := .same

theorem sessions_of_eq (h : site'.sessions = site.sessions) (id : Uuid) :
    Option.Rel (Session.Step a) (site.session id) (site'.session id) := by
  rw [Site.session, Site.session, h]
  exact optionRel_refl Session.Step.refl _

theorem subjects_of_eq (h : site'.subjects = site.subjects) (u : Uuid) :
    Option.Rel SubjectLater (site.authority u) (site'.authority u) := by
  rw [Site.authority, Site.authority, h]
  exact optionRel_refl SubjectLater.refl _

theorem cliSessions_of_eq (h : site'.cliSessions = site.cliSessions) (id : Uuid) :
    Option.Rel CliLater (site.cliSession id) (site'.cliSession id) := by
  rw [Site.cliSession, Site.cliSession, h]
  exact optionRel_refl CliLater.refl _

/-- An action that lets rows take their steps and inserts none. -/
theorem Site.Step.of_rel
    (hsessions : ∀ id, Option.Rel (Session.Step a) (site.session id) (site'.session id))
    (hsubjects : ∀ u, Option.Rel SubjectLater (site.authority u) (site'.authority u))
    (hcli : ∀ id, Option.Rel CliLater (site.cliSession id) (site'.cliSession id)) :
    site.Step a site' :=
  ⟨fun id => .inl (hsessions id), fun u => .inl (hsubjects u), fun id => .inl (hcli id)⟩

/-- An action that touches none of the three tables. -/
theorem Site.Step.of_eq (hsessions : site'.sessions = site.sessions)
    (hsubjects : site'.subjects = site.subjects) (hcli : site'.cliSessions = site.cliSessions) :
    site.Step a site' :=
  .of_rel (sessions_of_eq hsessions) (subjects_of_eq hsubjects) (cliSessions_of_eq hcli)

/-- An appended event leaves the other tables alone. -/
theorem append_eq_ok (h : site.append D s e = .ok site') :
    ∃ t, site' = { site with events := t } := by
  simp only [Site.append, bind_eq_ok, pure_eq_ok] at h
  obtain ⟨db, -, rfl⟩ := h
  exact ⟨_, rfl⟩

theorem append_target (h : site.append D s e = .ok site') :
    e.targetRef ≠ none := by
  simp only [Site.append, Authority.appendEvent, Authority.newEvent, bind_eq_ok, notNull_eq_ok] at h
  obtain ⟨_, ⟨_, ⟨_, -, _, -, targetRef, htarget, -⟩, -⟩, -⟩ := h
  rw [htarget]
  exact Option.some_ne_none _

theorem lookup_session {id : Option Uuid} (h : site.sessions.lookup id = some r) :
    r ∈ site.sessions.rows ∧ id = some r.sessionId :=
  Table.lookup_eq_some.mp h

theorem sessionOfToken_eq_some
    (h : site.sessionOfToken token = some r) : r ∈ site.sessions.rows := by
  obtain ⟨d, -, hfind⟩ := Option.bind_eq_some_iff.mp h
  exact List.mem_of_find?_eq_some hfind

theorem mem_session : r ∈ site.sessions.rows ↔ site.session r.sessionId = some r := by
  constructor
  · exact fun h => Table.lookup_eq_some.mpr ⟨h, rfl⟩
  · exact fun h => (Table.lookup_eq_some.mp h).1

/-- A fresh authority is the subject's, and the session was issued under it. -/
theorem freshAuthority_eq_ok {u : Option Uuid}
    (h : site.freshAuthority r u = .ok x) :
    site.subjects.lookup u = some x ∧ x.permissionRevision = r.permissionRevision ∧
      x.revokeEpoch = r.revokeEpoch := by
  simp only [Site.freshAuthority, bind_eq_ok, orRaise_eq_ok, raiseIf_eq_ok, pure_eq_ok] at h
  obtain ⟨x', hx, _, hguard, rfl⟩ := h
  have hnot := any_ne_true hguard
  exact ⟨hx, ne_passed (hnot _ (List.mem_cons_self ..)) rfl rfl,
    ne_passed (hnot (ne (some x'.revokeEpoch) (some r.revokeEpoch)) (by simp)) rfl rfl⟩

/-- `x <= y` did not reject. -/
theorem le_passed {x y : Int} (h : le (some x) (some y) ≠ some true) : y < x := by
  simpa using h

theorem ended_passed (h : ∀ c ∈ r.ended s, c ≠ some true) :
    r.revokedAt = none ∧ s.now < r.expiresAt ∧ s.now < r.absoluteExpiresAt :=
  ⟨isNotNull_passed (h _ (List.mem_cons_self ..)),
    le_passed (h (le (some r.expiresAt) (some s.now)) (by simp [Session.ended])),
    le_passed (h (le (some r.absoluteExpiresAt) (some s.now)) (by simp [Session.ended]))⟩

/-! ## Single sessions -/

/-- A call that has replaced the row of a session and appended to the ledger. -/
structure Replaced (site site' : Site) (r r' : Session) : Prop where
  stored : r ∈ site.sessions.rows
  put : ∃ site₁ t, site.putSession r' = .ok site₁ ∧ site' = { site₁ with events := t }

theorem Replaced.step (h : Replaced site site' r r')
    (hid : r'.sessionId = r.sessionId) (hstep : Session.Step a r r') : site.Step a site' := by
  obtain ⟨site₁, t, hput, rfl⟩ := h.put
  simp only [Site.putSession, bind_eq_ok, pure_eq_ok] at hput
  obtain ⟨t', hput, rfl⟩ := hput
  exact .of_rel (lookup_put_rel hput h.stored hid Session.Step.refl hstep)
    (subjects_of_eq rfl) (cliSessions_of_eq rfl)

theorem Replaced.session (h : Replaced site site' r r')
    (hid : r'.sessionId = r.sessionId) : site'.session r.sessionId = some r' := by
  obtain ⟨site₁, t, hput, rfl⟩ := h.put
  simp only [Site.putSession, bind_eq_ok, pure_eq_ok] at hput
  obtain ⟨t', hput, rfl⟩ := hput
  have hfound : site.sessions.lookup (some r.sessionId) = some r := mem_session.mp h.stored
  have hkey : r.sessionId = sessionSchema.key r' := hid.symm
  rw [Site.session, Table.lookup_put hput, if_pos hkey, hfound]
  rfl

def Session.Fresh (site : Site) (r : Session) : Prop :=
  ∃ x, site.authority r.subjectId = some x ∧ x.permissionRevision = r.permissionRevision ∧
    x.revokeEpoch = r.revokeEpoch

theorem subject_passed {u : Option Uuid} (hnull : isNull u ≠ some true)
    (hne : ne (some r.subjectId) u ≠ some true) : u = some r.subjectId := by
  cases u with
  | none => exact absurd rfl hnull
  | some u => rw [ne_passed hne rfl rfl]

theorem markAal2Transition_id :
    (markAal2Transition s r r').sessionId = r'.sessionId := by
  unfold markAal2Transition
  split <;> rfl

theorem activate_eq_ok
    (h : activateBrowserSessionMfa C s p site = .ok (site', v)) :
    ∃ r, Replaced site site' r v ∧ v = r.activate s p.credentials ∧
      p.sessionId = some r.sessionId ∧ r.aal = .aal1 ∧ r.revokedAt ≠ none ∧
      (r.revokeReason = none ∨ r.revokeReason = some pendingMfa) ∧ s.now < r.expiresAt ∧
      r.Fresh site := by
  simp only [activateBrowserSessionMfa, bind_eq_ok, orRaise_eq_ok, raiseIf_eq_ok, pure_eq_ok] at h
  obtain ⟨_, hargs, r, hr, _, hguard, x, hx, site₁, hput, site₂, happend, heq⟩ := h
  cases heq
  obtain ⟨t, ht⟩ := append_eq_ok happend
  obtain ⟨hmem, hid⟩ := lookup_session hr
  have hnot := any_ne_true hguard
  have hsubject := subject_passed
    (any_ne_true hargs (isNull p.subjectId) (by simp [promotionInvalid]))
    (hnot _ (List.mem_cons_self ..))
  have haal : r.aal = .aal1 := by
    have := decided_passed (hnot (some (decide (r.aal ≠ .aal1))) (by simp))
    simpa using this
  have hreason : r.revokeReason = none ∨ r.revokeReason = some pendingMfa := by
    cases hrr : r.revokeReason with
    | none => exact .inl rfl
    | some reason =>
        exact .inr (congrArg some
          (ne_passed (hnot (ne r.revokeReason (some pendingMfa)) (by simp)) hrr rfl))
  obtain ⟨hauthority, hrevision, hepoch⟩ := freshAuthority_eq_ok hx
  rw [hsubject] at hauthority
  exact ⟨r, ⟨hmem, site₁, t, hput, ht⟩, rfl, hid, haal,
    isNull_passed (hnot (isNull r.revokedAt) (by simp)), hreason,
    le_passed (hnot (le (some r.expiresAt) (some s.now)) (by simp)),
    x, hauthority, hrevision, hepoch⟩

theorem enroll_eq_ok
    (h : completeTotpEnrollment C s p site = .ok (site', v)) :
    ∃ r, Replaced site site' r v ∧ v = r.enroll s p.credentials ∧
      p.sessionId = some r.sessionId ∧ r.aal = .aal1 ∧ r.revokedAt = none ∧
      s.now < r.expiresAt := by
  simp only [completeTotpEnrollment, bind_eq_ok, orRaise_eq_ok, raiseIf_eq_ok, pure_eq_ok] at h
  obtain ⟨_, -, r, hr, _, hguard, x, -, site₁, hput, site₂, happend, heq⟩ := h
  cases heq
  obtain ⟨t, ht⟩ := append_eq_ok happend
  obtain ⟨hmem, hid⟩ := lookup_session hr
  have hnot := any_ne_true hguard
  obtain ⟨hactive, hlive, -⟩ := ended_passed fun c (hc : c ∈ r.ended s) => hnot c (by simp [hc])
  have haal : r.aal = .aal1 := by
    have := decided_passed (hnot (some (decide (r.aal ≠ .aal1))) (by simp))
    simpa using this
  exact ⟨r, ⟨hmem, site₁, t, hput, ht⟩, rfl, hid, haal, hactive, hlive⟩

theorem stepUp_eq_ok
    (h : completeStepUp C s p site = .ok (site', v)) :
    ∃ r, Replaced site site' r v ∧ v = r.stepUp s p.credentials ∧
      p.sessionId = some r.sessionId ∧ r.revokedAt = none ∧ s.now < r.expiresAt := by
  simp only [completeStepUp, bind_eq_ok, orRaise_eq_ok, raiseIf_eq_ok, pure_eq_ok] at h
  obtain ⟨_, -, r, hr, _, hguard, x, -, site₁, hput, site₂, happend, heq⟩ := h
  cases heq
  obtain ⟨t, ht⟩ := append_eq_ok happend
  obtain ⟨hmem, hid⟩ := lookup_session hr
  have hnot := any_ne_true hguard
  obtain ⟨hactive, hlive, -⟩ := ended_passed fun c (hc : c ∈ r.ended s) => hnot c (by simp [hc])
  exact ⟨r, ⟨hmem, site₁, t, hput, ht⟩, rfl, hid, hactive, hlive⟩

theorem rotate_eq_ok {p : RotationArgs} {v : RefreshOutcome}
    (h : rotateBrowserSessionCredentials C s p site = .ok (site', v)) :
    site' = site ∨ ∃ r aal, Replaced site site' r (r.rotate s p.credentials aal) ∧
      p.sessionId = some r.sessionId ∧ p.aal.bind aalOfText = some aal ∧ r.revokedAt = none ∧
      s.now < r.expiresAt := by
  simp only [rotateBrowserSessionCredentials, bind_eq_ok, orRaise_eq_ok, raiseIf_eq_ok] at h
  obtain ⟨_, -, r, hr, _, hguard, x, -, h⟩ := h
  split at h
  next => exact .inl (by cases h; rfl)
  next =>
    simp only [bind_eq_ok, notNull_eq_ok, pure_eq_ok] at h
    obtain ⟨aal, haal, site₁, hput, site₂, happend, heq⟩ := h
    cases heq
    obtain ⟨t, ht⟩ := append_eq_ok happend
    obtain ⟨hmem, hid⟩ := lookup_session hr
    have hnot := any_ne_true hguard
    exact .inr ⟨r, aal, ⟨hmem, site₁, t, hput, ht⟩, hid, haal,
      isNotNull_passed (hnot (isNotNull r.revokedAt) (by simp)),
      le_passed (hnot (le (some r.expiresAt) (some s.now)) (by simp))⟩

theorem touch_eq_ok
    (h : touchBrowserSessionActivity s token csrf site = .ok (site', v)) :
    site' = site ∨ ∃ r, Replaced site site' r (r.touch s) ∧ r.revokedAt = none ∧
      s.now < r.expiresAt := by
  simp only [touchBrowserSessionActivity, bind_eq_ok, orRaise_eq_ok, raiseIf_eq_ok] at h
  obtain ⟨_, -, r, hr, _, hguard, x, -, h⟩ := h
  split at h
  next =>
    simp only [bind_eq_ok, pure_eq_ok] at h
    obtain ⟨site₁, hput, heq⟩ := h
    cases heq
    have hnot := any_ne_true hguard
    exact .inr ⟨r, ⟨sessionOfToken_eq_some hr, _, site'.events, hput, rfl⟩,
      isNotNull_passed (hnot (isNotNull r.revokedAt) (by simp)),
      le_passed (hnot (le (some r.expiresAt) (some s.now)) (by simp))⟩
  next => exact .inl (by cases h; rfl)

theorem logout_eq_ok {p : LogoutArgs}
    (h : revokeBrowserSession C s p site = .ok (site', v)) :
    ∃ r, Replaced site site' r (r.revoke s "self-logout" true) ∧ r.revokedAt = none := by
  simp only [revokeBrowserSession, bind_eq_ok, orRaise_eq_ok, raiseIf_eq_ok, pure_eq_ok] at h
  obtain ⟨_, -, r, hr, _, hguard, x, -, site₁, hput, site₂, happend, heq⟩ := h
  cases heq
  obtain ⟨t, ht⟩ := append_eq_ok happend
  have hnot := any_ne_true hguard
  exact ⟨r, ⟨(lookup_session hr).1, site₁, t, hput, ht⟩,
    isNotNull_passed (hnot (isNotNull r.revokedAt) (by simp))⟩

theorem revokeOwned_eq_ok {target : Option Uuid}
    (h : revokeOwnedBrowserSession C s token csrf target correlationId site = .ok (site', v)) :
    ∃ r, Replaced site site' r (r.revoke s "user-revoked-session" true) ∧ r.revokedAt = none := by
  simp only [revokeOwnedBrowserSession, bind_eq_ok, orRaise_eq_ok, raiseIf_eq_ok, pure_eq_ok] at h
  obtain ⟨_, -, current, -, r, hr, site₁, hput, site₂, happend, heq⟩ := h
  cases heq
  obtain ⟨t, ht⟩ := append_eq_ok happend
  obtain ⟨hfound, hlive⟩ := Option.filter_eq_some_iff.mp hr
  simp only [Session.liveOf, Bool.and_eq_true, Option.isNone_iff_eq_none] at hlive
  exact ⟨r, ⟨(lookup_session hfound).1, site₁, t, hput, ht⟩, hlive.2⟩

/-! ## Revocations -/

def Session.Ended (r r' : Session) : Prop :=
  r' = r ∨ r.revokedAt = none ∧
    ∃ s reason seen, reason ≠ pendingMfa ∧ r' = r.revoke s reason seen

theorem Session.Ended.refl (r : Session) : r.Ended r := .inl rfl

theorem Session.Ended.trans {r'' : Session} (h : r.Ended r') (h' : r'.Ended r'') :
    r.Ended r'' := by
  rcases h with rfl | ⟨hactive, s, reason, seen, hreason, rfl⟩
  · exact h'
  · rcases h' with rfl | ⟨hactive', -⟩
    · exact .inr ⟨hactive, s, reason, seen, hreason, rfl⟩
    · cases hactive'

theorem Session.Ended.step (h : r.Ended r') : Session.Step a r r' := by
  rcases h with rfl | ⟨hactive, s, reason, seen, hreason, rfl⟩
  · exact .same
  · exact .revoked hactive hreason

/-- Sessions end, revisions advance, and CLI sessions are left alone. -/
structure Site.Revises (site site' : Site) : Prop where
  sessions : ∀ id, Option.Rel Session.Ended (site.session id) (site'.session id)
  subjects : ∀ u, Option.Rel SubjectLater (site.authority u) (site'.authority u)
  cliSessions : site'.cliSessions = site.cliSessions

theorem optionRel_trans {R : α → α → Prop} (h : ∀ {x y z}, R x y → R y z → R x z)
    {x y z : Option α} (hxy : Option.Rel R x y) (hyz : Option.Rel R y z) : Option.Rel R x z := by
  cases hxy with
  | none => exact hyz
  | some hxy =>
      cases hyz with
      | some hyz => exact .some (h hxy hyz)

theorem Site.Revises.of_eq (hsessions : site'.sessions = site.sessions)
    (hsubjects : site'.subjects = site.subjects) (hcli : site'.cliSessions = site.cliSessions) :
    site.Revises site' where
  sessions id := by
    rw [Site.session, Site.session, hsessions]
    exact optionRel_refl Session.Ended.refl _
  subjects := subjects_of_eq hsubjects
  cliSessions := hcli

theorem Site.Revises.refl (site : Site) : site.Revises site := .of_eq rfl rfl rfl

theorem Site.Revises.trans {site'' : Site} (h : site.Revises site') (h' : site'.Revises site'') :
    site.Revises site'' where
  sessions id := optionRel_trans (R := Session.Ended) Session.Ended.trans (h.sessions id) (h'.sessions id)
  subjects u := optionRel_trans (R := SubjectLater) SubjectLater.trans (h.subjects u) (h'.subjects u)
  cliSessions := h'.cliSessions.trans h.cliSessions

theorem optionRel_imp {R R' : α → α → Prop} (h : ∀ {x y}, R x y → R' x y)
    {x y : Option α} (hxy : Option.Rel R x y) : Option.Rel R' x y := by
  cases hxy with
  | none => exact .none
  | some hxy => exact .some (h hxy)

theorem Site.Revises.step (h : site.Revises site') : site.Step a site' :=
  .of_rel (fun id => optionRel_imp Session.Ended.step (h.sessions id)) h.subjects
    (cliSessions_of_eq h.cliSessions)

theorem append_revises (h : site.append D s e = .ok site') :
    site.Revises site' := by
  obtain ⟨t, rfl⟩ := append_eq_ok h
  exact .of_eq rfl rfl rfl

theorem revokeSessions_eq_ok {p : Session → Bool}
    (h : site.revokeSessions s reason seen p = .ok (site', n)) :
    ∃ t, site.sessions.updateWhere (fun r => p r && r.revokedAt.isNone)
      (Session.revoke s reason seen) = .ok t ∧ site' = { site with sessions := t } := by
  simp only [Site.revokeSessions, bind_eq_ok, pure_eq_ok] at h
  obtain ⟨t, hup, heq⟩ := h
  cases heq
  exact ⟨t, hup, rfl⟩

theorem revokeSessions_revises {p : Session → Bool}
    (h : site.revokeSessions s reason seen p = .ok (site', n)) (hreason : reason ≠ pendingMfa) :
    site.Revises site' := by
  obtain ⟨t, hup, rfl⟩ := revokeSessions_eq_ok h
  refine ⟨lookup_updateWhere_rel hup (fun _ => rfl) Session.Ended.refl fun r hr => ?_,
    subjects_of_eq rfl, rfl⟩
  simp only [Bool.and_eq_true, Option.isNone_iff_eq_none] at hr
  exact .inr ⟨hr.2, s, reason, seen, hreason, rfl⟩

theorem putAuthority_eq_ok (h : site.putAuthority x = .ok site') :
    ∃ t, site.subjects.put x = .ok t ∧ site' = { site with subjects := t } := by
  simp only [Site.putAuthority, bind_eq_ok, pure_eq_ok] at h
  obtain ⟨t, hput, rfl⟩ := h
  exact ⟨t, hput, rfl⟩

theorem putAuthority_revises {x' : SubjectAuthority} (h : site.putAuthority x' = .ok site')
    (hx : x ∈ site.subjects.rows) (hid : x'.subjectId = x.subjectId) (hlater : SubjectLater x x') :
    site.Revises site' := by
  obtain ⟨t, hput, rfl⟩ := putAuthority_eq_ok h
  exact ⟨fun id => optionRel_refl Session.Ended.refl _,
    lookup_put_rel hput hx hid SubjectLater.refl hlater, rfl⟩

theorem insertGrants_eq_ok {rows : List Authority.PermissionGrant}
    (h : site.insertGrants rows = .ok site') :
    ∃ t, Table.ofRows (site.grants.rows ++ rows) = .ok t ∧ site' = { site with grants := t } := by
  simp only [Site.insertGrants, bind_eq_ok, pure_eq_ok] at h
  obtain ⟨t, ht, rfl⟩ := h
  exact ⟨t, ht, rfl⟩

theorem reject_revises {p : RejectArgs} {v : RefreshOutcome}
    (h : rejectBrowserSessionRefresh C s p site = .ok (site', v)) : site.Revises site' := by
  simp only [rejectBrowserSessionRefresh, bind_eq_ok, orRaise_eq_ok, raiseIf_eq_ok] at h
  obtain ⟨_, -, r, hr, _, hguard, h⟩ := h
  split at h
  next =>
    cases h
    exact .refl _
  next =>
    simp only [bind_eq_ok, pure_eq_ok] at h
    obtain ⟨⟨site₁, n⟩, hrevoke, site₂, happend, heq⟩ := h
    cases heq
    exact (revokeSessions_revises hrevoke (by decide)).trans (append_revises happend)

theorem revokeAll_revises {v : Revoked}
    (h : revokeAllOwnedBrowserSessions C s token csrf correlationId site = .ok (site', v)) :
    site.Revises site' := by
  simp only [revokeAllOwnedBrowserSessions, bind_eq_ok, raiseIf_eq_ok, pure_eq_ok] at h
  obtain ⟨_, -, current, -, ⟨site₁, n⟩, hrevoke, site₂, happend, heq⟩ := h
  cases heq
  exact (revokeSessions_revises hrevoke (by decide)).trans (append_revises happend)

theorem advance_revises {revision : Int} {site₁ : Site}
    {p : Session → Bool} (hx : x ∈ site.subjects.rows)
    (hrevision : x.permissionRevision ≤ revision)
    (hput : site.putAuthority { x with
      permissionRevision := revision
      revokeEpoch := x.revokeEpoch + 1 } = .ok site₁)
    (hrevoke : site₁.revokeSessions s reason seen p = .ok (site', n))
    (hreason : reason ≠ pendingMfa) : site.Revises site' :=
  (putAuthority_revises hput hx rfl ⟨hrevision, Int.le_add_one (Int.le_refl _)⟩).trans
    (revokeSessions_revises hrevoke hreason)

theorem recovery_revises {subjectId : Option Uuid} {v : Revoked}
    (h : revokeAfterPasswordRecovery C s subjectId correlationId site = .ok (site', v)) :
    site.Revises site' := by
  simp only [revokeAfterPasswordRecovery, bind_eq_ok, orRaise_eq_ok, raiseIf_eq_ok,
    pure_eq_ok] at h
  obtain ⟨_, -, x, hx, _, -, site₁, hput, ⟨site₂, n⟩, hrevoke, site₃, happend, heq⟩ := h
  cases heq
  exact (advance_revises (Table.lookup_eq_some.mp hx).1 (Int.le_refl _) hput hrevoke
    (by decide)).trans (append_revises happend)

structure SetRoles (s : Statement) (target : SubjectAuthority) (roles : List String)
    (site site' : Site) : Prop where
  grants : ∃ g, site.grants.updateWhere
      (fun g => decide (g.subjectId = target.subjectId) &&
        decide (g.permission ∈ managedPermissions site.policy) && g.revokedAt.isNone)
      (fun g => { g with revokedAt := some s.now }) = .ok g ∧
    Table.ofRows (g.rows ++ newGrants target.subjectId (target.permissionRevision + 1)
      (permissionsOf site.policy roles)) = .ok site'.grants
  subjects : site.subjects.put { target with
    permissionRevision := target.permissionRevision + 1
    revokeEpoch := target.revokeEpoch + 1 } = .ok site'.subjects
  revises : target ∈ site.subjects.rows → site.Revises site'
  policy : site'.policy = site.policy

theorem setRoles_eq_ok {target : SubjectAuthority} {roles : List String} {v : SubjectAuthority × Nat}
    (h : site.setRoles s target roles = .ok (site', v)) :
    SetRoles s target roles site site' ∧ v.1 = { target with
      permissionRevision := target.permissionRevision + 1
      revokeEpoch := target.revokeEpoch + 1 } := by
  simp only [Site.setRoles, bind_eq_ok, pure_eq_ok] at h
  obtain ⟨g, hup, site₁, hinsert, site₂, hput, ⟨site₃, n⟩, hrevoke, heq⟩ := h
  cases heq
  obtain ⟨g', hg', rfl⟩ := insertGrants_eq_ok hinsert
  have hrev : target ∈ site.subjects.rows → site.Revises site₃ := by
    intro hx
    have hlast := advance_revises (by exact hx) (Int.le_add_one (Int.le_refl _)) hput hrevoke
      (by decide)
    exact ⟨hlast.sessions, hlast.subjects, hlast.cliSessions⟩
  obtain ⟨t, hsubjects, rfl⟩ := putAuthority_eq_ok hput
  obtain ⟨t', -, rfl⟩ := revokeSessions_eq_ok hrevoke
  exact ⟨⟨⟨g, hup, hg'⟩, hsubjects, hrev, rfl⟩, rfl⟩

theorem roleTarget_eq_ok {p : RoleChangeArgs}
    (h : roleTarget s p site = .ok x) :
    x ∈ site.subjects.rows ∧ p.targetSubjectId = some x.subjectId := by
  simp only [roleTarget, bind_eq_ok, raiseIf_eq_ok] at h
  obtain ⟨_, -, ⟨r, actor⟩, hactor, _, -, _, -, h⟩ := h
  simp only [Site.actor, bind_eq_ok, orRaise_eq_ok, raiseIf_eq_ok, pure_eq_ok] at hactor
  obtain ⟨r', -, _, -, x', hx', heq⟩ := hactor
  cases heq
  split at h
  next hsame =>
    cases h
    simp only [Authority.currentAuthority, bind_eq_ok, orRaise_eq_ok, raiseIf_eq_ok,
      pure_eq_ok] at hx'
    obtain ⟨x'', hx'', _, -, rfl⟩ := hx'
    obtain ⟨hmem, hid⟩ := Table.lookup_eq_some.mp hx''
    obtain ⟨u, htarget, hu⟩ := (eq_eq_true _ _).mp hsame
    rw [htarget, ← hu]
    exact ⟨hmem, hid⟩
  next => exact Table.lookup_eq_some.mp (orRaise_eq_ok.mp h)

theorem changeRole_eq_ok {p : RoleChangeArgs} {v : RoleChange}
    (h : changeManagedIdentityRole C s p site = .ok (site', v)) :
    ∃ target, roleTarget s p site = .ok target ∧
      (v.replayed = true ∧ site' = site ∨
      v.replayed = false ∧ v.authority.subjectId = target.subjectId ∧
        Cond.and (removesAdmin p) (eq p.targetSubjectId p.actor.actorRef) ≠ some true ∧
        Cond.and (removesAdmin p) (some (decide (site.adminCount ≤ 1))) ≠ some true ∧
        p.operation ≠ none ∧ p.role ≠ none ∧
        ∃ site₁ t, SetRoles s target
          (desiredRoles p (site.rolesOf target.subjectId target.permissionRevision)) site site₁ ∧
          site' = { site₁ with events := t }) := by
  obtain ⟨target, htarget, h⟩ := bind_eq_ok.mp h
  refine ⟨target, htarget, ?_⟩
  simp only at h
  split at h
  next =>
    cases h
    exact .inl ⟨rfl, rfl⟩
  next =>
    simp only [bind_eq_ok, raiseIf_eq_ok, notNull_eq_ok, pure_eq_ok] at h
    obtain ⟨_, hself, _, hlast, ⟨site₁, x, n⟩, hset, action, haction, site₂, happend, heq⟩ := h
    cases heq
    obtain ⟨hset, hx⟩ := setRoles_eq_ok hset
    have hrole := append_target happend
    obtain ⟨t, rfl⟩ := append_eq_ok happend
    refine .inr ⟨rfl, congrArg (·.subjectId) hx, hself, hlast, ?_, ?_, site₁, t, hset, rfl⟩
    · intro hnone
      rw [hnone] at haction
      cases haction
    · intro hnone
      exact hrole (by simp [identityEvent, hnone])

theorem changeRole_revises {p : RoleChangeArgs} {v : RoleChange}
    (h : changeManagedIdentityRole C s p site = .ok (site', v)) : site.Revises site' := by
  obtain ⟨target, htarget, ⟨-, rfl⟩ | ⟨-, -, -, -, -, -, site₁, t, hset, rfl⟩⟩ := changeRole_eq_ok h
  · exact .refl _
  · have hrev := hset.revises (roleTarget_eq_ok htarget).1
    exact ⟨hrev.sessions, hrev.subjects, hrev.cliSessions⟩

theorem managedIdentityReason_ne (action : String) :
    String.append "managed-identity-" (replaceDots '-' action) ≠ pendingMfa := by
  intro h
  have hhead : ("managed-identity-" ++ replaceDots '-' action).toList.head? =
      pendingMfa.toList.head? := congrArg (fun t => t.toList.head?) h
  simp [pendingMfa] at hhead

theorem Policy.revokeReason_ne (policy : Policy) : policy.revokeReason ≠ pendingMfa := by
  cases policy <;> decide

theorem revokeIdentity_eq_ok {v : SubjectAuthority × Nat}
    (h : site.revokeIdentity s x reason = .ok (site', v)) :
    ∃ t t', site.subjects.put { x with revokeEpoch := x.revokeEpoch + 1 } = .ok t ∧
      site' = { site with subjects := t, sessions := t' } := by
  simp only [Site.revokeIdentity, bind_eq_ok, pure_eq_ok] at h
  obtain ⟨site₁, hput, ⟨site₂, n⟩, hrevoke, heq⟩ := h
  cases heq
  obtain ⟨t, ht, rfl⟩ := putAuthority_eq_ok hput
  obtain ⟨t', -, rfl⟩ := revokeSessions_eq_ok hrevoke
  exact ⟨t, t', ht, rfl⟩

theorem revokeIdentity_revises {target : SubjectAuthority}
    {v : SubjectAuthority × Nat} (h : site.revokeIdentity s target reason = .ok (site', v))
    (hx : target ∈ site.subjects.rows) (hreason : reason ≠ pendingMfa) : site.Revises site' := by
  simp only [Site.revokeIdentity, bind_eq_ok, pure_eq_ok] at h
  obtain ⟨site₁, hput, ⟨site₂, n⟩, hrevoke, heq⟩ := h
  cases heq
  exact advance_revises hx (Int.le_refl _) hput hrevoke hreason

end Steps

end ConsoleIdentity
