import OpenSphere.Shell.System

/-!
# What a call does to a session

`Change` says once, for each function that writes a session, which row it finds,
what it has checked of it, and which row it leaves.  `call_sessions` shows that a
committed call changes each session by one such change or not at all, or inserts
one.  Every invariant of the sessions is an analysis of the cases of `Change`.
-/

open Sql
open Authority (between)

namespace ConsoleShell

variable {C : ShellCrypto} {t : Clock} {db db' : Shell}
variable {r r' : ShellSession} {c : Call}

def Call.switches : Call → Prop
  | .setShellFeatureState .. => True
  | .setShellFeatureStateLocalEdge _ => True
  | _ => False

inductive Change (C : ShellCrypto) (t : Clock) (db : Shell) :
    Call → ShellSession → ShellSession → Prop
  | teardown {p : TeardownArgs} {r : ShellSession} {revision : String}
      (named : p.sessionId = some r.sessionId)
      (authority : CurrentRevision C db.site p.actorId p.permissionRevision)
      (own : teardownForeign r p ≠ some true)
      (bound : p.permissionRevision = some revision) :
      Change C t db (.requestShellSessionTeardown p) r (r.teardown t.start revision)
  | claimed {worker : Option String} {limit : Option Int} {locked : List Uuid} {r : ShellSession}
      (free : r ∈ db.candidates t.now limit locked) :
      Change C t db (.claimShellSessions worker limit locked) r
        (r.claimed t.now (coalesce worker ""))
  | renewed {f : Fence} {actorId : Option Uuid} {revision : Option String} {r : ShellSession}
      (selected : heartbeatSelects t.now f actorId revision r = true) :
      Change C t db (.heartbeatShellSession f actorId revision) r (db.renewed t.now r)
  | reprojected {p : ReprojectArgs} {r : ShellSession}
      (named : p.fence.sessionId = some r.sessionId)
      (admitted : reprojectRefused t.start r p ≠ some true) :
      Change C t db (.reprojectShellRuntime p) r (r.reprojected t.start)
  | registered {p : RegisterArgs} {r : ShellSession}
      (named : p.fence.sessionId = some r.sessionId)
      (admitted : registerRefused t.start r p ≠ some true) :
      Change C t db (.registerShellRuntime p) r (r.registered t.start p)
  | revoked {f : Fence} {reasonCode : Option String} {r : ShellSession} {revision : String}
      (named : f.sessionId = some r.sessionId)
      (admitted : Cond.any (fenceLost t.start r f ++
        [some (decide (r.observedState = .terminated))]) ≠ some true)
      (current : currentShellPermissionRevision C db.site (some r.actorId) = .ok revision) :
      Change C t db (.revokeShellSessionAuthority f reasonCode) r (r.teardown t.start revision)
  | moved {p : TransitionArgs} {r : ShellSession} {revision : String} {next : Observed}
      (named : p.fence.sessionId = some r.sessionId)
      (authority : CurrentRevision C db.site p.actorId p.permissionRevision)
      (admitted : transitionRefused t.start r p ≠ some true)
      (valid : Cond.not (validTransition p.expectedState p.nextState) ≠ some true)
      (wanted : Cond.and (eq p.nextState (some "Ready"))
        (some (decide (r.desiredState ≠ .running))) ≠ some true)
      (registered : Cond.and (eq p.nextState (some "Ready"))
        (isNull r.runtimeRegisteredAt) ≠ some true)
      (bound : p.permissionRevision = some revision)
      (goal : p.nextState.bind Observed.ofText = some next) :
      Change C t db (.transitionShellSession p) r (r.moved t.start p revision next)
  | touched {b : Binding} {r : ShellSession} {browser : ConsoleIdentity.Session}
      (named : b.sessionId = some r.sessionId)
      (enabled : db.control.enabled = true)
      (authority : assertShellAuthority C db b.actorId b.permissionRevision true = .ok ())
      (current : db.browserOf b = some browser)
      (admitted : touchRefused t.start r browser b ≠ some true) :
      Change C t db (.touchShellSessionActivity b) r (r.touched t.start browser)
  | attached {p : ConsumeArgs} {r : ShellSession}
      (named : p.binding.sessionId = some r.sessionId) :
      Change C t db (.consumeShellAttachTicket p) r (r.attached t.start)
  | disabled {c : Call} {r : ShellSession} (switch : c.switches) (ends : r.ends = true) :
      Change C t db c r (r.disabled t.start)

/-- What `create_shell_session` has checked before it inserts a session. -/
structure Created (t : Clock) (db : Shell) (p : CreateArgs) (r : ShellSession) : Prop where
  enabled : db.control.enabled = true
  absent : db.sessions.lookup p.sessionId = none
  room : (db.active t.start fun _ => true) < db.control.globalActiveLimit
  actorRoom : (db.active t.start fun x => decide (some x.actorId = p.actorId)) <
    db.control.actorActiveLimit
  row : newSession t.now p = .ok r
  later : ∀ e, p.idleExpiresAt = some e → t.start < e

def SessionsStep (C : ShellCrypto) (t : Clock) (db : Shell) (c : Call)
    (sessions : Table shellSessionSchema) : Prop :=
  List.Forall₂ (fun x y => y = x ∨ Change C t db c x y) db.sessions.rows sessions.rows ∨
    ∃ p r, c = .createShellSession p ∧ Created t db p r ∧ db.sessions.insert r = .ok sessions

theorem SessionsStep.refl : SessionsStep C t db c db.sessions :=
  .inl (List.forall₂_same.mpr fun _ _ => .inl rfl)

theorem Shell.Replaces.step {f : ShellSession → ShellSession}
    {sessions : Table shellSessionSchema} (h : db.Replaces r f sessions)
    (hchange : Change C t db c r (f r)) : SessionsStep C t db c sessions := by
  refine .inl (h.2.imp fun x y hxy => ?_)
  rcases hxy with ⟨rfl, -⟩ | ⟨rfl, rfl⟩
  · exact .inl rfl
  · exact .inr hchange

theorem Change.sessionId (h : Change C t db c r r') :
    r'.sessionId = r.sessionId := by
  cases h <;> rfl

theorem SessionsStep.lookup {sessions : Table shellSessionSchema}
    (h : SessionsStep C t db c sessions) (k : Uuid) :
    sessions.lookup (some k) = db.sessions.lookup (some k) ∨
      (∃ r r', db.sessions.lookup (some k) = some r ∧ sessions.lookup (some k) = some r' ∧
        Change C t db c r r') ∨
      ∃ p r, c = .createShellSession p ∧ Created t db p r ∧
        db.sessions.lookup (some k) = none ∧ sessions.lookup (some k) = some r := by
  rcases h with h | ⟨p, r, rfl, hcreated, hinsert⟩
  · have hkey : ∀ x y : ShellSession, (y = x ∨ Change C t db c x y) →
        shellSessionSchema.key y = shellSessionSchema.key x := by
      rintro x y (rfl | hchange)
      · rfl
      · exact hchange.sessionId
    have hrel := Table.lookup_forall₂ h hkey k
    revert hrel
    cases db.sessions.lookup (some k) <;> cases sessions.lookup (some k) <;> intro hrel
    · exact .inl rfl
    · cases hrel
    · cases hrel
    · cases hrel with
      | some hrel =>
          rcases hrel with rfl | hchange
          · exact .inl rfl
          · exact .inr (.inl ⟨_, _, rfl, rfl, hchange⟩)
  · rw [Table.lookup_insert hinsert k]
    split
    next hk =>
      subst hk
      exact .inr (.inr ⟨p, r, rfl, hcreated, Table.lookup_insert_self hinsert, rfl⟩)
    next => exact .inl rfl

/-! ## One function at a time -/

theorem create_eq_ok {p : CreateArgs}
    (h : createShellSession C t p db = .ok (db', r)) :
    db' = db ∨ ∃ sessions events, Created t db p r ∧ db.sessions.insert r = .ok sessions ∧
      db' = { db with sessions := sessions, events := events } := by
  simp only [createShellSession, bind_eq_ok, raiseIf_eq_ok, orRaise_eq_ok] at h
  obtain ⟨_, henabled, _, -, browser, -, _, -, _, hexpiry, _, -, h⟩ := h
  cases hlook : db.sessions.lookup p.sessionId with
  | some existing =>
      simp only [hlook, bind_eq_ok, pure_eq_ok] at h
      obtain ⟨_, -, heq⟩ := h
      cases heq
      exact .inl rfl
  | none =>
      simp only [hlook, bind_eq_ok, raiseIf_eq_ok, pure_eq_ok] at h
      obtain ⟨_, hglobal, _, hactor, x, hnew, db₁, hinsert, db₂, happend, heq⟩ := h
      cases heq
      obtain ⟨sessions, hrows, rfl⟩ := insertSession_eq_ok hinsert
      obtain ⟨events, rfl⟩ := append_eq_ok happend
      refine .inr ⟨sessions, events, ⟨?_, hlook, ?_, ?_, hnew, ?_⟩, hrows, rfl⟩
      · simpa using henabled
      · simpa using hglobal
      · simpa using hactor
      · intro e he
        have hidle := any_ne_true hexpiry _ (List.mem_cons_self ..)
        simpa [he] using hidle

theorem teardown_eq_ok {p : TeardownArgs} {out : Option ShellSession}
    (h : requestShellSessionTeardown C t p db = .ok (db', out)) :
    db' = db ∨ ∃ r revision sessions tickets events,
      Change C t db (.requestShellSessionTeardown p) r (r.teardown t.start revision) ∧
      db.Replaces r (ShellSession.teardown t.start revision) sessions ∧
      db.Expires t.start (fun x => decide (x.sessionId = r.sessionId) && x.consumedAt.isNone)
        tickets ∧
      db' = { db with sessions := sessions, tickets := tickets, events := events } := by
  simp only [requestShellSessionTeardown, bind_eq_ok, assertShellAuthority_eq_ok] at h
  obtain ⟨_, ⟨hauthority, -⟩, h⟩ := h
  cases hlook : db.sessions.lookup p.sessionId with
  | none =>
      simp only [hlook, pure_eq_ok, Prod.mk.injEq] at h
      exact .inl h.1.symm
  | some r =>
      simp only [hlook] at h
      split at h
      next =>
        cases h
        exact .inl rfl
      next hown =>
        simp only [bind_eq_ok, notNull_eq_ok, pure_eq_ok] at h
        obtain ⟨revision, hrevision, db₁, hupdate, db₂, hexpire, db₃, happend, heq⟩ := h
        cases heq
        obtain ⟨hnamed, sessions, hreplaces, rfl⟩ := updateSession_replaces hlook hupdate
        obtain ⟨tickets, hexpires, rfl⟩ := expireTickets_eq_ok.mp hexpire
        obtain ⟨events, rfl⟩ := append_eq_ok happend
        exact .inr ⟨r, revision, sessions, tickets, events,
          .teardown hnamed hauthority hown hrevision, hreplaces, hexpires, rfl⟩

theorem claim_eq_ok {worker : Option String} {limit : Option Int} {locked : List Uuid}
    {rows : List ShellSession} (h : claimShellSessions t worker limit locked db = .ok (db', rows)) :
    ∃ sessions events,
      db.sessions.updateWhere (fun r => decide (r ∈ db.candidates t.now limit locked))
        (ShellSession.claimed t.now (coalesce worker "")) = .ok sessions ∧
      rows = (db.candidates t.now limit locked).map
        (ShellSession.claimed t.now (coalesce worker "")) ∧
      db' = { db with sessions := sessions, events := events } := by
  simp only [claimShellSessions, bind_eq_ok, pure_eq_ok] at h
  obtain ⟨_, -, db₁, hupdate, heq⟩ := h
  obtain ⟨-, sessions, hrows, rfl⟩ := updateSessions_eq_ok.mp hupdate
  cases heq
  exact ⟨sessions, _, hrows, rfl, rfl⟩

theorem heartbeat_eq_ok {f : Fence} {actorId : Option Uuid} {revision : Option String} {b : Bool}
    (h : heartbeatShellSession C t f actorId revision db = .ok (db', b)) :
    ∃ sessions, db.sessions.updateWhere (heartbeatSelects t.now f actorId revision)
      (db.renewed t.now) = .ok sessions ∧ db' = { db with sessions := sessions } := by
  simp only [heartbeatShellSession, bind_eq_ok, pure_eq_ok] at h
  obtain ⟨_, -, db₁, hupdate, heq⟩ := h
  obtain ⟨-, sessions, hrows, rfl⟩ := updateSessions_eq_ok.mp hupdate
  cases heq
  exact ⟨sessions, hrows, rfl⟩

theorem reproject_eq_ok {p : ReprojectArgs}
    (h : reprojectShellRuntime t p db = .ok (db', r')) :
    ∃ r sessions tickets events, r' = r.reprojected t.start ∧
      db.sessions.lookup p.fence.sessionId = some r ∧
      Change C t db (.reprojectShellRuntime p) r (r.reprojected t.start) ∧
      db.Replaces r (ShellSession.reprojected t.start) sessions ∧
      db.Expires t.start (fun x => decide (x.sessionId = r.sessionId) &&
        x.runtimeAuthorizedAt.isNone) tickets ∧
      db' = { db with sessions := sessions, tickets := tickets, events := events } := by
  simp only [reprojectShellRuntime, bind_eq_ok, orRaise_eq_ok, raiseIf_eq_ok, pure_eq_ok] at h
  obtain ⟨r, hlook, _, hadmitted, db₁, hupdate, db₂, hexpire, db₃, happend, heq⟩ := h
  cases heq
  obtain ⟨hnamed, sessions, hreplaces, rfl⟩ := updateSession_replaces hlook hupdate
  obtain ⟨tickets, hexpires, rfl⟩ := expireTickets_eq_ok.mp hexpire
  obtain ⟨events, rfl⟩ := append_eq_ok happend
  exact ⟨r, sessions, tickets, events, rfl, hlook, .reprojected hnamed hadmitted, hreplaces,
    hexpires, rfl⟩

theorem register_eq_ok {p : RegisterArgs}
    (h : registerShellRuntime C t p db = .ok (db', r')) :
    db' = db ∨ ∃ r sessions events, r' = r.registered t.start p ∧
      db.sessions.lookup p.fence.sessionId = some r ∧
      Change C t db (.registerShellRuntime p) r (r.registered t.start p) ∧
      db.Replaces r (ShellSession.registered t.start p) sessions ∧
      db' = { db with sessions := sessions, events := events } := by
  simp only [registerShellRuntime, bind_eq_ok, orRaise_eq_ok] at h
  obtain ⟨_, -, r, hlook, h⟩ := h
  split at h
  next =>
    simp only [bind_eq_ok, pure_eq_ok] at h
    obtain ⟨_, -, heq⟩ := h
    cases heq
    exact .inl rfl
  next =>
    simp only [bind_eq_ok, raiseIf_eq_ok, pure_eq_ok] at h
    obtain ⟨_, hadmitted, _, -, db₁, hupdate, db₂, happend, heq⟩ := h
    cases heq
    obtain ⟨hnamed, sessions, hreplaces, rfl⟩ := updateSession_replaces hlook hupdate
    obtain ⟨events, rfl⟩ := append_eq_ok happend
    exact .inr ⟨r, sessions, events, rfl, hlook, .registered hnamed hadmitted, hreplaces, rfl⟩

theorem revoke_eq_ok {f : Fence} {reasonCode : Option String}
    (h : revokeShellSessionAuthority C t f reasonCode db = .ok (db', r')) :
    ∃ r revision sessions tickets events, r' = r.teardown t.start revision ∧
      db.sessions.lookup f.sessionId = some r ∧
      Change C t db (.revokeShellSessionAuthority f reasonCode) r
        (r.teardown t.start revision) ∧
      db.Replaces r (ShellSession.teardown t.start revision) sessions ∧
      db.Expires t.start (fun x => decide (x.sessionId = r.sessionId) &&
        x.runtimeAuthorizedAt.isNone) tickets ∧
      db' = { db with sessions := sessions, tickets := tickets, events := events } := by
  simp only [revokeShellSessionAuthority, bind_eq_ok, orRaise_eq_ok, raiseIf_eq_ok,
    pure_eq_ok] at h
  obtain ⟨r, hlook, _, hadmitted, revision, hcurrent, db₁, hupdate, db₂, hexpire, db₃, happend,
    heq⟩ := h
  cases heq
  obtain ⟨hnamed, sessions, hreplaces, rfl⟩ := updateSession_replaces hlook hupdate
  obtain ⟨tickets, hexpires, rfl⟩ := expireTickets_eq_ok.mp hexpire
  obtain ⟨events, rfl⟩ := append_eq_ok happend
  exact ⟨r, revision, sessions, tickets, events, rfl, hlook,
    .revoked hnamed hadmitted hcurrent, hreplaces, hexpires, rfl⟩

theorem transition_eq_ok {p : TransitionArgs}
    (h : transitionShellSession C t p db = .ok (db', r')) :
    ∃ r revision next sessions events, r' = r.moved t.start p revision next ∧
      db.sessions.lookup p.fence.sessionId = some r ∧
      Change C t db (.transitionShellSession p) r (r.moved t.start p revision next) ∧
      db.Replaces r (ShellSession.moved t.start p revision next) sessions ∧
      db' = { db with sessions := sessions, events := events } := by
  simp only [transitionShellSession, bind_eq_ok, assertShellAuthority_eq_ok, orRaise_eq_ok,
    raiseIf_eq_ok, notNull_eq_ok, pure_eq_ok] at h
  obtain ⟨_, ⟨hauthority, -⟩, r, hlook, _, hadmitted, _, -, _, hvalid, _, hwanted, _, hregistered,
    _, -, revision, hrevision, next, hnext, db₁, hupdate, db₂, happend, heq⟩ := h
  cases heq
  obtain ⟨hnamed, sessions, hreplaces, rfl⟩ := updateSession_replaces hlook hupdate
  obtain ⟨events, rfl⟩ := append_eq_ok happend
  exact ⟨r, revision, next, sessions, events, rfl, hlook,
    .moved hnamed hauthority hadmitted hvalid hwanted hregistered hrevision hnext, hreplaces, rfl⟩

theorem touch_eq_ok {b : Binding} {out : Option ShellSession}
    (h : touchShellSessionActivity C t b db = .ok (db', out)) :
    db' = db ∨ ∃ r browser sessions, out = some (r.touched t.start browser) ∧
      Change C t db (.touchShellSessionActivity b) r (r.touched t.start browser) ∧
      db.Replaces r (ShellSession.touched t.start browser) sessions ∧
      db' = { db with sessions := sessions } := by
  simp only [touchShellSessionActivity] at h
  split at h
  next =>
    cases h
    exact .inl rfl
  next henabled =>
    simp only [bind_eq_ok] at h
    obtain ⟨_, hauthority, h⟩ := h
    split at h
    next r browser hlook hbrowser =>
      split at h
      next =>
        cases h
        exact .inl rfl
      next hadmitted =>
        simp only [bind_eq_ok, pure_eq_ok] at h
        obtain ⟨db₁, hupdate, heq⟩ := h
        cases heq
        obtain ⟨hnamed, sessions, hreplaces, rfl⟩ := updateSession_replaces hlook hupdate
        exact .inr ⟨r, browser, sessions, rfl,
          .touched hnamed (by simpa using henabled) hauthority hbrowser hadmitted, hreplaces, rfl⟩
    next =>
      cases h
      exact .inl rfl

end ConsoleShell
