import OpenSphere.FrontDoor.Service
import OpenSphere.Identity.Runs

/-!
# What the front door and the database both check

Both look at the length of the reason, of the idempotency key and of the correlation
id, at the permission of the caller and at its recent second factor.  `Admitted`
states these checks of the database: a call that it stores is admitted, and an
admitted call goes past the guards of its function.  `Submission.Passes` states those
of the service.

For the session as the database holds it at that instant and texts of the basic
plane, a submission passes exactly when its normalized texts are admitted.
-/

open Sql
open Js (Value)
open Authority (Statement Operation BrowserSession SubjectAuthority AcceptArgs ApproveArgs
  VerifyArgs Digest between hasPermission notRecentAal2 activeSession currentAuthority)
open ConsoleIdentity (Site Resolved Bytes resolveBrowserSession)

namespace FrontDoor

variable {n : Int} {p : AcceptArgs} {actorRef sessionId : Option Uuid} {db' : Authority.Db}
  {o : Operation} {x : Value}

/-! ## Text -/

theorem text_eq_ok {name t : String} {lo hi : Nat} :
    text x name lo hi = .ok t ↔ normalize x = .ok t ∧ lo ≤ Js.length t ∧ Js.length t ≤ hi := by
  simp only [text, bind_eq_ok, throwIf_eq_ok, pure_eq_ok, Bool.or_eq_false_iff,
    decide_eq_false_iff_not, Nat.not_lt]
  constructor
  · rintro ⟨t', ht, _, hbounds, rfl⟩
    exact ⟨ht, hbounds⟩
  · rintro ⟨ht, hbounds⟩
    exact ⟨t, ht, (), hbounds, rfl⟩

theorem btrim_of_normalize {t : String} (h : normalize x = .ok t) : btrim t = t := by
  obtain ⟨t', -, rfl⟩ := Option.map_eq_some_iff.mp (orThrow_eq_ok.mp h)
  exact Js.btrim_trim t'

theorem trim_of_normalize {t : String} (h : normalize x = .ok t) : Js.trim t = t := by
  obtain ⟨t', -, rfl⟩ := Option.map_eq_some_iff.mp (orThrow_eq_ok.mp h)
  exact Js.trim_trim t'

/-- The two counts agree on a normalized text of the basic plane. -/
theorem text_iff_between {name t : String} {lo hi : Nat} (hx : normalize x = .ok t)
    (ht : Js.Basic t) : text x name lo hi = .ok t ↔ between (textLength t) lo hi = true := by
  rw [text_eq_ok, between, decide_eq_true_eq, ← Js.length_eq_textLength ht]
  constructor
  · rintro ⟨-, hlo, hhi⟩
    exact ⟨Int.ofNat_le.mpr hlo, Int.ofNat_le.mpr hhi⟩
  · rintro ⟨hlo, hhi⟩
    exact ⟨hx, Int.ofNat_le.mp hlo, Int.ofNat_le.mp hhi⟩

/-! ## The session -/

structure Shown (s : Statement) (site : Site) (v : Resolved) : Prop where
  session : activeSession s site.db (some v.session.sessionId) (some v.session.subjectId) =
    .ok v.session.toBrowserSession
  authority : currentAuthority site.db v.session.toBrowserSession (some v.session.subjectId)
    (some v.authority.permissionRevision) (some v.authority.revokeEpoch) = .ok v.authority
  active : v.session.revokedAt = none
  permission : ∀ p, p ∈ v.permissions ↔ hasPermission site.db (some v.session.subjectId) (some p)
    (some v.authority.permissionRevision) = true
  aal : v.aal = .aal2 ↔ notRecentAal2 s v.session.toBrowserSession ≠ some true

theorem hasPermission_iff {site : Site} {u : Uuid} {p : String} :
    hasPermission site.db (some u) (some p) (some n) = true ↔ p ∈ site.permissions u n := by
  simp only [hasPermission, Site.permissions, ConsoleIdentity.mem_aggDistinct, List.any_eq_true,
    List.mem_map, List.mem_filter, beq_iff_eq, Cond.all_eq_true]
  constructor
  · rintro ⟨g, hg, hall⟩
    have hsubject := hall (eq (some g.subjectId) (some u)) (by simp)
    have hname := hall (eq (some g.permission) (some p)) (by simp)
    have hle := hall (le (some g.grantRevision) (some n)) (by simp)
    have hactive := hall (isNull g.revokedAt) (by simp)
    have hp : p = g.permission := by simpa using hname
    exact ⟨g, ⟨hg, by simp_all⟩, hp.symm⟩
  · rintro ⟨g, ⟨hg, hkept⟩, rfl⟩
    simp only [Bool.and_eq_true, decide_eq_true_eq] at hkept
    refine ⟨g, hg, fun c hc => ?_⟩
    simp only [List.mem_cons, List.not_mem_nil, or_false] at hc
    rcases hc with rfl | rfl | rfl | rfl
    · simp [hkept.1.1]
    · simp
    · simp [hkept.1.2]
    · simp_all

theorem shown_of_resolve {s : Statement} {site : Site} {token csrf : Option Bytes}
    {requireCsrf : Option Bool} {v : Resolved}
    (h : resolveBrowserSession s token csrf requireCsrf site = .ok v) : Shown s site v := by
  have hfound := ConsoleIdentity.resolve_eq_ok h
  simp only [resolveBrowserSession, bind_eq_ok, orRaise_eq_ok, raiseIf_eq_ok, pure_eq_ok] at h
  obtain ⟨r, hr, _, hguard, _, -, x, hx, rfl⟩ := h
  have hactive : r.revokedAt = none :=
    isNotNull_passed (any_ne_true hguard _ (List.mem_cons_self ..))
  obtain ⟨hlook, hrevision, hepoch⟩ := ConsoleIdentity.freshAuthority_eq_ok hx
  have hcore : site.db.identity.sessions.lookup (some r.sessionId) = some r.toBrowserSession := by
    rw [show site.db.identity.sessions = ConsoleIdentity.coreSessions site.sessions from rfl,
      ConsoleIdentity.lookup_coreSessions]
    exact congrArg (Option.map _) hfound.stored
  have hlive : ¬ r.expiresAt ≤ s.now := Int.not_le.mpr hfound.live
  refine ⟨?_, ?_, hactive, fun p => hasPermission_iff.symm, ?_⟩
  · simp only [activeSession, bind_eq_ok, orRaise_eq_ok, raiseIf_eq_ok, pure_eq_ok]
    exact ⟨_, hcore, (), by simp [Cond.any, hactive, hlive], rfl⟩
  · simp only [currentAuthority, bind_eq_ok, orRaise_eq_ok, raiseIf_eq_ok, pure_eq_ok]
    exact ⟨x, hlook, (), by simp [Cond.any, hrevision, hepoch], rfl⟩
  · show (if notRecentAal2 s r.toBrowserSession = some true then Authority.Aal.aal1 else .aal2) =
      .aal2 ↔ _
    split <;> simp_all

/-- `authorizeOperation` on a resolved session, in terms of the database. -/
theorem authorize_iff {s : Statement} {site : Site} {v : Resolved} (hv : Shown s site v)
    {now : Int} {q : Authorization} {u : Uuid} :
    authorizeOperation (sessionOf v) now q = .ok u ↔
      v.session.subjectId = u ∧ now < instant v.session.expiresAt ∧
      hasPermission site.db (some v.session.subjectId) (some q.permission)
        (some v.authority.permissionRevision) = true ∧
      q.risk ∈ risks ∧ (q.risk = "R0" ∨ Js.trim q.reason ≠ "") ∧
      (q.risk = "R2" ∨ q.risk = "R3" → moduleException q = false →
        notRecentAal2 s v.session.toBrowserSession ≠ some true) := by
  simp only [authorizeOperation, sessionOf, bind_eq_ok, orThrow_eq_ok, throwIf_eq_ok, pure_eq_ok,
    ← hv.permission, ← hv.aal, hv.active, Bool.not_eq_false', List.contains_iff_mem]
  constructor
  · rintro ⟨_, hu, _, hlive, _, -, _, hperm, _, hrisk, _, hreason, _, hstep, rfl⟩
    cases hu
    refine ⟨rfl, by simpa using hlive, hperm, hrisk, ?_, ?_⟩
    · simp only [Bool.and_eq_false_iff, decide_eq_false_iff_not, not_not] at hreason
      exact hreason.imp id fun h => by simpa using h
    · intro hrisky hno
      simp only [hno, Bool.not_false, Bool.and_true, Bool.and_eq_false_iff, Bool.or_eq_false_iff,
        decide_eq_false_iff_not, not_not] at hstep
      exact hstep.resolve_left fun h => hrisky.elim h.1 h.2
  · rintro ⟨rfl, hlive, hperm, hrisk, hreason, hstep⟩
    refine ⟨_, rfl, (), by simpa using hlive, (), trivial, (), hperm, (), hrisk, (), ?_, (),
      ?_, rfl⟩
    · simp only [Bool.and_eq_false_iff, decide_eq_false_iff_not, not_not]
      exact hreason.imp id fun h => by simpa using h
    · by_cases hrisky : q.risk = "R2" ∨ q.risk = "R3"
      · cases hexc : moduleException q with
        | true => simp
        | false => simp [hstep hrisky hexc]
      · obtain ⟨h2, h3⟩ := not_or.mp hrisky
        simp [h2, h3]

theorem sessionAuthority_eq_ok {v : Resolved} {a : SessionAuthority} :
    sessionAuthority (sessionOf v) = .ok a ↔
      safe v.authority.permissionRevision = true ∧ safe v.authority.revokeEpoch = true ∧
      a = ⟨v.session.sessionId, v.authority.permissionRevision, v.authority.revokeEpoch⟩ := by
  simp only [sessionAuthority, sessionOf, bind_eq_ok, orThrow_eq_ok, throwIf_eq_ok, pure_eq_ok,
    Bool.not_eq_false', Bool.and_eq_true]
  constructor
  · rintro ⟨_, hid, _, ⟨hrevision, hepoch⟩, rfl⟩
    cases hid
    exact ⟨hrevision, hepoch, rfl⟩
  · rintro ⟨hrevision, hepoch, rfl⟩
    exact ⟨_, rfl, (), ⟨hrevision, hepoch⟩, rfl⟩

/-! ## The checks of the database -/

structure Checks where
  sessionId : Option Uuid
  actorRef : Option Uuid
  reason : Option String
  reasonRequired : Bool
  idempotencyKey : Option String
  correlationId : Option String
  permission : Option String
  stepUp : Bool

/-- The checks of `accept_operation`, or of `accept_development_module_install`. -/
def acceptChecks (development : Bool) (p : AcceptArgs) : Checks where
  sessionId := p.sessionId
  actorRef := p.actorRef
  reason := p.reason
  reasonRequired := decide (p.risk ≠ some "R0")
  idempotencyKey := p.idempotencyKey
  correlationId := p.correlationId
  permission := p.requiredPermission
  stepUp := (decide (p.risk = some "R2") || decide (p.risk = some "R3")) && !development

/-- The checks of `approve_operation`, or of `approve_development_module_install`. -/
def approveChecks (development : Bool) (p : ApproveArgs) : Checks where
  sessionId := p.sessionId
  actorRef := p.actorRef
  reason := p.reason
  reasonRequired := true
  idempotencyKey := p.idempotencyKey
  correlationId := p.correlationId
  permission := some "console.operation.approve"
  stepUp := !development

/-- The checks of `verify_extension_operation`. -/
def verifyChecks (p : VerifyArgs) : Checks where
  sessionId := p.sessionId
  actorRef := p.actorRef
  reason := some ""
  reasonRequired := false
  idempotencyKey := p.idempotencyKey
  correlationId := p.correlationId
  permission := some "console.operation.verify"
  stepUp := false

/-- No check of the function or of its table on the reason, the idempotency key, the
correlation id, the permission or the recent second factor rejects the call. -/
structure Admitted (s : Statement) (db : Authority.Db) (c : Checks) : Prop where
  reason : c.reasonRequired = true →
    between (textLength (btrim (coalesce c.reason ""))) 3 500 = true
  key : ∃ t, c.idempotencyKey = some t ∧ between (textLength t) 8 256 = true
  correlation : ∃ t, c.correlationId = some t ∧ between (textLength t) 8 128 = true
  permission : ∀ a, db.identity.subjects.lookup c.actorRef = some a →
    hasPermission db c.actorRef c.permission (some a.permissionRevision) = true
  recentAal2 : c.stepUp = true → ∀ r, db.identity.sessions.lookup c.sessionId = some r →
    notRecentAal2 s r ≠ some true

section Functions

variable {s : Statement} {db : Authority.Db} {c : Checks}

structure Guarded (s : Statement) (db : Authority.Db) (c : Checks) (session : BrowserSession)
    (authority : SubjectAuthority) : Prop where
  stored : db.identity.sessions.lookup c.sessionId = some session
  known : db.identity.subjects.lookup c.actorRef = some authority
  permission : hasPermission db c.actorRef c.permission (some authority.permissionRevision) = true
  recentAal2 : c.stepUp = true → notRecentAal2 s session ≠ some true

/-- A call that passed the guards and whose row passed the table is admitted. -/
theorem Guarded.admitted {session : BrowserSession} {authority : SubjectAuthority}
    (h : Guarded s db c session authority)
    (hreason : c.reasonRequired = true →
      between (textLength (btrim (coalesce c.reason ""))) 3 500 = true)
    (hkey : ∃ t, c.idempotencyKey = some t ∧ between (textLength t) 8 256 = true)
    (hcorrelation : ∃ t, c.correlationId = some t ∧ between (textLength t) 8 128 = true) :
    Admitted s db c where
  reason := hreason
  key := hkey
  correlation := hcorrelation
  permission a ha := by
    rw [h.known] at ha
    cases ha
    exact h.permission
  recentAal2 hstep r hr := by
    rw [h.stored] at hr
    cases hr
    exact h.recentAal2 hstep

theorem lookup_of_activeSession {r : BrowserSession}
    (h : activeSession s db sessionId actorRef = .ok r) :
    db.identity.sessions.lookup sessionId = some r := by
  simp only [activeSession, bind_eq_ok, orRaise_eq_ok, pure_eq_ok] at h
  obtain ⟨r', hr, _, -, rfl⟩ := h
  exact hr

theorem operation_texts {development : Bool} {digest : String}
    {aal : Authority.Aal} {revision : Int}
    (h : Authority.newOperation s development p digest aal revision = .ok o)
    (hcheck : Authority.operationSchema.check o = true) :
    (p.risk ≠ some "R0" → between (textLength (btrim (coalesce p.reason ""))) 3 500 = true) ∧
      (∃ t, p.idempotencyKey = some t ∧ between (textLength t) 8 256 = true) ∧
      ∃ t, p.correlationId = some t ∧ between (textLength t) 8 128 = true := by
  simp only [Authority.newOperation, bind_eq_ok, notNull_eq_ok, pure_eq_ok] at h
  obtain ⟨_, -, _, -, _, -, _, -, _, -, _, -, risk, hrisk, _, -, _, -, key, hkey, correlation,
    hcorrelation, rfl⟩ := h
  simp only [Authority.operationSchema, Bool.and_eq_true, Bool.or_eq_true, decide_eq_true_eq]
    at hcheck
  obtain ⟨⟨⟨⟨⟨⟨⟨-, hkeyLength⟩, hcorrelationLength⟩, -⟩, hreason⟩, -⟩, -⟩, -⟩ := hcheck
  refine ⟨fun hne => hreason.resolve_left ?_, ⟨key, hkey, hkeyLength⟩,
    ⟨correlation, hcorrelation, hcorrelationLength⟩⟩
  -- only the text `R0` denotes this risk
  rintro rfl
  obtain ⟨t, ht, hfind⟩ := Option.bind_eq_some_iff.mp hrisk
  exact hne (ht.trans (congrArg some (Authority.Risk.text_ofText hfind)))

theorem admitted_of_accept {D : Digest}
    (h : Authority.acceptOperation D s p db = .ok (db', ⟨o, false⟩)) :
    Admitted s db (acceptChecks false p) := by
  obtain ⟨⟨session, authority⟩, hinitiator, h⟩ := bind_eq_ok.mp h
  simp only [Authority.initiator, Authority.requirePermission, bind_eq_ok, raiseIf_eq_ok,
    pure_eq_ok] at hinitiator
  obtain ⟨_, -, session, hsession, authority, hauthority, _, hpermission, _, hstep, heq⟩ :=
    hinitiator
  cases heq
  have hguarded : Guarded s db (acceptChecks false p) session authority := by
    refine ⟨lookup_of_activeSession hsession, Authority.currentAuthority_eq_ok hauthority, ?_,
      fun hrisky hrecent => hstep ?_⟩
    · show hasPermission db p.actorRef p.requiredPermission (some authority.permissionRevision) =
        true
      simpa using hpermission
    refine (Cond.and_eq_true _ _).mpr ⟨?_, hrecent⟩
    have hcases : p.risk = some "R2" ∨ p.risk = some "R3" := by simpa [acceptChecks] using hrisky
    rcases hcases with h2 | h3
    · simp [h2]
    · simp [h3]
  have h : Authority.replayOrStore D s false p session authority db = .ok (db', ⟨o, false⟩) := h
  unfold Authority.replayOrStore at h
  split at h
  · simp only [bind_eq_ok, pure_eq_ok] at h
    obtain ⟨_, -, heq⟩ := h
    cases heq
  · simp only [Authority.storeOperation, Authority.Db.insertOperation, bind_eq_ok, pure_eq_ok] at h
    obtain ⟨o', ho, db₁, ⟨t, hinsert, rfl⟩, -⟩ := h
    obtain ⟨hreason, hkey, hcorrelation⟩ := operation_texts ho (Table.insert_checked hinsert)
    exact hguarded.admitted (fun hne => hreason (by simpa [acceptChecks] using hne)) hkey
      hcorrelation

theorem admitted_of_approve {D : Digest} {p : ApproveArgs}
    (h : Authority.approveOperation D s p db = .ok (db', some ⟨o, false⟩)) :
    Admitted s db (approveChecks false p) := by
  simp only [Authority.approveOperation, Authority.requirePermission, bind_eq_ok, raiseIf_eq_ok]
    at h
  obtain ⟨_, -, session, hsession, authority, hauthority, _, hpermission, _, hstep, h⟩ := h
  have hguarded : Guarded s db (approveChecks false p) session authority := by
    refine ⟨lookup_of_activeSession hsession, Authority.currentAuthority_eq_ok hauthority, ?_,
      fun _ => hstep⟩
    show hasPermission db p.actorRef (some "console.operation.approve")
      (some authority.permissionRevision) = true
    simpa using hpermission
  unfold Authority.replayOrApprove at h
  split at h
  · simp only [bind_eq_ok, pure_eq_ok, Prod.mk.injEq, Option.map_eq_some_iff] at h
    obtain ⟨_, -, -, _, -, heq⟩ := h
    cases heq
  · simp only [Authority.storeApproval, Authority.newApproval, Authority.Db.insertApproval,
      bind_eq_ok, notNull_eq_ok, pure_eq_ok] at h
    obtain ⟨_, ⟨_, -, _, -, _, -, a, ⟨_, -, reason, hreason, _, -, _, -, key, hkey, correlation,
      hcorrelation, rfl⟩, db₁, ⟨t, hinsert, rfl⟩, -⟩, -⟩ := h
    have hcheck := Table.insert_checked hinsert
    simp only [Authority.approvalSchema, Bool.and_eq_true] at hcheck
    obtain ⟨⟨⟨⟨⟨⟨⟨⟨hlength, -⟩, -⟩, -⟩, -⟩, -⟩, hkeyLength⟩, hcorrelationLength⟩, -⟩ := hcheck
    refine hguarded.admitted (fun _ => ?_) ⟨key, hkey, hkeyLength⟩
      ⟨correlation, hcorrelation, hcorrelationLength⟩
    show between (textLength (btrim (coalesce p.reason ""))) 3 500 = true
    -- the stored reason is trimmed once more by the check
    rw [hreason]
    rw [Js.btrim_btrim] at hlength
    exact hlength

theorem admitted_of_verify {D : Digest} {p : VerifyArgs}
    (h : Authority.verifyExtensionOperation D s p db = .ok (db', some ⟨o, false⟩)) :
    Admitted s db (verifyChecks p) := by
  obtain ⟨⟨session, authority⟩, hverifier, h⟩ := bind_eq_ok.mp h
  simp only [Authority.verifier, Authority.requirePermission, bind_eq_ok, raiseIf_eq_ok,
    pure_eq_ok] at hverifier
  obtain ⟨_, -, session, hsession, authority, hauthority, _, hpermission, heq⟩ := hverifier
  cases heq
  have hguarded : Guarded s db (verifyChecks p) session authority := by
    refine ⟨lookup_of_activeSession hsession, Authority.currentAuthority_eq_ok hauthority, ?_,
      fun hstep => by cases hstep⟩
    show hasPermission db p.actorRef (some "console.operation.verify")
      (some authority.permissionRevision) = true
    simpa using hpermission
  dsimp only at h
  split at h
  · simp only [bind_eq_ok, pure_eq_ok, Prod.mk.injEq, Option.map_eq_some_iff] at h
    obtain ⟨_, -, -, _, -, heq⟩ := h
    cases heq
  · simp only [Authority.storeVerification, Authority.newVerification,
      Authority.Db.insertVerification, bind_eq_ok, notNull_eq_ok, pure_eq_ok] at h
    obtain ⟨_, ⟨_, -, _, -, _, -, x, ⟨_, -, _, -, _, -, key, hkey, correlation, hcorrelation, rfl⟩,
      db₁, ⟨t, hinsert, rfl⟩, -⟩, -⟩ := h
    have hcheck := Table.insert_checked hinsert
    simp only [Authority.verificationReceiptSchema, Bool.and_eq_true] at hcheck
    exact hguarded.admitted (fun hreason => by cases hreason) ⟨key, hkey, hcheck.1.2⟩
      ⟨correlation, hcorrelation, hcheck.2⟩

end Functions

section Guards

variable {D : Digest} {s : Statement} {site : Site} {v : Resolved}

structure CalledBy (v : Resolved) (sessionId actorRef : Option Uuid)
    (permissionRevision revokeEpoch : Option Int) : Prop where
  sessionId : sessionId = some v.session.sessionId
  actorRef : actorRef = some v.session.subjectId
  permissionRevision : permissionRevision = some v.authority.permissionRevision
  revokeEpoch : revokeEpoch = some v.authority.revokeEpoch

theorem Shown.activeSession_ok (hv : Shown s site v)
    {permissionRevision revokeEpoch : Option Int}
    (h : CalledBy v sessionId actorRef permissionRevision revokeEpoch) :
    activeSession s site.db sessionId actorRef = .ok v.session.toBrowserSession := by
  rw [h.sessionId, h.actorRef]
  exact hv.session

theorem Shown.currentAuthority_ok (hv : Shown s site v)
    {permissionRevision revokeEpoch : Option Int}
    (h : CalledBy v sessionId actorRef permissionRevision revokeEpoch) :
    currentAuthority site.db v.session.toBrowserSession actorRef permissionRevision revokeEpoch =
      .ok v.authority := by
  rw [h.actorRef, h.permissionRevision, h.revokeEpoch]
  exact hv.authority

/-- The guards on session, authority and permission pass for an admitted call of the
resolved session. -/
theorem Shown.guarded (hv : Shown s site v) {c : Checks}
    (hsession : c.sessionId = some v.session.sessionId)
    (hactor : c.actorRef = some v.session.subjectId) (h : Admitted s site.db c) :
    Guarded s site.db c v.session.toBrowserSession v.authority := by
  have hstored := lookup_of_activeSession hv.session
  have hknown := Authority.currentAuthority_eq_ok hv.authority
  rw [← hsession] at hstored
  rw [← hactor] at hknown
  exact ⟨hstored, hknown, h.permission _ hknown, fun hstep => h.recentAal2 hstep _ hstored⟩

theorem accept_past_guards (hv : Shown s site v) {d : String}
    (hcaller : CalledBy v p.sessionId p.actorRef p.expectedPermissionRevision
      p.expectedRevokeEpoch)
    (hdigest : p.payloadDigest = some d) (hformat : Authority.digestFormat d = true)
    (hrisk : p.risk = some "R2") (h : Admitted s site.db (acceptChecks false p)) :
    Authority.acceptOperation D s p site.db =
      Authority.replayOrStore D s false p v.session.toBrowserSession v.authority site.db := by
  have hguarded := hv.guarded (c := acceptChecks false p) hcaller.sessionId hcaller.actorRef h
  have hlength := h.reason (by simp [acceptChecks, hrisk])
  have hvalid : Authority.validateRequest p = .ok () := by
    simp only [Authority.validateRequest, bind_eq_ok, raiseIf_eq_ok]
    refine ⟨(), by simp [hdigest, hformat], (), by simp [hrisk], ?_⟩
    have hreason : ¬ textLength (btrim (coalesce p.reason "")) < 3 :=
      Int.not_lt.mpr (of_decide_eq_true hlength).1
    simp [hreason]
  have hpermission := hguarded.permission
  have hrecent := hguarded.recentAal2 (by simp [acceptChecks, hrisk])
  have hinitiator : Authority.initiator s p site.db =
      .ok (v.session.toBrowserSession, v.authority) := by
    simp only [Authority.initiator, Authority.requirePermission, bind_eq_ok, raiseIf_eq_ok,
      pure_eq_ok]
    refine ⟨(), hvalid, _, hv.activeSession_ok hcaller, _, hv.currentAuthority_ok hcaller, (), ?_,
      (), ?_, rfl⟩
    · simpa [acceptChecks] using hpermission
    · exact fun htrue => hrecent ((Cond.and_eq_true _ _).mp htrue).2
  unfold Authority.acceptOperation
  rw [bind_of_ok hinitiator]

theorem approve_past_guards (hv : Shown s site v) {p : ApproveArgs} {t : String}
    (hcaller : CalledBy v p.sessionId p.actorRef p.expectedPermissionRevision
      p.expectedRevokeEpoch)
    (hversion : p.expectedStateVersion = some n) (hn : 0 ≤ n)
    (happroval : p.approvalRevision = some t) (ht : 1 ≤ textLength t ∧ textLength t ≤ 128)
    (h : Admitted s site.db (approveChecks false p)) :
    Authority.approveOperation D s p site.db =
      Authority.replayOrApprove D s false p v.session.toBrowserSession v.authority site.db := by
  have hguarded := hv.guarded (c := approveChecks false p) hcaller.sessionId hcaller.actorRef h
  have hlength := h.reason rfl
  have hvalid : Authority.validateApproval p = .ok () := by
    have hreason : ¬ textLength (btrim (p.reason.getD "")) < 3 :=
      Int.not_lt.mpr (of_decide_eq_true hlength).1
    simp only [Authority.validateApproval, raiseIf_eq_ok, hversion, happroval]
    simp [Cond.any, hreason, coalesce, Int.not_lt.mpr hn, ht.1, ht.2]
  have hpermission : Authority.requirePermission site.db p.actorRef
      (some "console.operation.approve") v.authority.permissionRevision = .ok () := by
    have := hguarded.permission
    simpa [Authority.requirePermission, approveChecks] using this
  have hrecent : raiseIf (notRecentAal2 s v.session.toBrowserSession) Authority.stepUpRequired =
      .ok () := raiseIf_eq_ok.mpr (hguarded.recentAal2 rfl)
  unfold Authority.approveOperation
  rw [bind_of_ok hvalid, bind_of_ok (hv.activeSession_ok hcaller),
    bind_of_ok (hv.currentAuthority_ok hcaller), bind_of_ok hpermission, bind_of_ok hrecent]

/-- `verify_extension_operation` finds its verifier with an admitted call. -/
theorem verify_past_guards (hv : Shown s site v) {p : VerifyArgs}
    (hcaller : CalledBy v p.sessionId p.actorRef p.expectedPermissionRevision
      p.expectedRevokeEpoch)
    (hversion : p.expectedStateVersion = some n) (hn : 0 ≤ n)
    (h : Admitted s site.db (verifyChecks p)) :
    Authority.verifier s p site.db = .ok (v.session.toBrowserSession, v.authority) := by
  have hguarded := hv.guarded (c := verifyChecks p) hcaller.sessionId hcaller.actorRef h
  have hpermission := hguarded.permission
  obtain ⟨key, hkey, hkeyLength⟩ := h.key
  obtain ⟨correlation, hcorrelation, hcorrelationLength⟩ := h.correlation
  have hkey : p.idempotencyKey = some key := hkey
  have hcorrelation : p.correlationId = some correlation := hcorrelation
  simp only [between, decide_eq_true_eq] at hkeyLength hcorrelationLength
  simp only [Authority.verifier, Authority.requirePermission, bind_eq_ok, raiseIf_eq_ok,
    pure_eq_ok, Authority.validateVerification]
  refine ⟨(), ?_, _, hv.activeSession_ok hcaller, _, hv.currentAuthority_ok hcaller, (), ?_, rfl⟩
  · simp [Cond.any, hversion, hkey, hcorrelation, Int.not_lt.mpr hn, Authority.lengthOutside,
      coalesce, hkeyLength, hcorrelationLength]
  · simpa [verifyChecks] using hpermission

end Guards

/-! ## What is submitted -/

/-- The values of a request that both sides check. -/
structure Submission where
  reason : Value
  idempotencyKey : Value
  correlationId : Value
  permission : String
  risk : String
  localDevelopmentModuleInstall : Bool

structure Texts where
  reason : String
  idempotencyKey : String
  correlationId : String

structure Submission.Normal (q : Submission) (t : Texts) : Prop where
  reason : normalize q.reason = .ok t.reason
  key : normalize q.idempotencyKey = .ok t.idempotencyKey
  correlation : normalize q.correlationId = .ok t.correlationId

/-- The normalized value has no character outside the basic plane. -/
def Plain (x : Value) : Prop := ∀ t, normalize x = .ok t → Js.Basic t

/-- All three texts are of the basic plane. -/
structure Submission.Plain (q : Submission) : Prop where
  reason : FrontDoor.Plain q.reason
  key : FrontDoor.Plain q.idempotencyKey
  correlation : FrontDoor.Plain q.correlationId

def Submission.authorization (q : Submission) (reason : String) : Authorization where
  permission := q.permission
  risk := q.risk
  reason := reason
  localDevelopmentModuleInstall := q.localDevelopmentModuleInstall

def Submission.checks (q : Submission) (v : Resolved) (t : Texts) : Checks where
  sessionId := some v.session.sessionId
  actorRef := some v.session.subjectId
  reason := some t.reason
  reasonRequired := decide (q.risk ≠ "R0")
  idempotencyKey := some t.idempotencyKey
  correlationId := some t.correlationId
  permission := some q.permission
  stepUp := (decide (q.risk = "R2") || decide (q.risk = "R3")) &&
    !moduleException (q.authorization t.reason)

/-- The service accepts the texts and authorizes the session. -/
structure Submission.Passes (q : Submission) (v : Resolved) (now : Int) (t : Texts) : Prop where
  reason : q.risk ≠ "R0" → text q.reason "reason" 3 500 = .ok t.reason
  key : text q.idempotencyKey "Idempotency-Key" 8 256 = .ok t.idempotencyKey
  correlation : text q.correlationId "correlationId" 8 128 = .ok t.correlationId
  authorized : authorizeOperation (sessionOf v) now (q.authorization t.reason) =
    .ok v.session.subjectId

section Submissions

variable {s : Statement} {site : Site} {v : Resolved} {q : Submission} {t : Texts} {now : Int}

theorem Submission.Passes.admitted (h : q.Passes v now t) (hv : Shown s site v) (hn : q.Normal t)
    (hplain : q.Plain) : Admitted s site.db (q.checks v t) := by
  obtain ⟨-, -, hpermission, -, -, hstep⟩ := (authorize_iff hv).mp h.authorized
  have hguarded : Guarded s site.db (q.checks v t) v.session.toBrowserSession v.authority := by
    refine ⟨lookup_of_activeSession hv.session, Authority.currentAuthority_eq_ok hv.authority,
      hpermission, fun hrisky => ?_⟩
    simp only [Submission.checks, Bool.and_eq_true, Bool.or_eq_true, decide_eq_true_eq,
      Bool.not_eq_true'] at hrisky
    exact hstep hrisky.1 hrisky.2
  refine hguarded.admitted (fun hreq => ?_) ⟨_, rfl, ?_⟩ ⟨_, rfl, ?_⟩
  · show between (textLength (btrim t.reason)) 3 500 = true
    rw [btrim_of_normalize hn.reason]
    exact (text_iff_between hn.reason (hplain.reason _ hn.reason)).mp
      (h.reason (of_decide_eq_true hreq))
  · exact (text_iff_between hn.key (hplain.key _ hn.key)).mp h.key
  · exact (text_iff_between hn.correlation (hplain.correlation _ hn.correlation)).mp h.correlation

theorem passes_of_admitted (hv : Shown s site v) (hn : q.Normal t) (hplain : q.Plain)
    (hnow : now < instant v.session.expiresAt) (hrisk : q.risk ∈ risks)
    (h : Admitted s site.db (q.checks v t)) : q.Passes v now t := by
  have hguarded := hv.guarded rfl rfl h
  have hreason : q.risk ≠ "R0" → text q.reason "reason" 3 500 = .ok t.reason := by
    intro hne
    have hlength : between (textLength (btrim t.reason)) 3 500 = true :=
      h.reason (decide_eq_true hne)
    rw [btrim_of_normalize hn.reason] at hlength
    exact (text_iff_between hn.reason (hplain.reason _ hn.reason)).mpr hlength
  obtain ⟨_, hkey, hkeyLength⟩ := h.key
  obtain ⟨_, hcorrelation, hcorrelationLength⟩ := h.correlation
  cases hkey
  cases hcorrelation
  refine ⟨hreason, (text_iff_between hn.key (hplain.key _ hn.key)).mpr hkeyLength,
    (text_iff_between hn.correlation (hplain.correlation _ hn.correlation)).mpr
      hcorrelationLength, (authorize_iff hv).mpr ⟨rfl, hnow, hguarded.permission, hrisk, ?_, ?_⟩⟩
  · -- a reason of three units is not empty
    by_cases hr0 : q.risk = "R0"
    · exact .inl hr0
    · refine .inr fun hempty => ?_
      have hlength := (text_eq_ok.mp (hreason hr0)).2.1
      have hnone : t.reason = "" := by
        rw [← trim_of_normalize hn.reason]
        exact hempty
      rw [hnone] at hlength
      exact absurd hlength (by decide)
  · intro hrisky hno
    have hno : moduleException (q.authorization t.reason) = false := hno
    have hrisky : q.risk = "R2" ∨ q.risk = "R3" := hrisky
    refine hguarded.recentAal2 ?_
    simp [Submission.checks, hno, hrisky]

end Submissions

end FrontDoor
