import OpenSphere.Properties.ShellStates

/-!
# The kill switch

While the feature is off no session is wanted and nothing attaches.  A scale-down
is claimed only when every session has ended, and no session starts before the
feature is on again.  The claim is held under one token until it expires.  Its
completion compares four arguments with the control row in an `OR` over nullable
values, so that an argument left NULL is not compared at all.
-/

open Sql

namespace ConsoleShell

variable {C : ShellCrypto} {t : Clock} {db db' : Shell} {c : Call} {r r' : ShellSession}

def Shell.Ended (db : Shell) : Prop := ∀ r ∈ db.sessions.rows, r.observedState = .terminated

/-- The scale-down of an operation that turned the feature off is claimed or completed. -/
def ControlState.ScaledDown (s : ControlState) : Prop :=
  s.operationPhase = some .scaleDownClaimed ∨
    s.operationPhase = some .completed ∧ s.operationKind = some .disable

/-- The current claim of a scale-down at a time, with everything that names it. -/
structure ControlState.Holds (s : ControlState) (now : Timestamp) (p : ScaleDownArgs) : Prop where
  phase : s.operationPhase = some .scaleDownClaimed
  kind : s.operationKind = some .disable
  token : ∃ k, s.scaleClaimToken = some k ∧ p.scaleClaimToken = some k
  operation : ∃ k, s.operationId = some k ∧ p.operationId = some k
  identity : ∃ x, s.operationIdentity = some x ∧ p.actorIdentity = some x
  revision : p.expectedRevision = some s.revision
  unexpired : ∃ e, s.scaleClaimExpiresAt = some e ∧ now < e

structure Switch (db : Shell) : Prop where
  unwanted : db.control.enabled = false → ∀ r ∈ db.sessions.rows, r.desiredState = .terminated
  ended : ∀ r ∈ db.sessions.rows, r.observedState = .terminated → r.desiredState = .terminated
  scaledDown : db.control.ScaledDown → db.control.enabled = false ∧ db.Ended
  claimed : db.control.operationPhase = some .scaleDownClaimed →
    db.control.operationKind = some .disable ∧ db.control.scaleClaimToken ≠ none

/-! ## The control row -/

theorem Control.operation_set (s : Control) (h : s.operationPhase ≠ none) :
    s.operationId ≠ none ∧ s.operationKind ≠ none ∧ s.operationIdentity ≠ none := by
  have hchecked := s.checked
  simp only [controlCheck, operationCheck, Bool.and_eq_true] at hchecked
  obtain ⟨-, ⟨⟨-, hcolumns⟩, -⟩, -⟩ := hchecked
  rcases Bool.or_eq_true_iff.mp hcolumns with hnull | hset
  · simp only [Bool.and_eq_true, Option.isNone_iff_eq_none] at hnull
    exact absurd hnull.1.1.1.1.1.2 h
  · simp only [Bool.and_eq_true, Option.isSome_iff_ne_none] at hset
    exact ⟨hset.1.1.1.1, hset.1.1.1.2, hset.1.2⟩

theorem Control.operation_unset (s : Control) (h : s.operationPhase = none) :
    s.operationId = none := by
  have hchecked := s.checked
  simp only [controlCheck, operationCheck, Bool.and_eq_true] at hchecked
  obtain ⟨-, ⟨⟨-, hcolumns⟩, -⟩, -⟩ := hchecked
  rcases Bool.or_eq_true_iff.mp hcolumns with hnull | hset
  · simp only [Bool.and_eq_true, Option.isNone_iff_eq_none] at hnull
    exact hnull.1.1.1.1.1.1.1
  · simp only [Bool.and_eq_true, Option.isSome_iff_ne_none] at hset
    exact absurd h hset.1.1.2

theorem Control.token_expires (s : Control) (h : s.scaleClaimToken ≠ none) :
    s.scaleClaimExpiresAt ≠ none := by
  have hchecked := s.checked
  simp only [controlCheck, operationCheck, Bool.and_eq_true, beq_iff_eq] at hchecked
  obtain ⟨-, ⟨⟨-, -⟩, hboth⟩, -⟩ := hchecked
  intro hnone
  rw [hnone, Option.isNone_none, Option.isNone_iff_eq_none] at hboth
  exact h hboth

theorem Control.token_phase (s : Control) (h : s.scaleClaimToken ≠ none) :
    s.operationPhase = some .scaleDownClaimed := by
  have hchecked := s.checked
  simp only [controlCheck, operationCheck, Bool.and_eq_true, bne_iff_ne] at hchecked
  obtain ⟨-, ⟨⟨-, hcolumns⟩, -⟩, hclaim⟩ := hchecked
  cases hphase : s.operationPhase with
  | none =>
      simp only [hphase, Option.isSome_none, Bool.and_false, Bool.false_and, Bool.or_false,
        Bool.and_eq_true, Option.isNone_iff_eq_none] at hcolumns
      exact absurd hcolumns.1.2 h
  | some phase =>
      by_contra hother
      refine hclaim ?_
      rw [hphase, Cond.or_eq_false, eq_eq_false, Cond.and_eq_false]
      refine ⟨⟨phase, .scaleDownClaimed, rfl, rfl, fun he => hother (by rw [he])⟩, .inl ?_⟩
      simpa [isNull] using Option.isSome_iff_ne_none.mpr h

/-! ## One step -/

theorem Change.ended (h : Change C t db c r r')
    (hr : r.observedState = .terminated → r.desiredState = .terminated)
    (hended : r'.observedState = .terminated) : r'.desiredState = .terminated := by
  cases h with
  | teardown | revoked | disabled => rfl
  | claimed | registered | touched | attached => exact hr hended
  | renewed =>
      simp only [Shell.renewed]
      split
      · rfl
      · exact hr hended
  | reprojected => cases hended
  | @moved p r revision next =>
      obtain rfl : next = .terminated := hended
      simp [ShellSession.moved]

/-- A session after a call was there before, or was created while the feature was on. -/
theorem SessionsStep.mem {sessions : Table shellSessionSchema}
    (h : SessionsStep C t db c sessions) {y : ShellSession} (hy : y ∈ sessions.rows) :
    (∃ x ∈ db.sessions.rows, y = x ∨ Change C t db c x y) ∨
      db.control.enabled = true ∧ y.observedState = .pending := by
  rcases h with hchanges | ⟨p, r, rfl, hcreated, hinsert⟩
  · exact .inl (exists_of_forall₂ hchanges hy)
  · rw [Table.insert_rows hinsert, List.mem_append, List.mem_singleton] at hy
    rcases hy with hold | rfl
    · exact .inl ⟨y, hold, .inl rfl⟩
    · exact .inr ⟨hcreated.enabled, (newSession_row hcreated.row).1⟩

theorem CallStep.ended (h : CallStep C t db c db') (hdb : Switch db) :
    ∀ r ∈ db'.sessions.rows, r.observedState = .terminated → r.desiredState = .terminated := by
  intro y hy hended
  rcases h.sessions.mem hy with ⟨x, hx, rfl | hchange⟩ | ⟨-, hpending⟩
  · exact hdb.ended y hx hended
  · exact hchange.ended (hdb.ended x hx) hended
  · rw [hended] at hpending
    cases hpending

/-- While the feature is off a call keeps sessions that are not wanted, and sessions that
have ended. -/
theorem CallStep.off (h : CallStep C t db c db') (hoff : db.control.enabled = false)
    {y : ShellSession} (hy : y ∈ db'.sessions.rows) : ∃ x ∈ db.sessions.rows, Later x y := by
  rcases h.sessions.mem hy with ⟨x, hx, rfl | hchange⟩ | ⟨hon, -⟩
  · exact ⟨y, hx, .refl y⟩
  · exact ⟨x, hx, hchange.later⟩
  · rw [hoff] at hon
    cases hon

theorem CallStep.stays_ended (h : CallStep C t db c db') (hoff : db.control.enabled = false)
    (hended : db.Ended) : db'.Ended := by
  intro y hy
  obtain ⟨x, hx, hlater⟩ := h.off hoff hy
  exact hlater.observed (hended x hx)

theorem CallStep.stays_unwanted (h : CallStep C t db c db') (hoff : db.control.enabled = false)
    (hdb : Switch db) : ∀ r ∈ db'.sessions.rows, r.desiredState = .terminated := by
  intro y hy
  obtain ⟨x, hx, hlater⟩ := h.off hoff hy
  exact hlater.desired (hdb.unwanted hoff x hx)

/-- Turning the feature off ends the wish for every session. -/
theorem Applied.unwanted (h : Applied t db false db') (hdb : Switch db) :
    ∀ r ∈ db'.sessions.rows, r.desiredState = .terminated := by
  intro y hy
  rcases h.sessions with ⟨hon, -⟩ | ⟨-, ⟨hsame, hoff⟩ | hupdate⟩
  · cases hon
  · exact hdb.unwanted hoff y (hsame ▸ hy)
  · obtain ⟨x, -, hx, rfl⟩ := exists_of_forall₂ (Table.updateWhere_forall₂ hupdate) hy
    split
    · rfl
    next hkept =>
      -- a session the switch passes over has ended, or is not wanted already
      cases hdesired : x.desiredState with
      | terminated => rfl
      | running =>
          refine absurd (hdb.ended x hx ?_) (by simp [hdesired])
          by_contra hlive
          exact hkept (by simp [ShellSession.ends, hlive, hdesired])

theorem Operated.switch_off {kind : Option OperationKind} {phase : Option OperationPhase}
    (h : Operated t db false kind phase db')
    (hended : ∀ r ∈ db'.sessions.rows, r.observedState = .terminated →
      r.desiredState = .terminated)
    (hphase : phase ≠ some .scaleDownClaimed ∧ phase ≠ some .completed) (hdb : Switch db) :
    Switch db' where
  unwanted _ := h.toApplied.unwanted hdb
  ended := hended
  scaledDown hdown := by
    rw [ControlState.ScaledDown, h.operationPhase] at hdown
    rcases hdown with hclaimed | ⟨hcompleted, -⟩
    · exact absurd hclaimed hphase.1
    · exact absurd hcompleted hphase.2
  claimed hclaimed := by
    rw [h.operationPhase] at hclaimed
    exact absurd hclaimed hphase.1

theorem Claimed.off {p : ScaleDownArgs} {control : Control} (h : Claimed t db p control) :
    db.control.enabled = false ∧ db.control.operationKind = some .disable ∧ db.Ended := by
  obtain ⟨drained, expiresAt, hrow⟩ := h.row
  have hset : db.control.operationKind ≠ none := by
    have hcolumns := control.operation_set (by rw [hrow]; exact Option.some_ne_none _)
    rw [hrow] at hcolumns
    exact hcolumns.2.1
  refine ⟨?_, ne_passed_of_set (h.lost _ (by simp [scaleDownLost])) hset, fun r hr => ?_⟩
  · exact decided_passed (h.lost _ (by simp [scaleDownLost]))
  · have hnone := h.drained
    rw [Shell.liveSessions, List.length_eq_zero_iff, List.filter_eq_nil_iff] at hnone
    by_contra hlive
    exact hnone r hr (by simp [ShellSession.live, hlive])

theorem completed_phase {p : ScaleDownArgs} {control : Control}
    (hpassed : ∀ c ∈ scaleDownLost db.control.toControlState p ++
      [ne db.control.operationPhase (some .scaleDownClaimed),
        ne db.control.scaleClaimToken p.scaleClaimToken,
        le db.control.scaleClaimExpiresAt (some t.start)], c ≠ some true)
    (hrow : control.toControlState = { db.control.toControlState with
      operationPhase := some .completed
      operationCompletedAt := some t.start
      scaleClaimToken := none
      scaleClaimExpiresAt := none }) :
    db.control.operationPhase = some .scaleDownClaimed := by
  refine ne_passed_of_set (hpassed _ (by simp)) fun hnone => ?_
  -- without an operation the completed row would have a phase but no operation
  have hcolumns := control.operation_set (by rw [hrow]; exact Option.some_ne_none _)
  rw [hrow] at hcolumns
  exact hcolumns.1 (db.control.operation_unset hnone)

theorem CallStep.switch (h : CallStep C t db c db') (hdb : Switch db) : Switch db' := by
  have hended := h.ended hdb
  cases h.control with
  | kept hkept =>
      obtain ⟨drained, hrow⟩ := hkept
      have hscaled : db'.control.ScaledDown ↔ db.control.ScaledDown := by
        rw [ControlState.ScaledDown, hrow]
        exact Iff.rfl
      refine ⟨fun hoff => ?_, hended, fun hdown => ?_, fun hphase => ?_⟩
      · rw [hrow] at hoff
        exact h.stays_unwanted hoff hdb
      · obtain ⟨hoff, hall⟩ := hdb.scaledDown (hscaled.mp hdown)
        rw [hrow]
        exact ⟨hoff, h.stays_ended hoff hall⟩
      · rw [hrow] at hphase ⊢
        exact hdb.claimed hphase
  | on hon =>
      refine ⟨fun hoff => ?_, hended, fun hdown => ?_, fun hphase => ?_⟩
      · rw [hon.switch] at hoff
        cases hoff
      · rw [ControlState.ScaledDown, hon.operationPhase, hon.operationKind] at hdown
        rcases hdown with hdown | ⟨-, hdown⟩ <;> cases hdown
      · rw [hon.operationPhase] at hphase
        cases hphase
  | off hoff | draining hoff => exact hoff.switch_off hended (by decide) hdb
  | claimed hclaimed =>
      obtain ⟨hoff, hkind, hall⟩ := hclaimed.off
      have htoken := hclaimed.token
      obtain ⟨drained, expiresAt, hrow⟩ := hclaimed.row
      refine ⟨fun _ => h.stays_unwanted hoff hdb, hended, fun _ => ?_, fun _ => ?_⟩
      · rw [hrow]
        exact ⟨hoff, h.stays_ended hoff hall⟩
      · rw [hrow]
        exact ⟨hkind, htoken⟩
  | completed hpassed hrow =>
      obtain ⟨hoff, hall⟩ := hdb.scaledDown (.inl (completed_phase hpassed hrow))
      refine ⟨fun _ => h.stays_unwanted hoff hdb, hended, fun _ => ?_, fun hphase => ?_⟩
      · rw [hrow]
        exact ⟨hoff, h.stays_ended hoff hall⟩
      · rw [hrow] at hphase
        cases hphase

/-! ## Along a run -/

theorem perform_switch (C : ShellCrypto) (a : Action) (db : Shell) (hdb : Switch db) :
    Switch (perform C a db) := by
  rcases perform_step C a db with ⟨hsessions, -, hcontrol⟩ | ⟨t, c, rfl, -, hstep⟩
  · refine ⟨?_, ?_, ?_, ?_⟩
    · rw [hsessions, hcontrol]
      exact hdb.unwanted
    · rw [hsessions]
      exact hdb.ended
    · rw [Shell.Ended, hsessions, hcontrol]
      exact hdb.scaledDown
    · rw [hcontrol]
      exact hdb.claimed
  · exact hstep.switch hdb

theorem installed_switch (site : ConsoleIdentity.Site) (changedAt : Timestamp)
    (migration : AppliedMigration) : Switch (Shell.installed site changedAt migration) where
  unwanted _ _ hr := by cases hr
  ended _ hr := by cases hr
  scaledDown _ := ⟨rfl, fun _ hr => by cases hr⟩
  claimed hphase := by cases hphase

theorem Reachable.switch (h : Reachable C db) : Switch db := by
  obtain ⟨site, changedAt, migration, as, rfl⟩ := h
  exact System.run_invariant (perform_switch C) (installed_switch site changedAt migration) as

theorem perform_stays_ended (C : ShellCrypto) (a : Action) (db : Shell)
    (hoff : db.control.enabled = false) (hended : db.Ended) : (perform C a db).Ended := by
  rcases perform_step C a db with ⟨hsessions, -⟩ | ⟨t, c, rfl, -, hstep⟩
  · rw [Shell.Ended, hsessions]
    exact hended
  · exact hstep.stays_ended hoff hended

theorem run_stays_ended (C : ShellCrypto) (as : List Action) (db : Shell) (hended : db.Ended)
    (hoff : ∀ n, (System.run (perform C) (as.take n) db).control.enabled = false) :
    (System.run (perform C) as db).Ended := by
  induction as generalizing db with
  | nil => exact hended
  | cons a as ih =>
      exact ih (perform C a db) (perform_stays_ended C a db (hoff 0) hended)
        fun n => hoff (n + 1)

/-! ## The claim of a scale-down -/

theorem CallStep.token (h : CallStep C t db c db') {k k' : Uuid} {e : Timestamp}
    (hphase : db.control.operationPhase = some .scaleDownClaimed)
    (hk : db.control.scaleClaimToken = some k) (he : db.control.scaleClaimExpiresAt = some e)
    (hunexpired : t.start < e) (hk' : db'.control.scaleClaimToken = some k') : k' = k := by
  have hclaims : db'.control.operationPhase = some .scaleDownClaimed :=
    db'.control.token_phase (by rw [hk']; exact Option.some_ne_none _)
  cases h.control with
  | kept hkept =>
      obtain ⟨drained, hrow⟩ := hkept
      rw [hrow] at hk'
      exact Option.some.inj (hk'.symm.trans hk)
  | on hon =>
      rw [hon.operationPhase] at hclaims
      cases hclaims
  | off hoff | draining hoff =>
      rw [hoff.operationPhase] at hclaims
      cases hclaims
  | @claimed p _ _ hclaimed =>
      obtain ⟨drained, expiresAt, hrow⟩ := hclaimed.row
      have hp : p.scaleClaimToken = some k' := by rw [← hk', hrow]
      by_contra hother
      refine hclaimed.free ?_
      rw [hphase, hk, he, hp, Cond.all_eq_true]
      simp [hunexpired, Ne.symm hother]
  | completed _ hrow =>
      rw [hrow] at hk'
      cases hk'

/-- A completion that commits is one of the current claim if and only if none of its
arguments is NULL. -/
theorem complete_holds {p : ScaleDownArgs} (hdb : Switch db)
    (h : completeShellFeatureScaleDown t p db = .ok db') :
    db.control.Holds t.start p ↔ p.operationId ≠ none ∧ p.expectedRevision ≠ none ∧
      p.actorIdentity ≠ none ∧ p.scaleClaimToken ≠ none := by
  obtain ⟨control, events, hpassed, hrow, rfl⟩ := complete_eq_ok h
  have hphase := completed_phase hpassed hrow
  have hphaseSet : db.control.operationPhase ≠ none := by simp [hphase]
  obtain ⟨hkind, htoken⟩ := hdb.claimed hphase
  obtain ⟨hid, -, hidentity⟩ := db.control.operation_set hphaseSet
  constructor
  · intro hholds
    obtain ⟨k, -, hk⟩ := hholds.token
    obtain ⟨o, -, ho⟩ := hholds.operation
    obtain ⟨x, -, hx⟩ := hholds.identity
    have hrevision := hholds.revision
    simp [hk, ho, hx, hrevision]
  · rintro ⟨hpid, hprevision, hpidentity, hptoken⟩
    obtain ⟨e, he⟩ := Option.ne_none_iff_exists'.mp (db.control.token_expires htoken)
    refine ⟨hphase, hkind, compared (hpassed _ (by simp)) htoken hptoken,
      compared (hpassed _ (by simp [scaleDownLost])) hid hpid,
      compared (hpassed _ (by simp [scaleDownLost])) hidentity hpidentity, ?_, e, he, ?_⟩
    · obtain ⟨n, hn, hpn⟩ := compared (hpassed _ (by simp [scaleDownLost]))
        (Option.some_ne_none db.control.revision) hprevision
      rw [hpn, hn]
    · have hlate := hpassed (le db.control.scaleClaimExpiresAt (some t.start)) (by simp)
      rw [he] at hlate
      by_contra hpast
      exact hlate (by simpa using not_lt.mp hpast)

/-! ## Attaching -/

/-- Nothing attaches while the feature is off. -/
structure Shell.Closed (C : ShellCrypto) (db : Shell) : Prop where
  issue : ∀ t p out, issueShellAttachTicket C t p db ≠ .ok out
  consume : ∀ t p db' out, consumeShellAttachTicket C t p db = .ok (db', out) →
    out = none ∧ db' = db
  authorize : ∀ t ticketHash p db' out,
    authorizeShellRuntimeAttach C t ticketHash p db = .ok (db', out) → out = none ∧ db' = db

theorem closed_of_off (hoff : db.control.enabled = false) : db.Closed C where
  issue t p out h := by
    obtain ⟨r, tickets, events, hissued, -⟩ := issue_eq_ok h
    exact absurd hissued.enabled (by simp [hoff])
  consume t p db' out h := by
    rcases consume_eq_ok h with hnothing | ⟨r, x, _, _, _, -, hconsumed, -⟩
    · exact hnothing
    · exact absurd (shellActorHasPermission_enabled hconsumed.attach) (by simp [hoff])
  authorize t ticketHash p db' out h := by
    rcases authorize_eq_ok h with hnothing | ⟨r, x, _, -, hauthorized, -⟩
    · exact hnothing
    · exact absurd (shellActorHasPermission_enabled hauthorized.attach) (by simp [hoff])

/-- The kill switch, in every state the system can be in and for every call of it.  While the
feature is off no session is wanted and nothing attaches.  From a claimed or completed
scale-down on every session has ended, until the feature is on again.  An unexpired token is
not replaced by another.  A completion that commits names the current claim if and only if
none of its four arguments is NULL. -/
theorem kill_switch (C : ShellCrypto) (db : Shell) (hdb : Reachable C db) :
    (db.control.enabled = false →
      (∀ r ∈ db.sessions.rows, r.desiredState = .terminated) ∧ db.Closed C) ∧
    (db.control.ScaledDown → ∀ as,
      (∀ n, (System.run (perform C) (as.take n) db).control.enabled = false) →
        (System.run (perform C) as db).Ended) ∧
    (∀ (t : Clock) (c : Call) db' k k' e, c.exec C t db = .ok db' → db.control.scaleClaimToken = some k →
      db.control.scaleClaimExpiresAt = some e → t.start < e →
      db'.control.scaleClaimToken = some k' → k' = k) ∧
    ∀ t p db', completeShellFeatureScaleDown t p db = .ok db' →
      (db.control.Holds t.start p ↔ p.operationId ≠ none ∧ p.expectedRevision ≠ none ∧
        p.actorIdentity ≠ none ∧ p.scaleClaimToken ≠ none) := by
  have hswitch := hdb.switch
  refine ⟨fun hoff => ⟨hswitch.unwanted hoff, closed_of_off hoff⟩, fun hdown as hoff => ?_,
    fun t c db' k k' e hexec hk he hunexpired hk' => ?_, fun t p db' h => complete_holds hswitch h⟩
  · exact run_stays_ended C as db (hswitch.scaledDown hdown).2 hoff
  · have hphase := db.control.token_phase (by rw [hk]; exact Option.some_ne_none _)
    exact (call_step hexec).token hphase hk he hunexpired hk'

namespace Demo

open Authority.Demo

/-- The evidence the release controller turns the feature off with. -/
def edgeEvidence : Jsonb := .object [
  ("authority", .ofText "kubernetes-workload"),
  ("channel", .ofText "edge"),
  ("componentSetDigest", .ofText migration.migrationSetDigest),
  ("gaEligible", ⟨.bool false, rfl⟩),
  ("latestMigrationId", .ofText "0035"),
  ("migrationSetDigest", .ofText migration.migrationSetDigest),
  ("publicationSha256", .ofText migration.migrationSetDigest),
  ("releaseIntentKeyId", .ofText "opensphere-edge-local-v1"),
  ("releaseIntentSha256", .ofText migration.migrationSetDigest),
  ("releaseIntentSignatureSha256", .ofText migration.migrationSetDigest),
  ("sourceRevision", .ofText migration.sourceRevision)]

/-- The release controller turns the feature off. -/
def drain : Action := .call (clock 3) (.setShellFeatureStateLocalEdge {
  enabled := some false
  expectedRevision := some 1
  reason := some "Scale the control workloads down"
  actorIdentity := some localEdgeRelease
  operationEvidence := some edgeEvidence
  operationId := some ⟨31⟩ })

def scaleDown : ScaleDownArgs where
  operationId := some ⟨31⟩
  expectedRevision := some 2
  actorIdentity := some localEdgeRelease
  scaleClaimToken := some ⟨32⟩

def scaling : List Action :=
  [drain, .call (clock 4) (.claimShellFeatureScaleDown scaleDown (some 120))]

end Demo

/-- The release controller completes the scale-down it has claimed. -/
theorem demo_scale_down :
    ∃ db', completeShellFeatureScaleDown (Demo.clock 5) Demo.scaleDown
        (Demo.after Demo.scaling) = .ok db' ∧
      (Demo.after Demo.scaling).control.Holds (Demo.clock 5).start Demo.scaleDown := by
  have hrun : (completeShellFeatureScaleDown (Demo.clock 5) Demo.scaleDown
      (Demo.after Demo.scaling)).isOk = true := by
    decide
  obtain ⟨db', hok⟩ := isOk_iff.mp hrun
  refine ⟨db', hok, ?_⟩
  have hcompletes := (kill_switch Demo.crypto _ (Demo.after_reachable Demo.scaling)).2.2.2
  exact (hcompletes _ _ _ hok).mpr ⟨by simp [Demo.scaleDown], by simp [Demo.scaleDown],
    by simp [Demo.scaleDown], by simp [Demo.scaleDown]⟩

/-- A call without any argument completes the scale-down that another has claimed. -/
theorem scale_down_completed_by_anyone :
    Reachable Demo.crypto (Demo.after Demo.scaling) ∧
      ∃ db', completeShellFeatureScaleDown (Demo.clock 5) ⟨none, none, none, none⟩
          (Demo.after Demo.scaling) = .ok db' ∧
        ¬ (Demo.after Demo.scaling).control.Holds (Demo.clock 5).start ⟨none, none, none, none⟩ := by
  have hrun : (completeShellFeatureScaleDown (Demo.clock 5) ⟨none, none, none, none⟩
      (Demo.after Demo.scaling)).isOk = true := by
    decide
  obtain ⟨db', hok⟩ := isOk_iff.mp hrun
  refine ⟨Demo.after_reachable _, db', hok, fun hholds => ?_⟩
  obtain ⟨k, -, hk⟩ := hholds.token
  cases hk

end ConsoleShell
