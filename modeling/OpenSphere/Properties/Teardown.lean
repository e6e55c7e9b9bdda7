import OpenSphere.Js.Text
import OpenSphere.Properties.ShellQuota

/-!
# Teardown and attaching

Four functions take the right to attach away: they set the expiry of the
outstanding tickets to `v_now`, which they have read before they waited for the
row.  A ticket must expire after it was created, so a ticket issued in the
meantime makes the whole call fail.  Once its own conditions hold, that is the
only way such a call can fail.
-/

open Sql

namespace ConsoleShell

variable {C : ShellCrypto} {t : Clock} {db db' : Shell} {r : ShellSession}
variable {p : ApplyArgs} {evidence : Jsonb} {now : Timestamp}

/-- A call that takes the right to attach away. -/
inductive Ending where
  | teardown (p : TeardownArgs)
  | revoke (f : Fence) (reasonCode : Option String)
  | reproject (p : ReprojectArgs)
  | apply (p : ApplyArgs)

def Ending.exec (C : ShellCrypto) (t : Clock) (db : Shell) : Ending → Except SqlError Shell
  | .teardown p => (·.1) <$> requestShellSessionTeardown C t p db
  | .revoke f reasonCode => (·.1) <$> revokeShellSessionAuthority C t f reasonCode db
  | .reproject p => (·.1) <$> reprojectShellRuntime t p db
  | .apply p => applyShellFeatureState t p db

def Ending.expires : Ending → AttachTicket → Bool
  | .teardown p, x => decide (some x.sessionId = p.sessionId) && x.consumedAt.isNone
  | .revoke f _, x => decide (some x.sessionId = f.sessionId) && x.runtimeAuthorizedAt.isNone
  | .reproject p, x =>
      decide (some x.sessionId = p.fence.sessionId) && x.runtimeAuthorizedAt.isNone
  | .apply _, x => x.consumedAt.isNone

/-- What a call asks of its caller and of the session: all its checks but those on the
tickets, and room in the counter it raises. -/
inductive Ending.Ready (C : ShellCrypto) (t : Clock) (db : Shell) : Ending → Prop
  | teardown {p : TeardownArgs} {r : ShellSession} {code : String}
      (authority : CurrentRevision C db.site p.actorId p.permissionRevision)
      (named : db.sessions.lookup p.sessionId = some r)
      (own : teardownForeign r p ≠ some true)
      (reason : p.reasonCode = some code) (format : reasonCodeFormat code = true) :
      Ready C t db (.teardown p)
  | revoke {f : Fence} {code : String} {r : ShellSession} {revision : String}
      (named : db.sessions.lookup f.sessionId = some r)
      (admitted : Cond.any (fenceLost t.start r f ++
        [some (decide (r.observedState = .terminated))]) ≠ some true)
      (current : currentShellPermissionRevision C db.site (some r.actorId) = .ok revision)
      (format : reasonCodeFormat code = true) :
      Ready C t db (.revoke f (some code))
  | reproject {p : ReprojectArgs} {r : ShellSession} {code : String}
      (named : db.sessions.lookup p.fence.sessionId = some r)
      (admitted : reprojectRefused t.start r p ≠ some true)
      (room : r.generation < maxBigint)
      (reason : p.reasonCode = some code) (format : reasonCodeFormat code = true) :
      Ready C t db (.reproject p)
  | apply {p : ApplyArgs}
      (off : p.enabled = some false)
      (valid : applyInvalid p ≠ some true)
      (revision : p.expectedRevision = some db.control.revision)
      (room : db.control.revision < maxBigint)
      (evidence : p.operationEvidence ≠ none)
      (actor : ∀ u, p.actorId = some u → u ∈ db.site.users) :
      Ready C t db (.apply p)

/-! ## Rows -/

theorem teardown_checked {revision : String}
    (h : shellSessionSchema.check r = true) (hrevision : Authority.digestFormat revision = true) :
    shellSessionSchema.check (r.teardown now revision) = true := by
  simp only [shellSessionSchema, Bool.and_eq_true] at h ⊢
  obtain ⟨⟨⟨⟨⟨⟨⟨hbinding, hgeneration⟩, hepoch⟩, -⟩, hruntime⟩, hlease⟩, hlifetime⟩, herror⟩ := h
  refine ⟨⟨⟨⟨⟨⟨⟨hbinding, hgeneration⟩, hepoch⟩, hrevision⟩, hruntime⟩, hlease⟩, ?_⟩, herror⟩
  simp only [lifetimeCheck, Bool.and_eq_true] at hlifetime ⊢
  exact ⟨hlifetime.1, by simp [ShellSession.teardown]⟩

theorem teardown_guarded {revision : String} :
    Guarded r (r.teardown now revision) where
  sessionId := rfl
  browserSessionId := rfl
  actorId := rfl
  template := rfl
  origin := rfl
  release := rfl
  generation := le_refl _
  fencingEpoch := le_refl _
  runtimeUid _ _ := rfl

theorem reprojected_checked (h : shellSessionSchema.check r = true)
    (hroom : r.generation < maxBigint) (hstate : r.observedState ≠ .terminated) :
    shellSessionSchema.check (r.reprojected now) = true := by
  simp only [shellSessionSchema, Bool.and_eq_true] at h ⊢
  obtain ⟨⟨⟨⟨⟨⟨⟨hbinding, hgeneration⟩, hepoch⟩, hrevision⟩, -⟩, hlease⟩, hlifetime⟩, -⟩ := h
  refine ⟨⟨⟨⟨⟨⟨⟨hbinding, ?_⟩, hepoch⟩, hrevision⟩, rfl⟩, hlease⟩, ?_⟩, rfl⟩
  · have hnext : (r.reprojected now).generation = r.generation + 1 := rfl
    rw [hnext]
    simp only [positive, Authority.between, decide_eq_true_eq] at hgeneration ⊢
    omega
  · simp only [lifetimeCheck, Bool.and_eq_true, hstate, decide_false] at hlifetime ⊢
    exact hlifetime

theorem reprojected_guarded : Guarded r (r.reprojected now) where
  sessionId := rfl
  browserSessionId := rfl
  actorId := rfl
  template := rfl
  origin := rfl
  release := rfl
  generation := by
    simp only [ShellSession.reprojected]
    omega
  fencingEpoch := le_refl _
  runtimeUid _ hgeneration := by
    simp only [ShellSession.reprojected] at hgeneration
    omega

/-! ## Calls on one session -/

/-- Once the session is updated, the expiry of its tickets decides. -/
theorem expire_and_append {db₁ : Shell} {q : AttachTicket → Bool} {id : Option Uuid}
    {eventType : SessionEventType} {result : EventResult} {code : String} {α : Type} (x : α)
    (hr : db₁.sessions.lookup id = some r) (hcode : reasonCodeFormat code = true) :
    (∃ db', (·.1) <$> (do
        let db ← db₁.expireTickets t.start q
        let db ← db.append t.now id eventType result (some code)
        return (db, x) : Except SqlError (Shell × α)) = .ok db') ↔
      ∃ tickets, db₁.Expires t.start q tickets := by
  constructor
  · rintro ⟨db', h⟩
    obtain ⟨out, hout⟩ := fst_map_eq_ok.mp h
    obtain ⟨db₂, hexpire, -⟩ := bind_eq_ok.mp hout
    obtain ⟨tickets, htickets, -⟩ := expireTickets_eq_ok.mp hexpire
    exact ⟨tickets, htickets⟩
  · rintro ⟨tickets, htickets⟩
    have hexpire := expireTickets_eq_ok.mpr ⟨tickets, htickets, rfl⟩
    have hthere : ({ db₁ with tickets := tickets } : Shell).sessions.lookup id = some r := hr
    obtain ⟨events, happend⟩ : ∃ events, Shell.append { db₁ with tickets := tickets } t.now id
        eventType result (some code) = .ok { db₁ with tickets := tickets, events := events } :=
      append_commits hthere hcode
    refine ⟨{ db₁ with tickets := tickets, events := events }, ?_⟩
    rw [bind_of_ok hexpire, bind_of_ok happend]
    rfl

theorem expires_of_sessions {sessions : Table shellSessionSchema} {q q' : AttachTicket → Bool}
    (hq : ∀ x, q x = q' x) :
    (∃ tickets, Shell.Expires { db with sessions := sessions } t.start q tickets) ↔
      ∃ tickets, db.Expires t.start q' tickets := by
  obtain rfl : q = q' := funext hq
  exact Iff.rfl

theorem teardown_commits {p : TeardownArgs} (h : Ending.Ready C t db (.teardown p)) :
    (∃ db', (Ending.teardown p).exec C t db = .ok db') ↔
      ∃ tickets, db.Expires t.start (Ending.teardown p).expires tickets := by
  cases h with
  | @teardown _ r code authority named own reason format =>
      obtain ⟨hr, hid⟩ := lookup_mem named
      obtain ⟨a, -, hrevision⟩ := authority.current
      have hauthority : assertShellAuthority C db p.actorId p.permissionRevision false = .ok () :=
        assertShellAuthority_eq_ok.mpr ⟨authority, fun hb => by cases hb⟩
      obtain ⟨sessions, hupdate, hlookup⟩ := updateSession_commits hr teardown_guarded
        (fun _ => rfl) (teardown_checked (db.sessions.checked r hr)
          (permissionRevisionOf_format C db.site a))
      rw [← hid] at hlookup
      rw [Ending.exec, requestShellSessionTeardown, bind_of_ok hauthority]
      simp only [named, own, if_false, hrevision, notNull, orRaise, reason]
      rw [bind_of_ok rfl, bind_of_ok hupdate, expire_and_append _ hlookup format]
      exact expires_of_sessions fun x => by simp [Ending.expires, hid]

theorem revoke_commits {f : Fence} {reasonCode : Option String}
    (h : Ending.Ready C t db (.revoke f reasonCode)) :
    (∃ db', (Ending.revoke f reasonCode).exec C t db = .ok db') ↔
      ∃ tickets, db.Expires t.start (Ending.revoke f reasonCode).expires tickets := by
  cases h with
  | @revoke _ code r revision named admitted current format =>
      obtain ⟨hr, hid⟩ := lookup_mem named
      obtain ⟨a, -, hrevision⟩ := currentShellPermissionRevision_eq_ok.mp current
      obtain ⟨sessions, hupdate, hlookup⟩ := updateSession_commits hr teardown_guarded
        (fun _ => rfl) (teardown_checked (db.sessions.checked r hr)
          (hrevision ▸ permissionRevisionOf_format C db.site a))
      rw [← hid] at hlookup
      rw [Ending.exec, revokeShellSessionAuthority, bind_of_ok (orRaise_eq_ok.mpr named),
        bind_of_ok ((raiseIf_eq_ok (u := ())).mpr admitted), bind_of_ok current, bind_of_ok hupdate,
        expire_and_append _ hlookup format]
      exact expires_of_sessions fun x => by simp [Ending.expires, hid]

theorem reproject_commits {p : ReprojectArgs} (h : Ending.Ready C t db (.reproject p)) :
    (∃ db', (Ending.reproject p).exec C t db = .ok db') ↔
      ∃ tickets, db.Expires t.start (Ending.reproject p).expires tickets := by
  cases h with
  | @reproject _ r code named admitted room reason format =>
      obtain ⟨hr, hid⟩ := lookup_mem named
      have hstate : r.observedState ≠ .terminated := by
        intro hended
        have hpassed := any_ne_true admitted
          (some (decide (r.observedState ∉ [Observed.provisioning, .ready, .failed]))) (by simp)
        rw [hended] at hpassed
        exact hpassed (by decide)
      obtain ⟨sessions, hupdate, hlookup⟩ := updateSession_commits hr reprojected_guarded
        (fun _ => rfl) (reprojected_checked (db.sessions.checked r hr) room hstate)
      rw [← hid] at hlookup
      rw [Ending.exec, reprojectShellRuntime, reason, bind_of_ok (orRaise_eq_ok.mpr named),
        bind_of_ok ((raiseIf_eq_ok (u := ())).mpr admitted), bind_of_ok hupdate,
        expire_and_append _ hlookup format]
      exact expires_of_sessions fun x => by simp [Ending.expires, hid]

/-! ## The switch -/

/-- The sessions can always be ended, so the tickets decide. -/
theorem disableAll_commits (db : Shell) :
    (∃ db', db.disableAll t = .ok db') ↔
      ∃ tickets, db.Expires t.start (fun x => x.consumedAt.isNone) tickets := by
  constructor
  · rintro ⟨db', h⟩
    obtain ⟨_, tickets, _, -, htickets, -⟩ := disableAll_eq_ok h
    exact ⟨tickets, htickets⟩
  · rintro ⟨tickets, htickets⟩
    have hchecked : ∀ r ∈ db.sessions.rows, ShellSession.ends r = true →
        shellSessionSchema.check (r.disabled t.start) = true := by
      intro r hr _
      have hrow := db.sessions.checked r hr
      refine teardown_checked hrow ?_
      simp only [shellSessionSchema, Bool.and_eq_true] at hrow
      exact hrow.1.1.1.1.2
    obtain ⟨sessions, hsessions⟩ : ∃ sessions, db.sessions.updateWhere ShellSession.ends
        (ShellSession.disabled t.start) = .ok sessions := by
      refine (Table.updateWhere_commits ?_ fun _ _ => rfl).mpr hchecked
      exact fun _ => rfl
    have hupdate : db.updateSessions ShellSession.ends (ShellSession.disabled t.start) =
        .ok { db with sessions := sessions } :=
      updateSessions_eq_ok.mpr ⟨fun r _ _ => teardown_guarded, sessions, hsessions, rfl⟩
    have hexpire : ({ db with sessions := sessions } : Shell).expireTickets t.start
        (fun x => x.consumedAt.isNone) = .ok { db with sessions := sessions, tickets := tickets } :=
      expireTickets_eq_ok.mpr ⟨tickets, htickets, rfl⟩
    rw [Shell.disableAll, bind_of_ok hupdate, bind_of_ok hexpire]
    exact ⟨_, rfl⟩

/-- The arguments of a change that is let through meet the CHECK constraints. -/
theorem apply_valid (h : applyInvalid p ≠ some true)
    (hevidence : p.operationEvidence = some evidence) :
    ∃ reason identity, p.reason = some reason ∧ p.actorIdentity = some identity ∧
      changeCheck (btrim reason) (btrim identity) evidence = true := by
  have hpassed := any_ne_true h
  have hreason := hpassed (notBetween (some (textLength (btrim (coalesce p.reason "")))) 8 512)
    (by simp)
  have hidentity := hpassed
    (notBetween (some (textLength (btrim (coalesce p.actorIdentity "")))) 3 256) (by simp)
  have hobject := hpassed (ne (p.operationEvidence.map Jsonb.typeof) (some "object")) (by simp)
  rw [hevidence] at hobject
  rw [ne_eq, notBetween_eq_true] at hreason hidentity
  cases hr : p.reason with
  | none =>
      rw [hr] at hreason
      exact absurd ⟨_, rfl, .inl (by decide)⟩ hreason
  | some reason =>
      cases hi : p.actorIdentity with
      | none =>
          rw [hi] at hidentity
          exact absurd ⟨_, rfl, .inl (by decide)⟩ hidentity
      | some identity =>
          refine ⟨reason, identity, rfl, rfl, ?_⟩
          simp only [hr, hi, coalesce, Option.getD_some, Option.some.injEq, exists_eq_left', not_or,
            not_lt] at hreason hidentity
          have hkind : evidence.typeof = "object" := ne_passed hobject rfl rfl
          simp only [changeCheck, Authority.between, Js.btrim_btrim, hkind, Bool.and_eq_true,
            decide_eq_true_eq]
          exact ⟨⟨⟨by omega, hreason.2⟩, hidentity⟩, trivial⟩

/-- A change that repeats the one before finds no ticket to expire. -/
theorem sameOperation_expires (hoff : p.enabled = some false)
    (h : sameOperation t.start p db = some true) :
    ∃ tickets, db.Expires t.start (fun x => x.consumedAt.isNone) tickets := by
  refine expires_iff.mpr fun x hx hconsumed hlate => ?_
  rw [sameOperation, Cond.all_eq_true] at h
  have hdrained := h _ (List.mem_cons_of_mem _ (List.mem_cons_of_mem _ (List.mem_cons_of_mem _
    (List.mem_cons_of_mem _ (List.mem_cons_self ..)))))
  rw [hoff] at hdrained
  simp only [Cond.or_eq_true, Option.some.injEq, Bool.false_eq_true, false_or,
    decide_eq_true_eq] at hdrained
  have hnone := hdrained.2
  rw [Shell.liveTickets, List.length_eq_zero_iff, List.filter_eq_nil_iff] at hnone
  exact absurd (by simp [hconsumed, hlate]) (hnone x hx)

def ApplyArgs.row (p : ApplyArgs) (now : Timestamp) (s : ControlState) (reason identity : String)
    (evidence : Jsonb) : ControlState :=
  { s with
    enabled := false
    revision := s.revision + 1
    reason := btrim reason
    changedBy := p.actorId
    changedIdentity := btrim identity
    operationEvidence := evidence
    changedAt := now
    drainCompletedAt := none }

theorem applied_checked (p : ApplyArgs) (now : Timestamp) {s : Control}
    {reason identity : String} (hroom : s.revision < maxBigint)
    (hchange : changeCheck (btrim reason) (btrim identity) evidence = true) :
    positive (s.revision + 1) = true ∧
      controlCheck (p.row now s.toControlState reason identity evidence) = true := by
  have hchecked := s.checked
  simp only [controlCheck, Bool.and_eq_true] at hchecked ⊢
  obtain ⟨⟨⟨⟨hrevision, hactor⟩, hglobal⟩, -⟩, hoperation⟩ := hchecked
  have hnext : positive (s.revision + 1) = true := by
    simp only [positive, Authority.between, decide_eq_true_eq] at hrevision ⊢
    omega
  exact ⟨hnext, ⟨⟨⟨hnext, hactor⟩, hglobal⟩, hchange⟩, hoperation⟩

/-- Once the row is stored, the expiry of the tickets decides. -/
theorem apply_finishes {reason identity : String} {ended : Nat}
    (hnext : positive (db.control.revision + 1) = true)
    (hrow : controlCheck (p.row t.start db.control.toControlState reason identity evidence) = true)
    (hchange : changeCheck (btrim reason) (btrim identity) evidence = true) :
    (∃ db', (do
        let db ← db.updateControl (p.row t.start db.control.toControlState reason identity evidence)
        let db ← db.disableAll t
        db.appendControl {
          revision := db.control.revision
          enabled := false
          eventType := .disableRequested
          reason := btrim reason
          actorId := p.actorId
          actorIdentity := btrim identity
          operationEvidence := evidence
          affectedSessions := ended
          occurredAt := t.now } : Except SqlError Shell) = .ok db') ↔
      ∃ tickets, db.Expires t.start (fun x => x.consumedAt.isNone) tickets := by
  have hupdate : db.updateControl (p.row t.start db.control.toControlState reason identity
      evidence) = .ok { db with control := { toControlState := _, checked := hrow } } :=
    dif_pos hrow
  rw [bind_of_ok hupdate]
  refine Iff.trans ?_ (disableAll_commits { db with control := ⟨_, hrow⟩ })
  constructor
  · rintro ⟨db', h⟩
    obtain ⟨db₁, hdisable, -⟩ := bind_eq_ok.mp h
    exact ⟨db₁, hdisable⟩
  · rintro ⟨db₁, hdisable⟩
    obtain ⟨sessions, tickets, events, -, -, rfl⟩ := disableAll_eq_ok hdisable
    rw [bind_of_ok hdisable, Shell.appendControl]
    have hevent : (some (!(positive (db.control.revision + 1) &&
        changeCheck (btrim reason) (btrim identity) evidence)) : Cond) ≠ some true := by
      simp [hnext, hchange]
    exact ⟨_, bind_of_ok ((raiseIf_eq_ok (u := ())).mpr hevent)⟩

theorem apply_commits (h : Ending.Ready C t db (.apply p)) :
    (∃ db', (Ending.apply p).exec C t db = .ok db') ↔
      ∃ tickets, db.Expires t.start (Ending.apply p).expires tickets := by
  cases h with
  | apply off valid revision room evidence actor =>
      obtain ⟨e, he⟩ := Option.ne_none_iff_exists'.mp evidence
      obtain ⟨reason, identity, hreason, hidentity, hchange⟩ := apply_valid valid he
      obtain ⟨hnext, hrow⟩ := applied_checked p t.start room hchange
      have hrevision : ne (some db.control.revision) p.expectedRevision ≠ some true := by
        simp [revision]
      have hactor : (some (p.actorId.any fun u => decide (u ∉ db.site.users)) : Cond) ≠
          some true := by
        cases hp : p.actorId with
        | none => simp
        | some u => simp [actor u hp]
      rw [Ending.exec, applyShellFeatureState, bind_of_ok ((raiseIf_eq_ok (u := ())).mpr valid),
        bind_of_ok ((raiseIf_eq_ok (u := ())).mpr hrevision)]
      by_cases hsame : sameOperation t.start p db = some true
      · rw [if_pos hsame]
        exact iff_of_true ⟨db, rfl⟩ (sameOperation_expires off hsame)
      · rw [if_neg hsame, bind_of_ok (notNull_eq_ok.mpr off), bind_of_ok (notNull_eq_ok.mpr hreason),
          bind_of_ok (notNull_eq_ok.mpr hidentity), bind_of_ok (notNull_eq_ok.mpr he),
          bind_of_ok ((raiseIf_eq_ok (u := ())).mpr hactor)]
        exact apply_finishes hnext hrow hchange

/-- A call that takes the right to attach away, and whose own conditions hold, commits if and
only if each ticket it has to expire was created before the call read its clock. -/
theorem ending_commits (C : ShellCrypto) (t : Clock) (db : Shell) (e : Ending)
    (h : e.Ready C t db) :
    (∃ db', e.exec C t db = .ok db') ↔
      ∀ x ∈ db.tickets.rows, e.expires x = true → t.start < x.expiresAt →
        x.createdAt < t.start := by
  cases e with
  | teardown p => exact (teardown_commits h).trans expires_iff
  | revoke f reasonCode => exact (revoke_commits h).trans expires_iff
  | reproject p => exact (reproject_commits h).trans expires_iff
  | apply p => exact (apply_commits h).trans expires_iff

namespace Demo

open Authority.Demo

/-- Alice tears session 9 down. -/
def ending : TeardownArgs where
  sessionId := some ⟨9⟩
  browserSessionId := some ⟨102⟩
  actorId := some alice
  origin := some "https://console"
  permissionRevision := revision
  reasonCode := some "OperatorRequested"

/-- Session 9 is Ready, and a ticket for it is issued some seconds after noon. -/
def ticketed (k : Nat) : List Action :=
  attempt (some "pod-1") (some "pod-1") (some "pod-1") ++
    [.call (clock k) (.issueShellAttachTicket {
      ticketHash := revision
      binding := touch
      expiresAt := some (noon + seconds (k + 30)) })]

def waiting (k : Nat) : Clock where
  start := noon + seconds k
  now := noon + seconds (k + 1)
  order := by
    refine Int.add_le_add_left ?_ noon
    simp only [seconds]
    omega

def endable (as : List Action) : Bool :=
  (assertShellAuthority crypto (after as) ending.actorId ending.permissionRevision false).isOk &&
    ((after as).sessions.lookup (some ⟨9⟩)).any fun r => decide (teardownForeign r ending ≠ some true)

theorem ending_ready (k : Nat) {as : List Action} (h : endable as = true) :
    Ending.Ready crypto (waiting k) (after as) (.teardown ending) := by
  obtain ⟨hauthority, hown⟩ := Bool.and_eq_true_iff.mp h
  obtain ⟨u, hok⟩ := isOk_iff.mp hauthority
  obtain ⟨r, hr, hforeign⟩ := (Option.any_eq_true _ _).mp hown
  exact .teardown (assertShellAuthority_eq_ok.mp hok).1 hr (of_decide_eq_true hforeign) rfl
    (by decide)

theorem after_ticketed (k : Nat) : after (ticketed k) =
    System.run (perform crypto) (ticketed k).tail enabled :=
  after_setup (ticketed k).tail

end Demo

/-- A teardown that started after the ticket was issued commits. -/
theorem demo_teardown :
    ∃ db', (Ending.teardown Demo.ending).exec Demo.crypto (Demo.waiting 21)
      (Demo.after (Demo.ticketed 20)) = .ok db' := by
  have hrun : Demo.endable (Demo.ticketed 20) = true ∧
      ((Demo.after (Demo.ticketed 20)).tickets.rows.all fun x =>
        decide (x.createdAt < (Demo.waiting 21).start)) = true := by
    rw [Demo.endable, Demo.after_ticketed]
    decide +kernel
  obtain ⟨hrun, htickets⟩ := hrun
  refine (ending_commits Demo.crypto _ _ _ (Demo.ending_ready 21 hrun)).mpr fun x hx _ _ => ?_
  exact of_decide_eq_true (List.all_eq_true.mp htickets x hx)

/-- A teardown that waited while a ticket was issued fails, though all its conditions hold. -/
theorem teardown_blocked_by_ticket :
    Reachable Demo.crypto (Demo.after (Demo.ticketed 20)) ∧
      Ending.Ready Demo.crypto (Demo.waiting 19) (Demo.after (Demo.ticketed 20))
        (.teardown Demo.ending) ∧
      ∀ db', (Ending.teardown Demo.ending).exec Demo.crypto (Demo.waiting 19)
        (Demo.after (Demo.ticketed 20)) ≠ .ok db' := by
  have hrun : Demo.endable (Demo.ticketed 20) = true ∧
      ((Ending.teardown Demo.ending).exec Demo.crypto (Demo.waiting 19)
        (Demo.after (Demo.ticketed 20))).isOk = false := by
    rw [Demo.endable, Demo.after_ticketed]
    decide +kernel
  obtain ⟨hrun, hfails⟩ := hrun
  refine ⟨Demo.after_reachable _, Demo.ending_ready 19 hrun, fun db' hok => ?_⟩
  rw [isOk_iff.mpr ⟨db', hok⟩] at hfails
  cases hfails

end ConsoleShell
