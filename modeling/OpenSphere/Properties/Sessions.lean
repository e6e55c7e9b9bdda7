import OpenSphere.Identity.Runs
import OpenSphere.Properties.Fencing

/-!
# Revocation of browser sessions

A closed session is never found again, only a session that waits for its second
factor is activated, and only once, and the end of a login never moves.  The end
of an idle session moves forward as long as the clocks of the calls follow the
order of their commits.

`revoke_all_owned_browser_sessions` closes the live sessions of a subject.  A
session that waits for its second factor is stored as a revoked one, is left
alone, and can still be activated.
-/

open Sql
open System (run)
open Authority (Aal SubjectAuthority ModuleInstallationEnvironment Statement)
open Authority.Demo (alice second)

namespace ConsoleIdentity

variable {as bs : List Action} {s : Statement} {id : Uuid} {r r' : Session} {site site' : Site}
  {t : Timestamp} {a : Action}

section Runs

variable {C : Crypto} {users : List Uuid} {environment : Option ModuleInstallationEnvironment}
  {policy : Policy}

/-! ## Permanence -/

theorem closed_unresolvable
    (hr : (reach C users environment policy as).session id = some r) (hclosed : r.Closed)
    (s : Statement) : ¬ (reach C users environment policy (as ++ bs)).Resolves s id := by
  intro hresolves
  rw [reach_append] at hresolves
  obtain ⟨r', hr', hclosed', hwhy⟩ := run_session (C := C) (P := fun _ => True)
    (I := fun r => r.Closed ∧ r.Explained)
    (fun _ hstep hI => ⟨hstep.closed hI.1 hI.2, hstep.explained hI.2⟩) bs (fun _ _ => True.intro) hr
    ⟨hclosed, reach_explained hr⟩
  rcases (hresolves.found hr').open_ with hactive | ⟨hrevoked, hnone | hpending⟩
  · exact hclosed'.1 hactive
  · exact hwhy hrevoked hnone
  · exact hclosed'.2 hpending

theorem activate_pending {p : PromotionArgs}
    (h : (Call.activateBrowserSessionMfa p).exec C s (reach C users environment policy as) =
      .ok site') :
    ∃ id r, p.sessionId = some id ∧ (reach C users environment policy as).session id = some r ∧
      r.Pending ∧ site'.session id = some (r.activate s p.credentials) := by
  obtain ⟨v, hv⟩ := fst_eq_ok h
  obtain ⟨r, hreplaced, rfl, hid, -, hrevoked, hreason, -⟩ := activate_eq_ok hv
  have hr := mem_session.mp hreplaced.stored
  refine ⟨r.sessionId, r, hid, hr, ⟨hrevoked, ?_⟩, hreplaced.session markAal2Transition_id⟩
  exact hreason.resolve_left (reach_explained hr hrevoked)

theorem activate_once {p p' : PromotionArgs}
    {site'' : Site}
    (h : (Call.activateBrowserSessionMfa p).exec C s (reach C users environment policy as) =
      .ok site') (hsame : p'.sessionId = p.sessionId) (s' : Statement) :
    (Call.activateBrowserSessionMfa p').exec C s' (run (perform C) bs site') ≠ .ok site'' := by
  intro h'
  obtain ⟨id, r, hid, hr, -, hr'⟩ := activate_pending h
  have hexplained : (r.activate s p.credentials).Explained := by
    intro hrevoked
    rw [Session.activate, markAal2Transition_revokedAt] at hrevoked
    exact absurd rfl hrevoked
  have hnot : ¬ (r.activate s p.credentials).Pending := by
    intro hp
    have hrevoked := hp.1
    rw [Session.activate, markAal2Transition_revokedAt] at hrevoked
    exact hrevoked rfl
  obtain ⟨r₁, hr₁, hnot₁, hwhy₁⟩ := run_session (C := C) (P := fun _ => True)
    (I := fun r => ¬ r.Pending ∧ r.Explained)
    (fun _ hstep hI => ⟨hstep.not_pending hI.1, hstep.explained hI.2⟩) bs (fun _ _ => True.intro)
    hr'
    ⟨hnot, hexplained⟩
  obtain ⟨v, hv⟩ := fst_eq_ok h'
  obtain ⟨r₂, hreplaced, -, hid₂, -, hrevoked, hreason, -⟩ := activate_eq_ok hv
  have hfound := mem_session.mp hreplaced.stored
  rw [hsame, hid] at hid₂
  rw [← Option.some.inj hid₂, hr₁] at hfound
  cases hfound
  exact hnot₁ ⟨hrevoked, hreason.resolve_left (hwhy₁ hrevoked)⟩

/-! ## Ends -/

def Ordered (as : List Action) : Prop := (as.filterMap Action.now).Pairwise (· ≤ ·)

instance (as : List Action) : Decidable (Ordered as) := inferInstanceAs (Decidable (List.Pairwise ..))

theorem session_within (hr : site.session id = some r) :
    r.expiresAt ≤ r.absoluteExpiresAt := by
  have hcheck := site.sessions.checked r (lookup_session hr).1
  simp only [sessionSchema, Bool.and_eq_true, decide_eq_true_eq] at hcheck
  exact hcheck.1.2

/-- The end a call sets is at most twelve hours ahead of its clock. -/
theorem Session.Step.ends_within (h : Session.Step a r r')
    (ht : ∀ now, a.now = some now → now ≤ t) (hr : r.expiresAt ≤ t + hours 12) :
    r'.expiresAt ≤ t + hours 12 := by
  have hidle : ∀ {s : Statement}, s.now ≤ t → idleExpiry s r ≤ t + hours 12 := fun hs =>
    Int.le_trans (Int.min_le_right ..) (Int.add_le_add_right hs _)
  cases h with
  | same => exact hr
  | seen => exact hr
  | touched => exact hidle (ht _ rfl)
  | rotated =>
      rw [Session.rotate, markAal2Transition_expiresAt]
      exact hr
  | enrolled =>
      rw [Session.enroll, markAal2Transition_expiresAt]
      exact hidle (ht _ rfl)
  | steppedUp =>
      rw [Session.stepUp, markAal2Transition_expiresAt]
      exact hr
  | activated =>
      rw [Session.activate, markAal2Transition_expiresAt]
      exact hidle (ht _ rfl)
  | revoked => exact hr

/-- A call whose clock is not behind those of the calls before it moves the end
forward only. -/
theorem Session.Step.ends_later (h : Session.Step a r r')
    (hahead : ∀ now, a.now = some now → r.expiresAt ≤ now + hours 12)
    (hwithin : r.expiresAt ≤ r.absoluteExpiresAt) : r.expiresAt ≤ r'.expiresAt := by
  have hidle : ∀ {s : Statement}, r.expiresAt ≤ s.now + hours 12 → r.expiresAt ≤ idleExpiry s r :=
    fun hs => Int.le_min.mpr ⟨hwithin, hs⟩
  cases h with
  | same | seen | revoked => exact Int.le_refl _
  | touched => exact hidle (hahead _ rfl)
  | rotated =>
      rw [Session.rotate, markAal2Transition_expiresAt]
      exact Int.le_refl _
  | enrolled =>
      rw [Session.enroll, markAal2Transition_expiresAt]
      exact hidle (hahead _ rfl)
  | steppedUp =>
      rw [Session.stepUp, markAal2Transition_expiresAt]
      exact Int.le_refl _
  | activated =>
      rw [Session.activate, markAal2Transition_expiresAt]
      exact hidle (hahead _ rfl)

/-- The sessions of a run end at most twelve hours after its last clock. -/
theorem reach_ends_within
    (has : ∀ a ∈ as, ∀ now, a.now = some now → now ≤ t)
    (hr : (reach C users environment policy as).session id = some r) :
    r.expiresAt ≤ t + hours 12 := by
  refine reach_session (P := fun a => ∀ now, a.now = some now → now ≤ t)
    (I := fun r => r.expiresAt ≤ t + hours 12) (fun ha hissued => ?_)
    (fun ha hstep => hstep.ends_within ha) has hr
  cases hissued with
  | issue hsubject hrevision hepoch hexpires =>
      exact Int.le_trans hexpires (Int.add_le_add_right (ha _ rfl) _)

/-- In an ordered run the end of a session never moves back. -/
theorem ends_never_decrease (hordered : Ordered (as ++ bs))
    (hr : (reach C users environment policy as).session id = some r) :
    ∃ r', (reach C users environment policy (as ++ bs)).session id = some r' ∧
      r.expiresAt ≤ r'.expiresAt := by
  induction bs using List.reverseRecOn with
  | nil => exact ⟨r, by rwa [List.append_nil], Int.le_refl _⟩
  | append_singleton bs a ih =>
      -- the clock of the last action is not behind any before it
      rw [← List.append_assoc] at hordered ⊢
      unfold Ordered at hordered
      rw [List.filterMap_append, List.pairwise_append] at hordered
      obtain ⟨hearlier, -, hlast⟩ := hordered
      obtain ⟨r₁, hr₁, hle₁⟩ := ih hearlier
      obtain ⟨r₂, hr₂, hstep⟩ := perform_session (C := C) a hr₁
      refine ⟨r₂, by rwa [reach_snoc], Int.le_trans hle₁ (hstep.ends_later (fun now hnow => ?_)
        (session_within hr₁))⟩
      refine reach_ends_within (fun b hb t ht => hlast t ?_ now ?_) hr₁
      · exact List.mem_filterMap.mpr ⟨b, hb, ht⟩
      · exact List.mem_filterMap.mpr ⟨a, List.mem_singleton.mpr rfl, hnow⟩

/-! ## The life of a session -/

/-- A session that is closed is never found again, and what the login fixed as its
last end stands.  No end lies behind that of the login, and in an ordered run
none moves back.  What is activated waited for its second factor, and it is
activated only once. -/
theorem session_life (C : Crypto) (users : List Uuid)
    (environment : Option ModuleInstallationEnvironment) (policy : Policy) (as bs : List Action) :
    (∀ id r, (reach C users environment policy as).session id = some r →
      ∃ r', (reach C users environment policy (as ++ bs)).session id = some r' ∧
        r'.absoluteExpiresAt = r.absoluteExpiresAt ∧ r'.expiresAt ≤ r'.absoluteExpiresAt ∧
        (r.Closed → ∀ s, ¬ (reach C users environment policy (as ++ bs)).Resolves s id) ∧
        (Ordered (as ++ bs) → r.expiresAt ≤ r'.expiresAt)) ∧
    ∀ s p site', (Call.activateBrowserSessionMfa p).exec C s
        (reach C users environment policy as) = .ok site' →
      ∃ id r, p.sessionId = some id ∧ (reach C users environment policy as).session id = some r ∧
        r.Pending ∧
        ∀ s' p', p'.sessionId = some id → ∀ site'',
          (Call.activateBrowserSessionMfa p').exec C s' (run (perform C) bs site') ≠ .ok site'' := by
  constructor
  · intro id r hr
    obtain ⟨r', hr', hlogin⟩ := run_session (C := C) (P := fun _ => True)
      (I := fun x => x.login = r.login) (fun _ hstep hI => hstep.login.trans hI) bs
      (fun _ _ => True.intro) hr rfl
    rw [← reach_append] at hr'
    refine ⟨r', hr', congrArg (·.absoluteExpiresAt) hlogin, session_within hr',
      fun hclosed s => closed_unresolvable hr hclosed s, fun hordered => ?_⟩
    obtain ⟨r'', hr'', hle⟩ := ends_never_decrease hordered hr
    rw [hr'] at hr''
    cases hr''
    exact hle
  · intro s p site' h
    obtain ⟨id, r, hid, hr, hpending, -⟩ := activate_pending h
    exact ⟨id, r, hid, hr, hpending, fun s' p' hp' site'' =>
      activate_once h (hp'.trans hid.symm) s'⟩

end Runs

/-! ## A site of one administrator -/

deriving instance DecidableEq for Site

namespace Demo

/-- The length of a text in place of its hash. -/
def crypto : Crypto where
  digest := Authority.Demo.digest
  sha256 t := List.replicate 31 0 ++ [UInt8.ofNat t.length]

def bytes (n : Nat) : Option Bytes := some (List.replicate 31 0 ++ [UInt8.ofNat n])

def hour (n : Nat) : Statement := second (3600 * n)

/-- What Supabase Auth issues for the next hour. -/
def credentials (s : Statement) : Credentials where
  accessTokenCiphertext := some "v1.aaaaaaaaaa.bbbbbbbbbb.cccccccccc"
  refreshTokenCiphertext := some "v1.dddddddddd.eeeeeeeeee.ffffffffff"
  authSessionRef := some "auth-session"
  accessTokenExpiresAt := some (s.now + hours 1)

def claim : Action := .call (second 1) (.claimInitialAdministrator (some alice) (some "correlation"))

def after (as : List Action) : Site :=
  reach crypto [alice] none .nativeOsaaServingAuthority (claim :: as)

/-- Alice logs in for a day, with the token `n`. -/
def login (s : Statement) (n : Nat) (aal : String) (pending : Bool) : Action :=
  .call s (.issueBrowserSession {
    subjectId := some alice
    tokenDigest := bytes n
    csrfTokenDigest := bytes (n + 1)
    credentials := credentials s
    aal := some aal
    absoluteExpiresAt := some (s.now + hours 24)
    persistence := some "24h"
    pendingMfa := some pending
    correlationId := some "correlation" })

/-- An event of Alice's site. -/
def event (k : Nat) (action targetRef reason : String) (evidence : Jsonb) (previousHash : Option String)
    (eventHash : String) : Authority.Event :=
  ⟨k, (second k).eventId, none, (second k).now, "correlation", alice.text, action, targetRef, .succeeded,
    reason, evidence, previousHash, eventHash⟩

def claimHash : String := "sha256:00000000000000000000000000000000000000000000000000000000f090506b"

def loginHash : String := "sha256:00000000000000000000000000000000000000000000000000000000ac33a12c"

/-- The rows of the site once Alice is its administrator. -/
def claimed : Site :=
  { Site.fresh [alice] none .nativeOsaaServingAuthority with
    subjects := ⟨[⟨alice, ⟨101⟩, 1, 0⟩], by decide, by decide⟩
    grants := ⟨newGrants alice 1 (managedRolePermissions .nativeOsaaServingAuthority "console-admins"),
      by decide, by decide⟩
    events := ⟨[event 1 "console.identity.bootstrap.initial_administrator"
        (String.append "subject:" alice.text) "initial-administrator-bootstrap"
        (.object [("permissionRevision", .ofInt 1), ("permissionCount", .ofInt 22)]) none claimHash],
      by decide, by decide⟩ }

/-- The rows once she has logged in. -/
def entered : Site :=
  { claimed with
    sessions := ⟨[{
      sessionId := ⟨102⟩
      subjectId := alice
      aal := .aal1
      permissionRevision := 1
      revokeEpoch := 0
      lastSeenAt := (second 2).now
      expiresAt := (second 2).now + hours 12
      revokedAt := none
      lastReauthenticatedAt := none
      tokenDigest := List.replicate 31 0 ++ [1]
      csrfTokenDigest := List.replicate 31 0 ++ [2]
      createdAt := (second 2).now
      absoluteExpiresAt := (second 2).now + hours 24
      persistence := .hours24
      revokeReason := none
      authSessionRef := (credentials (second 2)).authSessionRef
      accessTokenCiphertext := (credentials (second 2)).accessTokenCiphertext
      refreshTokenCiphertext := (credentials (second 2)).refreshTokenCiphertext
      accessTokenExpiresAt := (credentials (second 2)).accessTokenExpiresAt }],
      by decide, by decide⟩
    events := ⟨claimed.events.rows ++ [event 2 "console.identity.session.login"
        (String.append "browser-session:" (⟨102⟩ : Uuid).text) "" (.object [
          ("sessionId", .ofText (⟨102⟩ : Uuid).text),
          ("state", .ofText "active"),
          ("aal", .ofText "aal1"),
          ("persistence", .ofText "24h"),
          ("idleExpiresAt", Authority.jsonTime (some ((second 2).now + hours 12))),
          ("absoluteExpiresAt", Authority.jsonTime (some ((second 2).now + hours 24))),
          ("accessTokenExpiresAt", Authority.jsonTime (some ((second 2).now + hours 1))),
          ("permissionRevision", .ofInt 1),
          ("revokeEpoch", .ofInt 0)]) (some claimHash) loginHash],
      by decide, by decide⟩ }

theorem rows_eq :
    perform crypto claim (Site.fresh [alice] none .nativeOsaaServingAuthority) = claimed ∧
      perform crypto (login (second 2) 1 "aal1" false) claimed = entered := by
  decide +kernel

-- the runs below start from these rows, so that no proof makes them again
theorem after_claim (as : List Action) : after as = run (perform crypto) as claimed := by
  rw [← rows_eq.1, after, reach, System.run]

theorem after_login (as : List Action) :
    after (login (second 2) 1 "aal1" false :: as) = run (perform crypto) as entered := by
  rw [after_claim, ← rows_eq.2, System.run]

/-- Alice has shown a second factor for a session. -/
def promotion (s : Statement) (id : Nat) : PromotionArgs where
  sessionId := some ⟨id⟩
  subjectId := some alice
  expectedAccessCiphertextDigest := bytes 35
  credentials := credentials s
  correlationId := some "correlation"

/-- Alice is active after two hours. -/
def activeRun : List Action := [
  login (second 2) 1 "aal1" false,
  .call (hour 2) (.touchBrowserSessionActivity (bytes 1) (bytes 2))]

/-- An enrolment that was called an hour earlier and waited for the row. -/
def lateEnrolment : Action :=
  .call (hour 1) (.completeTotpEnrollment (promotion (hour 1) 102))

def revokeAll (site : Site) : Except SqlError (Site × Revoked) :=
  revokeAllOwnedBrowserSessions crypto (second 4) (bytes 1) (bytes 2) (some "correlation") site

def loggedIn : Site := after [login (second 2) 1 "aal1" false]

theorem loggedIn_eq : loggedIn = entered := after_login []

/-- Alice is logged in once, and has begun to log in once more. -/
def pendingLogin : Site := after [login (second 2) 1 "aal1" false, login (second 3) 3 "aal1" true]

def activation : Action := .call (second 5) (.activateBrowserSessionMfa (promotion (second 5) 103))

/-- What becomes of the session, and of another one whose login waits for a second factor. -/
theorem entered_runs :
    (((after activeRun).session ⟨102⟩).bind fun r =>
      ((after (activeRun ++ [lateEnrolment])).session ⟨102⟩).map fun r' =>
        decide (r.revokedAt = none ∧ r'.revokedAt = none ∧ r'.expiresAt < r.expiresAt)) = some true ∧
    (((revokeAll loggedIn).toOption.map fun v => decide (v.2.subjectId = alice)) = some true ∧
      ∀ r ∈ loggedIn.sessions.rows, r.revokedAt = none) ∧
    ((revokeAll pendingLogin).toOption.map fun v =>
      decide ((v.1.session ⟨103⟩).map (fun r => decide (r.subjectId = v.2.subjectId)) = some true) &&
      decide ((resolveBrowserSession (second 6) (bytes 3) none (some false)
        (run (perform crypto) [activation] v.1)).toOption.map (fun w =>
          decide (w.session.sessionId = ⟨103⟩ ∧ w.aal = .aal2)) = some true)) = some true := by
  rw [loggedIn_eq, activeRun, pendingLogin, List.cons_append, after_login, after_login, after_login]
  decide +kernel

end Demo

theorem exists_of_bind {α : Type} {x y : Option α} {p : α → α → Bool}
    (h : (x.bind fun a => y.map (p a)) = some true) :
    ∃ a b, x = some a ∧ y = some b ∧ p a b = true := by
  obtain ⟨a, hx, h⟩ := Option.bind_eq_some_iff.mp h
  obtain ⟨b, hy, hp⟩ := Option.map_eq_some_iff.mp h
  exact ⟨a, b, hx, hy, hp⟩

/-- The end of an active session moves back when a call commits whose clock is behind
that of a call before it. -/
theorem end_moves_back :
    ∃ r r', (Demo.after Demo.activeRun).session ⟨102⟩ = some r ∧
      (Demo.after (Demo.activeRun ++ [Demo.lateEnrolment])).session ⟨102⟩ = some r' ∧
      r.revokedAt = none ∧ r'.revokedAt = none ∧ r'.expiresAt < r.expiresAt := by
  obtain ⟨r, r', hr, hr', h⟩ := exists_of_bind Demo.entered_runs.1
  exact ⟨r, r', hr, hr', of_decide_eq_true h⟩

section Runs

variable {C : Crypto} {users : List Uuid} {environment : Option ModuleInstallationEnvironment}
  {policy : Policy}

/-! ## Revoking all sessions -/

/-- The session waits for its second factor and can still be given it. -/
def Session.Waiting (s : Statement) (site : Site) (r : Session) : Prop :=
  r.Pending ∧ s.now < r.expiresAt ∧ r.Fresh site

def Action.From (t : Timestamp) (a : Action) : Prop := ∀ now, a.now = some now → t ≤ now

/-- What is past its end stays so, for calls that are not dated before it. -/
theorem Session.Step.past_end (h : Session.Step a r r')
    (ha : a.From t) (hr : r.expiresAt ≤ t) : r'.expiresAt ≤ t := by
  have hdead : ∀ {s : Statement}, t ≤ s.now → s.now < r.expiresAt → False := fun hs hlive =>
    Int.lt_irrefl _ (Int.lt_of_lt_of_le hlive (Int.le_trans hr hs))
  cases h with
  | same | seen | revoked => exact hr
  | touched hactive hlive | rotated hid haal hactive hlive | enrolled hid haal hactive hlive
  | steppedUp hid hactive hlive | activated hid haal hrevoked hreason hlive =>
      exact (hdead (ha _ rfl) hlive).elim

/-- A session past its end is not found by calls that are not dated before it. -/
theorem past_end_unresolvable
    (hr : site.session id = some r) (hend : r.expiresAt ≤ t)
    (hbs : ∀ a ∈ bs, a.From t) (hs : t ≤ s.now) :
    ¬ (run (perform C) bs site).Resolves s id := by
  intro hresolves
  obtain ⟨r', hr', hend'⟩ := run_session (C := C) (P := Action.From t)
    (I := fun r => r.expiresAt ≤ t) (fun ha hstep hI => hstep.past_end ha hI) bs hbs hr hend
  have hlive := (hresolves.found hr').live
  exact Int.lt_irrefl _ (Int.lt_of_lt_of_le hlive (Int.le_trans hend' hs))

/-- What `revoke_all_owned_browser_sessions` leaves of the sessions of its subject. -/
theorem revokeAll_eq_ok {token csrf : Option Bytes} {correlationId : Option String}
    {v : Revoked}
    (h : revokeAllOwnedBrowserSessions C s token csrf correlationId site = .ok (site', v)) :
    site'.subjects = site.subjects ∧
      ∀ id, site'.session id = (site.session id).map fun r =>
        if Session.liveOf s v.subjectId r then r.revoke s "user-revoked-all-sessions" true
        else r := by
  simp only [revokeAllOwnedBrowserSessions, bind_eq_ok, raiseIf_eq_ok, pure_eq_ok] at h
  obtain ⟨_, -, current, -, ⟨site₁, n⟩, hrevoke, site₂, happend, heq⟩ := h
  cases heq
  obtain ⟨t, hup, rfl⟩ := revokeSessions_eq_ok hrevoke
  obtain ⟨t', rfl⟩ := append_eq_ok happend
  refine ⟨rfl, fun id => ?_⟩
  rw [Site.session, Table.lookup_updateWhere hup (fun _ => rfl), Site.session]
  congr 1
  funext r
  -- a live session is not revoked, so the second condition adds nothing
  cases hnone : r.revokedAt with
  | none => simp
  | some t => simp [Session.liveOf, hnone]

theorem sessionOfToken_self (hr : r ∈ site.sessions.rows) :
    site.sessionOfToken (some r.tokenDigest) = some r := by
  obtain ⟨r', hr'⟩ : ∃ r', site.sessionOfToken (some r.tokenDigest) = some r' := by
    refine Option.isSome_iff_exists.mp (List.find?_isSome.mpr ⟨r, hr, ?_⟩)
    exact decide_eq_true rfl
  have hsame : r'.tokenDigest = r.tokenDigest := by simpa using List.find?_some hr'
  rw [hr', Table.eq_of_conflict (sessionOfToken_eq_some hr') hr
    (by simp [Schema.conflict, sessionSchema, hsame])
    (by simp [Schema.conflict, sessionSchema, hsame])]

/-- A session that waits for its second factor is found by what asks for it. -/
theorem waiting_resolves
    (hr : (reach C users environment policy as).session id = some r)
    (hwaiting : r.Waiting s (reach C users environment policy as)) :
    (reach C users environment policy as).Resolves s id := by
  obtain ⟨hpending, hlive, x, hx, hrevision, hepoch⟩ := hwaiting
  obtain ⟨hmem, hid⟩ := lookup_session hr
  refine ⟨.pendingMfa (some r.tokenDigest) (some r.csrfTokenDigest), r, ?_,
    (Option.some.inj hid).symm⟩
  have haal := (reach_unproved hr hpending).1
  simp only [Resolver.exec, getPendingBrowserSessionMfa, Site.freshAuthority, bind_eq_ok,
    orRaise_eq_ok, raiseIf_eq_ok, pure_eq_ok]
  refine ⟨r, sessionOfToken_self hmem, (), ?_, x, ⟨x, hx, (), ?_, rfl⟩, rfl⟩
  · simp [Cond.any, hpending.1, hpending.2, haal, hlive]
  · simp [Cond.any, hrevision, hepoch]

/-- After all sessions of a subject are revoked, none of them is found by calls that are
not dated before the revocation, if and only if none of them waited for its second
factor. -/
theorem revoke_all_complete (C : Crypto) (users : List Uuid)
    (environment : Option ModuleInstallationEnvironment) (policy : Policy) (as : List Action)
    (s : Statement) (token csrf : Option Bytes) (correlationId : Option String) (site' : Site)
    (v : Revoked)
    (h : revokeAllOwnedBrowserSessions C s token csrf correlationId
      (reach C users environment policy as) = .ok (site', v)) :
    (∀ id r, site'.session id = some r → r.subjectId = v.subjectId →
      ∀ bs, (∀ a ∈ bs, Action.From s.now a) → ∀ s', s.now ≤ s'.now →
        ¬ (run (perform C) bs site').Resolves s' id) ↔
    ∀ id r, (reach C users environment policy as).session id = some r →
      r.subjectId = v.subjectId → ¬ r.Waiting s (reach C users environment policy as) := by
  obtain ⟨hsubjects, hsessions⟩ := revokeAll_eq_ok h
  have hcommit : site' = reach C users environment policy
      (as ++ [.call s (.revokeAllOwnedBrowserSessions token csrf correlationId)]) := by
    rw [reach_snoc, perform_of_ok]
    show (·.1) <$> revokeAllOwnedBrowserSessions C s token csrf correlationId _ = .ok site'
    rw [h]
    rfl
  constructor
  · -- a waiting session is left as it is, and found at once
    intro hnone id r hr hsubject hwaiting
    have hkept : site'.session id = some r := by
      rw [hsessions, hr]
      obtain ⟨t, ht⟩ := Option.ne_none_iff_exists'.mp hwaiting.1.1
      simp [Session.liveOf, ht]
    refine hnone id r hkept hsubject [] (fun a ha => absurd ha (List.not_mem_nil)) s
      (Int.le_refl _) ?_
    subst hcommit
    refine waiting_resolves hkept ⟨hwaiting.1, hwaiting.2.1, ?_⟩
    obtain ⟨x, hx, hsame⟩ := hwaiting.2.2
    exact ⟨x, by rw [Site.authority, hsubjects]; exact hx, hsame⟩
  · intro hnone id r' hr' hsubject bs hbs s' hs'
    rw [hsessions] at hr'
    obtain ⟨r, hr, hleft⟩ := Option.map_eq_some_iff.mp hr'
    have hstored : site'.session id = some r' := by rw [hsessions, hr, Option.map_some, hleft]
    by_cases hlive : Session.liveOf s v.subjectId r = true
    · -- a live session is closed
      rw [if_pos hlive] at hleft
      subst hleft
      rw [hcommit] at hstored
      rw [hcommit, ← reach_append]
      refine closed_unresolvable hstored ⟨Option.some_ne_none _, fun hreason => ?_⟩ s'
      exact absurd (Option.some.inj hreason) (by decide)
    · rw [if_neg hlive] at hleft
      subst hleft
      by_cases hend : r.expiresAt ≤ s.now
      · exact past_end_unresolvable hstored hend hbs hs'
      · have hopen : s.now < r.expiresAt := Int.not_le.mp hend
        have hrevoked : r.revokedAt ≠ none := by
          intro hactive
          refine hlive ?_
          simp [Session.liveOf, hsubject, hactive, hopen,
            Int.lt_of_lt_of_le hopen (session_within hr)]
        by_cases hpending : r.revokeReason = some pendingMfa
        · -- its subject has moved on, or it would wait
          refine past_unresolvable hstored ?_ bs
          have hpast := ((reach_covered as).sessions id r hr).fresh_or_past.resolve_left
            fun hfresh => hnone id r hr hsubject ⟨⟨hrevoked, hpending⟩, hopen, hfresh⟩
          obtain ⟨x, hx, hbehind⟩ := hpast
          exact ⟨x, by rw [Site.authority, hsubjects]; exact hx, hbehind⟩
        · rw [hcommit] at hstored
          rw [hcommit, ← reach_append]
          exact closed_unresolvable hstored ⟨hrevoked, hpending⟩ s'

end Runs

theorem exists_of_toOption {α : Type} {x : Except SqlError α} {p : α → Bool}
    (h : x.toOption.map p = some true) : ∃ v, x = .ok v ∧ p v = true := by
  cases x with
  | error e => cases h
  | ok v => exact ⟨v, rfl, Option.some.inj h⟩

theorem demo_revoke_all :
    ∃ site' v, Demo.revokeAll Demo.loggedIn = .ok (site', v) ∧ v.subjectId = alice ∧
      ∀ id r, site'.session id = some r → r.subjectId = alice →
        ∀ bs, (∀ a ∈ bs, Action.From (second 4).now a) → ∀ s', (second 4).now ≤ s'.now →
          ¬ (run (perform Demo.crypto) bs site').Resolves s' id := by
  obtain ⟨hrun, hactive⟩ := Demo.entered_runs.2.1
  obtain ⟨⟨site', v⟩, hv, hsubject⟩ := exists_of_toOption hrun
  have hsubject : v.subjectId = alice := of_decide_eq_true hsubject
  refine ⟨site', v, hv, hsubject, ?_⟩
  rw [← hsubject]
  refine (revoke_all_complete Demo.crypto [alice] none .nativeOsaaServingAuthority
    (Demo.claim :: [Demo.login (second 2) 1 "aal1" false]) (second 4) (Demo.bytes 1)
    (Demo.bytes 2) (some "correlation") site' v hv).mpr ?_
  intro id r hr _ hwaiting
  have hfound : Demo.loggedIn.session id = some r := hr
  exact hwaiting.1.1 (hactive r (lookup_session hfound).1)

/-- A session that waits for its second factor when all sessions of its subject are
revoked is activated and found afterwards. -/
theorem pending_survives_revoke_all :
    ∃ site' v, Demo.revokeAll Demo.pendingLogin = .ok (site', v) ∧
      (∃ r, site'.session ⟨103⟩ = some r ∧ r.subjectId = v.subjectId) ∧
      ∃ w, resolveBrowserSession (second 6) (Demo.bytes 3) none (some false)
        (run (perform Demo.crypto) [Demo.activation] site') = .ok w ∧
        w.session.sessionId = ⟨103⟩ ∧ w.aal = .aal2 := by
  obtain ⟨⟨site', v⟩, hv, hleft⟩ := exists_of_toOption Demo.entered_runs.2.2
  obtain ⟨hkept, hresolved⟩ := Bool.and_eq_true_iff.mp hleft
  obtain ⟨r, hr, hsubject⟩ := Option.map_eq_some_iff.mp (of_decide_eq_true hkept)
  obtain ⟨w, hw, hfound⟩ := exists_of_toOption (of_decide_eq_true hresolved)
  exact ⟨site', v, hv, ⟨r, hr, of_decide_eq_true hsubject⟩, w, hw, of_decide_eq_true hfound⟩

end ConsoleIdentity
