import OpenSphere.Properties.Sessions

/-!
# Activity of a session

The idle end of a session is set when it is issued, activated, enrolled or touched, twelve hours
ahead.  The operation functions write `last_seen_at` as well and leave the end alone.  A touch takes
a `last_seen_at` of the last minute for one that came with an extension, so it may do nothing although
the end was set long before.

`activity_extends` says exactly when a touch leaves the end that it promises.
-/

open Sql
open System (run)
open Authority (ModuleInstallationEnvironment Statement)
open Authority.Demo (alice second)

namespace ConsoleIdentity

/-! ## Extensions -/

/-- The function sets the idle end of a session. -/
def Call.extends : Call → Bool
  | .issueBrowserSession _ => true
  | .activateBrowserSessionMfa _ => true
  | .completeTotpEnrollment _ => true
  | .touchBrowserSessionActivity _ _ => true
  | _ => false

def Action.extension (C : Crypto) (site : Site) (id : Uuid) (a : Action) : Option Timestamp :=
  match a with
  | .call s c =>
      if c.extends && decide ((perform C a site).session id ≠ site.session id) then some s.now else none
  | _ => none

def lastExtension (C : Crypto) (id : Uuid) : List Action → Site → Option Timestamp → Option Timestamp
  | [], _, e => e
  | a :: as, site, e => lastExtension C id as (perform C a site) ((a.extension C site id).or e)

/-- The idle end of an active session is that of its last extension. -/
def Site.Extended (site : Site) (id : Uuid) (e : Option Timestamp) : Prop :=
  ∀ r, site.session id = some r → r.revokedAt = none →
    ∃ t, e = some t ∧ r.expiresAt = min r.absoluteExpiresAt (t + hours 12)

section

variable {C : Crypto} {site site' : Site} {s : Statement} {id : Uuid} {e : Option Timestamp}

theorem markAal2Transition_absolute {r r' : Session} :
    (markAal2Transition s r r').absoluteExpiresAt = r'.absoluteExpiresAt := by
  unfold markAal2Transition
  split <;> rfl

/-- A session that is issued active ends twelve hours later. -/
theorem issue_expiry {p : IssueArgs} {v r : Session}
    (h : issueBrowserSession C s p site = .ok (site', v)) (hnone : site.session id = none)
    (hr : site'.session id = some r) (hactive : r.revokedAt = none) :
    r.expiresAt = idleExpiry s r := by
  simp only [issueBrowserSession, bind_eq_ok, orRaise_eq_ok, raiseIf_eq_ok, pure_eq_ok] at h
  obtain ⟨_, -, x, -, r', hnew, t, hinsert, site₁, happend, heq⟩ := h
  rw [Prod.mk.injEq] at heq
  obtain ⟨rfl, rfl⟩ := heq
  obtain ⟨t', rfl⟩ := append_eq_ok happend
  have hfound : t.lookup (some id) = some r := hr
  rw [Table.lookup_insert hinsert] at hfound
  split at hfound
  next =>
    obtain rfl := Option.some.inj hfound
    simp only [newSession, bind_eq_ok, notNull_eq_ok, pure_eq_ok] at hnew
    obtain ⟨u, -, _, -, _, -, aal, -, absolute, -, _, -, rfl⟩ := hnew
    by_cases hp : p.pendingMfa = some true
    · simp [hp] at hactive
    · simp [idleExpiry, hp]
  next =>
    rw [show site.sessions.lookup (some id) = none from hnone] at hfound
    cases hfound

theorem extension_eq {c : Call} (hc : c.extends = true)
    (hchanged : (perform C (.call s c) site).session id ≠ site.session id) :
    (Action.call s c).extension C site id = some s.now := by
  simp [Action.extension, hc, hchanged]

theorem extension_same {a : Action} (hsame : (perform C a site).session id = site.session id) :
    a.extension C site id = none := by
  cases a <;> simp [Action.extension, hsame]

/-- Every action keeps track of the last extension. -/
theorem Site.Extended.perform (h : site.Extended id e) (a : Action) :
    (perform C a site).Extended id ((a.extension C site id).or e) := by
  intro r' hr' hactive
  by_cases hsame : (ConsoleIdentity.perform C a site).session id = site.session id
  · rw [extension_same hsame, Option.none_or]
    exact h r' (hsame ▸ hr') hactive
  rcases (perform_step C a site).sessions id with hrel | ⟨hnone, r, hr, hissued⟩
  · rw [hr'] at hrel
    generalize hr : site.session id = x at hrel
    cases hrel with
    | some hstep =>
        rename_i r
        -- what is neither a revocation nor an extension keeps the end
        cases hstep with
        | same => exact absurd (hr'.trans hr.symm) hsame
        | seen => exact h r hr hactive
        | rotated hid haal hwas =>
            obtain ⟨t, he, hexpires⟩ := h r hr hwas
            refine ⟨t, he, ?_⟩
            rw [Session.rotate, markAal2Transition_expiresAt, markAal2Transition_absolute]
            exact hexpires
        | steppedUp hid hwas =>
            obtain ⟨t, he, hexpires⟩ := h r hr hwas
            refine ⟨t, he, ?_⟩
            rw [Session.stepUp, markAal2Transition_expiresAt, markAal2Transition_absolute]
            exact hexpires
        | touched =>
            rw [extension_eq rfl hsame]
            exact ⟨_, rfl, rfl⟩
        | enrolled =>
            rw [extension_eq rfl hsame, Session.enroll, markAal2Transition_expiresAt,
              markAal2Transition_absolute]
            exact ⟨_, rfl, rfl⟩
        | activated =>
            rw [extension_eq rfl hsame, Session.activate, markAal2Transition_expiresAt,
              markAal2Transition_absolute]
            exact ⟨_, rfl, rfl⟩
        | revoked => cases hactive
  · rw [hr] at hr'
    obtain rfl := Option.some.inj hr'
    cases hissued with
    | issue =>
        rename_i s p _ _ _ _ _ _ _
        rw [extension_eq rfl hsame]
        refine ⟨s.now, rfl, ?_⟩
        rcases perform_cases C (.call s (.issueBrowserSession p)) site with hkept | hok
        · exact absurd (congrArg (Site.session · id) hkept) hsame
        · obtain ⟨v, hissue⟩ := fst_map_eq_ok.mp hok
          exact issue_expiry hissue hnone hr hactive

/-- In a run an active session has the end of its last extension. -/
theorem extended_run (as : List Action) {site : Site} {e : Option Timestamp}
    (h : site.Extended id e) : (run (perform C) as site).Extended id (lastExtension C id as site e) := by
  induction as generalizing site e with
  | nil => exact h
  | cons a as ih => exact ih (h.perform a)

/-- A touch returns the row of the session, which it extends if it was last seen a minute ago. -/
theorem touch_row {token csrf : Option Bytes} {r' : Session}
    (h : touchBrowserSessionActivity s token csrf site = .ok (site', r')) :
    ∃ r, site.session r'.sessionId = some r ∧ site'.session r'.sessionId = some r' ∧
      r.revokedAt = none ∧
      (r.lastSeenAt ≤ s.now - minutes 1 ∧ r' = r.touch s ∨
        s.now - minutes 1 < r.lastSeenAt ∧ r' = r) := by
  simp only [touchBrowserSessionActivity, bind_eq_ok, orRaise_eq_ok, raiseIf_eq_ok] at h
  obtain ⟨_, -, r, hfound, _, hguard, x, -, h⟩ := h
  have hr := mem_session.mp (sessionOfToken_eq_some hfound)
  have hactive : r.revokedAt = none :=
    isNotNull_passed (any_ne_true hguard (isNotNull r.revokedAt) (by simp))
  split at h
  next hseen =>
    simp only [bind_eq_ok, pure_eq_ok, Site.putSession] at h
    obtain ⟨site₁, ⟨t, hput, rfl⟩, heq⟩ := h
    obtain ⟨rfl, rfl⟩ := Prod.mk.inj heq
    refine ⟨r, hr, ?_, hactive, .inl ⟨hseen, rfl⟩⟩
    have hlookup := Table.lookup_put hput r.sessionId
    rw [if_pos (by rfl), show site.sessions.lookup (some r.sessionId) = some r from hr] at hlookup
    exact hlookup
  next hseen =>
    rw [pure_eq_ok] at h
    obtain ⟨rfl, rfl⟩ := Prod.mk.inj h
    exact ⟨r, hr, hr, hactive, .inr ⟨not_le.mp hseen, rfl⟩⟩

end

/-- A minute less than the idle time from now is past an end set by an extension exactly if the
absolute end has cut that end or the extension is of the last minute. -/
theorem end_within {absolute now extension idle minute : Int} :
    min absolute (now + idle - minute) ≤ min absolute (extension + idle) ↔
      absolute ≤ extension + idle ∨ now - minute ≤ extension := by
  omega

/-- **The idle end after a touch.**  After a touch the idle end is at most a minute short of twelve
hours exactly if the session was last seen at least a minute ago, its absolute end is within twelve
hours of its last extension, or that extension is of the last minute. -/
theorem activity_extends (C : Crypto) (users : List Uuid)
    (environment : Option ModuleInstallationEnvironment) (policy : Policy) (as : List Action)
    {s : Statement} {token csrf : Option Bytes} {site' : Site} {r' : Session}
    (h : touchBrowserSessionActivity s token csrf (reach C users environment policy as) =
      .ok (site', r')) :
    site'.session r'.sessionId = some r' ∧
      ∃ r t, (reach C users environment policy as).session r'.sessionId = some r ∧
        lastExtension C r'.sessionId as (Site.fresh users environment policy) none = some t ∧
        (min r'.absoluteExpiresAt (s.now + hours 12 - minutes 1) ≤ r'.expiresAt ↔
          r.lastSeenAt ≤ s.now - minutes 1 ∨ r.absoluteExpiresAt ≤ t + hours 12 ∨
            s.now - minutes 1 ≤ t) := by
  obtain ⟨r, hr, hr', hactive, hcases⟩ := touch_row h
  have hfresh : (Site.fresh users environment policy).Extended r'.sessionId none := by
    intro r₀ hr₀
    cases hr₀
  obtain ⟨t, ht, hexpires⟩ := extended_run (C := C) as hfresh r hr hactive
  refine ⟨hr', r, t, hr, ht, ?_⟩
  rcases hcases with ⟨hseen, rfl⟩ | ⟨hseen, rfl⟩
  · refine iff_of_true ?_ (.inl hseen)
    exact Int.le_min.mpr ⟨Int.min_le_left .., Int.le_trans (Int.min_le_right ..)
      (Int.sub_le_self _ (by decide))⟩
  · rw [hexpires, end_within]
    exact ⟨.inr, fun h => h.resolve_left (not_le.mpr hseen)⟩

namespace Demo

/-- Alice asks for an operation of no risk. -/
def request (s : Statement) : Action :=
  .call s (.operation (.acceptOperation { Authority.Demo.install with
    sessionId := some ⟨102⟩
    expectedPermissionRevision := some 1
    targetRef := some "console"
    risk := some "R0"
    executionPlan := none }))

/-- Alice asks for an operation a minute and a half after her login. -/
def askingRun : List Action := [login (second 2) 1 "aal1" false, request (second 92)]

end Demo

/-- A touch after the operation leaves the end of the login. -/
theorem operation_hides_activity : ∃ site' r',
    touchBrowserSessionActivity (second 150) (Demo.bytes 1) (Demo.bytes 2) (Demo.after Demo.askingRun) =
      .ok (site', r') ∧
    r'.expiresAt < min r'.absoluteExpiresAt ((second 150).now + hours 12 - minutes 1) := by
  have hrun : ((touchBrowserSessionActivity (second 150) (Demo.bytes 1) (Demo.bytes 2)
      (Demo.after Demo.askingRun)).toOption.map fun x =>
        decide (x.2.expiresAt < min x.2.absoluteExpiresAt ((second 150).now + hours 12 - minutes 1))) =
      some true := by
    rw [Demo.askingRun, Demo.after_login]
    decide +kernel
  obtain ⟨⟨site', r'⟩, htouch, hshort⟩ := exists_of_toOption hrun
  exact ⟨site', r', htouch, of_decide_eq_true hshort⟩

/-- A touch a minute and a half after the login extends the session. -/
theorem login_touched : ∃ site' r',
    touchBrowserSessionActivity (second 92) (Demo.bytes 1) (Demo.bytes 2) Demo.loggedIn =
      .ok (site', r') ∧
    min r'.absoluteExpiresAt ((second 92).now + hours 12 - minutes 1) ≤ r'.expiresAt := by
  have hrun : ((touchBrowserSessionActivity (second 92) (Demo.bytes 1) (Demo.bytes 2)
      Demo.loggedIn).toOption.map fun x =>
        (Demo.loggedIn.session x.2.sessionId).all fun r =>
          decide (r.lastSeenAt ≤ (second 92).now - minutes 1)) = some true := by
    rw [Demo.loggedIn_eq]
    decide
  obtain ⟨⟨site', r'⟩, htouch, hlogin⟩ := exists_of_toOption hrun
  obtain ⟨-, r, t, hr, -, hiff⟩ := activity_extends Demo.crypto [alice] none .nativeOsaaServingAuthority
    (Demo.claim :: [Demo.login (second 2) 1 "aal1" false]) htouch
  refine ⟨site', r', htouch, hiff.mpr (.inl ?_)⟩
  have hfound : Demo.loggedIn.session r'.sessionId = some r := hr
  simp only [hfound, Option.all_some, decide_eq_true_eq] at hlogin
  exact hlogin

end ConsoleIdentity
