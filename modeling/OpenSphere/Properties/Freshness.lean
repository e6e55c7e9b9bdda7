import OpenSphere.Properties.Sessions

/-!
# Recent second factors

A session is recent if its level is `aal2` and its second factor was shown at most
five minutes ago.  The time is kept in `last_reauthenticated_at`, which the
step-up sets itself and the activation and the enrolment leave to the trigger.
The trigger sets it when the level rises and no time is recorded yet, so two
things go wrong: a rotation that raises the level of such a session makes it
recent, and an enrolment leaves an old time as it is.  In a run that does
neither, a session is recent exactly through one of the three ceremonies.
-/

open Sql
open System (run Along)
open Authority (Aal BrowserSession ModuleInstallationEnvironment Statement notRecentAal2)
open Authority.Demo (alice second)

namespace ConsoleIdentity

def Call.ceremony : Call → Option Uuid
  | .activateBrowserSessionMfa p => p.sessionId
  | .completeTotpEnrollment p => p.sessionId
  | .completeStepUp p => p.sessionId
  | _ => none

def InWindow (s : Statement) (t : Timestamp) : Prop := s.now - seconds 300 ≤ t ∧ t ≤ s.now + seconds 30

instance (s : Statement) (t : Timestamp) : Decidable (InWindow s t) :=
  inferInstanceAs (Decidable (_ ∧ _))

def Action.rotation : Action → Option RotationArgs
  | .call _ (.rotateBrowserSessionCredentials p) => some p
  | _ => none

def Action.enrolment : Action → Option (Statement × PromotionArgs)
  | .call s (.completeTotpEnrollment p) => some (s, p)
  | _ => none

/-- The action is not a rotation that raises a session without a recorded ceremony to
`aal2`, nor an enrolment for a session whose recorded ceremony is not recent. -/
structure Careful (a : Action) (site : Site) : Prop where
  rotation : ∀ p ∈ a.rotation, ∀ r ∈ p.sessionId.bind site.session,
    r.aal = .aal1 → r.lastReauthenticatedAt = none → p.aal ≠ some "aal2"
  enrolment : ∀ q ∈ a.enrolment, ∀ r ∈ q.2.sessionId.bind site.session,
    ∀ t ∈ r.lastReauthenticatedAt, InWindow q.1 t

instance (a : Action) (site : Site) : Decidable (Careful a site) :=
  decidable_of_iff
    ((∀ p ∈ a.rotation, ∀ r ∈ p.sessionId.bind site.session,
      r.aal = .aal1 → r.lastReauthenticatedAt = none → p.aal ≠ some "aal2") ∧
    ∀ q ∈ a.enrolment, ∀ r ∈ q.2.sessionId.bind site.session,
      ∀ t ∈ r.lastReauthenticatedAt, InWindow q.1 t)
    ⟨fun h => ⟨h.1, h.2⟩, fun h => ⟨h.1, h.2⟩⟩

/-! ## The check -/

theorem inWindow_now (s : Statement) : InWindow s s.now :=
  ⟨Int.sub_le_self _ (by decide), Int.le_add_of_nonneg_right (by decide)⟩

/-- The check passes exactly for `aal2` and a time in the window. -/
theorem recent_iff {s : Statement} {r : BrowserSession} :
    notRecentAal2 s r ≠ some true ↔
      r.aal = .aal2 ∧ ∃ t, r.lastReauthenticatedAt = some t ∧ InWindow s t := by
  rw [notRecentAal2]
  cases haal : r.aal with
  | aal1 => simp [Cond.any]
  | aal2 =>
      cases hlast : r.lastReauthenticatedAt with
      | none => simp [Cond.any]
      | some t => simp [Cond.any, InWindow]

/-! ## The recorded time -/

section Steps

variable {a : Action} {s : Statement} {r r' : Session}

/-- The trigger sets the time when the level rises and none is recorded. -/
theorem markAal2Transition_reauthenticated (hlevel : r'.aal = .aal2) (hold : r.aal = .aal1)
    (hnone : r'.lastReauthenticatedAt = none) :
    (markAal2Transition s r r').lastReauthenticatedAt = some s.now := by
  rw [markAal2Transition, if_pos ⟨hlevel, by rw [hold]; decide, hnone⟩]

theorem markAal2Transition_keeps
    (h : r'.aal = .aal2 → r.aal = .aal1 → r'.lastReauthenticatedAt ≠ none) :
    (markAal2Transition s r r').lastReauthenticatedAt = r'.lastReauthenticatedAt := by
  rw [markAal2Transition, if_neg]
  rintro ⟨hlevel, hold, hnone⟩
  cases haal : r.aal with
  | aal1 => exact h hlevel haal hnone
  | aal2 => exact hold haal

theorem aalOfText_eq_some {t : String} {x : Aal} (h : aalOfText t = some x) : t = x.text := by
  have htext := List.find?_some h
  exact (beq_iff_eq.mp htext).symm

theorem markAal2Transition_aal : (markAal2Transition s r r').aal = r'.aal := by
  unfold markAal2Transition
  split <;> rfl

/-- A careful step leaves the recorded time alone, or is a ceremony and records its
own. -/
theorem Session.Step.reauthenticated (h : Session.Step a r r') {site : Site}
    (hr : site.session r.sessionId = some r) (hcareful : Careful a site) (hunproved : r.Unproved)
    (hwhy : r.Explained) :
    r'.lastReauthenticatedAt = r.lastReauthenticatedAt ∨
      ∃ s c, a = .call s c ∧ c.ceremony = some r.sessionId ∧
        r'.lastReauthenticatedAt = some s.now := by
  cases h with
  | same | seen | touched | revoked => exact .inl rfl
  | @rotated s p _ aal hid haal =>
      refine .inl (markAal2Transition_keeps fun hlevel hold hnone => ?_)
      have hlevel : aal = .aal2 := hlevel
      have hnone : r.lastReauthenticatedAt = none := hnone
      subst hlevel
      obtain ⟨level, hp, hof⟩ := Option.bind_eq_some_iff.mp haal
      refine hcareful.rotation p rfl r (by rw [hid]; exact hr) hold hnone ?_
      rw [hp, aalOfText_eq_some hof]
      rfl
  | @enrolled s p _ hid haal =>
      cases hlast : r.lastReauthenticatedAt with
      | none =>
          exact .inr ⟨s, _, rfl, hid, markAal2Transition_reauthenticated rfl haal hlast⟩
      | some t =>
          refine .inl ((markAal2Transition_keeps fun _ _ hnone => ?_).trans hlast)
          rw [show r.lastReauthenticatedAt = none from hnone] at hlast
          cases hlast
  | @steppedUp s p _ hid =>
      refine .inr ⟨s, _, rfl, hid, markAal2Transition_keeps fun _ _ => ?_⟩
      exact Option.some_ne_none _
  | @activated s p _ hid haal hrevoked hreason =>
      have hpending : r.Pending := ⟨hrevoked, hreason.resolve_left (hwhy hrevoked)⟩
      have hlast := (hunproved hpending).2
      exact .inr ⟨s, _, rfl, hid, markAal2Transition_reauthenticated rfl haal hlast⟩

end Steps

/-! ## Runs -/

section Runs

variable {C : Crypto} {users : List Uuid} {environment : Option ModuleInstallationEnvironment}
  {policy : Policy}

/-- A ceremony for the session has been committed at the time. -/
def Shown (C : Crypto) (users : List Uuid) (environment : Option ModuleInstallationEnvironment)
    (policy : Policy) (as : List Action) (id : Uuid) (t : Timestamp) : Prop :=
  ∃ before s c rest, as = before ++ .call s c :: rest ∧ c.ceremony = some id ∧ s.now = t ∧
    ∃ site', c.exec C s (reach C users environment policy before) = .ok site'

theorem Shown.snoc {as : List Action} {id : Uuid} {t : Timestamp}
    (h : Shown C users environment policy as id t) (a : Action) :
    Shown C users environment policy (as ++ [a]) id t := by
  obtain ⟨before, s, c, rest, rfl, hc, ht, hcommit⟩ := h
  exact ⟨before, s, c, rest ++ [a], by simp, hc, ht, hcommit⟩

theorem shown_of_recorded {as : List Action}
    (has : Along (perform C) Careful as (Site.fresh users environment policy)) {id : Uuid}
    {r : Session} (hr : (reach C users environment policy as).session id = some r) {t : Timestamp}
    (ht : r.lastReauthenticatedAt = some t) : Shown C users environment policy as id t := by
  induction as using List.reverseRecOn generalizing r with
  | nil => cases hr
  | append_singleton as a ih =>
      obtain ⟨has, hlast, -⟩ := Along.append.mp has
      rw [reach_snoc] at hr
      rcases perform_cases C a (reach C users environment policy as) with hsame | hok
      · rw [hsame] at hr
        exact (ih has hr ht).snoc a
      · rcases (exec_step hok).sessions id with hrel | ⟨-, r', hr', hissued⟩
        · rw [hr] at hrel
          generalize hold : (reach C users environment policy as).session id = x at hrel
          cases hrel with
          | @some r₀ _ hstep =>
              have hid : id = r₀.sessionId := Option.some.inj (lookup_session hold).2
              subst hid
              rcases hstep.reauthenticated hold hlast (reach_unproved hold) (reach_explained hold)
                with hkept | ⟨s, c, rfl, hc, hnow⟩
              · rw [hkept] at ht
                exact (ih has hold ht).snoc a
              · rw [ht] at hnow
                exact ⟨as, s, c, [], rfl, hc, (Option.some.inj hnow).symm, _, hok⟩
        · rw [hr] at hr'
          cases hr'
          cases hissued with
          | issue hsubject hrevision hepoch hexpires hnone =>
              rw [hnone] at ht
              cases ht

theorem ceremony_recent {as : List Action} {s : Statement} {c : Call} {id : Uuid} {site' : Site}
    (hc : c.ceremony = some id) (h : c.exec C s (reach C users environment policy as) = .ok site')
    (hcareful : Careful (.call s c) (reach C users environment policy as)) :
    ∃ r, site'.session id = some r ∧ notRecentAal2 s r.toBrowserSession ≠ some true := by
  cases c with
  | activateBrowserSessionMfa p =>
      obtain ⟨v, hv⟩ := fst_eq_ok h
      obtain ⟨r, hreplaced, rfl, hid, haal, hrevoked, hreason, -⟩ := activate_eq_ok hv
      rw [show p.sessionId = some id from hc] at hid
      cases hid
      have hr := mem_session.mp hreplaced.stored
      have hpending : r.Pending :=
        ⟨hrevoked, hreason.resolve_left (reach_explained hr hrevoked)⟩
      refine ⟨_, hreplaced.session markAal2Transition_id, recent_iff.mpr
        ⟨markAal2Transition_aal, s.now, ?_, inWindow_now s⟩⟩
      exact markAal2Transition_reauthenticated rfl haal (reach_unproved hr hpending).2
  | completeTotpEnrollment p =>
      obtain ⟨v, hv⟩ := fst_eq_ok h
      obtain ⟨r, hreplaced, rfl, hid, haal, -⟩ := enroll_eq_ok hv
      have hr := mem_session.mp hreplaced.stored
      have hwindow := hcareful.enrolment (s, p) rfl r (by rw [hid]; exact hr)
      rw [show p.sessionId = some id from hc] at hid
      cases hid
      refine ⟨_, hreplaced.session markAal2Transition_id, recent_iff.mpr
        ⟨markAal2Transition_aal, ?_⟩⟩
      cases hlast : r.lastReauthenticatedAt with
      | none => exact ⟨s.now, markAal2Transition_reauthenticated rfl haal hlast, inWindow_now s⟩
      | some t =>
          refine ⟨t, (markAal2Transition_keeps fun _ _ hnone => ?_).trans hlast, hwindow t hlast⟩
          rw [show r.lastReauthenticatedAt = none from hnone] at hlast
          cases hlast
  | completeStepUp p =>
      obtain ⟨v, hv⟩ := fst_eq_ok h
      obtain ⟨r, hreplaced, rfl, hid, -⟩ := stepUp_eq_ok hv
      rw [show p.sessionId = some id from hc] at hid
      cases hid
      refine ⟨_, hreplaced.session markAal2Transition_id, recent_iff.mpr
        ⟨markAal2Transition_aal, s.now, ?_, inWindow_now s⟩⟩
      exact markAal2Transition_keeps fun _ _ => Option.some_ne_none _
  | _ => cases hc

end Runs

/-- **Fresh second factors.**  In a careful run, a ceremony that is committed makes its
session recent, and a session is recent only through a ceremony for it that was
committed within the window. -/
theorem mfa_freshness (C : Crypto) (users : List Uuid)
    (environment : Option ModuleInstallationEnvironment) (policy : Policy) (as : List Action)
    (has : Along (perform C) Careful as (Site.fresh users environment policy)) :
    (∀ s c id site', c.ceremony = some id →
      c.exec C s (reach C users environment policy as) = .ok site' →
      Careful (.call s c) (reach C users environment policy as) →
      ∃ r, site'.session id = some r ∧ notRecentAal2 s r.toBrowserSession ≠ some true) ∧
    ∀ s id r, (reach C users environment policy as).session id = some r →
      notRecentAal2 s r.toBrowserSession ≠ some true →
      ∃ before s' c rest, as = before ++ .call s' c :: rest ∧ c.ceremony = some id ∧
        (∃ site', c.exec C s' (reach C users environment policy before) = .ok site') ∧
        s.now - seconds 300 ≤ s'.now ∧ s'.now ≤ s.now + seconds 30 := by
  refine ⟨fun s c id site' hc h hcareful => ceremony_recent hc h hcareful, ?_⟩
  intro s id r hr hrecent
  obtain ⟨-, t, ht, hwindow⟩ := recent_iff.mp hrecent
  obtain ⟨before, s', c, rest, has', hc, rfl, hcommit⟩ := shown_of_recorded has hr ht
  exact ⟨before, s', c, rest, has', hc, hcommit, hwindow⟩

namespace Demo

/-- Alice completes the second login. -/
def activatedRun : List Action :=
  [claim, login (second 2) 1 "aal1" false, login (second 3) 3 "aal1" true, activation]

/-- A refresh of the credentials of a session, with the level Supabase Auth reports. -/
def refresh (s : Statement) (id : Nat) (aal : String) : Action :=
  .call s (.rotateBrowserSessionCredentials {
    sessionId := some ⟨id⟩
    subjectId := some alice
    expectedRefreshCiphertextDigest := bytes 35
    credentials := credentials s
    aal := some aal
    correlationId := some "correlation" })

/-- Alice logs in and is refreshed to `aal2`. -/
def refreshedRun : List Action := [login (second 2) 1 "aal1" false, refresh (second 3) 102 "aal2"]

/-- Alice steps up, is refreshed to `aal1`, and enrols a factor an hour later. -/
def reenrolledRun : List Action := [
  login (second 2) 1 "aal1" false,
  .call (second 3) (.completeStepUp (promotion (second 3) 102)),
  refresh (second 4) 102 "aal1"]

end Demo

/-- The session Alice has activated is recent through the activation. -/
theorem demo_mfa_freshness :
    Along (perform Demo.crypto) Careful Demo.activatedRun
      (Site.fresh [alice] none .nativeOsaaServingAuthority) ∧
    ∀ s id r, (reach Demo.crypto [alice] none .nativeOsaaServingAuthority
        Demo.activatedRun).session id = some r →
      notRecentAal2 s r.toBrowserSession ≠ some true →
      ∃ before s' c rest, Demo.activatedRun = before ++ .call s' c :: rest ∧
        c.ceremony = some id ∧ s.now - seconds 300 ≤ s'.now := by
  have has : Along (perform Demo.crypto) Careful Demo.activatedRun
      (Site.fresh [alice] none .nativeOsaaServingAuthority) := by
    decide
  refine ⟨has, fun s id r hr hrecent => ?_⟩
  obtain ⟨before, s', c, rest, hsplit, hc, -, hwindow, -⟩ :=
    (mfa_freshness Demo.crypto [alice] none .nativeOsaaServingAuthority Demo.activatedRun has).2
      s id r hr hrecent
  exact ⟨before, s', c, rest, hsplit, hc, hwindow⟩

/-- A refresh makes a session recent for which no ceremony was ever called, and an
enrolment that is committed leaves its session as old as it was. -/
theorem recent_without_ceremony :
    (∃ r, (Demo.after Demo.refreshedRun).session ⟨102⟩ = some r ∧
      notRecentAal2 (second 4) r.toBrowserSession ≠ some true) ∧
    (∀ s c, .call s c ∈ Demo.claim :: Demo.refreshedRun → c.ceremony = none) ∧
    ∃ site' v, completeTotpEnrollment Demo.crypto (Demo.hour 1) (Demo.promotion (Demo.hour 1) 102)
        (Demo.after Demo.reenrolledRun) = .ok (site', v) ∧
      notRecentAal2 (Demo.hour 1) v.toBrowserSession = some true := by
  have hrefreshed : (((Demo.after Demo.refreshedRun).session ⟨102⟩).map fun r =>
      decide (notRecentAal2 (second 4) r.toBrowserSession ≠ some true)) = some true := by
    rw [Demo.refreshedRun, Demo.after_login]
    decide +kernel
  have henrolled : ((completeTotpEnrollment Demo.crypto (Demo.hour 1)
      (Demo.promotion (Demo.hour 1) 102) (Demo.after Demo.reenrolledRun)).toOption.map fun v =>
        decide (notRecentAal2 (Demo.hour 1) v.2.toBrowserSession = some true)) = some true := by
    rw [Demo.reenrolledRun, Demo.after_login]
    decide +kernel
  obtain ⟨r, hr, hrecent⟩ := Option.map_eq_some_iff.mp hrefreshed
  obtain ⟨⟨site', v⟩, hv, hold⟩ := exists_of_toOption henrolled
  refine ⟨⟨r, hr, of_decide_eq_true hrecent⟩, ?_, site', v, hv, of_decide_eq_true hold⟩
  intro s c hc
  simp only [Demo.refreshedRun, Demo.claim, Demo.login, Demo.refresh, List.mem_cons,
    Action.call.injEq, List.not_mem_nil, or_false] at hc
  rcases hc with ⟨-, rfl⟩ | ⟨-, rfl⟩ | ⟨-, rfl⟩ <;> rfl

end ConsoleIdentity
