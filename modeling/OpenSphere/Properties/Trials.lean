import OpenSphere.Broker.Steps
import OpenSphere.Properties.Intents

/-!
# A call alone

A call that changes a managed identity, by itself: `Ends` says where its programs end, when
their requests do what the answers say (`reported`).  Most of the requests change neither a user
nor what is recorded of a completion (`Quiet`), and so does the whole search for the session of
the caller.
-/

open Sql
open System (Discipline Program Safe)
open ConsoleIdentity (Site lifecycleAction completeManagedIdentityLifecycle)

namespace Broker

variable {correlationId : Option String} {α : Type} {q : Request} {w : World}
  {s : Authority.Statement} {C : ConsoleIdentity.Crypto}

def completions (action : String) (site : Site) : List Authority.Event :=
  site.events.rows.filter (·.action == lifecycleAction action ".succeeded")

/-! ## Requests that do what their answers say -/

/-- A call under way, and whether it has asked for its completion. -/
structure Trial where
  world : World
  asked : Bool

def Request.isCompletion : Request → Bool
  | .completeManagedIdentityLifecycle _ => true
  | _ => false

def Trial.answer (S : Service) (e : Stamp) (q : Request) (s : Trial) :
    Except Failure q.Result × Trial :=
  ((Broker.answer S e q s.world).1, ⟨(Broker.answer S e q s.world).2, s.asked || q.isCompletion⟩)

/-- A request that would take effect does not, or its answer arrives and is accepted. -/
def Stamp.tells (e : Stamp) (accepted : Bool) : Bool :=
  match e.fate with
  | .down _ => true
  | .answered => accepted
  | .lost _ => false

/-- The response to a change of a user, if it is made, is accepted; and so is, in an action on
an identity that there is, the answer to the completion.  Nothing is asked of a change that takes
another one back. -/
def reported (S : Service) (e : Stamp) (q : Request) (s : Trial) : Bool :=
  match q with
  | .createUser email _ metadata =>
      match s.world.createUser e.user { email, metadata, enabled := true } with
      | .ok (user, _) =>
          e.tells (subjectFormat user.id.text && (managedProfile S.toLocale user).isOk)
      | .error _ => true
  | .updateUser subjectId patch =>
      s.asked ||
        match s.world.updateUser subjectId patch with
        | .ok (user, _) => e.tells (managedProfile S.toLocale user).isOk
        | .error _ => true
  | .completeManagedIdentityLifecycle p =>
      p.action == some "identity.create" ||
        match completeManagedIdentityLifecycle S.crypto e.statement p s.world.site with
        | .ok _ => e.tells true
        | .error _ => true
  | _ => true

/-- Nobody else changes anything during a call. -/
def trialDiscipline (S : Service) : Discipline Stamp Request Trial where
  valid _ := True
  rely s s' := s = s'
  guarantee _ _ := True
  allowed e q s := reported S e q s = true

abbrev Ends {α : Type} (S : Service) (post : Except Failure α → Trial → Prop) (p : Routine α)
    (s : Trial) : Prop :=
  Safe (Trial.answer S) (trialDiscipline S) post p s

theorem ends_await {S : Service} {post : Except Failure q.Result → Trial → Prop}
    {s : Trial} :
    Ends S post (Program.await q) s ↔
      ∀ e, reported S e q s = true → post (Trial.answer S e q s).1 (Trial.answer S e q s).2 := by
  refine System.safe_await.trans ⟨fun h e he => ?_, fun h e s' _ hs he => ?_⟩
  · exact (h e s True.intro rfl he).2.2
  · cases hs
    exact ⟨True.intro, True.intro, h e he⟩

/-! ## Requests that change nothing here -/

/-- Neither the users nor the completions of an action change. -/
structure Quiet (action : String) (w w' : World) : Prop where
  users : w'.site.users = w.site.users
  account : w'.account = w.account
  completions : completions action w'.site = completions action w.site

theorem Quiet.refl (action : String) (w : World) : Quiet action w w := ⟨rfl, rfl, rfl⟩

theorem Quiet.trans {action : String} {w' w'' : World} (h : Quiet action w w')
    (h' : Quiet action w' w'') : Quiet action w w'' where
  users := h'.users.trans h.users
  account := h'.account.trans h.account
  completions := h'.completions.trans h.completions

/-- A request that changes neither a user nor the completions. -/
def Request.quiet : Request → Bool
  | .claimInitialAdministrator _ _ => false
  | .completeManagedIdentityLifecycle _ => false
  | .createUser _ _ _ => false
  | .updateUser _ _ => false
  | .deleteUser _ => false
  | _ => true

def lifecycleActions : List String := ["identity.create", "profile.update", "enabled.change"]

section Quiet

variable {S : Service} {action : String} {site site' : Site}

theorem completions_append {x : Authority.Event} (hx : x.action ≠ lifecycleAction action ".succeeded")
    (hrows : site'.events.rows = site.events.rows ++ [x]) :
    completions action site' = completions action site := by
  simp [completions, hrows, hx]

theorem refresh_event_ne (ha : action ∈ lifecycleActions) :
    "console.identity.session.refresh" ≠ lifecycleAction action ".succeeded" := by
  have hall : ∀ a ∈ lifecycleActions,
      "console.identity.session.refresh" ≠ lifecycleAction a ".succeeded" := by decide
  exact hall action ha

theorem rotate_quiet (ha : action ∈ lifecycleActions)
    {p : ConsoleIdentity.RotationArgs} {v : ConsoleIdentity.RefreshOutcome}
    (h : ConsoleIdentity.rotateBrowserSessionCredentials C s p site = .ok (site', v)) :
    site'.users = site.users ∧ completions action site' = completions action site := by
  simp only [ConsoleIdentity.rotateBrowserSessionCredentials, bind_eq_ok] at h
  obtain ⟨_, -, r, -, _, -, x, -, h⟩ := h
  split at h
  next =>
    cases h
    exact ⟨rfl, rfl⟩
  next =>
    simp only [bind_eq_ok, pure_eq_ok] at h
    obtain ⟨aal, -, site₁, hput, site₂, happend, heq⟩ := h
    cases heq
    obtain ⟨y, hfrom, hrows⟩ := ConsoleIdentity.append_events happend
    simp only [Site.putSession, bind_eq_ok, pure_eq_ok] at hput
    obtain ⟨t, -, rfl⟩ := hput
    obtain ⟨t', rfl⟩ := ConsoleIdentity.append_eq_ok happend
    exact ⟨rfl, completions_append (hfrom.action ▸ refresh_event_ne ha) hrows⟩

theorem reject_quiet (ha : action ∈ lifecycleActions)
    {p : ConsoleIdentity.RejectArgs} {v : ConsoleIdentity.RefreshOutcome}
    (h : ConsoleIdentity.rejectBrowserSessionRefresh C s p site = .ok (site', v)) :
    site'.users = site.users ∧ completions action site' = completions action site := by
  simp only [ConsoleIdentity.rejectBrowserSessionRefresh, bind_eq_ok] at h
  obtain ⟨_, -, r, -, _, -, h⟩ := h
  split at h
  next =>
    cases h
    exact ⟨rfl, rfl⟩
  next =>
    simp only [bind_eq_ok, pure_eq_ok] at h
    obtain ⟨⟨site₁, n⟩, hrevoke, site₂, happend, heq⟩ := h
    cases heq
    obtain ⟨y, hfrom, hrows⟩ := ConsoleIdentity.append_events happend
    obtain ⟨t, -, rfl⟩ := ConsoleIdentity.revokeSessions_eq_ok hrevoke
    obtain ⟨t', rfl⟩ := ConsoleIdentity.append_eq_ok happend
    exact ⟨rfl, completions_append (hfrom.action ▸ refresh_event_ne ha) hrows⟩

theorem prepare_quiet (ha : action ∈ lifecycleActions)
    {p : ConsoleIdentity.LifecycleArgs} {v : Authority.SubjectAuthority}
    (h : ConsoleIdentity.prepareManagedIdentityLifecycle C s p site = .ok (site', v)) :
    site'.users = site.users ∧ completions action site' = completions action site := by
  obtain ⟨prepared, x, hvalid, hrows, hx, -⟩ := ConsoleIdentity.prepare_appends h
  obtain ⟨t, rfl⟩ := ConsoleIdentity.prepare_eq_ok h
  refine ⟨rfl, completions_append ?_ hrows⟩
  have hall : ∀ a ∈ ["identity.create", "profile.update", "enabled.change", "onboarding.link",
      "mfa.reset"], ∀ b ∈ lifecycleActions,
      lifecycleAction a ".accepted" ≠ lifecycleAction b ".succeeded" := by decide
  rw [hx]
  exact hall prepared hvalid.known action ha

theorem resolveCli_quiet {token : Option ConsoleIdentity.Bytes}
    {v : ConsoleIdentity.ResolvedCli}
    (h : ConsoleIdentity.resolveCliSession s token site = .ok (site', v)) :
    site'.users = site.users ∧ site'.events = site.events := by
  simp only [ConsoleIdentity.resolveCliSession, bind_eq_ok] at h
  obtain ⟨_, -, ⟨r, d, x⟩, -, h⟩ := h
  split at h
  next =>
    simp only [bind_eq_ok, pure_eq_ok] at h
    obtain ⟨t, -, t', -, heq⟩ := h
    cases heq
    exact ⟨rfl, rfl⟩
  next =>
    cases h
    exact ⟨rfl, rfl⟩

theorem store_quiet {e : Stamp} {run : Site → Except SqlError (Site × α)}
    (h : ∀ site x, run w.site = .ok (site, x) →
      site.users = w.site.users ∧ completions action site = completions action w.site) :
    Quiet action w (e.store w run).2 := by
  have hcases := e.store_cases w run
  generalize e.store w run = result at hcases
  cases hcases with
  | failed f => exact .refl action w
  | committed site x hfate hx | lost t site x hfate hx =>
      exact ⟨(h site x hx).1, rfl, (h site x hx).2⟩

/-- A request to Supabase Auth that is quiet where it takes effect. -/
theorem respond_quiet {e : Stamp} {result : Except Trouble (α × World)}
    (h : ∀ x w', result = .ok (x, w') → Quiet action w w') :
    Quiet action w (e.respond w result).2 := by
  have hcases := e.respond_cases w result
  generalize e.respond w result = response at hcases
  cases hcases with
  | refused t => exact .refl action w
  | done x w' hfate hx => exact h x w' hx
  | lost t x w' r hfate hx hunusable => exact h x w' hx

theorem answer_quiet (ha : action ∈ lifecycleActions) (e : Stamp)
    (hq : q.quiet = true) (w : World) : Quiet action w (answer S e q w).2 := by
  cases q with
  | resolveSession token csrf requireCsrf | getRefreshCredentials token csrf requireCsrf =>
      refine store_quiet fun site x hx => ?_
      simp only [bind_eq_ok, pure_eq_ok] at hx
      obtain ⟨v, -, heq⟩ := hx
      cases heq
      exact ⟨rfl, rfl⟩
  | bearer authorization =>
      have hsite : ∀ a : ConsoleIdentity.Action, ∀ token,
          a = .call e.statement (.resolveCliSession token) →
          (ConsoleIdentity.perform S.crypto a w.site).users = w.site.users ∧
            (ConsoleIdentity.perform S.crypto a w.site).events = w.site.events := by
        rintro _ token rfl
        rcases ConsoleIdentity.perform_cases S.crypto
          (.call e.statement (.resolveCliSession token)) w.site with hsame | hok
        · rw [hsame]
          exact ⟨rfl, rfl⟩
        · simp only [ConsoleIdentity.Action.exec, ConsoleIdentity.Call.exec] at hok
          obtain ⟨v, hv⟩ := ConsoleIdentity.fst_eq_ok hok
          exact resolveCli_quiet hv
      obtain ⟨husers, hevents⟩ := hsite _ _ rfl
      refine ⟨husers, rfl, ?_⟩
      show List.filter _ (ConsoleIdentity.perform _ _ w.site).events.rows = _
      rw [hevents]
      rfl
  | rotateCredentials p => exact store_quiet fun site x hx => rotate_quiet ha hx
  | rejectRefresh p => exact store_quiet fun site x hx => reject_quiet ha hx
  | prepareManagedIdentityLifecycle p =>
      refine store_quiet fun site x hx => ?_
      simp only [bind_eq_ok, pure_eq_ok] at hx
      obtain ⟨v, hv, heq⟩ := hx
      cases heq
      exact prepare_quiet ha hv
  | readUser subjectId =>
      refine respond_quiet fun x w' hx => ?_
      cases huser : w.user? subjectId with
      | none =>
          rw [huser] at hx
          cases hx
      | some user =>
          rw [huser] at hx
          cases hx
          exact .refl action w
  | generateLink email redirectTo =>
      refine respond_quiet fun x w' hx => ?_
      cases hx
      exact .refl action w
  | refreshToken token =>
      refine respond_quiet fun x w' hx => ?_
      rw [World.refreshToken] at hx
      split at hx
      · cases hx
      · cases hx
        exact ⟨rfl, rfl, rfl⟩
  | clock | wait milliseconds | randomBytes => exact .refl action w
  | claimInitialAdministrator | completeManagedIdentityLifecycle | createUser | updateUser
  | deleteUser => cases hq

theorem ends_quiet (ha : action ∈ lifecycleActions) {post : α → Prop} {p : Routine α}
    (h : p.Keeps (·.quiet = true) post) {b : Bool} :
    Ends S (fun r s => Quiet action w s.world ∧ s.asked = b ∧ ∀ x, r = .ok x → post x) p ⟨w, b⟩ := by
  induction p generalizing w with
  | pure x =>
      refine System.safe_pure.mpr ⟨.refl action w, rfl, ?_⟩
      rintro _ ⟨⟩
      exact h
  | throw e => exact System.safe_throw.mpr ⟨.refl action w, rfl, nofun⟩
  | ask q next ih =>
      refine System.safe_ask.mpr fun e s' _ hs _ => ?_
      cases hs
      have hquiet := answer_quiet (S := S) ha e h.1 w
      have hnot : q.isCompletion = false := by
        cases q <;> first | rfl | exact absurd h.1 (by simp [Request.quiet])
      refine ⟨True.intro, True.intro, ?_⟩
      simp only [Trial.answer, hnot, Bool.or_false]
      exact (ih _ (h.2 _)).imp fun r s hs => ⟨hquiet.trans hs.1, hs.2⟩

end Quiet

/-! ## The session of the caller -/

section Session

variable {S : Service} {r : HttpRequest} {requireCsrf : Bool}

-- no step below looks into the headers of the request
attribute [local irreducible] readBrowserSessionProof

theorem keeps_quiet (h : q.quiet = true) :
    (Program.await q : Routine q.Result).Keeps (·.quiet = true) fun _ => True :=
  Program.keeps_await h

theorem keeps_computed (x : Except Failure α) :
    (Program.lift x : Routine α).Keeps (·.quiet = true) fun _ => True :=
  Program.keeps_lift fun _ _ => True.intro

theorem baseResolveSession_keeps :
    (baseResolveSession S r requireCsrf).Keeps (·.quiet = true) fun _ => True :=
  (keeps_computed _).seq fun _ => keeps_quiet rfl

theorem refreshDue_keeps (session : Session) :
    (refreshDue session).Keeps (·.quiet = true) fun _ => True := by
  rw [refreshDue]
  split
  · exact True.intro
  · exact (keeps_quiet rfl).seq fun _ => True.intro

theorem peerPolls_keeps (l : List Nat) :
    (peerPolls S r requireCsrf l).Keeps (·.quiet = true) fun _ => True := by
  induction l with
  | nil => exact True.intro
  | cons milliseconds rest ih =>
      have hpause : (pause milliseconds).Keeps (·.quiet = true) fun _ => True := by
        rw [pause]
        split
        · exact True.intro
        · exact keeps_quiet rfl
      refine hpause.seq fun _ => baseResolveSession_keeps.seq fun latest =>
        (refreshDue_keeps latest).seq fun due => ?_
      cases due with
      | true => exact ih
      | false => exact True.intro

theorem catching_keeps {code : String} {p : Routine α}
    (h : p.Keeps (·.quiet = true) fun _ => True) :
    (catching code p).Keeps (·.quiet = true) fun _ => True := by
  have hsome : (do let x ← p; return some x : Routine (Option α)).Keeps (·.quiet = true)
      fun _ => True := h.seq fun _ => True.intro
  refine hsome.tryCatch fun e => ?_
  split <;> exact True.intro

theorem settled_keeps {message : String} :
    (settled S r requireCsrf message).Keeps (·.quiet = true) fun _ => True := by
  rw [settled]
  apply baseResolveSession_keeps.seq
  intro session
  apply (refreshDue_keeps session).seq
  intro due
  cases due <;> exact True.intro

theorem refreshRejected_keeps {current : RefreshCredentials} :
    (refreshRejected S r requireCsrf correlationId current).Keeps (·.quiet = true)
      fun _ => True := by
  rw [refreshRejected]
  apply (peerPolls_keeps _).seq
  intro peer
  cases peer with
  | some session => exact True.intro
  | none =>
      refine (keeps_quiet (q := Request.rejectRefresh _) rfl).seq fun outcome => ?_
      by_cases h : outcome = ConsoleIdentity.RefreshOutcome.peerRotated
      · simp only [h, if_true]
        exact settled_keeps
      · simp only [h, if_false]
        exact True.intro

theorem encrypt_keeps (value : String) :
    (encrypt S value).Keeps (·.quiet = true) fun _ => True :=
  (keeps_computed _).seq fun _ => (keeps_quiet rfl).seq fun _ => (keeps_computed _).seq
    fun _ => True.intro

theorem storeRefreshed_keeps {current : RefreshCredentials}
    {refreshed : Refreshed} :
    (storeRefreshed S r requireCsrf correlationId current refreshed).Keeps (·.quiet = true)
      fun _ => True :=
  (encrypt_keeps _).seq fun _ => (encrypt_keeps _).seq fun _ =>
    (keeps_quiet (q := Request.rotateCredentials _) rfl).seq fun _ =>
      (keeps_computed _).seq fun _ => settled_keeps

theorem presentToken_keeps (current : RefreshCredentials) :
    (presentToken S current).Keeps (·.quiet = true) fun _ => True :=
  (keeps_computed _).seq fun _ => (keeps_computed _).seq fun _ =>
    (keeps_quiet (q := Request.refreshToken _) rfl).seq fun _ => (keeps_computed _).seq fun _ =>
      (keeps_computed _).seq fun _ => (keeps_quiet (q := Request.clock) rfl).seq fun _ =>
        keeps_computed _

theorem refresh_keeps :
    (refresh S r requireCsrf correlationId).Keeps (·.quiet = true) fun _ => True := by
  rw [refresh]
  apply (keeps_computed _).seq
  intro proof
  apply (catching_keeps (keeps_quiet rfl)).seq
  intro found
  cases found with
  | none => exact baseResolveSession_keeps
  | some current =>
      apply (catching_keeps (presentToken_keeps current)).seq
      intro refreshed
      cases refreshed with
      | none => exact refreshRejected_keeps
      | some x => exact storeRefreshed_keeps

/-- The session of a caller is found without a change to a user. -/
theorem resolveSession_keeps :
    (resolveSession S r requireCsrf correlationId).Keeps (·.quiet = true) fun _ => True := by
  rw [resolveSession]
  split
  · exact keeps_quiet rfl
  · apply baseResolveSession_keeps.seq
    intro session
    apply (refreshDue_keeps session).seq
    intro due
    cases due with
    | true => exact refresh_keeps
    | false => exact True.intro

end Session

end Broker
