import OpenSphere.Broker.Profiles
import OpenSphere.Properties.Bootstrap
import OpenSphere.Properties.Trials

/-!
# Compensation for managed identities

A call that changes a managed identity prepares the change in the database, makes it in Supabase
Auth and completes it in the database.  If the completion fails it takes the change back, and if
that fails too it says so.

What it does not know it cannot take back.  A change in Supabase Auth whose response is lost is
left there, and a completion that has committed and whose answer is lost is taken for one that
has failed.  `reported` names the requests of a call that do what their answers say, and
`lifecycle_compensation` is about calls with such requests only.

For the creation of an identity a lost completion does no harm: the authority it has recorded
refers to the user, who cannot be deleted then.
-/

open Sql
open Js (Value)
open System (Discipline Program Safe)
open ConsoleIdentity (Site lifecycleAction CompletionArgs completeManagedIdentityLifecycle)
open Authority.Demo (second)

namespace Broker

variable {α : Type} {r : HttpRequest} {body : Value} {key target : String}
  {correlationId : Option String} {L : Locale} {u : Uuid} {w' : World} {l : Lifecycle}
  {session : Session} {c : LifecycleCall}

/-! ## What a call leaves -/

inductive LifecycleCall where
  | create (r : HttpRequest) (body : Value) (idempotencyKey : String)
      (correlationId : Option String)
  | updateProfile (r : HttpRequest) (targetSubjectId : String) (body : Value)
      (idempotencyKey : String) (correlationId : Option String)
  | setEnabled (r : HttpRequest) (targetSubjectId : String) (body : Value)
      (idempotencyKey : String) (correlationId : Option String)

def LifecycleCall.program (S : Service) : LifecycleCall → Routine Unit
  | .create r body key correlationId => do
      let _ ← createManagedIdentity S r body key correlationId
      return ()
  | .updateProfile r target body key correlationId => do
      let _ ← updateManagedIdentityProfile S r target body key correlationId
      return ()
  | .setEnabled r target body key correlationId => do
      let _ ← setManagedIdentityEnabled S r target body key correlationId
      return ()

def LifecycleCall.action : LifecycleCall → String
  | .create .. => "identity.create"
  | .updateProfile .. => "profile.update"
  | .setEnabled .. => "enabled.change"

/-- Supabase Auth reflects the requested change, and no other. -/
def LifecycleCall.Reflected (S : Service) (w w' : World) : LifecycleCall → Prop
  | .create _ body key _ => ∃ input u p, managedCreateInput S.toLocale body key = .ok input ∧
      u ∉ w.site.users ∧ w'.site.users = u :: w.site.users ∧
      (∀ v ≠ u, w'.account v = w.account v) ∧ managedProfile S.toLocale (w'.userOf u) = .ok p ∧
      p.username = input.username ∧ p.displayName = input.displayName ∧ p.email = input.email ∧
      p.enabled = true
  | .updateProfile _ target body key _ => ∃ input u p,
      managedProfileInput S.toLocale body key = .ok input ∧ target = u.text ∧ u ∈ w.site.users ∧
      w'.site.users = w.site.users ∧ (∀ v ≠ u, w'.account v = w.account v) ∧
      managedProfile S.toLocale (w'.userOf u) = .ok p ∧ p.displayName = input.displayName ∧
      p.email = input.email ∧ p.enabled = (w.account u).enabled
  | .setEnabled _ target body key _ => ∃ input u, managedEnabledInput body key = .ok input ∧
      target = u.text ∧ u ∈ w.site.users ∧ w'.site.users = w.site.users ∧
      w'.account = Function.update w.account u { w.account u with enabled := input.enabled }

/-- Supabase Auth is in its previous state: every profile is read as before, and an account in
the form in which the Console writes it is the same. -/
structure Restored (L : Locale) (w w' : World) : Prop where
  users : ∀ u, u ∈ w'.site.users ↔ u ∈ w.site.users
  profile : ∀ u ∈ w.site.users, managedProfile L (w'.userOf u) = managedProfile L (w.userOf u)
  account : ∀ u ∈ w.site.users, (w.account u).Normal L → w'.account u = w.account u

/-- The completion is recorded and Supabase Auth reflects the change, or it is not recorded and
Supabase Auth is in its previous state, or the error says that the effect is unknown. -/
def LifecycleCall.Settled (S : Service) (c : LifecycleCall) (w : World) (r : Except Failure Unit)
    (w' : World) : Prop :=
  ((∃ x, completions c.action w'.site = completions c.action w.site ++ [x]) ∧ c.Reflected S w w') ∨
  (completions c.action w'.site = completions c.action w.site ∧ Restored S.toLocale w w') ∨
  ∃ f, r = .error f ∧ f.sideEffect = some "unknown"

/-! ## The completion -/

section Completion

variable {S : Service} {site site' : Site}

theorem complete_records {C : ConsoleIdentity.Crypto} {s : Authority.Statement} {p : CompletionArgs}
    {v : Authority.SubjectAuthority} {action : String} (hp : p.action = some action)
    (h : completeManagedIdentityLifecycle C s p site = .ok (site', v)) :
    site'.users = site.users ∧ ∃ x, completions action site' = completions action site ++ [x] := by
  refine ⟨?_, ?_⟩
  · obtain ⟨u, action, site₁, w, t, -, -, hcomplete, rfl, -⟩ := ConsoleIdentity.complete_eq_ok h
    rcases ConsoleIdentity.completeAction_eq_ok hcomplete with
      ⟨x, hx, -⟩ | ⟨x, hx, -, hrevoke, -⟩ | ⟨rfl, -⟩
    · obtain ⟨-, t₁, g, -, -, rfl⟩ := ConsoleIdentity.createIdentity_eq_ok hx
      rfl
    · obtain ⟨t₁, t₂, -, rfl⟩ := ConsoleIdentity.revokeIdentity_eq_ok hrevoke
      rfl
    · rfl
  · obtain ⟨_, e, x, -, -, hrows, hx⟩ := ConsoleIdentity.complete_appends h
    have hname : lifecycleAction action ".succeeded" = x.action := by
      rw [ConsoleIdentity.completionOf, hp] at hx
      exact Option.some.inj (of_decide_eq_true (Bool.and_eq_true_iff.mp hx).1)
    exact ⟨x, by simp [completions, hrows, hname]⟩

/-- The completion of a creation leaves a row that refers to the user. -/
theorem complete_refers {C : ConsoleIdentity.Crypto} {s : Authority.Statement} {p : CompletionArgs}
    {v : Authority.SubjectAuthority} (hp : p.action = some "identity.create")
    (hu : p.targetSubjectId = some u)
    (h : completeManagedIdentityLifecycle C s p site = .ok (site', v)) :
    refersTo site' u = true := by
  obtain ⟨u', action, site₁, w, t, hu', haction, hcomplete, rfl, -⟩ :=
    ConsoleIdentity.complete_eq_ok h
  cases hu.symm.trans hu'
  cases hp.symm.trans haction
  simp only [Site.completeAction, if_true, bind_eq_ok, pure_eq_ok] at hcomplete
  obtain ⟨⟨site₂, x⟩, hx, heq⟩ := hcomplete
  cases heq
  obtain ⟨rfl, t₁, g, hinsert, -, rfl⟩ := ConsoleIdentity.createIdentity_eq_ok hx
  refine refersTo_subject (a := ⟨u, s.rowId, 1, 0⟩) ?_ rfl
  show _ ∈ t₁.rows
  rw [Table.insert_rows hinsert]
  exact List.mem_append_right _ (List.mem_singleton_self _)

/-- A completion of the action has been recorded, and no user has changed. -/
structure Recorded (action : String) (w w' : World) : Prop where
  users : w'.site.users = w.site.users
  account : w'.account = w.account
  recorded : ∃ x, completions action w'.site = completions action w.site ++ [x]

/-- Where a completion ends.  A creation may be recorded without an answer; then a row refers to
the user. -/
theorem complete_ends {w : World} :
    Ends S (fun r s => s.asked = true ∧
      ((∃ f, r = .error f ∧ s.world = w) ∨ (r = .ok () ∧ Recorded l.action w s.world) ∨
        ∃ f, r = .error f ∧ l.action = "identity.create" ∧ Recorded l.action w s.world ∧
          ∀ u, castUuid target = some u → refersTo s.world.site u = true))
      (complete l session target) ⟨w, false⟩ := by
  refine (ends_await (q := Request.completeManagedIdentityLifecycle _)).mpr fun e hreported =>
    ⟨by simp [Trial.answer, Request.isCompletion], ?_⟩
  simp only [reported] at hreported
  simp only [Trial.answer, answer]
  generalize hp : ({ l.args session (some target) with
    revokeSessions := some l.revokeSessions, effectCount := some 0 } : CompletionArgs) = p
    at hreported ⊢
  have haction : p.action = some l.action := by rw [← hp]; rfl
  have htarget : p.targetSubjectId = castUuid target := by rw [← hp]; rfl
  have hcases := e.store_cases w fun site => do
    let v ← completeManagedIdentityLifecycle S.crypto e.statement p site
    return (v.1, ())
  generalize e.store w _ = result at hcases ⊢
  -- what a completion that commits leaves
  have hrecorded : ∀ site x, (do
      let v ← completeManagedIdentityLifecycle S.crypto e.statement p w.site
      return (v.1, ()) : Except SqlError (Site × Unit)) = .ok (site, x) →
      ∃ v, completeManagedIdentityLifecycle S.crypto e.statement p w.site = .ok (site, v) ∧
        Recorded l.action w { w with site } := by
    intro site x hx
    simp only [bind_eq_ok, pure_eq_ok] at hx
    obtain ⟨⟨site₁, v⟩, hv, heq⟩ := hx
    cases heq
    obtain ⟨husers, hrow⟩ := complete_records haction hv
    exact ⟨v, hv, husers, rfl, hrow⟩
  cases hcases with
  | failed f => exact .inl ⟨f, rfl, rfl⟩
  | committed site x hfate hx => exact .inr (.inl ⟨rfl, (hrecorded site x hx).choose_spec.2⟩)
  | lost t site x hfate hx =>
      obtain ⟨v, hv, hrow⟩ := hrecorded site x hx
      have hcreate : l.action = "identity.create" := by
        simpa [hv, Stamp.tells, hfate, Lifecycle.args] using hreported
      exact .inr (.inr ⟨_, rfl, hcreate, hrow, fun u hu =>
        complete_refers (haction.trans (congrArg some hcreate)) (htarget.trans hu) hv⟩)

end Completion

/-! ## The client -/

section Client

variable {S : Service} {w : World} {b : Bool} {subjectId : String}

theorem userSubject_eq_ok {value t : String} (h : userSubject value = .ok t) : t = value := by
  simp only [userSubject, bind_eq_ok, pure_eq_ok] at h
  obtain ⟨_, -, rfl⟩ := h
  rfl

theorem readAdminUser_ends :
    Ends S (fun r s => s = ⟨w, b⟩ ∧ ∀ user, r = .ok user →
      ∃ u, subjectId = u.text ∧ u ∈ w.site.users ∧ user = w.userOf u)
      (readAdminUser S subjectId) ⟨w, b⟩ := by
  refine System.safe_lift_bind (fun _ _ => ?_) fun _ _ => ⟨rfl, by simp⟩
  refine System.safe_lift_bind (fun t ht => ?_) fun _ _ => ⟨rfl, by simp⟩
  cases userSubject_eq_ok ht
  refine Safe.bind (m := fun r s => s = ⟨w, b⟩ ∧ ∀ user, r = .ok (.document user) →
    w.user? subjectId = some user) ?_ ?_ fun _ _ hs => ⟨hs.1, by simp⟩
  · refine (ends_await (q := Request.readUser subjectId)).mpr fun e _ => ?_
    simp only [Trial.answer, answer, Request.isCompletion, Bool.or_false]
    have hfound : ∀ x w', (w.user? subjectId).elim (.error (.status 404))
        (fun user => .ok (user, w)) = (.ok (x, w') : Except Trouble (User × World)) →
        w' = w ∧ w.user? subjectId = some x := by
      intro x w' hx
      cases huser : w.user? subjectId with
      | none => simp [huser] at hx
      | some user =>
          simp only [huser, Option.elim_some, Except.ok.injEq, Prod.mk.injEq] at hx
          exact ⟨hx.2.symm, congrArg some hx.1⟩
    have hcases := e.respond_cases w ((w.user? subjectId).elim (.error (.status 404))
      fun user => .ok (user, w))
    generalize e.respond w _ = result at hcases ⊢
    cases hcases with
    | refused t => exact ⟨rfl, by simp⟩
    | done x w' hfate hx =>
        obtain ⟨rfl, huser⟩ := hfound x w' hx
        refine ⟨rfl, ?_⟩
        rintro _ ⟨⟩
        exact huser
    | lost t x w' r hfate hx hunusable =>
        obtain ⟨rfl, -⟩ := hfound x w' hx
        exact ⟨rfl, fun user hr => absurd (Except.ok.inj hr) (hunusable user)⟩
  rintro response _ ⟨rfl, hresponse⟩
  refine System.safe_lift_bind (fun user huser => ?_) fun _ _ => ⟨rfl, by simp⟩
  refine System.safe_lift_bind (fun _ htext => System.safe_pure.mpr ⟨rfl, ?_⟩) fun _ _ => ⟨rfl, by simp⟩
  rintro _ ⟨⟩
  obtain ⟨u, -, hmem, rfl⟩ := user?_eq_some (hresponse user (congrArg _ (request_eq_ok.mp huser)))
  have hsame : (w.userOf u).id.text = subjectId := by simpa using failIf_eq_ok.mp htext
  exact ⟨u, hsame.symm, hmem, rfl⟩

def World.updated (w : World) (u : Uuid) (patch : Patch) : World :=
  { w with account := Function.update w.account u ((w.userOf u).update patch).toAccount }

@[simp] theorem updated_userOf (u : Uuid) (patch : Patch) :
    (w.updated u patch).userOf u = (w.userOf u).update patch := by
  cases patch <;> simp [World.updated, World.userOf, User.update]

theorem updated_userOf_of_ne {v : Uuid} (h : v ≠ u) (patch : Patch) :
    (w.updated u patch).userOf v = w.userOf v := by
  simp [World.updated, World.userOf, Function.update_of_ne h]

theorem updateUser_ends (patch : Patch) :
    Ends S (fun r s =>
      (s = ⟨w, b⟩ ∧ ∃ t, r = .ok (.trouble t)) ∨
      (s = ⟨w.updated u patch, b⟩ ∧ r = .ok (.document ((w.userOf u).update patch)) ∧
        (b = false → ∃ p, managedProfile S.toLocale ((w.userOf u).update patch) = .ok p)) ∨
      (b = true ∧ ∃ response, r = .ok response ∧ response.Unusable))
      (Program.await (Request.updateUser u.text patch)) ⟨w, b⟩ := by
  refine (ends_await (q := Request.updateUser u.text patch)).mpr fun e hreported => ?_
  simp only [Trial.answer, answer, Request.isCompletion, Bool.or_false]
  simp only [reported] at hreported
  have hcases := e.respond_cases w (w.updateUser u.text patch)
  generalize e.respond w _ = result at hcases ⊢
  cases hcases with
  | refused t => exact .inl ⟨rfl, t, rfl⟩
  | done x w' hfate hx =>
      rw [hx] at hreported
      obtain ⟨v, hv, -, rfl, rfl⟩ := updateUser_eq_ok hx
      cases (castUuid_text u).symm.trans hv
      refine .inr (.inl ⟨rfl, rfl, ?_⟩)
      rintro rfl
      simp only [Stamp.tells, hfate, Bool.false_or] at hreported
      cases hread : managedProfile S.toLocale ((w.userOf u).update patch) with
      | ok p => exact ⟨p, rfl⟩
      | error f =>
          rw [hread] at hreported
          cases hreported
  | lost t x w' r hfate hx hunusable =>
      rw [hx] at hreported
      simp only [Stamp.tells, hfate, Bool.or_false] at hreported
      exact .inr (.inr ⟨hreported, r, rfl, hunusable⟩)

/-- Where an update of a user ends.  Until the completion it changes nothing if it fails. -/
theorem changeUser_ends {patch : User → Patch} {message : String}
    {confirm : Profile → Except Failure Unit}
    (hconfirm : b = false → ∀ u after, subjectId = u.text →
      managedProfile S.toLocale ((w.userOf u).update (patch (w.userOf u))) = .ok after →
        confirm after = .ok ()) :
    Ends S (fun r s => (∀ f, r = .error f → b = false → s = ⟨w, b⟩) ∧
      ∀ before, r = .ok before → ∃ u after, subjectId = u.text ∧ u ∈ w.site.users ∧
        managedProfile S.toLocale (w.userOf u) = .ok before ∧
        managedProfile S.toLocale ((w.userOf u).update (patch (w.userOf u))) = .ok after ∧
        confirm after = .ok () ∧ s = ⟨w.updated u (patch (w.userOf u)), b⟩)
      (changeUser S subjectId patch message confirm) ⟨w, b⟩ := by
  refine System.safe_lift_bind (fun t ht => ?_) fun _ _ => ⟨fun _ _ _ => rfl, nofun⟩
  cases userSubject_eq_ok ht
  refine Safe.bind readAdminUser_ends ?_ fun _ _ hs => ⟨fun _ _ _ => hs.1, nofun⟩
  rintro current _ ⟨rfl, hcurrent⟩
  obtain ⟨u, rfl, hmem, rfl⟩ := hcurrent current rfl
  refine System.safe_lift_bind (fun before hbefore => ?_) fun _ _ => ⟨fun _ _ _ => rfl, nofun⟩
  refine Safe.bind (updateUser_ends (patch (w.userOf u))) ?_ ?_
  · rintro response s (⟨rfl, t, hr⟩ | ⟨rfl, hr, hread⟩ | ⟨rfl, r, hr, hunusable⟩)
    · cases hr
      refine System.safe_lift_bind (fun x hx => nomatch hx) fun _ _ => ⟨fun _ _ _ => rfl, nofun⟩
    · cases hr
      refine System.safe_lift_bind (fun updated hupdated => ?_) fun f hf => by cases hf
      cases request_eq_ok.mp hupdated
      refine System.safe_lift_bind (fun after hafter => ?_) fun f hf => ⟨fun _ _ hb => ?_, nofun⟩
      · refine System.safe_lift_bind (fun _ hok => ?_) fun f hf => ⟨fun _ _ hb => ?_, nofun⟩
        · refine System.safe_pure.mpr ⟨nofun, ?_⟩
          rintro _ ⟨⟩
          exact ⟨u, after, rfl, hmem, hbefore, hafter, hok, rfl⟩
        · rw [hconfirm hb u after rfl hafter] at hf
          cases hf
      · obtain ⟨p, hp⟩ := hread hb
        rw [hp] at hf
        cases hf
    · cases hr
      refine System.safe_lift_bind (fun x hx => ?_) fun _ _ => ⟨nofun, nofun⟩
      exact absurd (request_eq_ok.mp hx) (hunusable x)
  · rintro f s (⟨-, t, hr⟩ | ⟨-, hr, -⟩ | ⟨-, r, hr, -⟩) <;> cases hr

/-- Where a program ends that makes up for its errors: what it made up for is as the undoing left
it, and an undoing that failed is reported. -/
theorem compensating_ends {p : Routine α} {undo : Routine Unit}
    {mid post : Except Failure α → Trial → Prop} (undone : Failure → Trial → Prop) {s : Trial}
    (h : Ends S mid p s) (hok : ∀ x s, mid (.ok x) s → post (.ok x) s)
    (hundo : ∀ f s, mid (.error f) s →
      Ends S (fun r s => ∀ x, r = .ok x → undone f s) undo s)
    (hundone : ∀ f s, undone f s → post (.error f) s)
    (hunknown : ∀ f s, f.sideEffect = some "unknown" → post (.error f) s) :
    Ends S post (compensating p undo) s := by
  refine Safe.tryCatch h hok fun f s hmid => ?_
  refine Safe.bind (m := fun r s => (∃ x, r = .ok x ∧ undone f s) ∨
    ∃ f, r = .error f ∧ f.sideEffect = some "unknown") ?_ ?_ ?_
  · refine Safe.tryCatch (hundo f s hmid) (fun x s hs => .inl ⟨x, rfl, hs x rfl⟩) ?_
    exact fun _ s _ => System.safe_throw.mpr (.inr ⟨_, rfl, rfl⟩)
  · rintro x s (⟨_, -, hs⟩ | ⟨_, h, -⟩)
    · exact System.safe_throw.mpr (hundone f s hs)
    · cases h
  · rintro f' s (⟨_, h, -⟩ | ⟨_, h, hf⟩)
    · cases h
    · cases h
      exact hunknown f' s hf

theorem change_ends {message message' : String}
    {patch : User → Patch} {confirm : Profile → Except Failure Unit} {back : Profile → User → Patch}
    {confirm' : Profile → Profile → Except Failure Unit} (hl : l.action ≠ "identity.create")
    (hconfirm : ∀ u after, target = u.text →
      managedProfile S.toLocale ((w.userOf u).update (patch (w.userOf u))) = .ok after →
        confirm after = .ok ()) :
    Ends S (fun r s =>
      (∃ u after, target = u.text ∧ u ∈ w.site.users ∧
        managedProfile S.toLocale ((w.userOf u).update (patch (w.userOf u))) = .ok after ∧
        confirm after = .ok () ∧ Recorded l.action (w.updated u (patch (w.userOf u))) s.world) ∨
      s.world = w ∨
      (∃ u before after, target = u.text ∧ u ∈ w.site.users ∧
        managedProfile S.toLocale (w.userOf u) = .ok before ∧
        s.world = (w.updated u (patch (w.userOf u))).updated u
          (back before ((w.userOf u).update (patch (w.userOf u)))) ∧
        managedProfile S.toLocale (s.world.userOf u) = .ok after ∧
        confirm' before after = .ok ()) ∨
      ∃ f, r = .error f ∧ f.sideEffect = some "unknown")
      (do
        let previous ← changeUser S target patch message confirm
        compensating (complete l session target) do
          let _ ← changeUser S target (back previous) message' (confirm' previous)
          return ()
        return target) ⟨w, false⟩ := by
  refine Safe.bind (changeUser_ends fun _ => hconfirm) ?_ ?_
  · rintro previous s ⟨-, hchanged⟩
    obtain ⟨u, after, rfl, hmem, hbefore, hafter, hconfirmed, rfl⟩ := hchanged previous rfl
    generalize hchange : patch (w.userOf u) = p at hafter ⊢
    refine Safe.bind (m := fun r s => (r = .ok () ∧ Recorded l.action (w.updated u p) s.world) ∨
      (∃ after, s.world = (w.updated u p).updated u (back previous ((w.userOf u).update p)) ∧
        managedProfile S.toLocale (s.world.userOf u) = .ok after ∧
        confirm' previous after = .ok ()) ∨
      ∃ f, r = .error f ∧ f.sideEffect = some "unknown") ?_ ?_ ?_
    · refine compensating_ends (fun _ s => ∃ after,
        s.world = (w.updated u p).updated u (back previous ((w.userOf u).update p)) ∧
          managedProfile S.toLocale (s.world.userOf u) = .ok after ∧
          confirm' previous after = .ok ()) complete_ends ?_ ?_ (fun f s hs => .inr (.inl hs))
        (fun f s hf => .inr (.inr ⟨f, rfl, hf⟩))
      · rintro x s ⟨-, ⟨f, h, -⟩ | ⟨-, hrecorded⟩ | ⟨f, h, -⟩⟩
        · cases h
        · exact .inl ⟨rfl, hrecorded⟩
        · cases h
      · rintro f ⟨world, asked⟩ ⟨rfl, ⟨_, -, rfl⟩ | ⟨h, -⟩ | ⟨_, -, hcreate, -⟩⟩
        · refine Safe.bind (changeUser_ends nofun) ?_ fun _ _ _ => nofun
          rintro _ s ⟨-, hback⟩
          obtain ⟨v, last, hv, -, -, hlast, hconfirmed', rfl⟩ := hback _ rfl
          cases Uuid.text_injective hv
          rw [updated_userOf] at hlast ⊢
          refine System.safe_pure.mpr fun _ _ => ⟨last, rfl, ?_, hconfirmed'⟩
          rw [updated_userOf, updated_userOf]
          exact hlast
        · cases h
        · exact absurd hcreate hl
    · rintro _ s (⟨-, hrecorded⟩ | ⟨last, hworld, hlast, hconfirmed'⟩ | ⟨f, h, -⟩)
      · exact System.safe_pure.mpr (.inl ⟨u, after, rfl, hmem, hchange ▸ hafter, hconfirmed,
          hchange ▸ hrecorded⟩)
      · exact System.safe_pure.mpr (.inr (.inr (.inl ⟨u, previous, last, rfl, hmem, hbefore,
          hchange ▸ hworld, hlast, hconfirmed'⟩)))
      · cases h
    · rintro f s (⟨h, -⟩ | ⟨last, hworld, hlast, hconfirmed'⟩ | ⟨f', h, hunknown⟩)
      · cases h
      · exact .inr (.inr (.inl ⟨u, previous, last, rfl, hmem, hbefore, hchange ▸ hworld, hlast,
          hconfirmed'⟩))
      · cases h
        exact .inr (.inr (.inr ⟨f, rfl, hunknown⟩))
  · rintro f s ⟨hsame, -⟩
    cases hsame f rfl rfl
    exact .inr (.inl rfl)

def World.created (w : World) (u : Uuid) (account : Account) : World :=
  { w with
    site := { w.site with users := u :: w.site.users }
    account := Function.update w.account u account }

@[simp] theorem created_users (u : Uuid) (account : Account) :
    (w.created u account).site.users = u :: w.site.users := rfl

@[simp] theorem created_account (u : Uuid) (account : Account) :
    (w.created u account).account = Function.update w.account u account := rfl

def CreateInput.account (input : CreateInput) : Account where
  email := input.email
  metadata := namedMetadata input.username input.displayName
  enabled := true

theorem createManagedUser_ends {input : CreateInput}
    (husername : usernameFormat 62 input.username = true)
    (haccepted : Accepted S.toLocale input.displayName input.email) :
    Ends S (fun r s => (∃ f, r = .error f ∧ s = ⟨w, false⟩) ∨
      ∃ u p, r = .ok u.text ∧ S.adminKey = true ∧ u ∉ w.site.users ∧
        s = ⟨w.created u input.account, false⟩ ∧
        managedProfile S.toLocale { input.account with id := u } = .ok p ∧
        p.username = input.username ∧ p.displayName = input.displayName ∧ p.email = input.email)
      (createManagedUser S input) ⟨w, false⟩ := by
  refine System.safe_lift_bind (fun _ hkey => ?_) fun f _ => .inl ⟨f, rfl, rfl⟩
  have hkey : S.adminKey = true := by simpa using failIf_eq_ok.mp hkey
  refine Safe.bind (m := fun r s => (s = ⟨w, false⟩ ∧ ∃ t, r = .ok (.trouble t)) ∨
    ∃ u p, u ∉ w.site.users ∧ s = ⟨w.created u input.account, false⟩ ∧
      r = .ok (.document { input.account with id := u }) ∧ subjectFormat u.text = true ∧
      managedProfile S.toLocale { input.account with id := u } = .ok p) ?_ ?_ ?_
  · refine (ends_await (q := Request.createUser _ _ _)).mpr fun e hreported => ?_
    simp only [Trial.answer, answer, Request.isCompletion, Bool.or_false]
    simp only [reported] at hreported
    have hcases := e.respond_cases w (w.createUser e.user input.account)
    change e.Responds w (w.createUser e.user input.account) (e.respond w (w.createUser e.user
      { email := input.email, metadata := _, enabled := true })) at hcases
    generalize e.respond w _ = result at hcases ⊢
    cases hcases with
    | refused t => exact .inl ⟨rfl, t, rfl⟩
    | done x w' hfate hx =>
        erw [hx] at hreported
        obtain ⟨hnew, rfl, rfl⟩ := createUser_eq_ok hx
        simp only [Stamp.tells, hfate, Bool.and_eq_true] at hreported
        cases hread : managedProfile S.toLocale { input.account with id := e.user } with
        | ok p => exact .inr ⟨e.user, p, hnew, rfl, rfl, hreported.1, hread⟩
        | error f =>
            rw [hread] at hreported
            cases hreported.2
    | lost t x w' r hfate hx hunusable =>
        erw [hx] at hreported
        simp [Stamp.tells, hfate] at hreported
  · rintro response s (⟨rfl, t, hr⟩ | ⟨u, p, hnew, rfl, hr, hformat, hread⟩)
    · cases hr
      exact System.safe_lift_bind (fun _ hx => by cases hx) fun f _ => .inl ⟨f, rfl, rfl⟩
    · cases hr
      have hmail : ({ input.account with id := u } : User).email = input.email := rfl
      have hmetadata : ({ input.account with id := u } : User).metadata =
        namedMetadata input.username input.displayName := rfl
      obtain ⟨hname, hdisplay, hemail⟩ :=
        created_profile husername haccepted hmail hmetadata hread
      refine System.safe_lift_bind (fun created hcreated => ?_) fun f hf => by cases hf
      cases request_eq_ok.mp hcreated
      have hconfirmed : confirmCreated S input { input.account with id := u } = .ok u.text :=
        confirmCreated_eq_ok haccepted hformat hread hname hdisplay hemail
      rw [hconfirmed]
      exact System.safe_lift.mpr (.inr ⟨u, p, rfl, hkey, hnew, rfl, hread, hname, hdisplay, hemail⟩)
  · rintro f s (⟨-, t, hr⟩ | ⟨u, p, -, -, hr, -⟩) <;> cases hr

theorem deleteManagedUser_ends (hkey : S.adminKey = true) :
    Ends S (fun r s => ∀ x, r = .ok x → refersTo w.site u = false ∧
      s.world = { w with site := { w.site with users := w.site.users.filter (· ≠ u) } })
      (deleteManagedUser S u.text) ⟨w, b⟩ := by
  rw [deleteManagedUser, if_pos hkey]
  refine System.safe_lift_bind (fun t ht => ?_) fun _ _ => by simp
  cases userSubject_eq_ok ht
  refine Safe.bind (m := fun r s => (∃ t, r = .ok (.trouble t)) ∨ refersTo w.site u = false ∧
    s.world = { w with site := { w.site with users := w.site.users.filter (· ≠ u) } }) ?_ ?_
    fun _ _ _ => by simp
  · refine (ends_await (q := Request.deleteUser u.text)).mpr fun e _ => ?_
    simp only [Trial.answer, answer]
    have heffect : ∀ x w', w.deleteUser u.text = .ok (x, w') → refersTo w.site u = false ∧
        w' = { w with site := { w.site with users := w.site.users.filter (· ≠ u) } } := by
      intro x w' hx
      obtain ⟨v, hv, -, hrefers, rfl⟩ := deleteUser_eq_ok hx
      cases (castUuid_text u).symm.trans hv
      exact ⟨hrefers, rfl⟩
    have hcases := e.respond_cases w (w.deleteUser u.text)
    generalize e.respond w _ = result at hcases ⊢
    cases hcases with
    | refused t => exact .inl ⟨t, rfl⟩
    | done x w' hfate hx => exact .inr (heffect x w' hx)
    | lost t x w' r hfate hx hunusable => exact .inr (heffect x w' hx)
  · rintro response s (⟨t, hr⟩ | hdeleted)
    · cases hr
      exact System.safe_lift.mpr fun _ h => by cases h
    · exact System.safe_lift.mpr fun _ _ => hdeleted

theorem readAdminUser_keeps :
    (readAdminUser S subjectId).Keeps (·.quiet = true) fun _ => True :=
  (keeps_computed _).seq fun _ => (keeps_computed _).seq fun _ =>
    (keeps_quiet (q := Request.readUser _) rfl).seq fun _ => (keeps_computed _).seq fun _ =>
      (keeps_computed _).seq fun _ => True.intro

theorem recoveryLink_keeps :
    (createManagedUserRecoveryLink S subjectId).Keeps (·.quiet = true) fun _ => True := by
  refine (keeps_computed _).seq fun _ => readAdminUser_keeps.seq fun user => ?_
  dsimp only
  -- whether the address is valid is of no interest, and slow to compute
  generalize emailInvalid (Js.trim user.email) = invalid
  refine (keeps_computed _).seq fun _ => ?_
  refine (keeps_quiet (q := Request.generateLink _ _) rfl).seq fun _ => ?_
  exact (keeps_computed _).seq fun _ => keeps_computed _

end Client

/-! ## The calls -/

section Calls

variable {S : Service} {w : World}

theorem Restored.of_quiet {action : String} (h : Quiet action w w') :
    Restored L w w' where
  users u := by rw [h.users]
  profile u _ := by simp only [World.userOf, h.account]
  account u _ _ := by rw [h.account]

/-- The session of the caller and the preparation change no user. -/
theorem prepared_ends {action : String} (ha : action ∈ lifecycleActions)
    {target : Option String}
    {rest : Session → Routine α} {post : Except Failure α → Trial → Prop}
    (hrest : ∀ session w', Quiet action w w' → Ends S post (rest session) ⟨w', false⟩)
    (herror : ∀ f w', Quiet action w w' → post (.error f) ⟨w', false⟩) :
    Ends S post (do
      let session ← resolveSession S r true correlationId
      prepare l session target
      rest session) ⟨w, false⟩ := by
  refine Safe.bind (ends_quiet ha resolveSession_keeps) ?_ ?_
  · rintro session ⟨w₁, _⟩ ⟨hquiet, rfl, -⟩
    refine Safe.bind (ends_quiet ha
      (keeps_quiet (q := Request.prepareManagedIdentityLifecycle _) rfl)) ?_ ?_
    · rintro _ ⟨w₂, _⟩ ⟨hquiet', rfl, -⟩
      exact hrest session w₂ (hquiet.trans hquiet')
    · rintro f ⟨w₂, _⟩ ⟨hquiet', rfl, -⟩
      exact herror f w₂ (hquiet.trans hquiet')
  · rintro f ⟨w₁, _⟩ ⟨hquiet, rfl, -⟩
    exact herror f w₁ hquiet

theorem LifecycleCall.settled_of_quiet {r : Except Failure Unit}
    (h : Quiet c.action w w') : c.Settled S w r w' :=
  .inr (.inl ⟨h.completions, .of_quiet h⟩)

theorem LifecycleCall.settled_of_unknown {f : Failure}
    (h : f.sideEffect = some "unknown") : c.Settled S w (.error f) w' :=
  .inr (.inr ⟨f, rfl, h⟩)

/-- A call is settled with respect to a world before it that differs in nothing of interest. -/
theorem LifecycleCall.Settled.of_quiet {r : Except Failure Unit} {w₁ : World}
    (hquiet : Quiet c.action w w₁) (h : c.Settled S w₁ r w') : c.Settled S w r w' := by
  have huser : ∀ u, w₁.userOf u = w.userOf u := fun u => by
    simp only [World.userOf, hquiet.account]
  rw [LifecycleCall.Settled, hquiet.completions] at h
  rcases h with ⟨hrecorded, hreflected⟩ | ⟨hsame, hrestored⟩ | hunknown
  · refine .inl ⟨hrecorded, ?_⟩
    cases c <;> simpa only [Reflected, hquiet.users, hquiet.account] using hreflected
  · refine .inr (.inl ⟨hsame, ?_, ?_, ?_⟩)
    · simpa only [hquiet.users] using hrestored.users
    · simpa only [hquiet.users, huser] using hrestored.profile
    · simpa only [hquiet.users, hquiet.account] using hrestored.account
  · exact .inr (.inr hunknown)

/-- A user that is updated twice is restored if the second update brings it back. -/
theorem Restored.of_updated {p p' : Patch}
    (hprofile : managedProfile L (((w.userOf u).update p).update p') = managedProfile L (w.userOf u))
    (haccount : (w.account u).Normal L → ((w.userOf u).update p).update p' = w.userOf u) :
    Restored L w ((w.updated u p).updated u p') where
  users _ := Iff.rfl
  profile v _ := by
    by_cases hv : v = u
    · rw [hv, updated_userOf, updated_userOf, hprofile]
    · rw [updated_userOf_of_ne hv, updated_userOf_of_ne hv]
  account v _ hnormal := by
    by_cases hv : v = u
    · rw [hv] at hnormal ⊢
      have hback := haccount hnormal
      rw [← updated_userOf, ← updated_userOf] at hback
      exact congrArg User.toAccount hback
    · have hsame := (updated_userOf_of_ne (w := w.updated u p) hv p').trans
        (updated_userOf_of_ne hv p)
      exact congrArg User.toAccount hsame

theorem ends_unit {p : Routine α} {post : Except Failure Unit → Trial → Prop} {s : Trial}
    (h : Ends S (fun r s => post (r.map fun _ => ()) s) p s) :
    Ends S post (do let _ ← p; return ()) s :=
  Safe.bind h (fun _ _ hs => System.safe_pure.mpr hs) fun _ _ hs => hs

theorem managedSubject_eq_ok {value t : String} (h : managedSubject value = .ok t) : t = value := by
  simp only [managedSubject, bind_eq_ok, pure_eq_ok] at h
  obtain ⟨_, -, rfl⟩ := h
  rfl

theorem setEnabled_settled :
    Ends S (fun x s => (LifecycleCall.setEnabled r target body key correlationId).Settled S w x
      s.world) (LifecycleCall.program S (.setEnabled r target body key correlationId))
      ⟨w, false⟩ := by
  refine ends_unit ?_
  have ha : "enabled.change" ∈ lifecycleActions := by decide
  refine System.safe_lift_bind (fun t ht => ?_) fun f _ =>
    LifecycleCall.settled_of_quiet (.refl _ w)
  obtain rfl := managedSubject_eq_ok ht
  refine System.safe_lift_bind (fun input hinput => ?_) fun f _ =>
    LifecycleCall.settled_of_quiet (.refl _ w)
  refine prepared_ends ha (fun session w₁ hquiet => ?_) fun f w' hquiet =>
    LifecycleCall.settled_of_quiet hquiet
  have hother : (enabledChange S t input correlationId).action ≠ "identity.create" := by
    simp [enabledChange]
  refine Safe.imp (change_ends hother ?_) ?_
  · intro u after hu hafter
    obtain ⟨hid, -, -, -, henabled⟩ := managedProfile_eq_ok hafter
    rw [confirmEnabled, failIf_eq_ok]
    simp [hid, hu, henabled, User.update, World.userOf]
  rintro x ⟨w₂, b⟩ (⟨u, after, hu, hmem, -, -, hrecorded⟩ | hsame |
    ⟨u, before, after, hu, hmem, hbefore, hworld, -, -⟩ | ⟨f, rfl, hf⟩)
  · refine .of_quiet hquiet (.inl ⟨hrecorded.recorded, input, u, hinput, hu, hmem, ?_, ?_⟩)
    · exact hrecorded.users
    · exact hrecorded.account
  · obtain rfl : w₂ = w₁ := hsame
    exact LifecycleCall.settled_of_quiet hquiet
  · refine .of_quiet hquiet (.inr (.inl ?_))
    obtain ⟨-, -, -, -, henabled⟩ := managedProfile_eq_ok hbefore
    have hback : ((w₁.userOf u).update (.ban input.enabled)).update (.ban before.enabled) =
        w₁.userOf u := by
      rw [henabled]
      rfl
    obtain rfl : w₂ = _ := hworld
    exact ⟨rfl, .of_updated (congrArg _ hback) fun _ => hback⟩
  · exact LifecycleCall.settled_of_unknown hf

theorem updateProfile_settled :
    Ends S (fun x s => (LifecycleCall.updateProfile r target body key correlationId).Settled S w x
      s.world) (LifecycleCall.program S (.updateProfile r target body key correlationId))
      ⟨w, false⟩ := by
  refine ends_unit ?_
  have ha : "profile.update" ∈ lifecycleActions := by decide
  refine System.safe_lift_bind (fun t ht => ?_) fun f _ =>
    LifecycleCall.settled_of_quiet (.refl _ w)
  obtain rfl := managedSubject_eq_ok ht
  refine System.safe_lift_bind (fun input hinput => ?_) fun f _ =>
    LifecycleCall.settled_of_quiet (.refl _ w)
  have haccepted := profileInput_eq_ok hinput
  refine prepared_ends ha (fun session w₁ hquiet => ?_) fun f w' hquiet =>
    LifecycleCall.settled_of_quiet hquiet
  have hother : (profileUpdate S t input correlationId).action ≠ "identity.create" := by
    simp [profileUpdate]
  refine Safe.imp (change_ends hother ?_) ?_
  · intro u after hu hafter
    obtain ⟨hid, -, -, -, -⟩ := managedProfile_eq_ok hafter
    obtain ⟨hname, hemail⟩ := updated_profile haccepted hafter
    rw [confirmProfile, failIf_eq_ok]
    simp [hid, hu, hname, hemail, haccepted.lower, User.update, World.userOf, profilePatch]
  rintro x ⟨w₂, b⟩ (⟨u, after, hu, hmem, hafter, -, hrecorded⟩ | hsame |
    ⟨u, before, after, hu, hmem, hbefore, hworld, hafter, hconfirmed⟩ | ⟨f, rfl, hf⟩)
  · have hread : w₂.account = (w₁.updated u _).account := hrecorded.account
    obtain ⟨hname, hemail⟩ := updated_profile haccepted hafter
    obtain ⟨-, -, -, -, henabled⟩ := managedProfile_eq_ok hafter
    refine .of_quiet hquiet (.inl ⟨hrecorded.recorded, input, u, after, hinput, hu, hmem,
      hrecorded.users, fun v hv => ?_, ?_, hname, hemail, henabled⟩)
    · rw [hread]
      exact congrArg User.toAccount (updated_userOf_of_ne hv _)
    · have huser : w₂.userOf u = (w₁.userOf u).update (profilePatch input.displayName input.email
          (w₁.userOf u)) := by
        rw [← updated_userOf, World.userOf, World.userOf, hread]
      rw [huser]
      exact hafter
  · obtain rfl : w₂ = w₁ := hsame
    exact LifecycleCall.settled_of_quiet hquiet
  · refine .of_quiet hquiet (.inr (.inl ?_))
    obtain rfl : w₂ = _ := hworld
    rw [updated_userOf, updated_userOf] at hafter
    have hchecked : after.displayName = before.displayName ∧
        after.email = S.toLowerCase before.email := by
      rw [confirmProfile, failIf_eq_ok] at hconfirmed
      simp only [Bool.or_eq_false_iff, bne_eq_false_iff_eq] at hconfirmed
      exact ⟨hconfirmed.1.2, hconfirmed.2⟩
    have hback := restored_profile hbefore hafter hchecked.1 hchecked.2
    refine ⟨rfl, .of_updated ?_ fun hnormal => restored_account hnormal hbefore⟩
    rw [hafter, hback, hbefore]
  · exact LifecycleCall.settled_of_unknown hf

theorem onboard_ends (hl : l.action = "identity.create")
    :
    Ends S (fun r s =>
      (∃ path, r = .ok path ∧ Recorded "identity.create" w s.world) ∨
      (∃ f, r = .error f ∧ Quiet "identity.create" w s.world) ∨
      ∃ f, r = .error f ∧ refersTo s.world.site u = true)
      (onboard S l session u.text) ⟨w, false⟩ := by
  have ha : "identity.create" ∈ lifecycleActions := by decide
  refine Safe.bind (ends_quiet ha recoveryLink_keeps) ?_ ?_
  · rintro path ⟨w₁, _⟩ ⟨hquiet, rfl, -⟩
    refine Safe.bind complete_ends ?_ ?_
    · rintro _ s ⟨-, ⟨f, h, -⟩ | ⟨-, hrecorded⟩ | ⟨f, h, -⟩⟩
      · cases h
      · rw [hl] at hrecorded
        refine System.safe_pure.mpr (.inl ⟨path, rfl, ?_, ?_, ?_⟩)
        · rw [hrecorded.users, hquiet.users]
        · rw [hrecorded.account, hquiet.account]
        · rw [← hquiet.completions]
          exact hrecorded.recorded
      · cases h
    · rintro f s ⟨-, ⟨_, -, hworld⟩ | ⟨h, -⟩ | ⟨_, -, -, -, hrefers⟩⟩
      · exact .inr (.inl ⟨f, rfl, hworld ▸ hquiet⟩)
      · cases h
      · exact .inr (.inr ⟨f, rfl, hrefers u (castUuid_text u)⟩)
  · rintro f ⟨w₁, _⟩ ⟨hquiet, rfl, -⟩
    exact .inr (.inl ⟨f, rfl, hquiet⟩)

theorem Restored.of_deleted {account : Account}
    (hnew : u ∉ w.site.users)
    (husers : w'.site.users = (w.created u account).site.users.filter (· ≠ u))
    (haccount : w'.account = (w.created u account).account) : Restored L w w' := by
  have hother : ∀ v ∈ w.site.users, w'.account v = w.account v := by
    intro v hv
    have hne : v ≠ u := fun h => hnew (h ▸ hv)
    rw [haccount, created_account, Function.update_of_ne hne]
  refine ⟨fun v => ?_, fun v hv => ?_, fun v hv _ => hother v hv⟩
  · simp only [husers, created_users, List.mem_filter, List.mem_cons, ne_eq, decide_not,
      Bool.not_eq_true', decide_eq_false_iff_not]
    constructor
    · rintro ⟨rfl | hv, hne⟩
      · exact absurd rfl hne
      · exact hv
    · exact fun hv => ⟨.inr hv, fun h => hnew (h ▸ hv)⟩
  · rw [World.userOf, hother v hv, World.userOf]

theorem create_settled :
    Ends S (fun x s => (LifecycleCall.create r body key correlationId).Settled S w x s.world)
      (LifecycleCall.program S (.create r body key correlationId)) ⟨w, false⟩ := by
  refine ends_unit ?_
  have ha : "identity.create" ∈ lifecycleActions := by decide
  refine System.safe_lift_bind (fun input hinput => ?_) fun f _ =>
    LifecycleCall.settled_of_quiet (.refl _ w)
  obtain ⟨husername, haccepted⟩ := createInput_eq_ok hinput
  refine prepared_ends ha (fun session w₁ hquiet => ?_) fun f w' hquiet =>
    LifecycleCall.settled_of_quiet hquiet
  refine Safe.bind (createManagedUser_ends husername haccepted) ?_ ?_
  · rintro _ _ (⟨f, h, -⟩ | ⟨u, p, h, hkey, hnew, rfl, hread, hname, hdisplay, hemail⟩)
    · cases h
    cases h
    have hl : (creation S input correlationId).action = "identity.create" := rfl
    -- what is left after a deletion that has succeeded
    refine Safe.bind (m := fun (x : Except Failure String) (s : Trial) =>
      (LifecycleCall.create r body key correlationId).Settled S w (x.map fun _ => ()) s.world)
      (compensating_ends
        (fun _ s => completions "identity.create" s.world.site = completions "identity.create" w₁.site ∧
          Restored S.toLocale w₁ s.world)
        (onboard_ends hl) ?_ ?_ ?_ ?_) ?_ fun _ _ hs => hs
    · rintro path s (⟨_, -, hrecorded⟩ | ⟨f, h, -⟩ | ⟨f, h, -⟩)
      · have huser : s.world.userOf u = { input.account with id := u } := by
          rw [World.userOf, hrecorded.account, created_account, Function.update_self]
        refine .of_quiet hquiet (.inl ⟨hrecorded.recorded, input, u, p, hinput, hnew,
          hrecorded.users, fun v hv => ?_, huser ▸ hread, hname, hdisplay, hemail, ?_⟩)
        · rw [hrecorded.account, created_account, Function.update_of_ne hv]
        · exact (managedProfile_eq_ok hread).2.2.2.2
      · cases h
      · cases h
    · rintro f ⟨w₂, asked⟩ (⟨_, h, -⟩ | ⟨_, -, hquiet'⟩ | ⟨_, -, hrefers⟩)
      · cases h
      · refine (deleteManagedUser_ends hkey).imp fun x s hs y hy => ?_
        obtain ⟨-, hworld⟩ := hs y hy
        rw [hworld]
        exact ⟨hquiet'.completions, .of_deleted hnew (congrArg _ hquiet'.users) hquiet'.account⟩
      · refine (deleteManagedUser_ends hkey).imp fun x s hs y hy => ?_
        rw [(hs y hy).1] at hrefers
        cases hrefers
    · exact fun f s hs => .of_quiet hquiet (.inr (.inl hs))
    · exact fun f s hf => LifecycleCall.settled_of_unknown hf
    · exact fun path s hs => System.safe_pure.mpr hs
  · rintro f s (⟨_, -, rfl⟩ | ⟨u, p, h, -⟩)
    · exact LifecycleCall.settled_of_quiet hquiet
    · cases h

end Calls

theorem exec_trial {S : Service} (p : Routine α) (es : Nat → Stamp) (s : Trial) :
    (p.exec (Trial.answer S) es s).1 = (p.exec (Broker.answer S) es s.world).1 ∧
      (p.exec (Trial.answer S) es s).2.world = (p.exec (Broker.answer S) es s.world).2 := by
  induction p generalizing es s with
  | pure x => exact ⟨rfl, rfl⟩
  | throw e => exact ⟨rfl, rfl⟩
  | ask q next ih => exact ih _ _ _

namespace Demo

open ConsoleIdentity (hours lifecycleEvidence perform)
open ConsoleIdentity.Demo (crypto after login promotion created claimed entered event loginHash)
open Authority.Demo (alice)

/-- Alice, who has just shown her second factor, and a colleague who is a viewer. -/
def staffed : World where
  site := after [
    .users [alice, root],
    login (second 2) 1 "aal1" false,
    .call (second 3) (.completeStepUp (promotion (second 3) 102)),
    .call (second 4) (.prepareManagedIdentityLifecycle ConsoleIdentity.Demo.creation),
    .call (second 5) (.completeManagedIdentityLifecycle (created root "console-viewers"))]
  account _ := ⟨"carol@console.local", namedMetadata "carol" "Carol", true⟩
  spent := []

/-- The rows of the site once she has shown it. -/
def promotedSite : Site :=
  { entered with
    users := [alice, root]
    sessions := ⟨entered.sessions.rows.map fun r => { r with
      aal := .aal2
      lastReauthenticatedAt := some (second 3).now
      accessTokenExpiresAt := some ((second 3).now + hours 1) }, by decide, by decide⟩
    events := ⟨entered.events.rows ++ [
      event 3 "console.identity.session.step_up" (String.append "browser-session:" (⟨102⟩ : Uuid).text)
        "aal2" (.object [
          ("sessionId", .ofText (⟨102⟩ : Uuid).text),
          ("aal", .ofText "aal2"),
          ("reauthenticatedAt", Authority.jsonTime (some (second 3).now)),
          ("permissionRevision", .ofInt 1),
          ("revokeEpoch", .ofInt 0)]) (some loginHash)
        "sha256:00000000000000000000000000000000000000000000000000000000370ecae8"], by decide, by decide⟩ }

/-- The rows once the colleague is a viewer. -/
def staffedSite : Site :=
  { promotedSite with
    subjects := ⟨claimed.subjects.rows ++ [⟨root, ⟨105⟩, 1, 0⟩], by decide, by decide⟩
    grants := ⟨claimed.grants.rows ++ ConsoleIdentity.newGrants root 1
      (ConsoleIdentity.managedRolePermissions .nativeOsaaServingAuthority "console-viewers"),
      by decide, by decide⟩
    events := ⟨promotedSite.events.rows ++ [
      { event 4 "console.identity.lifecycle.identity_create.accepted" "managed-identity:new"
          "a new colleague" (.object ([
            ("action", .ofText "identity.create"),
            ("requestDigest", Authority.jsonText ConsoleIdentity.Demo.creation.requestDigest),
            ("idempotencyDigest", .ofText
              "sha256:0000000000000000000000000000000000000000000000000000000000000008"),
            ("actorPermissionRevision", .ofInt 1),
            ("actorRevokeEpoch", .ofInt 0)] ++ lifecycleEvidence ConsoleIdentity.Demo.creation))
          (some "sha256:00000000000000000000000000000000000000000000000000000000370ecae8")
          "sha256:000000000000000000000000000000000000000000000000000000009fcd9980" with
        outcome := .accepted },
      event 5 "console.identity.lifecycle.identity_create.succeeded"
        (String.append "subject:" root.text) "a new colleague" (.object ([
          ("action", .ofText "identity.create"),
          ("requestDigest", Authority.jsonText ConsoleIdentity.Demo.creation.requestDigest),
          ("acceptedEventId", .ofText (second 4).eventId.text),
          ("permissionRevision", .ofInt 1),
          ("revokeEpoch", .ofInt 0),
          ("revokedSessionCount", .ofInt 0)] ++ lifecycleEvidence ConsoleIdentity.Demo.creation))
        (some "sha256:000000000000000000000000000000000000000000000000000000009fcd9980")
        "sha256:00000000000000000000000000000000000000000000000000000000eb689ac2"], by decide, by decide⟩ }

theorem promoted_site :
    perform crypto (.call (second 3) (.completeStepUp (promotion (second 3) 102)))
      (perform crypto (login (second 2) 1 "aal1" false)
        (perform crypto (.users [alice, root]) claimed)) = promotedSite := by
  decide +kernel

theorem staffed_site : staffed.site = staffedSite := by
  rw [staffed, ConsoleIdentity.Demo.after_claim, System.run, System.run, System.run, promoted_site]
  decide +kernel

def answered (n : Nat) : Stamp :=
  { stamp (second (6 + n)) with bearer := .ok ⟨⟨102⟩, alice, 1, 0, none⟩ }

/-- The completion, which is the fifth request, has its effect and loses its answer. -/
def unanswered (n : Nat) : Stamp :=
  { answered n with fate := if n = 4 then .lost none else .answered }

def leaving : LifecycleCall :=
  .setEnabled { authorization := "Bearer alice" } root.text
    (.ofList [("enabled", .boolean false), ("reason", .string "a colleague leaves")])
    "key-0002" (some "correlation")

def ended (es : Nat → Stamp) : Except Failure Unit × World :=
  (leaving.program service).exec (Broker.answer service) es staffed

/-- The two ways in which the call ends. -/
theorem leaving_runs :
    ((leaving.program service).Meets (Trial.answer service)
        (fun e q s => reported service e q s = true) answered ⟨staffed, false⟩ ∧
      ((ended answered).2.account root).enabled = false) ∧
    (ended unanswered).1 = .error authorityUnavailable ∧
      ((ended unanswered).2.account root).enabled = true ∧
      (completions "enabled.change" (ended unanswered).2.site).length = 1 ∧
      (completions "enabled.change" staffed.site).length = 0 := by
  have htrial : (ended answered).2 =
      ((leaving.program service).exec (Trial.answer service) answered ⟨staffed, false⟩).2.world :=
    (exec_trial (leaving.program service) answered ⟨staffed, false⟩).2.symm
  have hstaffed : staffed = { staffed with site := staffedSite } := by rw [← staffed_site]
  rw [htrial, ended, hstaffed]
  refine ⟨?_, ?_⟩
  · decide +kernel
  · decide +kernel

end Demo

end Broker
