import OpenSphere.Properties.Sessions

/-!
# Lifecycle intents

A lifecycle action on a managed identity is accepted in one transaction and completed
in another, with the work of Supabase Auth between the two.  The completion finds the
accepted event by its actor, action, target, key and request digest.  It asks neither
whether that event was completed before nor whether it names the same roles and the same
enabled value.

So `lifecycle_intents` is about runs in which every completion finds an intent that is
still open and repeats its terms, and `intent_completed_twice` shows what the function
does otherwise.  Anything else may happen to the site between the calls, as long as the
ledger is only appended to, which its triggers see to.
-/

open Sql
open Authority (Statement Event)
open Authority.Demo (alice bob second)
open System (Along Taken run)

namespace ConsoleIdentity

variable {n : Nat} {p : CompletionArgs} {e : Event} {v : Authority.SubjectAuthority}

/-! ## Runs of lifecycle calls -/

/-- Whatever else happens to a site. -/
structure Interlude where
  next : Site → Site
  /-- The ledger is append-only. -/
  appends : ∀ site, site.events.rows <+: (next site).events.rows

inductive LifecycleStep where
  | prepare (s : Statement) (p : LifecycleArgs)
  | complete (s : Statement) (p : CompletionArgs)
  | other (i : Interlude)

/-- The site after a step.  A call that raises leaves it alone. -/
def LifecycleStep.perform (C : Crypto) : LifecycleStep → Site → Site
  | .prepare s p, site =>
      ((prepareManagedIdentityLifecycle C s p site).toOption.map (·.1)).getD site
  | .complete s p, site =>
      ((completeManagedIdentityLifecycle C s p site).toOption.map (·.1)).getD site
  | .other i, site => i.next site

def Site.acceptedIntent (C : Crypto) (site : Site) (p : LifecycleArgs) : Option Event :=
  ((site.acceptedEvents C p).filter fun e =>
    Cond.and (eq (some e.targetRef) (lifecycleTargetRef p))
      (eq (e.evidence.getText "requestDigest") p.requestDigest) == some true).getLast?

def completionOf (p : LifecycleArgs) (e x : Event) : Bool :=
  decide (p.action.map (fun a => lifecycleAction a ".succeeded") = some x.action) &&
    decide (x.evidence.getText "acceptedEventId" = some e.eventId.text)

/-- The request repeats the roles and the enabled value of an accepted event. -/
def sameTerms (p : LifecycleArgs) (e : Event) : Bool :=
  decide (e.evidence.get "roles" = (Jsonb.object (lifecycleEvidence p)).get "roles") &&
    decide (e.evidence.get "enabled" = (Jsonb.object (lifecycleEvidence p)).get "enabled")

/-- A completion finds an intent that is still open, and repeats its terms. -/
def Faithful (C : Crypto) : LifecycleStep → Site → Prop
  | .complete _ p, site =>
      ((site.acceptedIntent C p.toLifecycleArgs).all fun e =>
        !(site.events.rows.any (completionOf p.toLifecycleArgs e)) &&
          sameTerms p.toLifecycleArgs e) = true
  | _, _ => True

instance (C : Crypto) : ∀ a site, Decidable (Faithful C a site)
  | .prepare .., _ => .isTrue True.intro
  | .complete .., _ => inferInstanceAs (Decidable (_ = true))
  | .other _, _ => .isTrue True.intro

def Acceptance (C : Crypto) (start : Site) (as : List LifecycleStep) (n : Nat)
    (p : LifecycleArgs) (e : Event) : Prop :=
  ∃ s site site' v, Taken (LifecycleStep.perform C) start as n (.prepare s p) site ∧
    prepareManagedIdentityLifecycle C s p site = .ok (site', v) ∧
    site'.events.rows = site.events.rows ++ [e]

def Completion (C : Crypto) (start : Site) (as : List LifecycleStep) (n : Nat)
    (p : CompletionArgs) (e : Event) : Prop :=
  ∃ s site site' v, Taken (LifecycleStep.perform C) start as n (.complete s p) site ∧
    completeManagedIdentityLifecycle C s p site = .ok (site', v) ∧
    site.acceptedIntent C p.toLifecycleArgs = some e

/-! ## What the calls append -/

section Calls

variable {C : Crypto} {s : Statement} {site site' : Site}

theorem append_events {e : Authority.EventArgs} (h : site.append C.digest s e = .ok site') :
    ∃ x : Event, x.From e ∧ site'.events.rows = site.events.rows ++ [x] := by
  simp only [Site.append, bind_eq_ok, pure_eq_ok] at h
  obtain ⟨db, hdb, rfl⟩ := h
  obtain ⟨x, t, rfl, hfrom, hinsert⟩ := Authority.appendEvent_rows hdb
  exact ⟨x, hfrom, Table.insert_rows hinsert⟩

structure LifecycleArgs.Valid (p : LifecycleArgs) (action : String) : Prop where
  named : p.action = some action
  known : action ∈ ["identity.create", "profile.update", "enabled.change", "onboarding.link",
    "mfa.reset"]
  enabled : p.enabled ≠ none ↔ action = "enabled.change"
  roles : action ≠ "identity.create" → p.distinctRoles = []

theorem valid_of_passed {p : LifecycleArgs} (h : ∀ c ∈ lifecycleInvalid p, c ≠ some true) :
    ∃ action, p.Valid action := by
  have hnull := isNull_passed (h (isNull p.action) (by simp [lifecycleInvalid]))
  obtain ⟨action, haction⟩ := Option.ne_none_iff_exists'.mp hnull
  refine ⟨action, haction, ?_, ?_, ?_⟩
  · have hknown := h (notIn p.action ["identity.create", "profile.update", "enabled.change",
      "onboarding.link", "mfa.reset"]) (by simp [lifecycleInvalid])
    rw [haction] at hknown
    exact notIn_passed hknown
  · have henabled := h (ne (eq p.action (some "enabled.change")) (isNotNull p.enabled))
      (by simp [lifecycleInvalid])
    rw [haction] at henabled
    have hsame := ne_passed henabled (show eq (some action) (some "enabled.change") =
      some (decide (action = "enabled.change")) from rfl) rfl
    cases hp : p.enabled <;> simp_all
  · intro hne
    have hroles := h (.and (ne p.action (some "identity.create"))
      (some (decide (p.distinctRoles.length ≠ 0)))) (by simp [lifecycleInvalid])
    rw [haction] at hroles
    by_contra hsome
    refine hroles ((Cond.and_eq_true _ _).mpr ⟨by simp [hne], ?_⟩)
    simpa using hsome

theorem prepare_appends {p : LifecycleArgs}
    (h : prepareManagedIdentityLifecycle C s p site = .ok (site', v)) :
    ∃ action x, p.Valid action ∧ site'.events.rows = site.events.rows ++ [x] ∧
      x.action = lifecycleAction action ".accepted" ∧
      some x.actorRef = uuidText p.actor.actorRef ∧
      (∀ k ∈ ["roles", "enabled"],
        x.evidence.get k = (Jsonb.object (lifecycleEvidence p)).get k) := by
  simp only [prepareManagedIdentityLifecycle, bind_eq_ok, raiseIf_eq_ok] at h
  obtain ⟨_, hargs, actor, -, _, -, h⟩ := h
  obtain ⟨action, hvalid⟩ := valid_of_passed fun c hc =>
    any_ne_true hargs c (List.mem_append_left _ hc)
  split at h
  next =>
    simp only [bind_eq_ok] at h
    obtain ⟨_, -, h⟩ := h
    cases h
  next =>
    simp only [bind_eq_ok, notNull_eq_ok, pure_eq_ok] at h
    obtain ⟨action', haction', site₁, happend, heq⟩ := h
    cases heq
    cases hvalid.named.symm.trans haction'
    obtain ⟨x, hfrom, hrows⟩ := append_events happend
    refine ⟨action, x, hvalid, hrows, hfrom.action, hfrom.actorRef.symm, ?_⟩
    intro k hk
    -- the fields before those of the action have other names
    rw [hfrom.evidence]
    simp only [identityEvent, Jsonb.get_object, List.reverse_append, List.lookup_append]
    have hnone : (List.reverse [
        ("action", Jsonb.ofText action),
        ("requestDigest", Authority.jsonText p.requestDigest),
        ("idempotencyDigest", Authority.jsonText (idempotencyDigest C p)),
        ("actorPermissionRevision", .ofInt v.permissionRevision),
        ("actorRevokeEpoch", .ofInt v.revokeEpoch)]).lookup k = none := by
      rcases List.mem_pair.mp hk with rfl | rfl <;> rfl
    rw [hnone]
    simp

/-- The fields of the action are its roles and its enabled value. -/
theorem lifecycleEvidence_lookup {p : LifecycleArgs} {k : String} (hk : k ∉ ["roles", "enabled"]) :
    (lifecycleEvidence p).reverse.lookup k = none := by
  simp only [List.mem_cons, List.not_mem_nil, or_false, not_or] at hk
  have hroles : (k == "roles") = false := by simpa using hk.1
  have henabled : (k == "enabled") = false := by simpa using hk.2
  have hall : ∀ kv ∈ (lifecycleEvidence p).reverse, (k == kv.1) = false := by
    intro kv hkv
    simp only [lifecycleEvidence, List.mem_reverse, List.mem_append] at hkv
    rcases hkv with hkv | hkv
    · split at hkv
      · rw [List.mem_singleton.mp hkv]
        exact hroles
      · cases hkv
    · split at hkv
      · obtain ⟨b, -, rfl⟩ := Option.map_eq_some_iff.mp (Option.mem_toList.mp hkv)
        exact henabled
      · cases hkv
  exact List.lookup_eq_none_iff.mpr fun kv hkv => by simpa using hall kv hkv

/-- The work of a completion leaves the ledger alone. -/
theorem completeAction_events {u : Uuid} {action : String}
    {v : Authority.SubjectAuthority × Nat} (h : site.completeAction s p u action = .ok (site', v)) :
    site'.events = site.events := by
  rcases completeAction_eq_ok h with ⟨x, hx, -⟩ | ⟨x, -, -, hrevoke, -⟩ | ⟨rfl, -⟩
  · obtain ⟨-, t, g, -, -, rfl⟩ := createIdentity_eq_ok hx
    rfl
  · obtain ⟨t₁, t₂, -, rfl⟩ := revokeIdentity_eq_ok hrevoke
    rfl
  · rfl

theorem complete_appends
    (h : completeManagedIdentityLifecycle C s p site = .ok (site', v)) :
    ∃ action e x, p.toLifecycleArgs.Valid action ∧
      site.acceptedIntent C p.toLifecycleArgs = some e ∧
      site'.events.rows = site.events.rows ++ [x] ∧ completionOf p.toLifecycleArgs e x = true := by
  simp only [completeManagedIdentityLifecycle, bind_eq_ok, orRaise_eq_ok, raiseIf_eq_ok,
    notNull_eq_ok, pure_eq_ok] at h
  obtain ⟨_, hargs, _, -, e, he, u, -, action, haction, ⟨site₁, x, n⟩, hcomplete, site₂, happend,
    heq⟩ := h
  cases heq
  obtain ⟨action', hvalid⟩ := valid_of_passed fun c hc =>
    any_ne_true hargs c (List.mem_append_left _ (List.mem_cons_of_mem _ hc))
  cases hvalid.named.symm.trans haction
  obtain ⟨y, hfrom, hrows⟩ := append_events happend
  refine ⟨action, e, y, hvalid, he, ?_, ?_⟩
  · rw [hrows, completeAction_events hcomplete]
  · have hother : (lifecycleEvidence p.toLifecycleArgs).reverse.lookup "acceptedEventId" = none :=
      lifecycleEvidence_lookup (by simp)
    rw [completionOf, haction, hfrom.action, hfrom.evidence]
    simp only [identityEvent, Jsonb.getText_object, List.reverse_append, List.lookup_append, hother]
    split <;> simp [List.lookup_cons]

/-! ## What an accepted event fixes -/

theorem lifecycleAction_injective {a b : String}
    (ha : a ∈ ["identity.create", "profile.update", "enabled.change", "onboarding.link",
      "mfa.reset"])
    (hb : b ∈ ["identity.create", "profile.update", "enabled.change", "onboarding.link",
      "mfa.reset"])
    (h : lifecycleAction a ".accepted" = lifecycleAction b ".accepted") : a = b := by
  have hall : ∀ a ∈ ["identity.create", "profile.update", "enabled.change", "onboarding.link",
      "mfa.reset"], ∀ b ∈ ["identity.create", "profile.update", "enabled.change",
      "onboarding.link", "mfa.reset"],
      lifecycleAction a ".accepted" = lifecycleAction b ".accepted" → a = b := by
    decide
  exact hall a ha b hb h

theorem acceptedIntent_eq_some {p : LifecycleArgs}
    (h : site.acceptedIntent C p = some e) :
    some e.actorRef = uuidText p.actor.actorRef ∧
      p.action.map (fun a => lifecycleAction a ".accepted") = some e.action := by
  have hmem := List.mem_of_getLast? h
  have hevents := (List.mem_filter.mp hmem).1
  have hcond := (List.mem_filter.mp hevents).2
  rw [beq_iff_eq, Cond.all_eq_true] at hcond
  obtain ⟨ref, href, href'⟩ := (eq_eq_true _ _).mp (hcond _ (List.mem_cons_self ..))
  obtain ⟨action, haction, haction'⟩ := (eq_eq_true _ _).mp
    (hcond _ (List.mem_cons_of_mem _ (List.mem_cons_self ..)))
  exact ⟨href.trans href'.symm, haction'.trans haction.symm⟩

theorem jsonTexts_injective {l l' : List (Option String)} (h : jsonTexts l = jsonTexts l') :
    l = l' := by
  have hitems := congrArg Jsonb.tree h
  simp only [jsonTexts, Json.arr.injEq] at hitems
  clear h
  induction l generalizing l' with
  | nil =>
      cases l' with
      | nil => rfl
      | cons t l' => cases hitems
  | cons t l ih =>
      cases l' with
      | nil => cases hitems
      | cons t' l' =>
          simp only [List.foldr_cons, Items.cons.injEq] at hitems
          rw [ih hitems.2]
          cases t <;> cases t' <;> simp_all

/-- Two requests for one action with the same fields ask for the same. -/
theorem terms_injective {p q : LifecycleArgs} {action : String} (hp : p.Valid action)
    (hq : q.Valid action)
    (hfields : ∀ k ∈ ["roles", "enabled"],
      (Jsonb.object (lifecycleEvidence p)).get k = (Jsonb.object (lifecycleEvidence q)).get k) :
    p.distinctRoles = q.distinctRoles ∧ p.enabled = q.enabled := by
  have hroles := hfields "roles" (by simp)
  have henabled := hfields "enabled" (by simp)
  simp only [Jsonb.get_object, lifecycleEvidence, hp.named, hq.named, Option.some.injEq]
    at hroles henabled
  constructor
  · by_cases hcreate : action = "identity.create"
    · subst hcreate
      simp only [if_true, show ¬ ("identity.create" = "enabled.change") by decide, if_false,
        List.append_nil, List.reverse_singleton, List.lookup_cons, beq_self_eq_true,
        Option.some.injEq] at hroles
      exact jsonTexts_injective hroles
    · rw [hp.roles hcreate, hq.roles hcreate]
  · by_cases hchange : action = "enabled.change"
    · subst hchange
      obtain ⟨b, hb⟩ := Option.ne_none_iff_exists'.mp (hp.enabled.mpr rfl)
      obtain ⟨b', hb'⟩ := Option.ne_none_iff_exists'.mp (hq.enabled.mpr rfl)
      rw [hb, hb'] at henabled ⊢
      simp only [show ¬ ("enabled.change" = "identity.create") by decide, if_false, if_true,
        Option.map_some, Option.toList_some, List.nil_append, List.reverse_singleton, List.lookup_cons,
        beq_self_eq_true, Option.some.injEq] at henabled
      rw [Jsonb.ofBool_injective henabled]
    · have hnone := fun h => hchange (hp.enabled.mp h)
      have hnone' := fun h => hchange (hq.enabled.mp h)
      rw [not_not.mp hnone, not_not.mp hnone']

end Calls

/-! ## Runs -/

section Runs

variable {C : Crypto} {start : Site} {as : List LifecycleStep}

theorem perform_complete {s : Statement} {site site' : Site}
    (h : completeManagedIdentityLifecycle C s p site = .ok (site', v)) :
    LifecycleStep.perform C (.complete s p) site = site' := by
  simp [LifecycleStep.perform, h, Except.toOption]

theorem LifecycleStep.perform_events (C : Crypto) (a : LifecycleStep) (site : Site) :
    site.events.rows <+: (a.perform C site).events.rows := by
  cases a with
  | prepare s p =>
      cases h : prepareManagedIdentityLifecycle C s p site with
      | error e => simp [perform, h, Except.toOption]
      | ok v =>
          obtain ⟨action, x, -, hrows, -⟩ := prepare_appends h
          simp only [perform, h, Except.toOption, Option.map_some, Option.getD_some, hrows]
          exact List.prefix_append ..
  | complete s p =>
      cases h : completeManagedIdentityLifecycle C s p site with
      | error e => simp [perform, h, Except.toOption]
      | ok v =>
          obtain ⟨action, e, x, -, -, hrows, -⟩ := complete_appends h
          rw [perform_complete h, hrows]
          exact List.prefix_append ..
  | other i => exact i.appends site

theorem run_events (C : Crypto) (as : List LifecycleStep) (site : Site) :
    site.events.rows <+: (run (LifecycleStep.perform C) as site).events.rows :=
  System.run_relation (R := fun x y : Site => x.events.rows <+: y.events.rows)
    (fun _ => List.prefix_rfl) (fun h h' => h.trans h') (LifecycleStep.perform_events C) as site

theorem Completion.recorded {m : Nat}
    (h : Completion C start as n p e) (hnm : n < m) :
    ∃ x ∈ (run (LifecycleStep.perform C) (as.take m) start).events.rows,
      completionOf p.toLifecycleArgs e x = true := by
  obtain ⟨s, site, site', v, htaken, hcall, hintent⟩ := h
  obtain ⟨action, e', x, -, hintent', hrows, hx⟩ := complete_appends hcall
  cases hintent.symm.trans hintent'
  have hafter : run (LifecycleStep.perform C) (as.take (n + 1)) start = site' := by
    rw [System.run_take_succ htaken.step, htaken.before, perform_complete hcall]
  refine ⟨x, ?_, hx⟩
  rw [System.run_take_of_le _ hnm as start, hafter]
  refine (run_events C _ site').subset ?_
  rw [hrows]
  exact List.mem_append_right _ (List.mem_singleton_self x)

theorem Completion.faithful
    (h : Completion C start as n p e)
    (has : Along (LifecycleStep.perform C) (Faithful C) as start) :
    (∀ x ∈ (run (LifecycleStep.perform C) (as.take n) start).events.rows,
      completionOf p.toLifecycleArgs e x = false) ∧ sameTerms p.toLifecycleArgs e = true := by
  obtain ⟨s, site, site', v, htaken, -, hintent⟩ := h
  have hfaithful := has.get htaken.step
  rw [htaken.before] at hfaithful ⊢
  simp only [Faithful, hintent, Option.all_some, Bool.and_eq_true, Bool.not_eq_true'] at hfaithful
  refine ⟨fun x hx => ?_, hfaithful.2⟩
  by_contra hcompleted
  have hany : site.events.rows.any (completionOf p.toLifecycleArgs e) = true :=
    List.any_eq_true.mpr ⟨x, hx, by simpa using hcompleted⟩
  rw [hfaithful.1] at hany
  cases hany

theorem Completion.action
    (h : Completion C start as n p e) :
    ∃ action, p.toLifecycleArgs.Valid action ∧ e.action = lifecycleAction action ".accepted" ∧
      some e.actorRef = uuidText p.actor.actorRef := by
  obtain ⟨s, site, site', v, -, hcall, hintent⟩ := h
  obtain ⟨action, -, -, hvalid, -⟩ := complete_appends hcall
  obtain ⟨hactor, hname⟩ := acceptedIntent_eq_some hintent
  rw [hvalid.named] at hname
  exact ⟨action, hvalid, (Option.some.inj hname).symm, hactor⟩

/-- An accepted event is not completed at two places of a faithful run. -/
theorem Completion.not_later {m : Nat} {p' : CompletionArgs}
    (h : Completion C start as n p e) (h' : Completion C start as m p' e)
    (has : Along (LifecycleStep.perform C) (Faithful C) as start) : ¬ n < m := by
  intro hnm
  obtain ⟨x, hx, hcompletion⟩ := h.recorded hnm
  have hopen := (h'.faithful has).1 x hx
  obtain ⟨action, hvalid, hname, -⟩ := h.action
  obtain ⟨action', hvalid', hname', -⟩ := h'.action
  have hsame := lifecycleAction_injective hvalid.known hvalid'.known (hname.symm.trans hname')
  subst hsame
  rw [completionOf, hvalid.named] at hcompletion
  rw [completionOf, hvalid'.named, hcompletion] at hopen
  cases hopen

/-- A preparation that commits at the first place accepts the event it appends. -/
theorem Acceptance.first {s : Statement} {p : LifecycleArgs} {v : Site × Authority.SubjectAuthority}
    (h : prepareManagedIdentityLifecycle C s p start = .ok v) (as : List LifecycleStep) :
    ∃ e, v.1.events.rows.getLast? = some e ∧
      Acceptance C start (.prepare s p :: as) 0 p e ∧
      run (LifecycleStep.perform C) [.prepare s p] start = v.1 := by
  obtain ⟨action, e, -, hrows, -⟩ := prepare_appends h
  refine ⟨e, by simp [hrows], ⟨s, start, v.1, v.2, ⟨rfl, rfl⟩, h, hrows⟩, ?_⟩
  simp [run, LifecycleStep.perform, h, Except.toOption]

end Runs

/-- **Lifecycle intents.**  In a run in which every completion finds an intent that is
still open and repeats its terms, an accepted intent is completed at most once, by the
actor that was accepted and with the accepted roles and enabled value, and so an intent
to create is bound to at most one subject. -/
theorem lifecycle_intents (C : Crypto) (start : Site) (as : List LifecycleStep)
    (has : Along (LifecycleStep.perform C) (Faithful C) as start) :
    (∀ n m p p' e, Completion C start as n p e → Completion C start as m p' e → n = m) ∧
    (∀ n m p₀ p e, Acceptance C start as n p₀ e → Completion C start as m p e →
      p.actor.actorRef = p₀.actor.actorRef ∧ p.action = p₀.action ∧
        p.distinctRoles = p₀.distinctRoles ∧ p.enabled = p₀.enabled) ∧
    ∀ n m p p' e, Completion C start as n p e → Completion C start as m p' e →
      p.action = some "identity.create" → p.targetSubjectId = p'.targetSubjectId := by
  have honce : ∀ n m p p' e, Completion C start as n p e → Completion C start as m p' e →
      n = m := by
    intro n m p p' e h h'
    rcases Nat.lt_trichotomy n m with hnm | hnm | hnm
    · exact absurd hnm (h.not_later h' has)
    · exact hnm
    · exact absurd hnm (h'.not_later h has)
  refine ⟨honce, ?_, ?_⟩
  · intro n m p₀ p e haccepted hcompleted
    obtain ⟨s, site, site', v, -, hcall, hrows⟩ := haccepted
    obtain ⟨action₀, x, hvalid₀, hrows', hname₀, hactor₀, hfields₀⟩ := prepare_appends hcall
    have hx : x = e := by
      have hlast := List.append_cancel_left (hrows'.symm.trans hrows)
      exact List.head_eq_of_cons_eq hlast
    subst hx
    obtain ⟨action, hvalid, hname, hactor⟩ := hcompleted.action
    have hsame := lifecycleAction_injective hvalid₀.known hvalid.known (hname₀.symm.trans hname)
    subst hsame
    obtain ⟨-, hterms⟩ := hcompleted.faithful has
    simp only [sameTerms, Bool.and_eq_true, decide_eq_true_eq] at hterms
    have hfields : ∀ k ∈ ["roles", "enabled"], (Jsonb.object (lifecycleEvidence
        p.toLifecycleArgs)).get k = (Jsonb.object (lifecycleEvidence p₀)).get k := by
      intro k hk
      rw [← hfields₀ k hk]
      rcases List.mem_pair.mp hk with rfl | rfl
      · exact hterms.1.symm
      · exact hterms.2.symm
    refine ⟨?_, hvalid.named.trans hvalid₀.named.symm, terms_injective hvalid hvalid₀ hfields⟩
    exact Option.map_injective (fun _ _ => Uuid.text_injective) (hactor.symm.trans hactor₀)
  · intro n m p p' e h h' _
    obtain rfl := honce n m p p' e h h'
    obtain ⟨s, site, site', v, htaken, -⟩ := h
    obtain ⟨s', site₁, site₁', v', htaken', -⟩ := h'
    have hstep := htaken.step.symm.trans htaken'.step
    simp only [Option.some.injEq, LifecycleStep.complete.injEq] at hstep
    rw [hstep.2]

namespace Demo

/-- Alice, who has just shown her second factor, and two users that nobody manages. -/
def managed : Site := after [
  .users [alice, bob, Authority.Demo.worker],
  login (second 2) 1 "aal1" false,
  .call (second 3) (.completeStepUp (promotion (second 3) 102))]

/-- Alice asks for an identity that is a viewer. -/
def creation : LifecycleArgs where
  actor := ⟨some ⟨102⟩, some alice, some 1, some 0⟩
  targetSubjectId := none
  action := some "identity.create"
  requestDigest := some (Authority.Demo.digest.hash .null)
  idempotencyKey := some "key-0001"
  roles := some [some "console-viewers"]
  enabled := none
  reason := some "a new colleague"
  correlationId := some "correlation"

def created (u : Uuid) (role : String) : CompletionArgs where
  toLifecycleArgs := { creation with targetSubjectId := some u, roles := some [some role] }
  revokeSessions := some false
  effectCount := some 0

/-- Bob becomes the viewer that was asked for. -/
def faithfulRun : List LifecycleStep := [
  .prepare (second 4) creation,
  .complete (second 5) (created bob "console-viewers")]

/-- Bob becomes an administrator, and then another user the viewer. -/
def twice : List LifecycleStep := [
  .prepare (second 4) creation,
  .complete (second 5) (created bob "console-admins"),
  .complete (second 6) (created Authority.Demo.worker "console-viewers")]

def finds (p : CompletionArgs) (site : Site) : Bool :=
  decide (site.acceptedIntent crypto p.toLifecycleArgs = site.events.rows.getLast?)

/-- What becomes of the intent, completed as it was accepted or twice. -/
theorem managed_runs :
    Along (LifecycleStep.perform crypto) (Faithful crypto) faithfulRun managed ∧
    ((prepareManagedIdentityLifecycle crypto (second 4) creation managed).toOption.map fun v =>
      finds (created bob "console-viewers") v.1 &&
        decide ((completeManagedIdentityLifecycle crypto (second 5)
          (created bob "console-viewers") v.1).toOption.map (fun _ => true) = some true)) =
      some true ∧
    ((prepareManagedIdentityLifecycle crypto (second 4) creation managed).toOption.map fun v =>
      finds (created bob "console-admins") v.1 &&
        decide ((completeManagedIdentityLifecycle crypto (second 5)
          (created bob "console-admins") v.1).toOption.map (fun w =>
            decide (w.1.acceptedIntent crypto
              (created Authority.Demo.worker "console-viewers").toLifecycleArgs =
                v.1.events.rows.getLast?) &&
            decide ((completeManagedIdentityLifecycle crypto (second 6)
              (created Authority.Demo.worker "console-viewers") w.1).toOption.map
                (fun _ => true) = some true)) = some true)) = some true := by
  rw [managed, after_claim]
  decide +kernel

end Demo

/-- The intent Alice accepts is completed once, as it was accepted. -/
theorem demo_intent :
    Along (LifecycleStep.perform Demo.crypto) (Faithful Demo.crypto) Demo.faithfulRun
      Demo.managed ∧
    ∃ e, Acceptance Demo.crypto Demo.managed Demo.faithfulRun 0 Demo.creation e ∧
      Completion Demo.crypto Demo.managed Demo.faithfulRun 1
        (Demo.created bob "console-viewers") e ∧
      ∀ m p, Completion Demo.crypto Demo.managed Demo.faithfulRun m p e → 1 = m := by
  obtain ⟨has, hrun, -⟩ := Demo.managed_runs
  obtain ⟨v, hv, hleft⟩ := exists_of_toOption hrun
  obtain ⟨hfinds, hcompleted⟩ := Bool.and_eq_true_iff.mp hleft
  obtain ⟨w, hw, -⟩ := exists_of_toOption (of_decide_eq_true hcompleted)
  obtain ⟨e, hlast, haccepted, hafter⟩ := Acceptance.first hv _
  have hcompletion : Completion Demo.crypto Demo.managed Demo.faithfulRun 1
      (Demo.created bob "console-viewers") e :=
    ⟨second 5, _, w.1, w.2, ⟨rfl, hafter⟩, hw, (of_decide_eq_true hfinds).trans hlast⟩
  exact ⟨has, e, haccepted, hcompletion, fun m p h =>
    (lifecycle_intents Demo.crypto Demo.managed Demo.faithfulRun has).1 1 m _ p e hcompletion h⟩

/-- One accepted intent to create a viewer makes a user an administrator and another
user a viewer. -/
theorem intent_completed_twice :
    ∃ e, Acceptance Demo.crypto Demo.managed Demo.twice 0 Demo.creation e ∧
      Completion Demo.crypto Demo.managed Demo.twice 1 (Demo.created bob "console-admins") e ∧
      Completion Demo.crypto Demo.managed Demo.twice 2
        (Demo.created Authority.Demo.worker "console-viewers") e ∧
      (Demo.created bob "console-admins").distinctRoles ≠ Demo.creation.distinctRoles ∧
      (Demo.created bob "console-admins").targetSubjectId ≠
        (Demo.created Authority.Demo.worker "console-viewers").targetSubjectId := by
  obtain ⟨v, hv, hleft⟩ := exists_of_toOption Demo.managed_runs.2.2
  obtain ⟨hfinds, hfirst⟩ := Bool.and_eq_true_iff.mp hleft
  obtain ⟨w, hw, hleft⟩ := exists_of_toOption (of_decide_eq_true hfirst)
  obtain ⟨hfinds', hsecond⟩ := Bool.and_eq_true_iff.mp hleft
  obtain ⟨x, hx, -⟩ := exists_of_toOption (of_decide_eq_true hsecond)
  obtain ⟨e, hlast, haccepted, hafter⟩ := Acceptance.first hv _
  have hthird : run (LifecycleStep.perform Demo.crypto) (Demo.twice.take 2) Demo.managed = w.1 := by
    rw [Demo.twice, System.run_take_succ rfl]
    exact (congrArg _ hafter).trans (perform_complete hw)
  exact ⟨e, haccepted,
    ⟨second 5, _, w.1, w.2, ⟨rfl, hafter⟩, hw, (of_decide_eq_true hfinds).trans hlast⟩,
    ⟨second 6, _, x.1, x.2, ⟨rfl, hthird⟩, hx, (of_decide_eq_true hfinds').trans hlast⟩,
    by decide, by decide⟩

end ConsoleIdentity
