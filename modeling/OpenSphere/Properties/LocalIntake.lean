import OpenSphere.PlatformChange.Acceptance
import OpenSphere.Properties.Idempotency

/-!
# Git-reviewed modules of a local site

`accept_gitea_module` admits only what asks for an approval.  On a local site it passes the request
on to `accept_development_module_install`, which since a later migration admits only what asks for
none.  So the local intake of Git-reviewed modules is closed: it refuses whatever it is given.

Elsewhere the request goes to `accept_operation`, which is indifferent to approvals.  There the two
sets of checks do not get in each other's way (`passedOn_accepted`).
-/

open Sql

namespace Authority

/-- What the initiator of a module on a local site is refused with. -/
def developmentRestricted : SqlError :=
  exception "development exception is restricted to Cluster Manager installation" "42501"
    "PolicyRejected"

/-- The initiator of a request may install the module on a local site, if it asks for no approval. -/
def LocalInitiator (s : Statement) (p : AcceptArgs) (db : Db) : Prop :=
  ∃ v, developmentInitiator s { p with approvalRequired := some false } db = .ok v

def IsLocal (input : Option Jsonb) : Prop :=
  fieldText input "localDevelopmentModuleInstall" = some "true"

section

variable {D : Digest} {s : Statement} {input : Option Jsonb} {p : AcceptArgs} {db : Db}

theorem localInitiator_refused (hrequired : p.approvalRequired = some true)
    (h : LocalInitiator s p db) : developmentInitiator s p db = .error developmentRestricted := by
  obtain ⟨v, h⟩ := h
  simp only [developmentInitiator, bind_eq_ok, raiseIf_eq_ok, pure_eq_ok] at h
  obtain ⟨_, hlocal, _, hvalid, session, hsession, authority, hauthority, _, hpermission, -⟩ := h
  -- the request and the one without an approval differ in the last check only
  have hvalid' : validateRequest p = .ok () := hvalid
  have hsession' : activeSession s db p.sessionId p.actorRef = .ok session := hsession
  have hauthority' : currentAuthority db session p.actorRef p.expectedPermissionRevision
      p.expectedRevokeEpoch = .ok authority := hauthority
  have hpermission' : requirePermission db p.actorRef p.requiredPermission
      authority.permissionRevision = .ok () := hpermission
  have happroval : distinct p.approvalRequired (some false) = some true := by
    rw [hrequired]
    decide
  simp only [developmentInitiator, hvalid', hsession', hauthority', hpermission', bind, Except.bind,
    raiseIf, if_neg hlocal]
  rw [if_pos (by simp [Cond.any_eq_true, happroval])]
  rfl

theorem acceptGiteaModule_local (hclosed : closedModule input db = .ok p) (hlocal : IsLocal input)
    (h : LocalInitiator s p db) : acceptGiteaModule D s input db = .error developmentRestricted := by
  simp only [acceptGiteaModule, hclosed, acceptAsInput_local hlocal, acceptDevelopmentModuleInstall,
    localInitiator_refused (closedModule_eq_ok hclosed).2.1 h, bind, Except.bind]

theorem putOperation_bound {db : Db} {o : Operation} (ho : o ∈ db.operations.rows)
    (b : Option Jsonb) : ∃ db', db.putOperation { o with declarationBinding := b } = .ok db' := by
  have hcheck : operationSchema.check { o with declarationBinding := b } = true := by
    have hchecked := db.operations.checked o ho
    simp only [operationSchema, operationModuleAal] at hchecked ⊢
    exact hchecked
  generalize hbound : ({ o with declarationBinding := b } : Operation) = o' at hcheck
  have hput : ∃ t, db.operations.put o' = .ok t := by
    refine (Table.put_isOk ho ?_ (fun x => ⟨?_, ?_⟩) ?_).mpr hcheck
    all_goals
      rw [← hbound]
      rfl
  obtain ⟨t, ht⟩ := hput
  exact ⟨{ db with operations := t }, by simp [Db.putOperation, ht, bind, Except.bind, pure, Except.pure]⟩

/-- Elsewhere a request is accepted exactly if `accept_operation` accepts it, and a stored operation
has its binding. -/
theorem passedOn_accepted (hclosed : closedModule input db = .ok p) (hlocal : ¬ IsLocal input) :
    (∃ v, acceptGiteaModule D s input db = .ok v) ↔
      ∃ db' v, acceptOperation D s p db = .ok (db', v) ∧ (v.replayed = true →
        Jsonb.distinct v.operation.declarationBinding (field input "declarationBinding") ≠ some true) := by
  have hinner : acceptAsInput D s input p db = acceptOperation D s p db := acceptAsInput_direct hlocal
  constructor
  · rintro ⟨⟨db', v⟩, h⟩
    simp only [acceptGiteaModule, bind_eq_ok, raiseIf_eq_ok] at h
    obtain ⟨q, hq, ⟨db₁, w⟩, haccept, _, hbinding, -⟩ := h
    rw [hclosed] at hq
    obtain rfl := Except.ok.inj hq
    rw [hinner] at haccept
    refine ⟨db₁, w, haccept, fun hreplayed hdistinct => hbinding ?_⟩
    rw [Cond.and_eq_true]
    exact ⟨congrArg some hreplayed, hdistinct⟩
  · rintro ⟨db₁, w, haccept, hbinding⟩
    have hpassed : Cond.and (some w.replayed) (Jsonb.distinct w.operation.declarationBinding
        (field input "declarationBinding")) ≠ some true := by
      intro hand
      rw [Cond.and_eq_true] at hand
      exact hbinding (Option.some.inj hand.1) hand.2
    cases hreplayed : w.replayed with
    | true =>
        rw [hreplayed] at hpassed
        refine ⟨(db₁, ⟨w.operation, true⟩), ?_⟩
        simp only [acceptGiteaModule, hclosed, hinner, haccept, bind, Except.bind, raiseIf,
          if_neg hpassed, hreplayed]
        rfl
    | false =>
        have hmem : w.operation ∈ db₁.operations.rows := by
          cases acceptOperation_accepts haccept with
          | replay => cases hreplayed
          | store hkey hnew hop hr he hwrites =>
              refine Db.case_op.mp ?_
              rw [(newOperation_eq_ok hnew).1]
              exact hwrites.op rfl
        rw [hreplayed] at hpassed
        obtain ⟨db₂, hput⟩ := putOperation_bound hmem (field input "declarationBinding")
        refine ⟨(db₂, ⟨{ w.operation with declarationBinding := field input "declarationBinding" }, false⟩), ?_⟩
        simp only [acceptGiteaModule, hclosed, hinner, haccept, bind, Except.bind, raiseIf,
          if_neg hpassed, hreplayed, hput]
        rfl

end

/-- **The local intake is closed.**  A valid Git-reviewed request for a module on a local site is
refused, and by the policy of the function it is passed on to where its initiator may install the
module; elsewhere it is accepted exactly if `accept_operation` accepts it and a stored operation has
its binding. -/
theorem gitea_acceptance {D : Digest} {s : Statement} {input : Option Jsonb} {p : AcceptArgs} {db : Db}
    (h : closedModule input db = .ok p) :
    (IsLocal input → (∀ v, acceptGiteaModule D s input db ≠ .ok v) ∧
      (LocalInitiator s p db → acceptGiteaModule D s input db = .error developmentRestricted)) ∧
    (¬ IsLocal input → ((∃ v, acceptGiteaModule D s input db = .ok v) ↔
      ∃ db' v, acceptOperation D s p db = .ok (db', v) ∧ (v.replayed = true →
        Jsonb.distinct v.operation.declarationBinding (field input "declarationBinding") ≠
          some true))) := by
  refine ⟨fun hlocal => ⟨fun v hv => ?_, acceptGiteaModule_local h hlocal⟩, passedOn_accepted h⟩
  obtain ⟨-, -, -, hnot, -⟩ := acceptGiteaModule_accepts hv
  exact hnot hlocal

namespace Demo

def localSite : Db :=
  { Db.fresh site with identity := { site with
      environment := some ⟨"edge", "development", "docker-desktop", "https://localhost:1114"⟩ } }

/-- The reviewed installation as a request of the local site. -/
def localInput : Option Jsonb :=
  some (reviewedInput.concat (.object [("localDevelopmentModuleInstall", .ofBool true)]))

/-- Alice may install the module, and her request is a valid one of the local site. -/
theorem localInput_valid : ∃ p, closedModule localInput localSite = .ok p ∧ IsLocal localInput ∧
    LocalInitiator (second 1) p localSite := by
  have hrun : ((closedModule localInput localSite).toOption.any fun p =>
      (developmentInitiator (second 1) { p with approvalRequired := some false } localSite).isOk &&
        decide (fieldText localInput "localDevelopmentModuleInstall" = some "true")) = true := by
    decide +kernel
  obtain ⟨p, hp, hrun⟩ := (Option.any_eq_true _ _).mp hrun
  obtain ⟨hok, hflag⟩ := Bool.and_eq_true_iff.mp hrun
  have hlocal : fieldText localInput "localDevelopmentModuleInstall" = some "true" :=
    of_decide_eq_true hflag
  exact ⟨p, toOption_eq_some.mp hp, hlocal, isOk_iff.mp hok⟩

end Demo

theorem gitea_acceptance_local : ∃ p,
    closedModule Demo.localInput Demo.localSite = .ok p ∧
      acceptGiteaModule Demo.digest (Demo.second 1) Demo.localInput Demo.localSite =
        .error developmentRestricted := by
  obtain ⟨p, hp, hlocal, hinitiator⟩ := Demo.localInput_valid
  exact ⟨p, hp, ((gitea_acceptance hp).1 hlocal).2 hinitiator⟩

/-- A valid request of somebody who may install the module on the local site is not accepted. -/
theorem local_request_refused : ¬ ∀ D s input p db, closedModule input db = .ok p → IsLocal input →
    LocalInitiator s p db → ∃ v, acceptGiteaModule D s input db = .ok v := by
  intro hclaim
  obtain ⟨p, hp, hlocal, hinitiator⟩ := Demo.localInput_valid
  obtain ⟨v, hv⟩ := hclaim Demo.digest _ _ p _ hp hlocal hinitiator
  rw [acceptGiteaModule_local hp hlocal hinitiator] at hv
  cases hv

end Authority
