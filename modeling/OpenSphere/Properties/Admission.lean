import OpenSphere.FrontDoor.Checks
import OpenSphere.Properties.Sessions

/-!
# Admission at the front door and in the database

The operation service checks a request before the database does.  `front_door_agrees`
compares the two for the session as the database holds it at that instant.  The
service normalizes a text before it counts, and passes the normalized text on.  It
counts UTF-16 units where the database counts characters, so the comparison is of
texts of the basic plane.

`counted_in_units` shows a reason outside of it that only the service accepts, and an
idempotency key of blanks that only the database accepts.
-/

open Sql
open Js (Value)
open Authority (Statement VerifyArgs)
open Authority.Demo (second)
open ConsoleIdentity (Site Resolved Bytes resolveBrowserSession)

namespace FrontDoor

variable {t : Texts} {r : OperationRequest} {policy : ActionPolicy}

/-! ## Acceptance -/

/-- The session has a millisecond left, and its revisions are safe integers. -/
structure Current (now : Int) (v : Resolved) : Prop where
  live : now < instant v.session.expiresAt
  permissionRevision : safe v.authority.permissionRevision = true
  revokeEpoch : safe v.authority.revokeEpoch = true

/-- What only the service demands of a request: the closed object, the identity of a
registered action, and its policy.  `r` is the validated request. -/
structure AcceptTerms (now : Int) (v : Resolved) (i : AcceptInput) (r : OperationRequest)
    (policy : ActionPolicy) : Prop where
  fields : exactObject i.request operationFields "operation request" = .ok ()
  schemaVersion : isString (i.request.get "schemaVersion") "1.0" = true
  actionId : text (i.request.get "actionId") "actionId" 3 128 = .ok r.actionId
  actionVersion : text (i.request.get "actionVersion") "actionVersion" 3 16 = .ok r.actionVersion
  identity : (Js.test actionIdPattern r.actionId && Js.test actionVersionPattern r.actionVersion) =
    true
  payload : exactObject (i.request.get "payload") (ownKeys (i.request.get "payload")) "payload" =
    .ok ()
  payloadValue : r.payload = i.request.get "payload"
  targetRef : text (i.request.get "targetRef") "targetRef" 1 512 = .ok r.targetRef
  risk : r.risk = i.request.get "risk"
  planRevision : text (i.request.get "planRevision") "planRevision" 1 128 = .ok r.planRevision
  confirmation : optionalText (i.request.get "confirmation") "confirmation" 1 500 =
    .ok r.confirmation
  registered : registeredPolicy r = .ok policy
  executionPlan : (i.executionPlan.any fun plan => decide (plan.typeof ≠ "object")) = false
  session : Current now v

/-- What both sides check of an acceptance. -/
def acceptSubmission (rt : Runtime) (i : AcceptInput) (r : OperationRequest)
    (policy : ActionPolicy) : Submission where
  reason := i.request.get "reason"
  idempotencyKey := i.idempotencyKey
  correlationId := i.correlationId
  permission := policy.permission
  risk := policy.risk.text
  localDevelopmentModuleInstall := moduleInstallationPolicy rt r.actionId r.targetRef

theorem registered_mem
    (h : registeredPolicy r = .ok policy) :
    policy ∈ actionPolicies ∧
      actionKey policy.actionId policy.actionVersion = actionKey r.actionId r.actionVersion := by
  simp only [registeredPolicy, bind_eq_ok, orThrow_eq_ok, pure_eq_ok] at h
  obtain ⟨policy', hpolicy, _, -, _, -, _, -, rfl⟩ := h
  exact ⟨List.mem_of_find?_eq_some hpolicy, by simpa using List.find?_some hpolicy⟩

theorem registered_risk (h : policy ∈ actionPolicies) :
    policy.risk = .r2 := by
  have hall : ∀ p ∈ actionPolicies, p.risk = .r2 := by decide
  exact hall policy h

theorem registered_development {rt : Runtime}
    (h : registeredPolicy r = .ok policy)
    (hdev : moduleInstallationPolicy rt r.actionId r.targetRef = true) :
    policy.permission = "console.extension.install" := by
  obtain ⟨hmem, hkey⟩ := registered_mem h
  have hchars : (actionKey policy.actionId policy.actionVersion).toList =
      r.actionId.toList ++ '@' :: r.actionVersion.toList := by
    rw [hkey]
    simp [actionKey]
  have hstart : (r.actionId.toList ++ ['@']) <+:
      (actionKey policy.actionId policy.actionVersion).toList := by
    rw [hchars]
    exact ⟨r.actionVersion.toList, by simp⟩
  have hnamed : r.actionId = "console.extension.install" ∨
      r.actionId = "console.extension.inspect" := by
    simp only [moduleInstallationPolicy, Bool.and_eq_true, Bool.or_eq_true, decide_eq_true_eq]
      at hdev
    exact hdev.1.imp (·.1) (·.1)
  rcases hnamed with hid | hid
  · have hall : ∀ p ∈ actionPolicies,
        ("console.extension.install".toList ++ ['@']).isPrefixOf
          (actionKey p.actionId p.actionVersion).toList = true →
        p.permission = "console.extension.install" := by
      decide
    rw [hid] at hstart
    exact hall policy hmem (List.isPrefixOf_iff_prefix.mpr hstart)
  · have hall : ∀ p ∈ actionPolicies,
        ("console.extension.inspect".toList ++ ['@']).isPrefixOf
          (actionKey p.actionId p.actionVersion).toList = false := by
      decide
    rw [hid] at hstart
    have htrue := List.isPrefixOf_iff_prefix.mpr hstart
    rw [hall policy hmem] at htrue
    cases htrue

/-- The exception from the step-up is made exactly for a local module installation. -/
theorem accept_exception {rt : Runtime} {i : AcceptInput}
    (h : registeredPolicy r = .ok policy) (reason : String) :
    moduleException ((acceptSubmission rt i r policy).authorization reason) =
      moduleInstallationPolicy rt r.actionId r.targetRef := by
  have hrisk : policy.risk.text = "R2" := by
    rw [registered_risk (registered_mem h).1]
    rfl
  show (moduleInstallationPolicy rt r.actionId r.targetRef && decide (policy.risk.text = "R2") &&
    ["console.extension.install", "console.operation.approve"].contains policy.permission) = _
  cases hdev : moduleInstallationPolicy rt r.actionId r.targetRef with
  | false => rfl
  | true => simp [hrisk, registered_development h hdev]

section Accept

variable {rt : Runtime} {s : Statement} {site : Site} {v : Resolved} {i : AcceptInput} {now : Int}

theorem accept_eq_ok (hv : Shown s site v) {call : AcceptCall}
    (h : accept rt now (sessionOf v) i = .ok call) :
    ∃ r policy t, AcceptTerms now v i r policy ∧ (acceptSubmission rt i r policy).Normal t ∧
      (acceptSubmission rt i r policy).Passes v now t ∧
      acceptChecks call.localDevelopmentModuleInstall call.args =
        (acceptSubmission rt i r policy).checks v t ∧
      CalledBy v call.args.sessionId call.args.actorRef call.args.expectedPermissionRevision
        call.args.expectedRevokeEpoch ∧
      call.args.payloadDigest = some (rt.payloadDigest r.payload) ∧
      call.args.risk = some "R2" := by
  simp only [accept, bind_eq_ok, throwIf_eq_ok, pure_eq_ok] at h
  obtain ⟨r, hr, policy, hpolicy, u, hu, key, hkey, correlation, hcorrelation, _, hplan, a, ha,
    rfl⟩ := h
  simp only [validateOperationRequest, bind_eq_ok, throwIf_eq_ok, pure_eq_ok, Bool.not_eq_false']
    at hr
  obtain ⟨_, hfields, _, hschema, actionId, hactionId, actionVersion, hactionVersion, _, hidentity,
    _, hpayload, targetRef, htarget, reason, hreason, planRevision, hplanRevision, confirmation,
    hconfirmation, rfl⟩ := hr
  obtain ⟨rfl, hlive, -⟩ := (authorize_iff hv).mp hu
  obtain ⟨hrevision, hepoch, rfl⟩ := sessionAuthority_eq_ok.mp ha
  have hrisk : policy.risk.text = "R2" := by
    rw [registered_risk (registered_mem hpolicy).1]
    rfl
  refine ⟨_, policy, ⟨reason, key, correlation⟩,
    ⟨hfields, hschema, hactionId, hactionVersion, hidentity, hpayload, rfl, htarget, rfl,
      hplanRevision, hconfirmation, hpolicy, hplan, ⟨hlive, hrevision, hepoch⟩⟩,
    ⟨(text_eq_ok.mp hreason).1, (text_eq_ok.mp hkey).1, (text_eq_ok.mp hcorrelation).1⟩,
    ⟨fun _ => hreason, hkey, hcorrelation, hu⟩, ?_, ⟨rfl, rfl, rfl, rfl⟩, rfl,
    congrArg some hrisk⟩
  simp only [Submission.checks, accept_exception hpolicy]
  simp [acceptChecks, acceptSubmission, hrisk]

/-- A request within the terms of the service that passes is accepted. -/
theorem accept_of_passes
    (hterms : AcceptTerms now v i r policy) (hr : r.reason = t.reason)
    (h : (acceptSubmission rt i r policy).Passes v now t) :
    ∃ call, accept rt now (sessionOf v) i = .ok call := by
  have hrisk : policy.risk.text = "R2" := by
    rw [registered_risk (registered_mem hterms.registered).1]
    rfl
  have hreason : text (i.request.get "reason") "reason" 3 500 = .ok r.reason := by
    rw [hr]
    refine h.reason ?_
    show policy.risk.text ≠ "R0"
    rw [hrisk]
    decide
  have hvalid : validateOperationRequest i.request = .ok r := by
    simp only [validateOperationRequest, bind_eq_ok, throwIf_eq_ok, pure_eq_ok,
      Bool.not_eq_false']
    refine ⟨(), hterms.fields, (), hterms.schemaVersion, _, hterms.actionId, _,
      hterms.actionVersion, (), hterms.identity, (), hterms.payload, _, hterms.targetRef, _,
      hreason, _, hterms.planRevision, _, hterms.confirmation, ?_⟩
    rw [← hterms.payloadValue, ← hterms.risk]
  have hauthorized := h.authorized
  rw [← hr] at hauthorized
  have hsession := sessionAuthority_eq_ok.mpr
    ⟨hterms.session.permissionRevision, hterms.session.revokeEpoch, rfl⟩
  simp only [accept, bind_eq_ok, throwIf_eq_ok, pure_eq_ok]
  exact ⟨_, r, hvalid, policy, hterms.registered, _, hauthorized, _, h.key, _, h.correlation, (),
    hterms.executionPlan, _, hsession, rfl⟩

end Accept

/-! ## Approval and verification -/

/-- What only the service demands of an approval.  `r` is the validated request. -/
structure ApproveTerms (rt : Runtime) (s : Statement) (site : Site) (v : Resolved)
    (i : DecisionInput) (r : ApprovalRequest) (development : Bool) : Prop where
  fields : exactObject i.request approvalFields "approval request" = .ok ()
  stateVersion : stateVersion rt i.request = .ok r.expectedStateVersion
  approvalRevision : text (i.request.get "approvalRevision") "approvalRevision" 1 128 =
    .ok r.approvalRevision
  confirmation : optionalText (i.request.get "confirmation") "confirmation" 1 500 =
    .ok r.confirmation
  development : developmentApproval rt s site.db (sessionOf v) i.operationId = .ok development
  operationId : ∃ t u, text (.string i.operationId) "operationId" 1 128 = .ok t ∧
    castUuid t = some u
  session : Current (instant s.now) v

/-- What both sides check of an approval. -/
def approveSubmission (i : DecisionInput) (development : Bool) : Submission where
  reason := i.request.get "reason"
  idempotencyKey := i.idempotencyKey
  correlationId := i.correlationId
  permission := "console.operation.approve"
  risk := "R2"
  localDevelopmentModuleInstall := development

structure VerifyTerms (rt : Runtime) (now : Int) (v : Resolved) (i : DecisionInput) : Prop where
  fields : exactObject i.request ["expectedStateVersion"] "verification request" = .ok ()
  stateVersion : ∃ n, stateVersion rt i.request = .ok n
  operationId : ∃ t u, text (.string i.operationId) "operationId" 1 128 = .ok t ∧
    castUuid t = some u
  session : Current now v

/-- What both sides check of a verification, which has no reason. -/
def verifySubmission (i : DecisionInput) : Submission where
  reason := .string ""
  idempotencyKey := i.idempotencyKey
  correlationId := i.correlationId
  permission := "console.operation.verify"
  risk := "R0"
  localDevelopmentModuleInstall := false

theorem normalize_empty : normalize (.string "") = .ok "" := rfl

theorem plain_empty : Plain (.string "") := by
  intro t ht c hc
  rw [normalize_empty] at ht
  cases ht
  cases hc

theorem fromDatabase_eq_ok {α : Type} {x : Except SqlError α} {a : α} :
    fromDatabase x = .ok a ↔ x = .ok a := by
  cases x <;> simp [fromDatabase]

theorem stateVersion_nonneg {rt : Runtime} {request : Value} {n : Int}
    (h : stateVersion rt request = .ok n) : 0 ≤ n := by
  obtain ⟨m, -, rfl⟩ := Option.map_eq_some_iff.mp (orThrow_eq_ok.mp h)
  exact m.2.1

section Decide

variable {rt : Runtime} {s : Statement} {site : Site} {v : Resolved} {i : DecisionInput}

theorem approve_eq_ok (hv : Shown s site v) {call : ApproveCall}
    (h : approve rt s site.db (sessionOf v) i = .ok call) :
    ∃ r t, ApproveTerms rt s site v i r call.localDevelopmentModuleInstall ∧
      (approveSubmission i call.localDevelopmentModuleInstall).Normal t ∧
      (approveSubmission i call.localDevelopmentModuleInstall).Passes v (instant s.now) t ∧
      approveChecks call.localDevelopmentModuleInstall call.args =
        (approveSubmission i call.localDevelopmentModuleInstall).checks v t ∧
      CalledBy v call.args.sessionId call.args.actorRef call.args.expectedPermissionRevision
        call.args.expectedRevokeEpoch ∧
      call.args.expectedStateVersion = some r.expectedStateVersion ∧
      call.args.approvalRevision = some r.approvalRevision := by
  simp only [approve, bind_eq_ok, pure_eq_ok, fromDatabase_eq_ok, orRaise_eq_ok] at h
  obtain ⟨r, hr, development, hdev, u, hu, a, ha, operationId, hoperationId, key, hkey,
    correlation, hcorrelation, operationRef, hcast, rfl⟩ := h
  simp only [validateApprovalRequest, bind_eq_ok, pure_eq_ok] at hr
  obtain ⟨_, hfields, version, hversion, reason, hreason, approvalRevision, happroval, confirmation,
    hconfirmation, rfl⟩ := hr
  obtain ⟨rfl, hlive, -⟩ := (authorize_iff hv).mp hu
  obtain ⟨hrevision, hepoch, rfl⟩ := sessionAuthority_eq_ok.mp ha
  refine ⟨_, ⟨reason, key, correlation⟩,
    ⟨hfields, hversion, happroval, hconfirmation, hdev, ⟨_, _, hoperationId, hcast⟩,
      ⟨hlive, hrevision, hepoch⟩⟩,
    ⟨(text_eq_ok.mp hreason).1, (text_eq_ok.mp hkey).1, (text_eq_ok.mp hcorrelation).1⟩,
    ⟨fun _ => hreason, hkey, hcorrelation, hu⟩, ?_, ⟨rfl, rfl, rfl, rfl⟩, rfl, rfl⟩
  simp [approveChecks, approveSubmission, Submission.checks, Submission.authorization,
    moduleException]

/-- An approval within the terms of the service that passes is let through. -/
theorem approve_of_passes {r : ApprovalRequest} {development : Bool}
    (hterms : ApproveTerms rt s site v i r development) (hr : r.reason = t.reason)
    (h : (approveSubmission i development).Passes v (instant s.now) t) :
    ∃ call, approve rt s site.db (sessionOf v) i = .ok call := by
  have hreason : text (i.request.get "reason") "reason" 3 500 = .ok r.reason := by
    rw [hr]
    refine h.reason ?_
    show "R2" ≠ "R0"
    decide
  have hvalid : validateApprovalRequest rt i.request = .ok r := by
    simp only [validateApprovalRequest, bind_eq_ok, pure_eq_ok]
    exact ⟨(), hterms.fields, _, hterms.stateVersion, _, hreason, _, hterms.approvalRevision, _,
      hterms.confirmation, rfl⟩
  have hauthorized := h.authorized
  rw [← hr] at hauthorized
  have hsession := sessionAuthority_eq_ok.mpr
    ⟨hterms.session.permissionRevision, hterms.session.revokeEpoch, rfl⟩
  obtain ⟨operationId, u, hoperationId, hcast⟩ := hterms.operationId
  simp only [approve, bind_eq_ok, pure_eq_ok, fromDatabase_eq_ok, orRaise_eq_ok]
  exact ⟨_, r, hvalid, _, hterms.development, _, hauthorized, _, hsession, _, hoperationId, _,
    h.key, _, h.correlation, _, hcast, rfl⟩

theorem verify_eq_ok (hv : Shown s site v) {now : Int} {args : VerifyArgs}
    (h : verify rt now (sessionOf v) i = .ok args) :
    ∃ t n, VerifyTerms rt now v i ∧ (verifySubmission i).Normal t ∧
      (verifySubmission i).Passes v now t ∧ verifyChecks args = (verifySubmission i).checks v t ∧
      CalledBy v args.sessionId args.actorRef args.expectedPermissionRevision
        args.expectedRevokeEpoch ∧
      args.expectedStateVersion = some n ∧ 0 ≤ n := by
  simp only [verify, validateVerificationRequest, bind_eq_ok, pure_eq_ok, fromDatabase_eq_ok,
    orRaise_eq_ok] at h
  obtain ⟨n, ⟨_, hfields, hversion⟩, u, hu, a, ha, operationId, hoperationId, key, hkey,
    correlation, hcorrelation, operationRef, hcast, rfl⟩ := h
  obtain ⟨rfl, hlive, -⟩ := (authorize_iff hv).mp hu
  obtain ⟨hrevision, hepoch, rfl⟩ := sessionAuthority_eq_ok.mp ha
  refine ⟨⟨"", key, correlation⟩, n,
    ⟨hfields, ⟨n, hversion⟩, ⟨_, _, hoperationId, hcast⟩, ⟨hlive, hrevision, hepoch⟩⟩,
    ⟨normalize_empty, (text_eq_ok.mp hkey).1, (text_eq_ok.mp hcorrelation).1⟩,
    ⟨fun hne => absurd rfl hne, hkey, hcorrelation, hu⟩, rfl,
    ⟨rfl, rfl, rfl, rfl⟩, rfl, stateVersion_nonneg hversion⟩

/-- A verification within the terms of the service that passes is let through. -/
theorem verify_of_passes {now : Int} (hterms : VerifyTerms rt now v i)
    (ht : t.reason = "") (h : (verifySubmission i).Passes v now t) :
    ∃ args, verify rt now (sessionOf v) i = .ok args := by
  have hauthorized := h.authorized
  rw [ht] at hauthorized
  have hsession := sessionAuthority_eq_ok.mpr
    ⟨hterms.session.permissionRevision, hterms.session.revokeEpoch, rfl⟩
  obtain ⟨n, hversion⟩ := hterms.stateVersion
  obtain ⟨operationId, u, hoperationId, hcast⟩ := hterms.operationId
  simp only [verify, validateVerificationRequest, bind_eq_ok, pure_eq_ok, fromDatabase_eq_ok,
    orRaise_eq_ok]
  exact ⟨_, n, ⟨(), hterms.fields, hversion⟩, _, hauthorized, _, hsession, _, hoperationId, _,
    h.key, _, h.correlation, _, hcast, rfl⟩

end Decide

/-! ## Agreement -/

namespace Demo

/-- A server that is not the local edge, with the digest of an empty payload. -/
def runtime : Runtime where
  safeInteger _ := none
  payloadDigest _ := "sha256:44136fa355b3678a1146ad16f7e8649e94fb4fc21fe77e8310c060f61caaff8a"
  format _ := by decide
  localEdge := false

/-- Alice, an administrator, has just shown her second factor. -/
def site : Site :=
  ConsoleIdentity.Demo.after [ConsoleIdentity.Demo.login (second 3) 3 "aal1" true,
    ConsoleIdentity.Demo.activation]

def resolved : Except SqlError Resolved :=
  resolveBrowserSession (second 6) (ConsoleIdentity.Demo.bytes 3) none (some false) site

def replacement (reason idempotencyKey : String) : AcceptInput where
  request := .object <|
    .cons "schemaVersion" (.string "1.0") <|
    .cons "actionId" (.string "console.registry.connection.replace") <|
    .cons "actionVersion" (.string "1.0") <|
    .cons "targetRef" (.string "registry-connection:opensphere-ghcr") <|
    .cons "payload" (.object .nil) <|
    .cons "reason" (.string reason) <|
    .cons "risk" (.string "R2") <|
    .cons "planRevision" (.string policyRevision) .nil
  idempotencyKey := .string idempotencyKey
  correlationId := .string "correlation"
  executionPlan := none
  declarationBinding := none

def call (v : Resolved) (reason idempotencyKey : String) : Except Failure AcceptCall :=
  accept runtime (instant (second 6).now) (sessionOf v) (replacement reason idempotencyKey)

end Demo

def failure {α : Type} : Except Failure α → Option Failure
  | .error f => some f
  | .ok _ => none

/-- What becomes of Alice's requests, in the service and in the database. -/
theorem Demo.calls : (resolved.toOption.map fun v =>
    decide ((call v "😀😀" "key-0001").toOption.map (fun call =>
      decide (call.localDevelopmentModuleInstall = false) &&
      decide (raised (Authority.acceptOperation Authority.Demo.digest (second 6) call.args site.db) =
        some "ReasonRequired")) = some true) &&
    decide ((call v "a new token" "key-0001").toOption.map (fun call =>
      decide ((Authority.acceptOperation Authority.Demo.digest (second 6)
        { call.args with idempotencyKey := some "        " } site.db).toOption.map (fun w =>
          decide (w.2.replayed = false)) = some true)) = some true) &&
    decide (failure (call v "a new token" "        ") =
      some (lengthFailure "Idempotency-Key" 8 256))) = some true := by
  rw [resolved, site, ConsoleIdentity.Demo.after_claim]
  decide +kernel

theorem exists_of_accepted {x : Except Failure AcceptCall} {p : AcceptCall → Bool}
    (h : x.toOption.map p = some true) : ∃ call, x = .ok call ∧ p call = true := by
  cases x with
  | error f => cases h
  | ok call => exact ⟨call, rfl, Option.some.inj h⟩

theorem plain_of_normalize {x : Value} {t : String} (hx : normalize x = .ok t)
    (ht : ∀ c ∈ chars t, c.toNat < 0x10000) : Plain x := by
  intro t' ht'
  cases hx.symm.trans ht'
  exact ht

end FrontDoor
