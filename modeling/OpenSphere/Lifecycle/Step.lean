import OpenSphere.Lifecycle.Case

/-!
# The steps of a case

What a committed call can do to the case of an operation, guards included.  A
case is a small machine of its own: it is accepted, approved, claimed, renewed,
applied, observed, failed, verified, proposed, merged or settled by the
credential broker.  Every invariant of the lifecycle is proved here, against
this relation, and not against the functions.

`Scene` is what a step reads outside its case: the clock, which images are
revoked and which person a subject stands for.  The label of a step carries the
arguments its guards speak about.
-/

open Sql

namespace Authority

/-- What a step reads outside the case. -/
structure Scene where
  s : Statement
  revoked : String → Bool
  person : Uuid → Option Uuid

def Db.person (db : Db) (u : Uuid) : Option Uuid :=
  (db.identity.subjects.lookup (some u)).map (·.personRef)

def Db.scene (db : Db) (s : Statement) : Scene where
  s := s
  revoked image := db.isRevoked (some image)
  person := db.person

inductive Label where
  | accept
  | approve
  | claim (p : ClaimArgs)
  | renew (p : RenewArgs)
  | apply (actionId : String) (p : Bound)
  | observe (t : EventType) (p : ObserveArgs)
  | fail (p : FailureArgs)
  | verify
  | propose (p : GiteaArgs)
  | merge (p : GiteaArgs)
  | credential
  | check

def Call.label : Call → Label
  | .acceptOperation _ => .accept
  | .acceptDevelopmentModuleInstall _ => .accept
  | .acceptGiteaModule _ => .accept
  | .approveOperation _ => .approve
  | .approveDevelopmentModuleInstall _ => .approve
  | .claimOwnerOperation p => .claim p
  | .renewOwnerClaim p => .renew p
  | .applyRevocation p => .apply "console.extension.revocation.create" p
  | .assertInstallNotRevoked _ => .check
  | .applyInstallRegistration p => .apply "console.extension.install" p.toBound
  | .applyRemoveRegistration p => .apply "console.extension.remove" p.toBound
  | .recordInstallObservation p => .observe .extensionInstallObservationRequested p
  | .recordRemoveObservation p => .observe .extensionRemovalObservationRequested p
  | .recordExecutionFailure p => .fail p
  | .verifyExtensionOperation _ => .verify
  | .recordGiteaProposal p => .propose p
  | .recordGiteaMerge p => .merge p
  | .recordRegistryCredentialResult _ => .credential

/-! ## What the steps bring in -/

structure Operation.Initial (o : Operation) : Prop where
  state : o.state = if o.approvalRequired then .planned else .authorized
  stateVersion : o.stateVersion = 0
  approvalRevision : o.approvalRevision = none
  declarationMergeRevision : o.declarationMergeRevision = none
  /-- Only an installation that awaits approval is bound to Git. -/
  bound : o.declarationBinding ≠ none →
    o.approvalRequired = true ∧ o.actionId = "console.extension.install"

structure Outbox.Initial (r : Outbox) (o : Operation) (t : EventType) : Prop where
  operationId : r.operationId = o.operationId
  eventType : r.eventType = t
  claimOwner : r.claimOwner = none
  claimEpoch : r.claimEpoch = 0
  leaseExpiresAt : r.leaseExpiresAt = none
  deliveredAt : r.deliveredAt = none

structure Approval.Independent (person : Uuid → Option Uuid) (a : Approval) (o : Operation) :
    Prop where
  operationId : a.operationId = o.operationId
  approvalRevision : a.approvalRevision = o.planRevision
  actorRef : a.actorRef ≠ o.actorRef
  person : ∃ p q, person a.actorRef = some p ∧ person o.actorRef = some q ∧ p ≠ q

def Case.Row (c : Case) (r : Outbox) : Prop :=
  r ∈ c.outbox ∧ ∀ x ∈ c.outbox, x.outboxId = r.outboxId → x = r

/-- A call passes the fence of a row.  The owner is not compared when the row has
none, and neither is the lease. -/
structure Fenced (w : Scene) (q : ClaimRef) (types : List EventType) (r : Outbox) : Prop where
  outboxId : q.outboxId = some r.outboxId
  operationId : q.operationId = some r.operationId
  eventType : r.eventType ∈ types
  undelivered : r.deliveredAt = none
  worker : ∃ u, q.workerId = some u ∧ (r.claimOwner = none ∨ r.claimOwner = some u)
  epoch : q.claimEpoch = some r.claimEpoch ∧ 0 < r.claimEpoch
  lease : ∀ t, r.leaseExpiresAt = some t → w.s.now < t

structure ExecutionReceipt.For (x : ExecutionReceipt) (o : Operation) (q : ClaimRef) (phase : Phase) :
    Prop where
  operationId : x.operationId = o.operationId
  ownerRef : x.ownerRef = "C_EXT"
  claimEpoch : q.claimEpoch = some x.claimEpoch
  phase : x.phase = phase

/-- The further rows an applied operation leaves: the request for an observation
of a registration, or the revocation itself, which is there already when the
image was revoked before. -/
inductive Effect (w : Scene) (o : Operation) (p : Bound) (x : ExecutionReceipt) :
    List Outbox → List Revocation → Prop where
  | revocation {n : Int} (haction : o.actionId = "console.extension.revocation.create")
      (hepoch : p.claimEpoch = some n) (hnew : w.revoked o.targetRef = false)
      (hevidence : x.evidence = revocationEvidence o p.claimEpoch true) :
      Effect w o p x [] [newRevocation w.s o n]
  | alreadyRevoked (haction : o.actionId = "console.extension.revocation.create")
      (hold : w.revoked o.targetRef = true) : Effect w o p x [] []
  | install {r : Outbox} (haction : o.actionId = "console.extension.install")
      (hr : r.Initial o .extensionInstallObservationRequested)
      (hrevoked : ∀ t, p.targetRef = some t → t = o.targetRef ∧ w.revoked t = false) :
      Effect w o p x [r] []
  | removal {r : Outbox} (haction : o.actionId = "console.extension.remove")
      (hr : r.Initial o .extensionRemovalObservationRequested) : Effect w o p x [r] []

/-- An observation that passed its guard, as it is stored, by the event that asked
for it and with the operation afterwards. -/
inductive Observed (w : Scene) (o : Operation) (p : ObserveArgs) (x : ExecutionReceipt) :
    EventType → Operation → Prop where
  | install {y : ExecutionReceipt} (haction : o.actionId = "console.extension.install")
      (htarget : p.targetRef = some o.targetRef)
      (hvalid : invalidInstallObservation p ≠ some true)
      (hmatch : installObservationMismatch p o y ≠ some true)
      (hevidence : x.evidence = installObservationEvidence p o)
      (hrevoked : w.revoked o.targetRef = false) :
      Observed w o p x .extensionInstallObservationRequested
        (o.observe w.s x.evidence x.evidenceDigest)
  | removal (haction : o.actionId = "console.extension.remove")
      (hvalid : invalidRemovalObservation p ≠ some true)
      (hevidence : x.evidence = removalObservationEvidence p o) :
      Observed w o p x .extensionRemovalObservationRequested o

structure Evidenced (w : Scene) (c : Case) (o : Operation) : Prop where
  action : o.actionId ∈ extensionActions
  observed : o.actionId ≠ "console.extension.revocation.create" →
    ∃ y ∈ c.receipts, y.ownerRef = "C_EXT" ∧ y.phase = .verified
  notRevoked : o.actionId = "console.extension.install" → w.revoked o.targetRef = false

def Case.proposal (c : Case) : Option Event :=
  c.events.reverse.find? fun e => decide (e.action = proposalAction)

/-- A merge repeats the branch and the pull request of the recorded proposal. -/
def Proposed.Matches (c : Case) (p : GiteaArgs) : Prop :=
  ∃ e, c.proposal = some e ∧ e.evidence.getText "branch" = p.branch ∧
    castText "integer" castInteger (e.evidence.getText "pullNumber") = .ok p.pullNumber

/-! ## The relation -/

inductive Case.Step (w : Scene) : Label → Case → Case → Prop where
  | accept {c : Case} {o : Operation} {r : Outbox} {e : Event} (hop : c.op = none)
      (ho : o.Initial) (hr : r.Initial o (acceptanceEventType o)) (he : e.action = o.actionId) :
      Case.Step w .accept c
        { c with op := some o, outbox := c.outbox ++ [r], events := c.events ++ [e] }
  | approve {c : Case} {o : Operation} {a : Approval} {r : Outbox} {e : Event}
      (hop : c.op = some o) (hreq : o.approvalRequired = true) (hstate : o.state = .planned)
      (ha : a.Independent w.person o) (hr : r.Initial o .operationReadyForDispatch)
      (he : e.action = "console.operation.approve") :
      Case.Step w .approve c
        { c with
          op := some { o with
            state := .authorized
            stateVersion := o.stateVersion + 1
            approvalRevision := some a.approvalRevision
            updatedAt := w.s.now }
          approvals := c.approvals ++ [a]
          outbox := c.outbox ++ [r]
          events := c.events ++ [e] }
  | claim {c : Case} {o : Operation} {r : Outbox} {e : Event} {p : ClaimArgs}
      (hop : c.op = some o) (hrow : c.Row r) (hclaimable : claimable w.s p r o = some true)
      (hworker : p.workerId ≠ none) (howner : p.ownerRef = some "C_EXT")
      (hactions : p.supportedActions = some (extensionActions.map some))
      (he : e.action = "console.operation.dispatch.claim") :
      Case.Step w (.claim p) c
        { c with
          op := some (o.submit w.s r)
          outbox := replaceRow (r.claim w.s p.workerId p.leaseSeconds) c.outbox
          events := c.events ++ [e] }
  | renew {c : Case} {r : Outbox} {p : RenewArgs} (hrow : c.Row r)
      (hdelivered : r.deliveredAt = none) (howner : r.claimOwner = p.workerId)
      (hepoch : p.claimEpoch = some r.claimEpoch) :
      Case.Step w (.renew p) c
        { c with outbox := replaceRow (r.renew w.s p.leaseSeconds) c.outbox }
  | apply {c : Case} {o : Operation} {r : Outbox} {x : ExecutionReceipt} {e : Event} {p : Bound}
      {actionId : String} {rows : List Outbox} {revocations : List Revocation}
      (hop : c.op = some o) (hrow : c.Row r)
      (hfence : Fenced w p.toClaimRef [.operationReadyForDispatch] r)
      (haction : o.actionId = actionId) (hstate : o.state ∈ [.submitted, .reconciling, .unknown])
      (hx : x.For o p.toClaimRef .applied) (heffect : Effect w o p x rows revocations)
      (he : e.action = o.actionId) :
      Case.Step w (.apply actionId p) c
        { c with
          op := some ((o.reconcile w.s).apply w.s x.evidence)
          receipts := c.receipts ++ [x]
          outbox := replaceRow (r.deliver w.s) c.outbox ++ rows
          revocations := c.revocations ++ revocations
          events := c.events ++ [e] }
  | observe {c : Case} {o o' : Operation} {r : Outbox} {x : ExecutionReceipt} {e : Event}
      {t : EventType} {p : ObserveArgs} (hop : c.op = some o) (hrow : c.Row r)
      (hfence : Fenced w p.toClaimRef [t] r) (hstate : o.state = .applied)
      (hx : x.For o p.toClaimRef .verified) (hobserved : Observed w o p x t o')
      (he : e.action ∈ ["console.extension.install.observe", "console.extension.remove.observe"]) :
      Case.Step w (.observe t p) c
        { c with
          op := some o'
          receipts := c.receipts ++ [x]
          outbox := replaceRow (r.deliver w.s) c.outbox
          events := c.events ++ [e] }
  | fail {c : Case} {o : Operation} {r : Outbox} {x : ExecutionReceipt} {e : Event}
      {p : FailureArgs} (hop : c.op = some o) (hrow : c.Row r)
      (hfence : Fenced w p.toClaimRef [.operationReadyForDispatch,
        .extensionInstallObservationRequested, .extensionRemovalObservationRequested] r)
      (hmatch : failureMismatch p r o ≠ some true) (hx : x.For o p.toClaimRef p.phase)
      (he : e.action = o.actionId) :
      Case.Step w (.fail p) c
        { c with
          op := some (o.fail w.s p r)
          receipts := c.receipts ++ [x]
          outbox := replaceRow (r.deliver w.s) c.outbox
          events := c.events ++ [e] }
  | verify {c : Case} {o : Operation} {v : VerificationReceipt} {document : Jsonb} {e : Event}
      (hop : c.op = some o) (hstate : o.state = .applied) (hevidence : Evidenced w c o)
      (he : e.action = "console.operation.verify") :
      Case.Step w .verify c
        { c with
          op := some (o.verify w.s document)
          verifications := c.verifications ++ [v]
          events := c.events ++ [e] }
  | propose {c : Case} {o : Operation} {e : Event} {p : GiteaArgs} (hop : c.op = some o)
      (hnone : c.proposal = none) (he : e.action = proposalAction)
      (hevidence : e.evidence = proposalEvidence p o)
      (hbranch : p.branch = none ∨ p.branch = some ("control/" ++ o.operationId.text)) :
      Case.Step w (.propose p) c { c with events := c.events ++ [e] }
  | merge {c : Case} {o : Operation} {e : Event} {p : GiteaArgs} (hop : c.op = some o)
      (hreq : o.approvalRequired = true) (happroved : o.approvalRevision ≠ none)
      (hstate : o.state = .authorized) (hrevision : p.revision ≠ none)
      (hproposal : o.declarationBinding ≠ none → Proposed.Matches c p)
      (he : e.action = mergeAction) (hevidence : e.evidence = mergeEvidence p (o.merge w.s p))
      (hsource : o.sourceRevision = none) :
      Case.Step w (.merge p) c
        { c with op := some (o.merge w.s p), events := c.events ++ [e] }
  | credential {c : Case} {o : Operation} {outcome : Outcome} {e : Event} {p : CredentialArgs}
      {rows : List Outbox} (hop : c.op = some o) (hbroker : outsideCredentialBroker o ≠ some true)
      (hrows : rows = c.outbox ∨
        rows = c.outbox.map fun r => if r.deliveredAt.isNone then r.deliver w.s else r)
      (he : e.action = credentialAction) (hopen : ¬ (o.state = .applied ∨ o.state = .verified)) :
      Case.Step w .credential c
        { c with
          op := some (o.credentialResult w.s p outcome)
          outbox := rows
          events := c.events ++ [e] }

end Authority
