import OpenSphere.Lifecycle.Worker

/-!
# The request functions take steps

Acceptance, approval, verification, the Git receipts and the credential broker,
in the same manner as the worker functions.  `exec_commits` puts all functions
together: whatever a call does, it does to one case, by one step of its kind.
-/

open Sql
open System (modify modify_self modify_modify OneCase)

namespace Authority

variable {v : Accepted} {o : Operation} {u : Unit} {session : BrowserSession}
  {authority : SubjectAuthority} {development : Bool} {input : Option Jsonb} {p : AcceptArgs}

section Functions

variable {D : Digest} {s : Statement} {db db' : Db}

/-! ## Sessions -/

theorem activeSession_eq_ok {sessionId actorRef : Option Uuid} {v : BrowserSession}
    (h : activeSession s db sessionId actorRef = .ok v) : v ∈ db.identity.sessions.rows := by
  simp only [activeSession, bind_eq_ok, orRaise_eq_ok, pure_eq_ok] at h
  obtain ⟨v', hv, _, -, rfl⟩ := h
  exact (Table.lookup_eq_some.mp hv).1

/-! ## Acceptance -/

theorem newOperation_eq_ok {digest : String} {aal : Aal}
    {revision : Int}
    (h : newOperation s development p digest aal revision = .ok o) :
    o.operationId = s.rowId ∧ p.actionId = some o.actionId ∧
      p.actorRef = some o.actorRef ∧ p.idempotencyKey = some o.idempotencyKey ∧
      p.approvalRequired = some o.approvalRequired ∧ o.declarationBinding = none ∧
      o.requestDigest = digest ∧ o.Initial := by
  simp only [newOperation, bind_eq_ok, notNull_eq_ok, pure_eq_ok] at h
  obtain ⟨actionId, haction, _, -, actorRef, hactor, _, -, _, -, _, -, _, -, _, -, required, hreq,
    key, hkey, _, -, rfl⟩ := h
  exact ⟨rfl, haction, hactor, hkey, hreq, rfl, rfl, rfl, rfl, rfl, rfl, fun hb => absurd rfl hb⟩

/-- How an acceptance that commits has gone. -/
inductive Accepts (D : Digest) (s : Statement) (development : Bool) (p : AcceptArgs) (db : Db) :
    Db → Accepted → Prop where
  /-- The stored request is returned. -/
  | replay {o : Operation} (hkey : db.operationOfKey p.actorRef p.idempotencyKey = some o)
      (hdigest : o.requestDigest = D.hash (requestDocument development p)) :
      Accepts D s development p db db ⟨o, true⟩
  /-- A new operation is stored. -/
  | store {db' : Db} {o : Operation} {aal : Aal} {revision : Int} {r : Outbox} {e : Event}
      (hkey : db.operationOfKey p.actorRef p.idempotencyKey = none)
      (hnew : newOperation s development p (D.hash (requestDocument development p)) aal revision =
        .ok o)
      (hop : (db.case s.rowId).op = none) (hr : r.Initial o (acceptanceEventType o))
      (he : e.action = o.actionId)
      (hwrites : Writes db db' s.rowId fun c =>
        { c with op := some o, outbox := c.outbox ++ [r], events := c.events ++ [e] }) :
      Accepts D s development p db db' ⟨o, false⟩

theorem replayOrStore_accepts
    (h : replayOrStore D s development p session authority db = .ok (db', v))
    (hsession : session ∈ db.identity.sessions.rows) : Accepts D s development p db db' v := by
  unfold replayOrStore at h
  split at h
  next o hkey =>
    simp only [bind_eq_ok, raiseIf_eq_ok, pure_eq_ok] at h
    obtain ⟨_, hdigest, heq⟩ := h
    cases heq
    exact .replay hkey (ne_passed hdigest rfl rfl)
  next hkey =>
    simp only [storeOperation, bind_eq_ok, pure_eq_ok] at h
    obtain ⟨o, ho, db₁, h₁, db₂, h₂, db₃, h₃, db₄, h₄, heq⟩ := h
    cases heq
    have hid := (newOperation_eq_ok ho).1
    obtain ⟨hop, w₁⟩ := insertOperation_writes h₁ hid
    obtain ⟨r, hr⟩ : ∃ r, r = newOutbox s o.operationId (acceptanceEventType o)
      (acceptancePayload o) o.payloadDigest := ⟨_, rfl⟩
    rw [← hr] at h₂
    have hinit : r.Initial o (acceptanceEventType o) := by
      rw [hr]
      exact newOutbox_initial rfl
    have w₂ := w₁.trans (insertOutbox_writes h₂ (hinit.operationId.trans hid))
    obtain ⟨e, hfrom, w₃⟩ := appendEvent_writes h₃ (congrArg some hid)
    have w₄ := w₂.trans w₃
    exact .store hkey ho hop hinit hfrom.action (w₄.trans (touchSession_writes h₄ w₄ hsession))

theorem acceptOperation_accepts
    (h : acceptOperation D s p db = .ok (db', v)) : Accepts D s false p db db' v := by
  obtain ⟨⟨session, authority⟩, hinitiator, h⟩ := bind_eq_ok.mp h
  simp only [initiator, bind_eq_ok, pure_eq_ok] at hinitiator
  obtain ⟨_, -, session, hsession, _, -, _, -, _, -, heq⟩ := hinitiator
  cases heq
  exact replayOrStore_accepts h (activeSession_eq_ok hsession)

theorem acceptDevelopmentModuleInstall_accepts
    (h : acceptDevelopmentModuleInstall D s p db = .ok (db', v)) :
    Accepts D s true p db db' v ∧ p.approvalRequired = some false := by
  obtain ⟨⟨session, authority⟩, hinitiator, h⟩ := bind_eq_ok.mp h
  simp only [developmentInitiator, bind_eq_ok, raiseIf_eq_ok, pure_eq_ok] at hinitiator
  obtain ⟨_, -, _, -, session, hsession, _, -, _, -, _, hpolicy, heq⟩ := hinitiator
  cases heq
  have hreq := any_ne_true hpolicy (distinct p.approvalRequired (some false)) (by simp)
  exact ⟨replayOrStore_accepts h (activeSession_eq_ok hsession), by simpa using hreq⟩

theorem Accepts.commits
    (h : Accepts D s development p db db' v) : Commits (db.scene s) .accept db db' := by
  cases h with
  | replay => exact .refl
  | store hkey hnew hop hr he hwrites =>
      exact .of_writes hwrites (.accept hop (newOperation_eq_ok hnew).2.2.2.2.2.2.2 hr he)

/-- What the guard of a Git-reviewed module leaves of its input. -/
theorem closedModule_passed {b d : Option Jsonb}
    (h : outsideClosedModule input b d ≠ some true) :
    b ≠ none ∧ fieldText input "actionId" = some "console.extension.install" ∧
      fieldText input "approvalRequired" = some "true" := by
  have hnot := any_ne_true h
  refine ⟨isNull_passed (hnot (isNull b) (by simp)), ?_, ?_⟩
  · have := hnot (distinct (fieldText input "actionId") (some "console.extension.install"))
      (by simp)
    simpa using this
  · have := hnot (distinct (fieldText input "approvalRequired") (some "true")) (by simp)
    simpa using this

theorem giteaAcceptArgs_eq_ok
    (h : giteaAcceptArgs input = .ok p) :
    p.actionId = fieldText input "actionId" ∧
      (fieldText input "approvalRequired" = some "true" → p.approvalRequired = some true) := by
  simp only [giteaAcceptArgs, bind_eq_ok, pure_eq_ok] at h
  obtain ⟨_, -, _, -, _, -, _, -, required, hreq, rfl⟩ := h
  refine ⟨rfl, fun htrue => ?_⟩
  rw [htrue] at hreq
  have hcast : castBoolean "true" = some true := by decide
  simp only [castText, hcast, orRaise, Except.map] at hreq
  cases hreq
  rfl

theorem closedModule_eq_ok (h : closedModule input db = .ok p) :
    giteaAcceptArgs input = .ok p ∧ p.approvalRequired = some true ∧
      field input "declarationBinding" ≠ none := by
  simp only [closedModule, bind_eq_ok, raiseIf_eq_ok, pure_eq_ok] at h
  obtain ⟨_, hpassed, _, hp, _, -, rfl⟩ := h
  obtain ⟨hbound, -, hrequired⟩ := closedModule_passed hpassed
  exact ⟨hp, (giteaAcceptArgs_eq_ok hp).2 hrequired, hbound⟩

theorem acceptAsInput_local (h : fieldText input "localDevelopmentModuleInstall" = some "true") :
    acceptAsInput D s input p db = acceptDevelopmentModuleInstall D s p db :=
  if_pos ((eq_eq_true _ _).mpr ⟨_, h, rfl⟩)

theorem acceptAsInput_direct (h : fieldText input "localDevelopmentModuleInstall" ≠ some "true") :
    acceptAsInput D s input p db = acceptOperation D s p db := by
  refine if_neg fun htrue => h ?_
  obtain ⟨t, ht, hsame⟩ := (eq_eq_true _ _).mp htrue
  rw [ht, hsame]

/-- How an acceptance of a Git-reviewed module that commits has gone.  It never
goes through the development entry, which admits no operation that requires
approval. -/
inductive AcceptsBound (D : Digest) (s : Statement) (input : Option Jsonb) (p : AcceptArgs)
    (db : Db) : Db → Accepted → Prop where
  | replay {o : Operation} (h : Accepts D s false p db db ⟨o, true⟩)
      (hbinding : Jsonb.distinct o.declarationBinding (field input "declarationBinding") ≠ some true) :
      AcceptsBound D s input p db db ⟨o, true⟩
  | store {db₁ db' : Db} {o : Operation} (h : Accepts D s false p db db₁ ⟨o, false⟩)
      (hput : db₁.putOperation
        { o with declarationBinding := field input "declarationBinding" } = .ok db') :
      AcceptsBound D s input p db db'
        ⟨{ o with declarationBinding := field input "declarationBinding" }, false⟩

theorem acceptGiteaModule_accepts
    (h : acceptGiteaModule D s input db = .ok (db', v)) :
    ∃ p, giteaAcceptArgs input = .ok p ∧
      outsideClosedModule input (field input "declarationBinding")
        (field (field input "declarationBinding") "desiredState") ≠ some true ∧
      fieldText input "localDevelopmentModuleInstall" ≠ some "true" ∧
      AcceptsBound D s input p db db' v := by
  simp only [acceptGiteaModule, closedModule, bind_eq_ok, raiseIf_eq_ok, pure_eq_ok] at h
  obtain ⟨_, ⟨_, hclosed, p, hp, _, -, rfl⟩, ⟨db₁, v₁⟩, h₁, _, hbinding, h⟩ := h
  have hreq := (giteaAcceptArgs_eq_ok hp).2 (closedModule_passed hclosed).2.2
  have hdirect : fieldText input "localDevelopmentModuleInstall" ≠ some "true" := by
    intro hlocal
    rw [acceptAsInput_local hlocal] at h₁
    cases hreq.symm.trans (acceptDevelopmentModuleInstall_accepts h₁).2
  rw [acceptAsInput_direct hdirect] at h₁
  have haccepts := acceptOperation_accepts h₁
  refine ⟨p, hp, hclosed, hdirect, ?_⟩
  cases haccepts with
  | replay hkey hdigest =>
      cases h
      refine .replay (.replay hkey hdigest) fun hdistinct => hbinding ?_
      rw [Cond.and_eq_true]
      exact ⟨rfl, hdistinct⟩
  | store hkey hnew hop hr he hwrites =>
      simp only [Bool.false_eq_true, if_false, bind_eq_ok, pure_eq_ok] at h
      obtain ⟨db₂, h₂, heq⟩ := h
      cases heq
      exact .store (.store hkey hnew hop hr he hwrites) h₂

theorem acceptGiteaModule_commits
    (h : acceptGiteaModule D s input db = .ok (db', v)) :
    Commits (db.scene s) .accept db db' := by
  obtain ⟨p, hp, hclosed, -, haccepts⟩ := acceptGiteaModule_accepts h
  obtain ⟨-, haction, hrequired⟩ := closedModule_passed hclosed
  obtain ⟨hpaction, hprequired⟩ := giteaAcceptArgs_eq_ok hp
  cases haccepts with
  | replay => exact .refl
  | store haccepts hput =>
      cases haccepts with
      | store hkey hnew hop hr he hwrites =>
          obtain ⟨hid, hact, -, -, hreq, -, -, hinit⟩ := newOperation_eq_ok hnew
          have w := hwrites.trans (putOperation_writes hput hid (hwrites.op rfl))
          refine .of_writes w (.accept hop ⟨hinit.state, hinit.stateVersion,
            hinit.approvalRevision, hinit.declarationMergeRevision, fun _ => ⟨?_, ?_⟩⟩
            ⟨hr.operationId, hr.eventType, hr.claimOwner, hr.claimEpoch, hr.leaseExpiresAt,
              hr.deliveredAt⟩ he)
          · exact Option.some.inj (hreq.symm.trans (hprequired hrequired))
          · exact Option.some.inj (hact.symm.trans (hpaction.trans haction))

/-! ## Approval -/

theorem currentAuthority_eq_ok {actorRef : Option Uuid}
    {revision epoch : Option Int} {a : SubjectAuthority}
    (h : currentAuthority db session actorRef revision epoch = .ok a) :
    db.identity.subjects.lookup actorRef = some a := by
  simp only [currentAuthority, bind_eq_ok, orRaise_eq_ok, pure_eq_ok] at h
  obtain ⟨a', ha, _, -, rfl⟩ := h
  exact ha

theorem newApproval_eq_ok {p : ApproveArgs} {digest : String}
    {a : Approval}
    (h : newApproval s development p o digest session authority = .ok a) :
    a.operationId = o.operationId ∧ p.actorRef = some a.actorRef ∧
      p.approvalRevision = some a.approvalRevision := by
  simp only [newApproval, bind_eq_ok, notNull_eq_ok, pure_eq_ok] at h
  obtain ⟨actor, hactor, _, -, revision, hrevision, _, -, _, -, _, -, rfl⟩ := h
  exact ⟨rfl, hactor, hrevision⟩

theorem requireOtherPerson_eq_ok {actor : Uuid}
    (h : requireOtherPerson db o authority (some actor) = .ok u)
    (hauthority : db.identity.subjects.lookup (some actor) = some authority) :
    actor ≠ o.actorRef ∧ ∃ p q, db.person actor = some p ∧
      db.person o.actorRef = some q ∧ p ≠ q := by
  simp only [requireOtherPerson, bind_eq_ok, orRaise_eq_ok, raiseIf_eq_ok] at h
  obtain ⟨_, hself, initiator, hinitiator, hperson⟩ := h
  refine ⟨?_, authority.personRef, initiator.personRef, ?_, ?_, ?_⟩
  · rintro rfl
    exact hself ((eq_eq_true _ _).mpr ⟨_, rfl, rfl⟩)
  · simp [Db.person, hauthority]
  · simp [Db.person, hinitiator]
  · intro hsame
    exact hperson ((eq_eq_true _ _).mpr ⟨_, rfl, congrArg some hsame⟩)

theorem requireAwaitingApproval_eq_ok {p : ApproveArgs}
    (h : requireAwaitingApproval o p = .ok u) :
    o.approvalRequired = true ∧ o.state = .planned ∧
      ∀ t, p.approvalRevision = some t → t = o.planRevision := by
  simp only [requireAwaitingApproval, bind_eq_ok, raiseIf_eq_ok] at h
  obtain ⟨_, hreq, _, hrevision, _, -, hstate⟩ := h
  refine ⟨by simpa using hreq, by simpa using hstate, fun t ht => ?_⟩
  have hpassed : ne (some o.planRevision) p.approvalRevision ≠ some true := fun htrue =>
    hrevision ((Cond.or_eq_true _ _).mpr (.inr htrue))
  exact (ne_passed hpassed rfl ht).symm

theorem storeApproval_commits {p : ApproveArgs}
    (h : storeApproval D s development p session authority db = .ok (db', v))
    (hauthority : db.identity.subjects.lookup p.actorRef = some authority)
    (hsession : session ∈ db.identity.sessions.rows) : Commits (db.scene s) .approve db db' := by
  simp only [storeApproval, bind_eq_ok, orRaise_eq_ok, pure_eq_ok] at h
  obtain ⟨o, ho, _, hother, _, hawaiting, a, ha, db₁, h₁, db₂, h₂, db₃, h₃, db₄, h₄, db₅, h₅,
    heq⟩ := h
  cases heq
  obtain ⟨haid, hactor, hrevision⟩ := newApproval_eq_ok ha
  obtain ⟨hreq, hstate, hplan⟩ := requireAwaitingApproval_eq_ok hawaiting
  rw [hactor] at hother hauthority
  obtain ⟨hactorRef, hperson⟩ := requireOtherPerson_eq_ok hother hauthority
  have hop := case_of_lookup ho
  obtain ⟨r, hr⟩ : ∃ r, r = newOutbox s o.operationId .operationReadyForDispatch
    (approvalPayload { o with
      state := .authorized
      stateVersion := o.stateVersion + 1
      approvalRevision := some a.approvalRevision
      updatedAt := s.now } a) (D.hash (approvalDocument development p)) := ⟨_, rfl⟩
  have hinit : r.Initial o .operationReadyForDispatch := by
    rw [hr]
    exact newOutbox_initial rfl
  rw [← hr] at h₃
  have w₁ := insertApproval_writes h₁ haid
  have w₂ := w₁.trans (putOperation_writes h₂ rfl (w₁.op hop))
  have w₃ := w₂.trans (insertOutbox_writes h₃ hinit.operationId)
  obtain ⟨e, hfrom, w₄⟩ := appendEvent_writes h₄ rfl
  have w₅ := w₃.trans w₄
  exact .of_writes (w₅.trans (touchSession_writes h₅ w₅ hsession))
    (.approve hop hreq hstate ⟨haid, hplan _ hrevision, hactorRef, hperson⟩ hinit hfrom.action)

theorem replayOrApprove_commits {p : ApproveArgs}
    {v : Option Accepted}
    (h : replayOrApprove D s development p session authority db = .ok (db', v))
    (hauthority : db.identity.subjects.lookup p.actorRef = some authority)
    (hsession : session ∈ db.identity.sessions.rows) : Commits (db.scene s) .approve db db' := by
  unfold replayOrApprove at h
  split at h
  · simp only [bind_eq_ok, pure_eq_ok] at h
    obtain ⟨_, -, heq⟩ := h
    cases heq
    exact .refl
  · simp only [bind_eq_ok, pure_eq_ok] at h
    obtain ⟨⟨db₁, v₁⟩, h₁, heq⟩ := h
    cases heq
    exact storeApproval_commits h₁ hauthority hsession

theorem approveOperation_commits {p : ApproveArgs} {v : Option Accepted}
    (h : approveOperation D s p db = .ok (db', v)) : Commits (db.scene s) .approve db db' := by
  simp only [approveOperation, bind_eq_ok] at h
  obtain ⟨_, -, session, hsession, authority, hauthority, _, -, _, -, h⟩ := h
  exact replayOrApprove_commits h (currentAuthority_eq_ok hauthority) (activeSession_eq_ok hsession)

theorem approveDevelopmentModuleInstall_commits {p : ApproveArgs} {v : Option Accepted}
    (h : approveDevelopmentModuleInstall D s p db = .ok (db', v)) :
    Commits (db.scene s) .approve db db' := by
  simp only [approveDevelopmentModuleInstall, bind_eq_ok] at h
  obtain ⟨_, -, _, -, session, hsession, authority, hauthority, _, -, o, -, _, -, h⟩ := h
  exact replayOrApprove_commits h (currentAuthority_eq_ok hauthority) (activeSession_eq_ok hsession)

/-! ## Verification -/

theorem receiptOf_eq_some {id : Uuid} {phase : Phase} {also : ExecutionReceipt → Bool}
    {x : ExecutionReceipt} (h : db.receiptOf id phase also = some x) :
    x ∈ (db.case id).receipts ∧ x.ownerRef = "C_EXT" ∧ x.phase = phase := by
  have hmem := List.mem_of_find?_eq_some h
  have hprop := List.find?_some h
  simp only [ExecutionReceipt.isOf, Bool.and_eq_true, decide_eq_true_eq] at hprop
  exact ⟨List.mem_filter.mpr ⟨hmem, by simpa using hprop.1.1.1⟩, hprop.1.1.2, hprop.1.2⟩

theorem observe_evidenced {obs : Observation} (haction : o.actionId ∈ extensionActions)
    (h : observe db o = .ok obs) : Evidenced (db.scene s) (db.case o.operationId) o := by
  unfold observe at h
  split at h
  next hrevocation =>
    exact ⟨haction, fun hne => absurd hrevocation hne, fun hinstall => by
      rw [hrevocation] at hinstall
      exact absurd hinstall (by decide)⟩
  next =>
    split at h
    next =>
      simp only [observeInstall, bind_eq_ok, orRaise_eq_ok, raiseIf_eq_ok, pure_eq_ok] at h
      obtain ⟨_, hrevoked, x, -, y, hy, _, -, -⟩ := h
      exact ⟨haction, fun _ => ⟨y, receiptOf_eq_some hy⟩, fun _ => decided_passed hrevoked⟩
    next hinstall =>
      simp only [observeRemoval, bind_eq_ok, orRaise_eq_ok, pure_eq_ok] at h
      obtain ⟨x, -, y, hy, _, -, -⟩ := h
      exact ⟨haction, fun _ => ⟨y, receiptOf_eq_some hy⟩, fun h => absurd h hinstall⟩

theorem requireVerifiable_eq_ok {p : VerifyArgs}
    (h : requireVerifiable o p = .ok u) : o.state = .applied ∧ o.actionId ∈ extensionActions := by
  simp only [requireVerifiable, bind_eq_ok, raiseIf_eq_ok] at h
  obtain ⟨_, -, _, hstate, htyped⟩ := h
  exact ⟨by simpa using hstate,
    notIn_passed (any_ne_true htyped (notIn (some o.actionId) extensionActions) (by simp))⟩

theorem storeVerification_commits {p : VerifyArgs}
    (h : storeVerification D s p session authority db = .ok (db', v))
    (hsession : session ∈ db.identity.sessions.rows) : Commits (db.scene s) .verify db db' := by
  simp only [storeVerification, bind_eq_ok, orRaise_eq_ok, pure_eq_ok] at h
  obtain ⟨o, ho, _, hverifiable, obs, hobs, x, hx, db₁, h₁, db₂, h₂, db₃, h₃, db₄, h₄, heq⟩ := h
  cases heq
  obtain ⟨hstate, haction⟩ := requireVerifiable_eq_ok hverifiable
  have hop := case_of_lookup ho
  have hxid : x.operationId = o.operationId := by
    simp only [newVerification, bind_eq_ok, pure_eq_ok] at hx
    obtain ⟨_, -, _, -, _, -, _, -, _, -, rfl⟩ := hx
    rfl
  have w₁ := insertVerification_writes h₁ hxid
  have w₂ := w₁.trans (putOperation_writes h₂ rfl (w₁.op hop))
  obtain ⟨e, hfrom, w₃⟩ := appendEvent_writes h₃ rfl
  have w₄ := w₂.trans w₃
  exact .of_writes (w₄.trans (touchSession_writes h₄ w₄ hsession))
    (.verify hop hstate (observe_evidenced haction hobs) hfrom.action)

theorem verifyExtensionOperation_commits {p : VerifyArgs} {v : Option Accepted}
    (h : verifyExtensionOperation D s p db = .ok (db', v)) :
    Commits (db.scene s) .verify db db' := by
  simp only [verifyExtensionOperation, verifier, bind_eq_ok, pure_eq_ok] at h
  obtain ⟨⟨session, authority⟩, ⟨_, -, session, hsession, _, -, _, -, heq⟩, h⟩ := h
  cases heq
  split at h
  · simp only [bind_eq_ok, pure_eq_ok] at h
    obtain ⟨_, -, heq⟩ := h
    cases heq
    exact .refl
  · simp only [bind_eq_ok, pure_eq_ok] at h
    obtain ⟨⟨db₁, v₁⟩, h₁, heq⟩ := h
    cases heq
    exact storeVerification_commits h₁ (activeSession_eq_ok hsession)

/-! ## Git receipts -/

theorem latestEvent_proposal (db : Db) (id : Uuid) :
    db.latestEvent id proposalAction = (db.case id).proposal := by
  simp only [Db.latestEvent, Case.proposal, Db.case, ← List.filter_reverse, List.find?_filter]
  congr 1
  funext e
  simp

theorem recordGiteaProposal_commits {p : GiteaArgs} {v : Proposed}
    (h : recordGiteaProposal D s p db = .ok (db', v)) :
    Commits (db.scene s) (.propose p) db db' := by
  simp only [recordGiteaProposal, bind_eq_ok, orRaise_eq_ok, raiseIf_eq_ok] at h
  obtain ⟨_, hvalid, o, ho, _, -, h⟩ := h
  split at h
  · simp only [bind_eq_ok, pure_eq_ok] at h
    obtain ⟨_, -, heq⟩ := h
    cases heq
    exact .refl
  next hnone =>
    simp only [bind_eq_ok, pure_eq_ok] at h
    obtain ⟨db₁, h₁, heq⟩ := h
    cases heq
    have hop := case_of_lookup ho
    obtain ⟨e, hfrom, w₁⟩ := appendEvent_writes h₁ rfl
    have hbranch : p.branch = none ∨ p.branch = some ("control/" ++ o.operationId.text) := by
      have hpassed := any_ne_true hvalid
        (ne p.branch (p.operationId.map fun u => "control/" ++ u.text)) (by simp)
      rw [(Table.lookup_eq_some.mp ho).2] at hpassed
      cases hb : p.branch with
      | none => exact .inl rfl
      | some b => exact .inr (congrArg some (ne_passed hpassed hb rfl))
    exact .of_writes w₁ (.propose hop ((latestEvent_proposal db _).symm.trans hnone) hfrom.action
      hfrom.evidence hbranch)

theorem requireProposal_eq_ok {p : GiteaArgs}
    (h : requireProposal db p o = .ok u) (hbound : o.declarationBinding ≠ none) :
    Proposed.Matches (db.case o.operationId) p := by
  unfold requireProposal at h
  rw [if_pos (Option.isSome_iff_ne_none.mpr hbound)] at h
  simp only [bind_eq_ok, orRaise_eq_ok, raiseIf_eq_ok] at h
  obtain ⟨e, he, pull, hpull, hmatch⟩ := h
  refine ⟨e, (latestEvent_proposal db _).symm.trans he, ?_, ?_⟩
  · by_contra hne
    exact hmatch ((Cond.or_eq_true _ _).mpr (.inl ((distinct_eq_true _ _).mpr hne)))
  · have hpullEq : pull = p.pullNumber := by
      by_contra hne
      exact hmatch ((Cond.or_eq_true _ _).mpr (.inr ((distinct_eq_true _ _).mpr hne)))
    rw [hpull, hpullEq]

theorem recordGiteaMerge_commits {p : GiteaArgs}
    (h : recordGiteaMerge D s p db = .ok (db', v)) :
    Commits (db.scene s) (.merge p) db db' := by
  simp only [recordGiteaMerge, bind_eq_ok, orRaise_eq_ok, raiseIf_eq_ok] at h
  obtain ⟨_, hvalid, o, ho, _, hboundary, _, hproposal, h⟩ := h
  split at h
  · cases h
    exact .refl
  · simp only [bind_eq_ok, raiseIf_eq_ok, pure_eq_ok] at h
    obtain ⟨_, hawaiting, db₁, h₁, db₂, h₂, heq⟩ := h
    cases heq
    have hop := case_of_lookup ho
    have hnot := any_ne_true hboundary
    have hreq := decided_passed (hnot (some (!o.approvalRequired)) (by simp [outsideGitBoundary]))
    have happroved := isNull_passed (hnot (isNull o.approvalRevision) (by simp))
    have hstate : o.state = .authorized := by
      by_contra hne
      exact hawaiting ((Cond.or_eq_true _ _).mpr (.inl (by simpa using hne)))
    have hsource : o.sourceRevision = none := isNotNull_passed fun htrue =>
      hawaiting ((Cond.or_eq_true _ _).mpr (.inr htrue))
    have hrevision : p.revision ≠ none := by
      intro hnone
      have hformat := any_ne_true hvalid (fails revisionFormat (some (coalesce p.revision "")))
        (by simp)
      rw [hnone] at hformat
      exact hformat (by decide)
    have w₁ := putOperation_writes h₁ rfl hop
    obtain ⟨e, hfrom, w₂⟩ := appendEvent_writes h₂ rfl
    exact .of_writes (w₁.trans w₂) (.merge hop (by simpa using hreq) happroved hstate hrevision
      (requireProposal_eq_ok hproposal) hfrom.action hfrom.evidence hsource)

/-! ## The credential broker -/

theorem recordRegistryCredentialResult_commits {p : CredentialArgs} {v : Bool}
    (h : recordRegistryCredentialResult D s p db = .ok (db', v)) :
    Commits (db.scene s) .credential db db' := by
  simp only [recordRegistryCredentialResult, bind_eq_ok, raiseIf_eq_ok] at h
  obtain ⟨_, -, h⟩ := h
  split at h
  · cases h
    exact .refl
  · split at h
    next hnone =>
      simp only [bind_eq_ok, pure_eq_ok] at h
      obtain ⟨outcome, -, db₁, h₁, heq⟩ := h
      cases heq
      have w := appendEvent_none_writes s.rowId h₁ hnone
      exact ⟨.inl (w.case.trans (System.modify_id _ _)), w.identity, w.revoked⟩
    next id hid =>
      simp only [bind_eq_ok, orRaise_eq_ok, raiseIf_eq_ok] at h
      obtain ⟨o, ho, _, hbroker, h⟩ := h
      split at h
      · cases h
        exact .refl
      next hopen =>
        simp only [bind_eq_ok, pure_eq_ok] at h
        obtain ⟨outcome, -, db₁, h₁, db₂, h₂, db₃, h₃, heq⟩ := h
        cases heq
        have hoid : p.operationId = some o.operationId :=
          hid.trans (Table.lookup_eq_some.mp ho).2
        have hop := case_of_lookup ho
        have w₁ := putOperation_writes h₁ rfl hop
        obtain ⟨e, hfrom, w₃⟩ := appendEvent_writes h₃ hoid
        unfold Db.deliverSettled at h₂
        split at h₂
        · exact .of_writes (w₁.trans ((deliverAll_writes h₂).trans w₃))
            (.credential hop hbroker (.inr rfl) hfrom.action hopen)
        · cases h₂
          exact .of_writes (w₁.trans w₃) (.credential hop hbroker (.inl rfl) hfrom.action hopen)

/-! ## All functions -/

theorem fst_map_eq_ok {α : Type} {x : Except SqlError (Db × α)} (h : (·.1) <$> x = .ok db') :
    ∃ v, x = .ok (db', v) := by
  cases x with
  | error e => cases h
  | ok a =>
      cases h
      exact ⟨a.2, rfl⟩

/-- A committed call changes at most one case, by one step of its kind. -/
theorem exec_commits {c : Call} (h : c.exec D s db = .ok db') :
    Commits (db.scene s) c.label db db' := by
  cases c with
  | assertInstallNotRevoked p =>
      simp only [Call.exec] at h
      cases hx : assertInstallNotRevoked s p db with
      | error e => rw [hx] at h; cases h
      | ok v => rw [hx] at h; cases h; exact .refl
  | acceptOperation p =>
      obtain ⟨v, hv⟩ := fst_map_eq_ok h
      exact (acceptOperation_accepts hv).commits
  | acceptDevelopmentModuleInstall p =>
      obtain ⟨v, hv⟩ := fst_map_eq_ok h
      exact (acceptDevelopmentModuleInstall_accepts hv).1.commits
  | acceptGiteaModule p =>
      obtain ⟨v, hv⟩ := fst_map_eq_ok h
      exact acceptGiteaModule_commits hv
  | approveOperation p =>
      obtain ⟨v, hv⟩ := fst_map_eq_ok h
      exact approveOperation_commits hv
  | approveDevelopmentModuleInstall p =>
      obtain ⟨v, hv⟩ := fst_map_eq_ok h
      exact approveDevelopmentModuleInstall_commits hv
  | claimOwnerOperation p =>
      obtain ⟨v, hv⟩ := fst_map_eq_ok h
      exact claimOwnerOperation_commits hv
  | renewOwnerClaim p =>
      obtain ⟨v, hv⟩ := fst_map_eq_ok h
      exact renewOwnerClaim_commits hv
  | applyRevocation p =>
      obtain ⟨v, hv⟩ := fst_map_eq_ok h
      exact (applyRevocation_steps hv).commits
  | applyInstallRegistration p =>
      obtain ⟨v, hv⟩ := fst_map_eq_ok h
      exact (applyInstallRegistration_steps hv).commits
  | applyRemoveRegistration p =>
      obtain ⟨v, hv⟩ := fst_map_eq_ok h
      exact (applyRemoveRegistration_steps hv).commits
  | recordInstallObservation p =>
      obtain ⟨v, hv⟩ := fst_map_eq_ok h
      exact (recordInstallObservation_steps hv).commits
  | recordRemoveObservation p =>
      obtain ⟨v, hv⟩ := fst_map_eq_ok h
      exact (recordRemoveObservation_steps hv).commits
  | recordExecutionFailure p =>
      obtain ⟨v, hv⟩ := fst_map_eq_ok h
      exact (recordExecutionFailure_steps hv).commits
  | verifyExtensionOperation p =>
      obtain ⟨v, hv⟩ := fst_map_eq_ok h
      exact verifyExtensionOperation_commits hv
  | recordGiteaProposal p =>
      obtain ⟨v, hv⟩ := fst_map_eq_ok h
      exact recordGiteaProposal_commits hv
  | recordGiteaMerge p =>
      obtain ⟨v, hv⟩ := fst_map_eq_ok h
      exact recordGiteaMerge_commits hv
  | recordRegistryCredentialResult p =>
      obtain ⟨v, hv⟩ := fst_map_eq_ok h
      exact recordRegistryCredentialResult_commits hv

end Functions

end Authority
