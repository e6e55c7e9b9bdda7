import OpenSphere.PlatformChange.System
import OpenSphere.Properties.Idempotency

/-!
# The same request again

What the database answers a request that it has accepted before: it returns the operation that it has,
unless the request fails for another reason than its key.  Two calls of the service are alike if they
differ in nothing but the session and the correlation, and, for a Git-reviewed module, in whether the
site is a local one.
-/

open Sql
open FrontDoor (AcceptCall)

namespace Sql

mutual

theorem json_same_self : ∀ x : Json, x.same x = true
  | .null => rfl
  | .bool b | .num n k | .str s => by simp [Json.same]
  | .arr xs => by simp [Json.same, items_same_self xs]
  | .obj fs => by simp [Json.same, fields_same_self fs]

theorem items_same_self : ∀ xs : Items, xs.same xs = true
  | .nil => rfl
  | .cons x xs => by simp [Items.same, json_same_self x, items_same_self xs]

theorem fields_same_self : ∀ fs : Fields, fs.same fs = true
  | .nil => rfl
  | .cons k x fs => by simp [Fields.same, json_same_self x, fields_same_self fs]

end

end Sql

namespace Authority

variable {D : Digest} {s : Statement} {db db' : Db} {o : Operation} {development : Bool}
  {p : AcceptArgs} {α : Type}

/-! ## Errors that are no conflict of a key -/

/-- A computation does not fail with the conflict of a key. -/
structure Clear {α : Type} (x : Except SqlError α) : Prop where
  raised : raised x ≠ some "IdempotencyMismatch"

theorem clear_ok (a : α) : Clear (.ok a : Except SqlError α) := ⟨nofun⟩

theorem Clear.bind {β : Type} {x : Except SqlError α} {f : α → Except SqlError β} (h : Clear x)
    (hf : ∀ a, x = .ok a → Clear (f a)) : Clear (x >>= f) := by
  refine ⟨fun hraised => ?_⟩
  rcases raised_bind.mp hraised with hx | ⟨a, ha, hnext⟩
  · exact h.raised hx
  · exact (hf a ha).raised hnext

theorem clear_raiseIf {c : Cond} {e : SqlError} (h : e.detail ≠ some "IdempotencyMismatch") :
    Clear (raiseIf c e) :=
  ⟨fun hraised => h (raised_raiseIf.mp hraised).2⟩

theorem clear_orRaise {x : Option α} {e : SqlError}
    (h : e.detail ≠ some "IdempotencyMismatch") : Clear (orRaise x e) :=
  ⟨fun hraised => h (raised_orRaise.mp hraised).2⟩

theorem clear_castText (type : String) (cast : String → Option α) (x : Option String) :
    Clear (castText type cast x) := by
  cases x with
  | none => exact clear_ok none
  | some t =>
      refine ⟨fun hraised => ?_⟩
      change raised (some <$> orRaise (cast t) (.cast type)) = _ at hraised
      rw [raised_map, raised_orRaise] at hraised
      cases hraised.2

theorem validateRequest_clear (p : AcceptArgs) : Clear (validateRequest p) := by
  refine (clear_raiseIf (by decide)).bind fun _ _ => ?_
  refine (clear_raiseIf (by decide)).bind fun _ _ => ?_
  exact clear_raiseIf (by decide)

theorem activeSession_clear (s : Statement) (db : Db) (sessionId actorRef : Option Uuid) :
    Clear (activeSession s db sessionId actorRef) := by
  refine (clear_orRaise (by decide)).bind fun _ _ => ?_
  exact (clear_raiseIf (by decide)).bind fun _ _ => clear_ok _

theorem currentAuthority_clear (db : Db) (session : BrowserSession) (actorRef : Option Uuid)
    (permissionRevision revokeEpoch : Option Int) :
    Clear (currentAuthority db session actorRef permissionRevision revokeEpoch) := by
  refine (clear_orRaise (by decide)).bind fun _ _ => ?_
  exact (clear_raiseIf (by decide)).bind fun _ _ => clear_ok _

theorem initiator_clear (s : Statement) (p : AcceptArgs) (db : Db) : Clear (initiator s p db) := by
  refine (validateRequest_clear p).bind fun _ _ => ?_
  refine Clear.bind (activeSession_clear ..) fun _ _ => ?_
  refine Clear.bind (currentAuthority_clear ..) fun _ _ => ?_
  refine (clear_raiseIf (by decide)).bind fun _ _ => ?_
  exact (clear_raiseIf (by decide)).bind fun _ _ => clear_ok _

theorem developmentInitiator_clear (s : Statement) (p : AcceptArgs) (db : Db) :
    Clear (developmentInitiator s p db) := by
  refine (clear_raiseIf (by decide)).bind fun _ _ => ?_
  refine (validateRequest_clear p).bind fun _ _ => ?_
  refine Clear.bind (activeSession_clear ..) fun _ _ => ?_
  refine Clear.bind (currentAuthority_clear ..) fun _ _ => ?_
  refine (clear_raiseIf (by decide)).bind fun _ _ => ?_
  exact (clear_raiseIf (by decide)).bind fun _ _ => clear_ok _

theorem closedModule_clear (input : Option Jsonb) (db : Db) : Clear (closedModule input db) := by
  refine (clear_raiseIf (by decide)).bind fun _ _ => ?_
  refine Clear.bind ?_ fun _ _ => (clear_raiseIf (by decide)).bind fun _ _ => clear_ok _
  refine Clear.bind (clear_castText ..) fun _ _ => ?_
  refine Clear.bind (clear_castText ..) fun _ _ => ?_
  refine Clear.bind (clear_castText ..) fun _ _ => ?_
  refine Clear.bind (clear_castText ..) fun _ _ => ?_
  exact Clear.bind (clear_castText ..) fun _ _ => clear_ok _

/-! ## What an acceptance leaves -/

theorem distinct_self (x : Jsonb) : Jsonb.distinct (some x) (some x) = some false := by
  simp [Jsonb.distinct, Jsonb.same, json_same_self]

theorem Accepts.stored
    {v : Accepted} (h : Accepts D s development p db db' v) :
    db'.operationOfKey p.actorRef p.idempotencyKey = some v.operation ∧
      v.operation.requestDigest = D.hash (requestDocument development p) := by
  cases h with
  | replay hkey hdigest => exact ⟨hkey, hdigest⟩
  | store hkey hnew hop hr he hwrites =>
      obtain ⟨-, -, hactor, hidempotency, -, -, hdigest, -⟩ := newOperation_eq_ok hnew
      have hmem := (Db.case_op_eq_some.mp (hwrites.op rfl)).1
      exact ⟨operationOfKey_eq_some.mpr ⟨hmem, hactor, hidempotency⟩, hdigest⟩

/-- An acceptance that commits leaves what its replays rest on. -/
theorem accept_stores {e : Entry} {v : Accepted}
    (h : e.accept D s db = .ok (db', v)) :
    ∃ q, e.request = some q ∧ Replays D db' q v.operation := by
  cases e with
  | operation p =>
      obtain ⟨hkey, hdigest⟩ := (acceptOperation_accepts h).stored
      exact ⟨_, rfl, hkey, hdigest, fun hb => absurd rfl hb⟩
  | development p =>
      obtain ⟨hkey, hdigest⟩ := (acceptDevelopmentModuleInstall_accepts h).1.stored
      exact ⟨_, rfl, hkey, hdigest, fun hb => absurd rfl hb⟩
  | gitea input =>
      obtain ⟨p, hp, -, hdirect, hbound⟩ := acceptGiteaModule_accepts h
      refine ⟨⟨false, p, field input "declarationBinding"⟩, ?_, ?_⟩
      · simp [Entry.request, hp, Except.toOption, hdirect]
      · cases hbound with
        | replay haccepts hbinding =>
            obtain ⟨hkey, hdigest⟩ := haccepts.stored
            exact ⟨hkey, hdigest, fun _ => distinct_passed hbinding⟩
        | store haccepts hput =>
            obtain ⟨hkey, hdigest⟩ := haccepts.stored
            obtain ⟨hmem, hactor, hidempotency⟩ := operationOfKey_eq_some.mp hkey
            have hop := Db.case_op.mpr hmem
            have w := putOperation_writes hput rfl hop
            have hself := (Db.case_op_eq_some.mp (congrArg Case.op w.self)).1
            refine ⟨operationOfKey_eq_some.mpr ⟨hself, hactor, hidempotency⟩, hdigest, fun hb => ?_⟩
            obtain ⟨b, hb⟩ := Option.ne_none_iff_exists'.mp hb
            change Jsonb.distinct (field input "declarationBinding") (field input "declarationBinding") = _
            change field input "declarationBinding" = some b at hb
            rw [hb, distinct_self]

theorem Replays.later {q : Request}
    (h : Replays D db q o) (hlater : db.Later db') :
    ∃ o', Replays D db' q o' ∧ o'.operationId = o.operationId := by
  obtain ⟨hmem, hactor, hkey⟩ := operationOfKey_eq_some.mp h.key
  obtain ⟨o', hmem', hl⟩ := hlater.operation hmem
  have hactor' : o'.actorRef = o.actorRef := congrArg (·.actorRef) hl.request
  have hkey' : o'.idempotencyKey = o.idempotencyKey := congrArg (·.idempotencyKey) hl.request
  have hdigest : o'.requestDigest = o.requestDigest := congrArg (·.requestDigest) hl.request
  have hbinding : o'.declarationBinding = o.declarationBinding :=
    congrArg (·.declarationBinding) hl.request
  refine ⟨o', ⟨operationOfKey_eq_some.mpr ⟨hmem', ?_, ?_⟩, hdigest.trans h.digest, fun hb => ?_⟩,
    congrArg (·.operationId) hl.request⟩
  · rw [hactor', hactor]
  · rw [hkey', hkey]
  · rw [hbinding]
    exact h.binding hb

theorem replayOrStore_replays
    {session : BrowserSession} {authority : SubjectAuthority}
    (hkey : db.operationOfKey p.actorRef p.idempotencyKey = some o)
    (hdigest : o.requestDigest = D.hash (requestDocument development p)) :
    replayOrStore D s development p session authority db = .ok (db, ⟨o, true⟩) := by
  have hpassed : ne (some o.requestDigest) (some (D.hash (requestDocument development p))) ≠
      some true := by simp [hdigest]
  simp only [replayOrStore, hkey, raiseIf, if_neg hpassed]
  rfl

/-- The answer is a replay of an operation, or an error that is no conflict of its key. -/
inductive ReplayOr (db : Db) (o : Operation) : Except SqlError (Db × Accepted) → Prop where
  | replay : ReplayOr db o (.ok (db, ⟨o, true⟩))
  | fails {f : SqlError} (h : f.detail ≠ some "IdempotencyMismatch") : ReplayOr db o (.error f)

theorem ReplayOr.after {x : Except SqlError α}
    {f : α → Except SqlError (Db × Accepted)} (hx : Clear x)
    (hf : ∀ a, x = .ok a → ReplayOr db o (f a)) : ReplayOr db o (x >>= f) := by
  cases x with
  | error e => exact .fails hx.raised
  | ok a => exact hf a rfl

theorem ReplayOr.stored
    {session : BrowserSession} {authority : SubjectAuthority}
    (hkey : db.operationOfKey p.actorRef p.idempotencyKey = some o)
    (hdigest : o.requestDigest = D.hash (requestDocument development p)) :
    ReplayOr db o (replayOrStore D s development p session authority db) := by
  rw [replayOrStore_replays hkey hdigest]
  exact .replay

/-- A request that was accepted is answered with its operation, unless it fails before. -/
theorem Replays.again {e : Entry} {q : Request}
    (hq : e.request = some q) (h : Replays D db q o) : ReplayOr db o (e.accept D s db) := by
  cases e with
  | operation p =>
      cases hq
      exact .after (initiator_clear s p db) fun _ _ => .stored h.key h.digest
  | development p =>
      cases hq
      exact .after (developmentInitiator_clear s p db) fun _ _ =>
        .stored h.key h.digest
  | gitea input =>
      refine .after (closedModule_clear input db) fun p hclosed => ?_
      obtain ⟨hargs, -, hbound⟩ := closedModule_eq_ok hclosed
      simp only [Entry.request, hargs, Except.toOption, Option.map_some, Option.some.injEq] at hq
      subst hq
      have hinner : ReplayOr db o (acceptAsInput D s input p db) := by
        by_cases hlocal : fieldText input "localDevelopmentModuleInstall" = some "true"
        · rw [acceptAsInput_local hlocal]
          refine .after (developmentInitiator_clear s p db) fun _ _ =>
            .stored h.key ?_
          simpa [Request.document, hlocal] using h.digest
        · rw [acceptAsInput_direct hlocal]
          refine .after (initiator_clear s p db) fun _ _ => .stored h.key ?_
          simpa [Request.document, hlocal] using h.digest
      have hbinding : Jsonb.distinct o.declarationBinding (field input "declarationBinding") =
          some false := h.binding hbound
      dsimp only
      generalize acceptAsInput D s input p db = x at hinner
      cases hinner with
      | replay =>
          have hpassed : Cond.and (some true)
              (Jsonb.distinct o.declarationBinding (field input "declarationBinding")) ≠ some true := by
            rw [hbinding]
            decide
          simp only [bind, Except.bind, raiseIf, if_neg hpassed]
          exact .replay
      | fails hdetail => exact .fails hdetail

end Authority

namespace Authority

variable {s : Statement} {db : Db}

theorem developmentInitiator_eq_ok {p : AcceptArgs}
    {v : BrowserSession × SubjectAuthority} (h : developmentInitiator s p db = .ok v) :
    p.approvalRequired = some false := by
  simp only [developmentInitiator, bind_eq_ok, raiseIf_eq_ok, pure_eq_ok] at h
  obtain ⟨_, -, _, -, _, -, _, -, _, -, _, hpolicy, -⟩ := h
  have := any_ne_true hpolicy (distinct p.approvalRequired (some false)) (by simp)
  simpa using this

/-- A Git-reviewed module of a local site is refused, since it asks for an approval. -/
theorem acceptGiteaModule_development {D : Digest} {input : Option Jsonb}
    (hlocal : fieldText input "localDevelopmentModuleInstall" = some "true") (o : Operation) :
    ReplayOr db o (acceptGiteaModule D s input db) := by
  refine .after (closedModule_clear input db) fun p hclosed => ?_
  have hrequired := (closedModule_eq_ok hclosed).2.1
  dsimp only
  rw [acceptAsInput_local hlocal]
  have hclear := developmentInitiator_clear s p db
  cases hinitiator : developmentInitiator s p db with
  | error f =>
      rw [hinitiator] at hclear
      simp only [acceptDevelopmentModuleInstall, hinitiator, bind, Except.bind]
      exact .fails hclear.raised
  | ok v => exact absurd (hrequired.symm.trans (developmentInitiator_eq_ok hinitiator)) (by decide)

def Db.Proposed (db : Db) (id : Uuid) : Prop := ∃ e ∈ (db.case id).events, e.action = proposalAction

theorem Db.Proposed.later {db' : Db} {id : Uuid} (h : db.Proposed id) (hlater : db.Later db') :
    db'.Proposed id := by
  obtain ⟨e, he, haction⟩ := h
  exact ⟨e, (hlater.case id).events e he, haction⟩

theorem recordGiteaProposal_first {D : Digest} {p : GiteaArgs} {db' : Db} {x : Jsonb}
    (h : recordGiteaProposal D s p db = .ok (db', ⟨x, false⟩)) :
    ∃ id, p.operationId = some id ∧ ¬ db.Proposed id ∧ db'.Proposed id := by
  simp only [recordGiteaProposal, bind_eq_ok, orRaise_eq_ok, raiseIf_eq_ok] at h
  obtain ⟨_, -, o, ho, _, -, h⟩ := h
  have hid := (Table.lookup_eq_some.mp ho).2
  refine ⟨o.operationId, hid, ?_⟩
  split at h
  · simp only [bind_eq_ok, pure_eq_ok] at h
    obtain ⟨_, -, heq⟩ := h
    cases heq
  next hnone =>
    simp only [bind_eq_ok, pure_eq_ok] at h
    obtain ⟨db₁, h₁, heq⟩ := h
    cases heq
    obtain ⟨e, hfrom, w₁⟩ := appendEvent_writes h₁ rfl
    constructor
    · rintro ⟨e, he, haction⟩
      rw [latestEvent_proposal, Case.proposal, List.find?_eq_none] at hnone
      exact hnone e (List.mem_reverse.mpr he) (by simpa using haction)
    · refine ⟨e, ?_, hfrom.action⟩
      rw [w₁.self]
      exact List.mem_append_right _ (List.mem_singleton_self e)

end Authority

namespace PlatformChange

open Authority

variable {D : Digest} {c c' : AcceptCall} {db : Authority.Db}

def entry (c : AcceptCall) : Entry :=
  if c.declarationBinding.isSome then .gitea (some (boundInput c))
  else if c.localDevelopmentModuleInstall then .development c.args
  else .operation c.args

theorem storeAccept_eq (D : Digest) (s : Statement) (c : AcceptCall) (db : Authority.Db) :
    storeAccept D s c db = (entry c).accept D s db := by
  unfold storeAccept entry
  split
  · rfl
  · split <;> rfl

structure Alike (c c' : AcceptCall) : Prop where
  args : c'.args = { c.args with
    sessionId := c'.args.sessionId
    expectedPermissionRevision := c'.args.expectedPermissionRevision
    expectedRevokeEpoch := c'.args.expectedRevokeEpoch
    correlationId := c'.args.correlationId }
  binding : c'.declarationBinding = c.declarationBinding
  development : c.declarationBinding = none →
    c'.localDevelopmentModuleInstall = c.localDevelopmentModuleInstall

structure SameRequest (q q' : Request) : Prop where
  document : q'.document = q.document
  actorRef : q'.args.actorRef = q.args.actorRef
  key : q'.args.idempotencyKey = q.args.idempotencyKey
  binding : q'.binding = q.binding

theorem SameRequest.replays {q q' : Request} {o : Authority.Operation}
    (h : SameRequest q q') (hreplays : Replays D db q o) : Replays D db q' o where
  key := by rw [h.actorRef, h.key, hreplays.key]
  digest := by rw [h.document, hreplays.digest]
  binding := by
    rw [h.binding]
    exact hreplays.binding

/-- The document of a bound call is read the same, but for what the calls may differ in. -/
theorem Alike.field (h : Alike c c') {k : String}
    (hk : k ∉ ["localDevelopmentModuleInstall", "sessionId", "expectedPermissionRevision",
      "expectedRevokeEpoch", "correlationId"]) :
    field (some (boundInput c')) k = field (some (boundInput c)) k := by
  simp only [List.mem_cons, List.not_mem_nil, or_false, not_or, ← beq_eq_false_iff_ne] at hk
  obtain ⟨h₁, h₂, h₃, h₄, h₅⟩ := hk
  simp only [Authority.field, Option.bind_some, boundInput, Jsonb.get_object, h.binding]
  rw [h.args]
  simp only [List.reverse_cons, List.reverse_nil, List.nil_append, List.cons_append,
    List.lookup_cons, h₁, h₂, h₃, h₄, h₅]

theorem fieldText_eq (x : Option Jsonb) (k : String) :
    fieldText x k = (Authority.field x k).bind fun y => y.tree.asText := by
  cases x with
  | none => rfl
  | some x =>
      simp only [fieldText, Authority.field, Option.bind_some]
      rfl

theorem Alike.fieldText (h : Alike c c') {k : String}
    (hk : k ∉ ["localDevelopmentModuleInstall", "sessionId", "expectedPermissionRevision",
      "expectedRevokeEpoch", "correlationId"]) :
    fieldText (some (boundInput c')) k = fieldText (some (boundInput c)) k := by
  rw [fieldText_eq, fieldText_eq, h.field hk]

theorem castText_same {α : Type} {type : String} {cast : String → Option α} {t t' : Option String}
    {x x' : Option α} (ht : t' = t) (h : castText type cast t = .ok x)
    (h' : castText type cast t' = .ok x') : x' = x := by
  rw [ht, h] at h'
  cases h'
  rfl

theorem giteaAcceptArgs_read {input : Option Jsonb} {p : AcceptArgs}
    (h : Authority.giteaAcceptArgs input = .ok p) :
    castText "uuid" castUuid (Authority.fieldText input "actorRef") = .ok p.actorRef ∧
      castText "boolean" castBoolean (Authority.fieldText input "approvalRequired") =
        .ok p.approvalRequired ∧
      p = {
        p with
        requiredPermission := Authority.fieldText input "requiredPermission"
        actionId := Authority.fieldText input "actionId"
        actionVersion := Authority.fieldText input "actionVersion"
        targetRef := Authority.fieldText input "targetRef"
        payloadDigest := Authority.fieldText input "payloadDigest"
        risk := Authority.fieldText input "risk"
        reason := Authority.fieldText input "reason"
        planRevision := Authority.fieldText input "planRevision"
        idempotencyKey := Authority.fieldText input "idempotencyKey"
        sourceRevision := Authority.fieldText input "sourceRevision"
        ownerRef := Authority.fieldText input "ownerRef"
        expectedPostcondition := Authority.field input "expectedPostcondition"
        executionPlan := Authority.field input "executionPlan" } := by
  simp only [Authority.giteaAcceptArgs, bind_eq_ok, pure_eq_ok] at h
  obtain ⟨_, -, actor, hactor, _, -, _, -, required, hrequired, rfl⟩ := h
  exact ⟨hactor, hrequired, rfl⟩

/-- What the acceptance of a bound call passes on is the same but for what the calls differ in. -/
theorem Alike.giteaAcceptArgs (h : Alike c c') {p p' : AcceptArgs}
    (hp : giteaAcceptArgs (some (boundInput c)) = .ok p)
    (hp' : giteaAcceptArgs (some (boundInput c')) = .ok p') :
    SameRequest ⟨false, p, Authority.field (some (boundInput c)) "declarationBinding"⟩
      ⟨false, p', Authority.field (some (boundInput c')) "declarationBinding"⟩ := by
  obtain ⟨hactor, hrequired, hread⟩ := giteaAcceptArgs_read hp
  obtain ⟨hactor', hrequired', hread'⟩ := giteaAcceptArgs_read hp'
  have hactor := castText_same (h.fieldText (k := "actorRef") (by decide)) hactor hactor'
  have hrequired := castText_same (h.fieldText (k := "approvalRequired") (by decide)) hrequired hrequired'
  have hkey := h.fieldText (k := "idempotencyKey") (by decide)
  have hbinding := h.field (k := "declarationBinding") (by decide)
  rw [hread, hread']
  refine ⟨?_, ?_, ?_, ?_⟩
  · dsimp only [Request.document, requestDocument]
    rw [hrequired, h.fieldText (k := "actionId") (by decide),
      h.fieldText (k := "actionVersion") (by decide), h.fieldText (k := "targetRef") (by decide),
      h.fieldText (k := "requiredPermission") (by decide),
      h.fieldText (k := "payloadDigest") (by decide), h.fieldText (k := "risk") (by decide),
      h.fieldText (k := "reason") (by decide), h.fieldText (k := "planRevision") (by decide),
      h.fieldText (k := "sourceRevision") (by decide), h.fieldText (k := "ownerRef") (by decide),
      h.field (k := "expectedPostcondition") (by decide), h.field (k := "executionPlan") (by decide)]
  · dsimp only
    exact hactor
  · dsimp only
    exact hkey
  · dsimp only
    exact hbinding

/-- A call that is like an accepted one gets its operation back, unless it fails before. -/
theorem storeAccept_again {s s' : Statement} {db₁ db₂ : Authority.Db}
    {v : Accepted} (h : storeAccept D s c db = .ok (db₁, v)) (halike : Alike c c')
    (hlater : db₁.Later db₂) :
    ∃ o, o.operationId = v.operation.operationId ∧ ReplayOr db₂ o (storeAccept D s' c' db₂) := by
  rw [storeAccept_eq] at h ⊢
  obtain ⟨q, hq, hstored⟩ := accept_stores h
  obtain ⟨o, hreplays, hid⟩ := hstored.later hlater
  refine ⟨o, hid, ?_⟩
  cases hbinding : c.declarationBinding with
  | none =>
      -- the request is the call itself
      have hbinding' : c'.declarationBinding = none := halike.binding.trans hbinding
      have hentry : ∀ x : AcceptCall, x.declarationBinding = none →
          (entry x).request = some ⟨x.localDevelopmentModuleInstall, x.args, none⟩ := by
        intro x hx
        unfold entry
        rw [hx]
        cases x.localDevelopmentModuleInstall <;> rfl
      have hsame : SameRequest ⟨c.localDevelopmentModuleInstall, c.args, none⟩
          ⟨c'.localDevelopmentModuleInstall, c'.args, none⟩ := by
        rw [halike.development hbinding, halike.args]
        exact ⟨rfl, rfl, rfl, rfl⟩
      rw [hentry c hbinding, Option.some.injEq] at hq
      subst hq
      exact (hsame.replays hreplays).again (hentry c' hbinding')
  | some b =>
      have hentry : ∀ x : AcceptCall, x.declarationBinding = some b →
          entry x = .gitea (some (boundInput x)) := by
        intro x hx
        unfold entry
        rw [hx]
        rfl
      rw [hentry c hbinding] at h hq
      rw [hentry c' (halike.binding.trans hbinding)]
      obtain ⟨p, hp, -, hdirect, -⟩ := acceptGiteaModule_accepts h
      by_cases hlocal : Authority.fieldText (some (boundInput c')) "localDevelopmentModuleInstall" = some "true"
      · exact acceptGiteaModule_development hlocal o
      · cases hp' : Authority.giteaAcceptArgs (some (boundInput c')) with
        | error f =>
            refine .after (closedModule_clear (some (boundInput c')) db₂) fun p' hclosed => ?_
            simp only [closedModule, bind_eq_ok, hp'] at hclosed
            obtain ⟨_, -, _, hp'', -⟩ := hclosed
            cases hp''
        | ok p' =>
            simp only [Entry.request, hp, Except.toOption, Option.map_some, Option.some.injEq,
              decide_eq_false hdirect] at hq
            subst hq
            refine ((halike.giteaAcceptArgs hp hp').replays hreplays).again ?_
            simp only [Entry.request, hp', Except.toOption, Option.map_some, decide_eq_false hlocal]

theorem boundInput_owner (c : AcceptCall) :
    fieldText (some (boundInput c)) "actorRef" = c.args.actorRef.map Uuid.text ∧
      fieldText (some (boundInput c)) "idempotencyKey" = c.args.idempotencyKey := by
  have hget : (boundInput c).get "actorRef" = some (jsonUuid c.args.actorRef) ∧
      (boundInput c).get "idempotencyKey" = some (jsonText c.args.idempotencyKey) := by
    simp only [boundInput, Jsonb.get_object]
    exact ⟨rfl, rfl⟩
  simp only [fieldText_eq, Authority.field, Option.bind_some, hget.1, hget.2]
  constructor
  · cases c.args.actorRef <;> rfl
  · cases c.args.idempotencyKey <;> rfl

theorem storeAccept_owner {s : Statement} {db' : Authority.Db}
    {v : Accepted} (h : storeAccept D s c db = .ok (db', v)) :
    v.operation ∈ db'.operations.rows ∧ c.args.actorRef = some v.operation.actorRef ∧
      c.args.idempotencyKey = some v.operation.idempotencyKey := by
  rw [storeAccept_eq] at h
  obtain ⟨q, hq, hstored⟩ := accept_stores h
  obtain ⟨hmem, hactor, hkey⟩ := operationOfKey_eq_some.mp hstored.key
  have hargs : q.args.actorRef = c.args.actorRef ∧ q.args.idempotencyKey = c.args.idempotencyKey := by
    unfold entry at hq
    split at hq
    · obtain ⟨howner, hkeyText⟩ := boundInput_owner c
      generalize some (boundInput c) = input at hq howner hkeyText
      obtain ⟨p, hp, rfl⟩ := Option.map_eq_some_iff.mp hq
      obtain ⟨hactor, -, hread⟩ := giteaAcceptArgs_read (toOption_eq_some.mp hp)
      constructor
      · rw [howner] at hactor
        cases hc : c.args.actorRef with
        | none =>
            rw [hc] at hactor
            exact (Except.ok.inj hactor).symm
        | some u =>
            rw [hc, Option.map_some, castText, castUuid_text] at hactor
            exact (Except.ok.inj hactor).symm
      · exact (congrArg AcceptArgs.idempotencyKey hread).trans hkeyText
    · split at hq
      · cases hq
        exact ⟨rfl, rfl⟩
      · cases hq
        exact ⟨rfl, rfl⟩
  exact ⟨hmem, hargs.1.symm.trans hactor, hargs.2.symm.trans hkey⟩

end PlatformChange
