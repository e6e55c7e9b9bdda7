import OpenSphere.Properties.Fencing

/-!
# Idempotent acceptance

Three entries share the key space of an actor.  A key stands for one operation,
and a call on a stored key returns that operation and changes nothing, or fails.
What it compares is the digest of a request document, and accept_gitea_module its
binding.  The document tells all fields of a request apart but a NULL from a JSON
null; and accept_operation does not compare bindings at all, so it returns a
bound operation for a request without a binding.  `Comparable` excludes both, and
a replay is of the same request exactly when it holds.
-/

open Sql

namespace Authority

variable {D : Digest} {s : Statement} {db db' : Db} {e : Entry} {q : Request} {o o' : Operation}
  {p : AcceptArgs} {development : Bool}

/-! ## Entries and requests -/

inductive Entry where
  | operation (p : AcceptArgs)
  | development (p : AcceptArgs)
  | gitea (input : Option Jsonb)

def Entry.accept (D : Digest) (s : Statement) (db : Db) : Entry → Except SqlError (Db × Accepted)
  | .operation p => acceptOperation D s p db
  | .development p => acceptDevelopmentModuleInstall D s p db
  | .gitea input => acceptGiteaModule D s input db

/-- A request: the entry it comes by, its arguments and its binding. -/
structure Request where
  development : Bool
  args : AcceptArgs
  binding : Option Jsonb

def Entry.request : Entry → Option Request
  | .operation p => some ⟨false, p, none⟩
  | .development p => some ⟨true, p, none⟩
  | .gitea input => (giteaAcceptArgs input).toOption.map fun p =>
      ⟨decide (fieldText input "localDevelopmentModuleInstall" = some "true"), p,
        field input "declarationBinding"⟩

def Request.document (q : Request) : Jsonb := requestDocument q.development q.args

/-- The arguments an operation was accepted with, as far as its columns keep them.
A merge may have filled in the source revision since. -/
def Operation.args (o : Operation) (sourceRevision : Option String) : AcceptArgs where
  sessionId := none
  actorRef := some o.actorRef
  expectedPermissionRevision := none
  expectedRevokeEpoch := none
  requiredPermission := some o.requiredPermission
  actionId := some o.actionId
  actionVersion := some o.actionVersion
  targetRef := some o.targetRef
  payloadDigest := some o.payloadDigest
  risk := some o.risk.text
  reason := some o.reason
  planRevision := some o.planRevision
  approvalRequired := some o.approvalRequired
  idempotencyKey := some o.idempotencyKey
  correlationId := some o.correlationId
  sourceRevision := sourceRevision
  ownerRef := o.ownerRef
  expectedPostcondition := o.expectedPostcondition
  executionPlan := o.executionPlan

def Operation.document (o : Operation) (sourceRevision : Option String) : Jsonb :=
  requestDocument o.localDevelopmentModuleInstall (o.args sourceRevision)

structure Operation.Matches (o : Operation) (q : Request) : Prop where
  actorRef : q.args.actorRef = some o.actorRef
  idempotencyKey : q.args.idempotencyKey = some o.idempotencyKey
  development : q.development = o.localDevelopmentModuleInstall
  requiredPermission : q.args.requiredPermission = some o.requiredPermission
  actionId : q.args.actionId = some o.actionId
  actionVersion : q.args.actionVersion = some o.actionVersion
  targetRef : q.args.targetRef = some o.targetRef
  payloadDigest : q.args.payloadDigest = some o.payloadDigest
  risk : q.args.risk = some o.risk.text
  reason : coalesce q.args.reason "" = o.reason
  planRevision : q.args.planRevision = some o.planRevision
  approvalRequired : q.args.approvalRequired = some o.approvalRequired
  sourceRevision : q.args.sourceRevision = none ∨ q.args.sourceRevision = o.sourceRevision
  ownerRef : q.args.ownerRef = o.ownerRef
  expectedPostcondition : q.args.expectedPostcondition = o.expectedPostcondition
  executionPlan : q.args.executionPlan = o.executionPlan
  binding : Jsonb.distinct o.declarationBinding q.binding = some false

/-- The request leaves to its key what the entries do not compare: it has a
binding if the operation is bound, and its documents are NULL where those of the
operation are. -/
structure Comparable (o : Operation) (q : Request) : Prop where
  binding : q.binding = none → o.declarationBinding = none
  expectedPostcondition : q.args.expectedPostcondition = none ↔ o.expectedPostcondition = none
  executionPlan : q.args.executionPlan = none ↔ o.executionPlan = none

/-! ## Documents -/

theorem jsonText_injective {x y : Option String} (h : jsonText x = jsonText y) : x = y := by
  have htext := congrArg (fun z : Jsonb => z.tree.asText) h
  simpa using htext

theorem jsonBool_injective {x y : Option Bool} (h : jsonBool x = jsonBool y) : x = y := by
  cases x with
  | none =>
      cases y with
      | none => rfl
      | some b => exact absurd (congrArg (·.tree) h) nofun
  | some a =>
      cases y with
      | none => exact absurd (congrArg (·.tree) h) nofun
      | some b => rw [Jsonb.ofBool_injective h]

theorem ofNull_injective {x y : Option Jsonb} (h : Jsonb.ofNull x = Jsonb.ofNull y)
    (hnull : x = none ↔ y = none) : x = y := by
  cases x with
  | none => rw [hnull.mp rfl]
  | some a =>
      cases y with
      | none => exact absurd (hnull.mpr rfl) nofun
      | some b => exact congrArg some h

theorem requestDocument_get (development : Bool) (p : AcceptArgs) :
    let d := requestDocument development p
    d.get "actionId" = some (jsonText p.actionId) ∧
    d.get "actionVersion" = some (jsonText p.actionVersion) ∧
    d.get "targetRef" = some (jsonText p.targetRef) ∧
    d.get "requiredPermission" = some (jsonText p.requiredPermission) ∧
    d.get "payloadDigest" = some (jsonText p.payloadDigest) ∧
    d.get "risk" = some (jsonText p.risk) ∧
    d.get "reason" = some (.ofText (coalesce p.reason "")) ∧
    d.get "planRevision" = some (jsonText p.planRevision) ∧
    d.get "approvalRequired" = some (jsonBool p.approvalRequired) ∧
    d.get "sourceRevision" = some (jsonText p.sourceRevision) ∧
    d.get "ownerRef" = some (jsonText p.ownerRef) ∧
    d.get "expectedPostcondition" = some (.ofNull p.expectedPostcondition) ∧
    d.get "executionPlan" = some (.ofNull p.executionPlan) ∧
    (d.get "localDevelopmentModuleInstall").isSome = development := by
  simp only [requestDocument, Jsonb.get_object]
  cases development <;> exact ⟨rfl, rfl, rfl, rfl, rfl, rfl, rfl, rfl, rfl, rfl, rfl, rfl, rfl, rfl⟩

/-- The columns of a request are told apart by its document, up to a NULL. -/
theorem Operation.Matches.of_document {source : Option String}
    (h : o.document source = q.document) (hsource : source ∈ [none, o.sourceRevision])
    (hactor : q.args.actorRef = some o.actorRef)
    (hkey : q.args.idempotencyKey = some o.idempotencyKey)
    (hbinding : Jsonb.distinct o.declarationBinding q.binding = some false)
    (hcomparable : Comparable o q) : o.Matches q := by
  have hleft := requestDocument_get o.localDevelopmentModuleInstall (o.args source)
  have hright := requestDocument_get q.development q.args
  change requestDocument _ _ = requestDocument _ _ at h
  simp only [h] at hleft
  obtain ⟨l₁, l₂, l₃, l₄, l₅, l₆, l₇, l₈, l₉, l₁₀, l₁₁, l₁₂, l₁₃, l₁₄⟩ := hleft
  obtain ⟨r₁, r₂, r₃, r₄, r₅, r₆, r₇, r₈, r₉, r₁₀, r₁₁, r₁₂, r₁₃, r₁₄⟩ := hright
  have hagree : ∀ {x y z : Jsonb} {k : String}, z.get k = some x → z.get k = some y → y = x :=
    fun hx hy => Option.some.inj (hy.symm.trans hx)
  have hrevision : q.args.sourceRevision = source := jsonText_injective (hagree l₁₀ r₁₀)
  exact {
    actorRef := hactor
    idempotencyKey := hkey
    development := r₁₄.symm.trans l₁₄
    requiredPermission := jsonText_injective (hagree l₄ r₄)
    actionId := jsonText_injective (hagree l₁ r₁)
    actionVersion := jsonText_injective (hagree l₂ r₂)
    targetRef := jsonText_injective (hagree l₃ r₃)
    payloadDigest := jsonText_injective (hagree l₅ r₅)
    risk := jsonText_injective (hagree l₆ r₆)
    reason := Jsonb.ofText_injective (hagree l₇ r₇)
    planRevision := jsonText_injective (hagree l₈ r₈)
    approvalRequired := jsonBool_injective (hagree l₉ r₉)
    sourceRevision := by
      rw [hrevision]
      simpa using hsource
    ownerRef := jsonText_injective (hagree l₁₁ r₁₁)
    expectedPostcondition := ofNull_injective (hagree l₁₂ r₁₂) hcomparable.expectedPostcondition
    executionPlan := ofNull_injective (hagree l₁₃ r₁₃) hcomparable.executionPlan
    binding := hbinding }

theorem Operation.Matches.comparable (h : o.Matches q) :
    Comparable o q where
  binding hnone := by
    have hbinding := h.binding
    rw [hnone] at hbinding
    cases hb : o.declarationBinding with
    | none => rfl
    | some b =>
        rw [hb] at hbinding
        cases hbinding
  expectedPostcondition := by rw [h.expectedPostcondition]
  executionPlan := by rw [h.executionPlan]

/-! ## The digest of a stored operation -/

def Operation.Origin (D : Digest) (o : Operation) : Prop :=
  ∃ source ∈ [none, o.sourceRevision], o.requestDigest = D.hash (o.document source)

theorem newOperation_document
    {digest : String} {aal : Aal} {revision : Int}
    (h : newOperation s development p digest aal revision = .ok o) :
    requestDocument development p = o.document o.sourceRevision := by
  simp only [newOperation, bind_eq_ok, notNull_eq_ok, pure_eq_ok] at h
  obtain ⟨actionId, h₁, version, h₂, actor, -, target, h₃, permission, h₄, payload, h₅, risk, h₆,
    plan, h₇, required, h₈, key, -, correlation, -, rfl⟩ := h
  obtain ⟨t, ht, hrisk⟩ := Option.bind_eq_some_iff.mp h₆
  rw [Risk.text_ofText hrisk] at ht
  simp only [Operation.document, Operation.args, requestDocument, h₁, h₂, h₃, h₄, h₅, ht, h₇, h₈,
    coalesce, Option.getD_some]

theorem Operation.Later.document (h : o.Later o') (source : Option String) :
    o'.document source = o.document source :=
  congrArg (fun q => q.document source) h.request

theorem Operation.Origin.later (h : o.Origin D) (hl : o.Later o') :
    o'.Origin D := by
  obtain ⟨source, hsource, hdigest⟩ := h
  refine ⟨source, ?_, ?_⟩
  · cases source with
    | none => exact List.mem_cons_self ..
    | some t =>
        have hcolumn : o.sourceRevision = some t := by simpa [eq_comm] using hsource
        rw [hl.source (by rw [hcolumn]; nofun), hcolumn]
        simp
  · have hsame : o'.requestDigest = o.requestDigest := congrArg (·.requestDigest) hl.request
    rw [hl.document, hsame, hdigest]

/-- A stored acceptance has its digest from its own document. -/
theorem Accepts.origin
    (h : Accepts D s development p db db' ⟨o, false⟩) :
    o.Origin D ∧ (db'.case s.rowId).op = some o ∧ ∀ id, id ≠ s.rowId → db'.case id = db.case id := by
  cases h with
  | store hkey hnew hop hr he hwrites =>
      refine ⟨⟨o.sourceRevision, by simp, ?_⟩, hwrites.op rfl, fun id hid => ?_⟩
      · rw [(newOperation_eq_ok hnew).2.2.2.2.2.2.1, newOperation_document hnew]
      · rw [hwrites.case, System.modify_of_ne hid]

theorem Case.Step.label_of_new {w : Scene} {l : Label} {c c' : Case} (h : Case.Step w l c c')
    (hnone : c.op = none) (hsome : c'.op ≠ none) : l = .accept := by
  cases h with
  | accept => rfl
  | renew => exact absurd hnone hsome
  | propose hop => exact absurd (hnone.symm.trans hop) nofun
  | _ => simp_all

theorem accept_origin {v : Accepted}
    (h : e.accept D s db = .ok (db', v)) (ho : o ∈ db'.operations.rows)
    (hnew : (db.case o.operationId).op = none) : o.Origin D := by
  have hop := Db.case_op.mpr ho
  -- the operation of a direct acceptance
  have hdirect : ∀ {development p db₁ v₁}, Accepts D s development p db db₁ v₁ →
      ∀ o ∈ db₁.operations.rows, (db.case o.operationId).op = none → o.Origin D := by
    intro development p db₁ v₁ haccepts o ho hnew
    have hop := Db.case_op.mpr ho
    cases haccepts with
    | replay => exact absurd (hnew.symm.trans hop) nofun
    | store hkey hstore hfree hr he hwrites =>
        obtain ⟨horigin, hself, hother⟩ := (Accepts.store hkey hstore hfree hr he hwrites).origin
        by_cases hid : o.operationId = s.rowId
        · rw [hid, hself] at hop
          cases hop
          exact horigin
        · rw [hother _ hid] at hop
          exact absurd (hnew.symm.trans hop) nofun
  cases e with
  | operation p => exact hdirect (acceptOperation_accepts h) o ho hnew
  | development p => exact hdirect (acceptDevelopmentModuleInstall_accepts h).1 o ho hnew
  | gitea input =>
      obtain ⟨p, -, -, -, hbound⟩ := acceptGiteaModule_accepts h
      cases hbound with
      | replay => exact absurd (hnew.symm.trans hop) nofun
      | store haccepts hput =>
          -- the binding is no part of the document
          obtain ⟨⟨source, hsource, hdigest⟩, hself, hother⟩ := haccepts.origin
          have hid₁ := Db.case_op_id hself
          have w := putOperation_writes hput hid₁ hself
          by_cases hid : o.operationId = s.rowId
          · rw [hid, w.self] at hop
            cases hop
            exact ⟨source, hsource, hdigest⟩
          · rw [w.case, System.modify_of_ne hid, hother _ hid] at hop
            exact absurd (hnew.symm.trans hop) nofun

theorem exec_of_accept {c : Call}
    (hlabel : c.label = .accept) (h : c.exec D s db = .ok db') :
    ∃ e v, Entry.accept D s db e = .ok (db', v) := by
  cases c <;> cases hlabel
  case acceptOperation p =>
    obtain ⟨v, hv⟩ := fst_map_eq_ok h
    exact ⟨.operation p, v, hv⟩
  case acceptDevelopmentModuleInstall p =>
    obtain ⟨v, hv⟩ := fst_map_eq_ok h
    exact ⟨.development p, v, hv⟩
  case acceptGiteaModule input =>
    obtain ⟨v, hv⟩ := fst_map_eq_ok h
    exact ⟨.gitea input, v, hv⟩

theorem perform_origin {a : Action}
    (h : ∀ o ∈ db.operations.rows, o.Origin D) :
    ∀ o ∈ (perform D a db).operations.rows, o.Origin D := by
  intro o' ho'
  have hop' := Db.case_op.mpr ho'
  cases hop : (db.case o'.operationId).op with
  | some o =>
      -- it was stored before
      obtain ⟨ho, -⟩ := Db.case_op_eq_some.mp hop
      obtain ⟨q, hq, hlater⟩ := ((perform_later D a db).case o'.operationId).op o hop
      rw [hop'] at hq
      cases hq
      exact (h o ho).later hlater
  | none =>
      rcases perform_cases D a db with ⟨hsame, -⟩ | ⟨s, c, rfl, hcommits⟩
      · rw [hsame, hop] at hop'
        cases hop'
      · have hlabel := hcommits.cases.relation
          (Q := fun k k' => k.op = none → k'.op ≠ none → c.label = .accept)
          (fun _ hnone hsome => absurd hnone hsome) (fun _ _ hstep => hstep.label_of_new)
          o'.operationId hop (by rw [hop']; nofun)
        rcases perform_call_cases D s c db with hsame | hok
        · rw [hsame, hop] at hop'
          cases hop'
        · obtain ⟨e, v, he⟩ := exec_of_accept hlabel hok
          exact accept_origin he ho' hop

theorem reach_origin (D : Digest) (i : Identity) (as : List Action) :
    ∀ o ∈ (reach D i as).operations.rows, o.Origin D :=
  System.run_invariant (I := fun db : Db => ∀ o ∈ db.operations.rows, o.Origin D)
    (fun _ _ => perform_origin) (fun _ ho => absurd ho (List.not_mem_nil)) as

/-! ## One operation per key -/

theorem operation_of_key_unique (ho : o ∈ db.operations.rows)
    (ho' : o' ∈ db.operations.rows) (hactor : o.actorRef = o'.actorRef)
    (hkey : o.idempotencyKey = o'.idempotencyKey) : o = o' :=
  Table.eq_of_conflict ho ho' (by simp [Schema.conflict, operationSchema, hactor, hkey])
    (by simp [Schema.conflict, operationSchema, hactor, hkey])

theorem operationOfKey_eq_some {actor : Option Uuid} {key : Option String}
    : db.operationOfKey actor key = some o ↔
      o ∈ db.operations.rows ∧ actor = some o.actorRef ∧ key = some o.idempotencyKey := by
  have hmatch : ∀ x : Operation, ((eq (some x.actorRef) actor).and
      (eq (some x.idempotencyKey) key) == some true) = true ↔
        actor = some x.actorRef ∧ key = some x.idempotencyKey := by
    intro x
    rw [beq_iff_eq, Cond.and_eq_true, eq_eq_true, eq_eq_true]
    constructor
    · rintro ⟨⟨_, h, h'⟩, _, k, k'⟩
      cases h
      cases k
      exact ⟨h', k'⟩
    · rintro ⟨h, k⟩
      exact ⟨⟨_, rfl, h⟩, _, rfl, k⟩
  constructor
  · intro h
    have hfound := List.find?_some h
    exact ⟨List.mem_of_find?_eq_some h, (hmatch o).mp hfound⟩
  · rintro ⟨ho, hactor, hkey⟩
    refine find_eq_of_unique ho ((hmatch o).mpr ⟨hactor, hkey⟩) fun x hx hsel => ?_
    obtain ⟨hxactor, hxkey⟩ := (hmatch x).mp hsel
    exact operation_of_key_unique hx ho (Option.some.inj (hxactor.symm.trans hactor))
      (Option.some.inj (hxkey.symm.trans hkey))

/-! ## Replays -/

structure Replays (D : Digest) (db : Db) (q : Request) (o : Operation) : Prop where
  key : db.operationOfKey q.args.actorRef q.args.idempotencyKey = some o
  digest : o.requestDigest = D.hash q.document
  binding : q.binding ≠ none → Jsonb.distinct o.declarationBinding q.binding = some false

theorem distinct_passed {x y : Option Jsonb} (h : Jsonb.distinct x y ≠ some true) :
    Jsonb.distinct x y = some false := by
  cases x <;> cases y <;> simp_all [Jsonb.distinct]

/-- A replay returns the operation of the key and changes nothing. -/
theorem accept_replays
    (h : e.accept D s db = .ok (db', ⟨o, true⟩)) :
    ∃ q, e.request = some q ∧ db' = db ∧ Replays D db q o := by
  cases e with
  | operation p =>
      cases acceptOperation_accepts h with
      | replay hkey hdigest => exact ⟨_, rfl, rfl, hkey, hdigest, fun hb => absurd rfl hb⟩
  | development p =>
      cases (acceptDevelopmentModuleInstall_accepts h).1 with
      | replay hkey hdigest => exact ⟨_, rfl, rfl, hkey, hdigest, fun hb => absurd rfl hb⟩
  | gitea input =>
      obtain ⟨p, hp, -, hdirect, hbound⟩ := acceptGiteaModule_accepts h
      cases hbound with
      | replay haccepts hbinding =>
          cases haccepts with
          | replay hkey hdigest =>
              refine ⟨⟨false, p, field input "declarationBinding"⟩, ?_, rfl, hkey, hdigest, fun _ =>
                distinct_passed hbinding⟩
              simp [Entry.request, hp, Except.toOption, hdirect]

/-- A replay is of the same request exactly when the two are comparable, as long
as the digest does not collide on their documents. -/
theorem Replays.matches_iff
    (h : Replays D db q o) (horigin : o.Origin D)
    (hfree : ∀ source ∈ [none, o.sourceRevision],
      D.hash (o.document source) = D.hash q.document → o.document source = q.document) :
    o.Matches q ↔ Comparable o q := by
  refine ⟨Operation.Matches.comparable, fun hcomparable => ?_⟩
  obtain ⟨source, hsource, hdigest⟩ := horigin
  obtain ⟨-, hactor, hkey⟩ := operationOfKey_eq_some.mp h.key
  have hdocument := hfree source hsource (hdigest.symm.trans h.digest)
  refine .of_document hdocument hsource hactor hkey ?_ hcomparable
  cases hb : q.binding with
  | none =>
      rw [hcomparable.binding hb]
      rfl
  | some b =>
      rw [← hb]
      exact h.binding (by rw [hb]; nofun)

/-! ## Conflicts -/

/-- The call passes all checks up to its key. -/
def Entry.admitted (s : Statement) (db : Db) : Entry → Bool
  | .operation p => (initiator s p db).isOk
  | .development p => (developmentInitiator s p db).isOk
  | .gitea input =>
      match closedModule input db with
      | .ok p =>
          if fieldText input "localDevelopmentModuleInstall" = some "true" then
            (developmentInitiator s p db).isOk
          else (initiator s p db).isOk
      | .error _ => false

theorem replayOrStore_stored
    {session : BrowserSession} {authority : SubjectAuthority}
    (hkey : db.operationOfKey p.actorRef p.idempotencyKey = some o) :
    replayOrStore D s development p session authority db = .ok (db, ⟨o, true⟩) ∨
      replayOrStore D s development p session authority db = .error idempotencyMismatch := by
  simp only [replayOrStore, hkey]
  unfold raiseIf
  split
  · exact .inr rfl
  · exact .inl rfl

theorem acceptOperation_stored
    (hinitiator : (initiator s p db).isOk = true)
    (hkey : db.operationOfKey p.actorRef p.idempotencyKey = some o) :
    acceptOperation D s p db = .ok (db, ⟨o, true⟩) ∨
      acceptOperation D s p db = .error idempotencyMismatch := by
  obtain ⟨v, hv⟩ := isOk_iff.mp hinitiator
  simp only [acceptOperation, hv]
  exact replayOrStore_stored hkey

theorem acceptDevelopmentModuleInstall_stored
    (hinitiator : (developmentInitiator s p db).isOk = true)
    (hkey : db.operationOfKey p.actorRef p.idempotencyKey = some o) :
    acceptDevelopmentModuleInstall D s p db = .ok (db, ⟨o, true⟩) ∨
      acceptDevelopmentModuleInstall D s p db = .error idempotencyMismatch := by
  obtain ⟨v, hv⟩ := isOk_iff.mp hinitiator
  simp only [acceptDevelopmentModuleInstall, hv]
  exact replayOrStore_stored hkey

/-- The binding is compared after the inner replay. -/
theorem acceptGiteaModule_stored {input : Option Jsonb}
    (hclosed : closedModule input db = .ok p)
    (hinner : acceptAsInput D s input p db = .ok (db, ⟨o, true⟩) ∨
      acceptAsInput D s input p db = .error idempotencyMismatch) :
    acceptGiteaModule D s input db = .ok (db, ⟨o, true⟩) ∨
      raised (acceptGiteaModule D s input db) = some "IdempotencyMismatch" := by
  unfold acceptGiteaModule
  rw [hclosed]
  rcases hinner with hok | herror
  · -- the inner replay stands unless the bindings differ
    by_cases hbinding : Jsonb.distinct o.declarationBinding (field input "declarationBinding") =
        some true
    · right
      simp [bind, Except.bind, hok, raiseIf, hbinding, raised, exception, SqlError.detail]
    · left
      simp [bind, Except.bind, hok, raiseIf, hbinding, pure, Except.pure]
  · right
    simp [bind, Except.bind, herror, raised, idempotencyMismatch, exception, SqlError.detail]

/-- An admitted call on a stored key is a replay or a conflict. -/
theorem accept_stored
    (hq : e.request = some q) (hadmitted : e.admitted s db = true)
    (hkey : db.operationOfKey q.args.actorRef q.args.idempotencyKey = some o) :
    e.accept D s db = .ok (db, ⟨o, true⟩) ∨
      raised (e.accept D s db) = some "IdempotencyMismatch" := by
  have hraised : ∀ {x : Except SqlError (Db × Accepted)}, x = .error idempotencyMismatch →
      raised x = some "IdempotencyMismatch" := fun h => by rw [h]; rfl
  cases e with
  | operation p =>
      cases hq
      exact (acceptOperation_stored hadmitted hkey).imp_right hraised
  | development p =>
      cases hq
      exact (acceptDevelopmentModuleInstall_stored hadmitted hkey).imp_right hraised
  | gitea input =>
      simp only [Entry.admitted] at hadmitted
      split at hadmitted
      next p hclosed =>
        have hqargs : q.args = p := by
          simp only [Entry.request, (closedModule_eq_ok hclosed).1, Except.toOption, Option.map_some, Option.some.injEq] at hq
          rw [← hq]
        rw [hqargs] at hkey
        refine acceptGiteaModule_stored hclosed ?_
        by_cases hlocal : fieldText input "localDevelopmentModuleInstall" = some "true"
        · rw [if_pos hlocal] at hadmitted
          rw [acceptAsInput_local hlocal]
          exact acceptDevelopmentModuleInstall_stored hadmitted hkey
        · rw [if_neg hlocal] at hadmitted
          rw [acceptAsInput_direct hlocal]
          exact acceptOperation_stored hadmitted hkey
      next => cases hadmitted

/-- **Idempotent acceptance.**  In every reachable database an actor and a key
have at most one operation; a replay returns the operation of its key and leaves
the database as it was; where the digest does not collide, it is of the same
request if and only if the two are comparable; and an admitted call on a stored
key that is no replay fails with the idempotency conflict. -/
theorem idempotent_acceptance (D : Digest) (i : Identity) (as : List Action) :
    (∀ o ∈ (reach D i as).operations.rows, ∀ o' ∈ (reach D i as).operations.rows,
      o.actorRef = o'.actorRef → o.idempotencyKey = o'.idempotencyKey → o = o') ∧
    (∀ s e db' o, Entry.accept D s (reach D i as) e = .ok (db', ⟨o, true⟩) →
      ∃ q, e.request = some q ∧ db' = reach D i as ∧ o ∈ (reach D i as).operations.rows ∧
        q.args.actorRef = some o.actorRef ∧ q.args.idempotencyKey = some o.idempotencyKey ∧
        ((∀ source ∈ [none, o.sourceRevision],
          D.hash (o.document source) = D.hash q.document → o.document source = q.document) →
        (o.Matches q ↔ Comparable o q))) ∧
    (∀ s e q, ∀ o ∈ (reach D i as).operations.rows, e.request = some q →
      q.args.actorRef = some o.actorRef → q.args.idempotencyKey = some o.idempotencyKey →
      e.admitted s (reach D i as) = true →
        Entry.accept D s (reach D i as) e = .ok (reach D i as, ⟨o, true⟩) ∨
          raised (Entry.accept D s (reach D i as) e) = some "IdempotencyMismatch") := by
  refine ⟨fun o ho o' ho' => operation_of_key_unique ho ho', fun s e db' o h => ?_, ?_⟩
  · obtain ⟨q, hq, hsame, hreplays⟩ := accept_replays h
    obtain ⟨ho, hactor, hkey⟩ := operationOfKey_eq_some.mp hreplays.key
    exact ⟨q, hq, hsame, ho, hactor, hkey, hreplays.matches_iff (reach_origin D i as o ho)⟩
  · intro s e q o ho hq hactor hkey hadmitted
    exact accept_stored hq hadmitted (operationOfKey_eq_some.mpr ⟨ho, hactor, hkey⟩)

namespace Demo

def declaration : Jsonb :=
  .object [
    ("schemaVersion", .ofText "1.0"),
    ("authority", .ofText "Gitea"),
    ("repository", .ofText "opensphere/platform-declarations"),
    ("defaultBranch", .ofText "main"),
    ("consumerId", .ofText "console-modules"),
    ("action", .ofText "apply"),
    ("target", .ofText "extension.cluster-manager"),
    ("templateId", .ofText "console-cluster-manager-install"),
    ("desiredState", .object [
      ("contract", .ofText "opensphere.console.git-reviewed-module/v1"),
      ("descriptorId", .ofText "extension.cluster-manager"),
      ("catalogRevision", .ofText otherDigest),
      ("image", .ofText image)])]

/-- The reviewed installation as an input of accept_gitea_module. -/
def reviewedInput : Jsonb :=
  .object [
    ("sessionId", .ofText (Uuid.text ⟨6⟩)),
    ("actorRef", .ofText alice.text),
    ("expectedPermissionRevision", .ofText "3"),
    ("expectedRevokeEpoch", .ofText "0"),
    ("requiredPermission", .ofText "console.extension.install"),
    ("actionId", .ofText "console.extension.install"),
    ("actionVersion", .ofText "1.0"),
    ("targetRef", .ofText image),
    ("payloadDigest", .ofText otherDigest),
    ("risk", .ofText "R2"),
    ("reason", .ofText "test"),
    ("planRevision", .ofText "1"),
    ("approvalRequired", .ofText "true"),
    ("idempotencyKey", .ofText "install-1"),
    ("correlationId", .ofText "install-1"),
    ("ownerRef", .ofText "C_EXT"),
    ("expectedPostcondition", .object [("declaration", declaration)]),
    ("executionPlan", installPlan),
    ("declarationBinding", declaration)]

def reviewedRequest : AcceptArgs :=
  { install with
    approvalRequired := some true
    expectedPostcondition := some (.object [("declaration", declaration)]) }

/-- The site once the reviewed installation is accepted. -/
def reviewed : Db :=
  reach digest site [.call (second 1) (.acceptGiteaModule (some reviewedInput))]

theorem reviewed_replays :
    ((Entry.accept digest (second 2) reviewed (.gitea (some reviewedInput))).toOption.any fun v =>
      v.2.replayed && (Entry.gitea (some reviewedInput)).request.any fun q =>
        q.binding.isSome && q.args.expectedPostcondition.isSome && q.args.executionPlan.isSome &&
          v.2.operation.expectedPostcondition.isSome && v.2.operation.executionPlan.isSome &&
          [none, v.2.operation.sourceRevision].all fun source =>
            decide (v.2.operation.document source = q.document)) = true ∧
    ((Entry.accept digest (second 2) reviewed (.operation reviewedRequest)).toOption.any fun v =>
      v.2.replayed && v.2.operation.declarationBinding.isSome) = true := by
  decide +kernel

end Demo

theorem toOption_eq_some {α : Type} {x : Except SqlError α} {a : α} :
    x.toOption = some a ↔ x = .ok a := by
  cases x <;> simp [Except.toOption]

theorem idempotent_acceptance_reviewed :
    ∃ db' o q, Entry.accept Demo.digest (Demo.second 2) Demo.reviewed
        (.gitea (some Demo.reviewedInput)) = .ok (db', ⟨o, true⟩) ∧
      (Entry.gitea (some Demo.reviewedInput)).request = some q ∧ o.Matches q := by
  obtain ⟨⟨db', o, replayed⟩, hok, hrun⟩ := (Option.any_eq_true _ _).mp Demo.reviewed_replays.1
  obtain ⟨hreplayed, hrun⟩ := Bool.and_eq_true_iff.mp hrun
  obtain ⟨q, hq, hrun⟩ := (Option.any_eq_true _ _).mp hrun
  simp only [Bool.and_eq_true, Option.isSome_iff_ne_none, List.all_eq_true, decide_eq_true_eq] at hrun
  obtain ⟨⟨⟨⟨⟨hbinding, hpost⟩, hplan⟩, hpost'⟩, hplan'⟩, hdocument⟩ := hrun
  rw [toOption_eq_some] at hok
  cases hreplayed
  obtain ⟨-, hreplay, -⟩ := idempotent_acceptance Demo.digest Demo.site
    [.call (Demo.second 1) (.acceptGiteaModule (some Demo.reviewedInput))]
  obtain ⟨q', hq', -, -, -, -, hmatches⟩ := hreplay (Demo.second 2) _ db' o hok
  rw [hq] at hq'
  cases hq'
  refine ⟨db', o, q, hok, hq, (hmatches fun source hsource _ => hdocument source hsource).mpr ?_⟩
  exact ⟨fun hnone => absurd hnone hbinding, by simp [hpost, hpost'], by simp [hplan, hplan']⟩

/-- The bound installation is replayed to a request without a binding. -/
theorem bound_operation_replayed :
    ∃ db' o, Entry.accept Demo.digest (Demo.second 2) Demo.reviewed
        (.operation Demo.reviewedRequest) = .ok (db', ⟨o, true⟩) ∧
      ¬ o.Matches ⟨false, Demo.reviewedRequest, none⟩ := by
  obtain ⟨⟨db', o, replayed⟩, hok, hrun⟩ := (Option.any_eq_true _ _).mp Demo.reviewed_replays.2
  obtain ⟨hreplayed, hbound⟩ := Bool.and_eq_true_iff.mp hrun
  rw [toOption_eq_some] at hok
  cases hreplayed
  refine ⟨db', o, hok, fun hmatches => ?_⟩
  rw [hmatches.comparable.binding rfl] at hbound
  cases hbound

end Authority
