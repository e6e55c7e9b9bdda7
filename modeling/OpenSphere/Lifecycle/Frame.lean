import OpenSphere.Lifecycle.Request

/-!
# What no step changes

The request an operation was accepted with is fixed, a delivered outbox row is
frozen, the epoch of a row never goes back, and approvals, receipts, revocations
and audit events are only added to.  `Case.Later` collects this for one case and
`Db.Later` for the database, where it holds between any two points of a run.

The last part turns lemmas about one step of a case into lemmas about all cases
of every reachable database.
-/

open Sql
open System (OneCase Along run run_append)

namespace Authority

variable {w : Scene} {l : Label} {db db' : Db} {r : Outbox} {c c' : Case} {s : Statement}

/-! ## Operations -/

/-- The columns an acceptance fixes, with the others blanked. -/
def Operation.request (o : Operation) : Operation :=
  { o with
    state := .planned
    stateVersion := 0
    approvalRevision := none
    sourceRevision := none
    observedPostcondition := none
    error := none
    updatedAt := o.createdAt
    declarationMergeRevision := none }

/-- The operation is not bound to Git, or its declaration is merged. -/
def Operation.GateOpen (o : Operation) : Prop :=
  o.declarationBinding = none ∨ o.declarationMergeRevision ≠ none

structure Operation.Later (o o' : Operation) : Prop where
  request : o'.request = o.request
  gate : o.GateOpen → o'.GateOpen
  /-- A merge fills in a source revision the request left open. -/
  source : o.sourceRevision ≠ none → o'.sourceRevision = o.sourceRevision

namespace Operation.Later

variable {o o' : Operation}

theorem refl (o : Operation) : o.Later o := ⟨rfl, id, fun _ => rfl⟩

theorem trans {o'' : Operation} (h : o.Later o') (h' : o'.Later o'') : o.Later o'' :=
  ⟨h'.request.trans h.request, fun hg => h'.gate (h.gate hg), fun hs =>
    (h'.source (by rw [h.source hs]; exact hs)).trans (h.source hs)⟩

theorem operationId (h : o.Later o') : o'.operationId = o.operationId :=
  congrArg (·.operationId) h.request

theorem actionId (h : o.Later o') : o'.actionId = o.actionId :=
  congrArg (·.actionId) h.request

theorem actorRef (h : o.Later o') : o'.actorRef = o.actorRef :=
  congrArg (·.actorRef) h.request

theorem targetRef (h : o.Later o') : o'.targetRef = o.targetRef :=
  congrArg (·.targetRef) h.request

theorem payloadDigest (h : o.Later o') : o'.payloadDigest = o.payloadDigest :=
  congrArg (·.payloadDigest) h.request

theorem actionVersion (h : o.Later o') : o'.actionVersion = o.actionVersion :=
  congrArg (·.actionVersion) h.request

theorem executionPlan (h : o.Later o') : o'.executionPlan = o.executionPlan :=
  congrArg (·.executionPlan) h.request

theorem planRevision (h : o.Later o') : o'.planRevision = o.planRevision :=
  congrArg (·.planRevision) h.request

theorem ownerRef (h : o.Later o') : o'.ownerRef = o.ownerRef :=
  congrArg (·.ownerRef) h.request

theorem approvalRequired (h : o.Later o') : o'.approvalRequired = o.approvalRequired :=
  congrArg (·.approvalRequired) h.request

theorem declarationBinding (h : o.Later o') : o'.declarationBinding = o.declarationBinding :=
  congrArg (·.declarationBinding) h.request

end Operation.Later

theorem Operation.submit_later (o : Operation) (s : Statement) (r : Outbox) :
    o.Later (o.submit s r) := by
  unfold Operation.submit
  split <;> exact ⟨rfl, id, fun _ => rfl⟩

theorem Operation.reconcile_later (o : Operation) (s : Statement) : o.Later (o.reconcile s) := by
  unfold Operation.reconcile
  split <;> exact ⟨rfl, id, fun _ => rfl⟩

theorem Operation.observe_later (o : Operation) (s : Statement) (evidence : Jsonb)
    (digest : String) : o.Later (o.observe s evidence digest) := by
  unfold Operation.observe
  split <;> exact ⟨rfl, id, fun _ => rfl⟩

theorem Operation.merge_later (o : Operation) (s : Statement) {p : GiteaArgs}
    (hp : p.revision ≠ none) (hsource : o.sourceRevision = none) : o.Later (o.merge s p) := by
  refine ⟨rfl, fun hg => ?_, fun hs => absurd hsource hs⟩
  cases hb : o.declarationBinding with
  | none => exact .inl hb
  | some b => exact .inr (by simpa [Operation.merge, hb] using hp)

/-! ## Outbox rows -/

structure Outbox.Later (r r' : Outbox) : Prop where
  outboxId : r'.outboxId = r.outboxId
  operationId : r'.operationId = r.operationId
  eventType : r'.eventType = r.eventType
  epoch : r.claimEpoch ≤ r'.claimEpoch
  /-- A delivered row is never changed or claimed again. -/
  delivered : r.deliveredAt ≠ none → r' = r

theorem Outbox.Later.refl (r : Outbox) : r.Later r := ⟨rfl, rfl, rfl, Int.le_refl _, fun _ => rfl⟩

theorem Outbox.Later.trans {r' r'' : Outbox} (h : r.Later r') (h' : r'.Later r'') :
    r.Later r'' where
  outboxId := h'.outboxId.trans h.outboxId
  operationId := h'.operationId.trans h.operationId
  eventType := h'.eventType.trans h.eventType
  epoch := Int.le_trans h.epoch h'.epoch
  delivered hd := by
    have hsame := h.delivered hd
    rw [← hsame] at hd
    rw [h'.delivered hd, hsame]

theorem Outbox.deliver_later (h : r.deliveredAt = none) :
    r.Later (r.deliver s) :=
  ⟨rfl, rfl, rfl, Int.le_refl _, fun hd => absurd h hd⟩

theorem Outbox.renew_later {lease : Option Int}
    (h : r.deliveredAt = none) : r.Later (r.renew s lease) :=
  ⟨rfl, rfl, rfl, Int.le_refl _, fun hd => absurd h hd⟩

theorem Outbox.claim_later {worker : Option Uuid}
    {lease : Option Int} (h : r.deliveredAt = none) : r.Later (r.claim s worker lease) :=
  ⟨rfl, rfl, rfl, Int.le_add_one (Int.le_refl _), fun hd => absurd h hd⟩

theorem Case.Row.replace_later {r' : Outbox} (hrow : c.Row r) (h : r.Later r') :
    ∀ x ∈ c.outbox, ∃ x' ∈ replaceRow r' c.outbox, x.Later x' := by
  intro x hx
  refine ⟨_, List.mem_map_of_mem hx, ?_⟩
  split
  next hkey =>
    rw [hrow.2 x hx (hkey.trans h.outboxId)]
    exact h
  next => exact .refl x

/-! ## Cases -/

structure Case.Later (c c' : Case) : Prop where
  op : ∀ o, c.op = some o → ∃ o', c'.op = some o' ∧ o.Later o'
  outbox : ∀ r ∈ c.outbox, ∃ r' ∈ c'.outbox, r.Later r'
  approvals : ∀ a ∈ c.approvals, a ∈ c'.approvals
  receipts : ∀ x ∈ c.receipts, x ∈ c'.receipts
  revocations : ∀ v ∈ c.revocations, v ∈ c'.revocations
  events : ∀ e ∈ c.events, e ∈ c'.events

theorem Case.Later.refl (c : Case) : c.Later c where
  op o ho := ⟨o, ho, .refl o⟩
  outbox r hr := ⟨r, hr, .refl r⟩
  approvals _ h := h
  receipts _ h := h
  revocations _ h := h
  events _ h := h

theorem Case.Later.trans {c'' : Case} (h : c.Later c') (h' : c'.Later c'') : c.Later c'' where
  op o ho := by
    obtain ⟨o', ho', hl⟩ := h.op o ho
    obtain ⟨o'', ho'', hl'⟩ := h'.op o' ho'
    exact ⟨o'', ho'', hl.trans hl'⟩
  outbox r hr := by
    obtain ⟨r', hr', hl⟩ := h.outbox r hr
    obtain ⟨r'', hr'', hl'⟩ := h'.outbox r' hr'
    exact ⟨r'', hr'', hl.trans hl'⟩
  approvals a ha := h'.approvals a (h.approvals a ha)
  receipts x hx := h'.receipts x (h.receipts x hx)
  revocations v hv := h'.revocations v (h.revocations v hv)
  events e he := h'.events e (h.events e he)

theorem claimable_undelivered {p : ClaimArgs} {o : Operation}
    (h : claimable s p r o = some true) : r.deliveredAt = none :=
  (isNull_eq_true _).mp ((Cond.all_eq_true _).mp h (isNull r.deliveredAt) (by simp))

theorem Observed.later {o o' : Operation} {p : ObserveArgs} {x : ExecutionReceipt}
    {t : EventType} (h : Observed w o p x t o') : o.Later o' := by
  cases h with
  | install => exact Operation.observe_later ..
  | removal => exact .refl o

/-- Every step keeps the request, freezes what is delivered and only adds. -/
theorem Case.Step.later (h : Case.Step w l c c') :
    c.Later c' := by
  have hself : ∀ rows, ∀ r ∈ c.outbox, ∃ r' ∈ c.outbox ++ rows, r.Later r' :=
    fun rows r hr => ⟨r, List.mem_append_left _ hr, .refl r⟩
  have hop : ∀ {o o'}, c.op = some o → o.Later o' →
      ∀ q, c.op = some q → ∃ q', some o' = some q' ∧ q.Later q' := by
    intro o o' ho hl q hq
    rw [ho] at hq
    cases hq
    exact ⟨o', rfl, hl⟩
  have happend : ∀ {α : Type} (l l' : List α), ∀ a ∈ l, a ∈ l ++ l' :=
    fun _ _ _ ha => List.mem_append_left _ ha
  cases h with
  | accept hnone =>
      refine ⟨fun q hq => ?_, hself _, fun _ h => h, fun _ h => h, fun _ h => h, happend _ _⟩
      rw [hnone] at hq
      cases hq
  | approve ho =>
      exact ⟨hop ho ⟨rfl, id, fun _ => rfl⟩, hself _, happend _ _, fun _ h => h, fun _ h => h, happend _ _⟩
  | claim ho hrow hclaimable =>
      exact ⟨hop ho (Operation.submit_later ..),
        hrow.replace_later (Outbox.claim_later (claimable_undelivered hclaimable)),
        fun _ h => h, fun _ h => h, fun _ h => h, happend _ _⟩
  | renew hrow hdelivered =>
      exact ⟨fun q hq => ⟨q, hq, .refl q⟩, hrow.replace_later (Outbox.renew_later hdelivered),
        fun _ h => h, fun _ h => h, fun _ h => h, fun _ h => h⟩
  | apply ho hrow hfence =>
      refine ⟨hop ho ((Operation.reconcile_later _ w.s).trans ⟨rfl, id, fun _ => rfl⟩), fun r hr => ?_,
        fun _ h => h, happend _ _, happend _ _, happend _ _⟩
      obtain ⟨r', hr', hl⟩ := hrow.replace_later (Outbox.deliver_later hfence.undelivered) r hr
      exact ⟨r', List.mem_append_left _ hr', hl⟩
  | observe ho hrow hfence hstate hx hobserved =>
      exact ⟨hop ho hobserved.later, hrow.replace_later (Outbox.deliver_later hfence.undelivered),
        fun _ h => h, happend _ _, fun _ h => h, happend _ _⟩
  | fail ho hrow hfence =>
      exact ⟨hop ho ⟨rfl, id, fun _ => rfl⟩, hrow.replace_later (Outbox.deliver_later hfence.undelivered),
        fun _ h => h, happend _ _, fun _ h => h, happend _ _⟩
  | verify ho =>
      exact ⟨hop ho ⟨rfl, id, fun _ => rfl⟩, fun r hr => ⟨r, hr, .refl r⟩, fun _ h => h, fun _ h => h,
        fun _ h => h, happend _ _⟩
  | propose =>
      exact ⟨fun q hq => ⟨q, hq, .refl q⟩, fun r hr => ⟨r, hr, .refl r⟩, fun _ h => h,
        fun _ h => h, fun _ h => h, happend _ _⟩
  | merge ho hreq happroved hstate hrevision hproposal he hevidence hsource =>
      exact ⟨hop ho (Operation.merge_later _ w.s hrevision hsource), fun r hr => ⟨r, hr, .refl r⟩,
        fun _ h => h, fun _ h => h, fun _ h => h, happend _ _⟩
  | credential ho hbroker hrows =>
      refine ⟨hop ho ⟨rfl, id, fun _ => rfl⟩, fun r hr => ?_, fun _ h => h, fun _ h => h, fun _ h => h,
        happend _ _⟩
      rcases hrows with rfl | rfl
      · exact ⟨r, hr, .refl r⟩
      · refine ⟨_, List.mem_map_of_mem hr, ?_⟩
        split
        next hnone => exact Outbox.deliver_later (by simpa using hnone)
        next => exact .refl r

theorem Case.Step.initial (h : Case.Step w l c c')
    (hnone : c.op = none) {o : Operation} (ho : c'.op = some o) : o.Initial := by
  cases h with
  | accept hop hinit =>
      cases ho
      exact hinit
  | renew | propose => exact absurd (hnone.symm.trans ho) nofun
  | _ => simp_all

/-! ## Databases -/

structure Db.Later (db db' : Db) : Prop where
  case : ∀ id, (db.case id).Later (db'.case id)
  person : ∀ u p, db.person u = some p → db'.person u = some p
  revoked : ∀ image, db.isRevoked image = true → db'.isRevoked image = true

theorem Db.Later.refl (db : Db) : db.Later db := ⟨fun _ => .refl _, fun _ _ h => h, fun _ h => h⟩

theorem Db.Later.trans {db'' : Db} (h : db.Later db') (h' : db'.Later db'') :
    db.Later db'' where
  case id := (h.case id).trans (h'.case id)
  person u p hp := h'.person u p (h.person u p hp)
  revoked image hi := h'.revoked image (h.revoked image hi)

theorem Db.Later.row (h : db.Later db') (hr : r ∈ db.outbox.rows) :
    ∃ r' ∈ db'.outbox.rows, r.Later r' := by
  obtain ⟨r', hr', hl⟩ := (h.case r.operationId).outbox r (Db.mem_case_outbox.mpr hr)
  exact ⟨r', (List.mem_filter.mp hr').1, hl⟩

theorem Db.Later.operation (h : db.Later db') {o : Operation}
    (ho : o ∈ db.operations.rows) : ∃ o' ∈ db'.operations.rows, o.Later o' := by
  obtain ⟨o', ho', hl⟩ := (h.case o.operationId).op o (Db.case_op.mpr ho)
  exact ⟨o', (Db.case_op_eq_some.mp ho').1, hl⟩

theorem keepsPersons_person {next : Identity}
    (h : db.identity.keepsPersons next = true) {u p : Uuid} (hp : db.person u = some p) :
    ({ db with identity := next } : Db).person u = some p := by
  obtain ⟨a, ha, rfl⟩ := Option.map_eq_some_iff.mp hp
  obtain ⟨hmem, hkey⟩ := Table.lookup_eq_some.mp ha
  have hkeep := List.all_eq_true.mp h a hmem
  obtain ⟨b, hb, hsame⟩ := (Option.any_eq_true _ _).mp hkeep
  have hu : u = a.subjectId := Option.some.inj hkey
  subst hu
  exact Option.map_eq_some_iff.mpr ⟨b, hb, of_decide_eq_true hsame⟩

theorem perform_cases (D : Digest) (a : Action) (db : Db) :
    ((perform D a db).case = db.case ∧ db.Later (perform D a db)) ∨
    ∃ s c, a = .call s c ∧ Commits (db.scene s) c.label db (perform D a db) := by
  cases a with
  | call s c =>
      rcases perform_call_cases D s c db with hsame | hok
      · exact .inl (by rw [hsame]; exact ⟨rfl, .refl db⟩)
      · exact .inr ⟨s, c, rfl, exec_commits hok⟩
  | identity next =>
      refine .inl ?_
      simp only [perform]
      split
      next hkeeps =>
        exact ⟨rfl, fun _ => .refl _, fun u p => keepsPersons_person hkeeps, fun _ h => h⟩
      next => exact ⟨rfl, .refl db⟩
  | audit s a =>
      refine .inl ?_
      simp only [perform]
      cases h : appendEvent D s db { a with operationId := none } with
      | error e => exact ⟨rfl, .refl db⟩
      | ok db' =>
          have hw := appendEvent_none_writes s.rowId h rfl
          have hcase : db'.case = db.case := hw.case.trans (System.modify_id _ _)
          refine ⟨hcase, fun id => ?_, fun u p hp => ?_, hw.revoked⟩
          · show (db.case id).Later (db'.case id)
            rw [hcase]
            exact .refl _
          · show (db'.identity.subjects.lookup (some u)).map (·.personRef) = some p
            rw [hw.identity.subjects]
            exact hp

theorem Commits.later (h : Commits w l db db') :
    db.Later db' where
  case := h.cases.relation Case.Later.refl fun _ _ hstep => hstep.later
  person u p hp := by
    rw [Db.person, h.identity.subjects]
    exact hp
  revoked := h.revoked

/-- Nothing an action should keep is lost. -/
theorem perform_later (D : Digest) (a : Action) (db : Db) : db.Later (perform D a db) := by
  rcases perform_cases D a db with ⟨-, hlater⟩ | ⟨s, c, -, hcommits⟩
  · exact hlater
  · exact hcommits.later

/-- Nothing is lost between two points of a run. -/
theorem run_later (D : Digest) (as : List Action) (db : Db) :
    db.Later (run (perform D) as db) :=
  System.run_relation Db.Later.refl Db.Later.trans (perform_later D) as db

theorem reach_append (D : Digest) (i : Identity) (as bs : List Action) :
    reach D i (as ++ bs) = run (perform D) bs (reach D i as) :=
  run_append ..

theorem reach_snoc (D : Digest) (i : Identity) (as : List Action) (a : Action) :
    reach D i (as ++ [a]) = perform D a (reach D i as) :=
  run_append ..

/-- What a conforming step keeps of its case holds of all cases after a
conforming run. -/
theorem along_case {D : Digest} {C : Action → Db → Prop} {I : Case → Prop} (hempty : I Case.empty)
    (hstep : ∀ {s c db id c'}, C (.call s c) db →
      Case.Step (db.scene s) c.label (db.case id) c' → I (db.case id) → I c')
    {i : Identity} {as : List Action} (has : Along (perform D) C as (Db.fresh i)) (id : Uuid) :
    I ((reach D i as).case id) := by
  have hall : ∀ id, I ((run (perform D) as (Db.fresh i)).case id) := by
    refine Along.invariant (I := fun db => ∀ id, I (db.case id)) ?_ has fun _ => hempty
    intro a db hI hok id
    rcases perform_cases D a db with ⟨hsame, -⟩ | ⟨s, c, rfl, hcommits⟩
    · rw [hsame]
      exact hI id
    · exact hcommits.cases.relation (Q := fun c c' => I c → I c') (fun _ h => h)
        (fun _ _ h hi => hstep hok h hi) id (hI id)
  exact hall id

/-- What every step keeps of its case holds of all cases of a reachable
database. -/
theorem reach_case {I : Case → Prop} (hempty : I Case.empty)
    (hstep : ∀ {w l c c'}, Case.Step w l c c' → I c → I c') (D : Digest) (i : Identity)
    (as : List Action) (id : Uuid) : I ((reach D i as).case id) :=
  along_case (C := fun _ _ => True) hempty (fun _ h hi => hstep h hi)
    (Along.trivial (fun _ _ => True.intro) as _) id

end Authority
