import OpenSphere.Lifecycle.Step

/-!
# The worker functions take steps

Each function, when it commits, changes nothing or takes one step of one case.
The lemmas go function by function: the guards that passed are read off with
`bind_eq_ok`, the writes are composed with the statement lemmas, and what is
left is a constructor of `Case.Step`.

`Commits` also records what a call does to the tables outside the cases: of
identity only the last use of a session changes, and no revocation is undone.
-/

open Sql
open System (modify modify_self modify_modify OneCase)

namespace Authority

variable {r : Outbox} {v : Settled} {q : ClaimRef} {o : Operation} {evidence : Jsonb} {id : Uuid}
  {x : ExecutionReceipt} {phase : Phase} {m : String} {types : List EventType} {w : Scene}
  {l : Label}

structure Commits (w : Scene) (l : Label) (db db' : Db) : Prop where
  cases : OneCase (Case.Step w l) db.case db'.case
  identity : db.identity.Touched db'.identity
  revoked : ∀ image, db.isRevoked image = true → db'.isRevoked image = true

def Steps (w : Scene) (l : Label) (db db' : Db) : Prop :=
  ∃ id f, Writes db db' id f ∧ Case.Step w l (db.case id) (f (db.case id))

theorem Commits.refl {db : Db} : Commits w l db db :=
  ⟨.inl rfl, .refl _, fun _ h => h⟩

theorem Steps.commits {db db' : Db} (h : Steps w l db db') :
    Commits w l db db' := by
  obtain ⟨id, f, hwrites, hstep⟩ := h
  exact ⟨.inr ⟨id, f, hwrites.case, hstep⟩, hwrites.identity, hwrites.revoked⟩

theorem Commits.of_writes {db db' : Db} {f : Case → Case}
    (h : Writes db db' id f) (hstep : Case.Step w l (db.case id) (f (db.case id))) :
    Commits w l db db' :=
  Steps.commits ⟨id, f, h, hstep⟩

section Functions

variable {D : Digest} {s : Statement} {db db' : Db}

theorem case_of_lookup {k : Option Uuid} (h : db.operations.lookup k = some o) :
    (db.case o.operationId).op = some o :=
  Db.case_op.mpr (Table.lookup_eq_some.mp h).1

/-! ## The fence -/

theorem ownerFence_eq_ok
    (h : ownerFence s db q types m = .ok r) :
    db.outbox.lookup q.outboxId = some r ∧ (∀ i, q.operationId = some i → i = r.operationId) ∧
      r.eventType ∈ types ∧ (∀ u v, r.claimOwner = some u → q.workerId = some v → u = v) ∧
      (∀ n, q.claimEpoch = some n → n = r.claimEpoch) ∧ r.deliveredAt = none ∧
      (∀ t, r.leaseExpiresAt = some t → s.now < t) := by
  simp only [ownerFence, bind_eq_ok, orRaise_eq_ok, raiseIf_eq_ok, pure_eq_ok] at h
  obtain ⟨r', hr, _, hguard, rfl⟩ := h
  have hnot := any_ne_true hguard
  refine ⟨hr, ?_, ?_, ?_, ?_, ?_, ?_⟩
  · intro i hi
    exact (ne_passed (hnot (ne (some r'.operationId) q.operationId) (by simp)) rfl hi).symm
  · exact notIn_passed (hnot (notIn (some r'.eventType) types) (by simp))
  · intro u v hu hv
    exact ne_passed (hnot (ne r'.claimOwner q.workerId) (by simp)) hu hv
  · intro n hn
    exact (ne_passed (hnot (ne (some r'.claimEpoch) q.claimEpoch) (by simp)) rfl hn).symm
  · exact isNotNull_passed (hnot (isNotNull r'.deliveredAt) (by simp))
  · intro t ht
    have hlease := hnot (le r'.leaseExpiresAt (some s.now)) (by simp)
    rw [ht] at hlease
    simpa [le] using hlease

theorem newReceipt_eq_ok
    (h : newReceipt D s q o phase evidence = .ok x) :
    x.For o q phase ∧ q.workerId = some x.workerId ∧ x.evidence = evidence ∧
      x.evidenceDigest = D.hash evidence := by
  simp only [newReceipt, bind_eq_ok, notNull_eq_ok, pure_eq_ok] at h
  obtain ⟨worker, hworker, epoch, hepoch, rfl⟩ := h
  exact ⟨⟨rfl, rfl, hepoch, rfl⟩, hworker, rfl, rfl⟩

theorem row_of_fence
    (hr : ownerFence s db q types m = .ok r)
    (ho : db.operations.lookup q.operationId = some o) :
    r.operationId = o.operationId ∧ (db.case o.operationId).Row r := by
  obtain ⟨hlook, hop, -⟩ := ownerFence_eq_ok hr
  obtain ⟨hmem, -⟩ := Table.lookup_eq_some.mp hlook
  obtain ⟨-, hid⟩ := Table.lookup_eq_some.mp ho
  have hid : r.operationId = o.operationId := (hop _ hid).symm
  refine ⟨hid, ?_, ?_⟩
  · rw [← hid]
    exact Db.mem_case_outbox.mpr hmem
  · intro y hy hkey
    rw [← hid] at hy
    exact Db.case_outbox_key (Db.mem_case_outbox.mpr hmem) hy hkey

/-- The fence and the receipt together: the columns of the receipt stop a NULL
worker, a NULL epoch and the epoch of a row nobody has claimed. -/
theorem fenced_of_receipt
    {o' : Operation}
    (hr : ownerFence s db q types m = .ok r) (ho : db.operations.lookup q.operationId = some o)
    (hx : newReceipt D s q o' phase evidence = .ok x)
    (hcheck : executionReceiptSchema.check x = true) : Fenced (db.scene s) q types r := by
  obtain ⟨hlook, -, htype, howner, hepoch, hdelivered, hlease⟩ := ownerFence_eq_ok hr
  obtain ⟨hfor, hworker, -, -⟩ := newReceipt_eq_ok hx
  have hepochEq := hepoch _ hfor.claimEpoch
  have hpos : 0 < x.claimEpoch := by
    simp only [executionReceiptSchema, between, Bool.and_eq_true, decide_eq_true_eq] at hcheck
    omega
  refine ⟨(Table.lookup_eq_some.mp hlook).2, ?_, htype, hdelivered, ⟨_, hworker, ?_⟩, ?_, hlease⟩
  · rw [(row_of_fence hr ho).1]
    exact (Table.lookup_eq_some.mp ho).2
  · cases hc : r.claimOwner with
    | none => exact .inl rfl
    | some u => exact .inr (by rw [howner u _ hc hworker])
  · rw [hfor.claimEpoch, hepochEq]
    exact ⟨rfl, hepochEq ▸ hpos⟩

/-! ## Failure -/

theorem recordExecutionFailure_steps {p : FailureArgs} {o' : Operation}
    (h : recordExecutionFailure D s p db = .ok (db', o')) :
    Steps (db.scene s) (.fail p) db db' := by
  simp only [recordExecutionFailure, bind_eq_ok, orRaise_eq_ok, raiseIf_eq_ok, pure_eq_ok] at h
  obtain ⟨_, -, r, hr, o, ho, _, hmatch, x, hx, db₁, h₁, db₂, h₂, db₃, h₃, db₄, h₄, heq⟩ := h
  cases heq
  obtain ⟨hfor, -, -, -⟩ := newReceipt_eq_ok hx
  have hop := case_of_lookup ho
  obtain ⟨hcheck, w₁⟩ := insertReceipt_writes h₁ hfor.operationId
  have hfence := fenced_of_receipt hr ho hx hcheck
  obtain ⟨hid, hrow⟩ := row_of_fence hr ho
  have w₂ := w₁.trans (putOperation_writes h₂ rfl (w₁.op hop))
  have w₃ := w₂.trans (putOutbox_writes h₃ hid (w₂.row hrow.1) rfl)
  obtain ⟨e, hfrom, w₄⟩ := appendEvent_writes h₄ rfl
  exact ⟨_, _, w₃.trans w₄, .fail hop hrow hfence hmatch hfor hfrom.action⟩

/-! ## Application -/

theorem boundOperation_eq_ok {p : Bound} {actionId : String} {states : List OperationState}
    {also : Operation → List Cond}
    (h : boundOperation db p actionId states also m = .ok o) :
    db.operations.lookup p.operationId = some o ∧ o.actionId = actionId ∧ o.state ∈ states ∧
      (∀ t, p.targetRef = some t → t = o.targetRef) := by
  simp only [boundOperation, bind_eq_ok, orRaise_eq_ok, raiseIf_eq_ok, pure_eq_ok] at h
  obtain ⟨o', ho, _, hguard, rfl⟩ := h
  have hnot := any_ne_true hguard
  refine ⟨ho, ?_, ?_, ?_⟩
  · have haction := decided_passed (hnot (some (decide (o'.actionId ≠ actionId))) (by simp))
    simpa using haction
  · exact notIn_passed (hnot (notIn (some o'.state) states) (by simp))
  · intro t ht
    exact (ne_passed (hnot (ne (some o'.targetRef) p.targetRef) (by simp)) rfl ht).symm

@[simp] theorem Operation.reconcile_operationId (o : Operation) (s : Statement) :
    (o.reconcile s).operationId = o.operationId := by
  unfold Operation.reconcile
  split <;> rfl

@[simp] theorem Operation.reconcile_actionId (o : Operation) (s : Statement) :
    (o.reconcile s).actionId = o.actionId := by
  unfold Operation.reconcile
  split <;> rfl

theorem newRevocation_reconcile (o : Operation) (n : Int) :
    newRevocation s (o.reconcile s) n = newRevocation s o n := by
  unfold Operation.reconcile
  split <;> rfl

theorem revocationEvidence_reconcile (o : Operation) (n : Option Int) (inserted : Bool) :
    revocationEvidence (o.reconcile s) n inserted = revocationEvidence o n inserted := by
  unfold Operation.reconcile
  split <;> rfl

theorem settle_writes {old : Operation}
    (h : settle D s q r o evidence db = .ok db') (hid : o.operationId = id)
    (hrid : r.operationId = id) (hop : (db.case id).op = some old)
    (hrow : r ∈ (db.case id).outbox) :
    ∃ x, newReceipt D s q o .applied evidence = .ok x ∧ executionReceiptSchema.check x = true ∧
      Writes db db' id fun c =>
        { c with
          receipts := c.receipts ++ [x]
          op := some (o.apply s x.evidence)
          outbox := replaceRow (r.deliver s) c.outbox } := by
  simp only [settle, bind_eq_ok] at h
  obtain ⟨x, hx, db₁, h₁, db₂, h₂, h₃⟩ := h
  obtain ⟨hfor, -, hevidence, -⟩ := newReceipt_eq_ok hx
  obtain ⟨hcheck, w₁⟩ := insertReceipt_writes h₁ (hfor.operationId.trans hid)
  have w₂ := w₁.trans (putOperation_writes h₂ hid (w₁.op hop))
  have w₃ := w₂.trans (putOutbox_writes h₃ hrid (w₂.row hrow) rfl)
  rw [← hevidence] at w₃
  exact ⟨x, hx, hcheck, w₃⟩

theorem ExecutionReceipt.For.of_reconcile
    (h : x.For (o.reconcile s) q phase) : x.For o q phase :=
  ⟨by rw [h.operationId, Operation.reconcile_operationId], h.ownerRef, h.claimEpoch, h.phase⟩

theorem newOutbox_initial {t : EventType} {payload : Jsonb}
    {digest : String} (hid : id = o.operationId) :
    (newOutbox s id t payload digest).Initial o t :=
  ⟨hid, rfl, rfl, rfl, rfl, rfl⟩

theorem applyRevocation_steps {p : Bound}
    (h : applyRevocation D s p db = .ok (db', v)) :
    Steps (db.scene s) (.apply "console.extension.revocation.create" p) db db' := by
  simp only [applyRevocation, bind_eq_ok, raiseIf_eq_ok, notNull_eq_ok, pure_eq_ok] at h
  obtain ⟨r, hr, o, hbound, _, -, db₁, h₁, epoch, hepoch, ⟨db₂, inserted⟩, h₂, db₃, h₃, db₄, h₄,
    heq⟩ := h
  cases heq
  obtain ⟨ho, haction, hstate, -⟩ := boundOperation_eq_ok hbound
  obtain ⟨hid, hrow⟩ := row_of_fence hr ho
  have hop := case_of_lookup ho
  have w₁ := putOperation_writes h₁ (o.reconcile_operationId s) hop
  rw [newRevocation_reconcile] at h₂
  have hrevoked : db₁.isRevoked (some o.targetRef) = (db.scene s).revoked o.targetRef := by
    rw [Db.isRevoked, putOperation_revocations h₁]
    rfl
  rcases insertRevocation_writes h₂ rfl with ⟨rfl, rfl, hold⟩ | ⟨rfl, hnew, w₂⟩
  · -- the image was revoked before, and the row of that revocation stays
    obtain ⟨x, hx, hcheck, w₃⟩ :=
      settle_writes h₃ (o.reconcile_operationId s) hid (w₁.op rfl) (w₁.row hrow.1)
    obtain ⟨e, hfrom, w₄⟩ := appendEvent_writes h₄ (congrArg some (o.reconcile_operationId s))
    have hstep := Case.Step.apply hop hrow (fenced_of_receipt hr ho hx hcheck) haction hstate
      (newReceipt_eq_ok hx).1.of_reconcile (.alreadyRevoked haction (hrevoked.symm.trans hold))
      (hfrom.action.trans (o.reconcile_actionId s))
    simp only [List.append_nil] at hstep
    exact ⟨_, _, w₁.trans (w₃.trans w₄), hstep⟩
  · have w₂ := w₁.trans w₂
    obtain ⟨x, hx, hcheck, w₃⟩ :=
      settle_writes h₃ (o.reconcile_operationId s) hid (w₂.op rfl) (w₂.row hrow.1)
    obtain ⟨e, hfrom, w₄⟩ := appendEvent_writes h₄ (congrArg some (o.reconcile_operationId s))
    have hstep := Case.Step.apply hop hrow (fenced_of_receipt hr ho hx hcheck) haction hstate
      (newReceipt_eq_ok hx).1.of_reconcile
      (.revocation haction hepoch (hrevoked.symm.trans hnew)
        ((newReceipt_eq_ok hx).2.2.1.trans (revocationEvidence_reconcile ..)))
      (hfrom.action.trans (o.reconcile_actionId s))
    simp only [List.append_nil] at hstep
    exact ⟨_, _, w₂.trans (w₃.trans w₄), hstep⟩

/-- A registration is applied: its receipt is stored, and its observation is asked for. -/
theorem registration_steps {p : Bound} {more : Operation → List Cond} {q : Outbox} {t : EventType}
    {db₁ db₂ db₃ : Db} {a m' d : String} {post : List (String × Jsonb)}
    (hr : ownerFence s db p.toClaimRef [.operationReadyForDispatch] m = .ok r)
    (hbound : boundOperation db p a [.submitted, .reconciling, .unknown] more m' = .ok o)
    (h₁ : db.putOperation (o.reconcile s) = .ok db₁)
    (h₂ : settle D s p.toClaimRef r (o.reconcile s) evidence db₁ = .ok db₂)
    (h₃ : db₂.insertOutbox q = .ok db₃)
    (h₄ : appendEvent D s db₃ (applyEvent p.toClaimRef ((o.reconcile s).apply s evidence) d post) =
      .ok db')
    (hinit : q.Initial o t) (heffect : ∀ x, q.Initial o t → Effect (db.scene s) o p x [q] []) :
    Steps (db.scene s) (.apply a p) db db' := by
  obtain ⟨ho, haction, hstate, -⟩ := boundOperation_eq_ok hbound
  obtain ⟨hid, hrow⟩ := row_of_fence hr ho
  have hop := case_of_lookup ho
  have w₁ := putOperation_writes h₁ (o.reconcile_operationId s) hop
  obtain ⟨x, hx, hcheck, w₂⟩ :=
    settle_writes h₂ (o.reconcile_operationId s) hid (w₁.op rfl) (w₁.row hrow.1)
  have w₃ := insertOutbox_writes h₃ hinit.operationId
  obtain ⟨e, hfrom, w₄⟩ := appendEvent_writes h₄ (congrArg some (o.reconcile_operationId s))
  have hstep := Case.Step.apply hop hrow (fenced_of_receipt hr ho hx hcheck) haction hstate
    (newReceipt_eq_ok hx).1.of_reconcile (heffect x hinit) (hfrom.action.trans (o.reconcile_actionId s))
  simp only [List.append_nil] at hstep
  exact ⟨_, _, w₁.trans (w₂.trans (w₃.trans w₄)), hstep⟩

theorem applyInstallRegistration_steps {p : InstallArgs}
    (h : applyInstallRegistration D s p db = .ok (db', v)) :
    Steps (db.scene s) (.apply "console.extension.install" p.toBound) db db' := by
  simp only [applyInstallRegistration, bind_eq_ok, raiseIf_eq_ok, pure_eq_ok] at h
  obtain ⟨_, -, r, hr, o, hbound, _, hrevoked, db₁, h₁, db₂, h₂, db₃, h₃, db₄, h₄, heq⟩ := h
  cases heq
  obtain ⟨-, haction, -, htarget⟩ := boundOperation_eq_ok hbound
  refine registration_steps hr hbound h₁ h₂ h₃ h₄ (newOutbox_initial (o.reconcile_operationId s))
    fun x hq => .install haction hq fun t ht => ?_
  -- the revocation check is on the image the caller names
  have hpassed := decided_passed hrevoked
  rw [ht] at hpassed
  exact ⟨htarget t ht, hpassed⟩

theorem applyRemoveRegistration_steps {p : RemoveArgs}
    (h : applyRemoveRegistration D s p db = .ok (db', v)) :
    Steps (db.scene s) (.apply "console.extension.remove" p.toBound) db db' := by
  simp only [applyRemoveRegistration, bind_eq_ok, raiseIf_eq_ok, pure_eq_ok] at h
  obtain ⟨_, -, r, hr, o, hbound, db₁, h₁, db₂, h₂, db₃, h₃, db₄, h₄, heq⟩ := h
  cases heq
  obtain ⟨-, haction, -, -⟩ := boundOperation_eq_ok hbound
  exact registration_steps hr hbound h₁ h₂ h₃ h₄ (newOutbox_initial (o.reconcile_operationId s))
    fun _ => .removal haction

/-! ## Observation -/

theorem settleObservation_writes
    (h : settleObservation D s q r o evidence db = .ok db') (hid : o.operationId = id)
    (hrid : r.operationId = id) (hrow : r ∈ (db.case id).outbox) :
    ∃ x, newReceipt D s q o .verified evidence = .ok x ∧ executionReceiptSchema.check x = true ∧
      Writes db db' id fun c =>
        { c with
          receipts := c.receipts ++ [x]
          outbox := replaceRow (r.deliver s) c.outbox } := by
  simp only [settleObservation, bind_eq_ok] at h
  obtain ⟨x, hx, db₁, h₁, h₂⟩ := h
  obtain ⟨hcheck, w₁⟩ := insertReceipt_writes h₁ ((newReceipt_eq_ok hx).1.operationId.trans hid)
  exact ⟨x, hx, hcheck, w₁.trans (putOutbox_writes h₂ hrid (w₁.row hrow) rfl)⟩

@[simp] theorem Operation.observe_operationId (o : Operation) (s : Statement) (evidence : Jsonb)
    (digest : String) : (o.observe s evidence digest).operationId = o.operationId := by
  unfold Operation.observe
  split <;> rfl

theorem recordInstallObservation_steps {p : ObserveArgs}
    (h : recordInstallObservation D s p db = .ok (db', v)) :
    Steps (db.scene s) (.observe .extensionInstallObservationRequested p) db db' := by
  simp only [recordInstallObservation, bind_eq_ok, orRaise_eq_ok, raiseIf_eq_ok, pure_eq_ok] at h
  obtain ⟨_, hvalid, r, hr, o, hbound, _, hrevoked, y, -, _, hmatch, db₁, h₁, db₂, h₂, db₃, h₃,
    heq⟩ := h
  cases heq
  obtain ⟨ho, haction, hstate, htarget⟩ := boundOperation_eq_ok hbound
  obtain ⟨hid, hrow⟩ := row_of_fence hr ho
  have hop := case_of_lookup ho
  obtain ⟨x, hx, hcheck, w₁⟩ := settleObservation_writes h₁ rfl hid hrow.1
  obtain ⟨hfor, -, hevidence, hdigest⟩ := newReceipt_eq_ok hx
  have w₂ := w₁.trans (putOperation_writes h₂ (o.observe_operationId ..) (w₁.op hop))
  obtain ⟨e, hfrom, w₃⟩ := appendEvent_writes h₃ (congrArg some (o.observe_operationId ..))
  have hfence := fenced_of_receipt hr ho hx hcheck
  -- the target of the audit event is NOT NULL, so the caller named the image it was checked for
  have hnamed : p.targetRef = some o.targetRef := by
    have hsome : p.targetRef = some e.targetRef := hfrom.targetRef
    rw [hsome, htarget _ hsome]
  have hnot : (db.scene s).revoked o.targetRef = false := by
    have hpassed := decided_passed hrevoked
    rw [hnamed] at hpassed
    exact hpassed
  rw [← hdigest, ← hevidence] at w₂
  refine ⟨_, _, w₂.trans w₃, .observe hop hrow hfence (by simpa using hstate) hfor
    (.install haction hnamed hvalid hmatch hevidence hnot) ?_⟩
  rw [hfrom.action]
  simp [observeEvent]

theorem recordRemoveObservation_steps {p : ObserveArgs}
    (h : recordRemoveObservation D s p db = .ok (db', v)) :
    Steps (db.scene s) (.observe .extensionRemovalObservationRequested p) db db' := by
  simp only [recordRemoveObservation, bind_eq_ok, orRaise_eq_ok, raiseIf_eq_ok, pure_eq_ok] at h
  obtain ⟨_, hvalid, r, hr, o, hbound, y, -, _, -, db₁, h₁, db₂, h₂, heq⟩ := h
  cases heq
  obtain ⟨ho, haction, hstate, -⟩ := boundOperation_eq_ok hbound
  obtain ⟨hid, hrow⟩ := row_of_fence hr ho
  have hop := case_of_lookup ho
  obtain ⟨x, hx, hcheck, w₁⟩ := settleObservation_writes h₁ rfl hid hrow.1
  obtain ⟨hfor, -, hevidence, -⟩ := newReceipt_eq_ok hx
  obtain ⟨e, hfrom, w₂⟩ := appendEvent_writes h₂ rfl
  have hfence := fenced_of_receipt hr ho hx hcheck
  have hstep := Case.Step.observe (e := e) hop hrow hfence (by simpa using hstate) hfor
    (.removal haction hvalid hevidence)
    (by rw [hfrom.action]; simp [observeEvent])
  rw [← hop] at hstep
  exact ⟨_, _, w₁.trans w₂, hstep⟩

/-! ## Claims -/

theorem mem_of_foldl_earlier {l : List Outbox} {best : Option Outbox}
    (h : l.foldl earlier best = some r) : r ∈ l ∨ best = some r := by
  induction l generalizing best with
  | nil => exact .inr h
  | cons x l ih =>
      rcases ih h with hmem | hbest
      · exact .inl (List.mem_cons_of_mem _ hmem)
      · -- the better of `best` and `x` is one of the two
        unfold earlier at hbest
        split at hbest
        · exact .inl (by simp_all)
        · split at hbest
          · exact .inl (by simp_all)
          · exact .inr hbest

/-- The picked row is a candidate: it is due together with its operation. -/
theorem nextClaim_eq_some {p : ClaimArgs} (h : nextClaim s p db = some r) :
    r ∈ db.outbox.rows ∧ ∃ o, db.operations.lookup (some r.operationId) = some o ∧
      claimable s p r o = some true := by
  have hmem : r ∈ claimCandidates s p db := by
    rcases mem_of_foldl_earlier h with hmem | hnone
    · exact hmem
    · cases hnone
  obtain ⟨hrows, hdue⟩ := List.mem_filter.mp hmem
  refine ⟨hrows, ?_⟩
  simp only [Bool.and_eq_true, Option.any_eq_true, beq_iff_eq] at hdue
  exact hdue.2

@[simp] theorem Operation.submit_operationId (o : Operation) (s : Statement) (r : Outbox) :
    (o.submit s r).operationId = o.operationId := by
  unfold Operation.submit
  split <;> rfl

theorem claimOwnerOperation_commits {p : ClaimArgs} {v : Option Claimed}
    (h : claimOwnerOperation D s p db = .ok (db', v)) :
    Commits (db.scene s) (.claim p) db db' := by
  simp only [claimOwnerOperation, bind_eq_ok, raiseIf_eq_ok] at h
  obtain ⟨_, hvalid, _, hcapable, h⟩ := h
  split at h
  · cases h; exact .refl
  next r hnext =>
    obtain ⟨hmem, o, ho, hclaimable⟩ := nextClaim_eq_some hnext
    simp only [ho, bind_eq_ok, pure_eq_ok] at h
    obtain ⟨db₁, h₁, db₂, h₂, db₃, h₃, heq⟩ := h
    cases heq
    obtain ⟨-, hkey⟩ := Table.lookup_eq_some.mp ho
    have hid : r.operationId = o.operationId := Option.some.inj hkey
    have hop := case_of_lookup ho
    have hrow : (db.case o.operationId).Row r := by
      rw [← hid]
      exact ⟨Db.mem_case_outbox.mpr hmem, fun x hx hk =>
        Db.case_outbox_key (Db.mem_case_outbox.mpr hmem) hx hk⟩
    have w₁ := putOutbox_writes h₁ hid hrow.1 rfl
    have w₂ := w₁.trans (putOperation_writes h₂ (o.submit_operationId ..) (w₁.op hop))
    obtain ⟨e, hfrom, w₃⟩ := appendEvent_writes h₃ (congrArg some (o.submit_operationId ..))
    -- the two guards leave no other owner and no other actions
    have hworker : p.workerId ≠ none := isNull_passed (any_ne_true hvalid _ (by simp))
    have howner : p.ownerRef = some "C_EXT" := by
      cases hc : p.ownerRef with
      | none =>
          have hshort := any_ne_true hvalid
            (some (decide (textLength (btrim (coalesce p.ownerRef "")) < 1))) (by simp)
          rw [hc] at hshort
          exact absurd (by decide) hshort
      | some a =>
          rw [ne_passed (mt (Or.inl) (mt (Cond.or_eq_true _ _).mpr hcapable)) hc rfl]
    have hactions : p.supportedActions = some (extensionActions.map some) := by
      cases hc : p.supportedActions with
      | none =>
          have hshort := any_ne_true hvalid
            (some (decide ((p.supportedActions.getD []).length < 1))) (by simp)
          rw [hc] at hshort
          exact absurd (by decide) hshort
      | some a =>
          rw [ne_passed (mt (Or.inr) (mt (Cond.or_eq_true _ _).mpr hcapable)) hc rfl]
    exact .of_writes (w₂.trans w₃)
      (.claim hop hrow hclaimable hworker howner hactions hfrom.action)

theorem renewOwnerClaim_commits {p : RenewArgs} {v : Option Timestamp}
    (h : renewOwnerClaim s p db = .ok (db', v)) : Commits (db.scene s) (.renew p) db db' := by
  simp only [renewOwnerClaim, bind_eq_ok, orRaise_eq_ok, raiseIf_eq_ok, pure_eq_ok] at h
  obtain ⟨_, -, r, hr, _, hguard, db₁, h₁, heq⟩ := h
  cases heq
  obtain ⟨hmem, -⟩ := Table.lookup_eq_some.mp hr
  have hrenewable : renewable s p db r = some true := by
    simpa using decided_passed hguard
  have hall := (Cond.all_eq_true _).mp hrenewable
  obtain ⟨u, howner, hworker⟩ := (eq_eq_true _ _).mp (hall (eq r.claimOwner p.workerId) (by simp))
  obtain ⟨n, hn, hepoch⟩ :=
    (eq_eq_true _ _).mp (hall (eq (some r.claimEpoch) p.claimEpoch) (by simp))
  have hdelivered := (isNull_eq_true _).mp (hall (isNull r.deliveredAt) (by simp))
  have hrow : (db.case r.operationId).Row r :=
    ⟨Db.mem_case_outbox.mpr hmem, fun x hx hk =>
      Db.case_outbox_key (Db.mem_case_outbox.mpr hmem) hx hk⟩
  exact .of_writes (putOutbox_writes h₁ rfl hrow.1 rfl)
    (.renew hrow hdelivered (howner.trans hworker.symm) (hepoch.trans hn.symm))

end Functions

end Authority
