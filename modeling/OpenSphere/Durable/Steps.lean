import OpenSphere.Durable.System

/-!
# Steps of the ledger

What a request or a change from outside can do to the rows.  Every later row is one of before that
took a step, or one that was accepted, and the history only grows.
-/

open Sql
open System (Setting Pool Move Task)

namespace Durable

variable {w w' : Ledger} {r : Row} {who : Option Query}

/-! ## Rows -/

/-- What the answer to a request, or a change from outside, can do to a row. -/
inductive Row.Step (now : Timestamp) : Option Query → Row → Row → Prop where
  | same (who : Option Query) (r : Row) : Row.Step now who r r
  | released (nextAttemptAt : Timestamp) {r : Row} (h : r.phase = .awaitingApproval) :
      Row.Step now none r { r with phase := .queued, executionState := .accepted, nextAttemptAt }
  | expired (c : Claimant) (limit : Int) {r : Row} (hphase : r.phase.expires = true)
      (hdue : r.overdue now = true) :
      Row.Step now (some ⟨c, .claim limit⟩) r { r with phase := .timedOut, executionState := .timedOut }
  | claimed (c : Claimant) (limit : Int) {r : Row} (hphase : r.phase.claimable = true)
      (hattempt : r.nextAttemptAt ≤ now) : Row.Step now (some ⟨c, .claim limit⟩) r (r.claim c now)
  | beat (who : Option Query) {r : Row} (until_ : Timestamp) :
      Row.Step now who r { r with leaseExpiresAt := some until_ }
  | intended (c : Claimant) (key : String) {r : Row} :
      Row.Step now (some ⟨c, .recordDownstreamIntent r.operationId key⟩) r
        { r with downstreamIdempotencyKey := some key }
  | stored (c : Claimant) (next : WorkerPhase) (p : Phase × ExecutionState) (v : VerificationState)
      {r : Row} (hp : phaseToDb next = some p) (hheld : r.heldBy c = true) :
      Row.Step now (some ⟨c, .setPhase r.operationId next⟩) r
        { r with phase := p.1, executionState := p.2, verificationState := v }

theorem Row.Step.operationId {now : Timestamp} {r' : Row}
    (h : Row.Step now who r r') : r'.operationId = r.operationId := by
  cases h <;> rfl

structure Row.Fresh (now : Timestamp) (r : Row) : Prop where
  terms : r.terms.acceptable = true
  phase : r.phase = .queued ∨ r.phase = .awaitingApproval
  claimOwner : r.claimOwner = none

/-! ## Ledgers -/

def Ledger.Distinct (w : Ledger) : Prop := (w.rows.map Row.operationId).Nodup

theorem distinct_advance (hw : w.Distinct) (elapsed : Nat) : (w.advance elapsed).Distinct := hw

/-- What the answer to a request, or a change from outside, can do to the ledger. -/
structure Ledger.Step (who : Option Query) (w w' : Ledger) : Prop where
  clock : w.clock ≤ w'.clock
  rows : ∃ (f : Row → Row) (fresh : List Row), w'.rows = w.rows.map f ++ fresh ∧
    (∀ r ∈ w.rows, Row.Step w'.clock who r (f r)) ∧ ∀ r ∈ fresh, r.Fresh w'.clock
  distinct : w'.Distinct

theorem mem_of_row {id : Uuid} (h : w.row id = some r) :
    r ∈ w.rows ∧ r.operationId = id :=
  ⟨List.mem_of_find?_eq_some h, by simpa using List.find?_some h⟩

theorem row_of_mem (hw : w.Distinct) (hr : r ∈ w.rows) :
    w.row r.operationId = some r := by
  cases hfound : w.row r.operationId with
  | none =>
      have hnone := List.find?_eq_none.mp hfound r hr
      simp at hnone
  | some r' =>
      obtain ⟨hmem, hid⟩ := mem_of_row hfound
      rw [List.inj_on_of_nodup_map hw hmem hr hid]

theorem row_update {f : Row → Row} (hf : ∀ r, (f r).operationId = r.operationId)
    (id : Uuid) : (w.update f).row id = (w.row id).map f := by
  show (w.rows.map f).find? _ = _
  rw [List.find?_map]
  refine congrArg (Option.map f) (congrArg (List.find? · w.rows) (funext fun r => ?_))
  rw [Function.comp_apply, hf]

theorem Ledger.Step.row (h : Ledger.Step who w w') {id : Uuid}
    (hr : w.row id = some r) : ∃ r', w'.row id = some r' ∧ Row.Step w'.clock who r r' := by
  obtain ⟨f, fresh, hrows, hstep, -⟩ := h.rows
  obtain ⟨hmem, hid⟩ := mem_of_row hr
  have hf := hstep r hmem
  have hmem' : f r ∈ w'.rows := by
    rw [hrows]
    exact List.mem_append_left _ (List.mem_map_of_mem hmem)
  refine ⟨f r, ?_, hf⟩
  rw [← hid, ← hf.operationId]
  exact row_of_mem h.distinct hmem'

theorem Ledger.Step.before (h : Ledger.Step who w w')
    (hw : w.Distinct) {id : Uuid} {r' : Row} (hr' : w'.row id = some r') :
    (∃ r, w.row id = some r ∧ Row.Step w'.clock who r r') ∨ r'.Fresh w'.clock := by
  obtain ⟨f, fresh, hrows, hstep, hfresh⟩ := h.rows
  obtain ⟨hmem, hid⟩ := mem_of_row hr'
  rw [hrows] at hmem
  rcases List.mem_append.mp hmem with hold | hnew
  · obtain ⟨r, hr, rfl⟩ := List.mem_map.mp hold
    have hf := hstep r hr
    refine .inl ⟨r, ?_, hf⟩
    rw [← hid, hf.operationId]
    exact row_of_mem hw hr
  · exact .inr (hfresh _ hnew)

theorem Ledger.Step.of_map {f : Row → Row}
    (hw : w.Distinct) (hclock : w.clock ≤ w'.clock) (hrows : w'.rows = w.rows.map f)
    (hf : ∀ r ∈ w.rows, Row.Step w'.clock who r (f r)) : Ledger.Step who w w' := by
  refine ⟨hclock, ⟨f, [], by rw [hrows, List.append_nil], hf, fun r hr => absurd hr List.not_mem_nil⟩, ?_⟩
  have hids : w'.rows.map Row.operationId = w.rows.map Row.operationId := by
    rw [hrows, List.map_map]
    exact List.map_congr_left fun r hr => (hf r hr).operationId
  exact (congrArg List.Nodup hids).mpr hw

theorem Ledger.Step.of_rows (hw : w.Distinct)
    (hclock : w.clock ≤ w'.clock) (hrows : w'.rows = w.rows) : Ledger.Step who w w' :=
  .of_map (f := id) hw hclock (by rw [hrows, List.map_id]) fun r _ => .same who r

/-! ## Claims -/

theorem expire_step (c : Claimant) (limit : Int) {now : Timestamp} (r : Row) :
    Row.Step now (some ⟨c, .claim limit⟩) r (r.expire now) := by
  unfold Row.expire
  split
  next h =>
    simp only [Bool.and_eq_true] at h
    exact .expired c limit h.2 h.1.1
  next => exact .same _ r

theorem expire_operationId {now : Timestamp} (r : Row) : (r.expire now).operationId = r.operationId :=
  (expire_step ⟨"", 0⟩ 0 r).operationId

theorem candidate_of_selected (hw : w.Distinct) {limit : Int} (hr : r ∈ w.rows)
    (h : r.operationId ∈ w.selected limit) : w.candidate r = true := by
  obtain ⟨r', hr', hid⟩ := List.mem_map.mp h
  have hmem := List.mem_filter.mp ((List.mem_insertionSort _).mp (List.mem_of_mem_take hr'))
  rw [← List.inj_on_of_nodup_map hw hmem.1 hr hid]
  exact hmem.2

theorem distinct_expire (hw : w.Distinct) : w.expire.Distinct := by
  have hids : w.expire.rows.map Row.operationId = w.rows.map Row.operationId := by
    rw [Ledger.expire, Ledger.update, List.map_map]
    exact List.map_congr_left fun r _ => expire_operationId r
  exact (congrArg List.Nodup hids).mpr hw

theorem not_candidate_of_expired (h : w.candidate (r.expire w.clock) = true) :
    r.expire w.clock = r := by
  unfold Row.expire at h ⊢
  split
  next hdue =>
    rw [if_pos hdue] at h
    simp [Ledger.candidate, Phase.claimable] at h
  next => rfl

theorem claim_step (hw : w.Distinct) (c : Claimant) (limit : Int) :
    Ledger.Step (some ⟨c, .claim limit⟩) w (w.claim c limit).2 := by
  unfold Ledger.claim
  split
  · exact .of_rows hw le_rfl rfl
  · refine .of_map (f := fun r => if (w.expire.selected limit).contains r.operationId then
        (r.expire w.clock).claim c w.clock else r.expire w.clock) hw le_rfl ?_ fun r hr => ?_
    · show ((w.rows.map (Row.expire w.clock)).map _) = _
      rw [List.map_map]
      refine List.map_congr_left fun r _ => ?_
      simp only [Function.comp, expire_operationId]
      rfl
    · dsimp only
      split
      next hselected =>
        have hmem : r.expire w.clock ∈ w.expire.rows := List.mem_map_of_mem hr
        have hin : (r.expire w.clock).operationId ∈ w.expire.selected limit := by
          rw [expire_operationId]
          exact List.contains_iff_mem.mp hselected
        have hcandidate := candidate_of_selected (distinct_expire hw) hmem hin
        have hsame := not_candidate_of_expired (w := w) hcandidate
        rw [hsame] at hcandidate ⊢
        simp only [Ledger.candidate, Bool.and_eq_true, decide_eq_true_eq] at hcandidate
        exact .claimed c limit hcandidate.1.1.1.1.2 hcandidate.1.1.1.2
      next => exact expire_step c limit r

/-! ## Requests and changes -/

theorem heartbeat_step (hw : w.Distinct) (who : Option Query) (c : Claimant) (id : Uuid) :
    Ledger.Step who w (w.heartbeat c id).2 := by
  refine .of_map (f := Row.beat c id w.clock) hw le_rfl rfl fun r _ => ?_
  unfold Row.beat
  split
  · exact .beat who _
  · exact .same who r

theorem setPhase_step (hw : w.Distinct) (c : Claimant) (id : Uuid) (next : WorkerPhase) :
    Ledger.Step (some ⟨c, .setPhase id next⟩) w (w.setPhase c id next).2 := by
  unfold Ledger.setPhase
  split
  · exact .of_rows hw le_rfl rfl
  next p hp =>
    split
    · refine .of_map (f := Row.store c id next p) hw le_rfl rfl fun r _ => ?_
      unfold Row.store
      split
      next hclaimed =>
        simp only [Row.claimed, Bool.and_eq_true, decide_eq_true_eq] at hclaimed
        exact hclaimed.1 ▸ .stored c next p _ hp hclaimed.2
      next => exact .same _ r
    · exact .of_rows hw le_rfl rfl

theorem intend_step (hw : w.Distinct) (c : Claimant) (id : Uuid) (key : String) :
    Ledger.Step (some ⟨c, .recordDownstreamIntent id key⟩) w (w.recordDownstreamIntent c id key).2 := by
  unfold Ledger.recordDownstreamIntent
  split
  · refine .of_map (f := Row.intend c id key) hw le_rfl rfl fun r _ => ?_
    unfold Row.intend
    split
    next hclaimed =>
      simp only [Row.claimed, Bool.and_eq_true, decide_eq_true_eq] at hclaimed
      exact hclaimed.1 ▸ .intended c key
    next => exact .same _ r
  · exact .of_rows hw le_rfl rfl

theorem Ledger.Step.advanced {elapsed : Nat}
    (h : Ledger.Step who (w.advance elapsed) w') : Ledger.Step who w w' :=
  ⟨le_trans (Int.le_add_of_nonneg_right (Int.natCast_nonneg elapsed)) h.clock, h.rows, h.distinct⟩

theorem answer_step (hw : w.Distinct) (e : Turn) (q : Query) :
    Ledger.Step (some q) w (answer e q w).2 := by
  have hw' : (w.advance e.elapsed).Distinct := hw
  have hsame : ∀ {w' : Ledger}, w'.clock = w.clock + e.elapsed → w'.rows = w.rows →
      Ledger.Step (some q) w w' := fun hclock hrows =>
    .of_rows hw (by rw [hclock]; exact Int.le_add_of_nonneg_right (Int.natCast_nonneg _)) hrows
  have hdatabase : ∀ {α : Type} {x : Except Failure α × Ledger},
      Ledger.Step (some q) (w.advance e.elapsed) x.2 →
        Ledger.Step (some q) w (e.database (w.advance e.elapsed) x).2 := by
    intro α x hx
    unfold Turn.database
    split
    · exact hx.advanced
    · exact hx.advanced
    · exact hsame rfl rfl
  obtain ⟨c, a⟩ := q
  cases a with
  | claim limit => exact hdatabase (claim_step hw' c limit)
  | heartbeat id => exact hdatabase (heartbeat_step hw' _ c id)
  | setPhase id phase => exact hdatabase (setPhase_step hw' c id phase)
  | recordDownstreamIntent id key => exact hdatabase (intend_step hw' c id key)
  | _ => exact hsame rfl rfl

theorem accept_step (hw : w.Distinct) (id : Uuid) {terms : Terms}
    (hterms : terms.acceptable = true) : Ledger.Step none w (w.accept id terms) := by
  unfold Ledger.accept
  split
  · exact .of_rows hw le_rfl rfl
  next hnew =>
    simp only [List.any_eq_true, Bool.or_eq_true, decide_eq_true_eq, not_exists, not_and, not_or]
      at hnew
    refine ⟨le_rfl, ⟨fun r => r, _, by rw [List.map_id'], fun r _ => .same _ r, ?_⟩, ?_⟩
    · intro r hr
      obtain rfl := List.mem_singleton.mp hr
      refine ⟨hterms, ?_, rfl⟩
      dsimp only
      split
      · exact .inr rfl
      · exact .inl rfl
    · rw [Ledger.Distinct, List.map_append]
      refine List.nodup_append.mpr ⟨hw, List.nodup_singleton _, ?_⟩
      intro x hx y hy
      obtain ⟨r, hr, rfl⟩ := List.mem_map.mp hx
      obtain rfl := List.mem_singleton.mp hy
      exact (hnew r hr).1

theorem change_step (hw : w.Distinct) (x : Nat × Outside) :
    Ledger.Step none w (change x w) := by
  have hw' : (w.advance x.1).Distinct := hw
  obtain ⟨elapsed, x⟩ := x
  suffices h : Ledger.Step none (w.advance elapsed) (change (elapsed, x) w) from h.advanced
  cases x with
  | accept id terms =>
      show Ledger.Step none _ (if terms.acceptable then (w.advance elapsed).accept id terms else _)
      split
      next hterms => exact accept_step hw' id hterms
      next => exact .of_rows hw' le_rfl rfl
  | approve a =>
      show Ledger.Step none _ ((w.advance elapsed).approve a)
      unfold Ledger.approve
      split
      · exact .of_rows hw' le_rfl rfl
      · exact .of_rows hw' le_rfl rfl
  | revoke id approverId => exact .of_rows hw' le_rfl rfl
  | queue id nextAttemptAt =>
      refine .of_map (f := Row.queue id nextAttemptAt) hw' le_rfl rfl fun r _ => ?_
      unfold Row.queue
      split
      next h =>
        simp only [Bool.and_eq_true, decide_eq_true_eq] at h
        exact .released nextAttemptAt h.2
      next => exact .same none r
  | heartbeat c id => exact heartbeat_step hw' none c id

end Durable
