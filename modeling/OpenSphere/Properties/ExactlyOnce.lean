import OpenSphere.Lifecycle.Stage

/-!
# Exactly-once effects

No operation is dispatched, applied or verified twice.  None of the tables has a
constraint for it: a dispatch row is inserted at acceptance or at approval, a
receipt by whoever holds the claim, and only the stages of the operation keep the
functions from doing either a second time.  What is unique by stage, the
verification looks up without ordering or limit.
-/

open Sql

namespace Authority

/-! ## One case -/

/-- No stage has two dispatch rows, or two receipts of a phase. -/
theorem Stage.le_one {o : Operation} {ds os : List Bool} {m n : Nat} (h : Stage o ds os m n) :
    ds.length ≤ 1 ∧ m ≤ 1 ∧ n ≤ 1 := by
  cases h <;> simp

namespace Case.Inv

variable {c : Case}

theorem dispatches_le_one (hc : c.Inv) : (delivered dispatchTypes c.outbox).length ≤ 1 := by
  cases hop : c.op with
  | none => simp [hc.empty hop, Case.empty]
  | some o =>
      by_cases howner : o.ownerRef = some "C_EXT"
      · exact (hc.stage o hop howner).le_one.1
      · exact (hc.foreign o hop howner).dispatches

/-- There is at most one receipt that an effect was applied, and at most one that
it was observed. -/
theorem receipts_le_one (hc : c.Inv) :
    receiptCount .applied c.receipts ≤ 1 ∧ receiptCount .verified c.receipts ≤ 1 := by
  cases hop : c.op with
  | none => simp [hc.empty hop, Case.empty, receiptCount]
  | some o =>
      by_cases howner : o.ownerRef = some "C_EXT"
      · exact (hc.stage o hop howner).le_one.2
      · simp [(hc.foreign o hop howner).receipts, receiptCount]

end Case.Inv

/-! ## Counting in the tables -/

theorem dispatches_eq (db : Db) (id : Uuid) :
    db.outbox.rows.countP (fun r =>
        decide (r.operationId = id ∧ r.eventType = .operationReadyForDispatch)) =
      (delivered dispatchTypes (db.case id).outbox).length := by
  simp only [delivered, List.length_map, Db.case, List.filter_filter, List.countP_eq_length_filter]
  congr 1
  refine List.filter_congr fun r _ => ?_
  simp [dispatchTypes, Bool.and_comm]

theorem receipts_eq (db : Db) (id : Uuid) (phase : Phase) :
    db.receipts.rows.countP (fun x => decide (x.operationId = id ∧ x.phase = phase)) =
      receiptCount phase (db.case id).receipts := by
  simp only [receiptCount, Db.case, List.countP_filter]
  refine List.countP_congr fun x _ => ?_
  simp [and_comm]

/-- At most one row has a value that a UNIQUE constraint speaks about. -/
theorem countP_le_one_of_clash {ρ κ : Type} [DecidableEq κ] {S : Schema ρ κ} {p : ρ → Bool}
    (h : ∀ a b, p a = true → p b = true → S.conflict a b = true) {rows : List ρ}
    (hkeyed : rows.Pairwise fun a b => S.conflict a b = false) : rows.countP p ≤ 1 := by
  induction rows with
  | nil => simp
  | cons a rows ih =>
      obtain ⟨hhead, htail⟩ := List.pairwise_cons.mp hkeyed
      rw [List.countP_cons]
      split
      next hp =>
        -- a second match would clash with this one
        have hnone : rows.countP p = 0 := by
          rw [List.countP_eq_zero]
          intro b hb hpb
          exact absurd (h a b hp hpb) (by rw [hhead b hb]; decide)
        omega
      next => exact ih htail

theorem lookups_unique {db : Db} {id : Uuid}
    (hreceipts : ∀ phase, phase = .applied ∨ phase = .verified →
      db.receipts.rows.countP (fun x => decide (x.operationId = id ∧ x.phase = phase)) ≤ 1) :
    (∀ phase also, phase = .applied ∨ phase = .verified →
      db.receipts.rows.countP (fun x => x.isOf id phase also) ≤ 1) ∧
    db.revocations.rows.countP (fun v => decide (v.operationId = id)) ≤ 1 := by
  refine ⟨fun phase also hphase => ?_, countP_le_one_of_clash (fun a b ha hb => ?_)
    db.revocations.keyed⟩
  · refine Nat.le_trans (List.countP_mono_left fun x _ hx => ?_) (hreceipts phase hphase)
    simp only [ExecutionReceipt.isOf, Bool.and_eq_true, decide_eq_true_eq] at hx ⊢
    exact ⟨hx.1.1.1, hx.1.2⟩
  · simp only [decide_eq_true_eq] at ha hb
    simp [Schema.conflict, revocationSchema, ha, hb]

/-- **Exactly-once effects.**  In every reachable database an operation has at
most one dispatch row, one Applied and one Verified receipt; a delivered outbox
row is found unchanged in every later database; and the lookups of a verification
find at most one row. -/
theorem exactly_once_effects (D : Digest) (i : Identity) (as : List Action) :
    (∀ id, (reach D i as).outbox.rows.countP (fun r =>
      decide (r.operationId = id ∧ r.eventType = .operationReadyForDispatch)) ≤ 1) ∧
    (∀ id phase, phase = .applied ∨ phase = .verified →
      (reach D i as).receipts.rows.countP (fun x =>
        decide (x.operationId = id ∧ x.phase = phase)) ≤ 1) ∧
    (∀ bs, ∀ r ∈ (reach D i as).outbox.rows, r.deliveredAt ≠ none →
      r ∈ (reach D i (as ++ bs)).outbox.rows ∧
      ∀ r' ∈ (reach D i (as ++ bs)).outbox.rows, r'.outboxId = r.outboxId → r' = r) ∧
    (∀ id, (∀ phase also, phase = .applied ∨ phase = .verified →
        (reach D i as).receipts.rows.countP (fun x => x.isOf id phase also) ≤ 1) ∧
      (reach D i as).revocations.rows.countP (fun v => decide (v.operationId = id)) ≤ 1) := by
  have hreceipts : ∀ id phase, phase = .applied ∨ phase = .verified →
      (reach D i as).receipts.rows.countP (fun x =>
        decide (x.operationId = id ∧ x.phase = phase)) ≤ 1 := by
    intro id phase hphase
    rw [receipts_eq]
    obtain ⟨happlied, hverified⟩ := (reach_inv D i as id).receipts_le_one
    rcases hphase with rfl | rfl
    · exact happlied
    · exact hverified
  refine ⟨fun id => ?_, hreceipts, fun bs r hr hdelivered => ?_, fun id =>
    lookups_unique (hreceipts id)⟩
  · rw [dispatches_eq]
    exact (reach_inv D i as id).dispatches_le_one
  · rw [reach_append]
    obtain ⟨r', hr', hlater⟩ := (run_later D bs (reach D i as)).row hr
    have hsame := hlater.delivered hdelivered
    subst hsame
    exact ⟨hr', fun x hx hkey => Table.eq_of_key_eq hx hr' hkey⟩

end Authority
