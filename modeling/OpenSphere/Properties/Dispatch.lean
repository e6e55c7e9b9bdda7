import OpenSphere.Properties.Fencing

/-!
# Dispatchability

An operation of the extension controller that waits for a worker has one dispatch
row, and it is open: a claim made when the lease is free picks this row or one
that stands before it.

A claim also looks for Unknown operations, but an operation becomes Unknown by a
failure, and that closes the row the worker held.  So an Unknown operation has a
delivered dispatch row and is claimed no more; the run at the end shows it.
-/

open Sql

namespace Authority

/-! ## The row a claim picks -/

theorem foldl_earlier_le_init (l : List Outbox) (b : Outbox) :
    ∃ x, l.foldl earlier (some b) = some x ∧ x.outboxId ≤ b.outboxId := by
  induction l generalizing b with
  | nil => exact ⟨b, rfl, Int.le_refl _⟩
  | cons y l ih =>
      simp only [List.foldl_cons, earlier]
      split
      next hlt =>
        obtain ⟨x, hx, hle⟩ := ih y
        exact ⟨x, hx, by omega⟩
      next => exact ih b

theorem foldl_earlier_le {l : List Outbox} {best : Option Outbox} {r : Outbox} (hr : r ∈ l) :
    ∃ x, l.foldl earlier best = some x ∧ x.outboxId ≤ r.outboxId := by
  induction l generalizing best with
  | nil => exact absurd hr (List.not_mem_nil)
  | cons y l ih =>
      rcases List.mem_cons.mp hr with rfl | hr
      · -- the row itself or something before it goes into the rest of the fold
        have hfirst : ∃ b, earlier best r = some b ∧ b.outboxId ≤ r.outboxId := by
          unfold earlier
          split
          · exact ⟨r, rfl, Int.le_refl _⟩
          · split
            · exact ⟨r, rfl, Int.le_refl _⟩
            next hnot => exact ⟨_, rfl, by omega⟩
        obtain ⟨b, hb, hble⟩ := hfirst
        obtain ⟨x, hx, hxle⟩ := foldl_earlier_le_init l b
        exact ⟨x, by rw [List.foldl_cons, hb, hx], Int.le_trans hxle hble⟩
      · exact ih hr

structure ClaimArgs.Typed (p : ClaimArgs) : Prop where
  ownerRef : p.ownerRef = some "C_EXT"
  supportedActions : p.supportedActions = some (extensionActions.map some)

/-- The lease of a row is free and no other transaction holds it. -/
structure Outbox.Free (r : Outbox) (s : Statement) : Prop where
  unlocked : r.outboxId ∉ s.locked
  lease : ∀ t, r.leaseExpiresAt = some t → t ≤ s.now

/-- An open dispatch row is due for a claim once its lease is free. -/
theorem claimable_of_open {s : Statement} {p : ClaimArgs} {r : Outbox} {o : Operation}
    (hp : p.Typed) (htype : r.eventType = .operationReadyForDispatch) (hopen : r.deliveredAt = none)
    (hfree : r.Free s) (howner : o.ownerRef = some "C_EXT") (haction : o.actionId ∈ extensionActions)
    (hgate : o.GateOpen) (hstate : o.state ∈ [.authorized, .submitted, .reconciling]) :
    claimable s p r o = some true := by
  have hlease : Cond.or (isNull r.leaseExpiresAt) (le r.leaseExpiresAt (some s.now)) = some true := by
    rw [Cond.or_eq_true, isNull_eq_true, le_eq_true]
    cases hlease : r.leaseExpiresAt with
    | none => exact .inl rfl
    | some t => exact .inr ⟨t, s.now, rfl, rfl, hfree.lease t hlease⟩
  have hmerged : Cond.or (isNull o.declarationBinding) (isNotNull o.declarationMergeRevision) =
      some true := by
    rw [Cond.or_eq_true, isNull_eq_true, isNotNull_eq_true]
    exact hgate
  have hsupported : Cond.any ((p.supportedActions.getD []).map fun a => eq (some o.actionId) a) =
      some true := by
    rw [hp.supportedActions, Cond.any_eq_true]
    refine ⟨_, List.mem_map_of_mem (List.mem_map_of_mem haction), ?_⟩
    exact (eq_eq_true _ _).mpr ⟨_, rfl, rfl⟩
  have hdue : Cond.and (some (decide (r.eventType = .operationReadyForDispatch)))
      (isIn (some o.state) [.authorized, .submitted, .reconciling, .unknown]) = some true := by
    rw [Cond.and_eq_true, isIn_eq_true]
    refine ⟨by rw [htype]; rfl, o.state, rfl, ?_⟩
    revert hstate
    simp only [List.mem_cons, List.not_mem_nil, or_false]
    tauto
  rw [claimable, Cond.all_eq_true]
  simp only [List.forall_mem_cons]
  refine ⟨by rw [htype]; rfl, by rw [hopen]; rfl, hlease, hmerged, ?_, hsupported, ?_,
    List.forall_mem_nil _⟩
  · rw [howner, hp.ownerRef]
    rfl
  · exact (Cond.any_eq_true _).mpr ⟨_, List.mem_cons_self .., hdue⟩

theorem nextClaim_le {s : Statement} {p : ClaimArgs} {db : Db} {r : Outbox}
    (h : r ∈ claimCandidates s p db) :
    ∃ b, nextClaim s p db = some b ∧ b.outboxId ≤ r.outboxId :=
  foldl_earlier_le h

/-! ## Dispatch rows -/

def Db.dispatchRows (db : Db) (id : Uuid) : List Outbox :=
  db.outbox.rows.filter fun r =>
    decide (r.operationId = id ∧ r.eventType = .operationReadyForDispatch)

theorem dispatchRow_of_delivered {db : Db} {id : Uuid} {b : Bool}
    (h : delivered dispatchTypes (db.case id).outbox = [b]) :
    ∃ r, db.dispatchRows id = [r] ∧ r.deliveredAt.isSome = b := by
  obtain ⟨r, hrows, hr⟩ := List.map_eq_singleton_iff.mp h
  refine ⟨r, ?_, hr⟩
  rw [← hrows, Db.dispatchRows, Db.case, List.filter_filter]
  refine List.filter_congr fun x _ => ?_
  simp [dispatchTypes, and_comm]

theorem Stage.waiting {o : Operation} {ds os : List Bool} {m n : Nat} (h : Stage o ds os m n)
    (hstate : o.state ∈ [.authorized, .submitted, .reconciling]) : ds = [false] := by
  simp only [List.mem_cons, List.not_mem_nil, or_false] at hstate
  cases h with
  | queued => rfl
  | _ => rcases hstate with hstate | hstate | hstate <;> simp_all

theorem Stage.unknown {o : Operation} {ds os : List Bool} {m n : Nat} (h : Stage o ds os m n)
    (hstate : o.state = .unknown) : ds = [true] := by
  cases h with
  | closed => rfl
  | abandoned => rfl
  | _ => simp_all

/-- **Dispatchability.**  In every reachable database each operation of the
extension controller that is Authorized, Submitted or Reconciling has exactly one
dispatch row and it is undelivered; when the gate of the operation is open and
the lease of the row is free, a claim picks it or a row before it.  An Unknown
operation has exactly one dispatch row too, and it is delivered. -/
theorem dispatchability (D : Digest) (i : Identity) (as : List Action) :
    ∀ o ∈ (reach D i as).operations.rows, o.ownerRef = some "C_EXT" →
      (o.state ∈ [.authorized, .submitted, .reconciling] →
        ∃ r, (reach D i as).dispatchRows o.operationId = [r] ∧ r.deliveredAt = none ∧
          (o.GateOpen → o.actionId ∈ extensionActions → ∀ s p, p.Typed → r.Free s →
            r ∈ claimCandidates s p (reach D i as) ∧
              ∃ b, nextClaim s p (reach D i as) = some b ∧ b.outboxId ≤ r.outboxId)) ∧
      (o.state = .unknown →
        ∃ r, (reach D i as).dispatchRows o.operationId = [r] ∧ r.deliveredAt ≠ none) := by
  intro o ho howner
  have hop := Db.case_op.mpr ho
  have hstage := (reach_inv D i as o.operationId).stage o hop howner
  constructor
  · intro hstate
    obtain ⟨r, hrows, hr⟩ := dispatchRow_of_delivered (hstage.waiting hstate)
    have hopen : r.deliveredAt = none := by simpa using hr
    refine ⟨r, hrows, hopen, fun hgate haction s p hp hfree => ?_⟩
    have hmem : r ∈ (reach D i as).dispatchRows o.operationId := by simp [hrows]
    obtain ⟨hrow, hsel⟩ := List.mem_filter.mp hmem
    obtain ⟨hid, htype⟩ := of_decide_eq_true hsel
    have hcandidate : r ∈ claimCandidates s p (reach D i as) := by
      have hlookup : (reach D i as).operations.lookup (some r.operationId) = some o := by
        rw [hid]
        exact hop
      refine List.mem_filter.mpr ⟨hrow, ?_⟩
      simp [hfree.unlocked, hlookup,
        claimable_of_open hp htype hopen hfree howner haction hgate hstate]
    exact ⟨hcandidate, nextClaim_le hcandidate⟩
  · intro hstate
    obtain ⟨r, hrows, hr⟩ := dispatchRow_of_delivered (hstage.unknown hstate)
    exact ⟨r, hrows, fun hnone => by simp [hnone] at hr⟩

namespace Demo

/-- The installation is accepted and claimed, and the worker loses track of it. -/
def lostRun : List Action := [
  .call (second 1) (.acceptOperation install),
  .call (second 2) (.claimOwnerOperation claim),
  .call (second 3) (.recordExecutionFailure
    ⟨firstClaim 1 ⟨101⟩, some "OwnerTimeout", some otherDigest, some "unknown"⟩)]

end Demo

/-- The accepted installation waits in an open dispatch row. -/
theorem dispatchability_accepted :
    ∃ r, (reach Demo.digest Demo.site (Demo.lostRun.take 1)).dispatchRows ⟨101⟩ = [r] ∧
      r.deliveredAt = none := by
  have hrun : ∃ o ∈ (reach Demo.digest Demo.site (Demo.lostRun.take 1)).operations.rows,
      o.operationId = ⟨101⟩ ∧ o.ownerRef = some "C_EXT" ∧
        o.state ∈ [.authorized, .submitted, .reconciling] := by
    decide +kernel
  obtain ⟨o, ho, hid, howner, hstate⟩ := hrun
  obtain ⟨r, hrows, hopen, -⟩ :=
    (dispatchability Demo.digest Demo.site (Demo.lostRun.take 1) o ho howner).1 hstate
  rw [hid] at hrows
  exact ⟨r, hrows, hopen⟩

/-- An Unknown operation without a Git gate has its dispatch row delivered. -/
theorem unknown_not_dispatchable :
    ∃ o ∈ (reach Demo.digest Demo.site Demo.lostRun).operations.rows,
      o.ownerRef = some "C_EXT" ∧ o.state = .unknown ∧ o.declarationBinding = none ∧
        ∀ r ∈ (reach Demo.digest Demo.site Demo.lostRun).dispatchRows o.operationId,
          r.deliveredAt ≠ none := by
  decide +kernel

end Authority
