import OpenSphere.Lifecycle.Stage

/-!
# The authority refines the transition table

The functions of the database and `packages/domain` describe one lifecycle
twice.  Some functions take two edges of the table in one call, the observation
of a direct installation takes the edge of its verification along, and a merge
goes to Submitted without a claim; still every call moves an operation along a
path of the table, and the state version counts the edges.

The credential broker is left out: it has operations of its own, and takes an
Authorized one to Applied at once.
-/

open Sql
open Domain (Path canTransition_iff)

namespace Authority

/-- The operation goes along a path of the table, and its version counts the
edges. -/
def Operation.Advances (o o' : Operation) : Prop :=
  ∃ n : Nat, Path n o.state o'.state ∧ o'.stateVersion = o.stateVersion + n

namespace Operation.Advances

variable {o o' : Operation}

theorem refl (o : Operation) : o.Advances o := ⟨0, .nil _, by simp⟩

theorem trans {o'' : Operation} (h : o.Advances o') (h' : o'.Advances o'') : o.Advances o'' := by
  obtain ⟨m, hm, hv⟩ := h
  obtain ⟨n, hn, hv'⟩ := h'
  exact ⟨m + n, hm.append hn, by omega⟩

theorem edge {s : OperationState} (t : OperationState) (hstate : o.state = s) (hnext : o'.state = t)
    (hedge : t ∈ s.transitions) (hversion : o'.stateVersion = o.stateVersion + 1) :
    o.Advances o' := by
  refine ⟨1, .one ((canTransition_iff _ _).mpr ?_), by simpa using hversion⟩
  rw [hstate, hnext]
  exact hedge

end Operation.Advances

theorem Operation.reconcile_advances {o : Operation} {s : Statement}
    (h : o.state ∈ [.submitted, .reconciling, .unknown]) :
    o.Advances (o.reconcile s) ∧ (o.reconcile s).state = .reconciling := by
  unfold Operation.reconcile
  split
  next hstate => exact ⟨.refl o, hstate⟩
  next hstate =>
    refine ⟨?_, rfl⟩
    simp only [List.mem_cons, List.not_mem_nil, or_false] at h
    rcases h with h | h | h
    · exact .edge .reconciling h rfl (by decide) rfl
    · exact absurd h hstate
    · exact .edge .reconciling h rfl (by decide) rfl

/-- An operation of the extension controller or of the Git change owner. -/
def Operation.Typed (o : Operation) : Prop :=
  o.ownerRef = some "C_EXT" ∨ o.ownerRef = some "API_GIT"

theorem Case.Step.advances {w : Scene} {l : Label} {c c' : Case} (h : Case.Step w l c c')
    {o : Operation} (ho : c.op = some o) (htyped : o.Typed) :
    ∃ o', c'.op = some o' ∧ o.Advances o' := by
  -- the operation of the step is the operation of the case
  have hsame : ∀ {q}, c.op = some q → q = o := fun hq => Option.some.inj (hq.symm.trans ho)
  cases h with
  | accept hop =>
      rw [hop] at ho
      cases ho
  | approve hop hreq hstate =>
      cases hsame hop
      exact ⟨_, rfl, .edge .authorized hstate rfl (by decide) rfl⟩
  | claim hop =>
      cases hsame hop
      refine ⟨_, rfl, ?_⟩
      unfold Operation.submit
      split
      next hstate => exact .edge .submitted hstate.2 rfl (by decide) rfl
      next => exact .refl _
  | renew => exact ⟨o, ho, .refl o⟩
  | apply hop hrow hfence haction hstate =>
      cases hsame hop
      obtain ⟨hreconcile, hnow⟩ := Operation.reconcile_advances (s := w.s) hstate
      exact ⟨_, rfl, hreconcile.trans (.edge .applied hnow rfl (by decide) rfl)⟩
  | observe hop hrow hfence hstate hx hobserved =>
      cases hsame hop
      refine ⟨_, rfl, ?_⟩
      cases hobserved with
      | removal => exact .refl _
      | install =>
          unfold Operation.observe
          split
          · exact .edge .verified hstate rfl (by decide) rfl
          · exact .refl _
  | @fail _ _ r _ _ p hop hrow hfence hmatch =>
      cases hsame hop
      refine ⟨_, rfl, ?_⟩
      have hnext : p.state = .failed ∨ p.state = .unknown := by
        unfold FailureArgs.state
        split <;> simp
      have hstate : o.state = .submitted ∨ o.state = .reconciling ∨ o.state = .applied := by
        rcases failureMismatch_passed hmatch with ⟨-, h⟩ | ⟨-, h⟩
        · simp only [List.mem_cons, List.not_mem_nil, or_false] at h
          rcases h with h | h
          · exact .inl h
          · exact .inr (.inl h)
        · exact .inr (.inr h)
      rcases hstate with h | h | h <;> rcases hnext with h' | h' <;>
        exact .edge _ h h' (by decide) rfl
  | verify hop hstate =>
      cases hsame hop
      exact ⟨_, rfl, .edge .verified hstate rfl (by decide) rfl⟩
  | propose => exact ⟨o, ho, .refl o⟩
  | merge hop hreq happroved hstate =>
      cases hsame hop
      exact ⟨_, rfl, .edge .submitted hstate rfl (by decide) rfl⟩
  | credential hop hbroker =>
      cases hsame hop
      have howner := (outsideCredentialBroker_passed hbroker).1
      rcases htyped with h | h
      · exact absurd (howner _ h) (by decide)
      · exact absurd (howner _ h) (by decide)

/-- What a run does to the typed operations of a database. -/
def Db.Advances (db db' : Db) : Prop :=
  ∀ id o, (db.case id).op = some o → o.Typed →
    ∃ o', (db'.case id).op = some o' ∧ o.Later o' ∧ o.Advances o'

theorem perform_advances (D : Digest) (a : Action) (db : Db) : db.Advances (perform D a db) := by
  intro id o ho htyped
  obtain ⟨o', ho', hlater⟩ := ((perform_later D a db).case id).op o ho
  refine ⟨o', ho', hlater, ?_⟩
  rcases perform_cases D a db with ⟨hsame, -⟩ | ⟨s, c, rfl, hcommits⟩
  · rw [hsame, ho] at ho'
    cases ho'
    exact .refl o
  · -- either the case is the one of the step, or it is unchanged
    have hcase := hcommits.cases.relation
      (Q := fun c c' => ∀ q, c.op = some q → q.Typed → ∃ q', c'.op = some q' ∧ q.Advances q')
      (fun _ q hq _ => ⟨q, hq, .refl q⟩) (fun _ _ hstep q hq hq' => hstep.advances hq hq') id
    obtain ⟨q, hq, hadv⟩ := hcase o ho htyped
    rw [ho'] at hq
    cases hq
    exact hadv

theorem run_advances (D : Digest) (as : List Action) (db : Db) :
    db.Advances (System.run (perform D) as db) := by
  refine System.run_relation (fun db id o ho _ => ⟨o, ho, .refl o, .refl o⟩) ?_
    (perform_advances D) as db
  intro s t u h h' id o ho htyped
  obtain ⟨o', ho', hlater, hadv⟩ := h id o ho htyped
  have htyped' : o'.Typed := by
    unfold Operation.Typed
    rw [hlater.ownerRef]
    exact htyped
  obtain ⟨o'', ho'', hlater', hadv'⟩ := h' id o' ho' htyped'
  exact ⟨o'', ho'', hlater.trans hlater', hadv.trans hadv'⟩

/-! ## New operations -/

theorem perform_initial (D : Digest) (a : Action) {db : Db} {o : Operation}
    (hnew : (db.case o.operationId).op = none) (ho : o ∈ (perform D a db).operations.rows) :
    o.Initial := by
  have ho' := Db.case_op.mpr ho
  rcases perform_cases D a db with ⟨hsame, -⟩ | ⟨s, c, rfl, hcommits⟩
  · rw [hsame, hnew] at ho'
    cases ho'
  · exact hcommits.cases.relation (Q := fun c c' => c.op = none → ∀ q, c'.op = some q → q.Initial)
      (fun _ hnone _ hq => absurd (hnone.symm.trans hq) nofun)
      (fun _ _ hstep hnone _ hq => hstep.initial hnone hq) o.operationId hnew o ho'

/-- **Refinement of the transition table.**  Between any two points of a run an
operation of the extension controller or of the Git change owner goes along a
path of the table whose edges its state version counts, and it never leaves a
state the table ends in.  A new operation starts at version 0, Planned when it
requires approval and Authorized else. -/
theorem authority_refines_transitions (D : Digest) (i : Identity) (as bs : List Action) :
    (∀ o ∈ (reach D i as).operations.rows, o.Typed →
      ∃ o' ∈ (reach D i (as ++ bs)).operations.rows, o'.operationId = o.operationId ∧
        o.Advances o' ∧ (o.state.transitions = [] → o'.state = o.state)) ∧
    (∀ a, ∀ o ∈ (reach D i (as ++ [a])).operations.rows,
      (∀ q ∈ (reach D i as).operations.rows, q.operationId ≠ o.operationId) →
        o.stateVersion = 0 ∧ o.state = if o.approvalRequired then .planned else .authorized) := by
  constructor
  · intro o ho htyped
    rw [reach_append]
    obtain ⟨o', ho', hlater, hadv⟩ :=
      run_advances D bs (reach D i as) o.operationId o (Db.case_op.mpr ho) htyped
    refine ⟨o', (Db.case_op_eq_some.mp ho').1, hlater.operationId, hadv, fun hend => ?_⟩
    obtain ⟨n, hpath, -⟩ := hadv
    exact hpath.terminal hend
  · intro a o ho hnew
    rw [reach_snoc] at ho
    have hnone : ((reach D i as).case o.operationId).op = none := by
      cases hop : ((reach D i as).case o.operationId).op with
      | none => rfl
      | some q =>
          obtain ⟨hq, hid⟩ := Db.case_op_eq_some.mp hop
          exact absurd hid (hnew q hq)
    have hinit := perform_initial D a hnone ho
    exact ⟨hinit.stateVersion, hinit.state⟩

end Authority
