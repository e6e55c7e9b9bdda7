import OpenSphere.Lifecycle.Stage

/-!
# Separation of duties

An operation that requires approval leaves Planned by an approval only, and the
approver is another subject and another person than the initiator.  The person of
a subject is looked up in the identity tables; since no function changes it, an
approval that was independent when it was recorded stays so.
-/

open Sql

namespace Authority

variable {w : Scene} {l : Label} {c c' : Case} {o o' : Operation}

/-! ## Approvals of one case -/

theorem Approval.Independent.later {person person' : Uuid → Option Uuid} {a : Approval}
    (h : a.Independent person o) (hlater : o.Later o')
    (hperson : ∀ u p, person u = some p → person' u = some p) : a.Independent person' o' := by
  obtain ⟨p, q, hp, hq, hne⟩ := h.person
  refine ⟨?_, ?_, ?_, p, q, hperson _ _ hp, ?_, hne⟩
  · rw [h.operationId, hlater.operationId]
  · rw [h.approvalRevision, hlater.planRevision]
  · rw [hlater.actorRef]
    exact h.actorRef
  · rw [hlater.actorRef]
    exact hperson _ _ hq

/-- An operation that has left Planned was approved, if it had to be. -/
def Case.Approved (person : Uuid → Option Uuid) (c : Case) : Prop :=
  ∀ o, c.op = some o → o.approvalRequired = true → o.state ≠ .planned →
    ∃ a ∈ c.approvals, a.Independent person o

theorem Case.Approved.mono {person person' : Uuid → Option Uuid}
    (h : c.Approved person) (hperson : ∀ u p, person u = some p → person' u = some p) :
    c.Approved person' := by
  intro o ho hreq hstate
  obtain ⟨a, ha, hind⟩ := h o ho hreq hstate
  exact ⟨a, ha, hind.later (.refl o) hperson⟩

theorem Case.Step.leaves_planned (h : Case.Step w l c c')
    (ho : c.op = some o) (hreq : o.approvalRequired = true)
    (hplanned : o.state = .planned) (ho' : c'.op = some o') (hleft : o'.state ≠ .planned) :
    l = .approve ∧ ∃ a ∈ c'.approvals, a.Independent w.person o := by
  have hsame : ∀ {q}, c.op = some q → q = o := fun hq => Option.some.inj (hq.symm.trans ho)
  cases h with
  | accept hop => exact absurd (hop.symm.trans ho) nofun
  | approve hop _ _ ha =>
      cases hsame hop
      exact ⟨rfl, _, List.mem_append_right _ (List.mem_singleton_self _), ha⟩
  | claim hop =>
      cases hsame hop
      cases ho'
      -- a claim moves Authorized operations only
      unfold Operation.submit at hleft
      split at hleft
      next hauthorized => exact absurd (hplanned.symm.trans hauthorized.2) nofun
      next => exact absurd hplanned hleft
  | renew | propose =>
      rw [ho] at ho'
      cases ho'
      exact absurd hplanned hleft
  | apply hop hrow hfence haction hstate =>
      cases hsame hop
      rw [hplanned] at hstate
      simp at hstate
  | observe hop hrow hfence hstate | verify hop hstate | merge hop _ _ hstate =>
      cases hsame hop
      exact absurd (hplanned.symm.trans hstate) nofun
  | fail hop hrow hfence hmatch =>
      cases hsame hop
      rcases failureMismatch_passed hmatch with ⟨-, hstate⟩ | ⟨-, hstate⟩
      · rw [hplanned] at hstate
        simp at hstate
      · exact absurd (hplanned.symm.trans hstate) nofun
  | credential hop hbroker =>
      cases hsame hop
      exact absurd (hreq.symm.trans (outsideCredentialBroker_passed hbroker).2.2) nofun

/-- No step takes an operation back to Planned. -/
theorem Case.Step.planned_before (h : Case.Step w l c c')
    (ho : c.op = some o) (ho' : c'.op = some o') (hplanned : o'.state = .planned) :
    o.state = .planned := by
  have hsame : ∀ {q}, c.op = some q → q = o := fun hq => Option.some.inj (hq.symm.trans ho)
  cases h with
  | accept hop => exact absurd (hop.symm.trans ho) nofun
  | claim hop =>
      cases hsame hop
      cases ho'
      unfold Operation.submit at hplanned
      split at hplanned
      · cases hplanned
      · exact hplanned
  | renew | propose =>
      rw [ho] at ho'
      cases ho'
      exact hplanned
  | observe hop hrow hfence hstate hx hobserved =>
      cases hsame hop
      cases ho'
      cases hobserved with
      | removal => exact hplanned
      | install =>
          unfold Operation.observe at hplanned
          split at hplanned
          · cases hplanned
          · exact hplanned
  | @fail _ _ _ _ _ p =>
      cases ho'
      change p.state = .planned at hplanned
      unfold FailureArgs.state at hplanned
      split at hplanned <;> cases hplanned
  | @credential _ _ outcome =>
      cases ho'
      cases outcome <;> cases hplanned
  | _ =>
      cases ho'
      cases hplanned

theorem Case.Step.approved (h : Case.Step w l c c')
    (hc : c.Approved w.person) : c'.Approved w.person := by
  intro o' ho' hreq hstate
  cases ho : c.op with
  | none =>
      have hinit := (h.initial ho ho').state
      rw [if_pos hreq] at hinit
      exact absurd hinit hstate
  | some o =>
      obtain ⟨q, hq, hlater⟩ := h.later.op o ho
      rw [ho'] at hq
      cases hq
      have hreq' : o.approvalRequired = true := hlater.approvalRequired.symm.trans hreq
      by_cases hplanned : o.state = .planned
      · obtain ⟨-, a, ha, hind⟩ := h.leaves_planned ho hreq' hplanned ho' hstate
        exact ⟨a, ha, hind.later hlater fun _ _ hp => hp⟩
      · obtain ⟨a, ha, hind⟩ := hc o ho hreq' hplanned
        exact ⟨a, h.later.approvals a ha, hind.later hlater fun _ _ hp => hp⟩

/-! ## All cases -/

theorem reach_approved (D : Digest) (i : Identity) (as : List Action) (id : Uuid) :
    ((reach D i as).case id).Approved (reach D i as).person := by
  have hfresh : ∀ id, ((Db.fresh i).case id).Approved (Db.fresh i).person :=
    fun _ _ ho => absurd ho nofun
  refine System.run_invariant (I := fun db : Db => ∀ id, (db.case id).Approved db.person) ?_
    hfresh as id
  intro a db hI id
  have hperson := (perform_later D a db).person
  rcases perform_cases D a db with ⟨hsame, -⟩ | ⟨s, c, rfl, hcommits⟩
  · rw [hsame]
    exact (hI id).mono hperson
  · refine Case.Approved.mono ?_ hperson
    exact hcommits.cases.relation (Q := fun c c' => c.Approved db.person → c'.Approved db.person)
      (fun _ hc => hc) (fun _ _ hstep => hstep.approved) id (hI id)

theorem label_eq_approve {c : Call} (h : c.label = .approve) :
    (∃ p, c = .approveOperation p) ∨ ∃ p, c = .approveDevelopmentModuleInstall p := by
  cases c <;> cases h
  · exact .inl ⟨_, rfl⟩
  · exact .inr ⟨_, rfl⟩

/-- **Separation of duties.**  In every reachable database an operation that
requires approval and is not Planned has an approval of its plan by another
subject who is another person; and only the two approval functions take such an
operation out of Planned. -/
theorem separation_of_duties (D : Digest) (i : Identity) (as : List Action) :
    (∀ o ∈ (reach D i as).operations.rows, o.approvalRequired = true → o.state ≠ .planned →
      ∃ a ∈ (reach D i as).approvals.rows, a.Independent (reach D i as).person o) ∧
    (∀ a, ∀ o ∈ (reach D i as).operations.rows, o.approvalRequired = true → o.state = .planned →
      ∀ o' ∈ (perform D a (reach D i as)).operations.rows, o'.operationId = o.operationId →
        o'.state ≠ .planned →
        ∃ s p, a = .call s (.approveOperation p) ∨
          a = .call s (.approveDevelopmentModuleInstall p)) := by
  constructor
  · intro o ho hreq hstate
    obtain ⟨a, ha, hind⟩ := reach_approved D i as o.operationId o (Db.case_op.mpr ho) hreq hstate
    exact ⟨a, (List.mem_filter.mp ha).1, hind⟩
  · intro a o ho hreq hplanned o' ho' hid hleft
    have hop := Db.case_op.mpr ho
    have hop' : ((perform D a (reach D i as)).case o.operationId).op = some o' :=
      Db.case_op_eq_some.mpr ⟨ho', hid⟩
    rcases perform_cases D a (reach D i as) with ⟨hsame, -⟩ | ⟨s, c, rfl, hcommits⟩
    · rw [hsame, hop] at hop'
      cases hop'
      exact absurd hplanned hleft
    · have hlabel := hcommits.cases.relation
        (Q := fun k k' => k.op = some o → k'.op = some o' → c.label = .approve)
        (fun k hk hk' => by
          rw [hk] at hk'
          cases hk'
          exact absurd hplanned hleft)
        (fun _ _ hstep hk hk' => (hstep.leaves_planned hk hreq hplanned hk' hleft).1)
        o.operationId hop hop'
      rcases label_eq_approve hlabel with ⟨p, rfl⟩ | ⟨p, rfl⟩
      · exact ⟨s, p, .inl rfl⟩
      · exact ⟨s, p, .inr rfl⟩

end Authority
