import OpenSphere.Properties.Duties

/-!
# The Git gate

An operation that is bound to a Git declaration is not claimed, applied or
verified before its change was proposed and merged.  The gate is spread over the
functions: acceptance makes such an operation require approval, the merge needs
the approval and repeats the branch and pull request of the recorded proposal,
and a claim passes over a bound operation without a merged revision.  Everything
later goes through a claim.

Which proposal a merge was compared with is read from the audit ledger.  The
ledger of a bound operation holds no other event of that name, since the name of
its action is fixed.
-/

open Sql

namespace Authority

variable {o o' : Operation} {w : Scene} {c c' : Case} {e : Event} {p : GiteaArgs}

/-! ## Receipts -/

structure Event.Proposes (e : Event) (o : Operation) (p : GiteaArgs) : Prop where
  action : e.action = proposalAction
  branch : e.evidence.getText "branch" = p.branch
  pullNumber : e.evidence.getText "pullNumber" = p.pullNumber.map decimal
  named : p.branch = none ∨ p.branch = some ("control/" ++ o.operationId.text)

/-- A merge of the branch and the pull request of a proposal. -/
structure Event.Merges (m e : Event) : Prop where
  action : m.action = mergeAction
  branch : m.evidence.getText "branch" = e.evidence.getText "branch"
  pullNumber : m.evidence.getText "pullNumber" = e.evidence.getText "pullNumber"

theorem proposalEvidence_coordinates (p : GiteaArgs) (o : Operation) :
    (proposalEvidence p o).getText "branch" = p.branch ∧
      (proposalEvidence p o).getText "pullNumber" = p.pullNumber.map decimal := by
  constructor
  · rw [proposalEvidence, Jsonb.getText_object]
    exact asText_jsonText _
  · rw [proposalEvidence, Jsonb.getText_object]
    exact asText_jsonInt _

theorem mergeEvidence_coordinates (p : GiteaArgs) (o : Operation) :
    (mergeEvidence p o).getText "branch" = p.branch ∧
      (mergeEvidence p o).getText "pullNumber" = p.pullNumber.map decimal := by
  constructor
  · rw [mergeEvidence, Jsonb.getText_object]
    exact asText_jsonText _
  · rw [mergeEvidence, Jsonb.getText_object]
    exact asText_jsonInt _

/-- The pull request a merge reads from the proposal is the proposed one. -/
theorem castText_decimal {x y : Option Int}
    (h : castText "integer" castInteger (x.map decimal) = .ok y) : x = y := by
  cases x with
  | none =>
      cases h
      rfl
  | some n =>
      simp only [Option.map_some, castText] at h
      cases hcast : castInteger (decimal n) with
      | none => simp [hcast, orRaise, Except.map] at h
      | some m =>
          simp only [hcast, orRaise, Except.map, Except.ok.injEq] at h
          rw [← h, castInteger_decimal hcast]

/-! ## Bound operations of one case -/

structure Gated (o : Operation) (c : Case) : Prop where
  required : o.approvalRequired = true
  action : o.actionId = "console.extension.install"
  proposals : ∀ e ∈ c.events, e.action = proposalAction → ∃ p, e.Proposes o p
  merged : o.declarationMergeRevision ≠ none →
    ∃ e ∈ c.events, ∃ p, e.Proposes o p ∧ ∃ m ∈ c.events, m.Merges e
  applied : o.state ∈ [.applied, .verified] → o.declarationMergeRevision ≠ none
  planned : o.state = .planned → o.declarationMergeRevision = none

def Case.GitGated (c : Case) : Prop :=
  ∀ o, c.op = some o → o.declarationBinding ≠ none → Gated o c

theorem Event.Proposes.later (h : e.Proposes o p)
    (hlater : o.Later o') : e.Proposes o' p :=
  ⟨h.action, h.branch, h.pullNumber, by rw [hlater.operationId]; exact h.named⟩

/-- A step that adds no Git receipt and merges nothing. -/
theorem Gated.step {es : List Event} (h : Gated o c)
    (hlater : o.Later o') (hevents : c'.events = c.events ++ es)
    (hes : ∀ e ∈ es, e.action ≠ proposalAction)
    (hmerge : o'.declarationMergeRevision = o.declarationMergeRevision)
    (happlied : o'.state ∈ [.applied, .verified] → o.declarationMergeRevision ≠ none)
    (hplanned : o'.state = .planned → o.state = .planned) : Gated o' c' where
  required := hlater.approvalRequired.trans h.required
  action := hlater.actionId.trans h.action
  proposals e he hact := by
    rw [hevents] at he
    rcases List.mem_append.mp he with he | he
    · obtain ⟨p, hp⟩ := h.proposals e he hact
      exact ⟨p, hp.later hlater⟩
    · exact absurd hact (hes e he)
  merged hm := by
    rw [hmerge] at hm
    obtain ⟨e, he, p, hp, m, hmem, hmerges⟩ := h.merged hm
    rw [hevents]
    exact ⟨e, List.mem_append_left _ he, p, hp.later hlater, m, List.mem_append_left _ hmem, hmerges⟩
  applied hstate := by
    rw [hmerge]
    exact happlied hstate
  planned hstate := by
    rw [hmerge]
    exact h.planned (hplanned hstate)

theorem Gated.propose (h : Gated o c)
    (he : e.action = proposalAction) (hevidence : e.evidence = proposalEvidence p o)
    (hbranch : p.branch = none ∨ p.branch = some ("control/" ++ o.operationId.text)) :
    Gated o { c with events := c.events ++ [e] } where
  required := h.required
  action := h.action
  proposals e' he' hact := by
    rcases List.mem_append.mp he' with he' | he'
    · exact h.proposals e' he' hact
    · rw [List.mem_singleton.mp he']
      obtain ⟨hb, hp⟩ := proposalEvidence_coordinates p o
      exact ⟨p, he, by rw [hevidence, hb], by rw [hevidence, hp], hbranch⟩
  merged hm := by
    obtain ⟨e', he', p', hp', m, hmem, hmerges⟩ := h.merged hm
    exact ⟨e', List.mem_append_left _ he', p', hp', m, List.mem_append_left _ hmem, hmerges⟩
  applied := h.applied
  planned := h.planned

theorem Case.proposal_eq_some (h : c.proposal = some e) :
    e ∈ c.events ∧ e.action = proposalAction := by
  have haction := List.find?_some h
  exact ⟨List.mem_reverse.mp (List.mem_of_find?_eq_some h), by simpa using haction⟩

theorem Gated.merge {s : Statement}
    (h : Gated o c) (hrevision : p.revision ≠ none) (hproposal : Proposed.Matches c p)
    (he : e.action = mergeAction) (hevidence : e.evidence = mergeEvidence p (o.merge s p))
    (hsource : o.sourceRevision = none) :
    Gated (o.merge s p) { c with op := some (o.merge s p), events := c.events ++ [e] } := by
  obtain ⟨e₀, hlatest, hbranch, hpull⟩ := hproposal
  obtain ⟨hmem, hact⟩ := Case.proposal_eq_some hlatest
  obtain ⟨p₀, hp₀⟩ := h.proposals e₀ hmem hact
  rw [hp₀.pullNumber] at hpull
  have hsame := castText_decimal hpull
  have hlater := o.merge_later s hrevision hsource
  refine ⟨h.required, h.action, ?_, fun _ => ?_, ?_, nofun⟩
  · intro e' he' hact'
    rcases List.mem_append.mp he' with he' | he'
    · obtain ⟨p', hp'⟩ := h.proposals e' he' hact'
      exact ⟨p', hp'.later hlater⟩
    · rw [List.mem_singleton.mp he', he] at hact'
      exact absurd hact' (by decide)
  · obtain ⟨hb, hp⟩ := mergeEvidence_coordinates p (o.merge s p)
    refine ⟨e₀, List.mem_append_left _ hmem, p₀, hp₀.later hlater, e,
      List.mem_append_right _ (List.mem_singleton_self e), he, ?_, ?_⟩
    · rw [hevidence, hb, hbranch]
    · rw [hevidence, hp, hp₀.pullNumber, hsame]
  · simp [Operation.merge]

@[simp] theorem Operation.submit_mergeRevision (o : Operation) (s : Statement) (r : Outbox) :
    (o.submit s r).declarationMergeRevision = o.declarationMergeRevision := by
  unfold Operation.submit
  split <;> rfl

@[simp] theorem Operation.reconcile_mergeRevision (o : Operation) (s : Statement) :
    (o.reconcile s).declarationMergeRevision = o.declarationMergeRevision := by
  unfold Operation.reconcile
  split <;> rfl

theorem Observed.mergeRevision {p : ObserveArgs}
    {x : ExecutionReceipt} {t : EventType} (h : Observed w o p x t o') :
    o'.declarationMergeRevision = o.declarationMergeRevision := by
  cases h with
  | removal => rfl
  | install =>
      unfold Operation.observe
      split <;> rfl

theorem Operation.GateOpen.merged (h : o.GateOpen)
    (hbound : o.declarationBinding ≠ none) : o.declarationMergeRevision ≠ none :=
  h.resolve_left hbound

/-- A bound operation is merged before a step leaves it Applied or Verified. -/
theorem Case.Step.merged_before {l : Label} (h : Case.Step w l c c')
    (hc : c.Inv) (hgit : c.GitGated) (ho : c.op = some o)
    (hbound : o.declarationBinding ≠ none) (ho' : c'.op = some o')
    (hstate : o'.state ∈ [.applied, .verified]) : o.declarationMergeRevision ≠ none := by
  have hsame : ∀ {q}, c.op = some q → q = o := fun hq => Option.some.inj (hq.symm.trans ho)
  have hgated := hgit o ho hbound
  cases h with
  | accept hop => exact absurd (hop.symm.trans ho) (by simp)
  | approve =>
      cases ho'
      simp at hstate
  | claim hop =>
      cases hsame hop
      cases ho'
      unfold Operation.submit at hstate
      split at hstate
      · simp at hstate
      · exact hgated.applied hstate
  | renew | propose =>
      rw [ho] at ho'
      cases ho'
      exact hgated.applied hstate
  | apply hop hrow hfence =>
      cases hsame hop
      exact ((hc.claimed o ho _ hrow.1).gate hfence.epoch.2).merged hbound
  | observe hop hrow hfence happlied | verify hop happlied =>
      cases hsame hop
      exact hgated.applied (by simp [happlied])
  | @fail _ _ _ _ _ p =>
      cases ho'
      have hnext : p.state = .failed ∨ p.state = .unknown := by
        unfold FailureArgs.state
        split <;> simp
      change p.state ∈ _ at hstate
      rcases hnext with h | h <;> rw [h] at hstate <;> simp at hstate
  | merge =>
      cases ho'
      simp [Operation.merge] at hstate
  | credential hop hbroker =>
      cases hsame hop
      exact absurd (hgated.required.symm.trans (outsideCredentialBroker_passed hbroker).2.2)
        (by simp)

/-- The names of the events of a bound operation are told apart. -/
theorem eventActions_ne :
    "console.operation.approve" ≠ proposalAction ∧
      "console.operation.dispatch.claim" ≠ proposalAction ∧
      "console.operation.verify" ≠ proposalAction ∧ mergeAction ≠ proposalAction ∧
      "console.extension.install" ≠ proposalAction ∧
      "console.extension.install.observe" ≠ proposalAction ∧
      "console.extension.remove.observe" ≠ proposalAction := by
  decide

theorem Case.Step.gitGated {l : Label} (h : Case.Step w l c c')
    (hc : c.Inv) (hgit : c.GitGated) : c'.GitGated := by
  obtain ⟨happrove, hclaim, hverify, hmerge, hinstall, hobserve, hobserve'⟩ := eventActions_ne
  intro o' ho' hbound'
  cases ho : c.op with
  | none =>
      -- acceptance: the first event is named after the action
      have hinit := h.initial ho ho'
      obtain ⟨hreq, haction⟩ := hinit.bound hbound'
      have hstate : o'.state = .planned := by rw [hinit.state, if_pos hreq]
      refine ⟨hreq, haction, ?_, fun hm => absurd hinit.declarationMergeRevision hm, ?_,
        fun _ => hinit.declarationMergeRevision⟩
      · cases h with
        | accept hop ho hr he =>
            cases ho'
            intro e' he' hact
            rw [hc.empty hop] at he'
            rw [List.mem_singleton.mp he', he, haction] at hact
            exact absurd hact hinstall
        | _ => simp_all
      · rw [hstate]
        simp
  | some o =>
      obtain ⟨q, hq, hlater⟩ := h.later.op o ho
      rw [ho'] at hq
      cases hq
      have hbound : o.declarationBinding ≠ none := by
        rw [← hlater.declarationBinding]
        exact hbound'
      have hgated := hgit o ho hbound
      have hbefore := h.merged_before hc hgit ho hbound ho'
      have hback := h.planned_before ho ho'
      have hsame : ∀ {q}, c.op = some q → q = o := fun hq => Option.some.inj (hq.symm.trans ho)
      -- a step that adds one event of another name
      have hone : ∀ {e : Event} {name : String}, e.action = name → name ≠ proposalAction →
          ∀ e' ∈ [e], e'.action ≠ proposalAction := by
        intro e name he hname e' he'
        rw [List.mem_singleton.mp he', he]
        exact hname
      cases h with
      | accept hop => exact absurd (hop.symm.trans ho) nofun
      | approve hop hreq hstate ha hr he =>
          cases hsame hop
          cases ho'
          exact hgated.step hlater rfl (hone he happrove) rfl hbefore hback
      | claim hop hrow hclaimable hworker howner hactions he =>
          cases hsame hop
          cases ho'
          exact hgated.step hlater rfl (hone he hclaim) (o.submit_mergeRevision ..) hbefore
            hback
      | renew =>
          rw [ho] at ho'
          cases ho'
          exact hgated.step hlater (List.append_nil _).symm (by simp) rfl hbefore hback
      | apply hop hrow hfence haction hstate hx heffect he =>
          cases hsame hop
          cases ho'
          exact hgated.step hlater rfl (hone (he.trans hgated.action) hinstall)
            (o.reconcile_mergeRevision w.s) hbefore hback
      | observe hop hrow hfence hstate hx hobserved he =>
          cases hsame hop
          cases ho'
          refine hgated.step hlater rfl (fun e' he' => ?_) hobserved.mergeRevision hbefore
            hback
          rw [List.mem_singleton.mp he']
          simp only [List.mem_cons, List.not_mem_nil, or_false] at he
          rcases he with he | he
          · rw [he]
            exact hobserve
          · rw [he]
            exact hobserve'
      | fail hop hrow hfence hmatch hx he =>
          cases hsame hop
          cases ho'
          exact hgated.step hlater rfl (hone (he.trans hgated.action) hinstall) rfl hbefore hback
      | verify hop hstate hevidence he =>
          cases hsame hop
          cases ho'
          exact hgated.step hlater rfl (hone he hverify) rfl hbefore hback
      | propose hop hnone he hevidence hbranch =>
          cases hsame hop
          rw [ho] at ho'
          cases ho'
          exact hgated.propose he hevidence hbranch
      | merge hop hreq happroved hstate hrevision hproposal he hevidence hsource =>
          cases hsame hop
          cases ho'
          exact hgated.merge hrevision (hproposal hbound) he hevidence hsource
      | credential hop hbroker =>
          cases hsame hop
          exact absurd (hgated.required.symm.trans (outsideCredentialBroker_passed hbroker).2.2) nofun

theorem reach_gitGated (D : Digest) (i : Identity) (as : List Action) (id : Uuid) :
    ((reach D i as).case id).GitGated := by
  have hboth := reach_case (I := fun c => c.Inv ∧ c.GitGated)
    ⟨Case.inv_empty, fun _ ho => absurd ho nofun⟩
    (fun h hi => ⟨h.inv hi.1, h.gitGated hi.1 hi.2⟩) D i as id
  exact hboth.2

/-! ## The gate -/

/-- The change of a bound operation is proposed, merged as proposed, and approved
by another person if it has to be. -/
structure Db.GitReceipts (db : Db) (o : Operation) : Prop where
  merged : ∃ e ∈ db.events.rows, ∃ p, e.operationId = some o.operationId ∧ e.Proposes o p ∧
    ∃ m ∈ db.events.rows, m.operationId = some o.operationId ∧ m.Merges e
  approved : o.approvalRequired = true →
    ∃ a ∈ db.approvals.rows, a.Independent db.person o

theorem gitReceipts_of_merged (D : Digest) (i : Identity) (as : List Action)
    (ho : o ∈ (reach D i as).operations.rows) (hbound : o.declarationBinding ≠ none)
    (hmerged : o.declarationMergeRevision ≠ none) : (reach D i as).GitReceipts o := by
  have hop := Db.case_op.mpr ho
  have hgated := reach_gitGated D i as o.operationId o hop hbound
  obtain ⟨e, he, p, hp, m, hm, hmerges⟩ := hgated.merged hmerged
  obtain ⟨he, heid⟩ := List.mem_filter.mp he
  obtain ⟨hm, hmid⟩ := List.mem_filter.mp hm
  refine ⟨⟨e, he, p, of_decide_eq_true heid, hp, m, hm, of_decide_eq_true hmid, hmerges⟩,
    fun hreq => ?_⟩
  have hstate : o.state ≠ .planned := fun h => hmerged (hgated.planned h)
  obtain ⟨a, ha, hind⟩ := reach_approved D i as o.operationId o hop hreq hstate
  exact ⟨a, (List.mem_filter.mp ha).1, hind⟩

theorem claimOwnerOperation_claimed {D : Digest} {s : Statement} {p : ClaimArgs} {db db' : Db}
    {v : Claimed} (h : claimOwnerOperation D s p db = .ok (db', some v)) :
    ∃ o ∈ db.operations.rows, o.operationId = v.operation.operationId ∧ o.GateOpen := by
  simp only [claimOwnerOperation, bind_eq_ok, raiseIf_eq_ok] at h
  obtain ⟨_, -, _, -, h⟩ := h
  split at h
  · cases h
  next r hnext =>
    obtain ⟨-, o, ho, hclaimable⟩ := nextClaim_eq_some hnext
    simp only [ho, bind_eq_ok, pure_eq_ok] at h
    obtain ⟨db₁, -, db₂, -, db₃, -, heq⟩ := h
    cases heq
    refine ⟨o, (Table.lookup_eq_some.mp ho).1, (o.submit_operationId ..).symm, ?_⟩
    have hgate := (Cond.all_eq_true _).mp hclaimable
      (.or (isNull o.declarationBinding) (isNotNull o.declarationMergeRevision)) (by simp)
    simpa [Operation.GateOpen] using hgate

end Authority
