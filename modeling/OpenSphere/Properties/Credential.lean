import OpenSphere.Properties.Fencing

/-!
# The lifecycle of credential operations

The registry-credential broker reports results through a function of its own.
It never claims an operation, so none of its operations is ever Submitted: the
first result takes an Authorized operation to Reconciling, Applied or Unknown at
once, which the table of `packages/domain` does not have as an edge.  Every
other change is an edge, and an Applied operation stays as it is for good.
-/

open Sql

namespace Authority

def credentialBroker : String := "C_API.registry-credential-broker"

/-- A change of state the table allows, or the first result of the broker. -/
def Operation.BrokerStep (o o' : Operation) : Prop :=
  o'.state = o.state ∨ o'.state ∈ o.state.transitions ∨
    (o.state = .authorized ∧ o'.state ∈ [.reconciling, .applied, .unknown])

/-- An operation nobody has to approve is past its results, or has none yet. -/
def Operation.Brokered (o : Operation) : Prop :=
  o.approvalRequired = false → o.state ∈ [.authorized, .reconciling, .applied, .unknown]

/-- The invariant of the broker's operations. -/
def Case.Brokered (c : Case) : Prop :=
  c.Inv ∧ ∀ o, c.op = some o → o.ownerRef = some credentialBroker → o.Brokered

theorem broker_not_extension {o : Operation} (h : o.ownerRef = some credentialBroker) :
    o.ownerRef ≠ some "C_EXT" := by
  rw [h]
  decide

theorem Operation.credentialResult_state (o : Operation) (s : Statement) (p : CredentialArgs)
    (outcome : Outcome) :
    (o.credentialResult s p outcome).state ∈ [.reconciling, .applied, .unknown] := by
  cases outcome <;> simp [Operation.credentialResult]

theorem Operation.Brokered.open {o : Operation} (h : o.Brokered) (hreq : o.approvalRequired = false)
    (hopen : ¬ (o.state = .applied ∨ o.state = .verified)) :
    o.state ∈ [.authorized, .reconciling, .unknown] := by
  have hstate := h hreq
  simp only [List.mem_cons, List.not_mem_nil, or_false] at hstate ⊢
  tauto

/-- What one step does to an operation of the broker: nothing, or one of the
changes above; and an Applied or Verified one is left alone with its receipts. -/
theorem Case.Step.broker {w : Scene} {l : Label} {c c' : Case} (h : Case.Step w l c c')
    (hc : c.Brokered) {o : Operation} (ho : c.op = some o)
    (howner : o.ownerRef = some credentialBroker) :
    ∃ o', c'.op = some o' ∧ o.BrokerStep o' ∧ o'.Brokered ∧
      (o.state = .applied ∨ o.state = .verified → o' = o ∧ c'.receipts = c.receipts) := by
  have hsame : ∀ {q}, c.op = some q → q = o := fun hq => Option.some.inj (hq.symm.trans ho)
  have hext := broker_not_extension howner
  have hinv := hc.2 o ho howner
  have hstays : ∃ o', c.op = some o' ∧ o.BrokerStep o' ∧ o'.Brokered ∧
      (o.state = .applied ∨ o.state = .verified → o' = o ∧ c.receipts = c.receipts) :=
    ⟨o, ho, .inl rfl, hinv, fun _ => ⟨rfl, rfl⟩⟩
  cases h with
  | accept hop =>
      rw [hop] at ho
      cases ho
  | approve hop hreq hstate | merge hop hreq happroved hstate =>
      cases hsame hop
      refine ⟨_, rfl, .inr (.inl ?_), fun h => ?_, ?_⟩
      · rw [hstate]
        exact List.mem_cons_self ..
      · exact absurd (hreq.symm.trans h) (by decide)
      · rw [hstate]
        exact fun h => absurd h (by decide)
  | claim hop hrow hclaimable hworker hpowner =>
      cases hsame hop
      exact absurd (claimable_due hclaimable hpowner).1 hext
  | renew | propose => exact hstays
  | apply hop hrow hfence | observe hop hrow hfence | fail hop hrow hfence =>
      cases hsame hop
      exact absurd (hc.1.owner_of_fence hop hrow hfence) hext
  | verify hop hstate hevidence =>
      cases hsame hop
      exact absurd hevidence.action ((hc.1.foreign o hop hext).untyped (by simp [hstate]))
  | @credential _ _ outcome _ p _ hop hbroker hrows he hopen =>
      cases hsame hop
      have hnext := o.credentialResult_state w.s p outcome
      have hnow := hinv.open (outsideCredentialBroker_passed hbroker).2.2 hopen
      refine ⟨_, rfl, ?_, fun _ => List.mem_cons_of_mem _ hnext, fun h => absurd h hopen⟩
      unfold Operation.BrokerStep
      generalize (o.credentialResult w.s p outcome).state = t at hnext ⊢
      simp only [List.mem_cons, List.not_mem_nil, or_false] at hnow hnext
      rcases hnow with hnow | hnow | hnow <;> rw [hnow] <;>
        rcases hnext with rfl | rfl | rfl <;> decide

theorem Case.Step.brokered {w : Scene} {l : Label} {c c' : Case} (h : Case.Step w l c c')
    (hc : c.Brokered) : c'.Brokered := by
  refine ⟨h.inv hc.1, fun o' ho' howner => ?_⟩
  cases hop : c.op with
  | some o =>
      obtain ⟨q, hq, hlater⟩ := h.later.op o hop
      rw [ho'] at hq
      cases hq
      obtain ⟨q, hq, -, hinv, -⟩ := h.broker hc hop (hlater.ownerRef.symm.trans howner)
      rw [ho'] at hq
      cases hq
      exact hinv
  | none =>
      have hinit := h.initial hop ho'
      intro hreq
      rw [hinit.state, hreq]
      decide

theorem reach_brokered (D : Digest) (i : Identity) (as : List Action) (id : Uuid) :
    ((reach D i as).case id).Brokered :=
  reach_case ⟨Case.inv_empty, fun _ h => absurd h nofun⟩ Case.Step.brokered D i as id

theorem perform_broker (D : Digest) (i : Identity) (as : List Action) (a : Action) {id : Uuid}
    {o : Operation} (ho : ((reach D i as).case id).op = some o)
    (howner : o.ownerRef = some credentialBroker) :
    ∃ o', ((reach D i (as ++ [a])).case id).op = some o' ∧ o.BrokerStep o' ∧
      (o.state = .applied ∨ o.state = .verified →
        o' = o ∧ ((reach D i (as ++ [a])).case id).receipts = ((reach D i as).case id).receipts) := by
  rw [reach_snoc]
  rcases perform_cases D a (reach D i as) with ⟨hsame, -⟩ | ⟨s, c, rfl, hcommits⟩
  · rw [hsame]
    exact ⟨o, ho, .inl rfl, fun _ => ⟨rfl, rfl⟩⟩
  · have hcase := hcommits.cases.relation
      (Q := fun c c' => c.Brokered → ∀ q, c.op = some q → q.ownerRef = some credentialBroker →
        ∃ q', c'.op = some q' ∧ q.BrokerStep q' ∧ (q.state = .applied ∨ q.state = .verified →
          q' = q ∧ c'.receipts = c.receipts))
      (fun _ _ q hq _ => ⟨q, hq, .inl rfl, fun _ => ⟨rfl, rfl⟩⟩)
      (fun _ _ hstep hc q hq howner => by
        obtain ⟨q', hq', hmove, -, hkeeps⟩ := hstep.broker hc hq howner
        exact ⟨q', hq', hmove, hkeeps⟩) id
    exact hcase (reach_brokered D i as id) o ho howner

theorem run_broker_settled (D : Digest) (i : Identity) (as bs : List Action) {id : Uuid}
    {o : Operation} (ho : ((reach D i as).case id).op = some o)
    (howner : o.ownerRef = some credentialBroker)
    (hsettled : o.state = .applied ∨ o.state = .verified) :
    ((reach D i (as ++ bs)).case id).op = some o ∧
      ((reach D i (as ++ bs)).case id).receipts = ((reach D i as).case id).receipts := by
  induction bs using List.reverseRecOn with
  | nil =>
      rw [List.append_nil]
      exact ⟨ho, rfl⟩
  | append_singleton bs b ih =>
      obtain ⟨o', ho', -, hkeeps⟩ := perform_broker D i (as ++ bs) b ih.1 howner
      obtain ⟨rfl, hreceipts⟩ := hkeeps hsettled
      rw [← List.append_assoc]
      exact ⟨ho', hreceipts.trans ih.2⟩

namespace Demo

def registrySite : Identity :=
  { site with
    grants := ⟨[⟨alice, "console.registry.manage", 1, none⟩], by decide, by decide⟩ }

def replaceConnection : AcceptArgs :=
  { request "console.registry.connection.replace" "replace-1" installPlan with
    requiredPermission := some "console.registry.manage"
    targetRef := some "registry-connection:opensphere-ghcr"
    ownerRef := some credentialBroker
    executionPlan := none }

def replaceAccepted : List Action := [.call (second 1) (.acceptOperation replaceConnection)]

def pullSecretsVerified : Action :=
  .call (second 2) (.recordRegistryCredentialResult
    ⟨some ⟨101⟩, some ⟨900⟩, some "succeeded", some ⟨901⟩, some "PullSecretsVerified"⟩)

end Demo

end Authority
