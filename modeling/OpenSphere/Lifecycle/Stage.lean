import OpenSphere.Lifecycle.Frame

/-!
# The stages of an operation

The invariant of a case.  No constraint of the tables says how the state of an
operation, its outbox rows and its receipts belong together; the guards of the
functions do, over the whole life of the operation.  `Stage` lists the
combinations that occur for an operation of the extension controller: which
dispatch and observation rows there are and whether they are delivered, and how
many Applied and Verified receipts.  Operations of other owners are never
claimed and have no receipts at all (`Foreign`).

`Case.Inv` is preserved by every step, one lemma per component.
-/

open Sql

namespace Authority

variable {w : Scene} {l : Label} {c c' : Case} {rows : List Outbox} {x : ExecutionReceipt}
  {t : EventType} {r r' : Outbox} {q : ClaimRef} {o : Operation}

/-! ## Delivered rows -/

def delivered (types : List EventType) (rows : List Outbox) : List Bool :=
  (rows.filter fun r => decide (r.eventType ∈ types)).map (·.deliveredAt.isSome)

def dispatchTypes : List EventType := [.operationReadyForDispatch]

def observationTypes : List EventType :=
  [.extensionInstallObservationRequested, .extensionRemovalObservationRequested]

section Delivered

variable {types : List EventType}

@[simp] theorem delivered_nil : delivered types [] = [] := rfl

@[simp] theorem delivered_append (rows rows' : List Outbox) :
    delivered types (rows ++ rows') = delivered types rows ++ delivered types rows' := by
  simp [delivered]

theorem delivered_singleton (r : Outbox) :
    delivered types [r] = if r.eventType ∈ types then [r.deliveredAt.isSome] else [] := by
  unfold delivered
  split <;> simp [*]

theorem delivered_initial (h : r.Initial o t) :
    delivered types [r] = if t ∈ types then [false] else [] := by
  rw [delivered_singleton, h.eventType, h.deliveredAt]
  rfl

theorem mem_delivered (hr : r ∈ rows) (ht : r.eventType ∈ types)
    (hd : r.deliveredAt = none) : false ∈ delivered types rows :=
  List.mem_map.mpr ⟨r, List.mem_filter.mpr ⟨hr, decide_eq_true ht⟩, by rw [hd]; rfl⟩

/-- A change that keeps the event types commutes with their selection. -/
theorem filter_types_map {f : Outbox → Outbox}
    (h : ∀ x ∈ rows, (f x).eventType = x.eventType) :
    (rows.map f).filter (fun r => decide (r.eventType ∈ types)) =
      (rows.filter fun r => decide (r.eventType ∈ types)).map f := by
  rw [List.filter_map]
  congr 1
  refine List.filter_congr fun x hx => ?_
  simp only [Function.comp_apply, h x hx]

theorem replaceRow_eventType (hrow : c.Row r) (h : r.Later r') :
    ∀ x ∈ c.outbox, (if x.outboxId = r'.outboxId then r' else x).eventType = x.eventType := by
  intro x hx
  split
  next hkey => rw [hrow.2 x hx (hkey.trans h.outboxId), h.eventType]
  next => rfl

/-- Replacing a row of another type changes nothing. -/
theorem delivered_replace_other (hrow : c.Row r) (h : r.Later r')
    (ht : r.eventType ∉ types) :
    delivered types (replaceRow r' c.outbox) = delivered types c.outbox := by
  unfold delivered replaceRow
  rw [filter_types_map (replaceRow_eventType hrow h), List.map_map]
  refine List.map_congr_left fun x hx => ?_
  obtain ⟨hmem, htype⟩ := List.mem_filter.mp hx
  have hne : x.outboxId ≠ r'.outboxId := by
    intro hkey
    rw [hrow.2 x hmem (hkey.trans h.outboxId)] at htype
    exact ht (of_decide_eq_true htype)
  simp only [Function.comp_apply, if_neg hne]

theorem delivered_replace_same (hrow : c.Row r) (h : r.Later r')
    (hd : r'.deliveredAt = r.deliveredAt) :
    delivered types (replaceRow r' c.outbox) = delivered types c.outbox := by
  unfold delivered replaceRow
  rw [filter_types_map (replaceRow_eventType hrow h), List.map_map]
  refine List.map_congr_left fun x hx => ?_
  simp only [Function.comp_apply]
  split
  next hkey => rw [hrow.2 x (List.mem_filter.mp hx).1 (hkey.trans h.outboxId), hd]
  next => rfl

theorem delivered_replace_one {s : Statement} {b : Bool} (hrow : c.Row r)
    (hd : r.deliveredAt = none) (ht : r.eventType ∈ types)
    (hone : delivered types c.outbox = [b]) :
    delivered types (replaceRow (r.deliver s) c.outbox) = [true] := by
  have hlater : r.Later (r.deliver s) := Outbox.deliver_later hd
  obtain ⟨x, hx, -⟩ := List.map_eq_singleton_iff.mp hone
  have hmem : r ∈ c.outbox.filter fun r => decide (r.eventType ∈ types) :=
    List.mem_filter.mpr ⟨hrow.1, decide_eq_true ht⟩
  rw [hx, List.mem_singleton] at hmem
  subst hmem
  unfold delivered replaceRow
  rw [filter_types_map (replaceRow_eventType hrow hlater), hx]
  simp [Outbox.deliver]

end Delivered

/-! ## Claims -/

structure Outbox.Claimed (r : Outbox) (o : Operation) : Prop where
  epoch : 0 ≤ r.claimEpoch
  worker : 0 < r.claimEpoch → r.claimOwner ≠ none
  owner : 0 < r.claimEpoch → o.ownerRef = some "C_EXT"
  gate : 0 < r.claimEpoch → o.GateOpen

theorem Outbox.Initial.claimed {o' : Operation} (h : r.Initial o t) : r.Claimed o' := by
  have hzero : ¬ 0 < r.claimEpoch := by
    rw [h.claimEpoch]
    exact Int.lt_irrefl 0
  exact ⟨Int.le_of_eq h.claimEpoch.symm, fun hp => absurd hp hzero, fun hp => absurd hp hzero,
    fun hp => absurd hp hzero⟩

theorem Outbox.Claimed.later {o' : Operation} (h : r.Claimed o) (hl : o.Later o') :
    r.Claimed o' :=
  ⟨h.epoch, h.worker, fun hp => hl.ownerRef.trans (h.owner hp), fun hp => hl.gate (h.gate hp)⟩

theorem Outbox.Claimed.same (h : r.Claimed o)
    (hepoch : r'.claimEpoch = r.claimEpoch) (howner : r'.claimOwner = r.claimOwner) :
    r'.Claimed o := by
  refine ⟨?_, ?_, ?_, ?_⟩
  · rw [hepoch]; exact h.epoch
  · rw [hepoch, howner]; exact h.worker
  · rw [hepoch]; exact h.owner
  · rw [hepoch]; exact h.gate

/-- What makes a row due for a claim of the extension controller. -/
theorem claimable_due {s : Statement} {p : ClaimArgs}
    (h : claimable s p r o = some true) (hp : p.ownerRef = some "C_EXT") :
    o.ownerRef = some "C_EXT" ∧ o.GateOpen := by
  have hall := (Cond.all_eq_true _).mp h
  have howner := hall (eq o.ownerRef p.ownerRef) (by simp)
  have hgate := hall (.or (isNull o.declarationBinding) (isNotNull o.declarationMergeRevision))
    (by simp)
  obtain ⟨a, ha, hpa⟩ := (eq_eq_true _ _).mp howner
  refine ⟨by rw [ha, ← hpa, hp], ?_⟩
  simpa [Operation.GateOpen] using hgate

theorem Effect.initial {p : Bound}
    {revocations : List Revocation} (h : Effect w o p x rows revocations)
    (hr : r ∈ rows) : ∃ t, r.Initial o t := by
  cases h with
  | revocation | alreadyRevoked => cases hr
  | install haction hinit | removal haction hinit => exact ⟨_, List.mem_singleton.mp hr ▸ hinit⟩

theorem mem_replaceRow {x : Outbox} (h : x ∈ replaceRow r rows) :
    x = r ∨ x ∈ rows := by
  obtain ⟨y, hy, rfl⟩ := List.mem_map.mp h
  split
  · exact .inl rfl
  · exact .inr hy

def Case.RowsClaimed (c : Case) : Prop := ∀ o, c.op = some o → ∀ r ∈ c.outbox, r.Claimed o

/-- The claims of a case after a step: every row is new, has the claim it had, or
was claimed by the step. -/
theorem Case.Step.rowsClaimed (h : Case.Step w l c c')
    (hnone : c.op = none → c = Case.empty) (hc : c.RowsClaimed) : c'.RowsClaimed := by
  have hlater := h.later
  -- the operation keeps what the claims say about it
  have hkept : ∀ {o o'}, c.op = some o → c'.op = some o' → ∀ r ∈ c.outbox, r.Claimed o' := by
    intro o o' ho ho' r hr
    obtain ⟨q, hq, hl⟩ := hlater.op o ho
    rw [ho'] at hq
    cases hq
    exact (hc o ho r hr).later hl
  intro o' ho' r hr
  cases h with
  | accept hop ho hinit =>
      rw [hnone hop] at hr
      rw [List.mem_singleton.mp hr]
      exact hinit.claimed
  | approve hop hreq hstate ha hinit =>
      rcases List.mem_append.mp hr with hr | hr
      · exact hkept hop ho' r hr
      · rw [List.mem_singleton.mp hr]
        exact hinit.claimed
  | claim hop hrow hclaimable hworker howner =>
      rcases mem_replaceRow hr with rfl | hr
      · obtain ⟨hext, hgate⟩ := claimable_due hclaimable howner
        have hold := hkept hop ho' _ hrow.1
        have hl := hlater.op _ hop
        obtain ⟨q, hq, hl⟩ := hl
        rw [ho'] at hq
        cases hq
        exact ⟨Int.le_trans hold.epoch (Int.le_add_one (Int.le_refl _)), fun _ => hworker,
          fun _ => hl.ownerRef.trans hext, fun _ => hl.gate hgate⟩
      · exact hkept hop ho' r hr
  | renew hrow =>
      rcases mem_replaceRow hr with rfl | hr
      · exact (hc o' ho' _ hrow.1).same rfl rfl
      · exact hc o' ho' r hr
  | apply hop hrow hfence haction hstate hx heffect =>
      rcases List.mem_append.mp hr with hr | hr
      · rcases mem_replaceRow hr with rfl | hr
        · exact (hkept hop ho' _ hrow.1).same rfl rfl
        · exact hkept hop ho' r hr
      · obtain ⟨t, hinit⟩ := heffect.initial hr
        exact hinit.claimed
  | observe hop hrow | fail hop hrow =>
      rcases mem_replaceRow hr with rfl | hr
      · exact (hkept hop ho' _ hrow.1).same rfl rfl
      · exact hkept hop ho' r hr
  | verify hop | propose hop | merge hop => exact hkept hop ho' r hr
  | credential hop hbroker hrows =>
      rcases hrows with rfl | rfl
      · exact hkept hop ho' r hr
      · obtain ⟨x, hx, rfl⟩ := List.mem_map.mp hr
        have hold := hkept hop ho' x hx
        split
        · exact hold.same rfl rfl
        · exact hold

/-! ## Stages -/

def receiptCount (phase : Phase) (xs : List ExecutionReceipt) : Nat :=
  xs.countP fun x => decide (x.phase = phase)

/-- Where an operation of the extension controller stands: its delivered dispatch
and observation rows, and the numbers of its Applied and Verified receipts. -/
inductive Stage (o : Operation) : List Bool → List Bool → Nat → Nat → Prop where
  /-- It awaits approval. -/
  | planned (hstate : o.state = .planned) : Stage o [] [] 0 0
  /-- Its dispatch is open. -/
  | queued (hstate : o.state ∈ [.authorized, .submitted]) : Stage o [false] [] 0 0
  /-- Its dispatch was closed without an effect on record. -/
  | closed (hstate : o.state ∈ [.failed, .unknown]) : Stage o [true] [] 0 0
  /-- A revocation was applied. -/
  | revoked (haction : o.actionId = "console.extension.revocation.create")
      (hstate : o.state ∈ [.applied, .verified]) : Stage o [true] [] 1 0
  /-- A registration was applied and is to be observed. -/
  | applied (haction : o.actionId ≠ "console.extension.revocation.create")
      (hstate : o.state = .applied) : Stage o [true] [false] 1 0
  /-- Its observation failed. -/
  | abandoned (hstate : o.state ∈ [.failed, .unknown]) : Stage o [true] [true] 1 0
  /-- Its observation is stored. -/
  | observed (haction : o.actionId ≠ "console.extension.revocation.create")
      (hstate : o.state ∈ [.applied, .verified]) : Stage o [true] [true] 1 1

structure Foreign (o : Operation) (c : Case) : Prop where
  dispatches : (delivered dispatchTypes c.outbox).length ≤ 1
  planned : o.state = .planned → delivered dispatchTypes c.outbox = []
  observations : delivered observationTypes c.outbox = []
  receipts : c.receipts = []
  untyped : o.state ∈ [.applied, .verified] → o.actionId ∉ extensionActions

structure Case.Inv (c : Case) : Prop where
  empty : c.op = none → c = Case.empty
  claimed : c.RowsClaimed
  stage : ∀ o, c.op = some o → o.ownerRef = some "C_EXT" →
    Stage o (delivered dispatchTypes c.outbox) (delivered observationTypes c.outbox)
      (receiptCount .applied c.receipts) (receiptCount .verified c.receipts)
  foreign : ∀ o, c.op = some o → o.ownerRef ≠ some "C_EXT" → Foreign o c

/-! ## Steps between stages -/

theorem Stage.of_open_dispatch {ds os : List Bool} {m n : Nat}
    (h : Stage o ds os m n) (hopen : false ∈ ds) :
    ds = [false] ∧ os = [] ∧ m = 0 ∧ n = 0 := by
  cases h <;> simp at hopen ⊢

theorem Stage.of_open_observation {ds os : List Bool} {m n : Nat}
    (h : Stage o ds os m n) (hopen : false ∈ os) :
    o.actionId ≠ "console.extension.revocation.create" ∧ ds = [true] ∧ os = [false] ∧ m = 1 ∧
      n = 0 := by
  cases h with
  | applied haction => exact ⟨haction, rfl, rfl, rfl, rfl⟩
  | _ => simp at hopen

section Moves

variable {o o' : Operation} {ds os : List Bool} {m n : Nat}

theorem Stage.approve (h : Stage o ds os m n) (hstate : o.state = .planned)
    (hnext : o'.state = .authorized) : Stage o' (ds ++ [false]) os m n := by
  cases h with
  | planned => exact .queued (by simp [hnext])
  | _ => simp_all

theorem Stage.submit (h : Stage o ds os m n) (hstate : o.state = .authorized)
    (hnext : o'.state = .submitted) : Stage o' ds os m n := by
  cases h with
  | queued => exact .queued (by simp [hnext])
  | _ => simp_all

theorem Stage.verify (h : Stage o ds os m n) (haction : o'.actionId = o.actionId)
    (hstate : o.state = .applied) (hnext : o'.state = .verified)
    (hobserved : o.actionId ≠ "console.extension.revocation.create" → 0 < n) :
    Stage o' ds os m n := by
  cases h with
  | revoked hrevocation => exact .revoked (haction.trans hrevocation) (by simp [hnext])
  | applied hregistration => exact absurd (hobserved hregistration) (Nat.lt_irrefl 0)
  | observed hregistration => exact .observed (haction ▸ hregistration) (by simp [hnext])
  | _ => simp_all

end Moves

/-- A failure is recorded for an open dispatch or for an open observation. -/
theorem failureMismatch_passed {p : FailureArgs} (h : failureMismatch p r o ≠ some true) :
    (r.eventType ∈ dispatchTypes ∧ o.state ∈ [.submitted, .reconciling]) ∨
      (r.eventType ∈ observationTypes ∧ o.state = .applied) := by
  have hnot := any_ne_true h _ (List.mem_cons_of_mem _ (List.mem_cons_of_mem _
    (List.mem_cons_self ..)))
  by_contra hneither
  refine hnot ((Cond.not_eq_true _).mpr ?_)
  simp only [dispatchTypes, observationTypes, not_or, not_and, List.mem_cons,
    List.not_mem_nil, or_false] at hneither
  obtain ⟨hdispatch, hobservation⟩ := hneither
  simp only [Cond.any, Cond.all, isIn, List.foldr, Cond.or_eq_false, Cond.and_eq_false,
    Option.map_some, Option.some.injEq, decide_eq_false_iff_not, List.mem_cons, List.not_mem_nil,
    or_false]
  tauto

theorem receiptCount_append (phase : Phase) (xs : List ExecutionReceipt) (x : ExecutionReceipt) :
    receiptCount phase (xs ++ [x]) = receiptCount phase xs + if x.phase = phase then 1 else 0 := by
  simp [receiptCount, List.countP_append, List.countP_cons]

theorem Case.Inv.owner_of_fence
    {types : List EventType} (hc : c.Inv) (hop : c.op = some o) (hrow : c.Row r)
    (hfence : Fenced w q types r) : o.ownerRef = some "C_EXT" :=
  (hc.claimed o hop r hrow.1).owner hfence.epoch.2

theorem outsideCredentialBroker_passed (h : outsideCredentialBroker o ≠ some true) :
    (∀ t, o.ownerRef = some t → t = "C_API.registry-credential-broker") ∧
      o.actionId ∉ extensionActions ∧ o.approvalRequired = false := by
  have hnot := any_ne_true h
  refine ⟨fun t ht => ?_, fun hmem => ?_, ?_⟩
  · exact ne_passed (hnot (ne o.ownerRef (some "C_API.registry-credential-broker")) (by simp)) ht rfl
  · have haction := notIn_passed (hnot (notIn (some o.actionId)
      ["console.registry.connection.replace", "console.registry.connection.remove"]) (by simp))
    revert haction hmem
    simp only [extensionActions, List.mem_cons, List.not_mem_nil, or_false]
    rintro (h | h | h) <;> rw [h] <;> decide
  · exact decided_passed (hnot (some o.approvalRequired) (by simp))

theorem Case.Inv.open_dispatch
    {types : List EventType} (hc : c.Inv) (hop : c.op = some o) (hrow : c.Row r)
    (hfence : Fenced w q types r) (ht : r.eventType ∈ dispatchTypes) :
    delivered dispatchTypes c.outbox = [false] ∧ delivered observationTypes c.outbox = [] ∧
      receiptCount .applied c.receipts = 0 ∧ receiptCount .verified c.receipts = 0 :=
  (hc.stage o hop (hc.owner_of_fence hop hrow hfence)).of_open_dispatch
    (mem_delivered hrow.1 ht hfence.undelivered)

theorem Case.Inv.open_observation
    {types : List EventType} (hc : c.Inv) (hop : c.op = some o) (hrow : c.Row r)
    (hfence : Fenced w q types r) (ht : r.eventType ∈ observationTypes) :
    o.actionId ≠ "console.extension.revocation.create" ∧
      delivered dispatchTypes c.outbox = [true] ∧ delivered observationTypes c.outbox = [false] ∧
      receiptCount .applied c.receipts = 1 ∧ receiptCount .verified c.receipts = 0 :=
  (hc.stage o hop (hc.owner_of_fence hop hrow hfence)).of_open_observation
    (mem_delivered hrow.1 ht hfence.undelivered)

theorem observationTypes_not_dispatch (h : t ∈ observationTypes) :
    t ∉ dispatchTypes := by
  revert h
  cases t <;> decide

theorem dispatchTypes_not_observation (h : t ∈ dispatchTypes) :
    t ∉ observationTypes :=
  fun h' => observationTypes_not_dispatch h' h

theorem Observed.eventType {o' : Operation} {p : ObserveArgs}
    {t' : EventType} (h : Observed w o p x t o') (ht : t' = t) : t' ∈ observationTypes := by
  subst ht
  cases h <;> decide

theorem Effect.stage {o' : Operation} {p : Bound}
    {revocations : List Revocation} (h : Effect w o p x rows revocations)
    (haction : o'.actionId = o.actionId) (hstate : o'.state = .applied) :
    Stage o' ([true] ++ delivered dispatchTypes rows) ([] ++ delivered observationTypes rows) 1 0 := by
  cases h with
  | revocation hrevocation | alreadyRevoked hrevocation =>
      exact .revoked (haction.trans hrevocation) (by simp [hstate])
  | install hinstall hr =>
      simp only [delivered_initial hr]
      exact .applied (by rw [haction, hinstall]; decide) hstate
  | removal hremoval hr =>
      simp only [delivered_initial hr]
      exact .applied (by rw [haction, hremoval]; decide) hstate

/-- The stage of an operation of the extension controller after a step. -/
theorem Case.Step.stage (h : Case.Step w l c c')
    (hc : c.Inv) : ∀ o, c'.op = some o → o.ownerRef = some "C_EXT" →
      Stage o (delivered dispatchTypes c'.outbox) (delivered observationTypes c'.outbox)
        (receiptCount .applied c'.receipts) (receiptCount .verified c'.receipts) := by
  intro o' ho' howner
  cases h with
  | accept hop hinit hr =>
      cases ho'
      rw [hc.empty hop]
      simp only [Case.empty, List.nil_append, delivered_initial hr, acceptanceEventType]
      have hstate := hinit.state
      by_cases hreq : o'.approvalRequired = true
      · simp only [if_pos hreq] at hstate ⊢
        exact .planned hstate
      · simp only [if_neg hreq] at hstate ⊢
        exact .queued (hstate ▸ List.mem_cons_self ..)
  | approve hop hreq hstate ha hr =>
      cases ho'
      have hold := hc.stage _ hop howner
      have hdispatch : delivered dispatchTypes [_] = [false] := delivered_initial hr
      have hobservation : delivered observationTypes [_] = [] := delivered_initial hr
      rw [delivered_append, delivered_append, hdispatch, hobservation, List.append_nil]
      exact hold.approve hstate rfl
  | claim hop hrow hclaimable hworker hpowner =>
      cases ho'
      have hundelivered := claimable_undelivered hclaimable
      rw [delivered_replace_same hrow (Outbox.claim_later hundelivered) rfl,
        delivered_replace_same hrow (Outbox.claim_later hundelivered) rfl]
      have hold := hc.stage _ hop (claimable_due hclaimable hpowner).1
      unfold Operation.submit
      split
      next hstate => exact hold.submit hstate.2 rfl
      next => exact hold
  | renew hrow hdelivered =>
      rw [delivered_replace_same hrow (Outbox.renew_later hdelivered) rfl,
        delivered_replace_same hrow (Outbox.renew_later hdelivered) rfl]
      exact hc.stage o' ho' howner
  | @apply _ o r x e p _ rows revocations hop hrow hfence haction hstate hx heffect =>
      cases ho'
      have ht := hfence.eventType
      change _ ∈ dispatchTypes at ht
      obtain ⟨hds, hos, hm, hn⟩ := hc.open_dispatch hop hrow hfence ht
      have hlater := Outbox.deliver_later (s := w.s) hfence.undelivered
      simp only [delivered_append, delivered_replace_one hrow hfence.undelivered ht hds,
        delivered_replace_other hrow hlater (dispatchTypes_not_observation ht), hos,
        receiptCount_append, hx.phase, hm, hn]
      exact heffect.stage (o.reconcile_actionId w.s) rfl
  | observe hop hrow hfence hstate hx hobserved =>
      cases ho'
      have ht := hobserved.eventType (List.mem_singleton.mp hfence.eventType)
      obtain ⟨haction, hds, hos, hm, hn⟩ := hc.open_observation hop hrow hfence ht
      have hlater := Outbox.deliver_later (s := w.s) hfence.undelivered
      simp only [delivered_replace_one hrow hfence.undelivered ht hos,
        delivered_replace_other hrow hlater (observationTypes_not_dispatch ht), hds,
        receiptCount_append, hx.phase, hm, hn]
      refine .observed (by rw [hobserved.later.actionId]; exact haction) ?_
      cases hobserved with
      | install =>
          unfold Operation.observe
          split
          · simp [Operation.verify]
          · simp [hstate]
      | removal => simp [hstate]
  | fail hop hrow hfence hmatch hx =>
      cases ho'
      have hlater := Outbox.deliver_later (s := w.s) hfence.undelivered
      have hfailed : ∀ p : FailureArgs, p.state ∈ [.failed, .unknown] := by
        intro p
        unfold FailureArgs.state
        split <;> simp
      have hphase : ∀ p : FailureArgs, p.phase ≠ .applied ∧ p.phase ≠ .verified := by
        intro p
        unfold FailureArgs.phase
        split <;> decide
      simp only [receiptCount_append, hx.phase, if_neg (hphase _).1, if_neg (hphase _).2]
      rcases failureMismatch_passed hmatch with ⟨ht, -⟩ | ⟨ht, -⟩
      · obtain ⟨hds, hos, hm, hn⟩ := hc.open_dispatch hop hrow hfence ht
        rw [delivered_replace_one hrow hfence.undelivered ht hds,
          delivered_replace_other hrow hlater (dispatchTypes_not_observation ht), hos, hm, hn]
        exact .closed (hfailed _)
      · obtain ⟨-, hds, hos, hm, hn⟩ := hc.open_observation hop hrow hfence ht
        rw [delivered_replace_one hrow hfence.undelivered ht hos,
          delivered_replace_other hrow hlater (observationTypes_not_dispatch ht), hds, hm, hn]
        exact .abandoned (hfailed _)
  | verify hop hstate hevidence =>
      cases ho'
      refine (hc.stage _ hop howner).verify rfl hstate rfl fun haction => ?_
      obtain ⟨y, hy, -, hphase⟩ := hevidence.observed haction
      exact List.countP_pos_iff.mpr ⟨y, hy, decide_eq_true hphase⟩
  | propose hop => exact hc.stage o' ho' howner
  | merge hop hreq happroved hstate =>
      cases ho'
      exact (hc.stage _ hop howner).submit hstate rfl
  | credential hop hbroker =>
      cases ho'
      have hbrokerRef := (outsideCredentialBroker_passed hbroker).1 _ howner
      exact absurd hbrokerRef (by decide)

theorem delivered_map_length {types : List EventType} {f : Outbox → Outbox}
    (h : ∀ x ∈ rows, (f x).eventType = x.eventType) :
    (delivered types (rows.map f)).length = (delivered types rows).length := by
  unfold delivered
  rw [filter_types_map h, List.length_map, List.length_map, List.length_map]

theorem Case.Step.foreign (h : Case.Step w l c c')
    (hc : c.Inv) : ∀ o, c'.op = some o → o.ownerRef ≠ some "C_EXT" → Foreign o c' := by
  intro o' ho' howner
  cases h with
  | accept hop hinit hr =>
      cases ho'
      rw [hc.empty hop]
      have hstate := hinit.state
      by_cases hreq : o'.approvalRequired = true
      · simp only [acceptanceEventType, if_pos hreq] at hr hstate
        have hdispatch : delivered dispatchTypes [_] = [] := delivered_initial hr
        have hobservation : delivered observationTypes [_] = [] := delivered_initial hr
        refine ⟨?_, fun _ => hdispatch, hobservation, rfl, by simp [hstate]⟩
        exact Nat.le_trans (Nat.le_of_eq (congrArg List.length hdispatch)) (Nat.zero_le 1)
      · simp only [acceptanceEventType, if_neg hreq] at hr hstate
        have hdispatch : delivered dispatchTypes [_] = [false] := delivered_initial hr
        have hobservation : delivered observationTypes [_] = [] := delivered_initial hr
        exact ⟨Nat.le_of_eq (congrArg List.length hdispatch),
          fun h => absurd (hstate.symm.trans h) (by decide), hobservation, rfl, by simp [hstate]⟩
  | approve hop hreq hstate ha hr =>
      cases ho'
      have hold := hc.foreign _ hop howner
      have hdispatch : delivered dispatchTypes [_] = [false] := delivered_initial hr
      have hobservation : delivered observationTypes [_] = [] := delivered_initial hr
      refine ⟨?_, by simp, ?_, hold.receipts, by simp⟩
      · rw [delivered_append, hdispatch, hold.planned hstate]
        exact Nat.le_refl 1
      · rw [delivered_append, hobservation, hold.observations]
        rfl
  | @claim _ o _ _ _ hop hrow hclaimable hworker hpowner =>
      cases ho'
      rw [(o.submit_later w.s _).ownerRef] at howner
      exact absurd (claimable_due hclaimable hpowner).1 howner
  | @renew _ r p hrow hdelivered =>
      have hold := hc.foreign o' ho' howner
      have hsame : ∀ types, delivered types (replaceRow (r.renew w.s p.leaseSeconds) c.outbox) =
          delivered types c.outbox := fun types =>
        delivered_replace_same hrow (Outbox.renew_later hdelivered) rfl
      exact ⟨by rw [hsame]; exact hold.dispatches, by rw [hsame]; exact hold.planned,
        by rw [hsame]; exact hold.observations, hold.receipts, hold.untyped⟩
  | @apply _ o _ x _ _ _ _ _ hop hrow hfence =>
      cases ho'
      exact absurd ((o.reconcile_later w.s).ownerRef.trans (hc.owner_of_fence hop hrow hfence)) howner
  | observe hop hrow hfence hstate hx hobserved =>
      cases ho'
      exact absurd (hobserved.later.ownerRef.trans (hc.owner_of_fence hop hrow hfence)) howner
  | fail hop hrow hfence =>
      cases ho'
      exact absurd (hc.owner_of_fence hop hrow hfence) howner
  | verify hop hstate hevidence =>
      cases ho'
      exact absurd hevidence.action ((hc.foreign _ hop howner).untyped (by simp [hstate]))
  | propose hop =>
      have hold := hc.foreign o' ho' howner
      exact ⟨hold.dispatches, hold.planned, hold.observations, hold.receipts, hold.untyped⟩
  | merge hop =>
      cases ho'
      have hold := hc.foreign _ hop howner
      exact ⟨hold.dispatches, by simp [Operation.merge], hold.observations, hold.receipts,
        by simp [Operation.merge]⟩
  | @credential _ o outcome _ p rows hop hbroker hrows =>
      cases ho'
      have hold := hc.foreign _ hop howner
      have hplanned : (o.credentialResult w.s p outcome).state ≠ .planned := by
        cases outcome <;> exact fun h => by cases h
      have hlength : ∀ types, (delivered types rows).length = (delivered types c.outbox).length := by
        intro types
        rcases hrows with rfl | rfl
        · rfl
        · refine delivered_map_length fun x _ => ?_
          split <;> rfl
      refine ⟨?_, fun h => absurd h hplanned, ?_, hold.receipts, fun _ =>
        (outsideCredentialBroker_passed hbroker).2.1⟩
      · rw [hlength]
        exact hold.dispatches
      · rw [← List.length_eq_zero_iff, hlength, hold.observations]
        rfl

theorem Case.Step.op_ne_none (h : Case.Step w l c c')
    (hnone : c.op = none → c = Case.empty) : c'.op ≠ none := by
  cases h with
  | @renew _ r _ hrow =>
      intro hop
      have hempty := hnone hop
      rw [hempty] at hrow
      exact absurd hrow.1 (List.not_mem_nil)
  | propose hop => exact fun h => absurd (hop.symm.trans h) nofun
  | _ => exact nofun

theorem Case.Step.inv (h : Case.Step w l c c')
    (hc : c.Inv) : c'.Inv where
  empty hnone := absurd hnone (h.op_ne_none hc.empty)
  claimed := h.rowsClaimed hc.empty hc.claimed
  stage := h.stage hc
  foreign := h.foreign hc

theorem Case.inv_empty : Case.empty.Inv where
  empty _ := rfl
  claimed _ h := absurd h nofun
  stage _ h := absurd h nofun
  foreign _ h := absurd h nofun

/-- Every case of a reachable database meets the invariant. -/
theorem reach_inv (D : Digest) (i : Identity) (as : List Action) (id : Uuid) :
    ((reach D i as).case id).Inv :=
  reach_case Case.inv_empty Case.Step.inv D i as id

end Authority
