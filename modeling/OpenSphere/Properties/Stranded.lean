import OpenSphere.Durable.Steps

/-!
# Operations that nobody claims

An operation whose owner may have been called has to be reconciled.  A claim takes it over once its
lease has run out, but only before its deadline and while its approvals stand.  `unsettled_claimed`
says that nothing else keeps it from being claimed, and that what has not been sent expires.
-/

open Sql
open System (run_invariant)

namespace Durable

/-! ## Rows of a run -/

structure Row.Sound (now : Timestamp) (r : Row) : Prop where
  terms : r.terms.acceptable = true
  waiting : r.phase = .queued ∨ r.phase = .awaitingApproval → r.claimOwner = none
  unclaimed : r.claimOwner = none → r.phase.expires = true ∨ r.phase = .timedOut
  early : r.claimOwner ≠ none → r.nextAttemptAt ≤ now

theorem phaseToDb_claimed {next : WorkerPhase} {p : Phase × ExecutionState}
    (h : phaseToDb next = some p) : p.1 ≠ .queued ∧ p.1 ≠ .awaitingApproval := by
  cases next <;> cases h <;> exact ⟨nofun, nofun⟩

theorem claimable_claim {p : Phase} (h : p.claimable = true) :
    p.claim ≠ .queued ∧ p.claim ≠ .awaitingApproval := by
  cases p <;> cases h <;> exact ⟨nofun, nofun⟩

theorem heldBy_owner {r : Row} {c : Claimant} (h : r.heldBy c = true) : r.claimOwner ≠ none := by
  simp only [Row.heldBy, Bool.and_eq_true, decide_eq_true_eq] at h
  rw [h.1]
  exact Option.some_ne_none _

theorem Row.Step.sound {now now' : Timestamp} {who : Option Query} {r r' : Row}
    (h : Row.Step now' who r r') (hnow : now ≤ now') (hr : r.Sound now) : r'.Sound now' := by
  have hearly : r.claimOwner ≠ none → r.nextAttemptAt ≤ now' := fun hne =>
    le_trans (hr.early hne) hnow
  cases h with
  | same | beat | intended => exact ⟨hr.terms, hr.waiting, hr.unclaimed, hearly⟩
  | released nextAttemptAt h =>
      have hnone := hr.waiting (.inr h)
      exact ⟨hr.terms, fun _ => hnone, fun _ => .inl rfl, fun hne => absurd hnone hne⟩
  | expired c limit hphase hdue =>
      refine ⟨hr.terms, ?_, fun _ => .inr rfl, hearly⟩
      rintro (h | h) <;> cases h
  | claimed c limit hphase hattempt =>
      obtain ⟨hqueued, hawaiting⟩ := claimable_claim hphase
      refine ⟨hr.terms, ?_, nofun, fun _ => hattempt⟩
      rintro (h | h)
      · exact absurd h hqueued
      · exact absurd h hawaiting
  | stored c next p v hp hheld =>
      obtain ⟨hqueued, hawaiting⟩ := phaseToDb_claimed hp
      refine ⟨hr.terms, ?_, fun hnone => absurd hnone (heldBy_owner hheld), hearly⟩
      rintro (h | h)
      · exact absurd h hqueued
      · exact absurd h hawaiting

structure Ledger.Sound (w : Ledger) : Prop where
  distinct : w.Distinct
  rows : ∀ r ∈ w.rows, r.Sound w.clock

theorem Ledger.Step.sound {who : Option Query} {w w' : Ledger} (h : Ledger.Step who w w')
    (hw : w.Sound) : w'.Sound := by
  refine ⟨h.distinct, fun r' hr' => ?_⟩
  obtain ⟨f, fresh, hrows, hstep, hfresh⟩ := h.rows
  rw [hrows] at hr'
  rcases List.mem_append.mp hr' with hold | hnew
  · obtain ⟨r, hr, rfl⟩ := List.mem_map.mp hold
    exact (hstep r hr).sound h.clock (hw.rows r hr)
  · have hr := hfresh r' hnew
    refine ⟨hr.terms, fun _ => hr.claimOwner, fun _ => .inl ?_, fun hne => absurd hr.claimOwner hne⟩
    rcases hr.phase with hphase | hphase <;> rw [hphase] <;> rfl

theorem perform_step {s : State} (hs : s.world.Distinct) (m : Action) :
    ∃ who, Ledger.Step who s.world (perform m s).world :=
  s.perform_world (R := fun w => ∃ who, Ledger.Step who s.world w) ⟨none, .of_rows hs le_rfl rfl⟩
    (fun e _ q _ _ => ⟨_, answer_step hs e q⟩) (fun x => ⟨none, change_step hs x⟩) m

theorem reach_sound (clock : Timestamp) (ms : List Action) : (reach clock ms).world.Sound := by
  refine run_invariant (I := fun s : State => s.world.Sound) (fun m s hs => ?_) ⟨?_, ?_⟩ ms
  · obtain ⟨who, hstep⟩ := perform_step hs.distinct m
    exact hstep.sound hs
  · exact List.nodup_nil
  · exact fun r hr => absurd hr List.not_mem_nil

/-- **The table of operations.**  In every reachable state the operations are distinct and their terms
are acceptable, none that waits is claimed, one without a claimant expires or has, and a claim was not
made before the next attempt was due. -/
theorem rows_sound (clock : Timestamp) (ms : List Action) :
    ((reach clock ms).world.rows.map Row.operationId).Nodup ∧
    ∀ r ∈ (reach clock ms).world.rows, r.Sound (reach clock ms).world.clock :=
  ⟨(reach_sound clock ms).distinct, (reach_sound clock ms).rows⟩

/-! ## Claims -/

section

variable {w w' : Ledger} {c : Claimant} {limit : Int} {rows : List Row} {r : Row}

theorem claim_eq_ok (h : w.claim c limit = (.ok rows, w')) :
    rows = (w.expire.take c (w.expire.selected limit)).1 ∧
      w' = (w.expire.take c (w.expire.selected limit)).2 := by
  unfold Ledger.claim at h
  split at h
  · cases h
  · obtain ⟨hrows, hw'⟩ := Prod.mk.inj h
    exact ⟨(Except.ok.inj hrows).symm, hw'.symm⟩

theorem exists_claim (w : Ledger) (limit : Int) (h : ¬ (textLength (btrim c.worker) < 3 ∨ c.epoch < 1)) :
    ∃ rows w', w.claim c limit = (.ok rows, w') :=
  ⟨_, _, if_neg h⟩

theorem claimable_of_taken {w : Ledger} (hw : w.Distinct) {limit : Int}
    (hr : r ∈ w.expire.rows.filter fun r => (w.expire.selected limit).contains r.operationId) :
    r ∈ w.rows ∧ r.phase.claimable = true := by
  obtain ⟨hmem, hid⟩ := List.mem_filter.mp hr
  have hcandidate := candidate_of_selected (distinct_expire hw) hmem (List.contains_iff_mem.mp hid)
  obtain ⟨r₀, hr₀, rfl⟩ := List.mem_map.mp hmem
  have hsame := not_candidate_of_expired (w := w) hcandidate
  rw [hsame] at hcandidate ⊢
  simp only [Ledger.candidate, Bool.and_eq_true] at hcandidate
  exact ⟨hr₀, hcandidate.1.1.1.1.2⟩

theorem claimed_cases {w w' : Ledger} (hw : w.Distinct) {c : Claimant} {limit : Int} {rows : List Row}
    (hclaim : w.claim c limit = (.ok rows, w')) (hr : r ∈ rows) :
    ∃ r₀ ∈ w.rows, r₀.phase.claimable = true ∧ r = r₀.claim c w.clock := by
  rw [(claim_eq_ok hclaim).1] at hr
  obtain ⟨r₀, hr₀, rfl⟩ := List.mem_map.mp hr
  obtain ⟨hmem, hclaimable⟩ := claimable_of_taken hw hr₀
  exact ⟨r₀, hmem, hclaimable, rfl⟩

theorem mem_claimed (h : w.claim c limit = (.ok rows, w')) (hr : r ∈ w.expire.rows) :
    r.operationId ∈ rows.map Row.operationId ↔ r.operationId ∈ w.expire.selected limit := by
  rw [(claim_eq_ok h).1]
  simp only [Ledger.take, List.map_map, List.mem_map, List.mem_filter, List.contains_iff_mem,
    Function.comp]
  constructor
  · rintro ⟨r', ⟨hr', hselected⟩, hid⟩
    exact hid ▸ hselected
  · exact fun hselected => ⟨r, ⟨hr, hselected⟩, rfl⟩

theorem mem_selected (hw : w.Distinct) (hr : r ∈ w.rows)
    (hlimit : (w.rows.filter w.candidate).length ≤ claimLimit limit) :
    r.operationId ∈ w.selected limit ↔ w.candidate r = true := by
  refine ⟨candidate_of_selected hw hr, fun hcandidate => ?_⟩
  refine List.mem_map.mpr ⟨r, ?_, rfl⟩
  rw [List.take_of_length_le (by rw [List.length_insertionSort]; exact hlimit)]
  exact (List.mem_insertionSort _).mpr (List.mem_filter.mpr ⟨hr, hcandidate⟩)

theorem expire_of_unsettled {now : Timestamp} (h : r.phase.unsettled = true) :
    r.expire now = r := by
  rw [Row.expire, (Phase.unsettled_cases h).2.1, Bool.and_false, if_neg Bool.false_ne_true]

end

/-- An operation whose owner may have been called is left out after its deadline. -/
theorem late_not_claimed {w w' : Ledger} {c : Claimant} {limit : Int} {rows : List Row} (hw : w.Distinct)
    (hclaim : w.claim c limit = (.ok rows, w')) (hr : r ∈ w.rows)
    (hphase : r.phase.unsettled = true) (hlate : r.inTime w.clock = false) :
    r.operationId ∉ rows.map Row.operationId := by
  intro hmem
  have hsame : r.expire w.clock = r := expire_of_unsettled hphase
  have hr' : r ∈ w.expire.rows := hsame ▸ List.mem_map_of_mem hr
  have hcandidate := candidate_of_selected (distinct_expire hw) hr' ((mem_claimed hclaim hr').mp hmem)
  simp only [Ledger.candidate, Bool.and_eq_true] at hcandidate
  have hin : r.inTime w.clock = true := hcandidate.1.1.2
  rw [hlate] at hin
  cases hin

/-- **Operations that are claimed.**  At any time a claim with a sufficient limit selects an
operation whose owner may have been called and whose lease has run out exactly if its deadline is
not over and its approvals stand.  An operation that is overdue before it was sent times out. -/
theorem unsettled_claimed (clock : Timestamp) (ms : List Action) (elapsed : Nat) (c : Claimant)
    (limit : Int) {w w' : Ledger} {rows : List Row} (hw : w = (reach clock ms).world.advance elapsed)
    (hclaim : w.claim c limit = (.ok rows, w')) :
    ((w.expire.rows.filter w.expire.candidate).length ≤ claimLimit limit →
      ∀ r ∈ w.rows, r.phase.unsettled = true → r.unleased w.clock = true →
        (r.operationId ∈ rows.map Row.operationId ↔ r.inTime w.clock = true ∧ w.approved r = true)) ∧
    ∀ r ∈ w.rows, r.phase = .claimed ∨ r.phase = .preflighting → r.overdue w.clock = true →
      ∃ r', w'.row r.operationId = some r' ∧ r'.phase = .timedOut := by
  have hreach := reach_sound clock ms
  have hdistinct : w.Distinct := hw ▸ distinct_advance hreach.distinct elapsed
  have hsound : ∀ r ∈ w.rows, r.Sound w.clock := by
    rw [hw]
    intro r hr
    exact Row.Step.sound (.same none r)
      (Int.le_add_of_nonneg_right (Int.natCast_nonneg elapsed)) (hreach.rows r hr)
  refine ⟨fun hlimit r hr hphase hlease => ?_, fun r hr hphase hdue => ?_⟩
  · have hsame : r.expire w.clock = r := expire_of_unsettled hphase
    have hr' : r ∈ w.expire.rows := hsame ▸ List.mem_map_of_mem hr
    rw [mem_claimed hclaim hr', mem_selected (distinct_expire hdistinct) hr' hlimit]
    have hrow := hsound r hr
    have hterms := hrow.terms
    simp only [Terms.acceptable, Bool.and_eq_true, decide_eq_true_eq] at hterms
    obtain ⟨hclaimable, hexpires, -⟩ := Phase.unsettled_cases hphase
    have howner : r.claimOwner ≠ none := by
      intro hnone
      rcases hrow.unclaimed hnone with h | h
      · rw [hexpires] at h
        cases h
      · rw [h] at hphase
        cases hphase
    have hattempt : r.nextAttemptAt ≤ w.clock := hrow.early howner
    have hlease' : r.unleased w.expire.clock = true := hlease
    simp only [Ledger.candidate, hlease', hclaimable, Bool.and_eq_true, decide_eq_true_eq, and_true]
    exact ⟨fun h => ⟨h.1.2, h.2⟩, fun h => ⟨⟨⟨hterms.2, hattempt⟩, h.1⟩, h.2⟩⟩
  · have hexpires : r.expire w.clock =
        { r with phase := .timedOut, executionState := .timedOut } := by
      have hterms := (hsound r hr).terms
      simp only [Terms.acceptable, Bool.and_eq_true, decide_eq_true_eq] at hterms
      rw [Row.expire, if_pos]
      rcases hphase with h | h <;> simp [hdue, hterms.2, h, Phase.expires]
    have hmem : r.expire w.clock ∈ w.expire.rows := List.mem_map_of_mem hr
    have hout : (r.expire w.clock).operationId ∉ w.expire.selected limit := by
      intro hselected
      have hcandidate := candidate_of_selected (distinct_expire hdistinct) hmem hselected
      have hsame := not_candidate_of_expired (w := w) hcandidate
      rw [hexpires] at hsame
      rcases hphase with h | h <;> rw [← hsame] at h <;> cases h
    have hstep := claim_step hdistinct c limit
    rw [hclaim] at hstep
    refine ⟨r.expire w.clock, ?_, by rw [hexpires]⟩
    have hkept : r.expire w.clock ∈ w'.rows := by
      rw [(claim_eq_ok hclaim).2]
      refine List.mem_map.mpr ⟨_, hmem, ?_⟩
      rw [if_neg (by simpa using hout)]
    have hid : (r.expire w.clock).operationId = r.operationId := expire_operationId r
    rw [← hid]
    exact row_of_mem hstep.distinct hkept

/-! ## A worker that ends -/

namespace Demo

/-- A restart of a workload, with a deadline after ten minutes. -/
def restart : Terms where
  action := "restart-workload"
  actorId := "alice"
  authSessionId := some "session"
  authzRevision := some "1"
  toolId := "owner.workload.restart"
  verifierId := "authority.workload.rollout"
  ownerRoute := "cluster-manager/workloads"
  riskClass := some .r1
  requiredAssurance := some "aal1"
  requiredPermission := some "osaa.action.execute.high"
  idempotencyKey := "restart-1"
  bindingDigest := none
  target := .object (.cons "uid" (.string "uid") .nil)
  reason := "restart the console"
  deadlineAt := some 600000000

/-- Every request is answered, and Alice's session is active. -/
def turn : Turn where
  elapsed := 0
  fate := .answered
  failure := ⟨"", false⟩
  leaseLost := false
  now := 0
  session := some ⟨true, "alice", some "1", ["osaa.action.execute.high"], some "aal1", none, "token"⟩
  live := some ⟨true, true, "uid", none, none, none⟩
  receipt := none
  verdict := .succeeded

def id : Uuid := ⟨1⟩

def worker : Claimant := ⟨"backend-1", 1⟩

def other : Claimant := ⟨"backend-2", 2⟩

def pollFor (c : Claimant) (requests : Nat) : List Action :=
  .start ⟨c, 5⟩ :: List.replicate requests (.step 0 turn)

/-- A worker ends after it has stored that it calls the owner. -/
def runningRun : List Action := .outside (0, .accept id restart) :: pollFor worker 15 ++ [.crash 0]

/-- The ledger some time after the worker has ended. -/
def after (elapsed : Nat) : Ledger := (reach 0 runningRun).world.advance elapsed

end Demo

/-- A claim after the deadline leaves out an operation whose owner may have been called. -/
theorem running_stranded : ∃ w rows w', w = (reach 0 Demo.runningRun).world.advance 600000000 ∧
    w.claim Demo.other 5 = (.ok rows, w') ∧
    (w.expire.rows.filter w.expire.candidate).length ≤ claimLimit 5 ∧
    ∃ r ∈ w.rows, r.phase.unsettled = true ∧ r.unleased w.clock = true ∧
      r.operationId ∉ rows.map Row.operationId := by
  have hrun : ((Demo.after 600000000).expire.rows.filter
      (Demo.after 600000000).expire.candidate).length ≤ claimLimit 5 ∧
      (Demo.after 600000000).rows.any fun r => r.phase.unsettled &&
        r.unleased (Demo.after 600000000).clock && !r.inTime (Demo.after 600000000).clock := by
    decide
  have hdistinct : (Demo.after 600000000).Distinct :=
    distinct_advance (reach_sound 0 Demo.runningRun).distinct 600000000
  have hw : Demo.after 600000000 = (reach 0 Demo.runningRun).world.advance 600000000 := rfl
  generalize Demo.after 600000000 = w at *
  obtain ⟨rows, w', hclaim⟩ := exists_claim (c := Demo.other) w 5 (by decide)
  obtain ⟨r, hr, hrow⟩ := List.any_eq_true.mp hrun.2
  simp only [Bool.and_eq_true, Bool.not_eq_true'] at hrow
  exact ⟨w, rows, w', hw, hclaim, hrun.1, r, hr, hrow.1.1, hrow.1.2,
    late_not_claimed hdistinct hclaim hr hrow.1.1 hrow.2⟩

/-- A claim before the deadline takes the operation over. -/
theorem running_taken : ∃ w rows w', w = (reach 0 Demo.runningRun).world.advance 31000000 ∧
    w.claim Demo.other 5 = (.ok rows, w') ∧ Demo.id ∈ rows.map Row.operationId := by
  have hrun : ((Demo.after 31000000).expire.rows.filter
      (Demo.after 31000000).expire.candidate).length ≤ claimLimit 5 ∧
      (Demo.after 31000000).rows.any fun r => decide (r.operationId = Demo.id) && (r.phase.unsettled &&
        r.unleased (Demo.after 31000000).clock && (r.inTime (Demo.after 31000000).clock &&
          (Demo.after 31000000).approved r)) := by
    decide
  have hw : Demo.after 31000000 = (reach 0 Demo.runningRun).world.advance 31000000 := rfl
  generalize Demo.after 31000000 = w at *
  obtain ⟨rows, w', hclaim⟩ := exists_claim (c := Demo.other) w 5 (by decide)
  obtain ⟨r, hr, hrow⟩ := List.any_eq_true.mp hrun.2
  simp only [Bool.and_eq_true, decide_eq_true_eq] at hrow
  have hselected := ((unsettled_claimed 0 Demo.runningRun 31000000 Demo.other 5 hw hclaim).1 hrun.1 r hr
    hrow.2.1.1 hrow.2.1.2).mpr hrow.2.2
  exact ⟨w, rows, w', hw, hclaim, hrow.1 ▸ hselected⟩

end Durable
